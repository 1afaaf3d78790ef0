import Calculator.Proofs.Binary64.Sum

/-!
# Adding and subtracting one

Beyond `2 ^ 53` the finite doubles are even numbers.  One more or less is then half way to the
next one, so that the multiples of four swallow it, and only they.  Nearer to zero one less or
one more leads past a whole number.
-/

namespace Calculator
namespace Binary64

open Float.Model.UnpackedFloat (Sign)

/-- The numbers that adding one leaves as they are, and subtracting one too. -/
def AbsorbsOne (x : ℚ) : Prop :=
  ∃ n : ℤ, 2 ^ 53 < |4 * n| ∧ x = 4 * n

theorem AbsorbsOne.neg {x : ℚ} (h : AbsorbsOne x) : AbsorbsOne (-x) := by
  obtain ⟨n, hlarge, rfl⟩ := h
  refine ⟨-n, by rwa [mul_neg, abs_neg], ?_⟩
  push_cast
  ring

/-! ## Which numbers are doubles -/

/-- A whole number of at most 53 bits is a double, also in greater units. -/
theorem exists_double {k e : ℤ} (hk : |k| < 2 ^ 53) (hlower : -1022 ≤ e) (hupper : e ≤ 971) :
    ∃ w : Float, w.isFinite = true ∧ exactValue w = k * 2 ^ e := by
  rcases eq_or_ne k 0 with rfl | hne
  · refine ⟨zero .positive, by decide +kernel, ?_⟩
    rw [exactValue_zero, Int.cast_zero, zero_mul]
  · have hpos : 0 < k.natAbs := Int.natAbs_pos.mpr hne
    have hlt : k.natAbs < 2 ^ 53 := by
      rw [Int.abs_eq_natAbs] at hk
      exact_mod_cast hk
    have hbits : k.natAbs.log2 ≤ 52 :=
      Nat.lt_succ_iff.mp ((Nat.log2_lt hpos.ne').mpr hlt)
    -- The significand is filled up to 53 bits, for which the exponent leaves room.
    obtain ⟨fill, hfill⟩ := Nat.exists_eq_add_of_le hbits
    have hfull : 2 ^ 52 ≤ k.natAbs * 2 ^ fill := by
      calc 2 ^ 52 = 2 ^ k.natAbs.log2 * 2 ^ fill := by rw [← pow_add, ← hfill]
        _ ≤ k.natAbs * 2 ^ fill := Nat.mul_le_mul_right _ (Nat.log2_self_le hpos.ne')
    have hfits : k.natAbs * 2 ^ fill < 2 ^ 53 := by
      calc k.natAbs * 2 ^ fill < 2 ^ (k.natAbs.log2 + 1) * 2 ^ fill :=
            Nat.mul_lt_mul_of_pos_right Nat.lt_log2_self (Nat.two_pow_pos fill)
        _ = 2 ^ 53 := by
            rw [← pow_add]
            congr 1
            omega
    let m : Magnitude := ⟨k.natAbs * 2 ^ fill, e - fill, by positivity, hfits, .inl hfull,
      by omega, by omega⟩
    have hvalue : m.scaled.value = k.natAbs * 2 ^ e := by
      change ((k.natAbs * 2 ^ fill : ℕ) : ℚ) * 2 ^ (e - (fill : ℤ)) = _
      rw [zpow_sub₀ two_ne_zero, zpow_natCast]
      push_cast
      field_simp
    rcases lt_or_gt_of_ne hne with hneg | hpos
    · refine ⟨m.toFloat .negative, isFinite_of_magnitude? (m.magnitude?_toFloat _), ?_⟩
      rw [m.exactValue_toFloat_negative, hvalue, Nat.cast_natAbs, abs_of_neg hneg, Int.cast_neg,
        neg_mul, neg_neg]
    · refine ⟨m.toFloat .positive, isFinite_of_magnitude? (m.magnitude?_toFloat _), ?_⟩
      rw [m.exactValue_toFloat_positive, hvalue, Nat.cast_natAbs, abs_of_pos hpos]

section

variable {v z : Float}

/-- Beyond 53 bits the doubles are even, and those of an even significand twice so. -/
theorem exists_even (hv : v.isFinite = true) (hlarge : 2 ^ 53 < |exactValue v|) :
    ∃ k : ℤ, exactValue v = 2 * k ∧ (2 ∣ k ∨ |k| < 2 ^ 53) ∧
      ((magnitude? v).any (2 ∣ ·.significand) = true → 2 ∣ k) := by
  obtain ⟨sign, rfl | ⟨m, rfl⟩⟩ := eq_zero_or_toFloat_of_isFinite hv
  · rw [exactValue_zero, abs_zero] at hlarge
    exact absurd hlarge (by norm_num)
  · have hexponent : 1 ≤ m.exponent := by
      by_contra hsmall
      have hunit : (2 : ℚ) ^ m.exponent ≤ 1 := zpow_le_one_of_nonpos₀ one_le_two (by omega)
      have hltQ : (m.significand : ℚ) < 2 ^ 53 := by exact_mod_cast m.lt
      refine absurd hlarge (not_lt.mpr ?_)
      rw [m.abs_exactValue_toFloat, m.scaled_value]
      calc (m.significand : ℚ) * 2 ^ m.exponent ≤ m.significand * 1 := by gcongr
        _ ≤ 2 ^ 53 := by linarith
    obtain ⟨j, hj⟩ := Int.le.dest hexponent
    refine ⟨sign.apply m.significand * 2 ^ j, ?_, ?_, ?_⟩
    · rw [m.exactValue_toFloat, ← hj, zpow_add₀ two_ne_zero, zpow_natCast]
      push_cast
      ring
    · rcases Nat.eq_zero_or_pos j with rfl | hpos
      · have hltZ : (m.significand : ℤ) < 2 ^ 53 := by exact_mod_cast m.lt
        rw [pow_zero, mul_one, abs_lt]
        cases sign <;> simp only [Sign.apply] <;> omega
      · exact .inl (Dvd.dvd.mul_left (dvd_pow_self 2 hpos.ne') _)
    · rw [m.magnitude?_toFloat, Option.any_some, decide_eq_true_eq]
      intro heven
      refine Dvd.dvd.mul_right ?_ _
      have hcast : (2 : ℤ) ∣ m.significand := by exact_mod_cast heven
      cases sign with
      | positive => exact hcast
      | negative => exact (Int.dvd_neg).mpr hcast

/-- One more than a finite double is far from overflowing. -/
theorem abs_exactValue_add_one_lt (hv : v.isFinite = true) :
    |exactValue v| + 1 < overflowBound := by
  have hunit : (2 : ℚ) ^ (2 : ℤ) ≤ 2 ^ (971 : ℤ) := zpow_le_zpow_right₀ one_le_two (by norm_num)
  obtain ⟨sign, rfl | ⟨m, rfl⟩⟩ := eq_zero_or_toFloat_of_isFinite hv
  · rw [exactValue_zero, abs_zero, overflowBound]
    generalize (2 : ℚ) ^ (971 : ℤ) = unit at hunit ⊢
    norm_num at hunit
    linarith
  · have hltQ : (m.significand : ℚ) ≤ 2 ^ 53 - 1 := by
      have hlt := m.lt
      rw [le_sub_iff_add_le]
      exact_mod_cast hlt
    have hle : m.scaled.value ≤ (2 ^ 53 - 1) * 2 ^ (971 : ℤ) := by
      have hunits : (2 : ℚ) ^ m.exponent ≤ 2 ^ (971 : ℤ) :=
        zpow_le_zpow_right₀ one_le_two m.upper
      rw [m.scaled_value]
      exact mul_le_mul hltQ hunits (zpow_pos two_pos _).le (by norm_num)
    rw [m.abs_exactValue_toFloat, overflowBound]
    generalize (2 : ℚ) ^ (971 : ℤ) = unit at hunit hle ⊢
    norm_num at hunit
    linarith

theorem isFinite_one : (1 : Float).isFinite = true := by
  decide +kernel

theorem exactValue_one : exactValue 1 = 1 := by
  have hone : magnitude? 1 = some ⟨2 ^ 52, -52⟩ := by decide +kernel
  have hsign : isNegative 1 = false := by decide +kernel
  rw [exactValue, hone, hsign]
  norm_num [Scaled.value]

theorem isRounded_sub_one (hv : v.isFinite = true) : IsRounded (exactValue v - 1) (v - 1) := by
  have hbound : |exactValue v - exactValue 1| < overflowBound := by
    rw [exactValue_one]
    refine lt_of_le_of_lt (abs_sub _ _) ?_
    rw [abs_one]
    exact abs_exactValue_add_one_lt hv
  have hrounded := isRounded_sub hv isFinite_one hbound
  rwa [exactValue_one] at hrounded

theorem isRounded_add_one (hv : v.isFinite = true) : IsRounded (exactValue v + 1) (v + 1) := by
  have hbound : |exactValue v + exactValue 1| < overflowBound := by
    rw [exactValue_one]
    refine lt_of_le_of_lt (abs_add_le _ _) ?_
    rw [abs_one]
    exact abs_exactValue_add_one_lt hv
  have hrounded := isRounded_add hv isFinite_one hbound
  rwa [exactValue_one] at hrounded

/-! ## Rounding one less -/

/-- The double is one apart from one less than it, so what is nearest is not farther. -/
theorem IsRounded.within_one (hv : v.isFinite = true) (h : IsRounded (exactValue v - 1) z) :
    exactValue v - 2 ≤ exactValue z ∧ exactValue z ≤ exactValue v := by
  have hnearest := h.nearest v hv
  rw [sub_sub_cancel_left, abs_neg, abs_one, abs_le] at hnearest
  constructor <;> linarith

theorem IsRounded.eq_of_absorbsOne (hv : v.isFinite = true) (h : IsRounded (exactValue v - 1) z)
    (habsorbs : AbsorbsOne (exactValue v)) : exactValue z = exactValue v := by
  obtain ⟨hlow, hhigh⟩ := h.within_one hv
  obtain ⟨n, hlarge, hn⟩ := habsorbs
  have hfar : 2 ^ 53 < |exactValue z| := by
    have hgap : (2 : ℚ) ^ 53 + 4 ≤ |exactValue v| := by
      rw [hn]
      have hint : 2 ^ 53 + 4 ≤ |4 * n| := by
        rw [le_abs]
        rcases lt_abs.mp hlarge with hlarge | hlarge <;> omega
      exact_mod_cast hint
    have htriangle := abs_sub_abs_le_abs_sub (exactValue v) (exactValue z)
    have hdistance : |exactValue v - exactValue z| ≤ 2 := abs_le.mpr ⟨by linarith, by linarith⟩
    linarith
  obtain ⟨k, hk, -, heven⟩ := exists_even h.finite hfar
  by_contra hne
  -- The other even number in reach is no multiple of four, so the tie is not decided for it.
  have hbelow : k = 2 * n - 1 := by
    rw [hn, hk] at hlow hhigh hne
    have hleast : 4 * n - 2 ≤ 2 * k := by exact_mod_cast hlow
    have hmost : 2 * k ≤ 4 * n := by exact_mod_cast hhigh
    have hother : 2 * k ≠ 4 * n := fun heq => hne (by exact_mod_cast heq)
    omega
  have htie : |exactValue v - 1 - exactValue v| = |exactValue v - 1 - exactValue z| := by
    rw [hn, hk, hbelow]
    push_cast
    ring_nf
    norm_num
  have hdvd := heven (h.tie v hv (Ne.symm hne) htie)
  omega

/-- Every other number that is not negative gets less. -/
theorem IsRounded.lt_of_not_absorbsOne (hv : v.isFinite = true)
    (h : IsRounded (exactValue v - 1) z) (hnonneg : 0 ≤ exactValue v)
    (habsorbs : ¬ AbsorbsOne (exactValue v)) : exactValue z < exactValue v := by
  refine lt_of_le_of_ne (h.within_one hv).2 fun hsame => ?_
  have hone : |exactValue v - 1 - exactValue z| = 1 := by
    rw [hsame, sub_sub_cancel_left, abs_neg, abs_one]
  by_cases hsmall : exactValue v ≤ 2 ^ 53
  · -- The whole number below the double is nearer.
    have hceil := Int.ceil_lt_add_one (exactValue v)
    have hle := Int.le_ceil (exactValue v)
    have hbits : |⌈exactValue v⌉ - 1| < 2 ^ 53 := by
      have hlow : 0 ≤ ⌈exactValue v⌉ := Int.ceil_nonneg hnonneg
      have hhigh : ⌈exactValue v⌉ ≤ 2 ^ 53 := Int.ceil_le.mpr (by exact_mod_cast hsmall)
      rw [abs_lt]
      omega
    obtain ⟨w, hw, hvalue⟩ := exists_double (e := 0) hbits (by norm_num) (by norm_num)
    have hnearest := h.nearest w hw
    rw [hone, hvalue, zpow_zero, mul_one, le_abs] at hnearest
    push_cast at hnearest
    rcases hnearest with hle | hle <;> linarith
  · -- Two below the double is as near, and the significand of the double is odd.
    have hlarge : 2 ^ 53 < |exactValue v| := (not_le.mp hsmall).trans_le (le_abs_self _)
    obtain ⟨k, hk, hbits, heven⟩ := exists_even h.finite (by rwa [hsame])
    rw [hsame] at hk
    have hodd : ¬ 2 ∣ k := by
      rintro ⟨n, rfl⟩
      have hfour : exactValue v = (4 * n : ℤ) := by
        rw [hk]
        push_cast
        ring
      refine habsorbs ⟨n, ?_, by exact_mod_cast hfour⟩
      rw [hfour] at hlarge
      exact_mod_cast hlarge
    have hpositive : 0 < k := by
      have htwice : (0 : ℚ) < 2 * k := by
        rw [← hk]
        linarith
      exact_mod_cast pos_of_mul_pos_right htwice two_pos.le
    have hbelow : |k - 1| < 2 ^ 53 := by
      have hfits := abs_lt.mp (hbits.resolve_left hodd)
      rw [abs_lt]
      omega
    obtain ⟨w, hw, hvalue⟩ := exists_double (e := 1) hbelow (by norm_num) (by norm_num)
    have htwo : exactValue w = exactValue v - 2 := by
      rw [hvalue, hk]
      push_cast
      ring
    refine hodd (heven (h.tie w hw ?_ ?_))
    · rw [hsame, htwo]
      linarith
    · rw [hone, htwo, sub_sub_sub_cancel_left]
      norm_num

/-! ## One less and one more -/

theorem exactValue_sub_one_le (hv : v.isFinite = true) : exactValue (v - 1) ≤ exactValue v :=
  ((isRounded_sub_one hv).within_one hv).2

/-- One more than a double is, on the other side of zero, one less. -/
theorem isRounded_neg_add_one (hv : v.isFinite = true) :
    IsRounded (exactValue (-v) - 1) (-(v + 1)) := by
  have hrounded := (isRounded_add_one hv).neg
  rwa [exactValue_neg hv, ← neg_add']

theorem le_exactValue_add_one (hv : v.isFinite = true) : exactValue v ≤ exactValue (v + 1) := by
  have hwithin := ((isRounded_neg_add_one hv).within_one (isFinite_neg hv)).2
  rwa [exactValue_neg hv, exactValue_neg (isRounded_add_one hv).finite, neg_le_neg_iff] at hwithin

/-- One less and one more differ, unless the number absorbs both. -/
theorem sub_one_lt_add_one_iff {u : Float} (hu : u.isFinite = true) (hv : v.isFinite = true)
    (hsame : exactValue u = exactValue v) :
    exactValue (u - 1) < exactValue (v + 1) ↔ ¬ AbsorbsOne (exactValue v) := by
  have hbelow := exactValue_sub_one_le hu
  have habove := le_exactValue_add_one hv
  constructor
  · intro hlt habsorbs
    have hless := (isRounded_sub_one hu).eq_of_absorbsOne hu (hsame ▸ habsorbs)
    have hmore := (isRounded_neg_add_one hv).eq_of_absorbsOne (isFinite_neg hv)
      (exactValue_neg hv ▸ habsorbs.neg)
    rw [exactValue_neg hv, exactValue_neg (isRounded_add_one hv).finite, neg_inj] at hmore
    linarith
  · intro hnot
    rcases le_total 0 (exactValue v) with hnonneg | hnonpos
    · have hless := (isRounded_sub_one hu).lt_of_not_absorbsOne hu (hsame ▸ hnonneg) (hsame ▸ hnot)
      linarith
    · have hnegated : ¬ AbsorbsOne (exactValue (-v)) := by
        intro habsorbs
        rw [exactValue_neg hv] at habsorbs
        exact hnot (neg_neg (exactValue v) ▸ habsorbs.neg)
      have hmore := (isRounded_neg_add_one hv).lt_of_not_absorbsOne (isFinite_neg hv)
        (by rw [exactValue_neg hv]; linarith) hnegated
      rw [exactValue_neg hv, exactValue_neg (isRounded_add_one hv).finite] at hmore
      linarith

end

end Binary64
end Calculator
