import Calculator.Proofs.Binary64.Exact

/-!
# Rounding to the nearest double

The double of a quotient is the one nearest to it, and of two that are equally near the one
with the even significand.  A quotient is rounded on the grid of its own order.  Every double
of at least that order lies on the grid, and every smaller one is farther away than the least
power of two on it.
-/

namespace Calculator
namespace Binary64

open Float.Model (UnpackedFloat)

/-! ## The nearest double -/

/-- The least number that is too great for every finite double: half a unit above the greatest
one. -/
def overflowBound : ℚ :=
  (2 ^ 53 - 1 / 2) * 2 ^ (971 : ℤ)

theorem overflowBound_lt : overflowBound < 2 ^ (1024 : ℤ) := by
  calc overflowBound < 2 ^ (53 : ℤ) * 2 ^ (971 : ℤ) :=
        mul_lt_mul_of_pos_right (by norm_num) (zpow_pos two_pos _)
    _ = 2 ^ (1024 : ℤ) := (zpow_add₀ two_ne_zero 53 971).symm

/-- A finite double that is not negative, than which no other finite double is nearer to the
number; where another one is equally near, the significand is even. -/
structure IsNearestFinite (x : ℚ) (v : Float) : Prop where
  finite : v.isFinite = true
  not_negative : isNegative v = false
  nearest : ∀ w : Float, w.isFinite = true → |x - exactValue v| ≤ |x - exactValue w|
  tie : ∀ w : Float, w.isFinite = true → exactValue w ≠ exactValue v →
    |x - exactValue w| = |x - exactValue v| → (magnitude? v).any (2 ∣ ·.significand) = true

/-- What a number that is not negative is rounded to. -/
def IsNearest (x : ℚ) (v : Float) : Prop :=
  (x < overflowBound ∧ IsNearestFinite x v) ∨ (overflowBound ≤ x ∧ v = infinity)

theorem IsNearest.isNegative {x : ℚ} {v : Float} (h : IsNearest x v) : isNegative v = false := by
  rcases h with ⟨-, hv⟩ | ⟨-, rfl⟩
  · exact hv.not_negative
  · decide +kernel

theorem IsNearest.isNaN {x : ℚ} {v : Float} (h : IsNearest x v) : v.isNaN = false := by
  rcases h with ⟨-, hv⟩ | ⟨-, rfl⟩
  · have hfinite := hv.finite
    rw [Float.isFinite, Float.Model.isFinite] at hfinite
    rw [Float.isNaN, Float.Model.isNaN]
    cases hunpack : v.toModel.unpack with
    | notANumber =>
        rw [hunpack] at hfinite
        cases hfinite
    | _ => rfl
  · decide +kernel

/-! ## Finite doubles -/

theorem exactValue_zero (sign : UnpackedFloat.Sign) : exactValue (zero sign) = 0 := by
  rw [exactValue, magnitude?, unpack_zero]
  simp [Scaled.value]

theorem isFinite_of_magnitude? {v : Float} {s : Scaled} (h : magnitude? v = some s) :
    v.isFinite = true := by
  rw [Float.isFinite, Float.Model.isFinite]
  rw [magnitude?] at h
  cases hunpack : v.toModel.unpack with
  | zero => rfl
  | finite => rfl
  | _ =>
      rw [hunpack] at h
      cases h

/-- Every finite double is a whole number of units that are not too fine for its size. -/
theorem exists_units {v : Float} (h : v.isFinite = true) :
    ∃ (k e : ℤ), exactValue v = k * 2 ^ e ∧ |k| < 2 ^ 53 ∧ -1074 ≤ e := by
  obtain ⟨sign, rfl | ⟨m, rfl⟩⟩ := eq_zero_or_toFloat_of_isFinite h
  · exact ⟨0, 0, by simp [exactValue_zero], by norm_num, by norm_num⟩
  · have hlt : |(m.significand : ℤ)| < 2 ^ 53 := by
      rw [Nat.abs_cast]
      exact_mod_cast m.lt
    have hvalue : m.scaled.value = m.significand * 2 ^ m.exponent := rfl
    rw [exactValue, m.magnitude?_toFloat, m.isNegative_toFloat]
    cases sign with
    | positive => exact ⟨m.significand, m.exponent, hvalue, hlt, m.lower⟩
    | negative =>
        refine ⟨-m.significand, m.exponent, ?_, by rwa [abs_neg], m.lower⟩
        change -m.scaled.value = _
        rw [hvalue]
        push_cast
        ring

/-! ## Rounding to a whole number -/

/-- The whole number is nearest to the number, and even if there is another one that near. -/
def IsHalfEven (x : ℚ) (n : ℕ) : Prop :=
  |x - n| ≤ 1 / 2 ∧ (|x - n| = 1 / 2 → 2 ∣ n)

theorem isHalfEven_roundHalfEven (num : ℕ) {den : ℕ} (hden : 0 < den) :
    IsHalfEven (num / den) (roundHalfEven num den) := by
  have hdenQ : (0 : ℚ) < den := Nat.cast_pos.mpr hden
  have hsplit : (num : ℚ) / den = (num / den : ℕ) + (num % den : ℕ) / den := by
    rw [div_eq_iff hdenQ.ne', add_mul, div_mul_cancel₀ _ hdenQ.ne']
    exact_mod_cast (Nat.div_add_mod' num den).symm
  have hrest : ((num % den : ℕ) : ℚ) / den < 1 := by
    rw [div_lt_one hdenQ]
    exact_mod_cast Nat.mod_lt num hden
  have hnonneg : (0 : ℚ) ≤ ((num % den : ℕ) : ℚ) / den := by positivity
  have hbelow : 2 * (num % den) < den ↔ ((num % den : ℕ) : ℚ) / den < 1 / 2 := by
    rw [div_lt_div_iff₀ hdenQ two_pos, mul_comm, one_mul]
    exact_mod_cast Iff.rfl
  have habove : den < 2 * (num % den) ↔ 1 / 2 < ((num % den : ℕ) : ℚ) / den := by
    rw [div_lt_div_iff₀ two_pos hdenQ, one_mul, mul_comm _ (2 : ℚ)]
    exact_mod_cast Iff.rfl
  rw [hsplit, roundHalfEven]
  generalize ((num % den : ℕ) : ℚ) / den = r at *
  generalize num / den = q at *
  split_ifs with hlt hgt
  · have hr := hbelow.mp hlt
    rw [IsHalfEven, add_sub_cancel_left, abs_of_nonneg hnonneg]
    exact ⟨hr.le, fun heq => absurd heq hr.ne⟩
  · have hr := habove.mp hgt
    have habs : |(q : ℚ) + r - (q + 1 : ℕ)| = 1 - r := by
      rw [abs_sub_comm, abs_of_nonneg] <;> push_cast <;> linarith
    rw [IsHalfEven, habs]
    exact ⟨by linarith, fun heq => absurd heq (by linarith)⟩
  · have hr : r = 1 / 2 :=
      le_antisymm (not_lt.mp (mt habove.mpr hgt)) (not_lt.mp (mt hbelow.mpr hlt))
    have heven : 2 ∣ q + q % 2 := by omega
    refine ⟨?_, fun _ => heven⟩
    rw [hr]
    rcases Nat.mod_two_eq_zero_or_one q with hq | hq
    all_goals
      rw [hq]
      push_cast
      norm_num

/-- No whole number is nearer, and one that is equally near leaves the even choice. -/
theorem IsHalfEven.nearest {x : ℚ} {n : ℕ} (h : IsHalfEven x n) (k : ℤ) :
    |x - n| ≤ |x - k| ∧ (k ≠ n → |x - k| = |x - n| → 2 ∣ n) := by
  by_cases hk : k = n
  · subst hk
    exact ⟨le_of_eq (by push_cast; rfl), fun hne => absurd rfl hne⟩
  · have hapart : (1 : ℚ) ≤ |(n : ℚ) - k| := by
      have hint : (1 : ℤ) ≤ |(n : ℤ) - k| := Int.one_le_abs (sub_ne_zero.mpr (Ne.symm hk))
      exact_mod_cast hint
    have htriangle : |(n : ℚ) - k| ≤ |x - n| + |x - k| := by
      have := abs_sub_le (n : ℚ) x k
      rwa [abs_sub_comm (n : ℚ) x] at this
    have hhalf := h.1
    refine ⟨by linarith, fun _ heq => h.2 ?_⟩
    linarith

/-! ## The grid of a quotient -/

section Grid

variable {x : ℚ} {e : ℤ} {n : ℕ}

theorem abs_sub_units (x : ℚ) (e : ℤ) (k : ℚ) : |x - k * 2 ^ e| = |x / 2 ^ e - k| * 2 ^ e := by
  have hunit : (0 : ℚ) < 2 ^ e := zpow_pos two_pos e
  calc |x - k * 2 ^ e| = |(x / 2 ^ e - k) * 2 ^ e| := by
        rw [sub_mul, div_mul_cancel₀ _ hunit.ne']
    _ = |x / 2 ^ e - k| * 2 ^ e := by rw [abs_mul, abs_of_pos hunit]

theorem IsHalfEven.nearest_units (h : IsHalfEven (x / 2 ^ e) n) (k : ℤ) :
    |x - n * 2 ^ e| ≤ |x - k * 2 ^ e| ∧
      (k ≠ n → |x - k * 2 ^ e| = |x - n * 2 ^ e| → 2 ∣ n) := by
  have hunit : (0 : ℚ) < 2 ^ e := zpow_pos two_pos e
  obtain ⟨hle, htie⟩ := h.nearest k
  rw [abs_sub_units, abs_sub_units]
  refine ⟨mul_le_mul_of_nonneg_right hle hunit.le, fun hne heq => htie hne ?_⟩
  exact mul_right_cancel₀ hunit.ne' heq

/-- What is nearest on a grid is nearest on every coarser one. -/
theorem IsHalfEven.nearest_coarse (h : IsHalfEven (x / 2 ^ e) n) (k : ℤ) {f : ℤ} (hf : e ≤ f) :
    |x - n * 2 ^ e| ≤ |x - k * 2 ^ f| ∧
      ((k : ℚ) * 2 ^ f ≠ n * 2 ^ e → |x - k * 2 ^ f| = |x - n * 2 ^ e| → 2 ∣ n) := by
  obtain ⟨j, rfl⟩ := Int.le.dest hf
  have hunits : (k : ℚ) * 2 ^ (e + j) = (k * 2 ^ j : ℤ) * 2 ^ e := by
    rw [zpow_add₀ two_ne_zero, zpow_natCast]
    push_cast
    ring
  obtain ⟨hle, htie⟩ := h.nearest_units (k * 2 ^ j)
  rw [hunits]
  refine ⟨hle, fun hne heq => htie (fun hsame => hne ?_) heq⟩
  rw [hsame]
  push_cast
  rfl

/-- The exponent of the grid around a number. -/
def gridOf (x : ℚ) : ℤ :=
  max (Int.log 2 x - 52) (-1074)

theorem gridExponent_eq_gridOf {num den : ℕ} (hnum : 0 < num) (hden : 0 < den) :
    gridExponent num den = gridOf (num / den) := by
  rw [gridExponent, binaryOrder_eq_log hnum hden, gridOf]

/-- A number has at most 53 bits in front of the point of its grid. -/
theorem div_gridOf_lt (x : ℚ) : x / 2 ^ gridOf x < 2 ^ 53 := by
  rw [div_lt_iff₀ (zpow_pos two_pos _)]
  calc x < 2 ^ (Int.log 2 x + 1) := Int.lt_zpow_succ_log_self one_lt_two x
    _ ≤ 2 ^ (53 + gridOf x) := by
        refine zpow_le_zpow_right₀ one_le_two ?_
        rw [gridOf]
        omega
    _ = 2 ^ 53 * 2 ^ gridOf x := by
        rw [zpow_add₀ two_ne_zero]
        rfl

/-- It has all of them, unless the grid is the finest one. -/
theorem le_div_gridOf (hx : 0 < x) (hgrid : gridOf x ≠ -1074) : 2 ^ 52 ≤ x / 2 ^ gridOf x := by
  have horder : gridOf x = Int.log 2 x - 52 := by
    rw [gridOf] at hgrid ⊢
    omega
  rw [le_div_iff₀ (zpow_pos two_pos _)]
  calc (2 : ℚ) ^ 52 * 2 ^ gridOf x = 2 ^ Int.log 2 x := by
        rw [horder, ← zpow_natCast, ← zpow_add₀ two_ne_zero]
        congr 1
        push_cast
        ring
    _ ≤ x := Int.zpow_log_le_self one_lt_two hx

/-- What is nearest on the grid is nearest among all finite doubles. -/
theorem IsHalfEven.nearest_double (hx : 0 < x) (h : IsHalfEven (x / 2 ^ gridOf x) n) {w : Float}
    (hw : w.isFinite = true) :
    |x - n * 2 ^ gridOf x| ≤ |x - exactValue w| ∧
      (exactValue w ≠ n * 2 ^ gridOf x → |x - exactValue w| = |x - n * 2 ^ gridOf x| → 2 ∣ n) := by
  obtain ⟨k, e, hvalue, hk, he⟩ := exists_units hw
  rw [hvalue]
  by_cases hcoarse : gridOf x ≤ e
  · exact h.nearest_coarse k hcoarse
  · -- The double is smaller than the least power of two on the grid of this order.
    have hleast : (2 : ℚ) ^ 52 * 2 ^ gridOf x ≤ x := by
      have hfull := le_div_gridOf hx (by omega)
      rwa [le_div_iff₀ (zpow_pos two_pos _)] at hfull
    have hsmall : (k : ℚ) * 2 ^ e < 2 ^ 52 * 2 ^ gridOf x := by
      have hkQ : (k : ℚ) < 2 ^ 53 := by exact_mod_cast (le_abs_self k).trans_lt hk
      calc (k : ℚ) * 2 ^ e < 2 ^ 53 * 2 ^ e :=
            mul_lt_mul_of_pos_right hkQ (zpow_pos two_pos e)
        _ ≤ 2 ^ 53 * 2 ^ (gridOf x - 1) := by
            gcongr
            · exact one_le_two
            · omega
        _ = 2 ^ 52 * 2 ^ gridOf x := by
            rw [zpow_sub_one₀ two_ne_zero]
            ring
    have hnearer : |x - n * 2 ^ gridOf x| < |x - k * 2 ^ e| := by
      calc |x - n * 2 ^ gridOf x| ≤ |x - (2 ^ 52 : ℤ) * 2 ^ gridOf x| := (h.nearest_units _).1
        _ = x - 2 ^ 52 * 2 ^ gridOf x := by
            push_cast
            exact abs_of_nonneg (sub_nonneg.mpr hleast)
        _ < x - k * 2 ^ e := by linarith
        _ ≤ |x - k * 2 ^ e| := le_abs_self _
    exact ⟨hnearer.le, fun _ heq => absurd heq hnearer.ne'⟩

end Grid

/-! ## Doubles on a grid -/

section OnGrid

variable {n : ℕ} {e : ℤ}

theorem ofGrid_zero (e : ℤ) : ofGrid 0 e = zero .positive :=
  dif_pos rfl

theorem ofGrid_of_lt (hpos : 0 < n) (hlt : n < 2 ^ 53) (hnormal : 2 ^ 52 ≤ n ∨ e = -1074)
    (hlower : -1074 ≤ e) (hupper : e ≤ 971) :
    ofGrid n e = (Magnitude.mk n e hpos hlt hnormal hlower hupper).toFloat .positive :=
  (Magnitude.mk n e hpos hlt hnormal hlower hupper).ofGrid_eq

theorem ofGrid_carry (hlower : -1074 ≤ e) (hupper : e ≤ 970) :
    ofGrid (2 ^ 53) e =
      (Magnitude.mk (2 ^ 52) (e + 1) (by norm_num) (by norm_num) (.inl le_rfl) (by omega)
        (by omega)).toFloat .positive := by
  have hfull : 2 ^ 53 = Nat.pow 2 53 := rfl
  rw [ofGrid, dif_neg (by norm_num), if_pos hfull]
  rfl

/-- Beyond the largest exponent everything is infinite. -/
theorem ofModel_pack_of_le {m : ℕ} {f : ℤ} (hm : 0 < m) (hf : 972 ≤ f) :
    Float.ofModel (.pack (.finite .positive m f hm)) = infinity := by
  have hlarge : 2048 ≤ (f + 1023 + 52).toNat + 1 := by omega
  have hpack : Float.Model.pack (.finite .positive m f hm) =
      Float.Model.pack (.infinity .positive) := by
    rw [Float.Model.pack, Float.Model.pack, Float.Model.mk.injEq, UInt64.ofBitVec.injEq]
    exact if_pos hlarge
  rw [hpack]
  decide +kernel

theorem ofGrid_eq_infinity (hn : 0 < n) (he : 972 ≤ e ∨ n = 2 ^ 53 ∧ 971 ≤ e) :
    ofGrid n e = infinity := by
  rw [ofGrid, dif_neg hn.ne']
  split_ifs with hcarry
  · exact ofModel_pack_of_le (by decide) (by omega)
  · refine ofModel_pack_of_le hn (he.resolve_right fun h => hcarry ?_)
    exact h.1

end OnGrid

/-! ## Rounding a quotient -/

/-- Below half of the smallest positive double there is nothing but zero. -/
theorem isNearestFinite_zero {x : ℚ} (hx : 0 ≤ x) (hsmall : x < 2 ^ (-1075 : ℤ)) :
    IsNearestFinite x (zero .positive) where
  finite := by decide +kernel
  not_negative := by decide +kernel
  nearest := by
    intro w hw
    obtain ⟨k, e, hvalue, -, he⟩ := exists_units hw
    have hbelow : x / 2 ^ (-1074 : ℤ) ≤ 1 / 2 := by
      have hhalf : (2 : ℚ) ^ (-1075 : ℤ) = 1 / 2 * 2 ^ (-1074 : ℤ) := by
        rw [show (-1075 : ℤ) = -1074 - 1 by norm_num, zpow_sub_one₀ two_ne_zero]
        ring
      rw [div_le_iff₀ (zpow_pos two_pos _), ← hhalf]
      exact hsmall.le
    have hzero : IsHalfEven (x / 2 ^ (-1074 : ℤ)) 0 := by
      have hnonneg : 0 ≤ x / 2 ^ (-1074 : ℤ) := div_nonneg hx (zpow_nonneg two_pos.le _)
      rw [IsHalfEven, Nat.cast_zero, sub_zero, abs_of_nonneg hnonneg]
      exact ⟨hbelow, fun _ => dvd_zero 2⟩
    have hnearest := (hzero.nearest_coarse k he).1
    rw [Nat.cast_zero, zero_mul] at hnearest
    rw [exactValue_zero, hvalue]
    exact hnearest
  tie := fun _ _ _ _ => by decide +kernel

theorem isNearestFinite_of_isHalfEven {x : ℚ} {n : ℕ} (hx : 0 < x)
    (h : IsHalfEven (x / 2 ^ gridOf x) n) {v : Float} {s : Scaled} (hs : magnitude? v = some s)
    (hsign : isNegative v = false) (hvalue : s.value = n * 2 ^ gridOf x)
    (heven : 2 ∣ n → 2 ∣ s.significand) : IsNearestFinite x v := by
  have hexact : exactValue v = n * 2 ^ gridOf x := by
    rw [exactValue, hs, hsign]
    exact hvalue
  refine ⟨isFinite_of_magnitude? hs, hsign, fun w hw => ?_, fun w hw hne heq => ?_⟩
  · rw [hexact]
    exact (h.nearest_double hx hw).1
  · rw [hexact] at hne heq
    rw [hs, Option.any_some, decide_eq_true_eq]
    exact heven ((h.nearest_double hx hw).2 hne heq)

section Bits

variable {x : ℚ} {n : ℕ}

/-- The bits in front of the point are not more than 53, but for a carry. -/
theorem IsHalfEven.le_pow (h : IsHalfEven (x / 2 ^ gridOf x) n) : n ≤ 2 ^ 53 := by
  have hlt := div_gridOf_lt x
  have hle := (abs_le.mp h.1).1
  have hn : (n : ℚ) < (2 ^ 53 + 1 : ℕ) := by
    push_cast
    linarith
  exact Nat.lt_succ_iff.mp (Nat.cast_lt.mp hn)

theorem IsHalfEven.pow_le (hx : 0 < x) (h : IsHalfEven (x / 2 ^ gridOf x) n) :
    2 ^ 52 ≤ n ∨ gridOf x = -1074 := by
  by_cases hgrid : gridOf x = -1074
  · exact .inr hgrid
  · have hfull := le_div_gridOf hx hgrid
    have hle := (abs_le.mp h.1).2
    have hn : ((2 ^ 52 : ℕ) : ℚ) < (n + 1 : ℕ) := by
      push_cast
      linarith
    exact .inl (Nat.lt_succ_iff.mp (Nat.cast_lt.mp hn))

theorem neg_1074_le_gridOf (x : ℚ) : -1074 ≤ gridOf x :=
  le_max_right _ _

theorem gridOf_le (hx : 0 < x) (h : x < overflowBound) : gridOf x ≤ 971 := by
  have hlog := (Int.lt_zpow_iff_log_lt one_lt_two hx).mp (h.trans overflowBound_lt)
  rw [gridOf]
  omega

theorem le_gridOf (hx : 0 < x) (h : overflowBound ≤ x) : 971 ≤ gridOf x := by
  have hle : (2 : ℚ) ^ (1023 : ℤ) ≤ x := by
    calc (2 : ℚ) ^ (1023 : ℤ) = 2 ^ (52 : ℤ) * 2 ^ (971 : ℤ) := zpow_add₀ two_ne_zero 52 971
      _ ≤ (2 ^ 53 - 1 / 2) * 2 ^ (971 : ℤ) := by
          gcongr
          norm_num
      _ ≤ x := h
  have hlog := (Int.zpow_le_iff_le_log one_lt_two hx).mp hle
  rw [gridOf]
  omega

/-- On the coarsest grid of finite doubles, the bound lies half a unit below the carry. -/
theorem overflowBound_le_iff (x : ℚ) :
    overflowBound ≤ x ↔ 2 ^ 53 - 1 / 2 ≤ x / 2 ^ (971 : ℤ) := by
  rw [overflowBound, le_div_iff₀ (zpow_pos two_pos _)]

/-- A carry raises the exponent, for which there is room below the bound. -/
theorem IsHalfEven.gridOf_le_of_carry (hbound : x < overflowBound)
    (h : IsHalfEven (x / 2 ^ gridOf x) n) (hcarry : n = 2 ^ 53) (hupper : gridOf x ≤ 971) :
    gridOf x ≤ 970 := by
  by_contra hfull
  have hgrid : gridOf x = 971 := by omega
  refine not_le_of_gt hbound ((overflowBound_le_iff x).mpr ?_)
  have hle := (abs_le.mp h.1).1
  rw [hgrid, hcarry] at hle
  generalize x / 2 ^ (971 : ℤ) = q at hle ⊢
  push_cast at hle
  linarith

theorem isNearestFinite_ofGrid (hx : 0 < x) (hbound : x < overflowBound)
    (h : IsHalfEven (x / 2 ^ gridOf x) n) : IsNearestFinite x (ofGrid n (gridOf x)) := by
  have hupper := gridOf_le hx hbound
  have hlower := neg_1074_le_gridOf x
  rcases Nat.eq_zero_or_pos n with hzero | hpos
  · have hs : magnitude? (ofGrid n (gridOf x)) = some ⟨0, 0⟩ := by
      rw [hzero, ofGrid_zero, magnitude?, unpack_zero]
    refine isNearestFinite_of_isHalfEven hx h hs ?_ ?_ fun _ => dvd_zero 2
    · rw [hzero, ofGrid_zero, isNegative, unpack_zero]
    · simp [Scaled.value, hzero]
  · rcases Nat.lt_or_eq_of_le h.le_pow with hlt | hcarry
    · have hgrid := ofGrid_of_lt hpos hlt (h.pow_le hx) hlower hupper
      refine isNearestFinite_of_isHalfEven hx h (by rw [hgrid, Magnitude.magnitude?_toFloat])
        (by rw [hgrid, Magnitude.isNegative_toFloat]; rfl) rfl id
    · have hroom := h.gridOf_le_of_carry hbound hcarry hupper
      have hgrid := ofGrid_carry hlower hroom
      subst hcarry
      refine isNearestFinite_of_isHalfEven hx h (by rw [hgrid, Magnitude.magnitude?_toFloat])
        (by rw [hgrid, Magnitude.isNegative_toFloat]; rfl) ?_
        fun _ => by norm_num [Magnitude.scaled]
      rw [Scaled.value, Magnitude.scaled, zpow_add_one₀ two_ne_zero]
      push_cast
      ring

theorem ofGrid_eq_infinity_of_le (hx : 0 < x) (hbound : overflowBound ≤ x)
    (h : IsHalfEven (x / 2 ^ gridOf x) n) : ofGrid n (gridOf x) = infinity := by
  have hlower := le_gridOf hx hbound
  have hfull : 2 ^ 52 ≤ n := (h.pow_le hx).resolve_right (by omega)
  refine ofGrid_eq_infinity (by omega) ?_
  by_cases hgrid : gridOf x = 971
  · -- Half a unit below the carry the even choice is the carry.
    have hle := (overflowBound_le_iff x).mp hbound
    have hodd : n ≠ 2 ^ 53 - 1 := by
      rintro rfl
      rw [hgrid] at h
      have hfar : 1 / 2 ≤ |x / 2 ^ (971 : ℤ) - (2 ^ 53 - 1 : ℕ)| := by
        refine le_trans ?_ (le_abs_self _)
        generalize x / 2 ^ (971 : ℤ) = q at hle ⊢
        push_cast
        linarith
      exact absurd (h.2 (le_antisymm h.1 hfar)) (by norm_num)
    have hn : ((2 ^ 53 - 1 : ℕ) : ℚ) ≤ n := by
      have hupper := (abs_le.mp h.1).2
      rw [hgrid] at hupper
      push_cast
      linarith
    have hcast := Nat.cast_le.mp hn
    have hupper := h.le_pow
    exact .inr ⟨by omega, by omega⟩
  · exact .inl (by omega)

end Bits

/-- The double of a quotient is the one nearest to it. -/
theorem isNearest_ofRatio (num : ℕ) {den : ℕ} (hden : 0 < den) :
    IsNearest (num / den) (ofRatio num den) := by
  rcases Nat.eq_zero_or_pos num with rfl | hnum
  · have hzero : ofRatio 0 den = zero .positive := by
      rw [ofRatio, Nat.zero_mul, roundHalfEven, Nat.zero_mod, Nat.zero_div, if_pos]
      · exact ofGrid_zero _
      · exact Nat.mul_pos hden (Nat.pow_pos two_pos)
    rw [hzero, Nat.cast_zero, zero_div]
    refine .inl ⟨?_, isNearestFinite_zero le_rfl (zpow_pos two_pos _)⟩
    exact mul_pos (by norm_num) (zpow_pos two_pos _)
  · have hx : (0 : ℚ) < num / den := div_pos (Nat.cast_pos.mpr hnum) (Nat.cast_pos.mpr hden)
    have hunits : IsHalfEven ((num : ℚ) / den / 2 ^ gridExponent num den)
        (roundHalfEven (num * Nat.pow 2 (-gridExponent num den).toNat)
          (den * Nat.pow 2 (gridExponent num den).toNat)) := by
      have hscaled := isHalfEven_roundHalfEven
        (num * Nat.pow 2 (-gridExponent num den).toNat)
        (Nat.mul_pos hden (Nat.pow_pos (n := (gridExponent num den).toNat) two_pos))
      have hvalue : (num : ℚ) / den / 2 ^ gridExponent num den =
          (num * Nat.pow 2 (-gridExponent num den).toNat : ℕ) /
            (den * Nat.pow 2 (gridExponent num den).toNat : ℕ) := by
        rw [zpow_eq_div two_ne_zero, Nat.pow_eq, Nat.pow_eq]
        push_cast
        rw [div_div_eq_mul_div, div_mul_eq_mul_div, div_div]
      rwa [hvalue]
    rw [gridExponent_eq_gridOf hnum hden] at hunits
    rw [ofRatio, gridExponent_eq_gridOf hnum hden]
    by_cases hbound : (num : ℚ) / den < overflowBound
    · exact .inl ⟨hbound, isNearestFinite_ofGrid hx hbound hunits⟩
    · exact .inr ⟨not_lt.mp hbound, ofGrid_eq_infinity_of_le hx (not_lt.mp hbound) hunits⟩

/-- The double of a natural number is the one nearest to it. -/
theorem isNearest_ofInt (n : ℕ) : IsNearest n (ofInt n) := by
  have hnearest := isNearest_ofRatio n one_pos
  rw [Nat.cast_one, div_one] at hnearest
  rw [ofInt, withSign, if_neg (by simp)]
  exact hnearest

end Binary64
end Calculator
