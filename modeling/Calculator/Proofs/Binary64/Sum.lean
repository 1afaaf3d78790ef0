import Calculator.Proofs.Binary64.NotANumber
import Calculator.Proofs.Binary64.Sign

/-!
# Sums of doubles

The sum of two finite doubles is the double nearest to the sum of the numbers that they stand
for.  The program adds the significands on the finer of the two grids and rounds the result: it
shifts bit by bit, keeping in two more bits where the number lies between the whole units.
-/

namespace Calculator
namespace Binary64

open Float.Model
open Float.Model.UnpackedFloat

/-! ## Shifting -/

/-- What a significand and its two extra bits say of the number that was shifted. -/
def Represents (em : ExtendedMantissa) (x : ℚ) : Prop :=
  match em.roundBit, em.stickyBit with
  | false, false => x = em.mantissa
  | false, true => em.mantissa < x ∧ x < em.mantissa + 1 / 2
  | true, false => x = em.mantissa + 1 / 2
  | true, true => em.mantissa + 1 / 2 < x ∧ x < em.mantissa + 1

theorem represents_exact (m : ℕ) : Represents (.ofMantissaAndAccuracy m .exact) m :=
  rfl

/-- One shift halves the number; the bit that is shifted out is kept. -/
theorem Represents.shiftRightOne {em : ExtendedMantissa} {x : ℚ} (h : Represents em x) :
    Represents em.shiftRightOne (x / 2) := by
  obtain ⟨m, roundBit, stickyBit⟩ := em
  have hsplit : (m : ℚ) = 2 * (m / 2 : ℕ) + (m % 2 : ℕ) := by
    exact_mod_cast (Nat.div_add_mod m 2).symm
  change Represents ⟨m / 2, m % 2 != 0, roundBit || stickyBit⟩ (x / 2)
  generalize m / 2 = half at hsplit ⊢
  rcases Nat.mod_two_eq_zero_or_one m with hbit | hbit
  all_goals
    rw [hbit] at hsplit ⊢
    push_cast at hsplit
    cases roundBit <;> cases stickyBit
    all_goals
      simp only [Represents, bne_self_eq_false, Nat.reduceBNe, Bool.or_false, Bool.or_true] at h ⊢
    all_goals first | linarith | exact ⟨by linarith, by linarith⟩

theorem Represents.shiftRight {em : ExtendedMantissa} {x : ℚ} (h : Represents em x) (k : ℕ) :
    Represents (em >>> k) (x / 2 ^ k) := by
  change Represents (k.repeat ExtendedMantissa.shiftRightOne em) _
  induction k with
  | zero => rwa [pow_zero, div_one]
  | succ k ih =>
      rw [pow_succ, ← div_div]
      exact ih.shiftRightOne

/-- The extra bits are what rounding has to know. -/
theorem Represents.isHalfEven {em : ExtendedMantissa} {x : ℚ} (h : Represents em x) :
    IsHalfEven x em.roundedMantissa := by
  obtain ⟨m, roundBit, stickyBit⟩ := em
  cases roundBit <;> cases stickyBit
  · have hx : x = m := h
    change IsHalfEven x m
    rw [IsHalfEven, hx, sub_self, abs_zero]
    exact ⟨by norm_num, fun heq => absurd heq (by norm_num)⟩
  · obtain ⟨hlow, hhigh⟩ : (m : ℚ) < x ∧ x < m + 1 / 2 := h
    change IsHalfEven x m
    rw [IsHalfEven, abs_of_nonneg (by linarith)]
    exact ⟨by linarith, fun heq => by linarith⟩
  · have hx : x = m + 1 / 2 := h
    change IsHalfEven x (m + m % 2 : ℕ)
    refine ⟨?_, fun _ => by omega⟩
    rw [hx]
    rcases Nat.mod_two_eq_zero_or_one m with hbit | hbit
    all_goals
      rw [hbit]
      push_cast
      norm_num
  · obtain ⟨hlow, hhigh⟩ : (m : ℚ) + 1 / 2 < x ∧ x < m + 1 := h
    change IsHalfEven x (m + 1 : ℕ)
    rw [IsHalfEven, abs_of_nonpos (by push_cast; linarith)]
    push_cast
    exact ⟨by linarith, fun heq => by linarith⟩

/-! ## Rounding -/

section Rounding

variable {m : ℕ} {e : ℤ}

theorem log_mul_zpow (hm : 0 < m) (e : ℤ) : Int.log 2 ((m : ℚ) * 2 ^ e) = m.log2 + e := by
  have hunit : (0 : ℚ) < 2 ^ e := zpow_pos two_pos _
  have hle : (2 : ℚ) ^ m.log2 ≤ m := mod_cast Nat.log2_self_le (Nat.ne_of_gt hm)
  have hlt : (m : ℚ) < 2 ^ (m.log2 + 1) := mod_cast Nat.lt_log2_self
  apply log_eq_of_bounds (mul_pos (Nat.cast_pos.mpr hm) hunit)
  · rw [zpow_add₀ two_ne_zero, zpow_natCast]
    exact mul_le_mul_of_nonneg_right hle hunit.le
  · rw [add_right_comm, zpow_add₀ two_ne_zero, ← Nat.cast_add_one, zpow_natCast]
    exact mul_lt_mul_of_pos_right hlt hunit

/-- The exponent that the format wants is the grid around the number. -/
theorem targetExponent_eq_gridOf (hm : 0 < m) (e : ℤ) :
    Format.binary64.targetExponent (totalExponent m e) = gridOf (m * 2 ^ e) := by
  rw [gridOf, log_mul_zpow hm, Format.targetExponent, totalExponent]
  change max (_ - 53) (-1074) = _
  congr 1
  ring

theorem decreaseExponent_value (m : ℕ) (e t : ℤ) :
    ((decreaseExponent m e t).1 : ℚ) * 2 ^ (decreaseExponent m e t).2 = m * 2 ^ e := by
  rw [decreaseExponent]
  dsimp only
  rw [Nat.shiftLeft_eq]
  push_cast
  rw [← zpow_natCast, mul_assoc, ← zpow_add₀ two_ne_zero]
  congr 2
  ring

/-- The double of a sign on a grid, as `ofGrid` has it for the positive sign. -/
def onGrid (sign : Sign) (n : ℕ) (t : ℤ) : UnpackedFloat :=
  if h : n = 0 then .zero sign
  else if n = 2 ^ 53 then .finite sign (2 ^ 52) (t + 1) (by decide)
  else .finite sign n t (Nat.pos_of_ne_zero h)

/-- Of at most 53 bits, nothing more is shifted out but the last one of a carry. -/
theorem onGrid_of_le (sign : Sign) {n : ℕ} {t : ℤ} (hn : n ≤ 2 ^ 53) (ht : -1074 ≤ t) :
    (if h : (shiftToTargetExponent .binary64 n t .exact).1.mantissa = 0 then .zero sign
      else .finite sign (shiftToTargetExponent .binary64 n t .exact).1.mantissa
        (shiftToTargetExponent .binary64 n t .exact).2 (Nat.pos_of_ne_zero h)) =
      onGrid sign n t := by
  rcases Nat.lt_or_eq_of_le hn with hlt | rfl
  · have hbits : n.log2 < 53 := by
      rcases Nat.eq_zero_or_pos n with rfl | hpos
      · decide
      · exact (Nat.log2_lt (Nat.ne_of_gt hpos)).mpr hlt
    have htarget : Format.binary64.targetExponent (totalExponent n t) ≤ t := by
      change max (_ - 53) (-1074) ≤ t
      rw [totalExponent]
      omega
    have hnone : (Format.binary64.targetExponent (totalExponent n t) - t).toNat = 0 := by omega
    have hshift : shiftToTargetExponent .binary64 n t .exact =
        (.ofMantissaAndAccuracy n .exact, t) := by
      rw [shiftToTargetExponent, shiftToExponent, hnone]
      exact congrArg (Prod.mk _) (add_zero t)
    simp only [hshift, onGrid, if_neg hlt.ne, ExtendedMantissa.ofMantissaAndAccuracy]
  · have htarget : Format.binary64.targetExponent (totalExponent (2 ^ 53) t) = t + 1 := by
      change max (_ - 53) (-1074) = t + 1
      rw [totalExponent, Nat.log2_two_pow]
      omega
    have hshift : shiftToTargetExponent .binary64 (2 ^ 53) t .exact =
        (⟨2 ^ 52, false, false⟩, t + 1) := by
      rw [shiftToTargetExponent, htarget, shiftToExponent, add_sub_cancel_left]
      rfl
    simp only [hshift, onGrid]
    rfl

/-- A number of full precision is rounded on the grid around it. -/
theorem exists_round_eq (sign : Sign) (hm : 0 < m) (e : ℤ) :
    ∃ n, IsHalfEven ((m : ℚ) * 2 ^ e / 2 ^ gridOf (m * 2 ^ e)) n ∧
      UnpackedFloat.round .binary64 sign m e = onGrid sign n (gridOf (m * 2 ^ e)) := by
  rw [UnpackedFloat.round]
  dsimp only
  rw [targetExponent_eq_gridOf hm]
  have hvalue := decreaseExponent_value m e (gridOf (m * 2 ^ e))
  have hpos : 0 < (decreaseExponent m e (gridOf (m * 2 ^ e))).1 := by
    rw [decreaseExponent]
    dsimp only
    rw [Nat.shiftLeft_eq]
    positivity
  have hfine : (decreaseExponent m e (gridOf (m * 2 ^ e))).2 ≤ gridOf (m * 2 ^ e) := by
    rw [decreaseExponent]
    dsimp only
    omega
  generalize decreaseExponent m e (gridOf (m * 2 ^ e)) = start at hvalue hpos hfine ⊢
  obtain ⟨m', e'⟩ := start
  dsimp only at hvalue hpos hfine ⊢
  rw [← hvalue] at hfine ⊢
  have hlower := neg_1074_le_gridOf ((m' : ℚ) * 2 ^ e')
  have htarget := targetExponent_eq_gridOf hpos e'
  generalize hx : (m' : ℚ) * 2 ^ e' = x at hfine hlower htarget ⊢
  have hshift : e' + ((gridOf x - e').toNat : ℤ) = gridOf x := by omega
  have hrepresents : Represents
      (ExtendedMantissa.ofMantissaAndAccuracy m' .exact >>> (gridOf x - e').toNat)
      (x / 2 ^ gridOf x) := by
    have hunits : x / 2 ^ gridOf x = m' / 2 ^ (gridOf x - e').toNat := by
      calc x / 2 ^ gridOf x = m' * 2 ^ e' / 2 ^ (e' + ((gridOf x - e').toNat : ℤ)) := by
            rw [hshift, hx]
        _ = m' / 2 ^ (gridOf x - e').toNat := by
            rw [zpow_add₀ two_ne_zero, zpow_natCast, mul_comm, mul_div_mul_left _ _ (by positivity)]
    rw [hunits]
    exact (represents_exact m').shiftRight _
  have hfirst : shiftToTargetExponent .binary64 m' e' .exact =
      (ExtendedMantissa.ofMantissaAndAccuracy m' .exact >>> (gridOf x - e').toNat, gridOf x) := by
    rw [shiftToTargetExponent, htarget, shiftToExponent, hshift]
  refine ⟨_, hrepresents.isHalfEven, ?_⟩
  rw [roundWithAccuracy, hfirst]
  exact onGrid_of_le sign hrepresents.isHalfEven.le_pow hlower

end Rounding

/-! ## Sums -/

theorem ofModel_onGrid_positive (n : ℕ) (t : ℤ) :
    Float.ofModel (.pack (onGrid .positive n t)) = ofGrid n t := by
  have hfull : Nat.pow 2 53 = 2 ^ 53 := rfl
  rw [onGrid, ofGrid, hfull]
  split_ifs
  · rfl
  · rfl
  · rfl

theorem ofModel_onGrid_negative {n : ℕ} {t : ℤ} (hn : n ≤ 2 ^ 53)
    (hnormal : 2 ^ 52 ≤ n ∨ t = -1074) (hlower : -1074 ≤ t) (hupper : t ≤ 971)
    (hroom : n = 2 ^ 53 → t ≤ 970) :
    Float.ofModel (.pack (onGrid .negative n t)) = -ofGrid n t := by
  rcases Nat.eq_zero_or_pos n with rfl | hpos
  · rw [ofGrid_zero, neg_zero_sign]
    rfl
  · rcases Nat.lt_or_eq_of_le hn with hlt | rfl
    · rw [ofGrid_of_lt hpos hlt hnormal hlower hupper, Magnitude.neg_toFloat, onGrid,
        dif_neg hpos.ne', if_neg hlt.ne]
      rfl
    · rw [ofGrid_carry hlower (hroom rfl), Magnitude.neg_toFloat]
      rfl

/-- Rounding a significand of any length gives the nearest double. -/
theorem isRounded_round {m : ℕ} {e : ℤ} (hm : 0 < m)
    (hbound : (m : ℚ) * 2 ^ e < overflowBound) :
    IsRounded (m * 2 ^ e) (.ofModel (.pack (.round .binary64 .positive m e))) ∧
      IsRounded (-(m * 2 ^ e)) (.ofModel (.pack (.round .binary64 .negative m e))) := by
  have hx : (0 : ℚ) < m * 2 ^ e := mul_pos (Nat.cast_pos.mpr hm) (zpow_pos two_pos _)
  constructor
  · obtain ⟨n, hn, hround⟩ := exists_round_eq .positive hm e
    rw [hround, ofModel_onGrid_positive]
    exact (isNearestFinite_ofGrid hx hbound hn).isRounded
  · obtain ⟨n, hn, hround⟩ := exists_round_eq .negative hm e
    have hupper := gridOf_le hx hbound
    rw [hround, ofModel_onGrid_negative hn.le_pow (hn.pow_le hx) (neg_1074_le_gridOf _) hupper
      fun hcarry => hn.gridOf_le_of_carry hbound hcarry hupper]
    exact (isNearestFinite_ofGrid hx hbound hn).isRounded.neg

theorem isRounded_normalize {k e : ℤ} (hbound : |(k : ℚ) * 2 ^ e| < overflowBound) :
    IsRounded (k * 2 ^ e) (.ofModel (.pack (.normalize .binary64 k e .positive))) := by
  have hvalue : |(k : ℚ) * 2 ^ e| = (k.natAbs : ℕ) * 2 ^ e := by
    have hunit : (0 : ℚ) < 2 ^ e := zpow_pos two_pos e
    rw [abs_mul, abs_of_pos hunit, Nat.cast_natAbs, Int.cast_abs]
  rw [UnpackedFloat.normalize]
  rcases lt_trichotomy k 0 with hneg | rfl | hpos
  · have hround := isRounded_round (m := k.natAbs) (e := e) (by omega) (hvalue ▸ hbound)
    have hnegated : (k : ℚ) = -(k.natAbs : ℕ) := by
      rw [Nat.cast_natAbs, abs_of_neg hneg, Int.cast_neg, neg_neg]
    rw [compare_lt_iff_lt.mpr hneg]
    dsimp only
    rw [show (-k).toNat = k.natAbs by omega, hnegated, neg_mul]
    exact hround.2
  · have hzero := isRounded_exactValue (v := zero .positive) (by decide +kernel)
    rw [exactValue_zero] at hzero
    rw [Int.cast_zero, zero_mul]
    exact hzero
  · have hround := isRounded_round (m := k.natAbs) (e := e) (by omega) (hvalue ▸ hbound)
    have hsame : (k : ℚ) = (k.natAbs : ℕ) := by
      rw [Nat.cast_natAbs, abs_of_pos hpos]
    rw [compare_gt_iff_gt.mpr hpos]
    dsimp only
    rw [show k.toNat = k.natAbs by omega, hsame]
    exact hround.1

theorem decreaseExponent_of_le (m : ℕ) {e t : ℤ} (h : t ≤ e) :
    ((decreaseExponent m e t).1 : ℚ) * 2 ^ t = m * 2 ^ e := by
  have hexponent : (decreaseExponent m e t).2 = t := by
    rw [decreaseExponent]
    dsimp only
    omega
  have hvalue := decreaseExponent_value m e t
  rwa [hexponent] at hvalue

theorem cast_apply (sign : Sign) (n : ℤ) : ((sign.apply n : ℤ) : ℚ) = (sign.apply 1 : ℤ) * n := by
  cases sign with
  | positive => exact (one_mul _).symm
  | negative =>
      push_cast [Sign.apply]
      ring

/-- The sum of two finite doubles is the exact sum, rounded once. -/
theorem isRounded_add {x y : Float} (hx : x.isFinite = true) (hy : y.isFinite = true)
    (hbound : |exactValue x + exactValue y| < overflowBound) :
    IsRounded (exactValue x + exactValue y) (x + y) := by
  have hsum : x + y =
      .ofModel (.pack (UnpackedFloat.add .binary64 x.toModel.unpack y.toModel.unpack)) := rfl
  have hpack : ∀ v : Float, Float.ofModel (.pack v.toModel.unpack) = v := Float.ofBits_toBits
  rw [hsum]
  obtain ⟨s, rfl | ⟨m, rfl⟩⟩ := eq_zero_or_toFloat_of_isFinite hx
  all_goals obtain ⟨s', rfl | ⟨m', rfl⟩⟩ := eq_zero_or_toFloat_of_isFinite hy
  · have hzero : ∃ sign, UnpackedFloat.add .binary64 (.zero s) (.zero s') = .zero sign := by
      cases s <;> cases s' <;> exact ⟨_, rfl⟩
    obtain ⟨sign, hzero⟩ := hzero
    have hrounded := isRounded_exactValue (v := zero sign) (by cases sign <;> decide +kernel)
    rw [exactValue_zero] at hrounded
    rw [unpack_zero, unpack_zero, hzero, exactValue_zero, exactValue_zero, add_zero]
    exact hrounded
  · have hother : UnpackedFloat.add .binary64 (zero s).toModel.unpack
        (m'.toFloat s').toModel.unpack = (m'.toFloat s').toModel.unpack := by
      rw [unpack_zero, m'.unpack_toFloat]
      rfl
    rw [hother, hpack, exactValue_zero, zero_add]
    exact isRounded_exactValue hy
  · have hother : UnpackedFloat.add .binary64 (m.toFloat s).toModel.unpack
        (zero s').toModel.unpack = (m.toFloat s).toModel.unpack := by
      rw [unpack_zero, m.unpack_toFloat]
      rfl
    rw [hother, hpack, exactValue_zero, add_zero]
    exact isRounded_exactValue hx
  · rw [m.unpack_toFloat, m'.unpack_toFloat, UnpackedFloat.add]
    dsimp only
    have hvalue : exactValue (m.toFloat s) + exactValue (m'.toFloat s') =
        ((s.apply (decreaseExponent m.significand m.exponent (min m.exponent m'.exponent)).1 +
          s'.apply (decreaseExponent m'.significand m'.exponent
            (min m.exponent m'.exponent)).1 : ℤ) : ℚ) * 2 ^ min m.exponent m'.exponent := by
      have hfirst := decreaseExponent_of_le m.significand (min_le_left m.exponent m'.exponent)
      have hsecond := decreaseExponent_of_le m'.significand (min_le_right m.exponent m'.exponent)
      rw [m.exactValue_toFloat, m'.exactValue_toFloat, Int.cast_add, add_mul, cast_apply s,
        cast_apply s', cast_apply s (decreaseExponent _ _ _).1,
        cast_apply s' (decreaseExponent _ _ _).1, mul_assoc, mul_assoc, mul_assoc, mul_assoc]
      simp only [Int.cast_natCast]
      rw [hfirst, hsecond]
    rw [hvalue] at hbound ⊢
    exact isRounded_normalize hbound

/-- A difference is a sum with the other sign. -/
theorem sub_eq_add_neg_of_isFinite (x : Float) {y : Float} (hy : y.isFinite = true) :
    x - y = x + -y := by
  change Float.ofModel (.pack (UnpackedFloat.sub .binary64 x.toModel.unpack y.toModel.unpack)) =
    Float.ofModel (.pack (UnpackedFloat.add .binary64 x.toModel.unpack (-y).toModel.unpack))
  obtain ⟨s', rfl | ⟨m', rfl⟩⟩ := eq_zero_or_toFloat_of_isFinite hy
  · rw [neg_zero_sign, unpack_zero, unpack_zero]
    cases x.toModel.unpack with
    | zero s => cases s <;> cases s' <;> rfl
    | _ => rfl
  · rw [m'.neg_toFloat, m'.unpack_toFloat, m'.unpack_toFloat]
    cases x.toModel.unpack with
    | finite s n e h =>
        have hmantissa : ∀ a b : ℤ, s.apply a - s'.apply b = s.apply a + (-s').apply b := by
          intro a b
          cases s' with
          | positive => exact sub_eq_add_neg _ _
          | negative => exact sub_neg_eq_add _ _
        simp only [UnpackedFloat.sub, UnpackedFloat.add, hmantissa]
    | _ => rfl

theorem isRounded_sub {x y : Float} (hx : x.isFinite = true) (hy : y.isFinite = true)
    (hbound : |exactValue x - exactValue y| < overflowBound) :
    IsRounded (exactValue x - exactValue y) (x - y) := by
  have hneg := exactValue_neg hy
  have hadd := isRounded_add hx (isFinite_neg hy) (by rwa [hneg, ← sub_eq_add_neg])
  rwa [hneg, ← sub_eq_add_neg, ← sub_eq_add_neg_of_isFinite x hy] at hadd

end Binary64
end Calculator
