import Calculator.Proofs.Binary64.Magnitude

/-!
# Quotients that are doubles

A quotient of natural numbers whose value is that of a positive double is rounded to
that very double.  The grid around the quotient is found by the order of the quotient,
which is its logarithm to the base two.
-/

namespace Calculator
namespace Binary64

/-- A power, with its exponent split as the scalings by a power split it. -/
theorem zpow_eq_div {x : ℚ} (hx : x ≠ 0) (k : Int) : x ^ k = x ^ k.toNat / x ^ (-k).toNat := by
  rw [← zpow_natCast_sub_natCast₀ hx]
  congr 1
  omega

theorem log_eq_of_bounds {x : ℚ} {k : Int} (hpos : 0 < x) (hle : 2 ^ k ≤ x)
    (hlt : x < 2 ^ (k + 1)) : Int.log 2 x = k := by
  have hbelow := (Int.zpow_le_iff_le_log one_lt_two hpos).mp hle
  have habove := (Int.lt_zpow_iff_log_lt one_lt_two hpos).mp hlt
  omega

/-- The leading bits alone settle the order up to one. -/
theorem log_div_bounds {num den : Nat} (hnum : 0 < num) (hden : 0 < den) :
    (num.log2 : Int) - den.log2 - 1 ≤ Int.log 2 ((num : ℚ) / den) ∧
      Int.log 2 ((num : ℚ) / den) < (num.log2 : Int) - den.log2 + 1 := by
  have hpos : (0 : ℚ) < (num : ℚ) / den :=
    div_pos (Nat.cast_pos.mpr hnum) (Nat.cast_pos.mpr hden)
  have hnumLe : (2 : ℚ) ^ num.log2 ≤ num := mod_cast Nat.log2_self_le (Nat.ne_of_gt hnum)
  have hdenLe : (2 : ℚ) ^ den.log2 ≤ den := mod_cast Nat.log2_self_le (Nat.ne_of_gt hden)
  have hnumLt : (num : ℚ) < 2 ^ (num.log2 + 1) := mod_cast Nat.lt_log2_self
  have hdenLt : (den : ℚ) < 2 ^ (den.log2 + 1) := mod_cast Nat.lt_log2_self
  constructor
  · rw [← Int.zpow_le_iff_le_log one_lt_two hpos]
    calc (2 : ℚ) ^ ((num.log2 : Int) - den.log2 - 1)
        = 2 ^ num.log2 / 2 ^ (den.log2 + 1) := by
          rw [← zpow_natCast_sub_natCast₀ two_ne_zero]
          congr 1
          omega
      _ ≤ num / den := by gcongr
  · rw [← Int.lt_zpow_iff_log_lt one_lt_two hpos]
    calc (num : ℚ) / den
        < 2 ^ (num.log2 + 1) / 2 ^ den.log2 := by gcongr
      _ = 2 ^ ((num.log2 : Int) - den.log2 + 1) := by
          rw [← zpow_natCast_sub_natCast₀ two_ne_zero]
          congr 1
          omega

/-- The order of a quotient is its logarithm. -/
theorem binaryOrder_eq_log {num den : Nat} (hnum : 0 < num) (hden : 0 < den) :
    binaryOrder num den = Int.log 2 ((num : ℚ) / den) := by
  have hdenQ : (0 : ℚ) < den := Nat.cast_pos.mpr hden
  have hpos : (0 : ℚ) < (num : ℚ) / den := div_pos (Nat.cast_pos.mpr hnum) hdenQ
  obtain ⟨hbelow, habove⟩ := log_div_bounds hnum hden
  let k : Int := (num.log2 : Int) - (den.log2 : Int)
  have htest : den * Nat.pow 2 k.toNat ≤ num * Nat.pow 2 (-k).toNat ↔
      k ≤ Int.log 2 ((num : ℚ) / den) := by
    rw [← Int.zpow_le_iff_le_log one_lt_two hpos, Nat.cast_ofNat, zpow_eq_div two_ne_zero,
      div_le_div_iff₀ (by positivity) hdenQ, mul_comm den]
    norm_cast
  change (if den * Nat.pow 2 k.toNat ≤ num * Nat.pow 2 (-k).toNat then k else k - 1) = _
  by_cases hle : k ≤ Int.log 2 ((num : ℚ) / den)
  · rw [if_pos (htest.mpr hle)]
    omega
  · rw [if_neg (mt htest.mp hle)]
    omega

/-- A whole quotient is not rounded. -/
theorem roundHalfEven_mul (q : Nat) {d : Nat} (hd : 0 < d) : roundHalfEven (q * d) d = q := by
  rw [roundHalfEven, Nat.mul_mod_left, Nat.mul_div_cancel q hd]
  exact if_pos hd

/-! ## Magnitudes as quotients -/

namespace Scaled

variable (s : Scaled)

def value : ℚ :=
  s.significand * 2 ^ s.exponent

theorem den_pos : 0 < s.den :=
  Nat.pow_pos two_pos

theorem num_div_den : (s.num : ℚ) / s.den = s.value := by
  rw [value, zpow_eq_div two_ne_zero, num, den, ← mul_div_assoc]
  norm_cast

end Scaled

/-! ## Exact values -/

/-- The number that a finite double stands for. -/
def exactValue (v : Float) : ℚ :=
  match magnitude? v with
  | some s => if isNegative v then -s.value else s.value
  | none => 0

theorem exactValue_ne_zero {v : Float}
    (h : (magnitude? v).any (0 < ·.significand) = true) : exactValue v ≠ 0 := by
  obtain ⟨s, hs, hpos⟩ := (Option.any_eq_true _ _).mp h
  have hvalue : s.value ≠ 0 := by
    rw [Scaled.value]
    have hsignificand : s.significand ≠ 0 := Nat.ne_of_gt (of_decide_eq_true hpos)
    positivity
  rw [exactValue, hs]
  dsimp only
  split
  · exact neg_ne_zero.mpr hvalue
  · exact hvalue

namespace Magnitude

variable (m : Magnitude)

theorem num_pos : 0 < m.scaled.num :=
  Nat.mul_pos m.pos (Nat.pow_pos two_pos)

theorem value_pos : 0 < m.scaled.value :=
  mul_pos (Nat.cast_pos.mpr m.pos) (zpow_pos two_pos _)

theorem log_value : Int.log 2 m.scaled.value = m.significand.log2 + m.exponent := by
  have hpow : (0 : ℚ) < 2 ^ m.exponent := zpow_pos two_pos _
  have hle : (2 : ℚ) ^ m.significand.log2 ≤ m.significand :=
    mod_cast Nat.log2_self_le (Nat.ne_of_gt m.pos)
  have hlt : (m.significand : ℚ) < 2 ^ (m.significand.log2 + 1) := mod_cast Nat.lt_log2_self
  apply log_eq_of_bounds m.value_pos
  · rw [zpow_add₀ two_ne_zero, zpow_natCast]
    exact mul_le_mul_of_nonneg_right hle hpow.le
  · rw [add_right_comm, zpow_add₀ two_ne_zero, ← Nat.cast_add_one, zpow_natCast]
    exact mul_lt_mul_of_pos_right hlt hpow

theorem log2_le : m.significand.log2 ≤ 52 :=
  Nat.lt_succ_iff.mp ((Nat.log2_lt (Nat.ne_of_gt m.pos)).mpr m.lt)

variable {m}

/-- The grid around a quotient with the value of a magnitude is that of the magnitude. -/
theorem gridExponent_eq {num den : Nat} (hnum : 0 < num) (hden : 0 < den)
    (h : (num : ℚ) / den = m.scaled.value) : gridExponent num den = m.exponent := by
  have hlog := m.log2_le
  have hlower := m.lower
  have hnormal := m.normal.imp_left m.log2_eq_iff.mpr
  rw [gridExponent, binaryOrder_eq_log hnum hden, h, m.log_value]
  omega

/-- A quotient with the value of a double is rounded to that double. -/
theorem ofRatio_eq {num den : Nat} (hden : 0 < den)
    (h : (num : ℚ) / den = m.scaled.value) : ofRatio num den = m.toFloat .positive := by
  have hdenQ : (den : ℚ) ≠ 0 := Nat.cast_ne_zero.mpr (Nat.ne_of_gt hden)
  have hnum : 0 < num := by
    have hpos := h ▸ m.value_pos
    rw [div_pos_iff_of_pos_right (Nat.cast_pos.mpr hden)] at hpos
    exact Nat.cast_pos.mp hpos
  have hwhole : num * Nat.pow 2 (-m.exponent).toNat =
      m.significand * (den * Nat.pow 2 m.exponent.toNat) := by
    have hvalue : (num : ℚ) = m.significand * 2 ^ m.exponent * den := (div_eq_iff hdenQ).mp h
    rw [zpow_eq_div two_ne_zero, ← mul_div_assoc, div_mul_eq_mul_div, eq_div_iff (by positivity),
      mul_assoc, mul_comm _ (den : ℚ)] at hvalue
    exact_mod_cast hvalue
  have hunit : 0 < den * Nat.pow 2 m.exponent.toNat := Nat.mul_pos hden (Nat.pow_pos two_pos)
  rw [ofRatio, gridExponent_eq hnum hden h, hwhole, roundHalfEven_mul _ hunit, m.ofGrid_eq]

end Magnitude
end Binary64
end Calculator
