import Calculator.Proofs.Binary64.Rounding
import Calculator.Proofs.Decimal.Shortest

/-!
# Decimals and the doubles next to them

The double of a decimal fraction is the one nearest to its value.  The two answers that are
given without a calculation agree with this: the decimals in question are too great for a
finite double, or below half of the smallest positive one.
-/

namespace Calculator
namespace Decimal

open Binary64

theorem value_nonneg (d : Decimal) : 0 ≤ d.value :=
  mul_nonneg (Nat.cast_nonneg _) (zpow_nonneg (by norm_num) _)

/-- The value as the quotient that is rounded. -/
theorem value_eq_div (d : Decimal) :
    d.value = (d.significand * Nat.pow 10 d.exponent.toNat : Nat) /
      (Nat.pow 10 (-d.exponent).toNat : Nat) := by
  rw [value, zpow_eq_div (x := 10) (by norm_num), ← mul_div_assoc]
  norm_cast

/-- The double of a decimal is the one nearest to its value. -/
theorem isNearest_toFloat (d : Decimal) : IsNearest d.value d.toFloat := by
  rw [toFloat]
  split_ifs with hzero hgreat hsmall
  · have hnearest := isNearest_ofRatio 0 one_pos
    rwa [Nat.cast_zero, zero_div, show (0 : ℚ) = d.value by simp [value, hzero]] at hnearest
  · exact .inr ⟨overflowBound_lt.le.trans (le_value_of_lt_exponent hzero hgreat), rfl⟩
  · have hnone : ofRatio 0 1 = zero .positive := rfl
    have hvalue := value_lt_of_exponent_lt hsmall
    have hbound : d.value < overflowBound := by
      calc d.value < 2 ^ (-1075 : Int) := hvalue
        _ ≤ 2 ^ (971 : Int) := zpow_le_zpow_right₀ one_le_two (by norm_num)
        _ ≤ overflowBound := le_mul_of_one_le_left (zpow_nonneg two_pos.le _) (by norm_num)
    rw [hnone]
    exact .inl ⟨hbound, isNearestFinite_zero d.value_nonneg hvalue⟩
  · rw [value_eq_div]
    exact isNearest_ofRatio _ (Nat.pow_pos (by norm_num))

end Decimal
end Calculator
