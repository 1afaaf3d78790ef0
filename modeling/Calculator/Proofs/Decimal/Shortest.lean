import Calculator.Decimal.Basic
import Calculator.Proofs.Binary64.Exact

/-!
# Decimals that are read back

A decimal fraction whose value is that of a positive double is read as that double, and
so the shortest decimal of a double is read back as the double: the search accepts
nothing else, and what it falls back to has the exact value.
-/

namespace Calculator

open Binary64

namespace Binary64.Magnitude

variable (m : Magnitude)

theorem value_lt : m.scaled.value < 2 ^ (1024 : Int) := by
  have hlt : (m.significand : ℚ) < 2 ^ (53 : Int) := mod_cast m.lt
  have hle : (2 : ℚ) ^ m.exponent ≤ 2 ^ (971 : Int) :=
    zpow_le_zpow_right₀ one_le_two m.upper
  calc m.scaled.value
      < 2 ^ (53 : Int) * 2 ^ m.exponent :=
        mul_lt_mul_of_pos_right hlt (zpow_pos two_pos _)
    _ ≤ 2 ^ (53 : Int) * 2 ^ (971 : Int) := by gcongr
    _ = 2 ^ (1024 : Int) := by rw [← zpow_add₀ two_ne_zero]; rfl

theorem le_value : 2 ^ (-1074 : Int) ≤ m.scaled.value := by
  have hone : (1 : ℚ) ≤ m.significand := mod_cast m.pos
  calc (2 : ℚ) ^ (-1074 : Int)
      ≤ 2 ^ m.exponent := zpow_le_zpow_right₀ one_le_two m.lower
    _ ≤ m.significand * 2 ^ m.exponent := le_mul_of_one_le_left (zpow_nonneg two_pos.le _) hone

end Binary64.Magnitude

namespace Decimal

/-! ## Values -/

def value (d : Decimal) : ℚ :=
  d.significand * 10 ^ d.exponent

/-- Three places to the base two make less than one decimal place. -/
theorem two_pow_le_ten_pow (k : Nat) : (2 : ℚ) ^ (3 * k) ≤ 10 ^ k := by
  rw [pow_mul]
  gcongr
  norm_num

variable {d : Decimal}

/-- A positive decimal with a great exponent exceeds every double. -/
theorem le_value_of_lt_exponent (hd : d.significand ≠ 0) (h : 400 < d.exponent) :
    2 ^ (1024 : Int) ≤ d.value := by
  have hone : (1 : ℚ) ≤ d.significand := mod_cast Nat.pos_of_ne_zero hd
  calc (2 : ℚ) ^ (1024 : Int)
      ≤ 2 ^ ((3 * 400 : Nat) : Int) := zpow_le_zpow_right₀ one_le_two (by norm_num)
    _ ≤ 10 ^ ((400 : Nat) : Int) := by
        rw [zpow_natCast, zpow_natCast]
        exact two_pow_le_ten_pow 400
    _ ≤ 10 ^ d.exponent := zpow_le_zpow_right₀ (by norm_num) h.le
    _ ≤ d.value := le_mul_of_one_le_left (by positivity) hone

/-- A decimal with a small exponent falls far short of every positive double. -/
theorem value_lt_of_exponent_lt (h : d.exponent < -(400 + d.significand.log2 : Int)) :
    d.value < 2 ^ (-1075 : Int) := by
  have hlt : (d.significand : ℚ) < 2 * 10 ^ d.significand.log2 := by
    calc (d.significand : ℚ)
        < 2 ^ (d.significand.log2 + 1) := mod_cast Nat.lt_log2_self
      _ = 2 * 2 ^ d.significand.log2 := pow_succ' ..
      _ ≤ 2 * 10 ^ d.significand.log2 := by gcongr; norm_num
  calc d.value
      < 2 * 10 ^ d.significand.log2 * 10 ^ d.exponent :=
        mul_lt_mul_of_pos_right hlt (by positivity)
    _ ≤ 2 * 10 ^ d.significand.log2 * 10 ^ (-(400 + d.significand.log2 : Int)) := by
        gcongr
        norm_num
    _ = 2 * 10 ^ (-((400 : Nat) : Int)) := by
        rw [mul_assoc, ← zpow_natCast, ← zpow_add₀ (by norm_num)]
        congr 2
        omega
    _ ≤ 2 * 2 ^ (-((3 * 400 : Nat) : Int)) := by
        rw [zpow_neg, zpow_neg, zpow_natCast, zpow_natCast]
        gcongr
        exact two_pow_le_ten_pow 400
    _ = 2 ^ (-1199 : Int) := by
        rw [← zpow_one_add₀ two_ne_zero]
        rfl
    _ < 2 ^ (-1075 : Int) := zpow_lt_zpow_right₀ one_lt_two (by norm_num)

/-- A decimal with the value of a double is read as that double. -/
theorem toFloat_of_value_eq {m : Magnitude} (h : d.value = m.scaled.value) :
    d.toFloat = m.toFloat .positive := by
  have hzero : d.significand ≠ 0 := by
    intro hzero
    have hpos := h ▸ m.value_pos
    simp [value, hzero] at hpos
  have hgreat : ¬ 400 < d.exponent := by
    intro hgreat
    exact not_lt_of_ge (le_value_of_lt_exponent hzero hgreat) (h ▸ m.value_lt)
  have hsmall : ¬ d.exponent < -(400 + d.significand.log2 : Int) := by
    intro hsmall
    have hleast : (2 : ℚ) ^ (-1075 : Int) ≤ 2 ^ (-1074 : Int) :=
      zpow_le_zpow_right₀ one_le_two (by norm_num)
    exact not_lt_of_ge (hleast.trans (h ▸ m.le_value)) (value_lt_of_exponent_lt hsmall)
  rw [toFloat, if_neg hzero, if_neg hgreat, if_neg hsmall]
  refine Magnitude.ofRatio_eq (Nat.pow_pos (by norm_num)) ?_
  rw [← h, value, zpow_eq_div (x := 10) (by norm_num), ← mul_div_assoc]
  norm_cast

/-! ## Shortest digits -/

theorem value_exactly (s : Scaled) : (exactly s).value = s.value := by
  by_cases h : 0 ≤ s.exponent
  · have hnone : (-s.exponent).toNat = 0 := by omega
    rw [exactly, if_pos h, value, ← s.num_div_den, Scaled.den, hnone]
    simp
  · have hten : (10 : ℚ) ^ s.exponent = 2 ^ s.exponent * 5 ^ s.exponent := by
      rw [← mul_zpow]
      norm_num
    have hfive : (5 : ℚ) ^ (-s.exponent).toNat * 5 ^ s.exponent = 1 := by
      rw [← zpow_natCast, ← zpow_add₀ (by norm_num), Int.toNat_of_nonneg (by omega)]
      simp
    rw [exactly, if_neg h, value, Scaled.value, hten]
    rw [Nat.pow_eq]
    push_cast
    linear_combination (s.significand * 2 ^ s.exponent : ℚ) * hfive

theorem toFloat_of_readingBackAt {v : Float} {num den : Nat} {exponent : Int}
    (h : readingBackAt v num den exponent = some d) : d.toFloat = v := by
  simp only [readingBackAt] at h
  split at h
  case h_1 hlower hupper =>
    split at h
    · exact Option.some.inj h ▸ of_decide_eq_true hlower
    · exact Option.some.inj h ▸ of_decide_eq_true hupper
  case h_2 hlower _ => exact Option.some.inj h ▸ of_decide_eq_true hlower
  case h_3 _ hupper => exact Option.some.inj h ▸ of_decide_eq_true hupper
  case h_4 => cases h

/-- The shortest decimal of a double is read back as the double. -/
theorem toFloat_shortest (m : Magnitude) :
    (shortest (m.toFloat .positive) m.scaled).toFloat = m.toFloat .positive := by
  rw [shortest]
  cases hfound : (List.range 18).findSome? fun n =>
      readingBackAt (m.toFloat .positive) m.scaled.num m.scaled.den
        (leadingPosition m.scaled.num m.scaled.den - (n : Nat)) with
  | none => exact toFloat_of_value_eq (value_exactly m.scaled)
  | some d =>
      obtain ⟨n, -, hd⟩ := List.exists_of_findSome?_eq_some hfound
      exact toFloat_of_readingBackAt hd

end Decimal
end Calculator
