import Calculator.Proofs.Decimal.Literal
import Calculator.Proofs.Decimal.Shortest

/-!
# The text of a finite double

Whichever way a finite double is shown, its text is a literal with a minus sign in front
where the double is negative, and the decimal that the literal shows is read as the
magnitude of the double.  A negative zero is shown like a positive one.
-/

namespace Calculator
namespace Decimal

open Binary64
open Float.Model.UnpackedFloat (Sign)

/-! ## The same value in other digits -/

theorem infinity_ne_toFloat (m : Magnitude) (sign : Sign) : infinity ≠ m.toFloat sign := by
  intro h
  have hnone : magnitude? infinity = none := rfl
  rw [h, m.magnitude?_toFloat] at hnone
  cases hnone

/-- The zeros of a whole decimal may as well be written out. -/
theorem toFloat_mul_pow {d : Decimal} {m : Magnitude} (hd : d.toFloat = m.toFloat .positive)
    (h : 0 ≤ d.exponent) :
    toFloat ⟨d.significand * 10 ^ d.exponent.toNat, 0⟩ = m.toFloat .positive := by
  have hnone : (-d.exponent).toNat = 0 := by omega
  by_cases hzero : d.significand = 0
  · rw [toFloat, if_pos hzero] at hd
    rw [toFloat, if_pos (by simp [hzero]), hd]
  · have hgreat : ¬ 400 < d.exponent := by
      intro hgreat
      rw [toFloat, if_neg hzero, if_pos hgreat] at hd
      exact infinity_ne_toFloat m .positive hd
    rw [toFloat, if_neg hzero, if_neg hgreat, if_neg (by omega), hnone] at hd
    rw [toFloat]
    dsimp only
    rw [if_neg (by simp [hzero]), if_neg (by omega), if_neg (by omega)]
    simpa using hd

/-! ## Signed literals -/

/-- The minus sign of a negative number. -/
def signText (v : Float) : List Char :=
  if isNegative v then ['-'] else []

/-- The text is a literal with the sign of the number, and they are read as the number. -/
def IsTextOf (v : Float) (text : String) : Prop :=
  ∃ l : Literal, text = String.ofList (signText v ++ l.chars) ∧
    withSign (isNegative v) l.decimal.toFloat = v

section Magnitudes

variable (m : Magnitude) (sign : Sign)

theorem signText_toFloat :
    signText (m.toFloat sign) = if sign == .negative then ['-'] else [] := by
  rw [signText, m.isNegative_toFloat]

theorem isTextOf_of_decimal {l : Literal} (h : l.decimal.toFloat = m.toFloat .positive) :
    IsTextOf (m.toFloat sign) (String.ofList (signText (m.toFloat sign) ++ l.chars)) := by
  refine ⟨l, rfl, ?_⟩
  rw [h, m.isNegative_toFloat]
  cases sign with
  | negative => exact m.neg_toFloat .positive
  | positive => rfl

theorem isTextOf_scientific :
    IsTextOf (m.toFloat sign)
      (String.ofList
        (signText (m.toFloat sign) ++
          (shortest (m.toFloat .positive) m.scaled).scientific)) := by
  obtain ⟨l, hchars, hdecimal⟩ :=
    exists_literal_scientific (shortest (m.toFloat .positive) m.scaled)
  rw [← hchars]
  exact isTextOf_of_decimal m sign (by rw [hdecimal, toFloat_shortest])

theorem isTextOf_positional :
    IsTextOf (m.toFloat sign)
      (String.ofList
        (signText (m.toFloat sign) ++
          (shortest (m.toFloat .positive) m.scaled).positional)) := by
  have hshortest := toFloat_shortest m
  generalize shortest (m.toFloat .positive) m.scaled = d at hshortest ⊢
  by_cases h : d.exponent < 0
  · obtain ⟨l, hchars, hdecimal⟩ := exists_literal_positional d h
    rw [← hchars]
    exact isTextOf_of_decimal m sign (by rw [hdecimal, hshortest])
  · obtain ⟨l, hchars, hdecimal⟩ := exists_literal_digits d.significand d.exponent.toNat
    rw [positional, if_pos (by omega), ← hchars]
    exact isTextOf_of_decimal m sign (by rw [hdecimal, toFloat_mul_pow hshortest (by omega)])

/-- A whole magnitude is shown exactly. -/
theorem isTextOf_whole (h : m.scaled.num % m.scaled.den = 0) :
    IsTextOf (m.toFloat sign)
      (String.ofList
        (signText (m.toFloat sign) ++ Nat.toDigits 10 (m.scaled.num / m.scaled.den))) := by
  obtain ⟨l, hchars, hdecimal⟩ := exists_literal_digits (m.scaled.num / m.scaled.den) 0
  rw [List.replicate_zero, List.append_nil] at hchars
  have hden : (m.scaled.den : ℚ) ≠ 0 := Nat.cast_ne_zero.mpr (Nat.ne_of_gt m.scaled.den_pos)
  have hnum : ((m.scaled.num / m.scaled.den : Nat) : ℚ) * m.scaled.den = m.scaled.num :=
    mod_cast Nat.div_mul_cancel (Nat.dvd_of_mod_eq_zero h)
  have hvalue : l.decimal.value = m.scaled.value := by
    rw [hdecimal, ← m.scaled.num_div_den, eq_div_iff hden, ← hnum]
    simp [value]
  rw [← hchars]
  exact isTextOf_of_decimal m sign (toFloat_of_value_eq hvalue)

theorem whole?_toFloat :
    whole? (m.toFloat sign) =
      if m.scaled.num % m.scaled.den = 0 then
        some (sign.apply (m.scaled.num / m.scaled.den : Nat))
      else none := by
  rw [whole?, m.magnitude?_toFloat]
  dsimp only
  rw [truncate?, m.magnitude?_toFloat, m.isNegative_toFloat]
  cases sign <;> rfl

theorem integerText_apply {q : Nat} (h : 0 < q) :
    integerText (sign.apply q) = signText (m.toFloat sign) ++ Nat.toDigits 10 q := by
  rw [signText_toFloat]
  cases sign with
  | negative =>
      rw [integerText, Sign.apply, if_pos (by omega), Int.natAbs_neg, Int.natAbs_natCast]
      rfl
  | positive =>
      rw [integerText, Sign.apply, if_neg (by omega), Int.natAbs_natCast]
      rfl

theorem isTextOf_formatNumber_toFloat :
    IsTextOf (m.toFloat sign) (formatNumber (m.toFloat sign)) := by
  have hzero : ¬ m.scaled.significand = 0 := Nat.ne_of_gt m.pos
  rw [formatNumber, m.magnitude?_toFloat]
  dsimp only
  rw [if_neg hzero, m.abs_toFloat, whole?_toFloat]
  split
  · exact isTextOf_scientific m sign
  · by_cases hwhole : m.scaled.num % m.scaled.den = 0
    · have hpos : 0 < m.scaled.num / m.scaled.den :=
        Nat.div_pos (Nat.le_of_dvd m.num_pos (Nat.dvd_of_mod_eq_zero hwhole)) m.scaled.den_pos
      rw [if_pos hwhole]
      dsimp only
      rw [integerText_apply m sign hpos]
      exact isTextOf_whole m sign hwhole
    · rw [if_neg hwhole]
      exact isTextOf_positional m sign

end Magnitudes

/-! ## Every finite number -/

theorem formatNumber_zero (sign : Sign) : formatNumber (zero sign) = "0" := by
  have hmagnitude : magnitude? (zero sign) = some ⟨0, 0⟩ := by
    rw [magnitude?, unpack_zero]
  rw [formatNumber, hmagnitude]
  rfl

theorem isTextOf_zero : IsTextOf (zero .positive) "0" := by
  obtain ⟨l, hchars, hdecimal⟩ := exists_literal_digits 0 0
  refine ⟨l, ?_, ?_⟩
  · rw [hchars]
    rfl
  · rw [hdecimal]
    rfl

theorem toFloat_ne_zero (m : Magnitude) (sign sign' : Sign) : m.toFloat sign ≠ zero sign' := by
  intro h
  have hunpack := m.unpack_toFloat sign
  rw [h, unpack_zero] at hunpack
  cases hunpack

/-- The number that the text of a number stands for: a zero has lost its sign. -/
theorem isTextOf_formatNumber {v : Float} (h : v.isFinite = true) :
    IsTextOf (if v = -0.0 then 0.0 else v) (formatNumber v) := by
  have hnegative : (-0.0 : Float) = zero .negative := rfl
  have hpositive : (0.0 : Float) = zero .positive := rfl
  rw [hnegative, hpositive]
  obtain ⟨sign, rfl | ⟨m, rfl⟩⟩ := eq_zero_or_toFloat_of_isFinite h
  · have hlost : (if zero sign = zero .negative then zero .positive else zero sign) =
        zero .positive := by
      cases sign with
      | negative => exact if_pos rfl
      | positive => exact ite_self _
    rw [hlost, formatNumber_zero]
    exact isTextOf_zero
  · rw [if_neg (toFloat_ne_zero m sign .negative)]
    exact isTextOf_formatNumber_toFloat m sign

end Decimal
end Calculator
