import Mathlib.Data.Rat.Floor
import Calculator.Proofs.Binary64.Rounding

/-!
# Doubles without their fractions

Dropping the fraction of a double divides its magnitude by the denominator, without the
remainder, and puts the sign back.  For the number that the double stands for this is the
integer next to it on the side of zero.
-/

namespace Calculator
namespace Binary64

/-! ## Truncation of numbers -/

/-- The integer part of a number: the fraction is dropped, so that the integer lies between
zero and the number. -/
def truncation (x : ℚ) : ℤ :=
  if x < 0 then ⌈x⌉ else ⌊x⌋

theorem truncation_of_nonneg {x : ℚ} (h : 0 ≤ x) : truncation x = ⌊x⌋ :=
  if_neg (not_lt.mpr h)

theorem truncation_neg (x : ℚ) : truncation (-x) = -truncation x := by
  rcases lt_trichotomy x 0 with hneg | rfl | hpos
  · rw [truncation, truncation, if_pos hneg, if_neg (by linarith), Int.floor_neg]
  · rfl
  · rw [truncation, truncation, if_pos (by linarith), if_neg (not_lt.mpr hpos.le), Int.ceil_neg]

theorem natAbs_truncation_lt_iff {x : ℚ} {n : ℕ} : (truncation x).natAbs < n ↔ |x| < n := by
  have hnonneg : ∀ x : ℚ, 0 ≤ x → ((truncation x).natAbs < n ↔ |x| < n) := by
    intro x hx
    have hfloor : 0 ≤ ⌊x⌋ := Int.floor_nonneg.mpr hx
    have hlt : ⌊x⌋ < (n : ℤ) ↔ x < (n : ℤ) := Int.floor_lt
    rw [Int.cast_natCast] at hlt
    rw [truncation_of_nonneg hx, abs_of_nonneg hx, ← hlt]
    omega
  rcases le_total 0 x with hx | hx
  · exact hnonneg x hx
  · have hneg := hnonneg (-x) (neg_nonneg.mpr hx)
    rwa [truncation_neg, Int.natAbs_neg, abs_neg] at hneg

theorem truncation_div (num den : ℕ) : truncation ((num : ℚ) / den) = (num / den : ℕ) := by
  rw [truncation_of_nonneg (by positivity), Rat.floor_natCast_div_natCast]
  norm_cast

/-- A quotient is an integer exactly when the division leaves no remainder. -/
theorem truncation_div_eq_iff {num den : ℕ} (hden : 0 < den) :
    (truncation ((num : ℚ) / den) : ℚ) = num / den ↔ num % den = 0 := by
  have hdenQ : (den : ℚ) ≠ 0 := Nat.cast_ne_zero.mpr (Nat.ne_of_gt hden)
  rw [truncation_div, Int.cast_natCast, eq_div_iff hdenQ, ← Nat.cast_mul, Nat.cast_inj,
    Nat.div_mul_self_eq_mod_sub_self]
  have hle := Nat.mod_le num den
  omega

/-! ## Truncation of doubles -/

theorem exists_magnitude?_of_isFinite {v : Float} (h : v.isFinite = true) :
    ∃ s, magnitude? v = some s := by
  obtain ⟨sign, rfl | ⟨m, rfl⟩⟩ := eq_zero_or_toFloat_of_isFinite h
  · exact ⟨⟨0, 0⟩, by rw [magnitude?, unpack_zero]⟩
  · exact ⟨_, m.magnitude?_toFloat sign⟩

theorem magnitude?_eq_none {v : Float} (h : ¬ v.isFinite = true) : magnitude? v = none := by
  rw [Option.eq_none_iff_forall_ne_some]
  exact fun s hs => h (isFinite_of_magnitude? hs)

theorem exactValue_eq_div {v : Float} {s : Scaled} (h : magnitude? v = some s) :
    exactValue v = if isNegative v then -((s.num : ℚ) / s.den) else s.num / s.den := by
  rw [exactValue, h, s.num_div_den]

/-- The program's truncation of a finite double is that of the number it stands for. -/
theorem truncate?_of_isFinite {v : Float} (h : v.isFinite = true) :
    truncate? v = some (truncation (exactValue v)) := by
  obtain ⟨s, hs⟩ := exists_magnitude?_of_isFinite h
  rw [truncate?, exactValue_eq_div hs, hs, Option.map_some]
  split_ifs
  · rw [truncation_neg, truncation_div]
  · rw [truncation_div]

theorem truncate?_eq_none {v : Float} (h : ¬ v.isFinite = true) : truncate? v = none := by
  rw [truncate?, magnitude?_eq_none h, Option.map_none]

/-- A finite double is whole exactly when there is no fraction to drop. -/
theorem whole?_of_isFinite {v : Float} (h : v.isFinite = true) :
    whole? v =
      if (truncation (exactValue v) : ℚ) = exactValue v then some (truncation (exactValue v))
      else none := by
  obtain ⟨s, hs⟩ := exists_magnitude?_of_isFinite h
  have hwhole : (truncation (exactValue v) : ℚ) = exactValue v ↔ s.num % s.den = 0 := by
    rw [exactValue_eq_div hs, ← truncation_div_eq_iff s.den_pos]
    split_ifs
    · rw [truncation_neg, Int.cast_neg, neg_inj]
    · exact Iff.rfl
  rw [whole?, ← truncate?_of_isFinite h]
  simp only [hs, hwhole]

theorem whole?_eq_none {v : Float} (h : ¬ v.isFinite = true) : whole? v = none := by
  rw [whole?, magnitude?_eq_none h]

end Binary64
end Calculator
