import Calculator.Proofs.Binary64.Rounding

/-!
# The order of the finite doubles

Two finite doubles are compared by sign, then by exponent, then by significand.  Because every
significand is full, unless the exponent is the least one, this is the order of the numbers that
they stand for.
-/

namespace Calculator
namespace Binary64

open Float.Model
open Float.Model.UnpackedFloat

/-! ## Exact values -/

namespace Magnitude

variable (m m' : Magnitude)

theorem scaled_value : m.scaled.value = m.significand * 2 ^ m.exponent :=
  rfl

theorem exactValue_toFloat_positive : exactValue (m.toFloat .positive) = m.scaled.value := by
  rw [exactValue, m.magnitude?_toFloat, m.isNegative_toFloat]
  rfl

theorem exactValue_toFloat_negative : exactValue (m.toFloat .negative) = -m.scaled.value := by
  rw [exactValue, m.magnitude?_toFloat, m.isNegative_toFloat]
  rfl

theorem exactValue_toFloat (sign : Sign) :
    exactValue (m.toFloat sign) = (sign.apply m.significand : ℤ) * 2 ^ m.exponent := by
  cases sign with
  | positive => exact m.exactValue_toFloat_positive
  | negative =>
      rw [m.exactValue_toFloat_negative, scaled_value, ← neg_mul]
      push_cast [Sign.apply]
      rfl

theorem abs_exactValue_toFloat (sign : Sign) :
    |exactValue (m.toFloat sign)| = m.scaled.value := by
  cases sign with
  | positive => rw [m.exactValue_toFloat_positive, abs_of_pos m.value_pos]
  | negative => rw [m.exactValue_toFloat_negative, abs_neg, abs_of_pos m.value_pos]

/-- The greater exponent has the greater value. -/
theorem value_lt_of_exponent_lt (h : m.exponent < m'.exponent) :
    m.scaled.value < m'.scaled.value := by
  have hfull : 2 ^ 52 ≤ m'.significand := by
    have hlower := m.lower
    exact m'.normal.resolve_right (by omega)
  have hfullQ : (2 : ℚ) ^ 52 ≤ m'.significand := by exact_mod_cast hfull
  have hltQ : (m.significand : ℚ) < 2 ^ 53 := by exact_mod_cast m.lt
  calc m.scaled.value < 2 ^ 53 * 2 ^ m.exponent :=
        mul_lt_mul_of_pos_right hltQ (zpow_pos two_pos _)
    _ = 2 ^ 52 * 2 ^ (m.exponent + 1) := by
        rw [zpow_add_one₀ two_ne_zero]
        ring
    _ ≤ 2 ^ 52 * 2 ^ m'.exponent := by
        gcongr
        · exact one_le_two
        · omega
    _ ≤ m'.scaled.value := by
        rw [scaled_value]
        gcongr

/-- Magnitudes are compared as the program compares them. -/
theorem compare_value :
    (compare m.exponent m'.exponent).then (compare m.significand m'.significand) =
      compare m.scaled.value m'.scaled.value := by
  rcases lt_trichotomy m.exponent m'.exponent with hlt | heq | hgt
  · rw [compare_lt_iff_lt.mpr hlt, compare_lt_iff_lt.mpr (value_lt_of_exponent_lt m m' hlt)]
    rfl
  · have hvalue : compare m.scaled.value m'.scaled.value =
        compare m.significand m'.significand := by
      have hunit : (0 : ℚ) < 2 ^ m'.exponent := zpow_pos two_pos _
      rw [scaled_value, scaled_value, heq]
      rcases lt_trichotomy m.significand m'.significand with hlt | heq | hgt
      · rw [compare_lt_iff_lt.mpr hlt, compare_lt_iff_lt]
        exact mul_lt_mul_of_pos_right (Nat.cast_lt.mpr hlt) hunit
      · rw [heq, compare_eq_iff_eq.mpr rfl, compare_eq_iff_eq.mpr rfl]
      · rw [compare_gt_iff_gt.mpr hgt, compare_gt_iff_gt]
        exact mul_lt_mul_of_pos_right (Nat.cast_lt.mpr hgt) hunit
    rw [hvalue, compare_eq_iff_eq.mpr heq]
    rfl
  · rw [compare_gt_iff_gt.mpr hgt, compare_gt_iff_gt.mpr (value_lt_of_exponent_lt m' m hgt)]
    rfl

end Magnitude

/-! ## Comparisons -/

theorem swap_compare (a b : ℚ) : (compare a b).swap = compare (-a) (-b) := by
  rcases lt_trichotomy a b with hlt | rfl | hgt
  · rw [compare_lt_iff_lt.mpr hlt, compare_gt_iff_gt.mpr (neg_lt_neg hlt)]
    rfl
  · rw [compare_eq_iff_eq.mpr rfl, compare_eq_iff_eq.mpr rfl]
    rfl
  · rw [compare_gt_iff_gt.mpr hgt, compare_lt_iff_lt.mpr (neg_lt_neg hgt)]
    rfl

/-- Finite doubles are compared as the numbers that they stand for. -/
theorem compare_unpack {x y : Float} (hx : x.isFinite = true) (hy : y.isFinite = true) :
    UnpackedFloat.compare x.toModel.unpack y.toModel.unpack =
      some (compare (exactValue x) (exactValue y)) := by
  obtain ⟨s, rfl | ⟨m, rfl⟩⟩ := eq_zero_or_toFloat_of_isFinite hx
  all_goals obtain ⟨s', rfl | ⟨m', rfl⟩⟩ := eq_zero_or_toFloat_of_isFinite hy
  · rw [unpack_zero, unpack_zero, exactValue_zero, exactValue_zero, compare_eq_iff_eq.mpr rfl]
    rfl
  · have hpos := m'.value_pos
    rw [unpack_zero, m'.unpack_toFloat, exactValue_zero]
    cases s' with
    | positive =>
        rw [m'.exactValue_toFloat_positive, compare_lt_iff_lt.mpr hpos]
        rfl
    | negative =>
        rw [m'.exactValue_toFloat_negative, compare_gt_iff_gt.mpr (neg_lt_zero.mpr hpos)]
        rfl
  · have hpos := m.value_pos
    rw [unpack_zero, m.unpack_toFloat, exactValue_zero]
    cases s with
    | positive =>
        rw [m.exactValue_toFloat_positive, compare_gt_iff_gt.mpr hpos]
        rfl
    | negative =>
        rw [m.exactValue_toFloat_negative, compare_lt_iff_lt.mpr (neg_lt_zero.mpr hpos)]
        rfl
  · have hpos := m.value_pos
    have hpos' := m'.value_pos
    rw [m.unpack_toFloat, m'.unpack_toFloat]
    cases s with
    | positive =>
        cases s' with
        | positive =>
            rw [m.exactValue_toFloat_positive, m'.exactValue_toFloat_positive,
              ← Magnitude.compare_value]
            rfl
        | negative =>
            rw [m.exactValue_toFloat_positive, m'.exactValue_toFloat_negative,
              compare_gt_iff_gt.mpr ((neg_lt_zero.mpr hpos').trans hpos)]
            rfl
    | negative =>
        cases s' with
        | positive =>
            rw [m.exactValue_toFloat_negative, m'.exactValue_toFloat_positive,
              compare_lt_iff_lt.mpr ((neg_lt_zero.mpr hpos).trans hpos')]
            rfl
        | negative =>
            rw [m.exactValue_toFloat_negative, m'.exactValue_toFloat_negative, ← swap_compare,
              ← Magnitude.compare_value]
            rfl

section Comparisons

variable {x y : Float}

theorem le_iff_exactValue (hx : x.isFinite = true) (hy : y.isFinite = true) :
    x ≤ y ↔ exactValue x ≤ exactValue y := by
  change decide ((UnpackedFloat.compare x.toModel.unpack y.toModel.unpack).any (·.isLE) = true)
    = true ↔ _
  rw [decide_eq_true_eq, compare_unpack hx hy, Option.any_some, Ordering.isLE_iff_ne_gt,
    ← ne_eq, compare_le_iff_le]

theorem lt_iff_exactValue (hx : x.isFinite = true) (hy : y.isFinite = true) :
    x < y ↔ exactValue x < exactValue y := by
  change decide ((UnpackedFloat.compare x.toModel.unpack y.toModel.unpack == some .lt) = true)
    = true ↔ _
  rw [decide_eq_true_eq, compare_unpack hx hy, beq_iff_eq, Option.some.injEq, compare_lt_iff_lt]

theorem beq_iff_exactValue (hx : x.isFinite = true) (hy : y.isFinite = true) :
    (x == y) = true ↔ exactValue x = exactValue y := by
  change (UnpackedFloat.compare x.toModel.unpack y.toModel.unpack == some .eq) = true ↔ _
  rw [compare_unpack hx hy, beq_iff_eq, Option.some.injEq, compare_eq_iff_eq]

end Comparisons

end Binary64
end Calculator
