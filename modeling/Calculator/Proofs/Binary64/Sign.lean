import Calculator.Proofs.Binary64.Order

/-!
# Rounding on both sides of zero

A negative number is rounded like its magnitude, and the sign is put in front.  In particular
the double of an integer is the one nearest to it, and has the sign of the integer.
-/

namespace Calculator
namespace Binary64

open Float.Model.UnpackedFloat

/-! ## Negation -/

theorem neg_zero_sign (sign : Sign) : -zero sign = zero (-sign) := by
  change Float.ofModel (.pack (zero sign).toModel.unpack.neg) = _
  rw [unpack_zero]
  rfl

section Negation

variable {v : Float}

theorem isFinite_neg (h : v.isFinite = true) : (-v).isFinite = true := by
  obtain ⟨sign, rfl | ⟨m, rfl⟩⟩ := eq_zero_or_toFloat_of_isFinite h
  · rw [neg_zero_sign, Float.isFinite, Float.Model.isFinite, unpack_zero]
    rfl
  · rw [m.neg_toFloat]
    exact isFinite_of_magnitude? (m.magnitude?_toFloat (-sign))

theorem exactValue_neg (h : v.isFinite = true) : exactValue (-v) = -exactValue v := by
  obtain ⟨sign, rfl | ⟨m, rfl⟩⟩ := eq_zero_or_toFloat_of_isFinite h
  · rw [neg_zero_sign, exactValue_zero, exactValue_zero, neg_zero]
  · rw [m.neg_toFloat]
    cases sign with
    | positive => rw [m.exactValue_toFloat_positive, ← m.exactValue_toFloat_negative]; rfl
    | negative =>
        rw [m.exactValue_toFloat_negative, neg_neg, ← m.exactValue_toFloat_positive]
        rfl

theorem magnitude?_neg (h : v.isFinite = true) : magnitude? (-v) = magnitude? v := by
  obtain ⟨sign, rfl | ⟨m, rfl⟩⟩ := eq_zero_or_toFloat_of_isFinite h
  · rw [neg_zero_sign, magnitude?, magnitude?, unpack_zero, unpack_zero]
  · rw [m.neg_toFloat, m.magnitude?_toFloat, m.magnitude?_toFloat]

theorem neg_neg_of_isFinite (h : v.isFinite = true) : - -v = v := by
  obtain ⟨sign, rfl | ⟨m, rfl⟩⟩ := eq_zero_or_toFloat_of_isFinite h
  · rw [neg_zero_sign, neg_zero_sign]
    cases sign <;> rfl
  · rw [m.neg_toFloat, m.neg_toFloat]
    cases sign <;> rfl

end Negation

/-! ## The nearest double of either sign -/

/-- A finite double than which no other one is nearer to the number; where another one is
equally near, the significand is even. -/
structure IsRounded (x : ℚ) (v : Float) : Prop where
  finite : v.isFinite = true
  nearest : ∀ w : Float, w.isFinite = true → |x - exactValue v| ≤ |x - exactValue w|
  tie : ∀ w : Float, w.isFinite = true → exactValue w ≠ exactValue v →
    |x - exactValue w| = |x - exactValue v| → (magnitude? v).any (2 ∣ ·.significand) = true

theorem IsNearestFinite.isRounded {x : ℚ} {v : Float} (h : IsNearestFinite x v) :
    IsRounded x v :=
  ⟨h.finite, h.nearest, h.tie⟩

theorem isRounded_exactValue {v : Float} (h : v.isFinite = true) : IsRounded (exactValue v) v where
  finite := h
  nearest := by
    intro w _
    rw [sub_self, abs_zero]
    exact abs_nonneg _
  tie := by
    intro w _ hne heq
    rw [sub_self, abs_zero, abs_eq_zero, sub_eq_zero] at heq
    exact absurd heq.symm hne

theorem abs_neg_sub_exactValue_neg (x : ℚ) {w : Float} (h : w.isFinite = true) :
    |-x - exactValue (-w)| = |x - exactValue w| := by
  rw [exactValue_neg h, neg_sub_neg, abs_sub_comm]

/-- Rounding is the same on both sides of zero. -/
theorem IsRounded.neg {x : ℚ} {v : Float} (h : IsRounded x v) : IsRounded (-x) (-v) where
  finite := isFinite_neg h.finite
  nearest := by
    intro w hw
    have hnearest := h.nearest (-w) (isFinite_neg hw)
    rw [abs_neg_sub_exactValue_neg x h.finite]
    rwa [← abs_neg_sub_exactValue_neg x (isFinite_neg hw), neg_neg_of_isFinite hw] at hnearest
  tie := by
    intro w hw hne heq
    rw [magnitude?_neg h.finite]
    refine h.tie (-w) (isFinite_neg hw) ?_ ?_
    · rw [exactValue_neg hw]
      rw [exactValue_neg h.finite] at hne
      exact fun hsame => hne (by rw [← hsame, neg_neg])
    · rw [← abs_neg_sub_exactValue_neg x (isFinite_neg hw), neg_neg_of_isFinite hw, heq,
        abs_neg_sub_exactValue_neg x h.finite]

/-! ## Integers -/

theorem isNegative_neg {v : Float} (h : v.isFinite = true) :
    isNegative (-v) = !isNegative v := by
  obtain ⟨sign, rfl | ⟨m, rfl⟩⟩ := eq_zero_or_toFloat_of_isFinite h
  · rw [neg_zero_sign]
    cases sign <;> decide +kernel
  · rw [m.neg_toFloat, m.isNegative_toFloat, m.isNegative_toFloat]
    cases sign <;> rfl

theorem ofInt_of_neg {n : ℤ} (h : n < 0) : ofInt n = -ofInt n.natAbs := by
  rw [ofInt, ofInt, withSign, withSign, if_pos (decide_eq_true h), if_neg (by simp),
    Int.natAbs_natCast]

section Integer

variable {n : ℤ} (hn : |(n : ℚ)| < overflowBound)

include hn

theorem isNearestFinite_ofInt_natAbs : IsNearestFinite |(n : ℚ)| (ofInt n.natAbs) := by
  have hnearest := isNearest_ofInt n.natAbs
  rw [Nat.cast_natAbs, Int.cast_abs] at hnearest
  rcases hnearest with ⟨-, hfinite⟩ | ⟨hlarge, -⟩
  · exact hfinite
  · exact absurd hn (not_lt.mpr hlarge)

/-- The double of an integer is the one nearest to it. -/
theorem isRounded_ofInt : IsRounded n (ofInt n) := by
  have hnearest := (isNearestFinite_ofInt_natAbs hn).isRounded
  rcases lt_or_ge n 0 with hneg | hpos
  · rw [abs_of_neg (Int.cast_lt_zero.mpr hneg)] at hnearest
    rw [ofInt_of_neg hneg, ← neg_neg (n : ℚ)]
    exact hnearest.neg
  · rwa [abs_of_nonneg (Int.cast_nonneg hpos), Int.natAbs_of_nonneg hpos] at hnearest

theorem isNegative_ofInt : isNegative (ofInt n) = true ↔ n < 0 := by
  have hnearest := isNearestFinite_ofInt_natAbs hn
  rcases lt_or_ge n 0 with hneg | hpos
  · rw [ofInt_of_neg hneg, isNegative_neg hnearest.finite, hnearest.not_negative]
    exact iff_of_true rfl hneg
  · have hsign := hnearest.not_negative
    rw [Int.natAbs_of_nonneg hpos] at hsign
    rw [hsign]
    exact iff_of_false Bool.false_ne_true (not_lt.mpr hpos)

end Integer

end Binary64
end Calculator
