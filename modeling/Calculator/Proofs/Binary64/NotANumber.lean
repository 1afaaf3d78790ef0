import Calculator.Decimal.Basic
import Calculator.Proofs.Binary64.Magnitude

/-!
# Where NaN arises

Packing makes a NaN of nothing else: what it cannot hold becomes infinite.  So an operation
gives a NaN only where its rule for the unpacked operands says so, and a rule that rounds
never does.  On numbers the cases that are left are products of an infinity and a zero,
quotients of two infinities or of two zeros, and roots of negative numbers.
-/

namespace Calculator
namespace Binary64

open Float.Model
open Float.Model.UnpackedFloat

/-! ## Packing -/

theorem isNaN_iff {v : Float} : v.isNaN = true ↔ v.toModel.unpack = .notANumber := by
  rw [Float.isNaN, Float.Model.isNaN]
  cases v.toModel.unpack <;> simp [UnpackedFloat.isNaN]

/-- The words of NaN have all exponent bits set, and a mantissa. -/
theorem unpack_packComponents_ne {sign : Sign} {exponent : BitVec 11} {mantissa : BitVec 52}
    (h : exponent.toNat = 2047 → mantissa.toNat = 0) :
    UnpackedFloat.unpack Format.binary64
      (packComponents Format.binary64 sign exponent mantissa) ≠ .notANumber := by
  rw [unpack_packComponents]
  split_ifs with hones hzero
  · exact UnpackedFloat.noConfusion
  · exact absurd (h hones) hzero
  · exact UnpackedFloat.noConfusion
  · exact UnpackedFloat.noConfusion
  · exact UnpackedFloat.noConfusion

/-- Only a NaN is packed as a NaN. -/
theorem unpack_pack_ne {f : UnpackedFloat} (h : f ≠ .notANumber) :
    (Float.Model.pack f).unpack ≠ .notANumber := by
  change UnpackedFloat.unpack Format.binary64 (UnpackedFloat.pack Format.binary64 f) ≠ _
  cases f with
  | notANumber => exact absurd rfl h
  | infinity sign => exact unpack_packComponents_ne fun _ => rfl
  | zero sign => exact unpack_packComponents_ne fun _ => rfl
  | finite sign m e hm =>
      rw [UnpackedFloat.pack]
      dsimp only
      split_ifs with hlarge hnormal
      · exact unpack_packComponents_ne fun _ => rfl
      · refine unpack_packComponents_ne fun hones => ?_
        rw [BitVec.toNat_ofNat] at hones
        change ¬ 2048 ≤ _ + 1 at hlarge
        change _ % 2048 = 2047 at hones
        omega
      · exact unpack_packComponents_ne fun hones => absurd hones (by decide)

theorem isNaN_ofModel_pack {f : UnpackedFloat} (h : f ≠ .notANumber) :
    (Float.ofModel (.pack f)).isNaN = false := by
  rw [← Bool.not_eq_true, isNaN_iff]
  exact unpack_pack_ne h

/-! ## Rounding -/

theorem roundWithAccuracy_ne (sign : Sign) (m : Nat) (e : Int) (a : Accuracy) :
    roundWithAccuracy Format.binary64 sign m e a ≠ .notANumber := by
  rw [roundWithAccuracy]
  dsimp only
  split <;> exact UnpackedFloat.noConfusion

theorem isNaN_ofGrid (significand : Nat) (exponent : Int) :
    (ofGrid significand exponent).isNaN = false := by
  rw [ofGrid]
  split_ifs
  all_goals exact isNaN_ofModel_pack UnpackedFloat.noConfusion

theorem isNaN_ofRatio (num den : Nat) : (ofRatio num den).isNaN = false :=
  isNaN_ofGrid _ _

/-! ## Operations on NaN -/

variable {x y : Float}

theorem unpack_pack_notANumber : (Float.Model.pack .notANumber).unpack = .notANumber :=
  rfl

/-- A difference from what is no number, or of it, is no number. -/
theorem isNaN_sub (h : x.isNaN = true ∨ y.isNaN = true) : (x - y).isNaN = true := by
  rw [isNaN_iff, isNaN_iff] at h
  rw [isNaN_iff]
  change (Float.Model.pack
    (UnpackedFloat.sub .binary64 x.toModel.unpack y.toModel.unpack)).unpack = _
  rcases h with h | h
  · rw [h]
    exact unpack_pack_notANumber
  · rw [h]
    cases x.toModel.unpack <;> exact unpack_pack_notANumber

/-- What is no number is within no distance. -/
theorem not_abs_le_of_isNaN {bound : Float} (h : x.isNaN = true) : ¬ x.abs ≤ bound := by
  have habs : x.abs.toModel.unpack = .notANumber := by
    rw [Float.abs, Float.Model.abs, isNaN_iff.mp h]
    exact unpack_pack_notANumber
  have hnone : UnpackedFloat.le .notANumber bound.toModel.unpack = false := by
    cases bound.toModel.unpack <;> rfl
  change ¬ decide (x.abs.toModel.unpack.le bound.toModel.unpack = true) = true
  rw [habs, hnone]
  decide

/-! ## Operations on numbers -/

theorem isNaN_neg (h : x.isNaN = false) : (-x).isNaN = false := by
  rw [← Bool.not_eq_true, isNaN_iff] at h
  change (Float.ofModel (.pack x.toModel.unpack.neg)).isNaN = false
  refine isNaN_ofModel_pack ?_
  cases hx : x.toModel.unpack with
  | notANumber => exact absurd hx h
  | _ => exact UnpackedFloat.noConfusion

theorem isNaN_withSign (negative : Bool) (h : x.isNaN = false) :
    (withSign negative x).isNaN = false := by
  cases negative with
  | true => exact isNaN_neg h
  | false => exact h

theorem isNaN_ofInt (n : Int) : (ofInt n).isNaN = false :=
  isNaN_withSign _ (isNaN_ofRatio _ _)

theorem isInf_iff : x.isInf = true ↔ ∃ sign, x.toModel.unpack = .infinity sign := by
  rw [Float.isInf, Float.Model.isInf]
  cases x.toModel.unpack <;> simp [UnpackedFloat.isInf]

theorem unpack_zero_literal : (0 : Float).toModel.unpack = .zero .positive := by
  have hzero : (0 : Float) = zero .positive := by decide +kernel
  rw [hzero, unpack_zero]

/-- The infinity that is not below zero. -/
theorem eq_infinity (hinf : x.isInf = true) (hpos : ¬ x ≤ 0) : x = infinity := by
  obtain ⟨sign, hx⟩ := isInf_iff.mp hinf
  have hpack : Float.ofModel (.pack x.toModel.unpack) = x := Float.ofBits_toBits x
  rw [← hpack, hx]
  cases sign with
  | positive => decide +kernel
  | negative =>
      change ¬ decide (x.toModel.unpack.le (0 : Float).toModel.unpack = true) = true at hpos
      rw [decide_eq_true_eq, unpack_zero_literal, hx] at hpos
      exact absurd rfl hpos

theorem beq_zero_of_unpack {sign : Sign} (h : x.toModel.unpack = .zero sign) :
    (x == 0) = true := by
  change x.toModel.unpack.beq (0 : Float).toModel.unpack = true
  rw [unpack_zero_literal, h]
  rfl

theorem isNaN_mul (hx : x.isNaN = false) (hy : y.isFinite = true) (hzero : (y == 0) = false) :
    (x * y).isNaN = false := by
  rw [← Bool.not_eq_true, isNaN_iff] at hx
  change (Float.ofModel (.pack
    (UnpackedFloat.mul .binary64 x.toModel.unpack y.toModel.unpack))).isNaN = false
  refine isNaN_ofModel_pack ?_
  change y.toModel.unpack.isFinite = true at hy
  cases hy' : y.toModel.unpack with
  | zero sign =>
      rw [beq_zero_of_unpack hy'] at hzero
      cases hzero
  | finite sign m e hm =>
      cases hx' : x.toModel.unpack with
      | notANumber => exact absurd hx' hx
      | finite => exact roundWithAccuracy_ne _ _ _ _
      | _ => exact UnpackedFloat.noConfusion
  | _ =>
      rw [hy'] at hy
      cases hy

theorem isNaN_div (hx : x.isNaN = false) (hy : y.isNaN = false)
    (hinf : ¬ (x.isInf = true ∧ y.isInf = true)) (hzero : (y == 0) = false) :
    (x / y).isNaN = false := by
  rw [← Bool.not_eq_true, isNaN_iff] at hx hy
  rw [isInf_iff, isInf_iff] at hinf
  change (Float.ofModel (.pack
    (UnpackedFloat.div .binary64 x.toModel.unpack y.toModel.unpack))).isNaN = false
  refine isNaN_ofModel_pack ?_
  cases hy' : y.toModel.unpack with
  | notANumber => exact absurd hy' hy
  | zero sign =>
      rw [beq_zero_of_unpack hy'] at hzero
      cases hzero
  | infinity sign' =>
      cases hx' : x.toModel.unpack with
      | notANumber => exact absurd hx' hx
      | infinity sign => exact absurd ⟨⟨sign, hx'⟩, sign', hy'⟩ hinf
      | _ => exact UnpackedFloat.noConfusion
  | finite =>
      cases hx' : x.toModel.unpack with
      | notANumber => exact absurd hx' hx
      | finite => exact roundWithAccuracy_ne _ _ _ _
      | _ => exact UnpackedFloat.noConfusion

/-- A quotient of two infinities is no number. -/
theorem isNaN_div_of_isInf (hx : x.isInf = true) (hy : y.isInf = true) :
    (x / y).isNaN = true := by
  obtain ⟨sign, hx⟩ := isInf_iff.mp hx
  obtain ⟨sign', hy⟩ := isInf_iff.mp hy
  rw [isNaN_iff]
  change (Float.Model.pack
    (UnpackedFloat.div .binary64 x.toModel.unpack y.toModel.unpack)).unpack = _
  rw [hx, hy]
  exact unpack_pack_notANumber

theorem isNaN_sqrt (hx : x.isNaN = false) (hneg : ¬ x < 0) : x.sqrt.isNaN = false := by
  rw [← Bool.not_eq_true, isNaN_iff] at hx
  change ¬ decide (x.toModel.unpack.lt (0 : Float).toModel.unpack = true) = true at hneg
  rw [decide_eq_true_eq, unpack_zero_literal] at hneg
  change (Float.ofModel (.pack (UnpackedFloat.sqrt .binary64 x.toModel.unpack))).isNaN = false
  refine isNaN_ofModel_pack ?_
  cases hx' : x.toModel.unpack with
  | notANumber => exact absurd hx' hx
  | zero => exact UnpackedFloat.noConfusion
  | infinity sign =>
      cases sign with
      | positive => exact UnpackedFloat.noConfusion
      | negative => exact absurd (by rw [hx']; rfl) hneg
  | finite sign =>
      cases sign with
      | positive => exact roundWithAccuracy_ne _ _ _ _
      | negative => exact absurd (by rw [hx']; rfl) hneg

end Binary64

theorem Decimal.isNaN_toFloat (d : Decimal) : d.toFloat.isNaN = false := by
  rw [toFloat]
  split_ifs
  · exact Binary64.isNaN_ofRatio 0 1
  · decide +kernel
  · exact Binary64.isNaN_ofRatio 0 1
  · exact Binary64.isNaN_ofRatio _ _

end Calculator
