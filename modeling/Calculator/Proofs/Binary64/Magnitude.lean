import Mathlib
import Calculator.Binary64.Basic

/-!
# The positive doubles

A positive finite double has one significand and one exponent of a fixed shape.
Every other finite double is a zero or one of these with a sign, so whatever holds of
the signed magnitudes and of the zeros holds of all finite doubles.
-/

namespace Calculator
namespace Binary64

open Float.Model
open Float.Model.UnpackedFloat

/-! ## The fields of a word -/

/-- A word is made up of its fields. -/
theorem exists_packComponents (word : BitVec 64) :
    ∃ (sign : Sign) (exponent : BitVec 11) (mantissa : BitVec 52),
      packComponents Format.binary64 sign exponent mantissa = word :=
  ⟨_, _, _, @packComponents_unpackSign_unpackExponent_unpackMantissa Format.binary64 word⟩

theorem toNat_leadingBit (mantissa : BitVec 52) :
    (1#1 ++ mantissa).toNat = 2 ^ 52 + mantissa.toNat := by
  rw [BitVec.toNat_append, ← Nat.shiftLeft_add_eq_or_of_lt mantissa.isLt]
  simp [Nat.shiftLeft_eq]

/-- What the fields of a word say. -/
theorem unpack_packComponents (sign : Sign) (exponent : BitVec 11) (mantissa : BitVec 52) :
    UnpackedFloat.unpack Format.binary64
        (packComponents Format.binary64 sign exponent mantissa) =
      if exponent.toNat = 2047 then
        if mantissa.toNat = 0 then .infinity sign else .notANumber
      else if exponent.toNat = 0 then
        if h : mantissa.toNat = 0 then .zero sign
        else .finite sign mantissa.toNat (-1074) (Nat.pos_of_ne_zero h)
      else .finite sign (2 ^ 52 + mantissa.toNat) (exponent.toNat - 1075) (by omega) := by
  have hones : exponent = -1#11 ↔ exponent.toNat = 2047 := by
    rw [← BitVec.toNat_inj]
    rfl
  have hzeros : exponent = 0#11 ↔ exponent.toNat = 0 := by
    rw [← BitVec.toNat_inj]
    rfl
  have hmantissa : mantissa = 0#52 ↔ mantissa.toNat = 0 := by
    rw [← BitVec.toNat_inj]
    rfl
  simp only [UnpackedFloat.unpack, unpackExponent_packComponents, unpackMantissa_packComponents,
    unpackSign_packComponents, Sign.ofBitVec_toBitVec, hones, hzeros, hmantissa, toNat_leadingBit]
  split_ifs with _ _ hsmall
  · rfl
  · rfl
  · rfl
  · rw [hsmall]
    rfl
  · rfl

/-! ## Magnitudes -/

/-- The magnitude of a finite double other than zero: a significand of 53 bits, or of fewer
where the exponent is as small as can be. -/
structure Magnitude where
  significand : Nat
  exponent : Int
  pos : 0 < significand
  lt : significand < 2 ^ 53
  normal : 2 ^ 52 ≤ significand ∨ exponent = -1074
  lower : -1074 ≤ exponent
  upper : exponent ≤ 971

namespace Magnitude

variable (m : Magnitude) (sign : Sign)

def scaled : Scaled :=
  ⟨m.significand, m.exponent⟩

/-- The double of a magnitude and a sign. -/
def toFloat : Float :=
  .ofModel (.pack (.finite sign m.significand m.exponent m.pos))

theorem log2_eq_iff : m.significand.log2 = 52 ↔ 2 ^ 52 ≤ m.significand := by
  rw [Nat.log2_eq_iff (Nat.ne_of_gt m.pos)]
  exact ⟨And.left, fun h => ⟨h, m.lt⟩⟩

/-- The leading bit of a full significand goes without saying. -/
theorem pack_finite :
    UnpackedFloat.pack Format.binary64 (.finite sign m.significand m.exponent m.pos) =
      packComponents Format.binary64 sign
        (BitVec.ofNat 11 (if 2 ^ 52 ≤ m.significand then (m.exponent + 1075).toNat else 0))
        (BitVec.ofNat 52 m.significand) := by
  have hlower := m.lower
  have hupper := m.upper
  have hfits : ¬ 2048 ≤ (m.exponent + 1023 + 52).toNat + 1 := by omega
  have hbits : m.significand.log2 + 1 = 53 ↔ 2 ^ 52 ≤ m.significand := by
    rw [← m.log2_eq_iff]
    omega
  simp only [UnpackedFloat.pack]
  change (if 2048 ≤ (m.exponent + 1023 + 52).toNat + 1 then _
    else if m.significand.log2 + 1 = 53 then _ else _) = _
  rw [if_neg hfits]
  by_cases hfull : 2 ^ 52 ≤ m.significand
  · rw [if_pos (hbits.mpr hfull), if_pos hfull]
    congr 2
    change (m.exponent + 1023 + 52).toNat = _
    omega
  · rw [if_neg (mt hbits.mp hfull), if_neg hfull]

/-- Packing a magnitude loses nothing. -/
theorem unpack_toFloat :
    (m.toFloat sign).toModel.unpack = .finite sign m.significand m.exponent m.pos := by
  have hlower := m.lower
  have hupper := m.upper
  have hpos := m.pos
  have hlt := m.lt
  change UnpackedFloat.unpack Format.binary64 (UnpackedFloat.pack Format.binary64 _) = _
  rw [pack_finite, unpack_packComponents]
  by_cases hfull : 2 ^ 52 ≤ m.significand
  · have hexponent : (BitVec.ofNat 11 (m.exponent + 1075).toNat).toNat =
        (m.exponent + 1075).toNat := by
      rw [BitVec.toNat_ofNat]
      exact Nat.mod_eq_of_lt (by omega)
    have hmantissa : 2 ^ 52 + (BitVec.ofNat 52 m.significand).toNat = m.significand := by
      rw [BitVec.toNat_ofNat]
      omega
    rw [if_pos hfull, if_neg (by omega), if_neg (by omega)]
    simp only [hmantissa, hexponent]
    congr 1
    omega
  · have hmantissa : (BitVec.ofNat 52 m.significand).toNat = m.significand := by
      rw [BitVec.toNat_ofNat]
      exact Nat.mod_eq_of_lt (by omega)
    rw [if_neg hfull, if_neg (by decide), if_pos (by decide), dif_neg (by omega)]
    simp only [hmantissa]
    congr 1
    exact (m.normal.resolve_left hfull).symm

@[simp]
theorem magnitude?_toFloat : magnitude? (m.toFloat sign) = some m.scaled := by
  rw [magnitude?, unpack_toFloat]
  rfl

@[simp]
theorem isNegative_toFloat : isNegative (m.toFloat sign) = (sign == .negative) := by
  rw [isNegative, unpack_toFloat]
  cases sign <;> rfl

@[simp]
theorem abs_toFloat : (m.toFloat sign).abs = m.toFloat .positive := by
  rw [Float.abs, Float.Model.abs, unpack_toFloat]
  rfl

@[simp]
theorem neg_toFloat : -m.toFloat sign = m.toFloat (-sign) := by
  change Float.ofModel (.pack (m.toFloat sign).toModel.unpack.neg) = _
  rw [unpack_toFloat]
  rfl

/-- The grid around a magnitude holds it. -/
theorem ofGrid_eq : ofGrid m.significand m.exponent = m.toFloat .positive := by
  have hlt := m.lt
  rw [ofGrid, dif_neg (Nat.ne_of_gt m.pos), if_neg]
  · rfl
  · exact Nat.ne_of_lt hlt

end Magnitude

/-! ## All finite doubles -/

/-- The zero of a sign. -/
def zero (sign : Sign) : Float :=
  .ofModel (.pack (.zero sign))

theorem unpack_zero (sign : Sign) : (zero sign).toModel.unpack = .zero sign :=
  unpack_packedZero

/-- What a word says where it is neither zero, infinite nor a NaN is a magnitude. -/
theorem exists_magnitude_of_unpack {v : Float} {sign : Sign} {n : Nat} {e : Int} {h : 0 < n}
    (hunpack : v.toModel.unpack = .finite sign n e h) :
    ∃ m : Magnitude, v.toModel.unpack = .finite sign m.significand m.exponent m.pos := by
  obtain ⟨sign', exponent, mantissa, hword⟩ := exists_packComponents v.toModel.toBits.toBitVec
  have hexponent := exponent.isLt
  have hmantissa := mantissa.isLt
  have hfields : v.toModel.unpack = _ :=
    (congrArg (UnpackedFloat.unpack Format.binary64) hword.symm).trans
      (unpack_packComponents sign' exponent mantissa)
  rw [hunpack] at hfields
  split_ifs at hfields with _ hones _ hzeros
  · cases hfields
    exact ⟨⟨mantissa.toNat, -1074, h, by omega, .inr rfl, by omega, by omega⟩, hunpack⟩
  · cases hfields
    exact ⟨⟨2 ^ 52 + mantissa.toNat, exponent.toNat - 1075, h, by omega, .inl (by omega),
      by omega, by omega⟩, hunpack⟩

/-- Every finite double is a zero or a magnitude with a sign. -/
theorem eq_zero_or_toFloat_of_isFinite {v : Float} (h : v.isFinite = true) :
    ∃ sign, v = zero sign ∨ ∃ m : Magnitude, v = m.toFloat sign := by
  have hpack : Float.ofModel (.pack v.toModel.unpack) = v := Float.ofBits_toBits v
  have hfinite : v.toModel.unpack.isFinite = true := h
  cases hunpack : v.toModel.unpack with
  | notANumber => simp [hunpack, UnpackedFloat.isFinite] at hfinite
  | infinity sign => simp [hunpack, UnpackedFloat.isFinite] at hfinite
  | zero sign =>
      refine ⟨sign, .inl ?_⟩
      rw [← hpack, hunpack]
      rfl
  | finite sign n e hn =>
      obtain ⟨m, hm⟩ := exists_magnitude_of_unpack hunpack
      refine ⟨sign, .inr ⟨m, ?_⟩⟩
      rw [← hpack, hm]
      rfl

end Binary64
end Calculator
