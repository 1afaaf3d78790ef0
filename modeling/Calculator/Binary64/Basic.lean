/-!
# Doubles as scaled integers

A finite double is an integer times a power of two.  This module gives that
reading and the other direction: the double nearest to a quotient of natural
numbers.  All of it is exact integer arithmetic, so statements about reading
and writing numbers can be made without any real analysis.
-/

namespace Calculator
namespace Binary64

open Float.Model (UnpackedFloat)

/-- A magnitude `significand · 2 ^ exponent`. -/
structure Scaled where
  significand : Nat
  exponent : Int
  deriving DecidableEq

/-- The numerator of a magnitude as a quotient of natural numbers. -/
def Scaled.num (s : Scaled) : Nat :=
  s.significand * Nat.pow 2 s.exponent.toNat

/-- The denominator of a magnitude as a quotient of natural numbers. -/
def Scaled.den (s : Scaled) : Nat :=
  Nat.pow 2 (-s.exponent).toNat

/-- The exact magnitude of a finite double. -/
def magnitude? (v : Float) : Option Scaled :=
  match v.toModel.unpack with
  | .zero _ => some ⟨0, 0⟩
  | .finite _ m e _ => some ⟨m, e⟩
  | .infinity _ => none
  | .notANumber => none

/-- Whether the sign bit is set; a NaN has no sign. -/
def isNegative (v : Float) : Bool :=
  match v.toModel.unpack with
  | .zero .negative => true
  | .finite .negative .. => true
  | .infinity .negative => true
  | _ => false

def infinity : Float :=
  .ofBits 0x7FF0000000000000

def nan : Float :=
  .ofBits 0x7FF8000000000000

/-- A double of given sign and magnitude. -/
def withSign (negative : Bool) (v : Float) : Float :=
  if negative then -v else v

/-! ## The nearest double -/

/-- The integer nearest to a quotient, a half going to the even neighbour. -/
def roundHalfEven (num den : Nat) : Nat :=
  let q := num / den
  let r := num % den
  if 2 * r < den then q
  else if den < 2 * r then q + 1
  else q + q % 2

/-- The largest `k` with `2 ^ k ≤ num / den`, for positive numbers. -/
def binaryOrder (num den : Nat) : Int :=
  let k : Int := (num.log2 : Int) - (den.log2 : Int)
  if den * Nat.pow 2 k.toNat ≤ num * Nat.pow 2 (-k).toNat then k else k - 1

/-- The exponent of the grid of doubles around a quotient: 53 significant bits,
but never finer than the smallest positive double. -/
def gridExponent (num den : Nat) : Int :=
  max (binaryOrder num den - 52) (-1074)

/-- The double `significand · 2 ^ exponent` for a significand of at most 53 bits
or `2 ^ 53`; beyond the largest double it is infinite. -/
def ofGrid (significand : Nat) (exponent : Int) : Float :=
  if h : significand = 0 then .ofModel (.pack (.zero .positive))
  else if significand = Nat.pow 2 53 then
    .ofModel (.pack (.finite .positive (Nat.pow 2 52) (exponent + 1) (by decide)))
  else
    .ofModel (.pack (.finite .positive significand exponent (Nat.pos_of_ne_zero h)))

/-- The double nearest to a quotient, a half going to the even neighbour. -/
def ofRatio (num den : Nat) : Float :=
  let e := gridExponent num den
  ofGrid (roundHalfEven (num * Nat.pow 2 (-e).toNat) (den * Nat.pow 2 e.toNat)) e

/-- The double nearest to an integer. -/
def ofInt (n : Int) : Float :=
  withSign (n < 0) (ofRatio n.natAbs 1)

/-! ## Integer parts -/

/-- The integer that remains when the fraction of a finite double is dropped. -/
def truncate? (v : Float) : Option Int :=
  (magnitude? v).map fun s =>
    let n : Int := (s.num / s.den : Nat)
    if isNegative v then -n else n

/-- The value of a double that is an integer. -/
def whole? (v : Float) : Option Int :=
  match magnitude? v with
  | none => none
  | some s => if s.num % s.den = 0 then truncate? v else none

/-- The largest whole double that does not exceed the argument; infinities, NaN
and whole numbers stay as they are. -/
def floor (v : Float) : Float :=
  match magnitude? v with
  | none => v
  | some s =>
    if s.num % s.den = 0 then v
    else if isNegative v then -ofRatio (s.num / s.den + 1) 1
    else ofRatio (s.num / s.den) 1

end Binary64
end Calculator
