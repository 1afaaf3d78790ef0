import Calculator.Binary64.Basic

/-!
# Decimal fractions and the doubles next to them

A decimal fraction is an integer times a power of ten.  Reading one rounds it
to the nearest double; the shortest decimal of a double is the one with the
fewest digits that is read back as that double.
-/

namespace Calculator

/-- The number `significand · 10 ^ exponent`. -/
structure Decimal where
  significand : Nat
  exponent : Int
  deriving DecidableEq

namespace Decimal

/-- The double nearest to a decimal fraction.

The two early answers only spare the work with huge powers of ten: a positive
number of at least `10 ^ 400` is beyond every double, and one below `10 ^ (-400)`
is below half the smallest positive double. -/
def toFloat (d : Decimal) : Float :=
  if d.significand = 0 then Binary64.ofRatio 0 1
  else if 400 < d.exponent then Binary64.infinity
  else if d.exponent < -(400 + d.significand.log2 : Int) then Binary64.ofRatio 0 1
  else
    Binary64.ofRatio
      (d.significand * Nat.pow 10 d.exponent.toNat) (Nat.pow 10 (-d.exponent).toNat)

/-! ## Shortest digits -/

/-- The position `p` of the leading digit of a positive quotient: it is at least
`10 ^ (p - 1)` and less than `10 ^ p`. -/
def leadingPosition (num den : Nat) : Int :=
  if den ≤ num then ((Nat.toDigits 10 (num / den)).length : Int)
  else 1 - ((Nat.toDigits 10 ((den - 1) / num)).length : Int)

/-- The decimal at the given exponent that is read back as the double of exact
magnitude `num / den`.  Only the two neighbours of the quotient can be; of two
that both are, the nearer is taken, and the upper one if they are equally near. -/
def readingBackAt (v : Float) (num den : Nat) (exponent : Int) : Option Decimal :=
  let scaledNum := num * Nat.pow 10 (-exponent).toNat
  let scaledDen := den * Nat.pow 10 exponent.toNat
  let lower : Decimal := ⟨scaledNum / scaledDen, exponent⟩
  let upper : Decimal := ⟨scaledNum / scaledDen + 1, exponent⟩
  match decide (lower.toFloat = v), decide (upper.toFloat = v) with
  | true, true =>
    if 2 * (scaledNum % scaledDen) < scaledDen then some lower else some upper
  | true, false => some lower
  | false, true => some upper
  | false, false => none

/-- The decimal that equals a magnitude. -/
def exactly (s : Binary64.Scaled) : Decimal :=
  if 0 ≤ s.exponent then ⟨s.num, 0⟩
  else ⟨s.significand * Nat.pow 5 (-s.exponent).toNat, s.exponent⟩

/-- The decimal with the fewest digits that is read back as the given positive
double.  The search starts one place above the leading digit, because a power of
ten may lie closest.  Seventeen digits always suffice; the exact decimal would do
as well. -/
def shortest (v : Float) (s : Binary64.Scaled) : Decimal :=
  let position := leadingPosition s.num s.den
  let found :=
    (List.range 18).findSome? fun n => readingBackAt v s.num s.den (position - (n : Nat))
  found.getD (exactly s)

end Decimal
end Calculator
