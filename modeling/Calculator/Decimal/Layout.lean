import Calculator.Decimal.Basic

/-!
# Laying out numbers as text

Results are shown with the shortest digits that are read back as the same
double: whole numbers without a point, magnitudes from `1e16` on and below
`1e-5` in exponent notation, everything else positionally.  Sums of money are
shown with two places, rounded from the exact value.
-/

namespace Calculator
namespace Decimal

/-- Puts the decimal point in front of the last `places` digits, with zeros in
front as far as needed. -/
def withPoint (digits : List Char) (places : Nat) : List Char :=
  let padded := List.replicate (places + 1 - digits.length) '0' ++ digits
  let whole := padded.length - places
  padded.take whole ++ '.' :: padded.drop whole

/-- Plain notation, without an exponent. -/
def positional (d : Decimal) : List Char :=
  let digits := Nat.toDigits 10 d.significand
  if 0 ≤ d.exponent then digits ++ List.replicate d.exponent.toNat '0'
  else withPoint digits (-d.exponent).toNat

/-- The decimal text of an integer. -/
def integerText (n : Int) : List Char :=
  if n < 0 then '-' :: Nat.toDigits 10 n.natAbs else Nat.toDigits 10 n.natAbs

/-- Exponent notation with one digit in front of the point. -/
def scientific (d : Decimal) : List Char :=
  match Nat.toDigits 10 d.significand with
  | [] => []
  | lead :: rest =>
    let fraction := if rest.isEmpty then [] else '.' :: rest
    lead :: fraction ++ 'e' :: integerText (d.exponent + rest.length)

end Decimal

open Binary64 in
/-- The text of a double with a fixed number of places, rounded from the exact
value, a half going to the even neighbour. -/
def formatPlaces (places : Nat) (v : Float) : String :=
  let sign := if isNegative v then ['-'] else []
  match magnitude? v with
  | some s =>
    let digits := Nat.toDigits 10 (roundHalfEven (s.num * Nat.pow 10 places) s.den)
    String.ofList (sign ++ Decimal.withPoint digits places)
  | none => if v.isNaN then "NaN" else String.ofList (sign ++ ['i', 'n', 'f'])

open Binary64 in
/-- The text of a number in results. -/
def formatNumber (v : Float) : String :=
  match magnitude? v with
  | none => if v.isNaN then "NaN" else if isNegative v then "-inf" else "inf"
  | some s =>
    if s.significand = 0 then "0"
    else
      let sign := if isNegative v then ['-'] else []
      if 1e16 ≤ v.abs ∨ v.abs < 1e-5 then
        String.ofList (sign ++ (Decimal.shortest v.abs s).scientific)
      else
        match whole? v with
        | some n => String.ofList (Decimal.integerText n)
        | none => String.ofList (sign ++ (Decimal.shortest v.abs s).positional)

end Calculator
