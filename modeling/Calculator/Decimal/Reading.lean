import Calculator.Decimal.Basic

/-!
# Reading floating-point literals

The literal grammar of amounts, operands and numbers without a radix prefix: an
optional sign, then either digits with an optional point and an optional
exponent, or one of the words for infinity and NaN in any case.  Nothing may
surround the literal, and a point alone is no number.
-/

namespace Calculator
namespace Decimal

/-- The value of a string of ASCII digits. -/
def digitsValue (digits : List Char) : Nat :=
  digits.foldl (fun n c => 10 * n + (c.toNat - '0'.toNat)) 0

/-- The exponent part of a literal, which takes all that is left of it. -/
def readExponent? : List Char → Option Int
  | [] => some 0
  | mark :: cs =>
    if mark = 'e' || mark = 'E' then
      let (negative, digits) :=
        match cs with
        | '-' :: digits => (true, digits)
        | '+' :: digits => (false, digits)
        | digits => (false, digits)
      if digits ≠ [] ∧ digits.all Char.isDigit then
        some (if negative then -(digitsValue digits : Int) else digitsValue digits)
      else none
    else none

/-- An unsigned literal in digits. -/
def readUnsigned? (cs : List Char) : Option Decimal :=
  let whole := cs.takeWhile Char.isDigit
  let (fraction, rest) :=
    match cs.dropWhile Char.isDigit with
    | '.' :: cs => (cs.takeWhile Char.isDigit, cs.dropWhile Char.isDigit)
    | cs => ([], cs)
  if whole = [] ∧ fraction = [] then none
  else
    (readExponent? rest).map fun exponent =>
      ⟨digitsValue (whole ++ fraction), exponent - fraction.length⟩

/-- The words for the values that have no digits. -/
def readWord? (cs : List Char) : Option Float :=
  let word := String.ofList (cs.map Char.toLower)
  if word = "inf" ∨ word = "infinity" then some Binary64.infinity
  else if word = "nan" then some Binary64.nan
  else none

/-- A literal without its sign. -/
def readMagnitude? (cs : List Char) : Option Float :=
  match readUnsigned? cs with
  | some d => some d.toFloat
  | none => readWord? cs

/-- The double that a floating-point literal stands for. -/
def read? : List Char → Option Float
  | '-' :: cs => (readMagnitude? cs).map fun v => -v
  | '+' :: cs => readMagnitude? cs
  | cs => readMagnitude? cs

end Decimal
end Calculator
