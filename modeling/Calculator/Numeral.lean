import Calculator.Decimal.Reading
import Calculator.Radix

/-!
# Number literals of expressions

A literal that starts with `0x`, `0o` or `0b` is a 64-bit integer in that radix;
every other literal is read as a decimal floating-point number.
-/

namespace Calculator
namespace Numeral

/-- The radix that the letter after a leading zero announces. -/
def radixOf? (c : Char) : Option Nat :=
  if c = 'x' ∨ c = 'X' then some 16
  else if c = 'o' ∨ c = 'O' then some 8
  else if c = 'b' ∨ c = 'B' then some 2
  else none

/-- The double that a number literal stands for. -/
def read? (cs : List Char) : Option Float :=
  match cs with
  | '0' :: letter :: digits =>
    match radixOf? letter with
    | some radix => (Radix.read? radix digits).map Binary64.ofInt
    | none => Decimal.read? cs
  | _ => Decimal.read? cs

end Numeral
end Calculator
