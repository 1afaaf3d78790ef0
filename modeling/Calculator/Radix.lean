import Calculator.Binary64.Basic

/-!
# Integers in a radix

Writing a signed 64-bit integer in binary, octal, decimal or hexadecimal, and
reading one back.  Writing puts a minus sign in front of the digits of the
magnitude, so the smallest integer needs no special case.
-/

namespace Calculator
namespace Radix

/-- The integers that a signed 64-bit word holds. -/
def InRange (n : Int) : Prop :=
  -(Nat.pow 2 63 : Nat) ≤ n ∧ n < (Nat.pow 2 63 : Nat)

instance (n : Int) : Decidable (InRange n) :=
  inferInstanceAs (Decidable (_ ∧ _))

/-- The radices that have a notation of their own; every other integer is
written in decimal. -/
def effective (radix : Nat) : Nat :=
  if radix = 2 ∨ radix = 8 ∨ radix = 16 then radix else 10

/-- An integer as an optional minus sign and the digits of its magnitude. -/
def write (radix : Nat) (n : Int) : List Char :=
  let digits := Nat.toDigits (effective radix) n.natAbs
  if n < 0 then '-' :: digits else digits

/-- The value of a digit, letters counting from ten in either case. -/
def digitValue (c : Char) : Option Nat :=
  if c.isDigit then some (c.toNat - '0'.toNat)
  else if 'a' ≤ c ∧ c ≤ 'z' then some (c.toNat - 'a'.toNat + 10)
  else if 'A' ≤ c ∧ c ≤ 'Z' then some (c.toNat - 'A'.toNat + 10)
  else none

/-- The value of a digit that a radix admits. -/
def digitIn? (radix : Nat) (c : Char) : Option Nat :=
  (digitValue c).filter (· < radix)

/-- The value of a text that consists of digits of the radix only. -/
def digitsValue? (radix : Nat) (digits : List Char) : Option Nat :=
  digits.foldlM (fun n c => (digitIn? radix c).map (radix * n + ·)) 0

/-- A natural number in digits, of which there is at least one. -/
def readNat? (radix : Nat) (digits : List Char) : Option Nat :=
  if digits.isEmpty then none else digitsValue? radix digits

/-- A signed 64-bit integer: an optional sign and at least one digit. -/
def read? (radix : Nat) (cs : List Char) : Option Int :=
  let value :=
    match cs with
    | '-' :: digits => (readNat? radix digits).map fun n => -(n : Int)
    | '+' :: digits => (readNat? radix digits).map Int.ofNat
    | digits => (readNat? radix digits).map Int.ofNat
  value.filter fun n => decide (InRange n)

end Radix
end Calculator
