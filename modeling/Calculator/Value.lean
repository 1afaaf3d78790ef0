import Calculator.Decimal.Layout
import Calculator.Radix

/-!
# Values of expressions

A value is a double, or an integer that is to be shown in a radix of its own.
-/

namespace Calculator

inductive Value where
  | number (v : Float)
  /-- An integer to be shown in the given radix. -/
  | integer (n : Int) (radix : Nat)
  deriving DecidableEq

namespace Value

/-- The number that a value counts as in further calculation. -/
def toFloat : Value → Float
  | number v => v
  | integer n _ => Binary64.ofInt n

/-- The text of a value in results. -/
def text : Value → String
  | number v => formatNumber v
  | integer n radix => String.ofList (Radix.write radix n)

end Value
end Calculator
