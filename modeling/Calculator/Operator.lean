import Calculator.Elementary
import Calculator.Error
import Calculator.Token.Basic

/-!
# Operators

What the operators compute.  Division and remainder by zero and a negative power
of zero are errors of their own; any other result that is no number although
both operands are numbers is a domain error.
-/

namespace Calculator

inductive UnaryOperator where
  | negative
  | positive
  deriving DecidableEq, Repr

inductive BinaryOperator where
  | addition
  | subtraction
  | multiplication
  | division
  | modulo
  | exponentiation
  deriving DecidableEq, Repr

/-- The sign that a symbol stands for in front of an operand. -/
def OperatorSymbol.unary? : OperatorSymbol → Option UnaryOperator
  | plus => some .positive
  | minus => some .negative
  | _ => none

/-- The operator that a symbol stands for between two operands. -/
def OperatorSymbol.binary : OperatorSymbol → BinaryOperator
  | plus => .addition
  | minus => .subtraction
  | star => .multiplication
  | slash => .division
  | percent => .modulo
  | caret => .exponentiation
  | starStar => .exponentiation

/-- How tightly signs bind: less than a power, more than a product. -/
def UnaryOperator.precedence : Nat := 3

namespace UnaryOperator

def apply : UnaryOperator → Float → Float
  | negative, v => -v
  | positive, v => v

end UnaryOperator

namespace BinaryOperator

/-- The symbol that names the operator in messages. -/
def symbol : BinaryOperator → OperatorSymbol
  | addition => .plus
  | subtraction => .minus
  | multiplication => .star
  | division => .slash
  | modulo => .percent
  | exponentiation => .caret

def precedence : BinaryOperator → Nat
  | addition => 1
  | subtraction => 1
  | multiplication => 2
  | division => 2
  | modulo => 2
  | exponentiation => 4

def isRightAssociative : BinaryOperator → Bool
  | exponentiation => true
  | _ => false

variable [Elementary]

/-- The result as a double, which may be no number, where no rule of its own
forbids the operands. -/
def compute : BinaryOperator → Float → Float → Except EvalError Float
  | addition, a, b => .ok (a + b)
  | subtraction, a, b => .ok (a - b)
  | multiplication, a, b => .ok (a * b)
  | division, a, b => if b == 0 then .error .divisionByZero else .ok (a / b)
  | modulo, a, b =>
    if b == 0 then .error .divisionByZero
    else .ok (a - b * Binary64.floor (a / b))
  | exponentiation, a, b =>
    if a == 0 ∧ b < 0 then .error .divisionByZero else .ok (Elementary.pow a b)

/-- The value of a binary operation. -/
def apply (op : BinaryOperator) (a b : Float) : Except EvalError Float := do
  let v ← op.compute a b
  if v.isNaN && !a.isNaN && !b.isNaN then .error (.domain op.symbol.text) else .ok v

end BinaryOperator
end Calculator
