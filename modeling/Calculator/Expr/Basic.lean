import Calculator.Operator

/-!
# Expressions

The tree of an arithmetic expression.  Names are resolved when the expression
is evaluated, not before.
-/

namespace Calculator

inductive Expr where
  | number (v : Float)
  | identifier (name : String)
  | unary (op : UnaryOperator) (operand : Expr)
  | binary (op : BinaryOperator) (left right : Expr)
  | call (name : String) (arguments : List Expr)

namespace Expr

mutual

/-- Whether a name occurs as a bare identifier; the names of called functions do
not count. -/
def mentions (name : String) : Expr → Bool
  | number _ => false
  | identifier other => other == name
  | unary _ operand => mentions name operand
  | binary _ left right => mentions name left || mentions name right
  | call _ arguments => anyMentions name arguments

/-- Whether a name occurs as a bare identifier in one of the expressions. -/
def anyMentions (name : String) : List Expr → Bool
  | [] => false
  | argument :: rest => mentions name argument || anyMentions name rest

end

mutual

/-- The number of nodes on the longest path down the tree. -/
def height : Expr → Nat
  | number _ => 1
  | identifier _ => 1
  | unary _ operand => height operand + 1
  | binary _ left right => max (height left) (height right) + 1
  | call _ arguments => maxHeight arguments + 1

/-- The greatest height among the expressions, zero for none. -/
def maxHeight : List Expr → Nat
  | [] => 0
  | argument :: rest => max (height argument) (maxHeight rest)

end

end Expr
end Calculator
