import Calculator.Builtin
import Calculator.Symbols

/-!
# Evaluation

An expression is evaluated against the built-ins and the symbols of a session.
Arguments are evaluated in the caller's scope, from left to right; the body of a
user function is evaluated in a scope of its own, which binds `x` and nothing
else.  Two limits keep every evaluation finite: one on nested calls of user
functions and one on nested expressions, calls included.
-/

namespace Calculator

/-- The number of user functions that may be entered inside one another. -/
def maxCallDepth : Nat := 64

/-- The number of expressions that may be nested in one evaluation, the bodies
of called functions included. -/
def maxNesting : Nat := 2 * maxTreeHeight

/-- Where an expression is evaluated. -/
structure Scope where
  symbols : Symbols
  /-- The value of `x` inside a user function. -/
  argument : Option Float
  /-- How many more user functions may be entered. -/
  callsLeft : Nat

namespace Scope

variable [Elementary]

/-- The value of a bare name.  The argument comes first, then the built-ins, the
variables, the last answer and the user functions. -/
def resolve (scope : Scope) (name : String) : Except EvalError Float :=
  match scope.argument, name == freeVariable with
  | some v, true => .ok v
  | _, _ =>
    match Builtin.find? name with
    | some (.constant v) => .ok v
    | some _ => .error (.notAValue name)
    | none =>
      match scope.symbols.find? name with
      | some (.variable v) => .ok v
      | entry =>
        if name == lastAnswerName then .ok scope.symbols.lastAnswer
        else if entry.isSome then .error (.notAValue name)
        else .error (.undefined name)

/-- Enters a user function with its argument; `evaluate` evaluates the body. -/
def enter
    (evaluate : Scope → Expr → Except EvalError Value)
    (scope : Scope) (name : String) (d : Definition) (input : Float) :
    Except EvalError Value :=
  match scope.callsLeft with
  | 0 => .error (.recursionLimit name)
  | callsLeft + 1 => do
    evaluate { scope with argument := some input, callsLeft } (← d.body)

/-- Calls a name with evaluated arguments. -/
def call
    (evaluate : Scope → Expr → Except EvalError Value)
    (scope : Scope) (name : String) (arguments : List Float) :
    Except EvalError Value :=
  match Builtin.find? name with
  | some builtin => builtin.call name arguments
  | none =>
    match scope.symbols.find? name with
    | some (.function d) =>
      match arguments with
      | [input] => enter evaluate scope name d input
      | _ => .error (.wrongArity name 1 1 arguments.length)
    | entry =>
      if entry.isSome || name == lastAnswerName then .error (.notCallable name)
      else .error (.undefined name)

/-- Evaluates an expression with the given number of nested expressions left. -/
def evaluate : (levels : Nat) → Scope → Expr → Except EvalError Value
  | 0, _, _ => .error .tooDeep
  | levels + 1, scope, expression =>
    match expression with
    | .number v => .ok (.number v)
    | .identifier name => (scope.resolve name).map .number
    | .unary op operand => do
      let v ← evaluate levels scope operand
      .ok (.number (op.apply v.toFloat))
    | .binary op left right => do
      let a ← evaluate levels scope left
      let b ← evaluate levels scope right
      (op.apply a.toFloat b.toFloat).map .number
    | .call name arguments => do
      let values ← arguments.mapM fun argument =>
        (evaluate levels scope argument).map Value.toFloat
      call (evaluate levels) scope name values

end Scope

namespace Symbols

/-- The scope outside every function. -/
def outerScope (s : Symbols) : Scope :=
  ⟨s, none, maxCallDepth⟩

variable [Elementary]

/-- Evaluates an expression. -/
def evaluate (s : Symbols) (e : Expr) : Except EvalError Value :=
  s.outerScope.evaluate maxNesting e

/-- Applies a user function to a number.  Variables are looked up now, not when
the function was defined. -/
def apply (s : Symbols) (name : String) (d : Definition) (input : Float) :
    Except EvalError Value :=
  Scope.enter (Scope.evaluate maxNesting) s.outerScope name d input

end Symbols
end Calculator
