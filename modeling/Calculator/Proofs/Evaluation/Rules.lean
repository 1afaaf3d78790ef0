import Calculator.Evaluation

/-!
# Evaluation without limits

The rules of evaluation as derivations.  Arguments are evaluated from left to
right in the scope of the caller, the text of a function is parsed when it is
called, its body is evaluated with `x` bound to the argument and to nothing else,
and the first error is the result.

A derivation carries two numbers that no rule asks about: how many functions are
entered inside one another, and how many expressions are evaluated inside one
another.
-/

namespace Calculator
namespace Evaluation

/-! ## Names -/

/-- Whether a name is the bound argument of the function whose body is
evaluated. -/
def IsArgument (argument : Option Float) (name : String) : Prop :=
  argument.isSome = true ∧ name = freeVariable

variable [Elementary]

/-- What a bare name stands for. -/
inductive Resolves (s : Symbols) (argument : Option Float) :
    (name : String) → (result : Except EvalError Float) → Prop where
  | bound {v : Float} (h : argument = some v) : Resolves s argument freeVariable (.ok v)
  | constant {name : String} {v : Float} (hfree : ¬ IsArgument argument name)
      (h : Builtin.find? name = some (.constant v)) : Resolves s argument name (.ok v)
  | builtinFunction {name : String} {b : Builtin} (hfree : ¬ IsArgument argument name)
      (h : Builtin.find? name = some b) (hfunction : ∀ v, b ≠ .constant v) :
      Resolves s argument name (.error (.notAValue name))
  | userVariable {name : String} {v : Float} (hfree : ¬ IsArgument argument name)
      (hbuiltin : Builtin.find? name = none) (h : s.find? name = some (.variable v)) :
      Resolves s argument name (.ok v)
  | lastAnswer (hfree : ¬ IsArgument argument lastAnswerName)
      (hbuiltin : Builtin.find? lastAnswerName = none)
      (h : ∀ v, s.find? lastAnswerName ≠ some (.variable v)) :
      Resolves s argument lastAnswerName (.ok s.lastAnswer)
  | userFunction {name : String} {d : Definition} (hfree : ¬ IsArgument argument name)
      (hbuiltin : Builtin.find? name = none) (hanswer : name ≠ lastAnswerName)
      (h : s.find? name = some (.function d)) :
      Resolves s argument name (.error (.notAValue name))
  | undefined {name : String} (hfree : ¬ IsArgument argument name)
      (hbuiltin : Builtin.find? name = none) (hanswer : name ≠ lastAnswerName)
      (h : s.find? name = none) : Resolves s argument name (.error (.undefined name))

/-! ## Expressions and calls -/

/-- What is derived: results of expressions and argument lists under a bound
argument, of calls with evaluated arguments, and of entered functions. -/
inductive Judgement where
  | expression (argument : Option Float) (e : Expr) (result : Except EvalError Value)
  | arguments (argument : Option Float) (es : List Expr)
      (result : Except EvalError (List Float))
  | call (name : String) (inputs : List Float) (result : Except EvalError Value)
  | entry (d : Definition) (input : Float) (result : Except EvalError Value)

/-- The derivations over a symbol table, with the numbers of nested entries of
functions and of nested expressions. -/
inductive Derivable (s : Symbols) :
    Judgement → (entries : Nat) → (nesting : Nat) → Prop where
  | number (argument : Option Float) (v : Float) :
      Derivable s (.expression argument (.number v) (.ok (.number v))) 0 1
  | identifier {argument : Option Float} {name : String} {result : Except EvalError Float}
      (h : Resolves s argument name result) :
      Derivable s (.expression argument (.identifier name) (result.map .number)) 0 1
  | unary {argument : Option Float} {op : UnaryOperator} {e : Expr} {v : Value}
      {entries nesting : Nat}
      (h : Derivable s (.expression argument e (.ok v)) entries nesting) :
      Derivable s
        (.expression argument (.unary op e) (.ok (.number (op.apply v.toFloat))))
        entries (nesting + 1)
  | unaryError {argument : Option Float} {op : UnaryOperator} {e : Expr} {err : EvalError}
      {entries nesting : Nat}
      (h : Derivable s (.expression argument e (.error err)) entries nesting) :
      Derivable s (.expression argument (.unary op e) (.error err)) entries (nesting + 1)
  | binary {argument : Option Float} {op : BinaryOperator} {left right : Expr}
      {a b : Value} {entries entries' nesting nesting' : Nat}
      (hleft : Derivable s (.expression argument left (.ok a)) entries nesting)
      (hright : Derivable s (.expression argument right (.ok b)) entries' nesting') :
      Derivable s
        (.expression argument (.binary op left right)
          ((op.apply a.toFloat b.toFloat).map .number))
        (max entries entries') (max nesting nesting' + 1)
  | binaryLeftError {argument : Option Float} {op : BinaryOperator} {left right : Expr}
      {err : EvalError} {entries nesting : Nat}
      (hleft : Derivable s (.expression argument left (.error err)) entries nesting) :
      Derivable s (.expression argument (.binary op left right) (.error err))
        entries (nesting + 1)
  | binaryRightError {argument : Option Float} {op : BinaryOperator} {left right : Expr}
      {a : Value} {err : EvalError} {entries entries' nesting nesting' : Nat}
      (hleft : Derivable s (.expression argument left (.ok a)) entries nesting)
      (hright : Derivable s (.expression argument right (.error err)) entries' nesting') :
      Derivable s (.expression argument (.binary op left right) (.error err))
        (max entries entries') (max nesting nesting' + 1)
  | call {argument : Option Float} {name : String} {es : List Expr} {inputs : List Float}
      {result : Except EvalError Value} {entries entries' nesting nesting' : Nat}
      (harguments : Derivable s (.arguments argument es (.ok inputs)) entries nesting)
      (hcall : Derivable s (.call name inputs result) entries' nesting') :
      Derivable s (.expression argument (.call name es) result)
        (max entries entries') (max nesting nesting' + 1)
  | callError {argument : Option Float} {name : String} {es : List Expr} {err : EvalError}
      {entries nesting : Nat}
      (harguments : Derivable s (.arguments argument es (.error err)) entries nesting) :
      Derivable s (.expression argument (.call name es) (.error err)) entries (nesting + 1)
  | noArguments (argument : Option Float) :
      Derivable s (.arguments argument [] (.ok [])) 0 0
  | moreArguments {argument : Option Float} {e : Expr} {es : List Expr} {v : Value}
      {inputs : List Float} {entries entries' nesting nesting' : Nat}
      (hfirst : Derivable s (.expression argument e (.ok v)) entries nesting)
      (hrest : Derivable s (.arguments argument es (.ok inputs)) entries' nesting') :
      Derivable s (.arguments argument (e :: es) (.ok (v.toFloat :: inputs)))
        (max entries entries') (max nesting nesting')
  | firstArgumentError {argument : Option Float} {e : Expr} {es : List Expr}
      {err : EvalError} {entries nesting : Nat}
      (hfirst : Derivable s (.expression argument e (.error err)) entries nesting) :
      Derivable s (.arguments argument (e :: es) (.error err)) entries nesting
  | moreArgumentsError {argument : Option Float} {e : Expr} {es : List Expr} {v : Value}
      {err : EvalError} {entries entries' nesting nesting' : Nat}
      (hfirst : Derivable s (.expression argument e (.ok v)) entries nesting)
      (hrest : Derivable s (.arguments argument es (.error err)) entries' nesting') :
      Derivable s (.arguments argument (e :: es) (.error err))
        (max entries entries') (max nesting nesting')
  | builtinCall {name : String} {inputs : List Float} {b : Builtin}
      (h : Builtin.find? name = some b) :
      Derivable s (.call name inputs (b.call name inputs)) 0 0
  | userCall {name : String} {d : Definition} {input : Float}
      {result : Except EvalError Value} {entries nesting : Nat}
      (hbuiltin : Builtin.find? name = none) (h : s.find? name = some (.function d))
      (hentry : Derivable s (.entry d input result) entries nesting) :
      Derivable s (.call name [input] result) entries nesting
  | wrongArity {name : String} {d : Definition} {inputs : List Float}
      (hbuiltin : Builtin.find? name = none) (h : s.find? name = some (.function d))
      (hlength : inputs.length ≠ 1) :
      Derivable s (.call name inputs (.error (.wrongArity name 1 1 inputs.length))) 0 0
  | variableCall {name : String} {inputs : List Float} {v : Float}
      (hbuiltin : Builtin.find? name = none) (h : s.find? name = some (.variable v)) :
      Derivable s (.call name inputs (.error (.notCallable name))) 0 0
  | answerCall {inputs : List Float} (hbuiltin : Builtin.find? lastAnswerName = none)
      (h : s.find? lastAnswerName = none) :
      Derivable s (.call lastAnswerName inputs (.error (.notCallable lastAnswerName))) 0 0
  | undefinedCall {name : String} {inputs : List Float}
      (hbuiltin : Builtin.find? name = none) (h : s.find? name = none)
      (hanswer : name ≠ lastAnswerName) :
      Derivable s (.call name inputs (.error (.undefined name))) 0 0
  | body {d : Definition} {input : Float} {b : Expr} {result : Except EvalError Value}
      {entries nesting : Nat} (hparse : Expr.parse d.source = .ok b)
      (h : Derivable s (.expression (some input) b result) entries nesting) :
      Derivable s (.entry d input result) (entries + 1) nesting
  | brokenBody {d : Definition} {input : Float} {err : EvalError}
      (hparse : Expr.parse d.source = .error err) :
      Derivable s (.entry d input (.error err)) 1 0

/-- A result that some derivation gives an expression outside every function. -/
def Evaluates (s : Symbols) (e : Expr) (result : Except EvalError Value) : Prop :=
  ∃ entries nesting, Derivable s (.expression none e result) entries nesting

/-- A result that some derivation gives a function with its argument. -/
def Applies (s : Symbols) (d : Definition) (input : Float)
    (result : Except EvalError Value) : Prop :=
  ∃ entries nesting, Derivable s (.entry d input result) entries nesting

end Evaluation
end Calculator
