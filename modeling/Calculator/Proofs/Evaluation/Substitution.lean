import Calculator.Proofs.Evaluation.Completeness

/-!
# Calling is substitution

Inside a function `x` is bound to a number, and this is the only binding there is.
An expression is therefore evaluated under it as the expression with the number in
place of `x` is outside of every function, under the same limits.  The body of a
called function is not in the expression, so the substitution does not reach it; nor
does the binding, since a body is entered with a binding of its own.
-/

namespace Calculator
namespace Expr

mutual

/-- The number in place of every bare identifier of the name; the names of called
functions are kept. -/
def substitute (name : String) (v : Float) : Expr → Expr
  | number w => number w
  | identifier other => if other == name then number v else identifier other
  | unary op operand => unary op (substitute name v operand)
  | binary op left right => binary op (substitute name v left) (substitute name v right)
  | call called arguments => call called (substituteAll name v arguments)

/-- The number in place of the name in each of the expressions. -/
def substituteAll (name : String) (v : Float) : List Expr → List Expr
  | [] => []
  | argument :: rest => substitute name v argument :: substituteAll name v rest

end

example :
    (call "x" [binary .addition (identifier "x") (identifier "y")]).substitute "x" 3 =
      call "x" [binary .addition (number 3) (identifier "y")] := by rfl

end Expr

namespace Evaluation

open Support

variable [Elementary] {s : Symbols} {levels calls : Nat}

/-! ## Names and calls -/

/-- Names other than `x` are resolved alike inside and outside of a function. -/
theorem resolve_argument_of_ne (v : Float) {name : String} (hname : name ≠ freeVariable) :
    Scope.resolve ⟨s, some v, calls⟩ name = Scope.resolve ⟨s, none, calls⟩ name := by
  have hbound : ∀ argument, ¬ IsArgument argument name := fun _ h => hname h.2
  rw [resolve_of_not_isArgument (hbound _), resolve_of_not_isArgument (hbound _)]

/-- A name is called without regard to the binding at its call. -/
theorem call_argument (argument : Option Float) (name : String) :
    Scope.call (Scope.evaluate levels) ⟨s, argument, calls⟩ name =
      Scope.call (Scope.evaluate levels) ⟨s, none, calls⟩ name := rfl

/-! ## Evaluation under a binding -/

/-- Under a limit on nested expressions, a number in place of `x` makes the same
difference as a binding of `x` to it. -/
def SubstitutesArgument (s : Symbols) (levels : Nat) : Prop :=
  ∀ (calls : Nat) (v : Float) (e : Expr),
    Scope.evaluate levels ⟨s, some v, calls⟩ e =
      Scope.evaluate levels ⟨s, none, calls⟩ (e.substitute freeVariable v)

theorem SubstitutesArgument.arguments (hlevels : SubstitutesArgument s levels)
    (calls : Nat) (v : Float) (es : List Expr) :
    evaluateAll levels ⟨s, some v, calls⟩ es =
      evaluateAll levels ⟨s, none, calls⟩ (Expr.substituteAll freeVariable v es) := by
  induction es with
  | nil => rfl
  | cons e es ih =>
      rw [Expr.substituteAll, evaluateAll_cons, evaluateAll_cons, hlevels calls v e, ih]

theorem SubstitutesArgument.succ (hlevels : SubstitutesArgument s levels) :
    SubstitutesArgument s (levels + 1) := by
  intro calls v e
  cases e with
  | number w => rfl
  | identifier name =>
      by_cases hname : name = freeVariable
      · subst hname
        rfl
      · have hkept : (Expr.identifier name).substitute freeVariable v = .identifier name := by
          rw [Expr.substitute, if_neg (by simpa using hname)]
        rw [hkept, Scope.evaluate, Scope.evaluate, resolve_argument_of_ne v hname]
  | unary op operand =>
      rw [Expr.substitute, Scope.evaluate, Scope.evaluate, hlevels calls v operand]
  | binary op left right =>
      rw [Expr.substitute, Scope.evaluate, Scope.evaluate, hlevels calls v left,
        hlevels calls v right]
  | call name es =>
      rw [Expr.substitute, evaluate_call, evaluate_call, hlevels.arguments calls v es,
        call_argument (some v)]

/-- The induction is on the limit alone: it bounds the parts of an expression and
the bodies that it enters alike. -/
theorem substitutesArgument (s : Symbols) (levels : Nat) : SubstitutesArgument s levels := by
  induction levels with
  | zero =>
      intro calls v e
      rfl
  | succ levels ih => exact ih.succ

/-! ## Calls of functions -/

/-- A function is entered by evaluating its body with the number in place of `x`. -/
theorem enter_eq_substitute (argument : Option Float) (name : String) (d : Definition)
    (input : Float) :
    Scope.enter (Scope.evaluate levels) ⟨s, argument, calls + 1⟩ name d input =
      Expr.parse d.source >>= fun b =>
        Scope.evaluate levels ⟨s, none, calls⟩ (b.substitute freeVariable input) := by
  rw [enter_succ]
  congr 1
  funext b
  exact substitutesArgument s levels calls input b

/-- A call of a stored function is the evaluation of its argument, followed by that
of its body with the value in place of `x`. -/
theorem evaluate_call_eq_substitute (argument : Option Float) {name : String}
    {d : Definition} (e : Expr) (hbuiltin : Builtin.find? name = none)
    (hfind : s.find? name = some (.function d)) :
    Scope.evaluate (levels + 1) ⟨s, argument, calls + 1⟩ (.call name [e]) =
      Scope.evaluate levels ⟨s, argument, calls + 1⟩ e >>= fun input =>
        Expr.parse d.source >>= fun b =>
          Scope.evaluate levels ⟨s, none, calls⟩
            (b.substitute freeVariable input.toFloat) := by
  rw [evaluate_call, evaluateAll_cons]
  cases Scope.evaluate levels ⟨s, argument, calls + 1⟩ e with
  | error err => rfl
  | ok input =>
      have hcall :
          Scope.call (Scope.evaluate levels) ⟨s, argument, calls + 1⟩ name [input.toFloat] =
            Scope.enter (Scope.evaluate levels) ⟨s, argument, calls + 1⟩ name d
              input.toFloat := by
        rw [Scope.call, hbuiltin, hfind]
      exact hcall.trans (enter_eq_substitute argument name d input.toFloat)

/-- Calling is substitution.  To bind `x` is to replace it, at every limit and with
every error.  The arguments of a call are evaluated under the caller's binding and
the call itself without it.  A call of a stored function evaluates the body with the
argument's value in place of `x`, outside of every function and with one entry less,
be the call inside a function or outside. -/
theorem calling_is_substitution (s : Symbols) (calls levels : Nat) :
    (∀ v e,
      Scope.evaluate levels ⟨s, some v, calls⟩ e =
        Scope.evaluate levels ⟨s, none, calls⟩ (e.substitute freeVariable v)) ∧
    (∀ argument name es,
      Scope.evaluate (levels + 1) ⟨s, argument, calls⟩ (.call name es) =
        evaluateAll levels ⟨s, argument, calls⟩ es >>=
          Scope.call (Scope.evaluate levels) ⟨s, none, calls⟩ name) ∧
    ∀ argument name d e, Builtin.find? name = none → s.find? name = some (.function d) →
      Scope.evaluate (levels + 1) ⟨s, argument, calls + 1⟩ (.call name [e]) =
        Scope.evaluate levels ⟨s, argument, calls + 1⟩ e >>= fun input =>
          Expr.parse d.source >>= fun b =>
            Scope.evaluate levels ⟨s, none, calls⟩
              (b.substitute freeVariable input.toFloat) := by
  refine ⟨substitutesArgument s levels calls, ?_, ?_⟩
  · intro argument name es
    rw [evaluate_call, call_argument argument]
  · intro argument name d e hbuiltin hfind
    exact evaluate_call_eq_substitute argument e hbuiltin hfind

omit [Elementary] in
/-- Each of two functions called inside one another, in a scope with an argument of
its own, evaluates its body with its own `x`. -/
theorem evaluate_nested_calls :
    ∃ s, s.functionOf? "f" = some (.ofSource "-x") ∧
      s.functionOf? "g" = some (.ofSource "-x") ∧
        @Scope.evaluate .machine 4 ⟨s, some 2, 2⟩
            (.call "f" [.call "g" [.identifier "x"]]) =
          .ok (.number (UnaryOperator.negative.apply (UnaryOperator.negative.apply 2))) := by
  let elementary := Elementary.machine
  let s := (({} : Symbols).define "f" (.ofSource "-x")).define "g" (.ofSource "-x")
  have hscan : Token.scan "-x".toList = ⟨[.operator .minus, .identifier "x"], none⟩ :=
    Token.scan_of_first? (by decide) (by decide) rfl <|
      Token.scan_of_first? (by decide) (by decide) rfl Token.scan_nil
  have hparse : Expr.parse (Definition.ofSource "-x").source =
      .ok (.unary .negative (.identifier "x")) := by
    rw [Expr.parse, show (Definition.ofSource "-x").source.toList = "-x".toList from rfl, hscan]
    rfl
  have hinner : Scope.evaluate 3 ⟨s, some 2, 2⟩ (.call "g" [.identifier "x"]) =
      .ok (.number (UnaryOperator.negative.apply 2)) := by
    rw [(calling_is_substitution s 1 2).2.2 (some 2) "g" (.ofSource "-x") _ rfl rfl, hparse]
    rfl
  have houter : Scope.evaluate 4 ⟨s, some 2, 2⟩ (.call "f" [.call "g" [.identifier "x"]]) =
      .ok (.number (UnaryOperator.negative.apply (UnaryOperator.negative.apply 2))) := by
    rw [(calling_is_substitution s 1 3).2.2 (some 2) "f" (.ofSource "-x") _ rfl rfl, hinner,
      hparse]
    rfl
  exact ⟨s, rfl, rfl, houter⟩

end Evaluation
end Calculator
