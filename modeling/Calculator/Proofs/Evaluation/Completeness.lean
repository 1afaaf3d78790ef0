import Calculator.Proofs.Evaluation.Rules
import Calculator.Proofs.Support.Computation

/-!
# Derivations are computed

The evaluator gives an expression the result of its derivation, as soon as both
limits leave room for the nesting in the derivation.  Two derivations can always
be compared under limits that are wide enough for both, so the rules give one
result at most.
-/

namespace Calculator
namespace Evaluation

open Support

variable [Elementary] {s : Symbols}

/-! ## Names -/

theorem resolve_of_not_isArgument {argument : Option Float} {calls : Nat} {name : String}
    (hfree : ¬ IsArgument argument name) :
    Scope.resolve ⟨s, argument, calls⟩ name =
      match Builtin.find? name with
      | some (.constant v) => .ok v
      | some _ => .error (.notAValue name)
      | none =>
        match s.find? name with
        | some (.variable v) => .ok v
        | entry =>
          if name == lastAnswerName then .ok s.lastAnswer
          else if entry.isSome then .error (.notAValue name)
          else .error (.undefined name) := by
  unfold Scope.resolve
  split
  · rename_i v hargument hname
    exact absurd ⟨by simp_all, by simpa using hname⟩ hfree
  · rfl

theorem Resolves.resolve_eq {argument : Option Float} {name : String}
    {result : Except EvalError Float} (h : Resolves s argument name result) (calls : Nat) :
    Scope.resolve ⟨s, argument, calls⟩ name = result := by
  cases h with
  | bound h =>
      cases h
      rfl
  | constant hfree h => rw [resolve_of_not_isArgument hfree, h]
  | builtinFunction hfree h hfunction =>
      rename_i b
      rw [resolve_of_not_isArgument hfree, h]
      cases b with
      | constant v => exact absurd rfl (hfunction v)
      | _ => rfl
  | userVariable hfree hbuiltin h => rw [resolve_of_not_isArgument hfree, hbuiltin, h]
  | lastAnswer hfree hbuiltin h =>
      rw [resolve_of_not_isArgument hfree, hbuiltin]
      dsimp only
      split
      · rename_i v hentry
        exact absurd hentry (h v)
      · rfl
  | userFunction hfree hbuiltin hanswer h =>
      rw [resolve_of_not_isArgument hfree, hbuiltin, h]
      simp [hanswer]
  | undefined hfree hbuiltin hanswer h =>
      rw [resolve_of_not_isArgument hfree, hbuiltin, h]
      simp [hanswer]

/-! ## Argument lists and calls -/

/-- The evaluator on a list of arguments. -/
def evaluateAll (levels : Nat) (scope : Scope) (es : List Expr) :
    Except EvalError (List Float) :=
  es.mapM fun e => (scope.evaluate levels e).map Value.toFloat

theorem evaluateAll_cons (levels : Nat) (scope : Scope) (e : Expr) (es : List Expr) :
    evaluateAll levels scope (e :: es) =
      (do
        let v ← scope.evaluate levels e
        let inputs ← evaluateAll levels scope es
        .ok (v.toFloat :: inputs)) := by
  rw [evaluateAll, List.mapM_cons]
  cases scope.evaluate levels e with
  | error err => rfl
  | ok v => rfl

theorem evaluate_call (levels : Nat) (scope : Scope) (name : String) (es : List Expr) :
    scope.evaluate (levels + 1) (.call name es) =
      evaluateAll levels scope es >>= Scope.call (Scope.evaluate levels) scope name := by
  rw [Scope.evaluate, evaluateAll]

theorem enter_succ (s : Symbols) (argument : Option Float) (calls levels : Nat)
    (name : String) (d : Definition) (input : Float) :
    Scope.enter (Scope.evaluate levels) ⟨s, argument, calls + 1⟩ name d input =
      Expr.parse d.source >>= Scope.evaluate levels ⟨s, some input, calls⟩ := by
  rw [← d.body_eq]
  rfl

/-! ## Derivations are computed -/

/-- What a judgement says of the evaluator under the given limits. -/
def Judgement.IsComputed (s : Symbols) (calls levels : Nat) : Judgement → Prop
  | .expression argument e result =>
    Scope.evaluate levels ⟨s, argument, calls⟩ e = result
  | .arguments argument es result => evaluateAll levels ⟨s, argument, calls⟩ es = result
  | .call name inputs result =>
    ∀ argument, Scope.call (Scope.evaluate levels) ⟨s, argument, calls⟩ name inputs = result
  | .entry d input result =>
    ∀ argument name,
      Scope.enter (Scope.evaluate levels) ⟨s, argument, calls⟩ name d input = result

/-- A derivation within the limits is computed. -/
theorem Derivable.isComputed {j : Judgement} {entries nesting : Nat}
    (h : Derivable s j entries nesting) {calls levels : Nat}
    (hcalls : entries ≤ calls) (hlevels : nesting ≤ levels) :
    j.IsComputed s calls levels := by
  induction h generalizing calls levels with
  | number argument v =>
      obtain ⟨levels, rfl⟩ := Nat.exists_eq_add_one_of_ne_zero (by omega : levels ≠ 0)
      rfl
  | @identifier argument name result h =>
      obtain ⟨levels, rfl⟩ := Nat.exists_eq_add_one_of_ne_zero (by omega : levels ≠ 0)
      rw [Judgement.IsComputed, Scope.evaluate, h.resolve_eq calls]
  | @unary argument op e v _ _ _ ih =>
      obtain ⟨levels, rfl⟩ := Nat.exists_eq_add_one_of_ne_zero (by omega : levels ≠ 0)
      have he : Scope.evaluate levels ⟨s, argument, calls⟩ e = .ok v := ih hcalls (by omega)
      rw [Judgement.IsComputed, Scope.evaluate, he, ok_bind]
  | @unaryError argument op e err _ _ _ ih =>
      obtain ⟨levels, rfl⟩ := Nat.exists_eq_add_one_of_ne_zero (by omega : levels ≠ 0)
      have he : Scope.evaluate levels ⟨s, argument, calls⟩ e = .error err :=
        ih hcalls (by omega)
      rw [Judgement.IsComputed, Scope.evaluate, he, error_bind]
  | @binary argument op left right a b _ _ _ _ _ _ ihleft ihright =>
      obtain ⟨levels, rfl⟩ := Nat.exists_eq_add_one_of_ne_zero (by omega : levels ≠ 0)
      have hleft : Scope.evaluate levels ⟨s, argument, calls⟩ left = .ok a :=
        ihleft (by omega) (by omega)
      have hright : Scope.evaluate levels ⟨s, argument, calls⟩ right = .ok b :=
        ihright (by omega) (by omega)
      rw [Judgement.IsComputed, Scope.evaluate, hleft, ok_bind, hright, ok_bind]
  | @binaryLeftError argument op left right err _ _ _ ih =>
      obtain ⟨levels, rfl⟩ := Nat.exists_eq_add_one_of_ne_zero (by omega : levels ≠ 0)
      have hleft : Scope.evaluate levels ⟨s, argument, calls⟩ left = .error err :=
        ih hcalls (by omega)
      rw [Judgement.IsComputed, Scope.evaluate, hleft, error_bind]
  | @binaryRightError argument op left right a err _ _ _ _ _ _ ihleft ihright =>
      obtain ⟨levels, rfl⟩ := Nat.exists_eq_add_one_of_ne_zero (by omega : levels ≠ 0)
      have hleft : Scope.evaluate levels ⟨s, argument, calls⟩ left = .ok a :=
        ihleft (by omega) (by omega)
      have hright : Scope.evaluate levels ⟨s, argument, calls⟩ right = .error err :=
        ihright (by omega) (by omega)
      rw [Judgement.IsComputed, Scope.evaluate, hleft, ok_bind, hright, error_bind]
  | @call argument name es inputs result _ _ _ _ _ _ iharguments ihcall =>
      obtain ⟨levels, rfl⟩ := Nat.exists_eq_add_one_of_ne_zero (by omega : levels ≠ 0)
      have harguments : evaluateAll levels ⟨s, argument, calls⟩ es = .ok inputs :=
        iharguments (by omega) (by omega)
      -- The call is one level down, as its arguments are, but has every entry left.
      have hcall : Judgement.IsComputed s calls levels (.call name inputs result) :=
        ihcall (by omega) (by omega)
      rw [Judgement.IsComputed, evaluate_call, harguments, ok_bind]
      exact hcall argument
  | @callError argument name es err _ _ _ ih =>
      obtain ⟨levels, rfl⟩ := Nat.exists_eq_add_one_of_ne_zero (by omega : levels ≠ 0)
      have harguments : evaluateAll levels ⟨s, argument, calls⟩ es = .error err :=
        ih hcalls (by omega)
      rw [Judgement.IsComputed, evaluate_call, harguments, error_bind]
  | noArguments argument => rfl
  | @moreArguments argument e es v inputs _ _ _ _ _ _ ihfirst ihrest =>
      have hfirst : Scope.evaluate levels ⟨s, argument, calls⟩ e = .ok v :=
        ihfirst (by omega) (by omega)
      have hrest : evaluateAll levels ⟨s, argument, calls⟩ es = .ok inputs :=
        ihrest (by omega) (by omega)
      rw [Judgement.IsComputed, evaluateAll_cons, hfirst, ok_bind, hrest, ok_bind]
  | @firstArgumentError argument e es err _ _ _ ih =>
      have hfirst : Scope.evaluate levels ⟨s, argument, calls⟩ e = .error err :=
        ih hcalls hlevels
      rw [Judgement.IsComputed, evaluateAll_cons, hfirst, error_bind]
  | @moreArgumentsError argument e es v err _ _ _ _ _ _ ihfirst ihrest =>
      have hfirst : Scope.evaluate levels ⟨s, argument, calls⟩ e = .ok v :=
        ihfirst (by omega) (by omega)
      have hrest : evaluateAll levels ⟨s, argument, calls⟩ es = .error err :=
        ihrest (by omega) (by omega)
      rw [Judgement.IsComputed, evaluateAll_cons, hfirst, ok_bind, hrest, error_bind]
  | builtinCall h =>
      intro argument
      rw [Scope.call, h]
  | userCall hbuiltin h _ ih =>
      intro argument
      rw [Scope.call, hbuiltin, h]
      exact ih hcalls hlevels argument _
  | @wrongArity name d inputs hbuiltin h hlength =>
      intro argument
      rw [Scope.call, hbuiltin, h]
      dsimp only
      split
      · exact absurd rfl hlength
      · rfl
  | variableCall hbuiltin h =>
      intro argument
      rw [Scope.call, hbuiltin, h]
      rfl
  | answerCall hbuiltin h =>
      intro argument
      rw [Scope.call, hbuiltin, h]
      rfl
  | undefinedCall hbuiltin h hanswer =>
      intro argument
      rw [Scope.call, hbuiltin, h]
      simp [hanswer]
  | @body d input b result _ _ hparse _ ih =>
      intro argument name
      obtain ⟨calls, rfl⟩ := Nat.exists_eq_add_one_of_ne_zero (by omega : calls ≠ 0)
      have hbody : Scope.evaluate levels ⟨s, some input, calls⟩ b = result :=
        ih (by omega) hlevels
      rw [enter_succ, hparse, ok_bind, hbody]
  | @brokenBody d input err hparse =>
      intro argument name
      obtain ⟨calls, rfl⟩ := Nat.exists_eq_add_one_of_ne_zero (by omega : calls ≠ 0)
      rw [enter_succ, hparse, error_bind]

/-! ## One result at most -/

/-- Any two judgements that are derived can be compared under common limits. -/
theorem Derivable.isComputed_both {j j' : Judgement} {entries entries' nesting nesting' : Nat}
    (h : Derivable s j entries nesting) (h' : Derivable s j' entries' nesting') :
    ∃ calls levels, j.IsComputed s calls levels ∧ j'.IsComputed s calls levels :=
  ⟨max entries entries', max nesting nesting', h.isComputed (by omega) (by omega),
    h'.isComputed (by omega) (by omega)⟩

theorem Derivable.result_unique {argument : Option Float} {e : Expr}
    {result result' : Except EvalError Value} {entries entries' nesting nesting' : Nat}
    (h : Derivable s (.expression argument e result) entries nesting)
    (h' : Derivable s (.expression argument e result') entries' nesting') :
    result' = result := by
  obtain ⟨calls, levels, hcomputed, hcomputed'⟩ := h.isComputed_both h'
  rw [Judgement.IsComputed] at hcomputed hcomputed'
  rw [← hcomputed, ← hcomputed']

theorem Derivable.output_unique {d : Definition} {input : Float}
    {result result' : Except EvalError Value} {entries entries' nesting nesting' : Nat}
    (h : Derivable s (.entry d input result) entries nesting)
    (h' : Derivable s (.entry d input result') entries' nesting') : result' = result := by
  obtain ⟨calls, levels, hcomputed, hcomputed'⟩ := h.isComputed_both h'
  rw [← hcomputed none freeVariable, ← hcomputed' none freeVariable]

end Evaluation
end Calculator
