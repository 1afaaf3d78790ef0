import Calculator.Proofs.Evaluation.Completeness

/-!
# What is computed is derivable

What the evaluator computes without running into a limit has a derivation, and
its nesting is within the limits.  The induction is on the limit on nested
expressions, for all limits on nested functions at once: a body is evaluated with
one function less but with the expressions that its call has left.
-/

namespace Calculator
namespace Evaluation

open Support

/-- The errors that only say that a limit was met. -/
def isLimit : EvalError → Bool
  | .recursionLimit _ => true
  | .tooDeep => true
  | _ => false

/-- Whether an evaluation was cut off. -/
def isCutOff {α : Type} : Except EvalError α → Bool
  | .error err => isLimit err
  | .ok _ => false

variable [Elementary] {s : Symbols}

theorem resolves_resolve (s : Symbols) (argument : Option Float) (calls : Nat)
    (name : String) :
    Resolves s argument name (Scope.resolve ⟨s, argument, calls⟩ name) := by
  by_cases hfree : IsArgument argument name
  · obtain ⟨hargument, rfl⟩ := hfree
    obtain ⟨v, rfl⟩ := Option.isSome_iff_exists.mp hargument
    exact .bound rfl
  · rw [resolve_of_not_isArgument hfree]
    cases hbuiltin : Builtin.find? name with
    | some b =>
        cases b with
        | constant v => exact .constant hfree hbuiltin
        | _ => exact .builtinFunction hfree hbuiltin (by simp)
    | none =>
        dsimp only
        split
        · rename_i v hentry
          exact .userVariable hfree hbuiltin hentry
        · rename_i hnone
          split
          · rename_i hanswer
            obtain rfl : name = lastAnswerName := by simpa using hanswer
            exact .lastAnswer hfree hbuiltin hnone
          · rename_i hanswer
            have hname : name ≠ lastAnswerName := by simpa using hanswer
            cases hentry : s.find? name with
            | none => exact .undefined hfree hbuiltin hname hentry
            | some entry =>
                rcases entry with v | d
                · exact absurd hentry (hnone v)
                · exact .userFunction hfree hbuiltin hname hentry

/-! ## Derivations within limits -/

/-- Derivability within limits on nested entries and nested expressions. -/
def DerivableWithin (s : Symbols) (calls levels : Nat) (j : Judgement) : Prop :=
  ∃ entries nesting, entries ≤ calls ∧ nesting ≤ levels ∧ Derivable s j entries nesting

/-- Every result under a limit on nested expressions is derivable, unless it was
cut off. -/
def IsJustified (s : Symbols) (levels : Nat) : Prop :=
  ∀ {argument : Option Float} {calls : Nat} {e : Expr} {result : Except EvalError Value},
    Scope.evaluate levels ⟨s, argument, calls⟩ e = result → isCutOff result = false →
      DerivableWithin s calls levels (.expression argument e result)

variable {levels calls : Nat} {argument : Option Float}

theorem IsJustified.arguments
    {es : List Expr} {result : Except EvalError (List Float)} (hlevels : IsJustified s levels)
    (h : evaluateAll levels ⟨s, argument, calls⟩ es = result)
    (hresult : isCutOff result = false) :
    DerivableWithin s calls levels (.arguments argument es result) := by
  induction es generalizing result with
  | nil =>
      obtain rfl : .ok [] = result := h
      exact ⟨0, 0, Nat.zero_le _, Nat.zero_le _, .noArguments argument⟩
  | cons e es ih =>
      rw [evaluateAll_cons] at h
      cases hfirst : Scope.evaluate levels ⟨s, argument, calls⟩ e with
      | error err =>
          rw [hfirst, error_bind] at h
          subst h
          obtain ⟨_, _, hn, hm, hderived⟩ := hlevels hfirst hresult
          exact ⟨_, _, hn, hm, .firstArgumentError hderived⟩
      | ok v =>
          obtain ⟨n, m, hn, hm, hderived⟩ := hlevels hfirst rfl
          rw [hfirst, ok_bind] at h
          cases hrest : evaluateAll levels ⟨s, argument, calls⟩ es with
          | error err =>
              rw [hrest, error_bind] at h
              subst h
              obtain ⟨n', m', hn', hm', hderived'⟩ := ih hrest hresult
              exact ⟨_, _, by omega, by omega, .moreArgumentsError hderived hderived'⟩
          | ok inputs =>
              rw [hrest, ok_bind] at h
              subst h
              obtain ⟨n', m', hn', hm', hderived'⟩ := ih hrest rfl
              exact ⟨_, _, by omega, by omega, .moreArguments hderived hderived'⟩

theorem IsJustified.entry
    {name : String} {d : Definition} {input : Float} {result : Except EvalError Value}
    (hlevels : IsJustified s levels)
    (h : Scope.enter (Scope.evaluate levels) ⟨s, argument, calls⟩ name d input = result)
    (hresult : isCutOff result = false) :
    DerivableWithin s calls levels (.entry d input result) := by
  cases calls with
  | zero =>
      -- No function may be entered, which is a limit.
      subst h
      cases hresult
  | succ calls =>
      rw [enter_succ] at h
      cases hparse : Expr.parse d.source with
      | error err =>
          rw [hparse, error_bind] at h
          subst h
          exact ⟨1, 0, by omega, Nat.zero_le _, .brokenBody hparse⟩
      | ok b =>
          rw [hparse, ok_bind] at h
          obtain ⟨n, m, hn, hm, hderived⟩ := hlevels h hresult
          exact ⟨n + 1, m, by omega, hm, .body hparse hderived⟩

theorem IsJustified.call
    {name : String} {inputs : List Float} {result : Except EvalError Value}
    (hlevels : IsJustified s levels)
    (h : Scope.call (Scope.evaluate levels) ⟨s, argument, calls⟩ name inputs = result)
    (hresult : isCutOff result = false) :
    DerivableWithin s calls levels (.call name inputs result) := by
  have hleaf : Derivable s (.call name inputs result) 0 0 →
      DerivableWithin s calls levels (.call name inputs result) :=
    fun hderived => ⟨0, 0, Nat.zero_le _, Nat.zero_le _, hderived⟩
  rw [Scope.call] at h
  cases hbuiltin : Builtin.find? name with
  | some b =>
      rw [hbuiltin] at h
      subst h
      exact hleaf (.builtinCall hbuiltin)
  | none =>
      rw [hbuiltin] at h
      dsimp only at h
      cases hentry : s.find? name with
      | none =>
          rw [hentry] at h
          by_cases hanswer : name = lastAnswerName
          · subst hanswer
            subst h
            exact hleaf (.answerCall hbuiltin hentry)
          · obtain rfl : .error (.undefined name) = result := by simpa [hanswer] using h
            exact hleaf (.undefinedCall hbuiltin hentry hanswer)
      | some entry =>
          rw [hentry] at h
          rcases entry with v | d
          · subst h
            exact hleaf (.variableCall hbuiltin hentry)
          · dsimp only at h
            split at h
            · rename_i input
              obtain ⟨n, m, hn, hm, hderived⟩ := hlevels.entry h hresult
              exact ⟨n, m, hn, hm, .userCall hbuiltin hentry hderived⟩
            · rename_i hinputs
              subst h
              refine hleaf (.wrongArity hbuiltin hentry ?_)
              intro hlength
              obtain ⟨input, rfl⟩ := List.length_eq_one_iff.mp hlength
              exact hinputs input rfl

theorem IsJustified.succ (hlevels : IsJustified s levels) : IsJustified s (levels + 1) := by
  intro argument calls e result h hresult
  cases e with
  | number v =>
      rw [Scope.evaluate] at h
      subst h
      exact ⟨0, 1, Nat.zero_le _, by omega, .number argument v⟩
  | identifier name =>
      rw [Scope.evaluate] at h
      subst h
      exact ⟨0, 1, Nat.zero_le _, by omega,
        .identifier (resolves_resolve s argument calls name)⟩
  | unary op e =>
      rw [Scope.evaluate] at h
      cases he : Scope.evaluate levels ⟨s, argument, calls⟩ e with
      | error err =>
          rw [he, error_bind] at h
          subst h
          obtain ⟨n, m, hn, hm, hderived⟩ := hlevels he hresult
          exact ⟨n, m + 1, hn, by omega, .unaryError hderived⟩
      | ok v =>
          rw [he, ok_bind] at h
          subst h
          obtain ⟨n, m, hn, hm, hderived⟩ := hlevels he rfl
          exact ⟨n, m + 1, hn, by omega, .unary hderived⟩
  | binary op left right =>
      rw [Scope.evaluate] at h
      cases hleft : Scope.evaluate levels ⟨s, argument, calls⟩ left with
      | error err =>
          rw [hleft, error_bind] at h
          subst h
          obtain ⟨n, m, hn, hm, hderived⟩ := hlevels hleft hresult
          exact ⟨n, m + 1, hn, by omega, .binaryLeftError hderived⟩
      | ok a =>
          obtain ⟨n, m, hn, hm, hderived⟩ := hlevels hleft rfl
          rw [hleft, ok_bind] at h
          cases hright : Scope.evaluate levels ⟨s, argument, calls⟩ right with
          | error err =>
              rw [hright, error_bind] at h
              subst h
              obtain ⟨n', m', hn', hm', hderived'⟩ := hlevels hright hresult
              exact ⟨_, _, by omega, by omega, .binaryRightError hderived hderived'⟩
          | ok b =>
              rw [hright, ok_bind] at h
              subst h
              obtain ⟨n', m', hn', hm', hderived'⟩ := hlevels hright rfl
              exact ⟨_, _, by omega, by omega, .binary hderived hderived'⟩
  | call name es =>
      rw [evaluate_call] at h
      cases harguments : evaluateAll levels ⟨s, argument, calls⟩ es with
      | error err =>
          rw [harguments, error_bind] at h
          subst h
          obtain ⟨n, m, hn, hm, hderived⟩ := hlevels.arguments harguments hresult
          exact ⟨n, m + 1, hn, by omega, .callError hderived⟩
      | ok inputs =>
          rw [harguments, ok_bind] at h
          obtain ⟨n, m, hn, hm, hderived⟩ := hlevels.arguments harguments rfl
          obtain ⟨n', m', hn', hm', hderived'⟩ := hlevels.call h hresult
          exact ⟨_, _, by omega, by omega, .call hderived hderived'⟩

theorem isJustified (s : Symbols) (levels : Nat) : IsJustified s levels := by
  induction levels with
  | zero =>
      intro argument calls e result h hresult
      rw [Scope.evaluate] at h
      subst h
      cases hresult
  | succ levels ih => exact ih.succ

end Evaluation
end Calculator
