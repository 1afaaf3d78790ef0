import Calculator.Proofs.Evaluation.Completeness

/-!
# One more level

The limit on nested expressions does nothing but turn results into the error that it was
exceeded.  One more level therefore keeps every other result, be it a value or an error.
This includes the error that too many functions were entered, because a body has the
same number of entries left at every level.
-/

namespace Calculator
namespace Evaluation

open Support

/-! ## Results that are kept -/

section

variable {α β : Type}

/-- The second result is the first, unless the first is that expressions nest too
deeply. -/
def Keeps (x y : Except EvalError α) : Prop :=
  x ≠ .error .tooDeep → y = x

theorem Keeps.refl (x : Except EvalError α) : Keeps x x :=
  fun _ => rfl

/-- What is kept by each of two computations is kept by their sequence. -/
theorem Keeps.bind {x y : Except EvalError α} {f g : α → Except EvalError β}
    (hx : Keeps x y) (hf : ∀ a, Keeps (f a) (g a)) : Keeps (x >>= f) (y >>= g) := by
  intro h
  have hne : x ≠ .error .tooDeep := by
    rintro rfl
    exact h rfl
  rw [hx hne]
  cases x with
  | error err => rfl
  | ok a => exact hf a h

end

/-! ## Expressions -/

variable [Elementary] {s : Symbols} {levels : Nat}

/-- One level more keeps the results of all expressions. -/
def KeepsResults (s : Symbols) (levels : Nat) : Prop :=
  ∀ (argument : Option Float) (calls : Nat) (e : Expr),
    Keeps (Scope.evaluate levels ⟨s, argument, calls⟩ e)
      (Scope.evaluate (levels + 1) ⟨s, argument, calls⟩ e)

theorem KeepsResults.arguments (hlevels : KeepsResults s levels) (argument : Option Float)
    (calls : Nat) (es : List Expr) :
    Keeps (evaluateAll levels ⟨s, argument, calls⟩ es)
      (evaluateAll (levels + 1) ⟨s, argument, calls⟩ es) := by
  induction es with
  | nil => exact Keeps.refl _
  | cons e es ih =>
      rw [evaluateAll_cons, evaluateAll_cons]
      exact (hlevels argument calls e).bind fun _ => ih.bind fun _ => Keeps.refl _

/-- The body of an entered function is evaluated at the level of the call. -/
theorem KeepsResults.enter (hlevels : KeepsResults s levels) (argument : Option Float)
    (calls : Nat) (name : String) (d : Definition) (input : Float) :
    Keeps (Scope.enter (Scope.evaluate levels) ⟨s, argument, calls⟩ name d input)
      (Scope.enter (Scope.evaluate (levels + 1)) ⟨s, argument, calls⟩ name d input) := by
  cases calls with
  | zero => exact Keeps.refl _
  | succ calls =>
      rw [enter_succ, enter_succ]
      exact (Keeps.refl _).bind fun b => hlevels (some input) calls b

theorem KeepsResults.call (hlevels : KeepsResults s levels) (argument : Option Float)
    (calls : Nat) (name : String) (inputs : List Float) :
    Keeps (Scope.call (Scope.evaluate levels) ⟨s, argument, calls⟩ name inputs)
      (Scope.call (Scope.evaluate (levels + 1)) ⟨s, argument, calls⟩ name inputs) := by
  rw [Scope.call, Scope.call]
  cases Builtin.find? name with
  | some b => exact Keeps.refl _
  | none =>
      rcases s.find? name with _ | v | d
      · exact Keeps.refl _
      · exact Keeps.refl _
      · rcases inputs with _ | ⟨input, _ | ⟨next, rest⟩⟩
        · exact Keeps.refl _
        · exact hlevels.enter argument calls name d input
        · exact Keeps.refl _

theorem KeepsResults.succ (hlevels : KeepsResults s levels) : KeepsResults s (levels + 1) := by
  intro argument calls e
  cases e with
  | number v => exact Keeps.refl _
  | identifier name => exact Keeps.refl _
  | unary op operand =>
      rw [Scope.evaluate, Scope.evaluate]
      exact (hlevels argument calls operand).bind fun _ => Keeps.refl _
  | binary op left right =>
      rw [Scope.evaluate, Scope.evaluate]
      exact (hlevels argument calls left).bind fun _ =>
        (hlevels argument calls right).bind fun _ => Keeps.refl _
  | call name es =>
      rw [evaluate_call, evaluate_call]
      exact (hlevels.arguments argument calls es).bind fun inputs =>
        hlevels.call argument calls name inputs

theorem keepsResults (s : Symbols) (levels : Nat) : KeepsResults s levels := by
  induction levels with
  | zero =>
      intro argument calls e h
      -- Without any level every expression nests too deeply.
      exact absurd rfl h
  | succ levels ih => exact ih.succ

/-! ## Calls from outside -/

/-- A function that is called from an expression with a number has one level less for
its body than a function that is applied to it. -/
theorem keeps_apply {name : String} {d : Definition} (hbuiltin : Builtin.find? name = none)
    (hfind : s.find? name = some (.function d)) (v : Float) :
    Keeps (s.evaluate (.call name [.number v])) (s.apply name d v) := by
  obtain ⟨levels, hlevels⟩ : ∃ levels, maxNesting = levels + 2 := ⟨1998, rfl⟩
  have hcall : s.evaluate (.call name [.number v]) =
      Scope.enter (Scope.evaluate (levels + 1)) s.outerScope name d v := by
    rw [Symbols.evaluate, hlevels, evaluate_call, evaluateAll_cons, Scope.evaluate, ok_bind]
    change Scope.call (Scope.evaluate (levels + 1)) s.outerScope name [v] = _
    rw [Scope.call, hbuiltin]
    dsimp only
    rw [show s.outerScope.symbols.find? name = some (.function d) from hfind]
  rw [hcall, Symbols.apply, hlevels]
  exact (keepsResults s (levels + 1)).enter none maxCallDepth name d v

end Evaluation
end Calculator
