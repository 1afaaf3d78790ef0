import Calculator.Proofs.Evaluation.CallGraph
import Calculator.Proofs.Grammar.Characterization

/-!
# Room below the limits

The limit on nested expressions is twice the greatest height of a parsed tree.  The
level of a call is counted in the height of its caller, and the body starts right
below it, so the limit is enough for an expression and the bodies of the functions
that it calls, wherever in the expression the calls stand.  In general every further
layer of functions takes one entry and the height of one parsed tree.
-/

namespace Calculator
namespace Evaluation

open Support Grammar

/-! ## Results that are not cut off -/

section

variable {α β : Type}

theorem isCutOff_map (f : α → β) (x : Except EvalError α) :
    isCutOff (x.map f) = isCutOff x := by
  cases x with
  | error err => rfl
  | ok a => rfl

theorem isCutOff_bind {x : Except EvalError α} {f : α → Except EvalError β}
    (hx : isCutOff x = false) (hf : ∀ a, isCutOff (f a) = false) :
    isCutOff (x >>= f) = false := by
  cases x with
  | error err => exact hx
  | ok a => exact hf a

theorem isCutOff_ite {p : Prop} [Decidable p] {x y : Except EvalError α}
    (hx : isCutOff x = false) (hy : isCutOff y = false) :
    isCutOff (if p then x else y) = false := by
  split
  · exact hx
  · exact hy

end

/-! ### Built-in functions -/

theorem isCutOff_checked (name : String) (v : Float) :
    isCutOff (Builtin.checked name v) = false :=
  isCutOff_ite rfl rfl

theorem isCutOff_integral (name : String) (v : Float) :
    isCutOff (Builtin.integral name v) = false := by
  rw [Builtin.integral]
  split
  · exact isCutOff_ite rfl rfl
  · rfl

theorem isCutOff_truncatedInRadix (name : String) (radix : Nat) (v : Float) :
    isCutOff (Builtin.truncatedInRadix name radix v) = false := by
  rw [Builtin.truncatedInRadix]
  split
  · exact isCutOff_ite rfl rfl
  · rfl

theorem isCutOff_factorial (v : Float) : isCutOff (Builtin.factorial v) = false :=
  isCutOff_bind (isCutOff_integral "fact" v) fun _ =>
    isCutOff_ite rfl (isCutOff_ite rfl rfl)

variable [Elementary]

theorem isCutOff_logarithm (name : String) (v : Float) (base : Option Float) :
    isCutOff (Builtin.logarithm name v base) = false := by
  refine isCutOff_ite rfl ?_
  cases base with
  | none => rfl
  | some b => exact isCutOff_ite rfl (isCutOff_ite rfl rfl)

/-- The actions of a built-in never run into a limit. -/
def ActsFreely : Builtin → Prop
  | .constant _ => True
  | .unary action => ∀ a, isCutOff (action a) = false
  | .binary action => ∀ a b, isCutOff (action a b) = false
  | .unaryOrBinary action => ∀ a b, isCutOff (action a b) = false

theorem actsFreely_of_find? {name : String} {b : Builtin} (h : Builtin.find? name = some b) :
    ActsFreely b := by
  unfold Builtin.find? at h
  split at h
  all_goals cases h
  -- A constant has no action, and most actions give a value at once; each of the
  -- others ends with one of the checks above.
  all_goals first
    | trivial
    | exact fun _ => rfl
    | exact fun _ => isCutOff_ite rfl rfl
    | exact isCutOff_logarithm _
    | exact fun _ _ => isCutOff_checked _ _
    | exact fun _ _ => isCutOff_ite rfl (isCutOff_checked _ _)
    | exact isCutOff_factorial
    | exact isCutOff_truncatedInRadix _ _
    | exact fun v => (isCutOff_map _ _).trans (isCutOff_integral _ v)

theorem isCutOff_builtin {name : String} {b : Builtin} (h : Builtin.find? name = some b)
    (inputs : List Float) : isCutOff (b.call name inputs) = false := by
  have hfree := actsFreely_of_find? h
  unfold Builtin.call
  split
  all_goals first
    | rfl
    | exact hfree _
    | exact hfree _ _

/-! ### Operators and names -/

theorem isCutOff_operator (op : BinaryOperator) (a b : Float) :
    isCutOff (op.apply a b) = false := by
  refine isCutOff_bind ?_ fun _ => isCutOff_ite rfl rfl
  cases op with
  | addition => rfl
  | subtraction => rfl
  | multiplication => rfl
  | division => exact isCutOff_ite rfl rfl
  | modulo => exact isCutOff_ite rfl rfl
  | exponentiation => exact isCutOff_ite rfl rfl

variable {s : Symbols} {argument : Option Float} {calls levels layers : Nat} {name : String}

theorem Resolves.isCutOff {result : Except EvalError Float}
    (h : Resolves s argument name result) : isCutOff result = false := by
  cases h with
  | _ => rfl

/-! ## Layers of functions -/

/-- No function of the table is called, or those that are have parsed bodies with
one layer less. -/
def CallsWithin (s : Symbols) : (layers : Nat) → Expr → Prop
  | 0, e => ∀ name, ¬ CallsStored s e name
  | layers + 1, e =>
    ∀ name d, CallsStored s e name → s.find? name = some (.function d) →
      ∃ b, Expr.parse d.source = .ok b ∧ CallsWithin s layers b

/-- What is called in a part is called in the whole. -/
theorem CallsWithin.of_whole {part whole : Expr} (h : CallsWithin s layers whole)
    (hcalls : ∀ name, part.Calls name → whole.Calls name) : CallsWithin s layers part := by
  have hstored : ∀ name, CallsStored s part name → CallsStored s whole name :=
    fun name hname => ⟨hcalls name hname.1, hname.2⟩
  cases layers with
  | zero => exact fun name hname => h name (hstored name hname)
  | succ layers => exact fun name d hname => h name d (hstored name hname)

/-- An expression without stored functions is within any number of layers. -/
theorem CallsWithin.of_zero {e : Expr} (h : CallsWithin s 0 e) (layers : Nat) :
    CallsWithin s layers e := by
  cases layers with
  | zero => exact h
  | succ layers => exact fun name d hname => absurd hname (h name)

/-! ## Room for a layer -/

/-- The limit leaves room for an expression and its layers of functions, if each of
them is given the height of a parsed tree and an entry. -/
def LeavesRoom (s : Symbols) (levels : Nat) : Prop :=
  ∀ (argument : Option Float) (calls layers : Nat) (e : Expr), CallsWithin s layers e →
    layers ≤ calls → e.height + layers * maxTreeHeight ≤ levels →
      isCutOff (Scope.evaluate levels ⟨s, argument, calls⟩ e) = false

theorem LeavesRoom.arguments {es : List Expr} (hlevels : LeavesRoom s levels)
    (argument : Option Float) (h : ∀ e ∈ es, CallsWithin s layers e) (hcalls : layers ≤ calls)
    (hroom : ∀ e ∈ es, e.height + layers * maxTreeHeight ≤ levels) :
    isCutOff (evaluateAll levels ⟨s, argument, calls⟩ es) = false := by
  induction es with
  | nil => rfl
  | cons e es ih =>
      have hfirst := hlevels argument calls layers e (h e List.mem_cons_self) hcalls
        (hroom e List.mem_cons_self)
      have hrest := ih (fun e he => h e (List.mem_cons_of_mem _ he))
        (fun e he => hroom e (List.mem_cons_of_mem _ he))
      rw [evaluateAll_cons]
      exact isCutOff_bind hfirst fun _ => isCutOff_bind hrest fun _ => rfl

/-- The body of an entered function is a parsed tree, with one entry less. -/
theorem LeavesRoom.enter {d : Definition} {b : Expr} (hlevels : LeavesRoom s levels)
    (argument : Option Float) (name : String) (input : Float)
    (hparse : Expr.parse d.source = .ok b) (h : CallsWithin s layers b) (hcalls : layers < calls)
    (hroom : (layers + 1) * maxTreeHeight ≤ levels) :
    isCutOff (Scope.enter (Scope.evaluate levels) ⟨s, argument, calls⟩ name d input) =
      false := by
  obtain ⟨calls, rfl⟩ := Nat.exists_eq_add_one_of_ne_zero (by omega : calls ≠ 0)
  have hheight : b.height ≤ maxTreeHeight := height_le_of_parse hparse
  have hbody : b.height + layers * maxTreeHeight ≤ levels := by
    rw [Nat.add_mul] at hroom
    omega
  rw [enter_succ, hparse, ok_bind]
  exact hlevels (some input) calls layers b h (Nat.le_of_lt_succ hcalls) hbody

theorem LeavesRoom.call {es : List Expr} {inputs : List Float} (hlevels : LeavesRoom s levels)
    (argument : Option Float) (h : CallsWithin s layers (.call name es))
    (hcalls : layers ≤ calls) (hroom : layers * maxTreeHeight ≤ levels) :
    isCutOff (Scope.call (Scope.evaluate levels) ⟨s, argument, calls⟩ name inputs) = false := by
  rw [Scope.call]
  cases hbuiltin : Builtin.find? name with
  | some b => exact isCutOff_builtin hbuiltin inputs
  | none =>
      rcases hfind : s.find? name with _ | v | d
      · exact isCutOff_ite rfl rfl
      · exact isCutOff_ite rfl rfl
      · have hstored : CallsStored s (.call name es) name := ⟨.here es, hbuiltin, d, hfind⟩
        rcases inputs with _ | ⟨input, _ | ⟨next, rest⟩⟩
        · rfl
        · cases layers with
          | zero => exact absurd hstored (h name)
          | succ layers =>
              obtain ⟨b, hparse, hbody⟩ := h name d hstored hfind
              exact hlevels.enter argument name input hparse hbody hcalls hroom
        · rfl

theorem LeavesRoom.succ (hlevels : LeavesRoom s levels) : LeavesRoom s (levels + 1) := by
  intro argument calls layers e h hcalls hroom
  cases e with
  | number v => rfl
  | identifier name =>
      rw [Scope.evaluate, isCutOff_map]
      exact (resolves_resolve s argument calls name).isCutOff
  | unary op operand =>
      rw [Expr.height] at hroom
      have hoperand := hlevels argument calls layers operand
        (h.of_whole fun _ => .operand) hcalls (by omega)
      exact isCutOff_bind hoperand fun _ => rfl
  | binary op left right =>
      rw [Expr.height] at hroom
      have hleft := hlevels argument calls layers left
        (h.of_whole fun _ => .left) hcalls (by omega)
      have hright := hlevels argument calls layers right
        (h.of_whole fun _ => .right) hcalls (by omega)
      refine isCutOff_bind hleft fun a => isCutOff_bind hright fun b => ?_
      rw [isCutOff_map]
      exact isCutOff_operator op a.toFloat b.toFloat
  | call name es =>
      -- The call has a level of its own, above its arguments and above the body alike.
      rw [Expr.height] at hroom
      have hheights : ∀ e ∈ es, e.height + layers * maxTreeHeight ≤ levels := by
        intro e he
        have hle := height_le_maxHeight he
        omega
      have harguments := hlevels.arguments argument
        (fun e he => h.of_whole fun _ => .argument he) hcalls hheights
      rw [evaluate_call]
      exact isCutOff_bind harguments fun inputs => hlevels.call argument h hcalls (by omega)

theorem leavesRoom (s : Symbols) (levels : Nat) : LeavesRoom s levels := by
  induction levels with
  | zero =>
      intro argument calls layers e h hcalls hroom
      -- Not even a leaf has height zero.
      cases e with
      | _ => simp [Expr.height] at hroom
  | succ levels ih => exact ih.succ

/-! ## Room for one layer of functions -/

/-- A parsed expression runs into no limit if the stored functions that it calls have
bodies that parse and call no stored function, in particular if it calls none itself.
Nor does a function that is applied to a number, if its own body is such an
expression. -/
theorem nesting_leaves_room (s : Symbols) :
    (∀ text e, Expr.parse text = .ok e →
      (∀ name d, CallsStored s e name → s.find? name = some (.function d) →
        ∃ b, Expr.parse d.source = .ok b ∧ ∀ callee, ¬ CallsStored s b callee) →
          isCutOff (s.evaluate e) = false) ∧
    (∀ text e, Expr.parse text = .ok e → (∀ name, ¬ CallsStored s e name) →
      isCutOff (s.evaluate e) = false) ∧
    ∀ name d b input, Expr.parse d.source = .ok b →
      (∀ callee d', CallsStored s b callee → s.find? callee = some (.function d') →
        ∃ b', Expr.parse d'.source = .ok b' ∧ ∀ further, ¬ CallsStored s b' further) →
          isCutOff (s.apply name d input) = false := by
  have hlayer : ∀ text e, Expr.parse text = .ok e → CallsWithin s 1 e →
      isCutOff (s.evaluate e) = false := by
    intro text e hparse h
    have hheight : e.height ≤ maxTreeHeight := height_le_of_parse hparse
    exact leavesRoom s maxNesting none maxCallDepth 1 e h (by decide)
      (by rw [maxNesting]; omega)
  refine ⟨hlayer, ?_, ?_⟩
  · intro text e hparse h
    exact hlayer text e hparse (CallsWithin.of_zero h 1)
  · intro name d b input hparse h
    exact (leavesRoom s maxNesting).enter none name input hparse
      (show CallsWithin s 1 b from h) (by decide) (Nat.le_refl _)

omit [Elementary] in
/-- The function `f` has room below an expression and below the body of `g`, and its
own body has room anyway. -/
theorem room_below_call :
    ∃ s e, s.functionOf? "f" = some (.ofSource "x") ∧
      s.functionOf? "g" = some (.ofSource "f(ans)") ∧ Expr.parse "f(ans)" = .ok e ∧
        @CallsStored .machine s e "f" ∧ isCutOff (@Symbols.evaluate .machine s e) = false ∧
        isCutOff (@Symbols.evaluate .machine s (.identifier "x")) = false ∧
          isCutOff (@Symbols.apply .machine s "g" (.ofSource "f(ans)") 3) = false := by
  let elementary := Elementary.machine
  let s := (({} : Symbols).define "f" (.ofSource "x")).define "g" (.ofSource "f(ans)")
  have hscan : Token.scan "x".toList = ⟨[.identifier "x"], none⟩ :=
    Token.scan_of_first? (by decide) (by decide) rfl Token.scan_nil
  have hinner : Expr.parse "x" = .ok (.identifier "x") := by
    rw [Expr.parse, hscan]
    rfl
  have hscan' : Token.scan "f(ans)".toList =
      ⟨[.identifier "f", .openParen, .identifier "ans", .closeParen], none⟩ :=
    Token.scan_of_first? (by decide) (by decide) rfl <|
      Token.scan_of_first? (by decide) (by decide) rfl <|
      Token.scan_of_first? (by decide) (by decide) rfl <|
      Token.scan_of_first? (by decide) (by decide) rfl Token.scan_nil
  have houter : Expr.parse "f(ans)" = .ok (.call "f" [.identifier "ans"]) := by
    rw [Expr.parse, hscan']
    rfl
  have hleaf : ∀ other name, ¬ CallsStored s (.identifier other) name := by
    rintro other name ⟨hcalls, -⟩
    cases hcalls
  have hlayer : ∀ name d, CallsStored s (.call "f" [.identifier "ans"]) name →
      s.find? name = some (.function d) →
        ∃ b, Expr.parse d.source = .ok b ∧ ∀ callee, ¬ CallsStored s b callee := by
    rintro name d ⟨hcalls, hstored⟩ hfind
    cases hcalls with
    | here =>
        cases hfind
        exact ⟨_, hinner, hleaf "x"⟩
    | argument hmem hcalls =>
        obtain rfl := List.mem_singleton.mp hmem
        cases hcalls
  have hstored : CallsStored s (.call "f" [.identifier "ans"]) "f" := ⟨.here _, rfl, _, rfl⟩
  obtain ⟨hevaluate, hplain, happly⟩ := nesting_leaves_room s
  exact ⟨s, _, rfl, rfl, houter, hstored, hevaluate _ _ houter hlayer,
    hplain _ _ hinner (hleaf "x"), happly "g" (.ofSource "f(ans)") _ 3 houter hlayer⟩

end Evaluation
end Calculator
