import Calculator.Proofs.Evaluation.CallGraph

/-!
# The names that an evaluation can reach

An evaluation looks up the names of its expression, and those in the bodies of the
functions that it enters.  Two tables with the same entries for these names cannot be
told apart by it, whatever else they hold: not by a value, not by an error and not by
a limit.
-/

namespace Calculator

/-- The name stands in the expression, by itself or as that of a call. -/
inductive Expr.Names (name : String) : Expr → Prop where
  | identifier : Names name (.identifier name)
  | called (arguments : List Expr) : Names name (.call name arguments)
  | argument {other : String} {arguments : List Expr} {e : Expr} (hmem : e ∈ arguments)
      (h : Names name e) : Names name (.call other arguments)
  | operand {op : UnaryOperator} {e : Expr} (h : Names name e) : Names name (.unary op e)
  | left {op : BinaryOperator} {left right : Expr} (h : Names name left) :
      Names name (.binary op left right)
  | right {op : BinaryOperator} {left right : Expr} (h : Names name right) :
      Names name (.binary op left right)

namespace Symbols

variable {s : Symbols} {name : String}

theorem find?_eq_variable_iff {v : Float} :
    s.find? name = some (.variable v) ↔ s.valueOf? name = some v := by
  unfold valueOf?
  split
  · rename_i w hfind
    simp [hfind]
  · rename_i hfind
    simpa using hfind v

theorem find?_eq_function_iff {d : Definition} :
    s.find? name = some (.function d) ↔ s.functionOf? name = some d := by
  unfold functionOf?
  split
  · rename_i e hfind
    simp [hfind]
  · rename_i hfind
    simpa using hfind d

end Symbols

namespace Evaluation

variable [Elementary]

/-- The names in an expression, and those that can be reached from the body of a
stored function that it calls. -/
inductive Reach (s : Symbols) : Expr → String → Prop where
  | own {e : Expr} {name : String} (h : e.Names name) : Reach s e name
  | body {e b : Expr} {callee name : String} {d : Definition} (hcalls : CallsStored s e callee)
      (hfind : s.find? callee = some (.function d)) (hparse : Expr.parse d.source = .ok b)
      (h : Reach s b name) : Reach s e name

/-- The names that can be reached from the body of a function, if it has one. -/
def ReachFrom (s : Symbols) (d : Definition) (name : String) : Prop :=
  ∃ b, Expr.parse d.source = .ok b ∧ Reach s b name

/-- The tables have the same variables and functions under the names, and the same
last answer if it is among them. -/
structure AgreeOn (names : String → Prop) (s t : Symbols) : Prop where
  value : ∀ name, names name → s.valueOf? name = t.valueOf? name
  source : ∀ name, names name →
    (s.functionOf? name).map Definition.source = (t.functionOf? name).map Definition.source
  answer : names lastAnswerName → s.lastAnswer = t.lastAnswer

variable {s t : Symbols} {name : String}

/-! ## What is reached from the parts -/

/-- Whatever is named and called in a part is named and called in the whole. -/
theorem Reach.of_part {part whole : Expr} (hnames : ∀ name, part.Names name → whole.Names name)
    (hcalls : ∀ name, part.Calls name → whole.Calls name) (h : Reach s part name) :
    Reach s whole name := by
  cases h with
  | own h => exact .own (hnames name h)
  | body hstored hfind hparse h => exact .body ⟨hcalls _ hstored.1, hstored.2⟩ hfind hparse h

theorem Reach.operand {op : UnaryOperator} {e : Expr} (h : Reach s e name) :
    Reach s (.unary op e) name :=
  h.of_part (fun _ => .operand) (fun _ => .operand)

theorem Reach.left {op : BinaryOperator} {left right : Expr} (h : Reach s left name) :
    Reach s (.binary op left right) name :=
  h.of_part (fun _ => .left) (fun _ => .left)

theorem Reach.right {op : BinaryOperator} {left right : Expr} (h : Reach s right name) :
    Reach s (.binary op left right) name :=
  h.of_part (fun _ => .right) (fun _ => .right)

theorem Reach.argument {other : String} {arguments : List Expr} {e : Expr}
    (hmem : e ∈ arguments) (h : Reach s e name) : Reach s (.call other arguments) name :=
  h.of_part (fun _ => .argument hmem) (fun _ => .argument hmem)

/-- A call reaches what the body of its function reaches. -/
theorem ReachFrom.call {d : Definition} {arguments : List Expr} {other : String}
    (hbuiltin : Builtin.find? name = none) (hfind : s.find? name = some (.function d))
    (h : ReachFrom s d other) : Reach s (.call name arguments) other := by
  obtain ⟨b, hparse, hreach⟩ := h
  exact .body ⟨.here arguments, hbuiltin, d, hfind⟩ hfind hparse hreach

/-! ## Agreement -/

omit [Elementary] in
theorem AgreeOn.mono {names names' : String → Prop} (h : AgreeOn names s t)
    (hsub : ∀ name, names' name → names name) : AgreeOn names' s t :=
  ⟨fun name hname => h.value name (hsub name hname),
    fun name hname => h.source name (hsub name hname),
    fun hanswer => h.answer (hsub _ hanswer)⟩

omit [Elementary] in
/-- Where tables agree, they have the same entry. -/
theorem AgreeOn.find?_eq {names : String → Prop} (h : AgreeOn names s t) (hname : names name) :
    s.find? name = t.find? name := by
  have hfunction : s.functionOf? name = t.functionOf? name :=
    Option.map_injective (fun _ _ => Definition.ext) (h.source name hname)
  apply Option.ext
  intro entry
  rcases entry with v | d
  · rw [Symbols.find?_eq_variable_iff, Symbols.find?_eq_variable_iff, h.value name hname]
  · rw [Symbols.find?_eq_function_iff, Symbols.find?_eq_function_iff, hfunction]

omit [Elementary] in
/-- What is stored under another name makes no difference. -/
theorem agreeOn_store {names : String → Prop} (s : Symbols) (entry : Entry)
    (hname : ¬ names name) : AgreeOn names s (s.store name entry) := by
  have hfind : ∀ other, names other → (s.store name entry).find? other = s.find? other := by
    intro other hother
    rw [Symbols.find?_store, if_neg]
    rintro rfl
    exact hname hother
  refine ⟨?_, ?_, fun _ => rfl⟩
  · intro other hother
    rw [Symbols.valueOf?, Symbols.valueOf?, hfind other hother]
  · intro other hother
    rw [Symbols.functionOf?, Symbols.functionOf?, hfind other hother]

variable {argument : Option Float} {calls levels : Nat}

theorem resolve_eq_of_find?_eq (hfind : s.find? name = t.find? name)
    (hanswer : name = lastAnswerName → s.lastAnswer = t.lastAnswer) :
    Scope.resolve ⟨s, argument, calls⟩ name = Scope.resolve ⟨t, argument, calls⟩ name := by
  by_cases hname : name = lastAnswerName
  · simp only [Scope.resolve, hfind, hanswer hname]
  · have hfalse : (name == lastAnswerName) = false := by simpa using hname
    simp only [Scope.resolve, hfind, hfalse, Bool.false_eq_true, if_false]

/-! ## Evaluation in both tables -/

/-- Under a limit on nested expressions, the tables give every expression whose
reach they agree on the same result. -/
def EvaluateAlike (s t : Symbols) (levels : Nat) : Prop :=
  ∀ (argument : Option Float) (calls : Nat) (e : Expr), AgreeOn (Reach s e) s t →
    Scope.evaluate levels ⟨s, argument, calls⟩ e = Scope.evaluate levels ⟨t, argument, calls⟩ e

theorem EvaluateAlike.arguments {es : List Expr} (hlevels : EvaluateAlike s t levels)
    (argument : Option Float) (calls : Nat) (h : ∀ e ∈ es, AgreeOn (Reach s e) s t) :
    evaluateAll levels ⟨s, argument, calls⟩ es = evaluateAll levels ⟨t, argument, calls⟩ es := by
  induction es with
  | nil => rfl
  | cons e es ih =>
      have hfirst := hlevels argument calls e (h e List.mem_cons_self)
      have hrest := ih fun e he => h e (List.mem_cons_of_mem _ he)
      rw [evaluateAll_cons, evaluateAll_cons, hfirst, hrest]

theorem EvaluateAlike.enter {d : Definition} {input : Float}
    (hlevels : EvaluateAlike s t levels) (h : AgreeOn (ReachFrom s d) s t) :
    Scope.enter (Scope.evaluate levels) ⟨s, argument, calls⟩ name d input =
      Scope.enter (Scope.evaluate levels) ⟨t, argument, calls⟩ name d input := by
  cases calls with
  | zero => rfl
  | succ calls =>
      rw [enter_succ, enter_succ]
      cases hparse : Expr.parse d.source with
      | error err => rfl
      | ok b => exact hlevels (some input) calls b (h.mono fun _ hreach => ⟨b, hparse, hreach⟩)

theorem EvaluateAlike.call {arguments : List Expr} {inputs : List Float}
    (hlevels : EvaluateAlike s t levels) (h : AgreeOn (Reach s (.call name arguments)) s t) :
    Scope.call (Scope.evaluate levels) ⟨s, argument, calls⟩ name inputs =
      Scope.call (Scope.evaluate levels) ⟨t, argument, calls⟩ name inputs := by
  have hfind := h.find?_eq (.own (.called arguments))
  rw [Scope.call, Scope.call]
  cases hbuiltin : Builtin.find? name with
  | some b => rfl
  | none =>
      dsimp only
      rw [← hfind]
      rcases hentry : s.find? name with _ | v | d
      · rfl
      · rfl
      · rcases inputs with _ | ⟨input, _ | ⟨next, rest⟩⟩
        · rfl
        · exact hlevels.enter (h.mono fun _ hreach => hreach.call hbuiltin hentry)
        · rfl

theorem EvaluateAlike.succ (hlevels : EvaluateAlike s t levels) :
    EvaluateAlike s t (levels + 1) := by
  intro argument calls e h
  cases e with
  | number v => rfl
  | identifier name =>
      have hfind := h.find?_eq (.own .identifier)
      have hresolve : Scope.resolve ⟨s, argument, calls⟩ name =
          Scope.resolve ⟨t, argument, calls⟩ name := by
        refine resolve_eq_of_find?_eq hfind ?_
        rintro rfl
        exact h.answer (.own .identifier)
      rw [Scope.evaluate, Scope.evaluate, hresolve]
  | unary op e =>
      have hoperand := hlevels argument calls e (h.mono fun _ hreach => hreach.operand)
      rw [Scope.evaluate, Scope.evaluate, hoperand]
  | binary op left right =>
      have hleft := hlevels argument calls left (h.mono fun _ hreach => hreach.left)
      have hright := hlevels argument calls right (h.mono fun _ hreach => hreach.right)
      rw [Scope.evaluate, Scope.evaluate, hleft, hright]
  | call name es =>
      have harguments := hlevels.arguments argument calls
        fun e he => h.mono fun _ hreach => hreach.argument he
      rw [evaluate_call, evaluate_call, harguments]
      congr 1
      funext inputs
      exact hlevels.call h

theorem evaluateAlike (s t : Symbols) (levels : Nat) : EvaluateAlike s t levels := by
  induction levels with
  | zero =>
      intro argument calls e h
      rfl
  | succ levels ih => exact ih.succ

/-- Tables that agree on the reach of an expression give it the same result, and
tables that agree on the reach of a function give it the same results, be it a value
or an error. -/
theorem results_of_agreeOn (s t : Symbols) :
    (∀ e, AgreeOn (Reach s e) s t → s.evaluate e = t.evaluate e) ∧
    ∀ name d input, AgreeOn (ReachFrom s d) s t →
      s.apply name d input = t.apply name d input := by
  constructor
  · intro e h
    exact evaluateAlike s t maxNesting none maxCallDepth e h
  · intro name d input h
    exact EvaluateAlike.enter (evaluateAlike s t maxNesting) h

/-- A call with a number of a function that is a name by itself reaches the two names. -/
theorem reach_call_identifier {d : Definition} {callee other : String} {v : Float}
    (hfind : s.find? callee = some (.function d))
    (hparse : Expr.parse d.source = .ok (.identifier other))
    (h : Reach s (.call callee [.number v]) name) : name = callee ∨ name = other := by
  cases h with
  | own h =>
      cases h with
      | called => exact .inl rfl
      | argument hmem h =>
          obtain rfl := List.mem_singleton.mp hmem
          cases h
  | body hcalls hfound hbody h =>
      obtain ⟨hcalls, -⟩ := hcalls
      cases hcalls with
      | argument hmem hcalls =>
          obtain rfl := List.mem_singleton.mp hmem
          cases hcalls
      | here =>
          rw [hfind] at hfound
          cases hfound
          obtain rfl := Except.ok.inj (hparse.symm.trans hbody)
          cases h with
          | own h =>
              cases h
              exact .inr rfl
          | body hcalls =>
              obtain ⟨hcalls, -⟩ := hcalls
              cases hcalls

/-- A call of `f` reaches the name in its body and nothing else. -/
private theorem reach_call_reader {name : String}
    (h : Reach ((({} : Symbols).setVariable "k" 5).define "f" (.ofSource "k"))
      (.call "f" [.number 3]) name) : name = "f" ∨ name = "k" := by
  have hparse : Expr.parse "k" = .ok (.identifier "k") := by
    have hscan : Token.scan "k".toList = ⟨[.identifier "k"], none⟩ :=
      Token.scan_of_first? (by decide) (by decide) rfl Token.scan_nil
    rw [Expr.parse, hscan]
    rfl
  exact reach_call_identifier rfl hparse h

omit [Elementary] in
/-- The function `f` reads `k`, so a variable `z` makes no difference to it. -/
theorem evaluate_beside_variable :
    ∃ s t, s.valueOf? "z" = none ∧ t.valueOf? "z" = some 1 ∧
      @AgreeOn (@Reach .machine s (.call "f" [.number 3])) s t ∧
      @AgreeOn (@ReachFrom .machine s (.ofSource "k")) s t ∧
        @Symbols.evaluate .machine s (.call "f" [.number 3]) =
          @Symbols.evaluate .machine t (.call "f" [.number 3]) ∧
        @Symbols.apply .machine s "f" (.ofSource "k") 3 =
          @Symbols.apply .machine t "f" (.ofSource "k") 3 := by
  let elementary := Elementary.machine
  let s := (({} : Symbols).setVariable "k" 5).define "f" (.ofSource "k")
  have hother : ¬ Reach s (.call "f" [.number 3]) "z" := by
    intro h
    rcases reach_call_reader h with h | h <;> exact absurd h (by decide)
  have hother' : ¬ ReachFrom s (.ofSource "k") "z" := by
    intro h
    exact hother (h.call rfl rfl)
  have hagree : AgreeOn (Reach s (.call "f" [.number 3])) s (s.setVariable "z" 1) :=
    agreeOn_store s (.variable 1) hother
  have hagree' : AgreeOn (ReachFrom s (.ofSource "k")) s (s.setVariable "z" 1) :=
    agreeOn_store s (.variable 1) hother'
  obtain ⟨hevaluate, happly⟩ := results_of_agreeOn s (s.setVariable "z" 1)
  exact ⟨s, s.setVariable "z" 1, rfl, rfl, hagree, hagree', hevaluate _ hagree,
    happly "f" _ 3 hagree'⟩

end Evaluation
end Calculator
