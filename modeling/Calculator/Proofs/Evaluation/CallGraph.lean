import Calculator.Proofs.Evaluation.Soundness
import Mathlib.Data.List.Chain
import Mathlib.Logic.Relation

/-!
# Calls between functions

The text of a function is parsed when it is called, and it may call any function of
the table, also itself.  A successful evaluation enters every stored function that
its expression calls, and does so with fewer entries than it takes itself.  The calls
that it reaches therefore form no cycle and no chain beyond the limit.
-/

namespace Calculator

/-- A call of the name stands somewhere in the expression. -/
inductive Expr.Calls (name : String) : Expr → Prop where
  | here (arguments : List Expr) : Calls name (.call name arguments)
  | argument {other : String} {arguments : List Expr} {e : Expr} (hmem : e ∈ arguments)
      (h : Calls name e) : Calls name (.call other arguments)
  | operand {op : UnaryOperator} {e : Expr} (h : Calls name e) : Calls name (.unary op e)
  | left {op : BinaryOperator} {left right : Expr} (h : Calls name left) :
      Calls name (.binary op left right)
  | right {op : BinaryOperator} {left right : Expr} (h : Calls name right) :
      Calls name (.binary op left right)

namespace Evaluation

variable [Elementary]

/-! ## The call graph of a table -/

/-- A call of the name enters a function of the table. -/
def IsStoredFunction (s : Symbols) (name : String) : Prop :=
  Builtin.find? name = none ∧ ∃ d, s.find? name = some (.function d)

/-- The expression calls a function of the table. -/
def CallsStored (s : Symbols) (e : Expr) (name : String) : Prop :=
  e.Calls name ∧ IsStoredFunction s name

/-- The parsed body of one function calls the other. -/
def BodyCalls (s : Symbols) (caller callee : String) : Prop :=
  ∃ d b, s.find? caller = some (.function d) ∧ Expr.parse d.source = .ok b ∧
    CallsStored s b callee

/-- The function is called by the expression or by a function that it reaches. -/
def ReachesFunction (s : Symbols) (e : Expr) (name : String) : Prop :=
  ∃ first, CallsStored s e first ∧ Relation.ReflTransGen (BodyCalls s) first name

/-- The names are functions called inside one another, the first by the
expression. -/
def IsCallChain (s : Symbols) (e : Expr) (names : List String) : Prop :=
  (∀ first, names.head? = some first → CallsStored s e first) ∧
    names.IsChain (BodyCalls s)

/-! ## What a success has entered -/

/-- The function has been entered, and its body evaluated with success in fewer
entries. -/
def Enters (s : Symbols) (name : String) (entries : Nat) : Prop :=
  ∃ d b input v entries' nesting, s.find? name = some (.function d) ∧
    Expr.parse d.source = .ok b ∧ entries' < entries ∧
      Derivable s (.expression (some input) b (.ok v)) entries' nesting

variable {s : Symbols} {name : String} {e : Expr} {entries nesting : Nat}

theorem Enters.mono {entries' : Nat} (h : Enters s name entries) (hle : entries ≤ entries') :
    Enters s name entries' := by
  obtain ⟨d, b, input, v, n, m, hfind, hparse, hlt, hderived⟩ := h
  exact ⟨d, b, input, v, n, m, hfind, hparse, Nat.lt_of_lt_of_le hlt hle, hderived⟩

/-- The judgement is a success that cannot do without entering the function. -/
def Judgement.Requires (s : Symbols) (name : String) : Judgement → Prop
  | .expression _ e result => CallsStored s e name ∧ ∃ v, result = .ok v
  | .arguments _ es result => (∃ e ∈ es, CallsStored s e name) ∧ ∃ inputs, result = .ok inputs
  | .call called _ result => called = name ∧ IsStoredFunction s name ∧ ∃ v, result = .ok v
  | .entry d _ result => s.find? name = some (.function d) ∧ ∃ v, result = .ok v

theorem requires_expression {argument : Option Float} {v : Value}
    (h : CallsStored s e name) : Judgement.Requires s name (.expression argument e (.ok v)) :=
  ⟨h, v, rfl⟩

/-- A success has entered every function that it requires. -/
theorem Derivable.enters {j : Judgement} (h : Derivable s j entries nesting)
    (hrequires : j.Requires s name) : Enters s name entries := by
  induction h with
  | number argument v =>
      obtain ⟨⟨hcalls, -⟩, -⟩ := hrequires
      cases hcalls
  | identifier h =>
      obtain ⟨⟨hcalls, -⟩, -⟩ := hrequires
      cases hcalls
  | unary _ ih =>
      obtain ⟨⟨hcalls, hstored⟩, -⟩ := hrequires
      cases hcalls with
      | operand hcalls => exact ih (requires_expression ⟨hcalls, hstored⟩)
  | unaryError _ _ =>
      obtain ⟨-, v, hv⟩ := hrequires
      cases hv
  | binary _ _ ihleft ihright =>
      obtain ⟨⟨hcalls, hstored⟩, -⟩ := hrequires
      cases hcalls with
      | left hcalls =>
          exact (ihleft (requires_expression ⟨hcalls, hstored⟩)).mono (Nat.le_max_left _ _)
      | right hcalls =>
          exact (ihright (requires_expression ⟨hcalls, hstored⟩)).mono (Nat.le_max_right _ _)
  | binaryLeftError _ _ =>
      obtain ⟨-, v, hv⟩ := hrequires
      cases hv
  | binaryRightError _ _ _ _ =>
      obtain ⟨-, v, hv⟩ := hrequires
      cases hv
  | call _ _ iharguments ihcall =>
      obtain ⟨⟨hcalls, hstored⟩, hresult⟩ := hrequires
      cases hcalls with
      | here => exact (ihcall ⟨rfl, hstored, hresult⟩).mono (Nat.le_max_right _ _)
      | argument hmem hcalls =>
          exact (iharguments ⟨⟨_, hmem, hcalls, hstored⟩, _, rfl⟩).mono (Nat.le_max_left _ _)
  | callError _ _ =>
      obtain ⟨-, v, hv⟩ := hrequires
      cases hv
  | noArguments argument =>
      obtain ⟨⟨e, hmem, -⟩, -⟩ := hrequires
      cases hmem
  | moreArguments _ _ ihfirst ihrest =>
      obtain ⟨⟨e, hmem, hcalls⟩, -⟩ := hrequires
      rcases List.mem_cons.mp hmem with rfl | hmem
      · exact (ihfirst (requires_expression hcalls)).mono (Nat.le_max_left _ _)
      · exact (ihrest ⟨⟨e, hmem, hcalls⟩, _, rfl⟩).mono (Nat.le_max_right _ _)
  | firstArgumentError _ _ =>
      obtain ⟨-, inputs, hinputs⟩ := hrequires
      cases hinputs
  | moreArgumentsError _ _ _ _ =>
      obtain ⟨-, inputs, hinputs⟩ := hrequires
      cases hinputs
  | builtinCall hbuiltin =>
      obtain ⟨rfl, ⟨hnone, -⟩, -⟩ := hrequires
      rw [hbuiltin] at hnone
      cases hnone
  | userCall _ hfind _ ih =>
      obtain ⟨rfl, -, hresult⟩ := hrequires
      exact ih ⟨hfind, hresult⟩
  | body hparse hderived _ =>
      obtain ⟨hfind, v, rfl⟩ := hrequires
      exact ⟨_, _, _, v, _, _, hfind, hparse, Nat.lt_succ_self _, hderived⟩
  | brokenBody _ =>
      obtain ⟨-, v, hv⟩ := hrequires
      cases hv
  | _ =>
      obtain ⟨-, -, v, hv⟩ := hrequires
      cases hv

/-- A call in the body of an entered function has been entered with fewer entries. -/
theorem Enters.bodyCalls {callee : String} (h : Enters s name entries)
    (hcalls : BodyCalls s name callee) : ∃ entries' < entries, Enters s callee entries' := by
  obtain ⟨d, b, input, v, n, m, hfind, hparse, hlt, hderived⟩ := h
  obtain ⟨d', b', hfind', hparse', hcallee⟩ := hcalls
  rw [hfind] at hfind'
  cases hfind'
  rw [hparse] at hparse'
  cases hparse'
  exact ⟨n, hlt, hderived.enters (requires_expression hcallee)⟩

theorem Enters.reflTransGen {callee : String} (h : Enters s name entries)
    (hcalls : Relation.ReflTransGen (BodyCalls s) name callee) : Enters s callee entries := by
  induction hcalls with
  | refl => exact h
  | tail _ hlast ih =>
      obtain ⟨n, hlt, hentered⟩ := ih.bodyCalls hlast
      exact hentered.mono (Nat.le_of_lt hlt)

theorem Enters.transGen {callee : String} (h : Enters s name entries)
    (hcalls : Relation.TransGen (BodyCalls s) name callee) :
    ∃ entries' < entries, Enters s callee entries' := by
  obtain ⟨between, hfirst, hrest⟩ := Relation.TransGen.head'_iff.mp hcalls
  obtain ⟨n, hlt, hentered⟩ := h.bodyCalls hfirst
  exact ⟨n, hlt, hentered.reflTransGen hrest⟩

/-- Entries cannot become fewer for ever, so no entered function is recursive. -/
theorem Enters.not_recursive (h : Enters s name entries) :
    ¬ Relation.TransGen (BodyCalls s) name name := by
  intro hcycle
  induction entries using Nat.strong_induction_on with
  | _ entries ih =>
      obtain ⟨n, hlt, hentered⟩ := h.transGen hcycle
      exact ih n hlt hentered

/-- Every function of a chain takes one more entry. -/
theorem Enters.length_le {names : List String} (h : Enters s name entries)
    (hchain : (name :: names).IsChain (BodyCalls s)) : (name :: names).length ≤ entries := by
  induction names generalizing name entries with
  | nil =>
      obtain ⟨_, _, _, _, n, _, _, _, hlt, _⟩ := h
      exact Nat.lt_of_le_of_lt (Nat.zero_le n) hlt
  | cons callee names ih =>
      obtain ⟨hcalls, hrest⟩ := List.isChain_cons_cons.mp hchain
      obtain ⟨n, hlt, hentered⟩ := h.bodyCalls hcalls
      have hlength := ih hentered hrest
      rw [List.length_cons]
      omega

/-! ## Evaluation -/

/-- A successful evaluation has entered every function that it reaches. -/
theorem enters_of_evaluate {v : Value} (h : s.evaluate e = .ok v)
    (hreaches : ReachesFunction s e name) : Enters s name maxCallDepth := by
  obtain ⟨n, m, hn, -, hderived⟩ := isJustified s maxNesting h rfl
  obtain ⟨first, hcalls, hpath⟩ := hreaches
  exact ((hderived.enters (requires_expression hcalls)).mono hn).reflTransGen hpath

/-- Every evaluation ends, either at a limit or with a result that a derivation
within the limits gives.  If it is a success, every function that it reaches has a
body that parses, none of them is recursive, and no chain of calls is longer than the
limit.  An expression that reaches a recursive function is therefore an error. -/
theorem evaluate_of_callGraph (s : Symbols) (e : Expr) :
    (isCutOff (s.evaluate e) = true ∨
      ∃ entries ≤ 64, ∃ nesting ≤ 2000,
        Derivable s (.expression none e (s.evaluate e)) entries nesting) ∧
    (∀ v, s.evaluate e = .ok v →
      (∀ name, ReachesFunction s e name →
        ∃ d b, s.find? name = some (.function d) ∧ Expr.parse d.source = .ok b) ∧
      (∀ name, ReachesFunction s e name → ¬ Relation.TransGen (BodyCalls s) name name) ∧
      ∀ names, IsCallChain s e names → names.length ≤ 64) ∧
    (∀ name, ReachesFunction s e name → Relation.TransGen (BodyCalls s) name name →
      ∃ err, s.evaluate e = .error err) := by
  have hacyclic : ∀ v, s.evaluate e = .ok v → ∀ name, ReachesFunction s e name →
      ¬ Relation.TransGen (BodyCalls s) name name := by
    intro v h name hreaches
    exact (enters_of_evaluate h hreaches).not_recursive
  refine ⟨?_, ?_, ?_⟩
  · by_cases hcut : isCutOff (s.evaluate e) = true
    · exact .inl hcut
    · obtain ⟨n, m, hn, hm, hderived⟩ :=
        isJustified s maxNesting rfl (Bool.eq_false_iff.mpr hcut)
      exact .inr ⟨n, hn, m, hm, hderived⟩
  · intro v h
    refine ⟨?_, hacyclic v h, ?_⟩
    · intro name hreaches
      obtain ⟨d, b, _, _, _, _, hfind, hparse, -⟩ := enters_of_evaluate h hreaches
      exact ⟨d, b, hfind, hparse⟩
    · rintro names ⟨hfirst, hchain⟩
      cases names with
      | nil => exact Nat.zero_le _
      | cons first rest =>
          have hreaches : ReachesFunction s e first := ⟨first, hfirst first rfl, .refl⟩
          exact (enters_of_evaluate h hreaches).length_le hchain
  · intro name hreaches hcycle
    cases h : s.evaluate e with
    | error err => exact ⟨err, rfl⟩
    | ok v => exact absurd hcycle (hacyclic v h name hreaches)

omit [Elementary] in
/-- Beside a function that calls itself, the identity can be called, but not the
function. -/
theorem evaluate_beside_recursion :
    ∃ s, @Symbols.evaluate .machine s (.call "f" [.number 3]) = .ok (.number 3) ∧
      ¬ Relation.TransGen (@BodyCalls .machine s) "f" "f" ∧
        ∃ err, @Symbols.evaluate .machine s (.call "g" [.number 3]) = .error err := by
  let elementary := Elementary.machine
  let s := (({} : Symbols).define "f" (.ofSource "x")).define "g" (.ofSource "g(x)")
  have hscan : Token.scan "x".toList = ⟨[.identifier "x"], none⟩ :=
    Token.scan_of_first? (by decide) (by decide) rfl Token.scan_nil
  have hidentity : Expr.parse "x" = .ok (.identifier "x") := by
    rw [Expr.parse, hscan]
    rfl
  have hscan' : Token.scan "g(x)".toList =
      ⟨[.identifier "g", .openParen, .identifier "x", .closeParen], none⟩ :=
    Token.scan_of_first? (by decide) (by decide) rfl <|
      Token.scan_of_first? (by decide) (by decide) rfl <|
      Token.scan_of_first? (by decide) (by decide) rfl <|
      Token.scan_of_first? (by decide) (by decide) rfl Token.scan_nil
  have hself : Expr.parse "g(x)" = .ok (.call "g" [.identifier "x"]) := by
    rw [Expr.parse, hscan']
    rfl
  have hbody : Derivable s (.expression (some 3) (.identifier "x") (.ok (.number 3))) 0 1 :=
    .identifier (.bound rfl)
  have hcall : Derivable s (.expression none (.call "f" [.number 3]) (.ok (.number 3))) 1 2 :=
    .call (.moreArguments (.number none 3) (.noArguments none))
      (.userCall rfl rfl (.body hidentity hbody))
  have hvalue : s.evaluate (.call "f" [.number 3]) = .ok (.number 3) :=
    hcall.isComputed (by decide) (by decide)
  have hreaches : ReachesFunction s (.call "f" [.number 3]) "f" :=
    ⟨"f", ⟨.here _, rfl, _, rfl⟩, .refl⟩
  have hstored : IsStoredFunction s "g" := ⟨rfl, _, rfl⟩
  have hreaches' : ReachesFunction s (.call "g" [.number 3]) "g" :=
    ⟨"g", ⟨.here _, hstored⟩, .refl⟩
  have hcycle : Relation.TransGen (BodyCalls s) "g" "g" :=
    .single ⟨_, _, rfl, hself, .here _, hstored⟩
  exact ⟨s, hvalue, ((evaluate_of_callGraph s _).2.1 _ hvalue).2.1 "f" hreaches,
    (evaluate_of_callGraph s _).2.2 "g" hreaches' hcycle⟩

end Evaluation
end Calculator
