import Calculator.Proofs.Grammar.Occurrence
import Calculator.Proofs.Session.Atomicity

/-!
# Definitions inside a chain

The right sides of a chain of assignments are lines inside one another.  Whatever makes one of
them define a function, the parameter or the body, is a whole word `x` of the line, so it is
seen by the outermost assignment, which then defines a function itself and carries out none of
its inner lines.
-/

namespace Calculator

namespace Request

/-- The line is an assignment with this right side. -/
def RightSide (line rhs : String) : Prop :=
  ∃ target, assignment? (trimLine line) = some (target, rhs)

/-- The line stands inside a chain of assignments, at whatever depth. -/
def InnerLine (line inner : String) : Prop :=
  Relation.TransGen RightSide line inner

theorem RightSide.mem {line rhs : String} {c : Char} (h : RightSide line rhs)
    (hc : c ∈ rhs.toList) : c ∈ line.toList := by
  obtain ⟨target, hsides⟩ := h
  obtain ⟨left, right, hline, -, rfl⟩ := assignment?_eq_some hsides
  rw [String.toList_ofList] at hc
  refine Text.mem_of_mem_trim ?_
  rw [trimLine, String.toList_ofList] at hline
  rw [hline]
  exact List.mem_append_right _ (List.mem_cons_of_mem _ (Text.mem_of_mem_trim hc))

theorem RightSide.hasWord {line rhs : String} {letter : Char} (h : RightSide line rhs)
    (hword : Text.hasWord letter rhs.toList = true) : Text.hasWord letter line.toList = true := by
  obtain ⟨target, hsides⟩ := h
  have hline := hasWord_of_assignment? hsides (.inr hword)
  rw [trimLine, String.toList_ofList] at hline
  exact Text.hasWord_of_trim hline

end Request

namespace Session

open Request

/-- An assignment that defines a function has an equals sign and a whole word `x`, and so has
every line around it. -/
theorem equals_and_word_of_reflTransGen {line inner target rhs : String} {t : Target}
    (h : Relation.ReflTransGen RightSide line inner)
    (hsides : assignment? (trimLine inner) = some (target, rhs))
    (hread : Target.read? target = some t) (hfunction : definesFunction t rhs = true) :
    '=' ∈ line.toList ∧ Text.hasWord 'x' line.toList = true := by
  induction h using Relation.ReflTransGen.head_induction_on with
  | refl =>
      have hequals := equals_mem_of_assignment? hsides
      have hword := hasWord_of_assignment? hsides (hasWord_of_definesFunction hread hfunction)
      rw [trimLine, String.toList_ofList] at hequals hword
      exact ⟨Text.mem_of_mem_trim hequals, Text.hasWord_of_trim hword⟩
  | head hright _ ih => exact ⟨hright.mem ih.1, hright.hasWord ih.2⟩

/-- Where an inner line would define a function, the outermost assignment does. -/
theorem definesFunction_of_innerLine {line target rhs inner target' rhs' : String} {t t' : Target}
    (houter : assignment? (trimLine line) = some (target, rhs)) (hinner : InnerLine line inner)
    (hsides : assignment? (trimLine inner) = some (target', rhs'))
    (hread : Target.read? target' = some t') (hfunction : definesFunction t' rhs' = true) :
    definesFunction t rhs = true := by
  obtain ⟨mid, ⟨target'', hmid⟩, hbelow⟩ := Relation.TransGen.head'_iff.mp hinner
  obtain ⟨-, rfl⟩ := Prod.mk.inj (Option.some.inj (houter.symm.trans hmid))
  obtain ⟨hequals, hword⟩ := equals_and_word_of_reflTransGen hbelow hsides hread hfunction
  rw [definesFunction_of_equals t hequals, hword, Bool.or_true]

variable [Elementary] {rates : RateSource} {s : Symbols}

/-- Behind an outermost assignment that defines no function, no inner line defines one. -/
theorem result_ne_defined_of_innerLine {line target rhs inner name : String} {t : Target}
    (houter : assignment? (trimLine line) = some (target, rhs))
    (hfunction : definesFunction t rhs = false) (hinner : InnerLine line inner) :
    (process rates s inner).result ≠ .ok (.defined name) := by
  intro hdefined
  have heffect := effect_process rates s inner
  rw [hdefined] at heffect
  generalize (process rates s inner).symbols = after at heffect
  cases heffect with
  | answered _ hquery => cases hquery
  | defined hsides htarget hdefines =>
      have hread := (targetName_eq_ok htarget).1
      rw [definesFunction_of_innerLine houter hinner hsides hread hdefines] at hfunction
      cases hfunction

/-- The two tests for the body of a function agree on what is parsed: `x` is a whole word of
the text where it is a bare name of the tree or the name of a call.  So a chain of assignments
defines a function at its outermost level or not at all: an inner line that would define one
makes the outermost assignment do so; and the line is refused for its target, or it defines a
function and carries out nothing inside, or it binds the reply of its right side, and then no
inner line defines a function. -/
theorem body_tests_agree :
    (∀ (rhs : String) (tree : Expr), Expr.parse rhs = .ok tree →
      (Text.hasWord 'x' rhs.toList = true ↔
        tree.mentions freeVariable = true ∨ tree.Calls freeVariable)) ∧
    (∀ (line target rhs inner target' rhs' : String) (t t' : Target),
      assignment? (trimLine line) = some (target, rhs) → InnerLine line inner →
      assignment? (trimLine inner) = some (target', rhs') → Target.read? target' = some t' →
      definesFunction t' rhs' = true → definesFunction t rhs = true) ∧
    (∀ (rates : RateSource) (s : Symbols) (line target rhs : String),
      assignment? (trimLine line) = some (target, rhs) →
      (∃ e, targetName target = .error e ∧ process rates s line = unchanged s (.error e)) ∨
      (∃ t, targetName target = .ok t ∧ definesFunction t rhs = true ∧
        process rates s line = defineFunction s t.name rhs) ∨
      (∃ t, targetName target = .ok t ∧ definesFunction t rhs = false ∧
        process rates s line = assignReply t.name (process rates s rhs) ∧
        ∀ inner, InnerLine line inner →
          ∀ name, (process rates s inner).result ≠ .ok (.defined name))) := by
  refine ⟨fun rhs tree => Grammar.hasWord_iff_of_parse, ?_, ?_⟩
  · intro line target rhs inner target' rhs' t t' houter hinner hsides hread hfunction
    exact definesFunction_of_innerLine houter hinner hsides hread hfunction
  · intro rates s line target rhs houter
    rw [process_of_assignment? houter]
    cases htarget : targetName target with
    | error e => exact .inl ⟨e, rfl, rfl⟩
    | ok t =>
        right
        cases hfunction : definesFunction t rhs with
        | true => exact .inl ⟨t, rfl, hfunction, if_pos hfunction⟩
        | false =>
            refine .inr ⟨t, rfl, hfunction, if_neg (by simp [hfunction]), ?_⟩
            intro inner hinner name
            exact result_ne_defined_of_innerLine houter hfunction hinner

omit [Elementary] in
/-- The parameter of the inner assignment makes the outer one define a function. -/
theorem outer_definition_of_parameter :
    Text.hasWord 'x' "x()".toList = true ∧
      definesFunction ⟨"a", false⟩ "f(x) = 2" = true ∧
      @process .machine (fun _ _ => none) {} "a = f(x) = 2" =
        defineFunction {} "a" "f(x) = 2" := by
  let elementary := Elementary.machine
  obtain ⟨htests, hinner, houtcome⟩ := body_tests_agree
  have hscan : Token.scan "x()".toList =
      ⟨[.identifier "x", .openParen, .closeParen], none⟩ :=
    Token.scan_of_first? (by decide) (by decide) rfl <|
      Token.scan_of_first? (by decide) (by decide) rfl <|
      Token.scan_of_first? (by decide) (by decide) rfl Token.scan_nil
  have hparse : Expr.parse "x()" = .ok (.call "x" []) := by
    rw [Expr.parse, hscan]
    rfl
  have houter : assignment? (trimLine "a = f(x) = 2") = some ("a", "f(x) = 2") := by
    decide
  have hsides : assignment? (trimLine "f(x) = 2") = some ("f(x)", "2") := by
    decide
  have hfunction : definesFunction ⟨"a", false⟩ "f(x) = 2" = true :=
    hinner _ "a" _ _ "f(x)" "2" _ ⟨"f", true⟩ houter (.single ⟨"a", houter⟩) hsides rfl rfl
  have htarget : targetName "a" = .ok ⟨"a", false⟩ := rfl
  refine ⟨(htests "x()" _ hparse).mpr (.inr (.here [])), hfunction, ?_⟩
  rcases houtcome (fun _ _ => none) {} _ _ _ houter with
    ⟨e, herror, -⟩ | ⟨t, hname, -, hprocess⟩ | ⟨t, hname, hfalse, -⟩
  · rw [htarget] at herror
    cases herror
  · obtain rfl := Except.ok.inj (htarget.symm.trans hname)
    exact hprocess
  · obtain rfl := Except.ok.inj (htarget.symm.trans hname)
    rw [hfunction] at hfalse
    cases hfalse

end Session
end Calculator
