import Calculator.Proofs.Evaluation.Deepening
import Calculator.Proofs.Evaluation.Reach
import Calculator.Proofs.Request.Call
import Calculator.Proofs.Session.Variable

/-!
# Functions at a number

The directive `evaluate f for x == v` applies a function from outside, and the call `f(v)`
applies it in an expression.  The two replies come from the same body at the same argument;
the call has one level of nesting less for it, which is the only difference.
-/

namespace Calculator
namespace Session

variable [Elementary] {rates : RateSource} {s : Symbols} {name line token : String} {v : Float}
  {d : Definition}

/-! ## The directives by their words -/

/-- What `evaluate f for x == v` replies with. -/
def inputResult (s : Symbols) (name : String) (d : Definition) (v : Float) :
    Except LineError Reply :=
  match s.apply name d v with
  | .ok value => .ok (.functionValue name v value)
  | .error e => .error (.evaluation e)

/-- The number that a stored function makes of a number, where it succeeds. -/
def output (s : Symbols) (name : String) (d : Definition) (x : Float) : Except EvalError Float :=
  (s.apply name d x).map Value.toFloat

/-- What `evaluate f for y == v` replies with. -/
def targetResult (s : Symbols) (name : String) (d : Definition) (v : Float) :
    Except LineError Reply :=
  match (Inversion.findInput (m := Id) (fun x => pure (output s name d x)) v).run with
  | some input => .ok (.inverted name input v)
  | none => .error (.rootNotFound name v Inversion.maxSteps)

theorem process_of_input_words
    (hwords : Request.lineWords line = ["evaluate", name, "for", "x", "==", token])
    (hoperand : s.operand? token = some v) (hfunction : s.functionOf? name = some d) :
    process rates s line = unchanged s (inputResult s name d v) := by
  have haxis : "x" = freeVariable := rfl
  rw [process_of_evaluate_words hwords (by simp), evaluateFunction, hoperand]
  dsimp only
  rw [hfunction]
  exact congrArg (unchanged s) (if_pos haxis)

theorem process_of_target_words
    (hwords : Request.lineWords line = ["evaluate", name, "for", "y", "==", token])
    (hoperand : s.operand? token = some v) (hfunction : s.functionOf? name = some d) :
    process rates s line = unchanged s (targetResult s name d v) := by
  have haxis : "y" ≠ freeVariable := by decide
  rw [process_of_evaluate_words hwords (by simp), evaluateFunction, hoperand]
  dsimp only
  rw [hfunction]
  exact congrArg (unchanged s) ((if_neg haxis).trans (if_pos rfl))

/-! ## The directive and the call -/

theorem Reachable.storable_of_functionOf? (hs : Reachable s)
    (hfunction : s.functionOf? name = some d) : Storable name :=
  hs.orderly.storable name _
    (Symbols.mem_entries_of_find? (Symbols.find?_eq_function_iff.mpr hfunction))

variable {text literal : String}

theorem process_evaluateLine (hname : Token.IsIdentifier name)
    (hfunction : s.functionOf? name = some d)
    (htext : Token.scan text.toList = ⟨[.number literal], none⟩)
    (hradix : ¬ Numeral.HasRadixPrefix literal.toList)
    (hread : Numeral.read? literal.toList = some v) :
    process rates s (Request.evaluateLine name "x" text) =
      unchanged s (inputResult s name d v) := by
  have hliteral : Request.lineWords text = [literal] := by
    rw [Request.lineWords, Token.words_of_scan_eq_singleton htext]
    simp [Token.content]
  have haxis : Request.lineWords "x" = ["x"] := by decide
  have hwords := Request.lineWords_evaluateLine_of_identifier hname haxis hliteral
  have hoperand : s.operand? literal = some v := by
    rw [Symbols.operand?, ← Numeral.read?_of_not_hasRadixPrefix hradix, hread]
  exact process_of_input_words hwords hoperand hfunction

theorem process_callLine (hname : Token.IsIdentifier name)
    (htext : Token.scan text.toList = ⟨[.number literal], none⟩)
    (hread : Numeral.read? literal.toList = some v) :
    process rates s (Request.callLine name text) =
      match s.evaluate (.call name [.number v]) with
      | .ok value => ⟨.ok (.value value), s.setLastAnswer value.toFloat, []⟩
      | .error e => unchanged s (.error (.evaluation e)) := by
  rw [process_eq, Request.trimLine_callLine hname,
    Request.classify_callLine s hname htext hread]
  dsimp only
  rw [arithmetic, Request.parse_callLine hname htext hread, Support.ok_bind]
  cases s.evaluate (.call name [.number v]) <;> rfl

/-- A function without a space in its name is applied to a number with the same result by
the directive and by a call, unless the call nests too deeply.  The directive leaves the
symbols as they are; the call, if it succeeds, changes the last answer and nothing that is
stored. -/
theorem directive_agrees_with_call (rates : RateSource) (hs : Reachable s)
    (hfunction : s.functionOf? name = some d) (hspace : ' ' ∉ name.toList)
    (htext : Token.scan text.toList = ⟨[.number literal], none⟩)
    (hradix : ¬ Numeral.HasRadixPrefix literal.toList)
    (hread : Numeral.read? literal.toList = some v) :
    (process rates s (Request.evaluateLine name "x" text)).symbols = s ∧
    (process rates s (Request.callLine name text) =
        unchanged s (.error (.evaluation .tooDeep)) ∨
      (∃ value,
        process rates s (Request.evaluateLine name "x" text) =
          unchanged s (.ok (.functionValue name v value)) ∧
        process rates s (Request.callLine name text) =
          ⟨.ok (.value value), { s with lastAnswer := value.toFloat }, []⟩) ∨
      ∃ e,
        process rates s (Request.evaluateLine name "x" text) =
          unchanged s (.error (.evaluation e)) ∧
        process rates s (Request.callLine name text) =
          unchanged s (.error (.evaluation e))) := by
  have hstorable : Storable name := hs.storable_of_functionOf? hfunction
  have hname : Token.IsIdentifier name := hstorable.form.isIdentifier hspace
  have hkeeps := Evaluation.keeps_apply hstorable.find?_builtin
    (Symbols.find?_eq_function_iff.mpr hfunction) v
  rw [process_evaluateLine hname hfunction htext hradix hread,
    process_callLine hname htext hread, inputResult]
  refine ⟨rfl, ?_⟩
  by_cases hdeep : s.evaluate (.call name [.number v]) = .error .tooDeep
  · left
    rw [hdeep]
  · right
    rw [hkeeps hdeep]
    cases s.evaluate (.call name [.number v]) with
    | ok value => exact .inl ⟨value, rfl, rfl⟩
    | error e => exact .inr ⟨e, rfl, rfl⟩

/-- The identity gives back what it is applied to. -/
theorem apply_identity (s : Symbols) (name : String) (v : Float) :
    s.apply name (.ofSource "x") v = .ok (.number v) := by
  have hparse : Expr.parse "x" = .ok (.identifier "x") :=
    Token.IsIdentifier.parse_eq (by decide)
  have hbody : Evaluation.Derivable s
      (.expression (some v) (.identifier "x") (.ok (.number v))) 0 1 := .identifier (.bound rfl)
  have hderived : Evaluation.Derivable s (.entry (.ofSource "x") v (.ok (.number v))) 1 1 :=
    .body hparse hbody
  exact hderived.isComputed (by decide) (by decide) none name

omit [Elementary] in
theorem parse_identity_call : Expr.parse (Request.callLine "f" "3") = .ok (.call "f" [.number 3]) :=
  Request.parse_callLine (by decide) scan_three (by decide +kernel)

/-- The identity, defined by the line for it, is called with a number. -/
theorem process_identity_call (rates : RateSource) :
    (process rates {} "f(x) = x").symbols = ({} : Symbols).define "f" (.ofSource "x") ∧
      process rates (({} : Symbols).define "f" (.ofSource "x")) (Request.callLine "f" "3") =
        ⟨.ok (.value (.number 3)),
          (({} : Symbols).define "f" (.ofSource "x")).setLastAnswer 3, []⟩ := by
  constructor
  · have hsides : Request.assignment? (trimLine "f(x) = x") = some ("f(x)", "x") := by decide
    have htarget : targetName "f(x)" = .ok ⟨"f", true⟩ := rfl
    rw [process_of_assignment? hsides, htarget]
    rfl
  · have hname : Token.IsIdentifier "f" := by decide
    have hread : Numeral.read? "3".toList = some 3 := by decide +kernel
    have hparse : Expr.parse "x" = .ok (.identifier "x") :=
      Token.IsIdentifier.parse_eq (by decide)
    have hbody : Evaluation.Derivable (({} : Symbols).define "f" (.ofSource "x"))
        (.expression (some 3) (.identifier "x") (.ok (.number 3))) 0 1 :=
      .identifier (.bound rfl)
    have hbuiltin : Builtin.find? "f" = none := rfl
    have hfind : (({} : Symbols).define "f" (.ofSource "x")).find? "f" =
        some (.function (.ofSource "x")) := rfl
    have hderived := Evaluation.Derivable.call
      (.moreArguments (.number none 3) (.noArguments none))
      (.userCall hbuiltin hfind (.body hparse hbody))
    have hvalue : (({} : Symbols).define "f" (.ofSource "x")).evaluate (.call "f" [.number 3]) =
        .ok (.number 3) := hderived.isComputed (by decide) (by decide)
    rw [process_callLine hname scan_three hread, hvalue]
    rfl

omit [Elementary] in
/-- The identity gives the number back both ways. -/
theorem identity_by_directive_and_call :
    ∃ s d, @Reachable .machine s ∧ s.functionOf? "f" = some d ∧
      @process .machine (fun _ _ => none) s "evaluate f for x == 3" =
        unchanged s (.ok (.functionValue "f" 3 (.number 3))) ∧
      @process .machine (fun _ _ => none) s "f(3)" =
        ⟨.ok (.value (.number 3)), ⟨s.entries, 3⟩, []⟩ := by
  let elementary := Elementary.machine
  let rates : RateSource := fun _ _ => none
  let s := ({} : Symbols).define "f" (.ofSource "x")
  obtain ⟨hsymbols, hcall⟩ := process_identity_call rates
  have hs := Reachable.new.process rates "f(x) = x"
  rw [hsymbols] at hs
  have hfunction : s.functionOf? "f" = some (.ofSource "x") := rfl
  have hradix : ¬ Numeral.HasRadixPrefix "3".toList := by
    rintro ⟨letter, digits, hdigits, -⟩
    cases hdigits
  have hread : Numeral.read? "3".toList = some 3 := by decide +kernel
  refine ⟨s, .ofSource "x", hs, hfunction, ?_, hcall⟩
  obtain ⟨-, hdeep | ⟨value, hdirective, hagain⟩ | ⟨e, -, hagain⟩⟩ :=
    directive_agrees_with_call rates hs hfunction (by decide) scan_three hradix hread
  · cases hcall.symm.trans hdeep
  · obtain rfl : Value.number 3 = value := by
      have hresult := congrArg Outcome.result (hcall.symm.trans hagain)
      injection hresult with hreply
      injection hreply
    exact hdirective
  · cases hcall.symm.trans hagain

end Session
end Calculator
