import Calculator.Proofs.Session.Changes
import Calculator.Proofs.Session.Directive

/-!
# Lines repeated

A value is the new last answer, so a line that is repeated meets symbols that differ from
those it met first in the last answer and in nothing else.  Sorting a line asks no more than
whether the last answer is a number, which it always is.  Evaluating it reads the last answer
only where the name `ans` is reached.
-/

namespace Calculator

/-! ## What the last answer makes no difference to -/

namespace Evaluation

variable [Elementary]

omit [Elementary] in
/-- Where the last answer is not among the names, its value makes no difference. -/
theorem agreeOn_setLastAnswer {names : String → Prop} (s : Symbols) (v : Float)
    (hanswer : ¬ names lastAnswerName) : AgreeOn names s (s.setLastAnswer v) :=
  ⟨fun _ _ => rfl, fun _ _ => rfl, fun h => absurd h hanswer⟩

theorem evaluate_setLastAnswer {s : Symbols} {e : Expr} (v : Float)
    (hanswer : ¬ Reach s e lastAnswerName) :
    (s.setLastAnswer v).evaluate e = s.evaluate e :=
  (evaluateAlike s (s.setLastAnswer v) maxNesting none maxCallDepth e
    (agreeOn_setLastAnswer s v hanswer)).symm

end Evaluation

namespace Request

variable {s : Symbols} {form : String → Option Conversion} {line : String}

theorem isSome_operand?_setLastAnswer (s : Symbols) (v : Float) (token : String) :
    ((s.setLastAnswer v).operand? token).isSome = (s.operand? token).isSome := by
  rw [Symbols.operand?, Symbols.operand?]
  cases Decimal.read? token.toList with
  | some w => rfl
  | none =>
      by_cases htoken : (token == lastAnswerName) = true
      · dsimp only
        rw [if_pos htoken, if_pos htoken]
        rfl
      · dsimp only
        rw [if_neg htoken, if_neg htoken]
        rfl

theorem isSome_amount?_setLastAnswer (s : Symbols) (v : Float) (amount : Amount) :
    ((s.setLastAnswer v).amount? amount).isSome = (s.amount? amount).isSome := by
  cases amount with
  | literal text => rfl
  | name text => exact isSome_operand?_setLastAnswer s v text

/-- A line that is no conversion is none with another last answer. -/
theorem conversion?_setLastAnswer (v : Float) (h : conversion? form line s = none) :
    conversion? form line (s.setLastAnswer v) = none := by
  cases hform : form line with
  | none => exact conversion?_eq_none hform
  | some c =>
      have hamount : s.amount? c.amount = none := by
        by_contra hsome
        obtain ⟨w, hw⟩ := Option.ne_none_iff_exists'.mp hsome
        rw [conversion?_of_read? hform hw] at h
        cases h
      have hamount' : (s.setLastAnswer v).amount? c.amount = none := by
        rw [← Option.not_isSome_iff_eq_none, isSome_amount?_setLastAnswer, hamount]
        exact Bool.false_ne_true
      rw [conversion?, hform]
      simp [hamount']

theorem classify_setLastAnswer {expression : String} (v : Float)
    (h : classify line s = .arithmetic expression) :
    classify line (s.setLastAnswer v) = .arithmetic expression := by
  obtain ⟨hexpression, hsides, hkeyword, hcurrency, hunit⟩ := classify_eq_arithmetic_iff.mp h
  exact classify_eq_arithmetic_iff.mpr ⟨hexpression, hsides, hkeyword,
    conversion?_setLastAnswer v hcurrency, conversion?_setLastAnswer v hunit⟩

end Request

namespace Session

variable [Elementary] {rates : RateSource} {s : Symbols} {line : String} {v : Value}

/-! ## The line again -/

/-- A line is replied to with a value if it is an expression that has the value. -/
theorem exists_parse_of_value (h : (process rates s line).result = .ok (.value v)) :
    ∃ e, Request.classify (trimLine line) s = .arithmetic (trimLine line) ∧
      Expr.parse (trimLine line) = .ok e ∧ s.evaluate e = .ok v := by
  have heffect := effect_process rates s line
  rw [h] at heffect
  generalize (process rates s line).symbols = after at heffect
  cases heffect with
  | answered _ hquery => cases hquery
  | value hclass hvalue =>
      obtain rfl := Request.expression_of_classify hclass
      obtain ⟨e, hparse, hvalue⟩ := Support.bind_eq_ok_iff.mp hvalue
      exact ⟨e, hclass, hparse, hvalue⟩

theorem process_of_evaluate {e : Expr}
    (hclass : Request.classify (trimLine line) s = .arithmetic (trimLine line))
    (hparse : Expr.parse (trimLine line) = .ok e) (hvalue : s.evaluate e = .ok v) :
    process rates s line = ⟨.ok (.value v), s.setLastAnswer v.toFloat, []⟩ := by
  rw [process_eq, hclass]
  dsimp only
  rw [arithmetic, hparse, Support.ok_bind, hvalue]

/-- An expression that does not reach the last answer has the same reply when it is
repeated, and leaves the symbols as they were after the first time, whatever the rates are
by then. -/
theorem process_repeated (rates' : RateSource)
    (h : (process rates s line).result = .ok (.value v))
    (hanswer : ∀ e, Expr.parse (trimLine line) = .ok e →
      ¬ Evaluation.Reach s e lastAnswerName) :
    process rates' (process rates s line).symbols line = process rates s line := by
  obtain ⟨e, hclass, hparse, hvalue⟩ := exists_parse_of_value h
  have hvalue' : (s.setLastAnswer v.toFloat).evaluate e = .ok v := by
    rw [Evaluation.evaluate_setLastAnswer v.toFloat (hanswer e hparse), hvalue]
  rw [process_of_evaluate hclass hparse hvalue,
    process_of_evaluate (Request.classify_setLastAnswer v.toFloat hclass) hparse hvalue']
  rfl

omit [Elementary] in
/-- A call sets the last answer to three, and sets it to three again. -/
theorem process_call_repeated :
    ∃ s, @Reachable .machine s ∧ s.lastAnswer = 0 ∧
      (@process .machine (fun _ _ => none) s "f(3)").symbols.lastAnswer = 3 ∧
      @process .machine (fun _ _ => none)
          (@process .machine (fun _ _ => none) s "f(3)").symbols "f(3)" =
        @process .machine (fun _ _ => none) s "f(3)" := by
  let elementary := Elementary.machine
  let rates : RateSource := fun _ _ => none
  obtain ⟨hsymbols, hcall⟩ := process_identity_call rates
  have hs := Reachable.new.process rates "f(x) = x"
  rw [hsymbols] at hs
  have hvalue : (process rates (({} : Symbols).define "f" (.ofSource "x")) "f(3)").result =
      .ok (.value (.number 3)) := congrArg Outcome.result hcall
  have hanswer : ∀ e, Expr.parse (trimLine "f(3)") = .ok e →
      ¬ Evaluation.Reach (({} : Symbols).define "f" (.ofSource "x")) e lastAnswerName := by
    intro e hparse
    have htrim : trimLine "f(3)" = Request.callLine "f" "3" := by decide +kernel
    rw [htrim, parse_identity_call] at hparse
    obtain rfl := Except.ok.inj hparse
    have hbody : Expr.parse "x" = .ok (.identifier "x") :=
      Token.IsIdentifier.parse_eq (by decide)
    intro hreach
    rcases Evaluation.reach_call_identifier rfl hbody hreach with hname | hname <;>
      exact absurd hname (by decide)
  refine ⟨_, hs, rfl, ?_, process_repeated rates hvalue hanswer⟩
  exact congrArg (fun outcome => outcome.symbols.lastAnswer) hcall

end Session
end Calculator
