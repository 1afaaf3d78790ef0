import Calculator.Proofs.Grammar.FreeVariable
import Calculator.Proofs.Request.Target
import Calculator.Proofs.Session.Effect

/-!
# Failed lines

A line that fails leaves the symbols as they were.  Along a chain of assignments
an outer one fails only where the inner reply has no number, so the inner line
must not have defined a function by then.  It has not: what makes it define one,
the parameter or the word `x`, is seen by the outer assignment first.
-/

namespace Calculator
namespace Session

/-! ## Functions along a chain -/

/-- What makes an assignment define a function is a word of its sides. -/
theorem hasWord_of_definesFunction {target rhs : String} {t : Target}
    (hread : Target.read? target = some t) (h : definesFunction t rhs = true) :
    Text.hasWord 'x' target.toList = true ∨ Text.hasWord 'x' rhs.toList = true := by
  rw [definesFunction, Bool.or_eq_true] at h
  rcases h with hparameter | hbody
  · exact .inl (Target.hasWord_of_hasParameter hread hparameter)
  · right
    cases hparse : Expr.parse rhs with
    | ok body =>
        rw [hparse] at hbody
        exact Grammar.hasWord_of_parse hparse hbody
    | error e =>
        rw [hparse] at hbody
        exact hbody

/-- A right side with an equals sign has no tree, so its words decide. -/
theorem definesFunction_of_equals {rhs : String} (t : Target) (hequals : '=' ∈ rhs.toList) :
    definesFunction t rhs = (t.hasParameter || Text.hasWord 'x' rhs.toList) := by
  obtain ⟨e, hparse⟩ := Grammar.parse_error_of_equals hequals
  rw [definesFunction, hparse]

/-- An assignment whose right side would define a function defines one itself. -/
theorem definesFunction_of_inner {rhs target rhs' : String} {t t' : Target}
    (hsides : Request.assignment? (trimLine rhs) = some (target, rhs'))
    (hread : Target.read? target = some t') (hinner : definesFunction t' rhs' = true) :
    definesFunction t rhs = true := by
  have hword := Request.hasWord_of_assignment? hsides (hasWord_of_definesFunction hread hinner)
  have hequals := Request.equals_mem_of_assignment? hsides
  rw [trimLine, String.toList_ofList] at hword hequals
  rw [definesFunction_of_equals t (Text.mem_of_mem_trim hequals), Text.hasWord_of_trim hword,
    Bool.or_true]

variable [Elementary]

variable {rates : RateSource} {s after : Symbols}

/-- Behind an assignment that defines no function, no function is defined. -/
theorem Effect.ne_defined {line name : String} {result : Except LineError Reply} {t : Target}
    (h : Effect rates s line result after) (hfunction : definesFunction t line = false) :
    result ≠ .ok (.defined name) := by
  rintro rfl
  cases h with
  | answered _ hquery => cases hquery
  | defined hsides htarget hinner =>
      rw [definesFunction_of_inner hsides (targetName_eq_ok htarget).1 hinner] at hfunction
      cases hfunction

/-- A reply without a number is that of a definition or of a query. -/
theorem Effect.after_eq_of_number?_eq_none {line : String} {reply : Reply}
    (h : Effect rates s line (.ok reply) after) (hnumber : reply.number? = none)
    (hdefined : ∀ name, reply ≠ .defined name) : after = s := by
  cases h with
  | answered => rfl
  | value => cases hnumber
  | defined => exact absurd rfl (hdefined _)
  | assigned => cases hnumber

/-! ## Failed lines -/

theorem Effect.after_eq_of_error {line : String} {result : Except LineError Reply}
    {e : LineError} (h : Effect rates s line result after) (herror : result = .error e) :
    after = s := by
  induction h generalizing e with
  | refused => rfl
  | failed _ _ _ _ ih => exact ih rfl
  | notNumber _ _ hfunction hinner hnumber =>
      -- The inner line has succeeded, so it matters that it has defined no function.
      refine hinner.after_eq_of_number?_eq_none hnumber ?_
      rintro name rfl
      exact hinner.ne_defined hfunction rfl
  | answered => cases herror
  | value => cases herror
  | defined => cases herror
  | assigned => cases herror

/-- A failed line changes nothing, at whichever assignment of a chain it fails. -/
theorem symbols_of_process_error {rates : RateSource} {s : Symbols} {line : String}
    {e : LineError} (h : (process rates s line).result = .error e) :
    (process rates s line).symbols = s :=
  (effect_process rates s line).after_eq_of_error h

omit [Elementary] in
/-- The inner assignment fails, and `a` keeps its value. -/
theorem symbols_of_process_chain :
    (@process .machine (fun _ _ => none) (({} : Symbols).setVariable "a" 2)
        "a = ans = 1").result = .error (.invalidName "ans") ∧
      (@process .machine (fun _ _ => none) (({} : Symbols).setVariable "a" 2)
        "a = ans = 1").symbols = ({} : Symbols).setVariable "a" 2 := by
  let elementary := Elementary.machine
  have houter : Request.assignment? (trimLine "a = ans = 1") = some ("a", "ans = 1") := by
    decide
  have hinner : Request.assignment? (trimLine "ans = 1") = some ("ans", "1") := by
    decide
  have htarget : targetName "a" = .ok ⟨"a", false⟩ := rfl
  have hrefused : targetName "ans" = .error (.invalidName "ans") := rfl
  have hfunction : definesFunction ⟨"a", false⟩ "ans = 1" = false := by
    rw [definesFunction_of_equals _ (by decide)]
    decide
  have herror : (process (fun _ _ => none) (({} : Symbols).setVariable "a" 2)
      "a = ans = 1").result = .error (.invalidName "ans") := by
    rw [process_of_assignment? houter, htarget]
    dsimp only
    rw [hfunction, if_neg Bool.false_ne_true, process_of_assignment? hinner, hrefused]
    rfl
  exact ⟨herror, symbols_of_process_error herror⟩

end Session
end Calculator
