import Calculator.Proofs.Inversion.FirstHit
import Calculator.Proofs.Session.Directive

/-!
# Functions at a target

The directive `evaluate f for y == v` looks for the first point of the grid at which the
function comes close enough to the target.  The directive is one of six words, so a function
with a space in its name cannot be asked for.
-/

namespace Calculator

namespace Request

theorem lineWords_ne_nil {line : String} {c : Char} (hc : c ∈ line.toList)
    (hblank : Text.isBlank c = false) : lineWords line ≠ [] := by
  intro hnil
  have hall := Text.isBlank_of_words_eq_nil (words_of_lineWords hnil) c hc
  rw [hblank] at hall
  cases hall

/-- A name with a space in it is two words or more. -/
theorem two_le_length_lineWords {name : String} (h : Target.IsName name)
    (hspace : ' ' ∈ name.toList) : 2 ≤ (lineWords name).length := by
  obtain ⟨front, back, hname⟩ := List.append_of_mem hspace
  have hstart : Text.StartsBlank (' ' :: back) := by
    rintro c ⟨⟩
    decide
  have hwords : lineWords name =
      lineWords (String.ofList front) ++ lineWords (String.ofList (' ' :: back)) := by
    rw [lineWords, hname, Text.words_append hstart, List.map_append]
    simp [lineWords]
  have hfront : lineWords (String.ofList front) ≠ [] := by
    obtain ⟨c, hhead, hc⟩ := h.start
    rw [hname] at hhead
    cases front with
    | nil =>
        obtain rfl : ' ' = c := Option.some.inj hhead
        exact absurd hc (by decide)
    | cons d front =>
        obtain rfl : d = c := Option.some.inj hhead
        exact lineWords_ne_nil (by simp) (Target.isBlank_of_isNameStart hc)
  have hback : lineWords (String.ofList (' ' :: back)) ≠ [] := by
    have hne : back ≠ [] := by
      rintro rfl
      exact h.last (by rw [hname, List.getLast?_concat])
    have hlast : back.getLast hne ≠ ' ' := by
      intro heq
      refine h.last ?_
      rw [hname, List.getLast?_append, List.getLast?_cons_of_ne_nil hne,
        List.getLast?_eq_some_getLast hne, heq, Option.some_or]
    have hmem : back.getLast hne ∈ name.toList := by
      rw [hname]
      exact List.mem_append_right _ (List.mem_cons_of_mem _ (List.getLast_mem hne))
    refine lineWords_ne_nil (c := back.getLast hne) (by simp) ?_
    rw [← Bool.not_eq_true]
    exact fun hblank => hlast (Target.isBlank_of_isNameChar (h.chars _ hmem) hblank)
  rw [hwords, List.length_append]
  have hone := List.length_pos_of_ne_nil hfront
  have hone' := List.length_pos_of_ne_nil hback
  omega

end Request

namespace Session

open Inversion

variable [Elementary] {rates : RateSource} {s : Symbols} {name operand token : String}
  {v : Float} {d : Definition}

theorem targetResult_eq (s : Symbols) (name : String) (d : Definition) (v : Float) :
    (∃ k, IsFirstHit (output s name d) v k ∧
      targetResult s name d v = .ok (.inverted name (gridPoint k) v)) ∨
    ((∀ k ≤ maxSteps, ¬ IsHit (output s name d) v k) ∧
      targetResult s name d v = .error (.rootNotFound name v maxSteps)) := by
  rcases findInput_eq (output s name d) v with ⟨k, hfirst, hrun⟩ | ⟨hmisses, hrun⟩
  · exact .inl ⟨k, hfirst, by rw [targetResult, hrun]⟩
  · exact .inr ⟨hmisses, by rw [targetResult, hrun]⟩

/-- The directive has six words, and every other number of words is refused. -/
theorem evaluateFunction_of_length {words : List String} (h : words.length ≠ 6) :
    evaluateFunction s words = .error (.invalidSyntax .evaluate) := by
  unfold evaluateFunction
  split
  · exact absurd rfl h
  · rfl

theorem process_evaluateLine_of_space {axis : String} (hname : Target.IsName name)
    (hspace : ' ' ∈ name.toList) (haxis : Request.lineWords axis = [axis])
    (hoperand : Request.lineWords operand = [token]) :
    process rates s (Request.evaluateLine name axis operand) =
      unchanged s (.error (.invalidSyntax .evaluate)) := by
  have hwords := Request.lineWords_evaluateLine name axis operand
  rw [haxis, hoperand] at hwords
  have htwo := Request.two_le_length_lineWords hname hspace
  have hlength : ("evaluate" :: (Request.lineWords name ++
      "for" :: ([axis] ++ ["==", token]))).length ≠ 6 := by
    simp only [List.length_cons, List.length_append, List.length_nil]
    omega
  rw [process_of_evaluate_words hwords (by simp), evaluateFunction_of_length hlength]

/-- The search applies a function to the points of the grid in order, up to the first hit
and no further, or to all of them if there is none; it passes over the points where the
function fails or gives no number.  So the directive replies with the first hit of a stored
function, or with the error that there is none, and leaves the symbols as they are.  A
function with a space in its name is not found by it. -/
theorem inversion_finds_first_hit (rates : RateSource) (hs : Reachable s)
    (hfunction : s.functionOf? name = some d) (hwords : Request.lineWords operand = [token])
    (hoperand : s.operand? token = some v) :
    (∀ (f : Float → Except EvalError Float) (target : Float),
      (∃ k, IsFirstHit f target k ∧
        (findInput (logged f) target).run [] =
          (some (gridPoint k), (List.range (k + 1)).map gridPoint)) ∨
      ((∀ k ≤ maxSteps, ¬ IsHit f target k) ∧
        (findInput (logged f) target).run [] =
          (none, (List.range (maxSteps + 1)).map gridPoint))) ∧
    (∀ (f : Float → Except EvalError Float) (target y : Float) (k : Nat),
      f (gridPoint k) = .ok y → y.isNaN = true ∨ target.isNaN = true → ¬ IsHit f target k) ∧
    (' ' ∉ name.toList →
      (∃ k, IsFirstHit (output s name d) v k ∧
        process rates s (Request.evaluateLine name "y" operand) =
          unchanged s (.ok (.inverted name (gridPoint k) v))) ∨
      ((∀ k ≤ maxSteps, ¬ IsHit (output s name d) v k) ∧
        process rates s (Request.evaluateLine name "y" operand) =
          unchanged s (.error (.rootNotFound name v maxSteps)))) ∧
    (' ' ∈ name.toList →
      process rates s (Request.evaluateLine name "y" operand) =
        unchanged s (.error (.invalidSyntax .evaluate))) := by
  have hstorable : Storable name := hs.storable_of_functionOf? hfunction
  have haxis : Request.lineWords "y" = ["y"] := by decide
  refine ⟨run_findInput, fun _ _ _ _ => not_isHit_of_isNaN, ?_, ?_⟩
  · intro hspace
    have hname : Token.IsIdentifier name := hstorable.form.isIdentifier hspace
    have hline := Request.lineWords_evaluateLine_of_identifier hname haxis hwords
    rw [process_of_target_words hline hoperand hfunction]
    rcases targetResult_eq s name d v with ⟨k, hfirst, hresult⟩ | ⟨hmisses, hresult⟩
    · exact .inl ⟨k, hfirst, by rw [hresult]⟩
    · exact .inr ⟨hmisses, by rw [hresult]⟩
  · intro hspace
    exact process_evaluateLine_of_space hstorable.form hspace haxis hwords

omit [Elementary] in
/-- The identity comes to one at the tenth point behind zero. -/
theorem identity_inverted :
    ∃ s, @Reachable .machine s ∧ s.functionOf? "f" = some (.ofSource "x") ∧
      @process .machine (fun _ _ => none) s "evaluate f for y == 1" =
        unchanged s (.ok (.inverted "f" (gridPoint 10) 1)) := by
  let elementary := Elementary.machine
  let rates : RateSource := fun _ _ => none
  let s := ({} : Symbols).define "f" (.ofSource "x")
  have hs := Reachable.new.process rates "f(x) = x"
  rw [(process_identity_call rates).1] at hs
  have hfunction : s.functionOf? "f" = some (.ofSource "x") := rfl
  have hwords : Request.lineWords "1" = ["1"] := by decide
  have hoperand : s.operand? "1" = some 1 := by decide +kernel
  have houtput : ∀ x, output s "f" (.ofSource "x") x = .ok x := by
    intro x
    rw [output, apply_identity]
    rfl
  have hhit : IsHit (output s "f" (.ofSource "x")) 1 10 :=
    ⟨gridPoint 10, houtput _, by decide +kernel⟩
  have hmiss : ∀ j < 10, ¬ IsHit (output s "f" (.ofSource "x")) 1 j := by
    rintro j hj ⟨y, hy, hclose⟩
    rw [houtput] at hy
    obtain rfl := Except.ok.inj hy
    have hfar : ∀ j < 10, ¬ (gridPoint j - 1).abs ≤ tolerance := by decide +kernel
    exact hfar j hj hclose
  obtain ⟨-, -, hfound, -⟩ := inversion_finds_first_hit rates hs hfunction hwords hoperand
  rcases hfound (by decide) with ⟨k, hfirst, hprocess⟩ | ⟨hmisses, -⟩
  · obtain rfl : k = 10 := by
      rcases Nat.lt_trichotomy k 10 with hk | hk | hk
      · exact absurd hfirst.hit (hmiss k hk)
      · exact hk
      · exact absurd hhit (hfirst.first 10 hk)
    exact ⟨s, hs, hfunction, hprocess⟩
  · exact absurd hhit (hmisses 10 (by decide))

omit [Elementary] in
/-- With a space in its name the identity is not asked for its inverse. -/
theorem not_forall_inverted :
    ¬ ∀ (s : Symbols) (name operand token : String) (v : Float) (d : Definition),
      @Reachable .machine s → s.functionOf? name = some d →
      Request.lineWords operand = [token] → s.operand? token = some v →
        (∃ k, IsFirstHit (@output .machine s name d) v k ∧
          @process .machine (fun _ _ => none) s (Request.evaluateLine name "y" operand) =
            unchanged s (.ok (.inverted name (gridPoint k) v))) ∨
        ((∀ k ≤ maxSteps, ¬ IsHit (@output .machine s name d) v k) ∧
          @process .machine (fun _ _ => none) s (Request.evaluateLine name "y" operand) =
            unchanged s (.error (.rootNotFound name v maxSteps))) := by
  let elementary := Elementary.machine
  let rates : RateSource := fun _ _ => none
  intro h
  have hsides : Request.assignment? (trimLine "f g(x) = x") = some ("f g(x)", "x") := by decide
  have htarget : targetName "f g(x)" = .ok ⟨"f g", true⟩ := rfl
  have hs := Reachable.new.process rates "f g(x) = x"
  rw [process_of_assignment? hsides, htarget] at hs
  have hfunction : (({} : Symbols).define "f g" (.ofSource "x")).functionOf? "f g" =
      some (.ofSource "x") := rfl
  have hwords : Request.lineWords "0" = ["0"] := by decide
  have hrefused : process rates (({} : Symbols).define "f g" (.ofSource "x"))
      (Request.evaluateLine "f g" "y" "0") =
        unchanged (({} : Symbols).define "f g" (.ofSource "x"))
          (.error (.invalidSyntax .evaluate)) :=
    process_evaluateLine_of_space (hs.storable_of_functionOf? hfunction).form (by decide)
      (by decide) hwords
  rcases h _ "f g" "0" "0" 0 (.ofSource "x") hs hfunction hwords (by decide +kernel) with
    ⟨k, -, hprocess⟩ | ⟨-, hprocess⟩
  · cases hrefused.symm.trans hprocess
  · cases hrefused.symm.trans hprocess

end Session
end Calculator
