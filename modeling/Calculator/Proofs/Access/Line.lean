import Calculator.Proofs.Access.Call
import Calculator.Proofs.Access.Curve
import Calculator.Proofs.Session.Effect
import Calculator.Session

/-!
# Lines without an access out of range

A line is carried out with every access that the parser and the evaluation make.  Each of them is
in range in every state of the session, so that the line has the outcome that it has without
them.
-/

namespace Calculator
namespace Access

open Session

variable [Elementary]

omit [Elementary] in
/-- Whether the right side of an assignment is the body of a function. -/
def definesFunction? (target : Target) (rhs : String) : Option Bool :=
  (parse? rhs).run.map fun parsed =>
    target.hasParameter ||
      match parsed with
      | .ok body => body.mentions freeVariable
      | .error _ => Text.hasWord 'x' rhs.toList

/-- Answers an arithmetic line. -/
def arithmetic? (s : Symbols) (expression : String) : Option Outcome :=
  (parse? expression >>= evaluate? maxNesting s.outerScope).run.map fun result =>
    match result with
    | .error e => unchanged s (.error (.evaluation e))
    | .ok v => ⟨.ok (.value v), s.setLastAnswer v.toFloat, []⟩

/-- Answers an evaluation of a user function, or its inversion, whose search applies the function
at many points. -/
def evaluateFunction? (s : Symbols) (words : List String) : Option (Except LineError Reply) :=
  match words with
  | [_, name, "for", axis, "==", operand] =>
    match s.operand? operand with
    | none => some (.error (.invalidSyntax .evaluate))
    | some v =>
      match s.functionOf? name with
      | none => some (.error (.undefinedFunction name))
      | some d =>
        if axis = freeVariable then
          (applyDefinition? s name d v).run.map fun result =>
            match result with
            | .ok output => .ok (.functionValue name v output)
            | .error e => .error (.evaluation e)
        else if axis = "y" then
          (Inversion.findInput (fun x => (Value.toFloat <$> applyDefinition? s name d x).run) v).map
            fun found =>
              match found with
              | some input => .ok (.inverted name input v)
              | none => .error (.rootNotFound name v Inversion.maxSteps)
        else some (.error (.invalidVariable axis))
  | _ => some (.error (.invalidSyntax .evaluate))

/-- The samples of a user function for a graph. -/
def sample? (s : Symbols) (name : String) (d : Definition) : Option Samples := do
  let ys ← Graph.samplePoints.mapM fun x =>
    (applyDefinition? s name d x).run.map fun result =>
      match result with
      | .ok v => v.toFloat
      | .error _ => Binary64.nan
  some ⟨name, Graph.samplePoints, ys⟩

/-- Answers a graph. -/
def graph? (s : Symbols) (words : List String) : Option Outcome :=
  match words with
  | [_, name] =>
    match s.functionOf? name with
    | none => some (unchanged s (.error (.undefinedFunction name)))
    | some d => (sample? s name d).map fun samples => ⟨.ok (.graphed name), s, [samples]⟩
  | _ => some (unchanged s (.error (.invalidSyntax .graph)))

/-- Carries out a line. -/
def process? (rates : RateSource) (s : Symbols) (line : String) : Option Outcome :=
  match _hclass : Request.classify (trimLine line) s with
  | .assignment target rhs =>
    match targetName target with
    | .error e => some (unchanged s (.error e))
    | .ok t =>
      match definesFunction? t rhs with
      | none => none
      | some true => some (defineFunction s t.name rhs)
      | some false => (process? rates s rhs).map (assignReply t.name)
  | .evaluation words => (evaluateFunction? s words).map (unchanged s)
  | .graph words => graph? s words
  | .currency amount conversion => some (convertCurrency rates s amount conversion)
  | .unit amount conversion => some (convertUnit s amount conversion)
  | .arithmetic expression => arithmetic? s expression
termination_by line.length
decreasing_by
  exact Nat.lt_of_lt_of_le (Request.length_rhs_lt_of_classify _hclass)
    (Request.length_trimLine_le line)

/-! ## Lines in range -/

omit [Elementary] in
theorem definesFunction?_eq (target : Target) (rhs : String) :
    definesFunction? target rhs = some (definesFunction target rhs) := by
  rw [definesFunction?, parse?_eq]
  rfl

theorem arithmetic?_eq (s : Symbols) (expression : String) :
    arithmetic? s expression = some (arithmetic s expression) := by
  rw [arithmetic?, parse?_eq, Checked.bind_of (evaluate?_eq maxNesting s.outerScope)]
  rfl

omit [Elementary] in
/-- A search at points that all have an outcome has the outcome of the search among these. -/
theorem searchFrom_some (f : Float → Except EvalError Float) (target : Float) (points k : Nat) :
    Inversion.searchFrom (fun x => some (f x)) target points k =
      some (Inversion.searchFrom (m := Id) (fun x => pure (f x)) target points k).run := by
  induction points generalizing k with
  | zero => rfl
  | succ points ih =>
      change (if Inversion.isHit target (f (Inversion.gridPoint k)) = true then
          some (some (Inversion.gridPoint k))
        else Inversion.searchFrom (fun x => some (f x)) target points (k + 1)) =
          some (if Inversion.isHit target (f (Inversion.gridPoint k)) = true then
            pure (some (Inversion.gridPoint k))
          else Inversion.searchFrom (m := Id) (fun x => pure (f x)) target points (k + 1)).run
      split
      · rfl
      · exact ih (k + 1)

theorem evaluateFunction?_eq (s : Symbols) (words : List String) :
    evaluateFunction? s words = some (evaluateFunction s words) := by
  unfold evaluateFunction?
  split
  · next name axis operand =>
      rw [evaluateFunction]
      cases s.operand? operand with
      | none => rfl
      | some v =>
          dsimp only
          cases s.functionOf? name with
          | none => rfl
          | some d =>
              have hsearch : (fun x => (Value.toFloat <$> applyDefinition? s name d x).run) =
                  fun x => some ((s.apply name d x).map Value.toFloat) := by
                funext x
                rw [applyDefinition?_eq, Checked.map_of, Checked.run_of]
              dsimp only
              rw [applyDefinition?_eq, Checked.run_of, Option.map_some, hsearch,
                Inversion.findInput, searchFrom_some]
              split_ifs
              · rfl
              · rfl
              · rfl
  · next hwords =>
      rw [evaluateFunction]
      exact hwords

theorem sample?_eq (s : Symbols) (name : String) (d : Definition) :
    sample? s name d = some (sample s name d) := by
  rw [sample?, sample]
  simp only [applyDefinition?_eq, Checked.run_of, Option.map_some]
  have hys := List.mapM_pure (m := Option) (l := Graph.samplePoints) (f := fun x =>
    match s.apply name d x with
    | .ok v => v.toFloat
    | .error _ => Binary64.nan)
  exact congrArg (· >>= fun ys => some (Samples.mk name Graph.samplePoints ys)) hys

theorem graph?_eq (s : Symbols) (words : List String) : graph? s words = some (graph s words) := by
  unfold graph?
  split
  · next name =>
      rw [graph]
      cases s.functionOf? name with
      | none => rfl
      | some d =>
          dsimp only
          rw [sample?_eq, Option.map_some]
  · next hwords =>
      rw [graph]
      exact hwords

/-- No access is out of range, whatever the state and the line. -/
theorem process?_eq (rates : RateSource) (s : Symbols) (line : String) :
    process? rates s line = some (process rates s line) := by
  induction hlength : line.length using Nat.strongRecOn generalizing line with
  | ind length ih =>
    rw [process?, process_eq]
    split
    case h_1 target rhs hclass =>
      have hshorter : rhs.length < length := by
        rw [← hlength]
        exact Nat.lt_of_lt_of_le (Request.length_rhs_lt_of_classify hclass)
          (Request.length_trimLine_le line)
      rw [hclass]
      dsimp only
      cases targetName target with
      | error e => rfl
      | ok t =>
          dsimp only
          rw [definesFunction?_eq, ih _ hshorter rhs rfl]
          cases definesFunction t rhs with
          | true => rfl
          | false => rfl
    case h_2 words hclass =>
      rw [hclass, evaluateFunction?_eq]
      rfl
    case h_3 words hclass =>
      rw [hclass, graph?_eq]
    case h_4 amount conversion hclass =>
      rw [hclass]
    case h_5 amount conversion hclass =>
      rw [hclass]
    case h_6 expression hclass =>
      rw [hclass, arithmetic?_eq]

/-! ## Graphs -/

omit [Elementary] in
theorem plots_assignReply (name : String) (inner : Outcome) :
    (assignReply name inner).plots = inner.plots := by
  unfold assignReply
  split
  · rfl
  · split
    · rfl
    · rfl

/-- What a line hands to the plotter has as many values as places. -/
theorem length_of_mem_plots {rates : RateSource} {s : Symbols} {line : String} {samples : Samples}
    (h : samples ∈ (process rates s line).plots) : samples.xs.length = samples.ys.length := by
  fun_induction process rates s line with
  | case1 => cases h
  | case2 line target rhs hclass t htarget hfunction =>
      unfold defineFunction at h
      split at h
      · cases h
      · cases h
  | case3 line target rhs hclass t htarget hfunction ih =>
      rw [plots_assignReply] at h
      exact ih h
  | case4 => cases h
  | case5 line words hclass =>
      unfold graph at h
      split at h
      · split at h
        · cases h
        · obtain rfl := List.mem_singleton.mp h
          exact (List.length_map _).symm
      · cases h
  | case6 => cases h
  | case7 => cases h
  | case8 line expression hclass =>
      unfold arithmetic at h
      split at h
      · cases h
      · cases h

/-- No access is out of range: no cut of the scanner and of a number literal, no split of the
operands of a call, no argument of a call, no access of a whole line in any state of the session,
and no sample of a curve through as many values as places, whatever their order. -/
theorem accesses_in_range (rates : RateSource) :
    (∀ text, scan? text = some (Token.scan text.toList)) ∧
    (∀ content, readNumber? content = some (Numeral.read? content.toList)) ∧
    (∀ name count frames operands,
      closeCall? name count frames operands = .of (Yard.closeCall name count frames operands)) ∧
    (∀ scope name arguments, call? (evaluate? maxNesting) scope name arguments =
      .of (scope.call (Scope.evaluate maxNesting) name arguments)) ∧
    (∀ s line, process? rates s line = some (process rates s line)) ∧
    (∀ s line, ∀ samples ∈ (process rates s line).plots,
      samples.xs.length = samples.ys.length) ∧
    ∀ (xs ys : List Float) (x : Float), xs.length = ys.length →
      interpolate? Binary64.nan xs ys x = some (Graph.interpolate Binary64.nan xs ys x) :=
  ⟨scan?_eq, readNumber?_eq, closeCall?_eq, call?_eq (evaluate?_eq maxNesting), process?_eq rates,
    fun _ _ _ h => length_of_mem_plots h, fun _ _ x h => interpolate?_eq Binary64.nan h x⟩

omit [Elementary] in
/-- The identity is drawn with as many values as places, and a curve goes through samples in no
order, one of them without a value. -/
theorem curves_of_identity_and_unordered :
    (∃ samples ∈ (@process .machine (fun _ _ => none)
        (({} : Symbols).define "f" (.ofSource "x")) "graph f").plots,
      samples.name = "f" ∧ samples.xs.length = samples.ys.length) ∧
    interpolate? Binary64.nan [2, 0, 1] [5, Binary64.nan, 7] 1 =
      some (Graph.interpolate Binary64.nan [2, 0, 1] [5, Binary64.nan, 7] 1) := by
  let elementary := Elementary.machine
  let rates : RateSource := fun _ _ => none
  let s := ({} : Symbols).define "f" (.ofSource "x")
  obtain ⟨-, -, -, -, -, hplots, hcurve⟩ := accesses_in_range rates
  constructor
  · have htrim : trimLine "graph f" = "graph f" := by decide +kernel
    have hsides : Request.assignment? "graph f" = none := by decide +kernel
    have hwords : (Text.words "graph f".toList).map String.ofList = ["graph", "f"] := by
      decide +kernel
    have hclass : Request.classify (trimLine "graph f") s = .graph ["graph", "f"] := by
      rw [htrim, Request.classify, hsides, hwords]
      rfl
    have hmem : sample s "f" (.ofSource "x") ∈ (process rates s "graph f").plots := by
      rw [process_eq, hclass]
      exact List.mem_singleton_self _
    exact ⟨_, hmem, rfl, hplots s "graph f" _ hmem⟩
  · have hlength : ([2, 0, 1] : List Float).length = [5, Binary64.nan, 7].length := by
      simp only [List.length_cons]
    exact hcurve [2, 0, 1] [5, Binary64.nan, 7] 1 hlength

end Access
end Calculator
