import Calculator.Proofs.Request.Assignment
import Calculator.Session

/-!
# What a line does to the symbols

The outcomes of a line with their effect on the symbols, chained assignments
included.  What is said about all lines is proved by induction on this relation,
so that the handlers of the requests are opened here only.
-/

namespace Calculator
namespace Session

/-- The replies that leave the symbols alone. -/
def isQuery : Reply → Bool
  | .value _ => false
  | .assigned _ _ => false
  | .defined _ => false
  | _ => true

variable [Elementary]

/-- The lines with their results and the symbols after them. -/
inductive Effect (rates : RateSource) (s : Symbols) :
    (line : String) → (result : Except LineError Reply) → (after : Symbols) → Prop where
  | refused (line : String) (e : LineError) : Effect rates s line (.error e) s
  | answered (line : String) {reply : Reply} (hquery : isQuery reply = true) :
      Effect rates s line (.ok reply) s
  | value {line expression : String} {v : Value}
      (hclass : Request.classify (trimLine line) s = .arithmetic expression)
      (hvalue : Expr.parse expression >>= s.evaluate = .ok v) :
      Effect rates s line (.ok (.value v)) (s.setLastAnswer v.toFloat)
  | defined {line target rhs : String} {t : Target}
      (hsides : Request.assignment? (trimLine line) = some (target, rhs))
      (htarget : targetName target = .ok t) (hfunction : definesFunction t rhs = true)
      (hne : rhs ≠ "") :
      Effect rates s line (.ok (.defined t.name)) (s.define t.name (.ofSource rhs))
  | assigned {line target rhs : String} {t : Target} {reply : Reply} {v : Float}
      {after : Symbols}
      (hsides : Request.assignment? (trimLine line) = some (target, rhs))
      (htarget : targetName target = .ok t) (hfunction : definesFunction t rhs = false)
      (hinner : Effect rates s rhs (.ok reply) after) (hnumber : reply.number? = some v) :
      Effect rates s line (.ok (.assigned t.name v)) (after.setVariable t.name v)
  | notNumber {line target rhs : String} {t : Target} {reply : Reply} {after : Symbols}
      (hsides : Request.assignment? (trimLine line) = some (target, rhs))
      (htarget : targetName target = .ok t) (hfunction : definesFunction t rhs = false)
      (hinner : Effect rates s rhs (.ok reply) after) (hnumber : reply.number? = none) :
      Effect rates s line (.error (.evaluation .notANumber)) after
  | failed {line target rhs : String} {t : Target} {e : LineError} {after : Symbols}
      (hsides : Request.assignment? (trimLine line) = some (target, rhs))
      (htarget : targetName target = .ok t) (hfunction : definesFunction t rhs = false)
      (hinner : Effect rates s rhs (.error e) after) :
      Effect rates s line (.error e) after

variable {rates : RateSource} {s : Symbols}

/-! ## The handlers -/

/-- A target is accepted with the name it is read with. -/
theorem targetName_eq_ok {target : String} {t : Target} (h : targetName target = .ok t) :
    Target.read? target = some t ∧ Builtin.isName t.name = false ∧ t.name ∉ reserved := by
  unfold targetName at h
  split at h
  · cases h
  · rename_i hread
    split at h
    · cases h
    · rename_i hfree
      cases h
      rw [Bool.or_eq_true, not_or, Bool.not_eq_true, List.contains_iff_mem] at hfree
      exact ⟨hread, hfree⟩

theorem isQuery_evaluateFunction {words : List String} {reply : Reply}
    (h : evaluateFunction s words = .ok reply) : isQuery reply = true := by
  unfold evaluateFunction at h
  dsimp only at h
  repeat' split at h
  all_goals cases h
  all_goals rfl

/-- A result that can only be that of a query leaves the symbols alone. -/
theorem effect_of_queries (line : String) {result : Except LineError Reply}
    (hqueries : ∀ reply, result = .ok reply → isQuery reply = true) :
    Effect rates s line result s := by
  cases result with
  | error e => exact .refused line e
  | ok reply => exact .answered line (hqueries reply rfl)

theorem effect_evaluateFunction (line : String) (words : List String) :
    Effect rates s line (evaluateFunction s words) s :=
  effect_of_queries line fun _ h => isQuery_evaluateFunction h

theorem effect_graph (line : String) (words : List String) :
    Effect rates s line (graph s words).result (graph s words).symbols := by
  unfold graph
  split
  · split
    · exact .refused line _
    · exact .answered line rfl
  · exact .refused line _

theorem effect_convertCurrency (line : String) (amount : Float) (c : Conversion) :
    Effect rates s line (convertCurrency rates s amount c).result
      (convertCurrency rates s amount c).symbols := by
  refine effect_of_queries line ?_
  intro reply h
  unfold convertCurrency unchanged at h
  dsimp only at h
  split at h
  · cases h
    rfl
  · cases h

theorem effect_convertUnit (line : String) (amount : Float) (c : Conversion) :
    Effect rates s line (convertUnit s amount c).result
      (convertUnit s amount c).symbols := by
  refine effect_of_queries line ?_
  intro reply h
  unfold convertUnit unchanged at h
  dsimp only at h
  split at h
  · cases h
    rfl
  · cases h

theorem effect_arithmetic {line expression : String}
    (hclass : Request.classify (trimLine line) s = .arithmetic expression) :
    Effect rates s line (arithmetic s expression).result
      (arithmetic s expression).symbols := by
  unfold arithmetic
  split
  · exact .refused line _
  · rename_i v hvalue
    exact .value hclass hvalue

theorem effect_defineFunction {line target rhs : String} {t : Target}
    (hsides : Request.assignment? (trimLine line) = some (target, rhs))
    (htarget : targetName target = .ok t) (hfunction : definesFunction t rhs = true) :
    Effect rates s line (defineFunction s t.name rhs).result
      (defineFunction s t.name rhs).symbols := by
  unfold defineFunction
  split
  · exact .refused line _
  · rename_i hempty
    refine .defined hsides htarget hfunction ?_
    rintro rfl
    exact hempty rfl

theorem effect_assignReply {line target rhs : String} {t : Target} {inner : Outcome}
    (hsides : Request.assignment? (trimLine line) = some (target, rhs))
    (htarget : targetName target = .ok t) (hfunction : definesFunction t rhs = false)
    (hinner : Effect rates s rhs inner.result inner.symbols) :
    Effect rates s line (assignReply t.name inner).result
      (assignReply t.name inner).symbols := by
  unfold assignReply
  split
  · rename_i e hresult
    rw [hresult] at hinner
    exact .failed hsides htarget hfunction hinner
  · rename_i reply hresult
    rw [hresult] at hinner
    split
    · rename_i hnumber
      exact .notNumber hsides htarget hfunction hinner hnumber
    · rename_i v hnumber
      exact .assigned hsides htarget hfunction hinner hnumber

/-! ## The line -/

/-- The request that a line is sorted into decides what the line does. -/
theorem process_eq (rates : RateSource) (s : Symbols) (line : String) :
    process rates s line =
      match Request.classify (trimLine line) s with
      | .assignment target rhs =>
        match targetName target with
        | .error e => unchanged s (.error e)
        | .ok t =>
          if definesFunction t rhs then defineFunction s t.name rhs
          else assignReply t.name (process rates s rhs)
      | .evaluation words => unchanged s (evaluateFunction s words)
      | .graph words => graph s words
      | .currency amount conversion => convertCurrency rates s amount conversion
      | .unit amount conversion => convertUnit s amount conversion
      | .arithmetic expression => arithmetic s expression := by
  rw [process]
  split
  case h_1 target rhs hclass =>
    cases htarget : targetName target with
    | error e => simp only [hclass, htarget]
    | ok t => simp only [hclass, htarget]
  all_goals
    rename_i hclass
    simp only [hclass]

/-- The sides of an assignment decide what the line does. -/
theorem process_of_assignment? {line target rhs : String}
    (hsides : Request.assignment? (trimLine line) = some (target, rhs)) :
    process rates s line =
      match targetName target with
      | .error e => unchanged s (.error e)
      | .ok t =>
        if definesFunction t rhs then defineFunction s t.name rhs
        else assignReply t.name (process rates s rhs) := by
  rw [process_eq, Request.classify_of_assignment? s hsides]

/-- Every line has one of the effects. -/
theorem effect_process (rates : RateSource) (s : Symbols) (line : String) :
    Effect rates s line (process rates s line).result (process rates s line).symbols := by
  fun_induction process rates s line with
  | case1 line target rhs hclass e htarget => exact .refused line e
  | case2 line target rhs hclass t htarget hfunction =>
      exact effect_defineFunction (Request.assignment?_of_classify hclass) htarget hfunction
  | case3 line target rhs hclass t htarget hfunction ih =>
      exact effect_assignReply (Request.assignment?_of_classify hclass) htarget
        (Bool.eq_false_iff.mpr hfunction) ih
  | case4 line words hclass => exact effect_evaluateFunction line words
  | case5 line words hclass => exact effect_graph line words
  | case6 line amount conversion hclass => exact effect_convertCurrency line amount conversion
  | case7 line amount conversion hclass => exact effect_convertUnit line amount conversion
  | case8 line expression hclass => exact effect_arithmetic hclass

/-! ## Sessions -/

/-- The symbols that a sequence of lines and clearings leads to, each line with
the rates of its time. -/
inductive Reachable : Symbols → Prop where
  | new : Reachable {}
  | process {s : Symbols} (h : Reachable s) (rates : RateSource) (line : String) :
      Reachable (process rates s line).symbols
  | clear {s : Symbols} (h : Reachable s) : Reachable s.clear

/-- What holds in a new session and is kept by every effect and by clearing holds
throughout. -/
theorem Reachable.invariant {P : Symbols → Prop} (hnew : P {})
    (heffect : ∀ {rates s line result after}, P s → Effect rates s line result after → P after)
    (hclear : ∀ {s}, P s → P s.clear) {s : Symbols} (h : Reachable s) : P s := by
  induction h with
  | new => exact hnew
  | process _ rates line ih => exact heffect ih (effect_process rates _ line)
  | clear _ ih => exact hclear ih

end Session
end Calculator
