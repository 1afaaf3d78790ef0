import Calculator.Proofs.Request.Named
import Calculator.Proofs.Session.Changes
import Calculator.Proofs.Session.Namespace

/-!
# What a variable stands for

Expressions look names up while they are evaluated; conversions and directives look
theirs up before, and try to read a number first.  The two ways agree on every
variable but those with the name of a number.
-/

namespace Calculator

/-! ## Looking a variable up -/

namespace Symbols

variable {s : Symbols} {name : String} {v : Float}

theorem find?_of_valueOf? (h : s.valueOf? name = some v) :
    s.find? name = some (.variable v) := by
  unfold valueOf? at h
  split at h
  · rename_i hfind
    cases h
    exact hfind
  · cases h

/-- A variable is the operand of its name, unless the name reads as a number. -/
theorem operand?_of_valueOf? (hvalue : s.valueOf? name = some v)
    (hname : Token.IsIdentifier name) (hanswer : name ≠ lastAnswerName)
    (hword : ¬ Decimal.IsNumberWord name.toList) : s.operand? name = some v := by
  rw [operand?, Decimal.read?_of_isIdentifier hname, Decimal.readWord?_eq_none hword]
  dsimp only
  rw [if_neg (by simpa using hanswer), hvalue]

end Symbols

namespace Session

variable [Elementary]

theorem Reachable.storable_of_valueOf? {s : Symbols} (hs : Reachable s) {name : String}
    {v : Float} (h : s.valueOf? name = some v) : Storable name :=
  hs.orderly.storable name _ (Symbols.mem_entries_of_find? (Symbols.find?_of_valueOf? h))

theorem Storable.ne_of_mem_reserved {name other : String} (hname : Storable name)
    (h : other ∈ reserved) : name ≠ other := by
  rintro rfl
  exact hname.unreserved h

theorem Storable.ne_keyword {name : String} (hname : Storable name) (d : Directive) :
    name ≠ d.keyword := by
  refine hname.ne_of_mem_reserved ?_
  cases d <;> decide

/-- Inside every function and outside, a variable resolves to its value. -/
theorem Storable.resolve_eq {s : Symbols} {name : String} {v : Float} (hname : Storable name)
    (hvalue : s.valueOf? name = some v) (argument : Option Float) (callsLeft : Nat) :
    Scope.resolve ⟨s, argument, callsLeft⟩ name = .ok v := by
  have hargument : (name == freeVariable) = false := by
    have hne : name ≠ freeVariable := hname.ne_of_mem_reserved (by decide)
    simpa using hne
  unfold Scope.resolve
  split
  · rename_i hfree
    rw [hargument] at hfree
    cases hfree
  · rw [hname.find?_builtin]
    dsimp only
    rw [Symbols.find?_of_valueOf? hvalue]

/-! ## The lines with a name for a number -/

/-- Wherever the name takes the place of a number, it stands for the value. -/
structure StandsFor (rates : RateSource) (s : Symbols) (name : String) (v : Float) : Prop where
  resolve : ∀ argument callsLeft, Scope.resolve ⟨s, argument, callsLeft⟩ name = .ok v
  arithmetic : ∀ line, Request.lineWords line = [name] →
    process rates s line = ⟨.ok (.value (.number v)), { s with lastAnswer := v }, []⟩
  unit : ∀ line source word target u,
    Request.lineWords line = [name, source, word, target] → Conversion.IsTo word.toList →
    UnitConversion.find? (source ++ " to " ++ target) = some u →
      process rates s line = unchanged s (.ok (.unit v source target (u.apply v)))
  currency : ∀ line source word target,
    Request.lineWords line = [name, source, word, target] → Conversion.IsTo word.toList →
    Conversion.currencies.Admits source.toList → Conversion.currencies.Admits target.toList →
      process rates s line =
        unchanged s
          (match rates (source.map Char.toUpper) (target.map Char.toUpper) with
          | some rate =>
            .ok (.currency v (source.map Char.toUpper) (target.map Char.toUpper) (v * rate))
          | none =>
            .error (.conversionUnavailable (source.map Char.toUpper) (target.map Char.toUpper)))
  input : ∀ line f d, Request.lineWords line = ["evaluate", f, "for", "x", "==", name] →
    s.functionOf? f = some d →
      process rates s line =
        unchanged s
          (match s.apply f d v with
          | .ok output => .ok (.functionValue f v output)
          | .error e => .error (.evaluation e))
  target : ∀ line f d, Request.lineWords line = ["evaluate", f, "for", "y", "==", name] →
    s.functionOf? f = some d →
      process rates s line =
        unchanged s
          (match Id.run (Inversion.findInput
              (fun x => pure ((s.apply f d x).map Value.toFloat)) v) with
          | some found => .ok (.inverted f found v)
          | none => .error (.rootNotFound f v Inversion.maxSteps))

variable {rates : RateSource} {s : Symbols} {name line : String} {v : Float}

/-- A line of one word that is an expression is replied to with its value. -/
theorem process_of_word {word : String} {e : Expr} {value : Value}
    (hwords : Request.lineWords line = [word]) (hequals : '=' ∉ word.toList)
    (hkeyword : ∀ d : Directive, word ≠ d.keyword) (hparse : Expr.parse word = .ok e)
    (hvalue : s.evaluate e = .ok value) :
    process rates s line = ⟨.ok (.value value), s.setLastAnswer value.toFloat, []⟩ := by
  obtain ⟨-, -, -, -, hword, -⟩ :=
    Text.exists_of_words_eq_cons (Request.words_of_lineWords hwords)
  rw [process_eq, Request.trimLine_of_lineWords hwords,
    Request.classify_of_isWord s hword hequals hkeyword]
  dsimp only
  rw [Session.arithmetic, hparse, Support.ok_bind, hvalue]

theorem process_of_identifier (hname : Storable name) (hidentifier : Token.IsIdentifier name)
    (hvalue : s.valueOf? name = some v) (hwords : Request.lineWords line = [name]) :
    process rates s line = ⟨.ok (.value (.number v)), s.setLastAnswer v, []⟩ := by
  have hevaluate : s.evaluate (.identifier name) = .ok (.number v) := by
    have hresolve := hname.resolve_eq hvalue none maxCallDepth
    rw [Symbols.evaluate, Symbols.outerScope, maxNesting, maxTreeHeight, Scope.evaluate,
      hresolve]
    rfl
  exact process_of_word hwords hidentifier.equals_not_mem hname.ne_keyword hidentifier.parse_eq
    hevaluate

theorem process_of_evaluate_words {ws : List String}
    (hwords : Request.lineWords line = "evaluate" :: ws) (hequals : "==" ∈ ws) :
    process rates s line = unchanged s (evaluateFunction s ("evaluate" :: ws)) := by
  have htrimmed := (Request.lineWords_trimLine line).trans hwords
  rw [process_eq, Request.classify_of_evaluate_words s htrimmed hequals]
  rfl

/-- In every session a variable without spaces in its name has the same value in
expressions, conversions and directives, unless the name reads as infinity or NaN. -/
theorem standsFor_of_reachable (rates : RateSource) (hs : Reachable s)
    (hvalue : s.valueOf? name = some v) (hspace : ' ' ∉ name.toList)
    (hword : ¬ Decimal.IsNumberWord name.toList) : StandsFor rates s name v := by
  have hname : Storable name := hs.storable_of_valueOf? hvalue
  have hidentifier : Token.IsIdentifier name := hname.form.isIdentifier hspace
  have hanswer : name ≠ lastAnswerName := hname.ne_of_mem_reserved (by decide)
  have hoperand : s.operand? name = some v :=
    Symbols.operand?_of_valueOf? hvalue hidentifier hanswer hword
  constructor
  case resolve => exact hname.resolve_eq hvalue
  case arithmetic =>
    intro line hwords
    exact process_of_identifier hname hidentifier hvalue hwords
  case unit =>
    intro line source word target u hwords hto hfind
    have htrimmed := (Request.lineWords_trimLine line).trans hwords
    rw [process_eq, Request.classify_of_unit_words (Request.startsBlankless_trimLine line)
      htrimmed hidentifier hname.ne_keyword hto hoperand (UnitConversion.isPair_of_find? hfind)]
    dsimp only
    rw [convertUnit, Conversion.key, hfind]
  case currency =>
    intro line source word target hwords hto hsource htarget
    have htrimmed := (Request.lineWords_trimLine line).trans hwords
    rw [process_eq, Request.classify_of_currency_words (Request.startsBlankless_trimLine line)
      htrimmed hidentifier hname.ne_keyword hto hoperand hsource htarget]
    rfl
  case input =>
    intro line f d hwords hf
    rw [process_of_evaluate_words hwords (by simp), evaluateFunction, hoperand]
    dsimp only
    rw [hf]
    have haxis : "x" = freeVariable := rfl
    exact congrArg (unchanged s) (if_pos haxis)
  case target =>
    intro line f d hwords hf
    rw [process_of_evaluate_words hwords (by simp), evaluateFunction, hoperand]
    dsimp only
    rw [hf]
    dsimp only
    have haxis : "y" ≠ freeVariable := by decide
    rw [if_neg haxis, if_pos rfl]
    rfl

omit [Elementary] in
/-- A width that is stored under a name is converted like one in digits. -/
theorem process_named_width :
    ∃ s, @Reachable .machine s ∧ s.valueOf? "w" = some 3 ∧
      @process .machine (fun _ _ => none) s "w cm to in" =
        unchanged s (.ok (.unit 3 "cm" "in" (3 / 2.54))) := by
  let elementary := Elementary.machine
  have hsides : Request.assignment? (trimLine "w = 3") = some ("w", "3") := by decide
  have hreachable := Reachable.new.process (fun _ _ => none) "w = 3"
  rw [process_bind_three _ _ hsides rfl] at hreachable
  have hvalue : ((({} : Symbols).setLastAnswer 3).setVariable "w" 3).valueOf? "w" = some 3 := rfl
  have hstands := standsFor_of_reachable (fun _ _ => none) hreachable hvalue
    (by decide) (by decide)
  exact ⟨_, hreachable, hvalue, hstands.unit "w cm to in" "cm" "to" "in" _ (by decide +kernel)
    ⟨'t', 'o', rfl, rfl, rfl⟩ rfl⟩

omit [Elementary] in
/-- A variable may have the name of a number, and is then passed over. -/
theorem not_forall_standsFor :
    ¬ ∀ (s : Symbols) (name : String) (v : Float), @Reachable .machine s →
      s.valueOf? name = some v → ' ' ∉ name.toList →
        @StandsFor .machine (fun _ _ => none) s name v := by
  let elementary := Elementary.machine
  intro h
  have hsides : Request.assignment? (trimLine "inf = 3") = some ("inf", "3") := by decide
  have hreachable := Reachable.new.process (fun _ _ => none) "inf = 3"
  rw [process_bind_three _ _ hsides rfl] at hreachable
  have hunit := (h _ "inf" 3 hreachable rfl (by decide)).unit "inf cm to in" "cm" "to" "in" _
    (by decide +kernel) ⟨'t', 'o', rfl, rfl, rfl⟩ rfl
  have hclass : Request.classify (trimLine "inf cm to in")
      ((({} : Symbols).setLastAnswer 3).setVariable "inf" 3) =
        .unit Binary64.infinity ⟨.name "inf", "cm", "in"⟩ := rfl
  rw [process_eq, hclass] at hunit
  have hresult := congrArg Outcome.result hunit
  injection hresult with hreply
  injection hreply with hamount
  exact absurd hamount (by decide)

end Session
end Calculator
