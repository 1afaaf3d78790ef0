import Calculator.Proofs.Evaluation.Soundness

/-!
# The limits only cut off

The evaluator and the rules agree up to the limits.  A derivation that stays
within both limits is what the evaluator computes, and whatever the evaluator
computes without running into a limit is the one result that the rules give.
-/

namespace Calculator
namespace Evaluation

variable [Elementary]

theorem evaluates_iff {s : Symbols} {e : Expr} {result : Except EvalError Value}
    (h : s.evaluate e = result) (hresult : isCutOff result = false)
    (result' : Except EvalError Value) : Evaluates s e result' ↔ result' = result := by
  obtain ⟨entries, nesting, -, -, hderived⟩ := isJustified s maxNesting h hresult
  constructor
  · rintro ⟨entries', nesting', hderived'⟩
    exact hderived.result_unique hderived'
  · rintro rfl
    exact ⟨entries, nesting, hderived⟩

theorem applies_iff {s : Symbols} {name : String} {d : Definition} {input : Float}
    {result : Except EvalError Value} (h : s.apply name d input = result)
    (hresult : isCutOff result = false) (result' : Except EvalError Value) :
    Applies s d input result' ↔ result' = result := by
  have hentry : DerivableWithin s maxCallDepth maxNesting (.entry d input result) :=
    IsJustified.entry (isJustified s maxNesting) h hresult
  obtain ⟨entries, nesting, -, -, hderived⟩ := hentry
  constructor
  · rintro ⟨entries', nesting', hderived'⟩
    exact hderived.output_unique hderived'
  · rintro rfl
    exact ⟨entries, nesting, hderived⟩

/-- A result that is not cut off is the one that the rules give, and a result with
a derivation inside the limits is computed.  Both hold of expressions and of
functions applied to a number. -/
theorem limits_only_cut_off (s : Symbols) :
    (∀ e result, s.evaluate e = result → isCutOff result = false →
      ∀ result', Evaluates s e result' ↔ result' = result) ∧
    (∀ e result entries nesting, Derivable s (.expression none e result) entries nesting →
      entries ≤ 64 → nesting ≤ 2000 → s.evaluate e = result) ∧
    (∀ name d input result, s.apply name d input = result → isCutOff result = false →
      ∀ result', Applies s d input result' ↔ result' = result) ∧
    (∀ name d input result entries nesting,
      Derivable s (.entry d input result) entries nesting →
        entries ≤ 64 → nesting ≤ 2000 → s.apply name d input = result) := by
  refine ⟨?_, ?_, ?_, ?_⟩
  · intro e result h hresult
    exact evaluates_iff h hresult
  · intro e result entries nesting hderived hentries hnesting
    exact hderived.isComputed hentries hnesting
  · intro name d input result h hresult
    exact applies_iff h hresult
  · intro name d input result entries nesting hderived hentries hnesting
    exact hderived.isComputed hentries hnesting none name

omit [Elementary] in
/-- A call of the identity has the one result that the rules give it. -/
theorem evaluate_identity_call :
    @Symbols.evaluate .machine (({} : Symbols).define "f" (.ofSource "x"))
        (.call "f" [.number 3]) = .ok (.number 3) ∧
      ∀ result, @Evaluates .machine (({} : Symbols).define "f" (.ofSource "x"))
        (.call "f" [.number 3]) result ↔ result = .ok (.number 3) := by
  let elementary := Elementary.machine
  have hscan : Token.scan ['x'] = ⟨[.identifier "x"], none⟩ :=
    Token.scan_of_first? (by decide) (by decide) rfl Token.scan_nil
  have hparse : Expr.parse (Definition.ofSource "x").source = .ok (.identifier "x") := by
    rw [Expr.parse, show (Definition.ofSource "x").source.toList = ['x'] from rfl, hscan]
    rfl
  have hbuiltin : Builtin.find? "f" = none := rfl
  have hfind : (({} : Symbols).define "f" (.ofSource "x")).find? "f" =
      some (.function (.ofSource "x")) := by
    rw [Symbols.define, Symbols.find?_store, if_pos rfl]
  have hbody : Derivable (({} : Symbols).define "f" (.ofSource "x"))
      (.expression (some 3) (.identifier "x") (.ok (.number 3))) 0 1 :=
    .identifier (.bound rfl)
  have hcall := Derivable.call
    (.moreArguments (.number none 3) (.noArguments none))
    (.userCall hbuiltin hfind (.body hparse hbody))
  have hevaluate := (limits_only_cut_off _).2.1 _ _ _ _ hcall (by decide) (by decide)
  exact ⟨hevaluate, (limits_only_cut_off _).1 _ _ hevaluate rfl⟩

end Evaluation
end Calculator
