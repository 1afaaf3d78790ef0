import Calculator.Proofs.Request.Assignment

/-!
# The order of the requests

Assignments come first, then the directives by their first word, then conversions
with an amount that has a value; what is left is arithmetic.
-/

namespace Calculator
namespace Request

/-- The first word of the line is that of a directive. -/
def StartsWithKeyword (line : String) : Prop :=
  ∃ d : Directive, ((Text.words line.toList).map String.ofList).head? = some d.keyword

theorem not_startsWithKeyword_iff {line : String} :
    ¬ StartsWithKeyword line ↔
      ((Text.words line.toList).map String.ofList).head? ≠ some Directive.evaluate.keyword ∧
        ((Text.words line.toList).map String.ofList).head? ≠ some Directive.graph.keyword := by
  rw [StartsWithKeyword, not_exists]
  constructor
  · intro h
    exact ⟨h .evaluate, h .graph⟩
  · rintro ⟨hevaluate, hgraph⟩ d
    cases d with
    | evaluate => exact hevaluate
    | graph => exact hgraph

/-- Behind assignments and directives, currencies are tried before units and units
before arithmetic. -/
theorem classify_of_not_startsWithKeyword {line : String} (s : Symbols)
    (hsides : assignment? line = none) (hfirst : ¬ StartsWithKeyword line) :
    classify line s =
      match conversion? Conversion.currency? line s with
      | some (amount, conversion) => .currency amount conversion
      | none =>
        match conversion? Conversion.unit? line s with
        | some (amount, conversion) => .unit amount conversion
        | none => .arithmetic line := by
  obtain ⟨hevaluate, hgraph⟩ := not_startsWithKeyword_iff.mp hfirst
  rw [classify, hsides]
  exact (if_neg hevaluate).trans (if_neg hgraph)

theorem classify_of_evaluate {line : String} (s : Symbols) (hsides : assignment? line = none)
    (hfirst : ((Text.words line.toList).map String.ofList).head? =
      some Directive.evaluate.keyword) :
    classify line s = .evaluation ((Text.words line.toList).map String.ofList) := by
  rw [classify, hsides]
  dsimp only
  rw [if_pos hfirst]

/-- A line is arithmetic if it is nothing else, and then the whole line is the
expression. -/
theorem classify_eq_arithmetic_iff {line expression : String} {s : Symbols} :
    classify line s = .arithmetic expression ↔
      expression = line ∧ assignment? line = none ∧ ¬ StartsWithKeyword line ∧
        conversion? Conversion.currency? line s = none ∧
          conversion? Conversion.unit? line s = none := by
  cases hsides : assignment? line with
  | some sides => simp [classify, hsides]
  | none =>
      by_cases hfirst : StartsWithKeyword line
      · have hkeyword : classify line s ≠ .arithmetic expression := by
          intro h
          rw [classify, hsides] at h
          obtain ⟨d, hd⟩ := hfirst
          cases d <;> simp [hd, Directive.keyword] at h
        simp [hkeyword, hfirst]
      · rw [classify_of_not_startsWithKeyword s hsides hfirst]
        cases conversion? Conversion.currency? line s with
        | some found => simp
        | none =>
            cases conversion? Conversion.unit? line s with
            | some found => simp
            | none => simp [hfirst, eq_comm]

theorem expression_of_classify {line expression : String} {s : Symbols}
    (h : classify line s = .arithmetic expression) : expression = line :=
  (classify_eq_arithmetic_iff.mp h).1

end Request
end Calculator
