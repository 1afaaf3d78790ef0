import Calculator.Proofs.Grammar.Completeness
import Calculator.Proofs.Grammar.Soundness

/-!
# Parsing is derivation

The two-stack parser and the precedence grammar agree: tokens are parsed to the
tree that they derive, up to the limit on heights, and to an error if they derive
none.
-/

namespace Calculator
namespace Grammar

open Support

/-- A text without stray characters is parsed as its tokens are. -/
theorem parse_eq_ofTokens
    {text : String} (h : (Token.scan text.toList).stopped = none) :
    Expr.parse text = Expr.ofTokens (Token.scan text.toList).tokens := by
  rw [Expr.parse, Expr.ofScanned, Expr.ofTokens, h]

/-- A text is parsed only if it is scanned to its end, and then as its tokens
are. -/
theorem ofTokens_of_parse
    {text : String} {t : Expr} (h : Expr.parse text = .ok t) :
    (Token.scan text.toList).stopped = none ∧
      Expr.ofTokens (Token.scan text.toList).tokens = .ok t := by
  have hstopped : (Token.scan text.toList).stopped = none := by
    rw [Expr.parse, Expr.ofScanned, bind_eq_ok_iff] at h
    obtain ⟨p, -, hrest⟩ := h
    split at hrest
    · cases hrest
    · assumption
  exact ⟨hstopped, parse_eq_ofTokens hstopped ▸ h⟩

/-- A parsed tree is within the limit on heights. -/
theorem height_le_of_parse
    {text : String} {t : Expr} (h : Expr.parse text = .ok t) : t.height ≤ maxTreeHeight :=
  (derives_of_ofTokens (ofTokens_of_parse h).2).2

end Grammar
end Calculator
