import Calculator.Proofs.Binary64.NotANumber
import Calculator.Proofs.Grammar.FreeVariable
import Calculator.Proofs.Request.Identifier
import Calculator.Proofs.Token.NormalForm

/-!
# The numbers in a tree

Every number in the tree of a text is a literal of it.  A literal begins with a digit or a
point, so none of the words for infinity and NaN is read from it, and its digits may stand
for an infinity but never for a NaN.
-/

namespace Calculator

/-- The number stands somewhere in the expression. -/
inductive Expr.HasNumber (v : Float) : Expr → Prop where
  | here : HasNumber v (.number v)
  | argument {name : String} {arguments : List Expr} {e : Expr} (hmem : e ∈ arguments)
      (h : HasNumber v e) : HasNumber v (.call name arguments)
  | operand {op : UnaryOperator} {e : Expr} (h : HasNumber v e) : HasNumber v (.unary op e)
  | left {op : BinaryOperator} {left right : Expr} (h : HasNumber v left) :
      HasNumber v (.binary op left right)
  | right {op : BinaryOperator} {left right : Expr} (h : HasNumber v right) :
      HasNumber v (.binary op left right)

/-! ## Reading a literal of an expression -/

namespace Decimal

theorem not_isNumberWord_of_isDigitOrPoint {c : Char} {cs : List Char}
    (hc : Token.isDigitOrPoint c = true) : ¬ IsNumberWord (c :: cs) := by
  have hlower : c.toLower = c := by
    simp only [Token.isDigitOrPoint, Char.isDigit, Bool.or_eq_true, Bool.and_eq_true,
      decide_eq_true_eq, beq_iff_eq] at hc
    rcases hc with ⟨-, hle⟩ | rfl
    · exact dif_neg fun hupper => absurd (UInt32.le_trans hupper.1 hle) (by decide)
    · rfl
  intro hword
  simp only [IsNumberWord, List.map_cons, hlower, List.mem_cons, List.not_mem_nil, or_false,
    ← String.toList_inj, String.toList_ofList] at hword
  rcases hword with h | h | h
  all_goals
    obtain ⟨rfl, -⟩ := List.cons.inj h
    exact absurd hc (by decide)

/-- A literal that begins with a digit or a point is read as a decimal or not at all. -/
theorem read?_of_isDigitOrPoint {c : Char} {cs : List Char}
    (hc : Token.isDigitOrPoint c = true) :
    read? (c :: cs) = (readUnsigned? (c :: cs)).map toFloat := by
  have hmagnitude : read? (c :: cs) = readMagnitude? (c :: cs) := by
    unfold read?
    split
    · rename_i heq
      rw [(List.cons.inj heq).1] at hc
      exact absurd hc (by decide)
    · rename_i heq
      rw [(List.cons.inj heq).1] at hc
      exact absurd hc (by decide)
    · rfl
  rw [hmagnitude, readMagnitude?, readWord?_eq_none (not_isNumberWord_of_isDigitOrPoint hc)]
  cases readUnsigned? (c :: cs) <;> rfl

theorem isNaN_of_read? {c : Char} {cs : List Char} (hc : Token.isDigitOrPoint c = true)
    {v : Float} (h : read? (c :: cs) = some v) : v.isNaN = false := by
  rw [read?_of_isDigitOrPoint hc] at h
  obtain ⟨d, -, rfl⟩ := Option.map_eq_some_iff.mp h
  exact isNaN_toFloat d

end Decimal

theorem Numeral.isNaN_of_read? {c : Char} {cs : List Char} (hc : Token.isDigitOrPoint c = true)
    {v : Float} (h : read? (c :: cs) = some v) : v.isNaN = false := by
  unfold read? at h
  split at h
  · split at h
    · obtain ⟨n, -, rfl⟩ := Option.map_eq_some_iff.mp h
      exact Binary64.isNaN_ofInt n
    · exact Decimal.isNaN_of_read? hc h
  · exact Decimal.isNaN_of_read? hc h

/-- A literal token is what was taken from the front of a text that begins with a number. -/
theorem Token.IsLexeme.exists_numberPart {literal : String} (h : IsLexeme (.number literal)) :
    ∃ c cs, startsNumber c cs = true ∧ literal.toList = numberPart (c :: cs) := by
  obtain ⟨c, cs, hfirst⟩ := h
  rcases first?_eq_some hfirst with ⟨hnumber, ht⟩ | ⟨-, ht⟩ | ⟨-, -, ht⟩ | ⟨-, hatom, -, -⟩
  · obtain rfl := Token.number.inj ht
    exact ⟨c, cs, hnumber, String.toList_ofList⟩
  · cases ht
  · cases ht
  · cases hatom

/-- A literal token begins with a digit or a point. -/
theorem Token.IsLexeme.exists_cons_literal {literal : String} (h : IsLexeme (.number literal)) :
    ∃ c cs, literal.toList = c :: cs ∧ isDigitOrPoint c = true := by
  obtain ⟨c, cs, hnumber, hliteral⟩ := h.exists_numberPart
  obtain ⟨ds, hds, -⟩ := startsNumber_numberPart hnumber
  exact ⟨c, ds, hliteral.trans hds, isDigitOrPoint_of_startsNumber hnumber⟩

namespace Grammar

/-- A number in the tree of a phrase is read from one of its tokens. -/
theorem Derives.exists_literal {c : Category} {w : List Token} {t : Expr} {v : Float}
    (h : Derives c w t) (hv : t.HasNumber v) :
    ∃ literal, Token.number literal ∈ w ∧ Numeral.read? literal.toList = some v := by
  induction h with
  | @number literal u hread =>
      cases hv with
      | here => exact ⟨literal, List.mem_singleton_self _, hread⟩
  | identifier name => cases hv
  | call name arguments _ ih =>
      cases hv with
      | argument hmem hv =>
          obtain ⟨a, ha, rfl⟩ := List.mem_map.mp hmem
          obtain ⟨literal, hliteral, hread⟩ := ih a ha hv
          have hword : Token.number literal ∈
              [Token.comma].intercalate (arguments.map Prod.fst) :=
            mem_intercalate (List.mem_map_of_mem ha) hliteral
          exact ⟨literal, by simp [hword], hread⟩
  | group _ ih =>
      obtain ⟨literal, hliteral, hread⟩ := ih hv
      exact ⟨literal, by simp [hliteral], hread⟩
  | sign _ _ ih =>
      cases hv with
      | operand hv =>
          obtain ⟨literal, hliteral, hread⟩ := ih hv
          exact ⟨literal, by simp [hliteral], hread⟩
  | binary _ _ ihleft ihright =>
      cases hv with
      | left hv =>
          obtain ⟨literal, hliteral, hread⟩ := ihleft hv
          exact ⟨literal, by simp [hliteral], hread⟩
      | right hv =>
          obtain ⟨literal, hliteral, hread⟩ := ihright hv
          exact ⟨literal, by simp [hliteral], hread⟩
  | loosen _ _ ih => exact ih hv

/-- No number in the tree of a text is a NaN. -/
theorem isNaN_of_parse {text : String} {t : Expr} (h : Expr.parse text = .ok t) {v : Float}
    (hv : t.HasNumber v) : v.isNaN = false := by
  obtain ⟨-, hparse⟩ := ofTokens_of_parse h
  obtain ⟨literal, hmem, hread⟩ := (derives_of_ofTokens hparse).1.exists_literal hv
  obtain ⟨c, cs, hcs, hc⟩ := (Token.isLexeme_of_mem_tokens hmem).exists_cons_literal
  rw [hcs] at hread
  exact Numeral.isNaN_of_read? hc hread

end Grammar
end Calculator
