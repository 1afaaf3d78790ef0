import Calculator.Proofs.Grammar.FreeVariable
import Mathlib.Tactic.ByContra

/-!
# No operand behind an operand

Once an operand is complete the parser takes no further one, whatever blanks lie
in between.  In a text that is parsed, a word therefore never follows a word or a
closing parenthesis.
-/

namespace Calculator

/-- Names, literals and closing parentheses: the tokens that an operand ends
with. -/
def Token.endsOperand : Token → Bool
  | .identifier _ => true
  | .number _ => true
  | .closeParen => true
  | _ => false

namespace Grammar

open Support

/-! ## Steps of the parser -/

theorem expectsOperand_of_stepOperand
    {p p' : Parsing} {t : Token} (h : p.stepOperand t = .ok p') :
    p'.expectsOperand = !t.endsOperand := by
  cases t with
  | number literal =>
      rw [Parsing.stepOperand] at h
      dsimp only at h
      split at h
      · cases h
        rfl
      · cases h
  | identifier name =>
      cases h
      rfl
  | operator symbol =>
      obtain ⟨yard, -, h⟩ := bind_eq_ok_iff.mp h
      cases h
      rfl
  | openParen =>
      cases h
      rfl
  | closeParen =>
      rw [Parsing.stepOperand] at h
      split at h
      · obtain ⟨yard, -, h⟩ := bind_eq_ok_iff.mp h
        cases h
        rfl
      · cases h
  | comma => cases h

theorem expectsOperand_of_stepOperator
    {p p' : Parsing} {t : Token} (h : p.stepOperator t = .ok p') :
    p'.expectsOperand = !t.endsOperand := by
  cases t with
  | number literal => cases h
  | identifier name => cases h
  | openParen =>
      rw [Parsing.stepOperator] at h
      split at h
      · obtain ⟨yard, -, h⟩ := bind_eq_ok_iff.mp h
        cases h
        rfl
      · cases h
  | _ =>
      obtain ⟨yard, -, h⟩ := bind_eq_ok_iff.mp h
      cases h
      rfl

/-- Whether an operand has to come next depends on the last token only. -/
theorem expectsOperand_of_step
    {p p' : Parsing} {t : Token} (h : p.step t = .ok p') :
    p'.expectsOperand = !t.endsOperand := by
  rw [Parsing.step] at h
  split at h
  · exact expectsOperand_of_stepOperand h
  · exact expectsOperand_of_stepOperator h

/-! ## Runs of the parser -/

/-- An atom never follows a token that an operand ends with. -/
theorem endsOperand_of_run
    {front rest : List Token} {t u : Token} {p p' : Parsing}
    (h : (front ++ t :: u :: rest).foldlM Parsing.step p = .ok p') (hu : u.isAtom = true) :
    t.endsOperand = false := by
  rw [List.foldlM_append, bind_eq_ok_iff] at h
  obtain ⟨p₁, -, h⟩ := h
  rw [List.foldlM_cons, bind_eq_ok_iff] at h
  obtain ⟨p₂, ht, h⟩ := h
  rw [List.foldlM_cons, bind_eq_ok_iff] at h
  obtain ⟨p₃, hstep, -⟩ := h
  have hexpects : p₂.expectsOperand = true := (expectsOperand_of_step_atom hstep hu).1
  rw [expectsOperand_of_step ht] at hexpects
  simpa using hexpects

/-! ## From tokens to characters -/

/-- Only an atom has word characters in it. -/
theorem isAtom_of_mem_content
    {c d : Char} {cs : List Char} {t : Token} (h : Token.first? c cs = some t)
    (hd : d ∈ t.content.toList) (hword : Text.isWordChar d = true) : t.isAtom = true := by
  by_contra hnot
  rw [Token.isWordChar_of_mem_content h (Bool.eq_false_iff.mpr hnot) hd] at hword
  cases hword

/-- A word or a closing parenthesis in a token makes it one that ends an operand. -/
theorem endsOperand_of_mem_content
    {c p : Char} {cs : List Char} {t : Token} (h : Token.first? c cs = some t)
    (hp : p ∈ t.content.toList) (hend : Text.isWordChar p = true ∨ p = ')') :
    t.endsOperand = true := by
  rcases hend with hword | rfl
  · have hatom := isAtom_of_mem_content h hp hword
    cases t with
    | number literal => rfl
    | identifier name => rfl
    | _ => cases hatom
  · cases t with
    | operator symbol => cases symbol <;> exact absurd hp (by decide)
    | openParen => exact absurd hp (by decide)
    | comma => exact absurd hp (by decide)
    | _ => rfl

/-- A token that begins with a word character is an atom. -/
theorem isAtom_of_isWordChar
    {c : Char} {cs : List Char} {t : Token} (h : Token.first? c cs = some t)
    (hword : Text.isWordChar c = true) : t.isAtom = true := by
  obtain ⟨d, ds, hcontent⟩ := List.exists_cons_of_ne_nil (Token.content_ne_nil h)
  have hcut := Token.content_append_drop h
  rw [hcontent, List.cons_append] at hcut
  obtain ⟨rfl, -⟩ := List.cons.inj hcut
  exact isAtom_of_mem_content h (by simp [hcontent]) hword

/-- In a text that is parsed, what follows a word or a closing parenthesis behind
blanks is no word. -/
theorem isWordChar_behind_operand
    {text : String} {e : Expr} {front gap back : List Char} {p q : Char}
    (hparse : Expr.parse text = .ok e) (htext : text.toList = front ++ p :: (gap ++ q :: back))
    (hne : gap ≠ []) (hgap : ∀ c ∈ gap, Text.isBlank c = true)
    (hp : Text.isWordChar p = true ∨ p = ')') : Text.isWordChar q = false := by
  by_contra hnot
  have hq : Text.isWordChar q = true := eq_true_of_ne_false hnot
  have hp' : Text.isBlank p = false := by
    rcases hp with hword | rfl
    · exact Text.isBlank_of_isWordChar hword
    · decide
  obtain ⟨hstopped, htokens⟩ := ofTokens_of_parse hparse
  have hcut := Token.cut_of_scan hstopped
  rw [htext] at hcut
  obtain ⟨ts₁, t, u, ts₂, hts, ⟨c, cs, ht⟩, hmem, hu⟩ :=
    hcut.exists_of_gap hp' hne hgap (Text.isBlank_of_isWordChar hq)
  rw [Expr.ofTokens, bind_eq_ok_iff, htext, hts] at htokens
  obtain ⟨p', hrun, -⟩ := htokens
  have hopen : t.endsOperand = false :=
    endsOperand_of_run hrun (isAtom_of_isWordChar hu hq)
  rw [endsOperand_of_mem_content ht hmem hp] at hopen
  cases hopen

end Grammar
end Calculator
