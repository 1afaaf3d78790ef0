import Calculator.Proofs.Grammar.Characterization
import Calculator.Proofs.Token.Layout
import Calculator.Request

/-!
# Names in a tree and words in its text

Whether a text is the body of a function is decided on its tree if it has one,
and on the bare text if not.  The two tests meet here: a name that occurs in the
tree of a text is a token of it, and a token of one letter is a whole word,
because the parser never accepts two atoms side by side.  No text with an equals
sign has a tree.
-/

namespace Calculator
namespace Grammar

open Support

/-! ## From trees to tokens -/

theorem mem_intercalate {α : Type} {a : α} {sep word : List α} {words : List (List α)}
    (hword : word ∈ words) (ha : a ∈ word) : a ∈ sep.intercalate words := by
  induction words with
  | nil => simp at hword
  | cons first rest ih =>
      cases rest with
      | nil =>
          obtain rfl := List.mem_singleton.mp hword
          simpa using ha
      | cons second rest =>
          rw [List.intercalate_cons_cons, List.mem_append, List.mem_append]
          rcases List.mem_cons.mp hword with rfl | hword
          · exact .inl (.inl ha)
          · exact .inr (ih hword)

theorem exists_mentions_of_anyMentions {name : String} {ts : List Expr}
    (h : Expr.anyMentions name ts = true) : ∃ t ∈ ts, t.mentions name = true := by
  induction ts with
  | nil => simp [Expr.anyMentions] at h
  | cons t ts ih =>
      rw [Expr.anyMentions, Bool.or_eq_true] at h
      rcases h with h | h
      · exact ⟨t, by simp, h⟩
      · obtain ⟨t', ht', hmentions⟩ := ih h
        exact ⟨t', List.mem_cons_of_mem _ ht', hmentions⟩

/-- A name that occurs in the tree of a phrase is one of its tokens. -/
theorem Derives.identifier_mem
    {c : Category} {w : List Token} {t : Expr} {name : String}
    (h : Derives c w t) (hmentions : t.mentions name = true) :
    Token.identifier name ∈ w := by
  induction h with
  | number _ => simp [Expr.mentions] at hmentions
  | identifier other =>
      obtain rfl : other = name := by simpa [Expr.mentions] using hmentions
      simp
  | call other arguments _ ih =>
      rw [Expr.mentions] at hmentions
      obtain ⟨t, ht, hmentions⟩ := exists_mentions_of_anyMentions hmentions
      obtain ⟨a, ha, rfl⟩ := List.mem_map.mp ht
      have hword : Token.identifier name ∈ [Token.comma].intercalate (arguments.map Prod.fst) :=
        mem_intercalate (List.mem_map_of_mem ha) (ih a ha hmentions)
      simp [hword]
  | group _ ih => simp [ih hmentions]
  | sign _ _ ih => simp [ih hmentions]
  | binary _ _ ihleft ihright =>
      rw [Expr.mentions, Bool.or_eq_true] at hmentions
      rcases hmentions with hmentions | hmentions
      · simp [ihleft hmentions]
      · simp [ihright hmentions]
  | loosen _ _ ih => exact ih hmentions

/-! ## Atoms stand apart -/

/-- No two atoms stand side by side, also not the first one and what is in front
of it. -/
def AtomsApart : (afterAtom : Bool) → List Token → Prop
  | _, [] => True
  | afterAtom, t :: ts => (afterAtom = true → t.isAtom = false) ∧ AtomsApart t.isAtom ts

/-- The parser takes an atom only where an operand is expected, and expects none
behind it. -/
theorem expectsOperand_of_step_atom
    {p p' : Parsing} {t : Token} (h : p.step t = .ok p') (ht : t.isAtom = true) :
    p.expectsOperand = true ∧ p'.expectsOperand = false := by
  cases hexpects : p.expectsOperand with
  | false =>
      rw [Parsing.step, hexpects, if_neg Bool.false_ne_true] at h
      cases t with
      | identifier name => cases h
      | number literal => cases h
      | _ => cases ht
  | true =>
      refine ⟨rfl, ?_⟩
      rw [Parsing.step, hexpects, if_pos rfl] at h
      cases t with
      | identifier name =>
          cases h
          rfl
      | number literal =>
          rw [Parsing.stepOperand] at h
          dsimp only at h
          split at h
          · cases h
            rfl
          · cases h
      | _ => cases ht

theorem atomsApart_of_run
    {tokens : List Token} {p p' : Parsing} {afterAtom : Bool}
    (h : tokens.foldlM Parsing.step p = .ok p')
    (hafter : afterAtom = true → p.expectsOperand = false) :
    AtomsApart afterAtom tokens := by
  induction tokens generalizing p afterAtom with
  | nil => trivial
  | cons t tokens ih =>
      rw [List.foldlM_cons, bind_eq_ok_iff] at h
      obtain ⟨p₁, hstep, hrest⟩ := h
      refine ⟨?_, ih hrest fun ht => (expectsOperand_of_step_atom hstep ht).2⟩
      intro htrue
      cases ht : t.isAtom with
      | false => rfl
      | true =>
          have hexpects := (expectsOperand_of_step_atom hstep ht).1
          rw [hafter htrue] at hexpects
          cases hexpects

theorem atomsApart_of_ofTokens {tokens : List Token} {t : Expr}
    (h : Expr.ofTokens tokens = .ok t) : AtomsApart false tokens := by
  rw [Expr.ofTokens, bind_eq_ok_iff] at h
  obtain ⟨p, hrun, -⟩ := h
  exact atomsApart_of_run hrun (by simp)

/-! ## From tokens to words -/

theorem isWordChar_of_isLexemeChar {c : Char} (h : Token.isLexemeChar c = true)
    (hname : Token.isNameChar c = false) : Text.isWordChar c = false := by
  simp only [Token.isLexemeChar, hname, Bool.false_or, Bool.or_eq_true, beq_iff_eq] at h
  rcases h with ((((((((rfl | rfl) | rfl) | rfl) | rfl) | rfl) | rfl) | rfl) | rfl) | rfl <;>
    decide

/-- What stands behind a name is no part of its word. -/
theorem isWordChar_behind_identifier
    {c d : Char} {cs : List Char} {ts : List Token} {name : String}
    (hfirst : Token.first? c cs = some (.identifier name))
    (hcut : Token.Cut (cs.drop ((Token.identifier name).width - 1)) ts)
    (hd : (cs.drop ((Token.identifier name).width - 1)).head? = some d) :
    Text.isWordChar d = false := by
  have hmem : d ∈ cs.drop ((Token.identifier name).width - 1) := List.mem_of_head? hd
  rcases hcut.isLexemeChar d hmem with hblank | hlexeme
  · exact Text.isWordChar_of_isBlank hblank
  · exact isWordChar_of_isLexemeChar hlexeme (Token.not_isNameChar_of_identifier hfirst hd)

/-- A name of one letter among tokens whose atoms stand apart is a whole word of
the text. -/
theorem standsAlone_of_mem
    {letter : Char} {cs : List Char} {ts : List Token} {afterAtom afterWord : Bool}
    (hcut : Token.Cut cs ts) (hapart : AtomsApart afterAtom ts)
    (hafter : afterWord = true → afterAtom = true)
    (hmem : Token.identifier (String.singleton letter) ∈ ts) :
    Text.standsAlone letter afterWord cs = true := by
  induction hcut generalizing afterAtom afterWord with
  | nil => simp at hmem
  | @blank c cs ts hblank hcut ih =>
      have hrest : Text.standsAlone letter (Text.isWordChar c) cs = true := by
        rw [Text.isWordChar_of_isBlank hblank]
        exact ih hapart (by simp) hmem
      rw [Text.standsAlone, hrest, Bool.or_true]
  | @token c cs t ts hblank hfirst hcut ih =>
      obtain ⟨hhead, htail⟩ := hapart
      rcases List.mem_cons.mp hmem with rfl | hmem
      · have hcontent := Token.content_append_drop hfirst
        rw [Token.content, String.toList_singleton] at hcontent
        rw [List.singleton_append] at hcontent
        obtain ⟨rfl, hdrop⟩ := List.cons.inj hcontent
        have hfree : afterWord = false := by
          cases afterWord with
          | false => rfl
          | true => cases hhead (hafter rfl)
        refine (Text.standsAlone_iff _ _ _).mpr ⟨[], cs, rfl, ⟨by simp, ?_⟩, fun _ => hfree⟩
        intro d hd
        rw [← hdrop] at hd
        exact isWordChar_behind_identifier hfirst hcut hd
      · rw [← Token.content_append_drop hfirst]
        refine Text.standsAlone_append (Token.content_ne_nil hfirst) (ih htail ?_ hmem)
        intro hword
        cases hatom : t.isAtom with
        | true => rfl
        | false =>
            have hlast := Token.isWordChar_of_mem_content hfirst hatom
              (List.getLast_mem (Token.content_ne_nil hfirst))
            rw [hlast] at hword
            cases hword

/-! ## Texts that are parsed -/

/-- Where `x` occurs in the tree of a text, it is a whole word of the text. -/
theorem hasWord_of_parse
    {text : String} {t : Expr} (h : Expr.parse text = .ok t)
    (hmentions : t.mentions freeVariable = true) :
    Text.hasWord 'x' text.toList = true := by
  obtain ⟨hstopped, hparse⟩ := ofTokens_of_parse h
  have hmem : Token.identifier (String.singleton 'x') ∈ (Token.scan text.toList).tokens :=
    (derives_of_ofTokens hparse).1.identifier_mem hmentions
  exact standsAlone_of_mem (Token.cut_of_scan hstopped) (atomsApart_of_ofTokens hparse)
    (by simp) hmem

/-- No text with an equals sign is parsed. -/
theorem parse_error_of_equals {text : String} (h : '=' ∈ text.toList) :
    ∃ e, Expr.parse text = .error e := by
  cases hparse : Expr.parse text with
  | error e => exact ⟨e, rfl⟩
  | ok t =>
      obtain ⟨hstopped, -⟩ := ofTokens_of_parse hparse
      have hchar := (Token.cut_of_scan hstopped).isLexemeChar '=' h
      exact absurd hchar (by decide)

end Grammar
end Calculator
