import Calculator.Proofs.Text.Splitting
import Calculator.Proofs.Text.WholeWord
import Calculator.Token.Scan

/-!
# How tokens lie in a text

A text that is scanned to its end consists of its tokens with blanks in between.
Names and number literals are the atoms; the other tokens have no word characters
in them, so an atom is set off from them without a blank.
-/

namespace Calculator
namespace Token

/-! ## The token at the front -/

/-- The characters that tokens consist of. -/
def isLexemeChar (c : Char) : Bool :=
  isNameChar c || c == '.' || c == '+' || c == '-' || c == '*' || c == '/' || c == '^' ||
    c == '%' || c == '(' || c == ')' || c == ','

/-- Names and number literals. -/
def isAtom : Token → Bool
  | identifier _ => true
  | number _ => true
  | _ => false

/-- An exponent part is missing, or it is a letter, an optional sign and digits at
the front of the text. -/
theorem exponentPart_eq_nil_or (cs : List Char) :
    exponentPart cs = [] ∨
      ∃ mark sign digits rest, exponentPart cs = mark :: (sign ++ digits) ∧
        cs = mark :: (sign ++ digits) ++ rest ∧ (mark = 'e' ∨ mark = 'E') ∧
        (sign = [] ∨ sign = ['+'] ∨ sign = ['-']) ∧ digits ≠ [] ∧
        ∀ c ∈ digits, c.isDigit = true := by
  have hdigits : ∀ ds : List Char, ∀ c ∈ ds.takeWhile Char.isDigit, c.isDigit = true :=
    fun ds => List.all_eq_true.mp List.all_takeWhile
  unfold exponentPart
  split
  · next mark cs =>
      split
      · next hmark =>
          have hmark : mark = 'e' ∨ mark = 'E' := by simpa using hmark
          split
          · next sign digits =>
              dsimp only
              split
              · next hsign =>
                  have hsign : sign = '+' ∨ sign = '-' := by simpa using hsign
                  split
                  · exact .inl rfl
                  · next hne =>
                      refine .inr ⟨mark, [sign], digits.takeWhile Char.isDigit,
                        digits.dropWhile Char.isDigit, rfl, ?_, hmark, ?_, by simpa using hne,
                        hdigits digits⟩
                      · simp
                      · simpa using hsign
              · split
                · exact .inl rfl
                · next hne =>
                    refine .inr ⟨mark, [], (sign :: digits).takeWhile Char.isDigit,
                      (sign :: digits).dropWhile Char.isDigit, rfl, ?_, hmark, .inl rfl,
                      by simpa using hne, hdigits (sign :: digits)⟩
                    simp
          · exact .inl rfl
      · exact .inl rfl
  · exact .inl rfl

/-- A letter, an optional sign and all digits behind it are an exponent part. -/
theorem exponentPart_append
    {mark : Char} {sign digits rest : List Char} (hmark : mark = 'e' ∨ mark = 'E')
    (hsign : sign = [] ∨ sign = ['+'] ∨ sign = ['-']) (hne : digits ≠ [])
    (hdigits : ∀ c ∈ digits, c.isDigit = true)
    (hrest : ∀ c, rest.head? = some c → c.isDigit = false) :
    exponentPart (mark :: (sign ++ digits) ++ rest) = mark :: (sign ++ digits) := by
  have hrun : (digits ++ rest).takeWhile Char.isDigit = digits :=
    Text.takeWhile_append_of_head? hdigits hrest
  have hmark : (mark == 'e' || mark == 'E') = true := by simpa using hmark
  rcases hsign with rfl | rfl | rfl
  · obtain ⟨d, ds, rfl⟩ := List.exists_cons_of_ne_nil hne
    have hd : d.isDigit = true := hdigits d List.mem_cons_self
    have hnosign : (d == '+' || d == '-') = false := by
      rw [← Bool.not_eq_true, Bool.or_eq_true, beq_iff_eq, beq_iff_eq]
      rintro (rfl | rfl) <;> exact absurd hd (by decide)
    rw [List.cons_append] at hrun
    simp [exponentPart, hmark, hnosign, hrun]
  · simp [exponentPart, hmark, hrun, hne]
  · simp [exponentPart, hmark, hrun, hne]

theorem exponentPart_prefix (cs : List Char) : exponentPart cs <+: cs := by
  rcases exponentPart_eq_nil_or cs with h | ⟨mark, sign, digits, rest, h, hcs, -⟩
  · rw [h]
    exact List.nil_prefix
  · rw [h]
    exact ⟨rest, hcs.symm⟩

theorem isLexemeChar_of_isDigit {c : Char} (h : c.isDigit = true) :
    isLexemeChar c = true := by
  simp [isLexemeChar, isNameChar, Char.isAlphanum, h]

theorem isLexemeChar_of_isNameChar {c : Char} (h : isNameChar c = true) :
    isLexemeChar c = true := by
  simp [isLexemeChar, h]

theorem isNameChar_of_isNameStart {c : Char} (h : isNameStart c = true) :
    isNameChar c = true := by
  rw [isNameStart, Bool.or_eq_true] at h
  rcases h with h | h <;> simp [isNameChar, Char.isAlphanum, h]

theorem isLexemeChar_of_mem_exponentPart {c : Char} {cs : List Char}
    (h : c ∈ exponentPart cs) : isLexemeChar c = true := by
  rcases exponentPart_eq_nil_or cs with hnil | ⟨mark, sign, digits, _, heq, _, hmark, hsign, _, hd⟩
  · rw [hnil] at h
    simp at h
  · rw [heq, List.mem_cons, List.mem_append] at h
    rcases h with rfl | h | h
    · rcases hmark with rfl | rfl <;> decide
    · rcases hsign with rfl | rfl | rfl
      · simp at h
      · obtain rfl := List.mem_singleton.mp h
        decide
      · obtain rfl := List.mem_singleton.mp h
        decide
    · exact isLexemeChar_of_isDigit (hd c h)

/-- A literal without a radix, in front of the text. -/
theorem plain_prefix (cs : List Char) : numberPart.plain cs <+: cs := by
  obtain ⟨rest, hrest⟩ := exponentPart_prefix (cs.dropWhile isDigitOrPoint)
  refine ⟨rest, ?_⟩
  rw [numberPart.plain, List.append_assoc, hrest, List.takeWhile_append_dropWhile]

theorem numberPart_prefix (cs : List Char) : numberPart cs <+: cs := by
  unfold numberPart
  split
  · next letter rest =>
      split
      · exact ⟨rest.dropWhile isNameChar, by simp⟩
      · exact plain_prefix _
  · exact plain_prefix _

theorem isLexemeChar_of_mem_plain {c : Char} {cs : List Char}
    (h : c ∈ numberPart.plain cs) : isLexemeChar c = true := by
  rw [numberPart.plain, List.mem_append] at h
  rcases h with h | h
  · have hc : isDigitOrPoint c = true := List.all_eq_true.mp List.all_takeWhile c h
    rw [isDigitOrPoint, Bool.or_eq_true, beq_iff_eq] at hc
    rcases hc with hc | rfl
    · exact isLexemeChar_of_isDigit hc
    · decide
  · exact isLexemeChar_of_mem_exponentPart h

theorem isLexemeChar_of_mem_numberPart {c : Char} {cs : List Char}
    (h : c ∈ numberPart cs) : isLexemeChar c = true := by
  unfold numberPart at h
  split at h
  · next letter rest =>
      split at h
      · next hletter =>
          rcases List.mem_cons.mp h with rfl | h
          · decide
          · rcases List.mem_cons.mp h with rfl | h
            · simp only [isRadixLetter, Bool.or_eq_true, beq_iff_eq] at hletter
              rcases hletter with ((((rfl | rfl) | rfl) | rfl) | rfl) | rfl <;> decide
            · exact isLexemeChar_of_isNameChar (List.all_eq_true.mp List.all_takeWhile c h)
      · exact isLexemeChar_of_mem_plain h
  · exact isLexemeChar_of_mem_plain h

theorem isDigitOrPoint_of_startsNumber {c : Char} {cs : List Char}
    (h : startsNumber c cs = true) : isDigitOrPoint c = true := by
  simp only [startsNumber, isDigitOrPoint, Bool.or_eq_true, Bool.and_eq_true] at h ⊢
  exact h.imp_right And.left

/-- A literal has at least the character that it was recognised by. -/
theorem numberPart_ne_nil {c : Char} {cs : List Char} (h : startsNumber c cs = true) :
    numberPart (c :: cs) ≠ [] := by
  have hc := isDigitOrPoint_of_startsNumber h
  have hplain : numberPart.plain (c :: cs) ≠ [] := by
    simp [numberPart.plain, hc]
  unfold numberPart
  split
  · split
    · simp
    · next heq _ => exact hplain
  · exact hplain

/-- What the token at the front can be: a literal, a name, the double star, or a
token of one character that belongs to no word. -/
theorem first?_eq_some
    {c : Char} {cs : List Char} {t : Token} (h : first? c cs = some t) :
    (startsNumber c cs = true ∧ t = .number (String.ofList (numberPart (c :: cs)))) ∨
    (isNameStart c = true ∧
      t = .identifier (String.ofList ((c :: cs).takeWhile isNameChar))) ∨
    (c = '*' ∧ cs.head? = some '*' ∧ t = .operator .starStar) ∨
    (t.content.toList = [c] ∧ t.isAtom = false ∧ isLexemeChar c = true ∧
      Text.isWordChar c = false) := by
  unfold first? at h
  split at h
  · next hnumber =>
      obtain rfl := Option.some.inj h
      exact .inl ⟨hnumber, rfl⟩
  · split at h
    · next hname =>
        obtain rfl := Option.some.inj h
        exact .inr (.inl ⟨hname, rfl⟩)
    · refine .inr (.inr ?_)
      split at h
      case h_3 =>
        split at h
        · next hstar =>
            obtain rfl := Option.some.inj h
            exact .inl ⟨rfl, hstar, rfl⟩
        · obtain rfl := Option.some.inj h
          exact .inr ⟨by decide, by decide, by decide, by decide⟩
      case h_10 => cases h
      all_goals
        obtain rfl := Option.some.inj h
        exact .inr ⟨by decide, by decide, by decide, by decide⟩

theorem content_prefix
    {c : Char} {cs : List Char} {t : Token} (h : first? c cs = some t) :
    t.content.toList <+: c :: cs := by
  rcases first?_eq_some h with ⟨-, rfl⟩ | ⟨-, rfl⟩ | ⟨rfl, hstar, rfl⟩ | ⟨hcontent, -⟩
  · rw [content, String.toList_ofList]
    exact numberPart_prefix _
  · rw [content, String.toList_ofList]
    exact List.takeWhile_prefix _
  · cases cs with
    | nil => simp at hstar
    | cons d cs =>
        obtain rfl : d = '*' := by simpa using hstar
        exact ⟨cs, rfl⟩
  · rw [hcontent]
    exact ⟨cs, rfl⟩

theorem content_ne_nil
    {c : Char} {cs : List Char} {t : Token} (h : first? c cs = some t) :
    t.content.toList ≠ [] := by
  rcases first?_eq_some h with ⟨hnumber, rfl⟩ | ⟨hname, rfl⟩ | ⟨-, -, rfl⟩ | ⟨hcontent, -⟩
  · rw [content, String.toList_ofList]
    exact numberPart_ne_nil hnumber
  · simp [content, isNameChar_of_isNameStart hname]
  · decide
  · simp [hcontent]

/-- The token at the front and what is scanned next make up the text. -/
theorem content_append_drop
    {c : Char} {cs : List Char} {t : Token} (h : first? c cs = some t) :
    t.content.toList ++ cs.drop (t.width - 1) = c :: cs := by
  obtain ⟨rest, hrest⟩ := content_prefix h
  have hwidth : t.width = t.content.toList.length := String.length_toList.symm
  cases hcontent : t.content.toList with
  | nil => exact absurd hcontent (content_ne_nil h)
  | cons d ds =>
      rw [hcontent] at hrest hwidth
      rw [List.cons_append] at hrest
      obtain ⟨rfl, rfl⟩ := List.cons.inj hrest
      rw [hwidth, List.length_cons, Nat.add_sub_cancel, List.drop_left, List.cons_append]

theorem eq_star_of_mem_starStar {d : Char}
    (h : d ∈ (operator .starStar).content.toList) : d = '*' := by
  have hcontent : (operator .starStar).content.toList = ['*', '*'] := rfl
  rw [hcontent, List.mem_cons, List.mem_singleton, or_self] at h
  exact h

theorem isLexemeChar_of_mem_content
    {c d : Char} {cs : List Char} {t : Token} (h : first? c cs = some t)
    (hd : d ∈ t.content.toList) : isLexemeChar d = true := by
  rcases first?_eq_some h with ⟨-, rfl⟩ | ⟨-, rfl⟩ | ⟨-, -, rfl⟩ | ⟨hcontent, -, hc, -⟩
  · rw [content, String.toList_ofList] at hd
    exact isLexemeChar_of_mem_numberPart hd
  · rw [content, String.toList_ofList] at hd
    exact isLexemeChar_of_isNameChar (List.all_eq_true.mp List.all_takeWhile d hd)
  · obtain rfl := eq_star_of_mem_starStar hd
    decide
  · rw [hcontent] at hd
    obtain rfl := List.mem_singleton.mp hd
    exact hc

/-- Only atoms have word characters in them. -/
theorem isWordChar_of_mem_content
    {c d : Char} {cs : List Char} {t : Token} (h : first? c cs = some t)
    (hatom : t.isAtom = false) (hd : d ∈ t.content.toList) :
    Text.isWordChar d = false := by
  rcases first?_eq_some h with ⟨-, rfl⟩ | ⟨-, rfl⟩ | ⟨-, -, rfl⟩ | ⟨hcontent, -, -, hword⟩
  · cases hatom
  · cases hatom
  · obtain rfl := eq_star_of_mem_starStar hd
    decide
  · rw [hcontent] at hd
    obtain rfl := List.mem_singleton.mp hd
    exact hword

/-- A name takes all name characters, so none stands behind it. -/
theorem not_isNameChar_of_identifier
    {c d : Char} {cs : List Char} {name : String}
    (h : first? c cs = some (.identifier name))
    (hd : (cs.drop ((identifier name).width - 1)).head? = some d) :
    isNameChar d = false := by
  have hcut := content_append_drop h
  rcases first?_eq_some h with ⟨-, hname⟩ | ⟨-, hname⟩ | ⟨-, -, hname⟩ | ⟨-, hatom, -⟩
  · cases hname
  · obtain rfl := Token.identifier.inj hname
    rw [content, String.toList_ofList] at hcut
    have hrest : cs.drop ((identifier (String.ofList ((c :: cs).takeWhile isNameChar))).width
        - 1) = (c :: cs).dropWhile isNameChar := by
      refine (List.append_right_inj ((c :: cs).takeWhile isNameChar)).mp ?_
      rw [hcut, List.takeWhile_append_dropWhile]
    have hnot := List.head?_dropWhile_not isNameChar (c :: cs)
    rw [← hrest, hd] at hnot
    simpa using hnot
  · cases hname
  · cases hatom

/-! ## Scanned texts -/

/-- The text is cut into the tokens, each taken from the front as long as it can
be, with blanks in between. -/
inductive Cut : (cs : List Char) → (ts : List Token) → Prop where
  | nil : Cut [] []
  | blank {c : Char} {cs : List Char} {ts : List Token}
      (hblank : Text.isBlank c = true) (h : Cut cs ts) : Cut (c :: cs) ts
  | token {c : Char} {cs : List Char} {t : Token} {ts : List Token}
      (hblank : Text.isBlank c = false) (hfirst : first? c cs = some t)
      (h : Cut (cs.drop (t.width - 1)) ts) : Cut (c :: cs) (t :: ts)

theorem scan_of_isBlank {c : Char} {cs : List Char} (h : Text.isBlank c = true) :
    scan (c :: cs) = scan cs := by
  rw [scan.eq_def]
  dsimp only
  rw [if_pos h]

/-- Scanning a text to its end cuts it. -/
theorem cut_of_scan {cs : List Char} (h : (scan cs).stopped = none) :
    Cut cs (scan cs).tokens := by
  fun_induction scan cs with
  | case1 => exact .nil
  | case2 c cs hblank ih => exact .blank hblank (ih h)
  | case3 c cs hblank hnone => cases h
  | case4 c cs hblank t hsome rest ih => exact .token (by simpa using hblank) hsome (ih h)

/-- A text that is cut has no characters but those of tokens and blanks. -/
theorem Cut.isLexemeChar
    {cs : List Char} {ts : List Token} (h : Cut cs ts) :
    ∀ d ∈ cs, Text.isBlank d = true ∨ isLexemeChar d = true := by
  induction h with
  | nil => simp
  | blank hblank _ ih =>
      intro d hd
      rcases List.mem_cons.mp hd with rfl | hd
      · exact .inl hblank
      · exact ih d hd
  | token _ hfirst _ ih =>
      intro d hd
      rw [← content_append_drop hfirst, List.mem_append] at hd
      rcases hd with hd | hd
      · exact .inr (isLexemeChar_of_mem_content hfirst hd)
      · exact ih d hd

/-! ## Tokens at a gap -/

theorem isBlank_of_isLexemeChar {c : Char} (h : isLexemeChar c = true) :
    Text.isBlank c = false := by
  by_cases hname : isNameChar c = true
  · have hword : Text.isWordChar c = true := by
      rw [isNameChar, Bool.or_eq_true, beq_iff_eq] at hname
      rcases hname with hname | rfl
      · exact Text.isWordChar_of_isAlphanum hname
      · decide
    exact Text.isBlank_of_isWordChar hword
  · simp only [isLexemeChar, hname, Bool.false_or, Bool.or_eq_true, beq_iff_eq] at h
    rcases h with ((((((((rfl | rfl) | rfl) | rfl) | rfl) | rfl) | rfl) | rfl) | rfl) | rfl <;>
      decide

/-- Blanks in front of a text add no tokens. -/
theorem Cut.of_blanks
    {gap cs : List Char} {ts : List Token} (h : Cut (gap ++ cs) ts)
    (hgap : ∀ c ∈ gap, Text.isBlank c = true) : Cut cs ts := by
  induction gap with
  | nil => exact h
  | cons c gap ih =>
      obtain ⟨hblank, hgap⟩ := List.forall_mem_cons.mp hgap
      cases h with
      | blank _ h => exact ih h hgap
      | token hnot =>
          rw [hblank] at hnot
          cases hnot

/-- The text in front of a blank ends with a token, and the tokens behind it are
those of the text from the blank on. -/
theorem Cut.exists_of_append
    {front rest : List Char} {p b : Char} {ts : List Token}
    (h : Cut (front ++ p :: b :: rest) ts) (hp : Text.isBlank p = false)
    (hb : Text.isBlank b = true) :
    ∃ ts₁ t ts₂, ts = ts₁ ++ t :: ts₂ ∧ (∃ c cs, first? c cs = some t) ∧
      p ∈ t.content.toList ∧ Cut (b :: rest) ts₂ := by
  generalize htext : front ++ p :: b :: rest = text at h
  induction h generalizing front with
  | nil => simp at htext
  | @blank c cs ts hblank hcut ih =>
      cases front with
      | nil =>
          obtain ⟨rfl, -⟩ := List.cons.inj htext
          rw [hp] at hblank
          cases hblank
      | cons d front => exact ih (List.cons.inj htext).2
  | @token c cs t ts hblank hfirst hcut ih =>
      have hbehind : ∀ front',
          front' ++ p :: b :: rest = cs.drop (t.width - 1) →
          ∃ ts₁ u ts₂, t :: ts = ts₁ ++ u :: ts₂ ∧ (∃ c cs, first? c cs = some u) ∧
            p ∈ u.content.toList ∧ Cut (b :: rest) ts₂ := by
        intro front' hdrop
        obtain ⟨ts₁, u, ts₂, rfl, hu⟩ := ih hdrop
        exact ⟨t :: ts₁, u, ts₂, rfl, hu⟩
      have hcontent := content_append_drop hfirst
      rw [← htext, List.append_eq_append_iff] at hcontent
      rcases hcontent with ⟨front', -, hdrop⟩ | ⟨back, hback, hdrop⟩
      · exact hbehind front' hdrop.symm
      · rcases back with _ | ⟨p', _ | ⟨b', back⟩⟩
        · exact hbehind [] hdrop
        · simp only [List.cons_append, List.nil_append, List.cons.injEq] at hdrop
          obtain ⟨rfl, hdrop⟩ := hdrop
          exact ⟨[], t, ts, rfl, ⟨c, cs, hfirst⟩, by simp [hback], hdrop ▸ hcut⟩
        · simp only [List.cons_append, List.cons.injEq] at hdrop
          obtain ⟨rfl, rfl, -⟩ := hdrop
          have hlexeme := isLexemeChar_of_mem_content hfirst (d := b) (by simp [hback])
          rw [isBlank_of_isLexemeChar hlexeme] at hb
          cases hb

/-- Blanks between two characters that are none lie between two tokens. -/
theorem Cut.exists_of_gap
    {front gap back : List Char} {p q : Char} {ts : List Token}
    (h : Cut (front ++ p :: (gap ++ q :: back)) ts) (hp : Text.isBlank p = false)
    (hne : gap ≠ []) (hgap : ∀ c ∈ gap, Text.isBlank c = true)
    (hq : Text.isBlank q = false) :
    ∃ ts₁ t u ts₂, ts = ts₁ ++ t :: u :: ts₂ ∧ (∃ c cs, first? c cs = some t) ∧
      p ∈ t.content.toList ∧ first? q back = some u := by
  obtain ⟨b, gap, rfl⟩ := List.exists_cons_of_ne_nil hne
  obtain ⟨ts₁, t, ts₂, rfl, ht, hmem, hrest⟩ :=
    h.exists_of_append hp (hgap b List.mem_cons_self)
  have hgapped : Cut (b :: gap ++ q :: back) ts₂ := hrest
  have hback : Cut (q :: back) ts₂ := hgapped.of_blanks hgap
  cases hback with
  | blank hblank =>
      rw [hq] at hblank
      cases hblank
  | @token _ _ u ts₂ _ hfirst _ => exact ⟨ts₁, t, u, ts₂, rfl, ht, hmem, hfirst⟩

end Token
end Calculator
