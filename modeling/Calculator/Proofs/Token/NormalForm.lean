import Calculator.Proofs.Text.Splitting
import Calculator.Proofs.Text.Words
import Calculator.Proofs.Token.Layout

/-!
# Tokens as a normal form of a text

Scanning drops nothing but blanks: up to the character that starts no token, a text is
its tokens with blanks around them.  A token looks at what follows it only to find its
end, and a blank is an end for every token.  With a blank behind each, the same tokens
are therefore scanned again.
-/

namespace Calculator
namespace Token

/-- Some text has the token at its front. -/
def IsLexeme (t : Token) : Prop :=
  ∃ c cs, first? c cs = some t

/-! ## The ends of names and literals -/

/-- The characters that a name or a literal can go on with. -/
def isAtomChar (c : Char) : Bool :=
  isNameChar c || c == '.'

/-- The text is empty or begins with a character that ends every name and literal. -/
def EndsAtom (cs : List Char) : Prop :=
  ∀ c, cs.head? = some c → isAtomChar c = false

theorem isAtomChar_of_isNameChar {c : Char} (h : isNameChar c = true) :
    isAtomChar c = true := by
  rw [isAtomChar, h, Bool.true_or]

theorem isAtomChar_of_isDigit {c : Char} (h : c.isDigit = true) : isAtomChar c = true :=
  isAtomChar_of_isNameChar (by simp [isNameChar, Char.isAlphanum, h])

theorem isAtomChar_of_isDigitOrPoint {c : Char} (h : isDigitOrPoint c = true) :
    isAtomChar c = true := by
  rw [isDigitOrPoint, Bool.or_eq_true, beq_iff_eq] at h
  rcases h with h | rfl
  · exact isAtomChar_of_isDigit h
  · decide

theorem isAtomChar_of_isRadixLetter {c : Char} (h : isRadixLetter c = true) :
    isAtomChar c = true := by
  simp only [isRadixLetter, Bool.or_eq_true, beq_iff_eq] at h
  rcases h with ((((rfl | rfl) | rfl) | rfl) | rfl) | rfl <;> decide

theorem isLexemeChar_of_isAtomChar {c : Char} (h : isAtomChar c = true) :
    isLexemeChar c = true := by
  rw [isAtomChar, Bool.or_eq_true, beq_iff_eq] at h
  rcases h with h | rfl
  · exact isLexemeChar_of_isNameChar h
  · decide

/-- A blank ends every name and literal. -/
theorem endsAtom_of_startsBlank {cs : List Char} (h : Text.StartsBlank cs) : EndsAtom cs := by
  intro c hc
  rw [← Bool.not_eq_true]
  intro hatom
  have hblank := h c hc
  rw [isBlank_of_isLexemeChar (isLexemeChar_of_isAtomChar hatom)] at hblank
  cases hblank

theorem numberPart_eq_plain {cs : List Char}
    (h : ∀ letter rest, cs = '0' :: letter :: rest → isRadixLetter letter = false) :
    numberPart cs = numberPart.plain cs := by
  unfold numberPart
  split
  · next letter rest => rw [h letter rest rfl, if_neg Bool.false_ne_true]
  · rfl

section Stop

variable {p : Char → Bool} {rest : List Char} (hrest : EndsAtom rest)

include hrest

/-- A class of characters of names and literals ends where they do. -/
theorem eq_false_of_endsAtom (hp : ∀ c, p c = true → isAtomChar c = true) :
    ∀ c, rest.head? = some c → p c = false := by
  intro c hc
  rw [← Bool.not_eq_true]
  intro hpc
  have hends := hrest c hc
  rw [hp c hpc] at hends
  cases hends

theorem takeWhile_takeWhile_append (hp : ∀ c, p c = true → isAtomChar c = true)
    (cs : List Char) : (cs.takeWhile p ++ rest).takeWhile p = cs.takeWhile p :=
  Text.takeWhile_append_of_head? (List.all_eq_true.mp List.all_takeWhile)
    (eq_false_of_endsAtom hrest hp)

theorem exponentPart_exponentPart_append (cs : List Char) :
    exponentPart (exponentPart cs ++ rest) = exponentPart cs := by
  rcases exponentPart_eq_nil_or cs with
    h | ⟨mark, sign, digits, _, h, -, hmark, hsign, hne, hdigits⟩
  · rw [h, List.nil_append]
    rcases exponentPart_eq_nil_or rest with hnil | ⟨mark, _, _, _, -, hcs, hmark, -⟩
    · exact hnil
    · have hends := hrest mark (by rw [hcs]; rfl)
      rcases hmark with rfl | rfl <;> exact absurd hends (by decide)
  · rw [h]
    exact exponentPart_append hmark hsign hne hdigits
      (eq_false_of_endsAtom hrest fun _ => isAtomChar_of_isDigit)

theorem plain_plain_append (cs : List Char) :
    numberPart.plain (numberPart.plain cs ++ rest) = numberPart.plain cs := by
  have hrun : ∀ c ∈ cs.takeWhile isDigitOrPoint, isDigitOrPoint c = true :=
    List.all_eq_true.mp List.all_takeWhile
  have hends : ∀ c, (exponentPart (cs.dropWhile isDigitOrPoint) ++ rest).head? = some c →
      isDigitOrPoint c = false := by
    intro c hc
    rcases exponentPart_eq_nil_or (cs.dropWhile isDigitOrPoint) with
      h | ⟨mark, sign, digits, _, h, -, hmark, -⟩
    · rw [h, List.nil_append] at hc
      exact eq_false_of_endsAtom hrest (fun _ => isAtomChar_of_isDigitOrPoint) c hc
    · rw [h] at hc
      obtain rfl : mark = c := by simpa using hc
      rcases hmark with rfl | rfl <;> decide
  rw [numberPart.plain, numberPart.plain, List.append_assoc,
    Text.takeWhile_append_of_head? hrun hends, Text.dropWhile_append_of_head? hrun hends,
    exponentPart_exponentPart_append hrest]

/-- A literal in front of what ends it is read whole. -/
theorem numberPart_numberPart_append (cs : List Char) :
    numberPart (numberPart cs ++ rest) = numberPart cs := by
  by_cases hradix : ∃ letter more, cs = '0' :: letter :: more ∧ isRadixLetter letter = true
  · obtain ⟨letter, more, rfl, hletter⟩ := hradix
    have hrun := takeWhile_takeWhile_append hrest (fun _ => isAtomChar_of_isNameChar) more
    simp [numberPart, hletter, hrun]
  · have hplain : ∀ letter more, cs = '0' :: letter :: more → isRadixLetter letter = false := by
      intro letter more hcs
      rw [← Bool.not_eq_true]
      exact fun hletter => hradix ⟨letter, more, hcs, hletter⟩
    rw [numberPart_eq_plain hplain, numberPart_eq_plain, plain_plain_append hrest]
    intro letter more heq
    obtain ⟨behind, hbehind⟩ := plain_prefix cs
    -- The letter stands in the literal, and so in the text, or it begins the rest.
    rcases hliteral : numberPart.plain cs with _ | ⟨first, _ | ⟨second, literal⟩⟩
    · rw [hliteral, List.nil_append] at heq
      have hends := hrest '0' (by rw [heq]; rfl)
      exact absurd hends (by decide)
    · simp only [hliteral, List.cons_append, List.nil_append, List.cons.injEq] at heq
      have hhead : rest.head? = some letter := by rw [heq.2]; rfl
      exact eq_false_of_endsAtom hrest (fun _ => isAtomChar_of_isRadixLetter) letter hhead
    · simp only [hliteral, List.cons_append, List.cons.injEq] at heq hbehind
      obtain ⟨rfl, rfl, -⟩ := heq
      exact hplain second _ hbehind.symm

end Stop

/-! ## Tokens in front of what ends them -/

/-- A literal is recognised by its own characters. -/
theorem startsNumber_numberPart {c : Char} {cs : List Char} (h : startsNumber c cs = true) :
    ∃ ds, numberPart (c :: cs) = c :: ds ∧ ∀ rest, startsNumber c (ds ++ rest) = true := by
  obtain ⟨behind, hbehind⟩ := numberPart_prefix (c :: cs)
  obtain ⟨d, ds, hliteral⟩ := List.exists_cons_of_ne_nil (numberPart_ne_nil h)
  obtain rfl : d = c := by
    rw [hliteral] at hbehind
    exact (List.cons.inj hbehind).1
  refine ⟨ds, hliteral, ?_⟩
  intro rest
  simp only [startsNumber, Bool.or_eq_true, Bool.and_eq_true, beq_iff_eq] at h ⊢
  rcases h with hdigit | ⟨rfl, hhead⟩
  · exact .inl hdigit
  · -- Behind a point the digit that makes it a literal is part of the literal.
    obtain ⟨digit, more, rfl⟩ : ∃ digit more, cs = digit :: more := by
      cases cs with
      | nil => cases hhead
      | cons digit more => exact ⟨digit, more, rfl⟩
    have hdigit : digit.isDigit = true := hhead
    have hplain : numberPart ('.' :: digit :: more) = numberPart.plain ('.' :: digit :: more) := rfl
    rw [hplain, numberPart.plain, List.takeWhile_cons_of_pos (by decide),
      List.takeWhile_cons_of_pos (by simp [isDigitOrPoint, hdigit])] at hliteral
    obtain ⟨-, rfl⟩ := List.cons.inj hliteral
    exact .inr ⟨rfl, hdigit⟩

/-- A name is read whole in front of what ends it. -/
theorem first?_takeWhile_append
    {c : Char} {cs rest : List Char} (hnumber : ¬ startsNumber c cs = true)
    (hname : isNameStart c = true) (hrest : EndsAtom rest) :
    first? c (cs.takeWhile isNameChar ++ rest) =
      some (.identifier (String.ofList (c :: cs.takeWhile isNameChar))) := by
  have hdigit : c.isDigit = false := by
    rw [startsNumber, Bool.or_eq_true, not_or] at hnumber
    simpa using hnumber.1
  have hpoint : (c == '.') = false := by
    rw [beq_eq_false_iff_ne]
    rintro rfl
    exact absurd hname (by decide)
  have hrun := takeWhile_takeWhile_append hrest (fun _ => isAtomChar_of_isNameChar) cs
  unfold first?
  rw [startsNumber, hdigit, hpoint, Bool.false_and, Bool.or_false, if_neg Bool.false_ne_true,
    if_pos hname, List.takeWhile_cons_of_pos (isNameChar_of_isNameStart hname), hrun]

/-- A name or a literal that is found in front of some text is found in front of all
that ends it. -/
theorem exists_first?_append_of_isAtom {c : Char} {cs : List Char} {t : Token}
    (h : first? c cs = some t) (hatom : t.isAtom = true) :
    ∃ ds, t.content.toList = c :: ds ∧
      ∀ rest, EndsAtom rest → first? c (ds ++ rest) = some t := by
  rcases first?_eq_some h with ⟨hnumber, rfl⟩ | ⟨hname, rfl⟩ | ⟨-, -, rfl⟩ | ⟨-, hnone, -⟩
  · obtain ⟨ds, hliteral, hstarts⟩ := startsNumber_numberPart hnumber
    refine ⟨ds, by rw [content, String.toList_ofList, hliteral], ?_⟩
    intro rest hrest
    have hagain := numberPart_numberPart_append hrest (c :: cs)
    rw [hliteral, List.cons_append] at hagain
    unfold first?
    rw [if_pos (hstarts rest), hagain, hliteral]
  · have hnumber : ¬ startsNumber c cs = true := by
      intro hnumber
      unfold first? at h
      rw [if_pos hnumber] at h
      cases h
    rw [List.takeWhile_cons_of_pos (isNameChar_of_isNameStart hname)]
    refine ⟨cs.takeWhile isNameChar, by rw [content, String.toList_ofList], ?_⟩
    exact fun rest hrest => first?_takeWhile_append hnumber hname hrest
  · cases hatom
  · rw [hatom] at hnone
    cases hnone

/-- A token that is found in front of some text is found in front of a blank. -/
theorem exists_first?_append {c : Char} {cs : List Char} {t : Token} (h : first? c cs = some t) :
    ∃ ds, t.content.toList = c :: ds ∧
      ∀ rest, Text.StartsBlank rest → first? c (ds ++ rest) = some t := by
  by_cases hatom : t.isAtom = true
  · obtain ⟨ds, hcontent, hagain⟩ := exists_first?_append_of_isAtom h hatom
    exact ⟨ds, hcontent, fun rest hrest => hagain rest (endsAtom_of_startsBlank hrest)⟩
  · unfold first? at h
    split at h
    · obtain rfl := Option.some.inj h
      exact absurd rfl hatom
    · split at h
      · obtain rfl := Option.some.inj h
        exact absurd rfl hatom
      · split at h
        case h_3 =>
          split at h
          · obtain rfl := Option.some.inj h
            exact ⟨['*'], rfl, fun _ _ => rfl⟩
          · obtain rfl := Option.some.inj h
            refine ⟨[], rfl, ?_⟩
            intro rest hrest
            have hstar : rest.head? ≠ some '*' := by
              intro hhead
              exact absurd (hrest '*' hhead) (by decide)
            exact if_neg hstar
        case h_10 => cases h
        all_goals
          obtain rfl := Option.some.inj h
          exact ⟨[], rfl, fun _ _ => rfl⟩

theorem isBlank_of_first? {c : Char} {cs : List Char} {t : Token} (h : first? c cs = some t) :
    Text.isBlank c = false := by
  obtain ⟨ds, hcontent, -⟩ := exists_first?_append h
  refine isBlank_of_isLexemeChar (isLexemeChar_of_mem_content h ?_)
  rw [hcontent]
  exact List.mem_cons_self

/-- A token that is found again in front of another text is scanned there as itself. -/
theorem scan_append_of_first? {c : Char} {cs ds rest : List Char} {t : Token}
    (h : first? c cs = some t) (hcontent : t.content.toList = c :: ds)
    (hagain : first? c (ds ++ rest) = some t) :
    scan (t.content.toList ++ rest) = ⟨t :: (scan rest).tokens, (scan rest).stopped⟩ := by
  have hdrop : (ds ++ rest).drop (t.width - 1) = rest := by
    rw [width, ← String.length_toList, hcontent, List.length_cons, Nat.add_sub_cancel,
      List.drop_left]
  rw [hcontent]
  exact scan_of_first? (isBlank_of_first? h) hagain hdrop rfl

/-- A token with a blank behind it is scanned as itself. -/
theorem IsLexeme.scan_append {t : Token} (h : IsLexeme t) {rest : List Char}
    (hrest : Text.StartsBlank rest) :
    scan (t.content.toList ++ rest) = ⟨t :: (scan rest).tokens, (scan rest).stopped⟩ := by
  obtain ⟨c, cs, hfirst⟩ := h
  obtain ⟨ds, hcontent, hagain⟩ := exists_first?_append hfirst
  exact scan_append_of_first? hfirst hcontent (hagain rest hrest)

/-- A name or a literal is scanned as itself in front of all that ends it. -/
theorem IsLexeme.scan_append_of_isAtom {t : Token} (h : IsLexeme t) (hatom : t.isAtom = true)
    {rest : List Char} (hrest : EndsAtom rest) :
    scan (t.content.toList ++ rest) = ⟨t :: (scan rest).tokens, (scan rest).stopped⟩ := by
  obtain ⟨c, cs, hfirst⟩ := h
  obtain ⟨ds, hcontent, hagain⟩ := exists_first?_append_of_isAtom hfirst hatom
  exact scan_append_of_first? hfirst hcontent (hagain rest hrest)

/-- Tokens with a space between each two are scanned as themselves. -/
theorem scan_intercalate {ts : List Token} (h : ∀ t ∈ ts, IsLexeme t) :
    scan ([' '].intercalate (ts.map fun t => t.content.toList)) = ⟨ts, none⟩ := by
  induction ts with
  | nil => exact scan_nil
  | cons t ts ih =>
      obtain ⟨ht, hts⟩ := List.forall_mem_cons.mp h
      cases ts with
      | nil =>
          have hend : Text.StartsBlank [] := by simp [Text.StartsBlank]
          simpa [scan_nil] using ht.scan_append hend
      | cons u us =>
          have hblank : Text.StartsBlank
              (' ' :: [' '].intercalate ((u :: us).map fun t => t.content.toList)) := by
            intro c hc
            obtain rfl : ' ' = c := Option.some.inj hc
            decide
          rw [List.map_cons, List.intercalate_cons_of_ne_nil (by simp), List.append_assoc,
            List.singleton_append, ht.scan_append hblank, scan_of_isBlank (by decide), ih hts]

/-! ## Scanned texts -/

/-- Tokens one after the other, with a gap in front of each and one behind the last. -/
def interleave : (gaps : List (List Char)) → (ts : List Token) → List Char
  | gap :: gaps, t :: ts => gap ++ (t.content.toList ++ interleave gaps ts)
  | gap :: _, [] => gap
  | [], _ => []

/-- The character is no blank, and no token starts with it in front of the text. -/
structure StartsNone (c : Char) (cs : List Char) : Prop where
  not_blank : Text.isBlank c = false
  not_letter : c.isAlpha = false
  not_digit : c.isDigit = false
  not_symbol : c ∉ ['_', '+', '-', '*', '/', '^', '%', '(', ')', ',']
  point : c = '.' → ∀ d, cs.head? = some d → d.isDigit = false

theorem startsNone_of_first? {c : Char} {cs : List Char} (hblank : Text.isBlank c = false)
    (h : first? c cs = none) : StartsNone c cs := by
  unfold first? at h
  split at h
  · cases h
  · next hnumber =>
      split at h
      · cases h
      · next hname =>
          simp only [startsNumber, Bool.or_eq_true, Bool.and_eq_true, beq_iff_eq, not_or,
            not_and, Bool.not_eq_true] at hnumber
          simp only [isNameStart, Bool.or_eq_true, beq_iff_eq, not_or, Bool.not_eq_true] at hname
          refine ⟨hblank, hname.1, hnumber.1, ?_, ?_⟩
          · split at h
            case h_3 => split at h <;> cases h
            case h_10 => simp_all
            all_goals cases h
          · intro hpoint d hd
            simpa [hd] using hnumber.2 hpoint

/-- A text is its tokens with blanks around them, up to the character that stops the
scan. -/
theorem exists_interleave (cs : List Char) :
    ∃ gaps rest, gaps.length = (scan cs).tokens.length + 1 ∧
      (∀ gap ∈ gaps, ∀ c ∈ gap, Text.isBlank c = true) ∧
      cs = interleave gaps (scan cs).tokens ++ rest ∧ rest.head? = (scan cs).stopped ∧
      ∀ c more, rest = c :: more → StartsNone c more := by
  fun_induction scan cs with
  | case1 => exact ⟨[[]], [], rfl, by simp, rfl, rfl, by simp⟩
  | case2 c cs hblank ih =>
      obtain ⟨gaps, rest, hlength, hgaps, hcs, hhead, hrest⟩ := ih
      obtain ⟨gap, gaps, rfl⟩ := List.exists_cons_of_length_eq_add_one hlength
      obtain ⟨hgap, hgaps⟩ := List.forall_mem_cons.mp hgaps
      refine ⟨(c :: gap) :: gaps, rest, hlength, ?_, ?_, hhead, hrest⟩
      · exact List.forall_mem_cons.mpr ⟨List.forall_mem_cons.mpr ⟨hblank, hgap⟩, hgaps⟩
      · conv_lhs => rw [hcs]
        cases (scan cs).tokens <;> rfl
  | case3 c cs hblank hnone =>
      refine ⟨[[]], c :: cs, rfl, by simp, rfl, rfl, ?_⟩
      rintro _ _ ⟨⟩
      exact startsNone_of_first? (by simpa using hblank) hnone
  | case4 c cs hblank t hsome scanned ih =>
      obtain ⟨gaps, rest, hlength, hgaps, hcs, hhead, hrest⟩ := ih
      refine ⟨[] :: gaps, rest, by simp [hlength, scanned], ?_, ?_, hhead, hrest⟩
      · exact List.forall_mem_cons.mpr ⟨by simp, hgaps⟩
      · rw [← content_append_drop hsome]
        conv_lhs => rw [hcs]
        simp [interleave, scanned]

theorem isLexeme_of_mem_tokens {cs : List Char} {t : Token} (h : t ∈ (scan cs).tokens) :
    IsLexeme t := by
  fun_induction scan cs with
  | case1 => cases h
  | case2 c cs hblank ih => exact ih h
  | case3 c cs hblank hnone => cases h
  | case4 c cs hblank u hsome scanned ih =>
      rcases List.mem_cons.mp h with rfl | h
      · exact ⟨c, cs, hsome⟩
      · exact ih h

theorem length_tokens_le (cs : List Char) : (scan cs).tokens.length ≤ cs.length := by
  fun_induction scan cs with
  | case1 => exact Nat.le_refl 0
  | case2 c cs hblank ih => exact Nat.le_succ_of_le ih
  | case3 c cs hblank hnone => exact Nat.zero_le _
  | case4 c cs hblank t hsome scanned ih =>
      have hdrop : (cs.drop (t.width - 1)).length ≤ cs.length := by simp
      exact Nat.succ_le_succ (ih.trans hdrop)

/-! ## Texts of one token -/

section Single

variable {cs : List Char} {t : Token}

theorem scan_append_of_blanks {blanks cs : List Char}
    (hblanks : ∀ c ∈ blanks, Text.isBlank c = true) : scan (blanks ++ cs) = scan cs := by
  induction blanks with
  | nil => rfl
  | cons c blanks ih =>
      obtain ⟨hc, hblanks⟩ := List.forall_mem_cons.mp hblanks
      rw [List.cons_append, scan_of_isBlank hc, ih hblanks]

/-- A text of one token is the token with blanks around it. -/
theorem exists_of_scan_eq_singleton (h : scan cs = ⟨[t], none⟩) :
    ∃ front back, cs = front ++ (t.content.toList ++ back) ∧
      (∀ c ∈ front, Text.isBlank c = true) ∧ ∀ c ∈ back, Text.isBlank c = true := by
  obtain ⟨gaps, rest, hlength, hgaps, hcs, hrest, -⟩ := exists_interleave cs
  rw [h] at hlength hcs hrest
  obtain rfl : rest = [] := List.head?_eq_none_iff.mp hrest
  match gaps, hlength with
  | [front, back], _ =>
      refine ⟨front, back, ?_, hgaps front (by simp), hgaps back (by simp)⟩
      rw [hcs]
      simp [interleave]

theorem isLexeme_of_scan_eq_singleton (h : scan cs = ⟨[t], none⟩) : IsLexeme t := by
  have hmem : t ∈ (scan cs).tokens := by
    rw [h]
    exact List.mem_singleton_self t
  exact isLexeme_of_mem_tokens hmem

theorem IsLexeme.isWord (h : IsLexeme t) : Text.IsWord t.content.toList := by
  obtain ⟨c, cs, hfirst⟩ := h
  exact ⟨content_ne_nil hfirst,
    fun d hd => isBlank_of_isLexemeChar (isLexemeChar_of_mem_content hfirst hd)⟩

/-- A text of one token is a text of one word. -/
theorem words_of_scan_eq_singleton (h : scan cs = ⟨[t], none⟩) :
    Text.words cs = [t.content.toList] := by
  obtain ⟨front, back, rfl, hfront, hback⟩ := exists_of_scan_eq_singleton h
  rw [Text.words_append_of_blanks hfront, Text.words_append_back hback]
  exact (isLexeme_of_scan_eq_singleton h).isWord.words_eq

end Single

/-! ## The normal form -/

/-- The tokens of a text with one space between each two. -/
def normalForm (text : String) : String :=
  " ".intercalate ((scan text.toList).tokens.map content)

theorem scan_normalForm (text : String) :
    scan (normalForm text).toList = ⟨(scan text.toList).tokens, none⟩ := by
  have hjoined : (normalForm text).toList =
      [' '].intercalate ((scan text.toList).tokens.map fun t => t.content.toList) := by
    rw [normalForm, String.toList_intercalate, List.map_map]
    rfl
  rw [hjoined, scan_intercalate fun t => isLexeme_of_mem_tokens]

/-- Scanning loses nothing and is stable.  It ends after no more tokens than the text
has characters.  Up to the character that stops it, which starts no token, the text is
the tokens with blanks around them, and no token is empty.  The tokens with one space
between each two are scanned as the same tokens, so this is a normal form. -/
theorem scan_stable (text : String) :
    (scan text.toList).tokens.length ≤ text.length ∧
    (∀ t ∈ (scan text.toList).tokens, t.content ≠ "") ∧
    (∃ gaps rest, gaps.length = (scan text.toList).tokens.length + 1 ∧
      (∀ gap ∈ gaps, ∀ c ∈ gap, Text.isBlank c = true) ∧
      text.toList = interleave gaps (scan text.toList).tokens ++ rest ∧
      rest.head? = (scan text.toList).stopped ∧
      ∀ c more, rest = c :: more → StartsNone c more) ∧
    scan (normalForm text).toList = ⟨(scan text.toList).tokens, none⟩ ∧
    normalForm (normalForm text) = normalForm text := by
  refine ⟨?_, ?_, exists_interleave text.toList, scan_normalForm text, ?_⟩
  · rw [← String.length_toList]
    exact length_tokens_le text.toList
  · intro t ht hempty
    obtain ⟨c, cs, hfirst⟩ := isLexeme_of_mem_tokens ht
    exact content_ne_nil hfirst (by rw [hempty]; rfl)
  · rw [normalForm, scan_normalForm, normalForm]

/-- Zeros end in front of a letter, and a point alone starts no token. -/
theorem scan_zeros_letter_point :
    scan "00x1 .".toList = ⟨[.number "00", .identifier "x1"], some '.'⟩ ∧
    (∃ gaps rest, "00x1 .".toList = interleave gaps [.number "00", .identifier "x1"] ++ rest ∧
      rest.head? = some '.') ∧
    (identifier "x1").content ≠ "" ∧
    scan "00 x1".toList = ⟨[.number "00", .identifier "x1"], none⟩ := by
  have hstop : scan ['.'] = ⟨[], some '.'⟩ := by
    unfold scan
    rfl
  have hscan : scan "00x1 .".toList = ⟨[.number "00", .identifier "x1"], some '.'⟩ := by
    refine scan_of_first? (by decide) (by decide) rfl ?_
    refine scan_of_first? (by decide) (by decide) rfl ?_
    exact (scan_of_isBlank (by decide)).trans hstop
  obtain ⟨-, hne, ⟨gaps, rest, -, -, htext, hhead, -⟩, hagain, -⟩ := scan_stable "00x1 ."
  rw [hscan] at hne htext hhead
  refine ⟨hscan, ⟨gaps, rest, htext, hhead⟩, hne _ (by simp), ?_⟩
  rw [normalForm, hscan] at hagain
  exact hagain

end Token
end Calculator
