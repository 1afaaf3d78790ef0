import Calculator.Proofs.Request.Identifier

/-!
# How a conversion line may be split

A line of the form of a conversion can often be split in several ways, because an amount in
digits and a unit may both hold digits.  The ways differ in the amount; once it is fixed, so
is the rest of the line.  The longest amount is the one that is read.
-/

namespace Calculator

/-- The amount as it stands in the line. -/
def Amount.text : Amount → String
  | .literal text => text
  | .name text => text

namespace Text

/-! ## Texts cut where a class of characters ends -/

theorem append_inj_of_class {p : Char → Bool} {front front' rest rest' : List Char}
    (hfront : ∀ c ∈ front, p c = true) (hfront' : ∀ c ∈ front', p c = true)
    (hrest : ∀ c, rest.head? = some c → p c = false)
    (hrest' : ∀ c, rest'.head? = some c → p c = false)
    (h : front ++ rest = front' ++ rest') : front = front' ∧ rest = rest' := by
  constructor
  · rw [← takeWhile_append_of_head? hfront hrest, h, takeWhile_append_of_head? hfront' hrest']
  · rw [← dropWhile_append_of_head? hfront hrest, h, dropWhile_append_of_head? hfront' hrest']

theorem IsWord.append_inj {w w' rest rest' : List Char} (hw : IsWord w) (hw' : IsWord w')
    (hrest : StartsBlank rest) (hrest' : StartsBlank rest') (h : w ++ rest = w' ++ rest') :
    w = w' ∧ rest = rest' := by
  have hcut : ∀ {cs : List Char}, StartsBlank cs →
      ∀ c, cs.head? = some c → (fun c => !isBlank c) c = false := by
    intro cs hcs c hc
    simpa using hcs c hc
  refine append_inj_of_class (p := fun c => !isBlank c) ?_ ?_ (hcut hrest) (hcut hrest') h
  · exact fun c hc => by simpa using hw.blankless c hc
  · exact fun c hc => by simpa using hw'.blankless c hc

theorem blanks_append_inj {gap gap' rest rest' : List Char}
    (hgap : ∀ c ∈ gap, isBlank c = true) (hgap' : ∀ c ∈ gap', isBlank c = true)
    (hrest : StartsBlankless rest) (hrest' : StartsBlankless rest')
    (h : gap ++ rest = gap' ++ rest') : gap = gap' ∧ rest = rest' :=
  append_inj_of_class hgap hgap' hrest hrest' h

end Text

namespace Conversion

/-! ## Amounts -/

/-- One or more decimal digits of any script. -/
structure IsDigits (cs : List Char) : Prop where
  nonempty : cs ≠ []
  digits : ∀ c ∈ cs, Text.isDecimalDigit c = true

/-- Digits, and maybe a point and more digits. -/
def IsUnsigned (cs : List Char) : Prop :=
  IsDigits cs ∨ ∃ whole fraction, cs = whole ++ '.' :: fraction ∧ IsDigits whole ∧ IsDigits fraction

/-- Digits, maybe with a point and more digits behind and a minus sign in front. -/
def IsLiteral (cs : List Char) : Prop :=
  IsUnsigned cs ∨ ∃ unsigned, cs = '-' :: unsigned ∧ IsUnsigned unsigned

theorem isDigits_eq_true_iff {cs : List Char} : isDigits cs = true ↔ IsDigits cs := by
  rw [isDigits, Bool.and_eq_true, Bool.not_eq_true', List.isEmpty_eq_false_iff, List.all_eq_true]
  exact ⟨fun h => ⟨h.1, h.2⟩, fun h => ⟨h.nonempty, h.digits⟩⟩

theorem IsDigits.not_mem {cs : List Char} {c : Char} (h : IsDigits cs)
    (hc : Text.isDecimalDigit c = false) : c ∉ cs := by
  intro hmem
  rw [h.digits c hmem] at hc
  cases hc

/-- The program looks for the first point; in a literal there is no other. -/
theorem isUnsigned_iff {cs : List Char} :
    (match Text.splitAtFirst '.' cs with
      | none => isDigits cs
      | some (whole, fraction) => isDigits whole && isDigits fraction) = true ↔
      IsUnsigned cs := by
  have hpoint : Text.isDecimalDigit '.' = false := by decide
  cases hsplit : Text.splitAtFirst '.' cs with
  | none =>
      dsimp only
      rw [isDigits_eq_true_iff, IsUnsigned, or_iff_left]
      rintro ⟨whole, fraction, rfl, hwhole, -⟩
      have hsome := Text.splitAtFirst_eq_some_iff.mpr
        ⟨rfl (a := whole ++ '.' :: fraction), hwhole.not_mem hpoint⟩
      rw [hsplit] at hsome
      cases hsome
  | some halves =>
      obtain ⟨whole, fraction⟩ := halves
      obtain ⟨rfl, hnone⟩ := Text.splitAtFirst_eq_some_iff.mp hsplit
      dsimp only
      rw [Bool.and_eq_true, isDigits_eq_true_iff, isDigits_eq_true_iff, IsUnsigned]
      constructor
      · rintro ⟨hwhole, hfraction⟩
        exact .inr ⟨whole, fraction, rfl, hwhole, hfraction⟩
      · rintro (hdigits | ⟨whole', fraction', heq, hwhole, hfraction⟩)
        · exact absurd (by simp) (hdigits.not_mem hpoint)
        · have hsome := Text.splitAtFirst_eq_some_iff.mpr ⟨heq, hwhole.not_mem hpoint⟩
          rw [hsplit] at hsome
          cases hsome
          exact ⟨hwhole, hfraction⟩

theorem IsUnsigned.exists_head {cs : List Char} (h : IsUnsigned cs) :
    ∃ c, cs.head? = some c ∧ Text.isDecimalDigit c = true := by
  have hhead : ∀ {digits : List Char}, IsDigits digits →
      ∃ c, digits.head? = some c ∧ Text.isDecimalDigit c = true := by
    intro digits hdigits
    obtain ⟨c, rest, rfl⟩ := List.exists_cons_of_ne_nil hdigits.nonempty
    exact ⟨c, rfl, hdigits.digits c List.mem_cons_self⟩
  rcases h with hdigits | ⟨whole, fraction, rfl, hwhole, -⟩
  · exact hhead hdigits
  · obtain ⟨c, hc, hdigit⟩ := hhead hwhole
    exact ⟨c, by rw [List.head?_append, hc, Option.some_or], hdigit⟩

theorem isLiteral_eq_true_iff {cs : List Char} : isLiteral cs = true ↔ IsLiteral cs := by
  have hminus : Text.isDecimalDigit '-' = false := by decide
  unfold isLiteral
  split
  · next rest =>
      refine isUnsigned_iff.trans ?_
      rw [IsLiteral]
      constructor
      · exact fun h => .inr ⟨rest, rfl, h⟩
      · rintro (h | ⟨unsigned, heq, h⟩)
        · obtain ⟨c, hc, hdigit⟩ := h.exists_head
          obtain rfl : '-' = c := Option.some.inj hc
          rw [hminus] at hdigit
          cases hdigit
        · obtain rfl := (List.cons.inj heq).2
          exact h
  · next hsign =>
      refine isUnsigned_iff.trans ?_
      rw [IsLiteral, or_iff_left]
      rintro ⟨unsigned, rfl, -⟩
      exact hsign unsigned rfl

theorem IsDigits.isLiteralChar {cs : List Char} (h : IsDigits cs) :
    ∀ c ∈ cs, isLiteralChar c = true := by
  intro c hc
  simp [Conversion.isLiteralChar, h.digits c hc]

theorem IsLiteral.isLiteralChar {cs : List Char} (h : IsLiteral cs) :
    ∀ c ∈ cs, isLiteralChar c = true := by
  have hunsigned : ∀ {unsigned : List Char}, IsUnsigned unsigned →
      ∀ c ∈ unsigned, Conversion.isLiteralChar c = true := by
    rintro unsigned (hdigits | ⟨whole, fraction, rfl, hwhole, hfraction⟩) c hc
    · exact hdigits.isLiteralChar c hc
    · rcases List.mem_append.mp hc with hc | hc
      · exact hwhole.isLiteralChar c hc
      · rcases List.mem_cons.mp hc with rfl | hc
        · decide
        · exact hfraction.isLiteralChar c hc
  rcases h with h | ⟨unsigned, rfl, h⟩
  · exact hunsigned h
  · exact List.forall_mem_cons.mpr ⟨by decide, hunsigned h⟩

theorem IsLiteral.ne_nil {cs : List Char} (h : IsLiteral cs) : cs ≠ [] := by
  rintro rfl
  rcases h with h | ⟨unsigned, heq, -⟩
  · obtain ⟨c, hc, -⟩ := h.exists_head
    cases hc
  · cases heq

/-- No name begins like a literal. -/
theorem isLiteralChar_of_isFoldedName {name : List Char} (h : IsFoldedName name) :
    ∃ c, name.head? = some c ∧ isLiteralChar c = false := by
  obtain ⟨c, hhead, hc⟩ := h.1
  refine ⟨c, hhead, ?_⟩
  have hstart : Token.isNameStart c = true ∨ c = '\u017f' ∨ c = '\u212a' := by
    simp only [Text.isFoldedLetter, Bool.or_eq_true, beq_iff_eq] at hc
    rw [Token.isNameStart, Bool.or_eq_true, beq_iff_eq]
    tauto
  rcases hstart with hstart | rfl | rfl
  · exact isLiteralChar_of_isNameStart hstart
  · decide +kernel
  · decide +kernel

/-! ## Splits -/

/-- The form of an amount with the blanks behind it: a literal may stand directly in front
of a code, a name may not. -/
def HasForm : Amount → (gap : List Char) → Prop
  | .literal text, gap => IsLiteral text.toList ∧ ∀ c ∈ gap, Text.isBlank c = true
  | .name text, gap => IsFoldedName text.toList ∧ Text.IsGap gap

/-- A way in which a line reads `<amount> <from> to <to>`. -/
@[ext]
structure Split (v : Vocabulary) (line : String) where
  amount : Amount
  gap : List Char
  source : List Char
  sourceGap : List Char
  word : List Char
  wordGap : List Char
  target : List Char
  rest : List Char
  line_eq : line.toList =
    amount.text.toList ++
      (gap ++ (source ++ (sourceGap ++ (word ++ (wordGap ++ (target ++ rest))))))
  form : HasForm amount gap
  source_admitted : v.Admits source
  sourceGap_isGap : Text.IsGap sourceGap
  word_isTo : IsTo word
  wordGap_isGap : Text.IsGap wordGap
  target_admitted : v.Admits target
  rest_blank : ∀ c ∈ rest, Text.isBlank c = true

theorem HasForm.blank {amount : Amount} {gap : List Char} (h : HasForm amount gap) :
    ∀ c ∈ gap, Text.isBlank c = true := by
  cases amount with
  | literal text => exact h.2
  | name text => exact h.2.blank

/-- The text of an amount tells of which kind it is. -/
theorem HasForm.amount_inj {amount amount' : Amount} {gap gap' : List Char}
    (h : HasForm amount gap) (h' : HasForm amount' gap') (htext : amount.text = amount'.text) :
    amount = amount' := by
  have hkinds : ∀ {text : String}, IsLiteral text.toList → ¬ IsFoldedName text.toList := by
    intro text hliteral hname
    obtain ⟨c, hhead, hc⟩ := isLiteralChar_of_isFoldedName hname
    rw [hliteral.isLiteralChar c (List.mem_of_head? hhead)] at hc
    cases hc
  cases amount with
  | literal text =>
      cases amount' with
      | literal text' => exact congrArg Amount.literal htext
      | name text' =>
          obtain rfl : text = text' := htext
          exact absurd h'.1 (hkinds h.1)
  | name text =>
      cases amount' with
      | literal text' =>
          obtain rfl : text = text' := htext
          exact absurd h.1 (hkinds h'.1)
      | name text' => exact congrArg Amount.name htext

namespace Split

variable {v : Vocabulary} {line : String}

/-- What stands behind the amount and the blanks there. -/
def codes (p : Split v line) : List Char :=
  p.source ++ (p.sourceGap ++ (p.word ++ (p.wordGap ++ (p.target ++ p.rest))))

def conversion (p : Split v line) : Conversion :=
  ⟨p.amount, String.ofList p.source, String.ofList p.target⟩

theorem hasCodes (p : Split v line) : HasCodes v p.codes p.source p.target :=
  ⟨p.sourceGap, p.word, p.wordGap, p.rest, rfl, p.source_admitted, p.sourceGap_isGap,
    p.word_isTo, p.wordGap_isGap, p.target_admitted, p.rest_blank⟩

/-- An amount in front of codes is a split. -/
theorem exists_of_hasCodes {amount : Amount} {gap codes source target : List Char}
    (hline : line.toList = amount.text.toList ++ (gap ++ codes)) (hform : HasForm amount gap)
    (hcodes : HasCodes v codes source target) :
    ∃ p : Split v line,
      p.conversion = ⟨amount, String.ofList source, String.ofList target⟩ := by
  obtain ⟨sourceGap, word, wordGap, rest, rfl, hsource, hgap, hto, hgap', htarget, hrest⟩ := hcodes
  exact ⟨⟨amount, gap, source, sourceGap, word, wordGap, target, rest, hline, hform, hsource,
    hgap, hto, hgap', htarget, hrest⟩, rfl⟩

theorem text_isPrefix (p : Split v line) : p.amount.text.toList <+: line.toList :=
  ⟨_, p.line_eq.symm⟩

/-- Amounts of the same length are the same. -/
theorem text_eq_of_length_eq {p q : Split v line}
    (h : p.amount.text.length = q.amount.text.length) : p.amount.text = q.amount.text := by
  rw [← String.length_toList, ← String.length_toList] at h
  exact String.toList_inj.mp
    ((List.prefix_of_prefix_length_le p.text_isPrefix q.text_isPrefix h.le).eq_of_length h)

/-- The amount decides the split. -/
theorem eq_of_text_eq (hv : v.IsProper) {p q : Split v line}
    (h : p.amount.text = q.amount.text) : p = q := by
  have hamount : p.amount = q.amount := p.form.amount_inj q.form h
  have hstart : ∀ r : Split v line, Text.StartsBlankless r.codes :=
    fun r => (hv.isWord r.source_admitted).startsBlankless _
  have hafter : p.gap ++ p.codes = q.gap ++ q.codes := by
    have hline := p.line_eq.symm.trans q.line_eq
    rw [h] at hline
    exact List.append_cancel_left hline
  obtain ⟨hgap, hcodes⟩ :=
    Text.blanks_append_inj p.form.blank q.form.blank (hstart p) (hstart q) hafter
  obtain ⟨hsource, hcodes⟩ := (hv.isWord p.source_admitted).append_inj
    (hv.isWord q.source_admitted) (p.sourceGap_isGap.startsBlank _)
    (q.sourceGap_isGap.startsBlank _) hcodes
  obtain ⟨hsourceGap, hcodes⟩ := Text.blanks_append_inj p.sourceGap_isGap.blank
    q.sourceGap_isGap.blank (p.word_isTo.isWord.startsBlankless _)
    (q.word_isTo.isWord.startsBlankless _) hcodes
  obtain ⟨hword, hcodes⟩ := p.word_isTo.isWord.append_inj q.word_isTo.isWord
    (p.wordGap_isGap.startsBlank _) (q.wordGap_isGap.startsBlank _) hcodes
  obtain ⟨hwordGap, hcodes⟩ := Text.blanks_append_inj p.wordGap_isGap.blank
    q.wordGap_isGap.blank ((hv.isWord p.target_admitted).startsBlankless _)
    ((hv.isWord q.target_admitted).startsBlankless _) hcodes
  obtain ⟨htarget, hrest⟩ := (hv.isWord p.target_admitted).append_inj
    (hv.isWord q.target_admitted) (Text.startsBlank_of_blanks p.rest_blank)
    (Text.startsBlank_of_blanks q.rest_blank) hcodes
  exact Split.ext hamount hgap hsource hsourceGap hword hwordGap htarget hrest

end Split

/-! ## The amount that is read -/

variable {v : Vocabulary} {line : String} {c : Conversion}

/-- A literal that leaves codes behind it is read, or a longer one is. -/
theorem exists_readLiteral?_of_front (hv : v.IsProper)
    {candidate rest amount gap codes source target : List Char}
    (hfront : amount <+: candidate.reverse)
    (hcut : candidate.reverse ++ rest = amount ++ (gap ++ codes))
    (hgap : ∀ c ∈ gap, Text.isBlank c = true) (hliteral : IsLiteral amount)
    (hcodes : HasCodes v codes source target) :
    ∃ amount' source' target', readLiteral? v candidate rest = some (amount', source', target') ∧
      amount.length ≤ amount'.length := by
  induction candidate generalizing rest with
  | nil => exact absurd (List.prefix_nil.mp hfront) hliteral.ne_nil
  | cons c candidate ih =>
      rw [readLiteral?]
      cases hread : (readCodes? v (Text.trimStart rest)).filter
          fun _ => isLiteral (c :: candidate).reverse with
      | some found =>
          exact ⟨(c :: candidate).reverse, found.1, found.2, rfl, hfront.length_le⟩
      | none =>
          rw [List.reverse_cons] at hfront
          rcases List.prefix_concat_iff.mp hfront with hwhole | hshort
          · -- The whole candidate would have been read.
            have hrest : rest = gap ++ codes := by
              rw [List.reverse_cons, hwhole] at hcut
              exact List.append_cancel_left hcut
            have hstart : Text.StartsBlankless codes := by
              obtain ⟨_, _, _, _, rfl, hadmits, -⟩ := hcodes
              exact (hv.isWord hadmits).startsBlankless _
            have htrim : Text.trimStart rest = codes := by
              rw [hrest, Text.trimStart, Text.dropWhile_append_of_head? hgap hstart]
            rw [htrim, (readCodes?_eq_some_iff hv).mpr hcodes, List.reverse_cons, ← hwhole,
              isLiteral_eq_true_iff.mpr hliteral] at hread
            cases hread
          · refine ih hshort ?_
            rw [← hcut, List.reverse_cons, List.append_assoc, List.singleton_append]

/-- A line that is read has been split. -/
theorem exists_split_of_read? (hv : v.IsProper) (h : read? v line = some c) :
    ∃ p : Split v line, p.conversion = c := by
  rw [read?, Option.orElse_eq_orElse, Option.orElse_eq_or, Option.or_eq_some_iff] at h
  rcases h with h | ⟨-, h⟩
  · obtain ⟨⟨amount, source, target⟩, hread, rfl⟩ := Option.map_eq_some_iff.mp h
    obtain ⟨gap, codes, hcut, hgap, hliteral, hcodes⟩ := readLiteral?_eq_some hv hread
    rw [List.reverse_reverse, List.takeWhile_append_dropWhile] at hcut
    have hform : HasForm (.literal (String.ofList amount)) gap := by
      refine ⟨?_, hgap⟩
      rw [String.toList_ofList]
      exact isLiteral_eq_true_iff.mp hliteral
    refine Split.exists_of_hasCodes ?_ hform hcodes
    rw [Amount.text, String.toList_ofList, hcut]
  · obtain ⟨name, gap, codes, source, target, hcut, hname, hgap, hcodes, rfl⟩ :=
      (readWithName?_eq_some_iff hv).mp h
    have hform : HasForm (.name (String.ofList name)) gap := by
      refine ⟨?_, hgap⟩
      rwa [String.toList_ofList]
    refine Split.exists_of_hasCodes ?_ hform hcodes
    rw [Amount.text, String.toList_ofList, hcut]

theorem exists_read?_of_isLiteral (hv : v.IsProper) {text : String}
    {gap codes source target : List Char} (hcut : line.toList = text.toList ++ (gap ++ codes))
    (hliteral : IsLiteral text.toList) (hgap : ∀ c ∈ gap, Text.isBlank c = true)
    (hcodes : HasCodes v codes source target) :
    ∃ c, read? v line = some c ∧ text.length ≤ c.amount.text.length := by
  have hfront : text.toList <+: (line.toList.takeWhile isLiteralChar).reverse.reverse := by
    rw [List.reverse_reverse, hcut, List.takeWhile_append_of_pos hliteral.isLiteralChar]
    exact List.prefix_append _ _
  have hline : (line.toList.takeWhile isLiteralChar).reverse.reverse ++
      line.toList.dropWhile isLiteralChar = text.toList ++ (gap ++ codes) := by
    rw [List.reverse_reverse, List.takeWhile_append_dropWhile, hcut]
  obtain ⟨amount, source, target, hread, hlength⟩ :=
    exists_readLiteral?_of_front hv hfront hline hgap hliteral hcodes
  refine ⟨⟨.literal (String.ofList amount), String.ofList source, String.ofList target⟩, ?_, ?_⟩
  · rw [read?, readWithLiteral?, hread]
    rfl
  · rw [Amount.text, String.length_ofList, ← String.length_toList]
    exact hlength

theorem read?_of_isFoldedName (hv : v.IsProper) {text : String}
    {gap codes source target : List Char} (hcut : line.toList = text.toList ++ (gap ++ codes))
    (hname : IsFoldedName text.toList) (hgap : Text.IsGap gap)
    (hcodes : HasCodes v codes source target) :
    read? v line = some ⟨.name text, String.ofList source, String.ofList target⟩ := by
  obtain ⟨d, hhead, hd⟩ := isLiteralChar_of_isFoldedName hname
  have hline : line.toList.head? = some d := by
    rw [hcut, List.head?_append, hhead, Option.some_or]
  rw [read?_of_not_isLiteralChar hline hd, (readWithName?_eq_some_iff hv).mpr
    ⟨text.toList, gap, codes, source, target, hcut, hname, hgap, hcodes, rfl⟩,
    String.ofList_toList]

/-- A line that can be split is read with an amount that is as long or longer. -/
theorem Split.exists_read? (hv : v.IsProper) (p : Split v line) :
    ∃ c, read? v line = some c ∧ p.amount.text.length ≤ c.amount.text.length := by
  have hform := p.form
  have hcut := p.line_eq
  cases hamount : p.amount with
  | literal text =>
      rw [hamount] at hform hcut
      exact exists_read?_of_isLiteral hv hcut hform.1 hform.2 p.hasCodes
  | name text =>
      rw [hamount] at hform hcut
      exact ⟨_, read?_of_isFoldedName hv hcut hform.1 hform.2 p.hasCodes, Nat.le_refl _⟩

/-- A line is read with the longest amount that it can be split with. -/
theorem read?_eq_some_iff (hv : v.IsProper) :
    read? v line = some c ↔
      ∃ p : Split v line, p.conversion = c ∧
        ∀ q : Split v line, q.amount.text.length ≤ p.amount.text.length := by
  constructor
  · intro h
    obtain ⟨p, rfl⟩ := exists_split_of_read? hv h
    refine ⟨p, rfl, ?_⟩
    intro q
    obtain ⟨c, hc, hlength⟩ := q.exists_read? hv
    rw [h] at hc
    obtain rfl := Option.some.inj hc
    exact hlength
  · rintro ⟨p, rfl, hlongest⟩
    obtain ⟨c, hc, hlength⟩ := p.exists_read? hv
    obtain ⟨q, rfl⟩ := exists_split_of_read? hv hc
    have htext := Split.text_eq_of_length_eq (Nat.le_antisymm hlength (hlongest q))
    rw [hc, Split.eq_of_text_eq hv htext]

theorem exists_read?_iff (hv : v.IsProper) :
    (∃ c, read? v line = some c) ↔ Nonempty (Split v line) := by
  constructor
  · rintro ⟨c, hc⟩
    obtain ⟨p, -⟩ := exists_split_of_read? hv hc
    exact ⟨p⟩
  · rintro ⟨p⟩
    obtain ⟨c, hc, -⟩ := p.exists_read? hv
    exact ⟨c, hc⟩

/-! ## Units -/

theorem admits_units_iff {code : List Char} :
    units.Admits code ↔ code ≠ [] ∧ ∀ c ∈ code,
      Text.isFoldedLetter c = true ∨ c.isDigit = true ∨ c ∈ ['^', '/', '(', ')'] := by
  rw [Vocabulary.Admits, and_comm]
  simp only [units, Bool.not_eq_true', List.isEmpty_eq_false_iff, Bool.or_eq_true, beq_iff_eq,
    List.mem_cons, List.not_mem_nil, or_false, or_assoc]

/-- A line is a unit conversion if it can be split into an amount, two units over letters,
digits and four signs, and the word `to` between them, with blanks where they have to be.
It is read with the longest amount of all the splits, and a split is determined by its
amount. -/
theorem unit?_eq_longest_split (line : String) :
    ((∃ c, unit? line = some c) ↔ Nonempty (Split units line)) ∧
    (∀ c, unit? line = some c ↔
      ∃ p : Split units line, p.conversion = c ∧
        ∀ q : Split units line, q.amount.text.length ≤ p.amount.text.length) ∧
    (∀ p q : Split units line, p.amount.text = q.amount.text → p = q) ∧
    ∀ code, units.Admits code ↔ code ≠ [] ∧ ∀ c ∈ code,
      Text.isFoldedLetter c = true ∨ c.isDigit = true ∨ c ∈ ['^', '/', '(', ')'] :=
  ⟨exists_read?_iff isProper_units, fun _ => read?_eq_some_iff isProper_units,
    fun _ _ => Split.eq_of_text_eq isProper_units, fun _ => admits_units_iff⟩

/-- The last digit is left for the unit. -/
example : unit? "123 to 5" = some ⟨.literal "12", "3", "5"⟩ := by decide +kernel

end Conversion
end Calculator
