import Calculator.Conversion.Form
import Calculator.Proofs.Text.Splitting
import Calculator.Proofs.Text.WholeWord
import Calculator.Proofs.Text.Words

/-!
# What a conversion line consists of

The readers of conversion lines take stretches off the front.  What they read is
stated here as a way in which the whole line falls apart, for currencies and units
alike; all that matters about the codes is that they are not empty and have neither
blanks nor equals signs in them.
-/

namespace Calculator
namespace Conversion

/-! ## The parts of a line -/

/-- The word `to` in any case. -/
def IsTo (word : List Char) : Prop :=
  ∃ t o, word = [t, o] ∧ Text.isLetterIn 't' t = true ∧ Text.isLetterIn 'o' o = true

/-- A code that a vocabulary admits. -/
def Vocabulary.Admits (v : Vocabulary) (code : List Char) : Prop :=
  (∀ c ∈ code, v.isCodeChar c = true) ∧ v.isCode code = true

/-- Codes are not empty and have neither blanks nor equals signs in them. -/
structure Vocabulary.IsProper (v : Vocabulary) : Prop where
  nonempty : v.isCode [] = false
  blankless : ∀ c, v.isCodeChar c = true → Text.isBlank c = false
  noEquals : v.isCodeChar '=' = false

/-- The text reads `<from> to <to>`, maybe with blanks at its end. -/
def HasCodes (v : Vocabulary) (cs source target : List Char) : Prop :=
  ∃ gap word gap' rest, cs = source ++ (gap ++ (word ++ (gap' ++ (target ++ rest)))) ∧
    v.Admits source ∧ Text.IsGap gap ∧ IsTo word ∧ Text.IsGap gap' ∧ v.Admits target ∧
    ∀ c ∈ rest, Text.isBlank c = true

/-- A name in a conversion line, where the case of letters does not matter. -/
def IsFoldedName (name : List Char) : Prop :=
  (∃ c, name.head? = some c ∧ (Text.isFoldedLetter c || c == '_') = true) ∧
    ∀ c ∈ name, Text.isFoldedNameChar c = true

/-! ## Blanks and codes -/

theorem isWordChar_of_currency {c : Char} (h : currencies.isCodeChar c = true) :
    Text.isWordChar c = true :=
  Text.isWordChar_of_isFoldedNameChar (Text.isFoldedNameChar_of_isFoldedLetter h)

/-- The characters of units that belong to no word are few. -/
theorem isWordChar_or_of_unit {c : Char} (h : units.isCodeChar c = true) :
    Text.isWordChar c = true ∨ c ∈ ['^', '/', '(', ')'] := by
  simp only [units, Bool.or_eq_true, beq_iff_eq] at h
  rcases h with ((((h | h) | rfl) | rfl) | rfl) | rfl
  · exact .inl (Text.isWordChar_of_isFoldedNameChar (Text.isFoldedNameChar_of_isFoldedLetter h))
  · exact .inl (Text.isWordChar_of_isAlphanum (by simp [Char.isAlphanum, h]))
  all_goals exact .inr (by decide)

theorem isProper_currencies : currencies.IsProper :=
  ⟨rfl, fun _ h => Text.isBlank_of_isWordChar (isWordChar_of_currency h), by decide⟩

theorem isProper_units : units.IsProper := by
  refine ⟨rfl, ?_, by decide⟩
  intro c h
  rcases isWordChar_or_of_unit h with hword | hmem
  · exact Text.isBlank_of_isWordChar hword
  · have hsigns : (['^', '/', '(', ')'].all fun d => !Text.isBlank d) = true := by decide
    simpa using List.all_eq_true.mp hsigns c hmem

theorem IsTo.isWordChar {word : List Char} (h : IsTo word) :
    ∀ c ∈ word, Text.isWordChar c = true := by
  obtain ⟨t, o, rfl, ht, ho⟩ := h
  simp only [Text.isLetterIn, Bool.or_eq_true, beq_iff_eq] at ht ho
  intro c hc
  rw [List.mem_pair] at hc
  rcases hc with rfl | rfl
  · rcases ht with rfl | rfl <;> decide
  · rcases ho with rfl | rfl <;> decide

theorem IsTo.isWord {word : List Char} (h : IsTo word) : Text.IsWord word := by
  refine ⟨?_, fun c hc => Text.isBlank_of_isWordChar (h.isWordChar c hc)⟩
  obtain ⟨t, o, rfl, -⟩ := h
  simp

theorem Vocabulary.IsProper.isWord {v : Vocabulary} (hv : v.IsProper) {code : List Char}
    (h : v.Admits code) : Text.IsWord code := by
  refine ⟨?_, fun c hc => hv.blankless c (h.1 c hc)⟩
  rintro rfl
  have hcode := h.2
  rw [hv.nonempty] at hcode
  cases hcode

theorem IsFoldedName.isWord {name : List Char} (h : IsFoldedName name) : Text.IsWord name := by
  obtain ⟨⟨c, hhead, -⟩, hchars⟩ := h
  refine ⟨?_, ?_⟩
  · rintro rfl
    cases hhead
  · intro d hd
    exact Text.isBlank_of_isWordChar (Text.isWordChar_of_isFoldedNameChar (hchars d hd))

/-! ## The readers of the parts -/

theorem skipGap?_eq_some_iff {cs rest : List Char} :
    skipGap? cs = some rest ↔
      ∃ gap, cs = gap ++ rest ∧ Text.IsGap gap ∧ Text.StartsBlankless rest := by
  constructor
  · intro h
    unfold skipGap? at h
    split at h
    · rename_i c cs
      split at h
      · rename_i hc
        cases h
        refine ⟨c :: cs.takeWhile Text.isBlank, ?_, ⟨by simp, ?_⟩,
          fun d hd => Text.isBlank_head_trimStart hd⟩
        · rw [List.cons_append, Text.trimStart_append]
        · intro d hd
          rcases List.mem_cons.mp hd with rfl | hd
          · exact hc
          · exact Text.isBlank_of_mem_takeWhile hd
      · cases h
    · cases h
  · rintro ⟨gap, rfl, ⟨hne, hblanks⟩, hrest⟩
    obtain ⟨c, gap, rfl⟩ := List.exists_cons_of_ne_nil hne
    have hgap : ∀ d ∈ gap, Text.isBlank d = true :=
      fun d hd => hblanks d (List.mem_cons_of_mem c hd)
    rw [List.cons_append, skipGap?, if_pos (hblanks c List.mem_cons_self), Text.trimStart,
      Text.dropWhile_append_of_head? hgap hrest]

theorem skipTo?_eq_some_iff {cs rest : List Char} :
    skipTo? cs = some rest ↔ ∃ word, cs = word ++ rest ∧ IsTo word := by
  constructor
  · intro h
    unfold skipTo? at h
    split at h
    · rename_i t o cs
      split at h
      · rename_i hletters
        cases h
        rw [Bool.and_eq_true] at hletters
        exact ⟨[t, o], rfl, t, o, rfl, hletters.1, hletters.2⟩
      · cases h
    · cases h
  · rintro ⟨word, rfl, t, o, rfl, ht, ho⟩
    simp [skipTo?, ht, ho]

theorem readCode?_eq_some_iff {v : Vocabulary} {cs code rest : List Char} :
    readCode? v cs = some (code, rest) ↔
      cs = code ++ rest ∧ v.Admits code ∧
        ∀ c, rest.head? = some c → v.isCodeChar c = false := by
  constructor
  · intro h
    unfold readCode? at h
    dsimp only at h
    split at h
    · rename_i hcode
      cases h
      refine ⟨List.takeWhile_append_dropWhile.symm,
        ⟨List.all_eq_true.mp List.all_takeWhile, hcode⟩, ?_⟩
      intro c hc
      have hnot := List.head?_dropWhile_not v.isCodeChar cs
      rw [hc] at hnot
      simpa using hnot
    · cases h
  · rintro ⟨rfl, ⟨hchars, hcode⟩, hrest⟩
    rw [readCode?, Text.takeWhile_append_of_head? hchars hrest,
      Text.dropWhile_append_of_head? hchars hrest, if_pos hcode]

/-- A code ends where a blank follows, or nothing. -/
theorem Vocabulary.IsProper.stops {v : Vocabulary} (hv : v.IsProper) {rest : List Char}
    (hrest : Text.StartsBlank rest) :
    ∀ c, rest.head? = some c → v.isCodeChar c = false := by
  intro c hc
  by_cases hcode : v.isCodeChar c = true
  · have hblank := hrest c hc
    rw [hv.blankless c hcode] at hblank
    cases hblank
  · exact Bool.eq_false_iff.mpr hcode

/-! ## The codes -/

/-- What is read as codes is a text of their form, and every such text is read. -/
theorem readCodes?_eq_some_iff {v : Vocabulary} (hv : v.IsProper)
    {cs source target : List Char} :
    readCodes? v cs = some (source, target) ↔ HasCodes v cs source target := by
  constructor
  · intro h
    simp only [readCodes?, Option.bind_eq_bind, Option.bind_eq_some_iff, Prod.exists] at h
    obtain ⟨_, _, hsource, _, hskip, _, hskipTo, _, hskip', _, rest, htarget, hend⟩ := h
    obtain ⟨rfl, hadmits, -⟩ := readCode?_eq_some_iff.mp hsource
    obtain ⟨gap, rfl, hgap, -⟩ := skipGap?_eq_some_iff.mp hskip
    obtain ⟨word, rfl, hto⟩ := skipTo?_eq_some_iff.mp hskipTo
    obtain ⟨gap', rfl, hgap', -⟩ := skipGap?_eq_some_iff.mp hskip'
    obtain ⟨rfl, hadmits', -⟩ := readCode?_eq_some_iff.mp htarget
    split at hend
    · rename_i hrest
      cases hend
      exact ⟨gap, word, gap', rest, rfl, hadmits, hgap, hto, hgap', hadmits',
        List.all_eq_true.mp hrest⟩
    · cases hend
  · rintro ⟨gap, word, gap', rest, rfl, hadmits, hgap, hto, hgap', hadmits', hrest⟩
    have hstop : ∀ c, (gap ++ (word ++ (gap' ++ (target ++ rest)))).head? = some c →
        v.isCodeChar c = false :=
      hv.stops (hgap.startsBlank _)
    have hstop' : ∀ c, rest.head? = some c → v.isCodeChar c = false :=
      hv.stops (Text.startsBlank_of_blanks hrest)
    rw [readCodes?, readCode?_eq_some_iff.mpr ⟨rfl, hadmits, hstop⟩]
    simp only [Option.bind_eq_bind, Option.bind_some]
    rw [skipGap?_eq_some_iff.mpr ⟨gap, rfl, hgap, hto.isWord.startsBlankless _⟩]
    simp only [Option.bind_some]
    rw [skipTo?_eq_some_iff.mpr ⟨word, rfl, hto⟩]
    simp only [Option.bind_some]
    rw [skipGap?_eq_some_iff.mpr ⟨gap', rfl, hgap', (hv.isWord hadmits').startsBlankless _⟩]
    simp only [Option.bind_some]
    rw [readCode?_eq_some_iff.mpr ⟨rfl, hadmits', hstop'⟩]
    simp only [Option.bind_some]
    rw [if_pos (List.all_eq_true.mpr hrest)]

/-! ## The amount -/

/-- The amount that is read stands at the front, and the codes stand behind it. -/
theorem readLiteral?_eq_some {v : Vocabulary} (hv : v.IsProper)
    {candidate rest amount source target : List Char}
    (h : readLiteral? v candidate rest = some (amount, source, target)) :
    ∃ gap codes, candidate.reverse ++ rest = amount ++ (gap ++ codes) ∧
      (∀ c ∈ gap, Text.isBlank c = true) ∧ isLiteral amount = true ∧
      HasCodes v codes source target := by
  induction candidate generalizing rest with
  | nil => cases h
  | cons c candidate ih =>
      rw [readLiteral?] at h
      split at h
      · rename_i source' target' hcodes
        cases h
        obtain ⟨hread, hliteral⟩ := Option.filter_eq_some_iff.mp hcodes
        refine ⟨rest.takeWhile Text.isBlank, Text.trimStart rest, ?_,
          fun d hd => Text.isBlank_of_mem_takeWhile hd, hliteral,
          (readCodes?_eq_some_iff hv).mp hread⟩
        rw [Text.trimStart_append]
      · obtain ⟨gap, codes, hcut, hgap, hliteral, hhas⟩ := ih h
        refine ⟨gap, codes, ?_, hgap, hliteral, hhas⟩
        rw [← hcut, List.reverse_cons, List.append_assoc, List.singleton_append]

/-- A line with a name for its amount is read as it falls apart. -/
theorem readWithName?_eq_some_iff {v : Vocabulary} (hv : v.IsProper) {cs : List Char}
    {c : Conversion} :
    readWithName? v cs = some c ↔
      ∃ name gap codes source target, cs = name ++ (gap ++ codes) ∧ IsFoldedName name ∧
        Text.IsGap gap ∧ HasCodes v codes source target ∧
        c = ⟨.name (String.ofList name), String.ofList source, String.ofList target⟩ := by
  constructor
  · intro h
    simp only [readWithName?, Option.bind_eq_bind, Option.bind_eq_some_iff] at h
    obtain ⟨d, hd, h⟩ := h
    split at h
    · rename_i hstart
      simp only [Option.bind_eq_some_iff, Prod.exists] at h
      obtain ⟨codes, hskip, source, target, hcodes, hc⟩ := h
      obtain ⟨gap, hrest, hgap, -⟩ := skipGap?_eq_some_iff.mp hskip
      have hname : Text.isFoldedNameChar d = true := by
        simp only [Bool.or_eq_true] at hstart
        simp only [Text.isFoldedNameChar, Bool.or_eq_true]
        rcases hstart with hstart | hstart
        · exact .inl (.inl hstart)
        · exact .inr hstart
      refine ⟨cs.takeWhile Text.isFoldedNameChar, gap, codes, source, target, ?_,
        ⟨⟨d, ?_, hstart⟩, List.all_eq_true.mp List.all_takeWhile⟩, hgap,
        (readCodes?_eq_some_iff hv).mp hcodes, (Option.some.inj hc).symm⟩
      · rw [← hrest, List.takeWhile_append_dropWhile]
      · rw [List.head?_takeWhile, hd, Option.filter_some, if_pos hname]
    · cases h
  · rintro ⟨name, gap, codes, source, target, rfl, ⟨⟨d, hd, hstart⟩, hname⟩, hgap, hcodes, rfl⟩
    have hstop : ∀ e, (gap ++ codes).head? = some e → Text.isFoldedNameChar e = false := by
      intro e he
      have hblank := hgap.startsBlank _ e he
      by_cases hchar : Text.isFoldedNameChar e = true
      · rw [Text.isBlank_of_isWordChar (Text.isWordChar_of_isFoldedNameChar hchar)] at hblank
        cases hblank
      · exact Bool.eq_false_iff.mpr hchar
    have hbehind : Text.StartsBlankless codes := by
      obtain ⟨_, _, _, _, rfl, hadmits, -⟩ := hcodes
      exact (hv.isWord hadmits).startsBlankless _
    have hhead : (name ++ (gap ++ codes)).head? = some d := by
      rw [List.head?_append, hd, Option.some_or]
    rw [readWithName?, hhead]
    simp only [Option.bind_eq_bind, Option.bind_some]
    rw [if_pos hstart, Text.dropWhile_append_of_head? hname hstop,
      Text.takeWhile_append_of_head? hname hstop,
      skipGap?_eq_some_iff.mpr ⟨gap, rfl, hgap, hbehind⟩]
    simp only [Option.bind_some]
    rw [(readCodes?_eq_some_iff hv).mpr hcodes]
    rfl

/-! ## The words of a line -/

/-- A text of the form of codes has three words. -/
theorem HasCodes.exists_words {v : Vocabulary} (hv : v.IsProper) {cs source target : List Char}
    (h : HasCodes v cs source target) :
    ∃ word, IsTo word ∧ v.Admits source ∧ v.Admits target ∧
      Text.words cs = [source, word, target] := by
  obtain ⟨gap, word, gap', rest, rfl, hadmits, hgap, hto, hgap', hadmits', hrest⟩ := h
  refine ⟨word, hto, hadmits, hadmits', ?_⟩
  rw [(hv.isWord hadmits).words_append (hgap.startsBlank _),
    Text.words_append_of_blanks hgap.2,
    hto.isWord.words_append (hgap'.startsBlank _),
    Text.words_append_of_blanks hgap'.2, Text.words_append_back hrest,
    (hv.isWord hadmits').words_eq]

/-- Three words of the right kinds are codes, whatever blanks are between them. -/
theorem hasCodes_of_words {v : Vocabulary} {cs source word target : List Char}
    (hstart : Text.StartsBlankless cs) (hwords : Text.words cs = [source, word, target])
    (hto : IsTo word) (hadmits : v.Admits source) (hadmits' : v.Admits target) :
    HasCodes v cs source target := by
  obtain ⟨rest, rfl, hrest, hwords⟩ := Text.exists_append_of_words hstart hwords
  obtain ⟨gap, cs, rfl, hgap, hstart, hcs⟩ :=
    Text.exists_gap_of_words hrest (by simp [hwords])
  obtain ⟨rest, rfl, hrest, hwords⟩ := Text.exists_append_of_words hstart (hcs.trans hwords)
  obtain ⟨gap', cs, rfl, hgap', hstart, hcs⟩ :=
    Text.exists_gap_of_words hrest (by simp [hwords])
  obtain ⟨rest, rfl, -, hwords⟩ := Text.exists_append_of_words hstart (hcs.trans hwords)
  exact ⟨gap, word, gap', rest, rfl, hadmits, hgap, hto, hgap', hadmits',
    Text.isBlank_of_words_eq_nil hwords⟩

/-- A conversion with a name for its amount is a line of four words. -/
theorem exists_words_of_readWithName? {v : Vocabulary} (hv : v.IsProper) {cs : List Char}
    {c : Conversion} (h : readWithName? v cs = some c) :
    ∃ name word, c.amount = .name (String.ofList name) ∧ v.Admits c.source.toList ∧
      v.Admits c.target.toList ∧
        Text.words cs = [name, c.source.toList, word, c.target.toList] := by
  obtain ⟨name, gap, codes, source, target, rfl, hname, hgap, hcodes, rfl⟩ :=
    (readWithName?_eq_some_iff hv).mp h
  obtain ⟨word, -, hadmits, hadmits', hwords⟩ := hcodes.exists_words hv
  refine ⟨name, word, rfl, by simpa using hadmits, by simpa using hadmits', ?_⟩
  rw [hname.isWord.words_append (hgap.startsBlank _), Text.words_append_of_blanks hgap.blank,
    hwords]
  simp

theorem readWithName?_of_words {v : Vocabulary} (hv : v.IsProper)
    {cs name source word target : List Char} (hstart : Text.StartsBlankless cs)
    (hwords : Text.words cs = [name, source, word, target]) (hname : IsFoldedName name)
    (hto : IsTo word) (hadmits : v.Admits source) (hadmits' : v.Admits target) :
    readWithName? v cs =
      some ⟨.name (String.ofList name), String.ofList source, String.ofList target⟩ := by
  obtain ⟨rest, rfl, hrest, hwords⟩ := Text.exists_append_of_words hstart hwords
  obtain ⟨gap, codes, rfl, hgap, hstart, hcodes⟩ :=
    Text.exists_gap_of_words hrest (by simp [hwords])
  have hhas : HasCodes v codes source target :=
    hasCodes_of_words hstart (hcodes.trans hwords) hto hadmits hadmits'
  exact (readWithName?_eq_some_iff hv).mpr
    ⟨name, gap, codes, source, target, rfl, hname, hgap, hhas, rfl⟩

/-! ## The line -/

/-- Whatever the amount is, the codes stand at the end of a conversion line. -/
theorem exists_codes_of_read? {v : Vocabulary} (hv : v.IsProper) {line : String}
    {c : Conversion} (h : read? v line = some c) :
    ∃ front codes, line.toList = front ++ codes ∧
      HasCodes v codes c.source.toList c.target.toList := by
  rw [read?, Option.orElse_eq_orElse, Option.orElse_eq_or, Option.or_eq_some_iff] at h
  rcases h with h | ⟨-, h⟩
  · obtain ⟨⟨amount, source, target⟩, hread, rfl⟩ := Option.map_eq_some_iff.mp h
    obtain ⟨gap, codes, hcut, -, -, hcodes⟩ := readLiteral?_eq_some hv hread
    rw [List.reverse_reverse, List.takeWhile_append_dropWhile] at hcut
    refine ⟨amount ++ gap, codes, by rw [hcut, List.append_assoc], ?_⟩
    simpa using hcodes
  · obtain ⟨name, gap, codes, source, target, hcut, -, -, hcodes, rfl⟩ :=
      (readWithName?_eq_some_iff hv).mp h
    refine ⟨name ++ gap, codes, by rw [hcut, List.append_assoc], ?_⟩
    simpa using hcodes

end Conversion
end Calculator
