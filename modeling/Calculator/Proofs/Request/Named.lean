import Calculator.Proofs.Conversion.Registry
import Calculator.Proofs.Request.Identifier
import Calculator.Proofs.Request.Order

/-!
# Lines by their words

How a line is sorted if its words are known, whatever blanks are between them: a
name alone, a conversion with a name for its amount, and a directive.
-/

namespace Calculator
namespace Request

open Conversion

/-- The words of a line. -/
def lineWords (line : String) : List String :=
  (Text.words line.toList).map String.ofList

variable {line name source word target : String} {ws : List String}

/-! ## The text of a line with given words -/

theorem words_of_lineWords (h : lineWords line = ws) :
    Text.words line.toList = ws.map String.toList := by
  rw [← h, lineWords, List.map_map]
  simp [Function.comp_def]

theorem lineWords_trimLine (line : String) : lineWords (trimLine line) = lineWords line := by
  rw [lineWords, trimLine, String.toList_ofList, Text.words_trim, lineWords]

theorem startsBlankless_trimLine (line : String) :
    Text.StartsBlankless (trimLine line).toList := by
  intro c hc
  rw [trimLine, String.toList_ofList] at hc
  exact Text.isBlank_head_trim hc

/-- A line of one word is that word, apart from blanks at its ends. -/
theorem trimLine_of_lineWords (h : lineWords line = [name]) : trimLine line = name := by
  have hwords := words_of_lineWords ((lineWords_trimLine line).trans h)
  obtain ⟨rest, hline, -, hrest⟩ :=
    Text.exists_append_of_words (startsBlankless_trimLine line) hwords
  have hnil : rest = [] := by
    by_contra hne
    have hlast : (Text.trim line.toList).getLast? = some (rest.getLast hne) := by
      rw [trimLine, String.toList_ofList] at hline
      rw [hline, List.getLast?_append_of_ne_nil _ hne, List.getLast?_eq_some_getLast hne]
    have hblank := Text.isBlank_of_words_eq_nil hrest _ (List.getLast_mem hne)
    rw [Text.isBlank_getLast_trim hlast] at hblank
    cases hblank
  rw [hnil, List.append_nil] at hline
  exact String.toList_inj.mp hline

theorem assignment?_of_lineWords (h : ∀ w ∈ lineWords line, '=' ∉ w.toList) :
    assignment? line = none := by
  refine assignment?_eq_none_of_not_mem ?_
  intro hmem
  rcases Text.isBlank_or_mem_words hmem with hblank | ⟨w, hw, hequals⟩
  · exact absurd hblank (by decide)
  · refine h (String.ofList w) (List.mem_map_of_mem hw) ?_
    rwa [String.toList_ofList]

theorem exists_head_of_lineWords (hstart : Text.StartsBlankless line.toList)
    (hwords : lineWords line = name :: ws) (hname : Token.IsIdentifier name) :
    ∃ c, line.toList.head? = some c ∧ Token.isNameStart c = true := by
  obtain ⟨rest, hline, -⟩ := Text.exists_append_of_words hstart (words_of_lineWords hwords)
  obtain ⟨c, hhead, hc⟩ := hname.start
  refine ⟨c, ?_, hc⟩
  rw [hline, List.head?_append, hhead, Option.some_or]

theorem not_startsWithKeyword_of_lineWords (hwords : lineWords line = name :: ws)
    (hkeyword : ∀ d : Directive, name ≠ d.keyword) : ¬ StartsWithKeyword line := by
  rintro ⟨d, hd⟩
  change (lineWords line).head? = some d.keyword at hd
  rw [hwords, List.head?_cons] at hd
  exact hkeyword d (Option.some.inj hd)

/-! ## Conversions -/

/-- A line with a name in front is a conversion only if it has four words. -/
theorem words_of_read? {v : Vocabulary} (hv : v.IsProper) {c : Conversion}
    (hstart : Text.StartsBlankless line.toList) (hwords : lineWords line = name :: ws)
    (hname : Token.IsIdentifier name) (hread : read? v line = some c) :
    ∃ middle, ws = [c.source, middle, c.target] ∧
      v.Admits c.source.toList ∧ v.Admits c.target.toList := by
  obtain ⟨d, hhead, hd⟩ := exists_head_of_lineWords hstart hwords hname
  rw [read?_of_isNameStart hhead hd] at hread
  obtain ⟨first, middle, -, hadmits, hadmits', hfour⟩ := exists_words_of_readWithName? hv hread
  rw [lineWords, hfour, List.map_cons] at hwords
  obtain ⟨-, hws⟩ := List.cons.inj hwords
  exact ⟨String.ofList middle, by simp [← hws], hadmits, hadmits'⟩

/-- A line of the four words is the conversion of the named amount. -/
theorem read?_of_lineWords {v : Vocabulary} (hv : v.IsProper)
    (hstart : Text.StartsBlankless line.toList)
    (hwords : lineWords line = [name, source, word, target]) (hname : Token.IsIdentifier name)
    (hto : IsTo word.toList) (hsource : v.Admits source.toList)
    (htarget : v.Admits target.toList) :
    read? v line = some ⟨.name name, source, target⟩ := by
  obtain ⟨d, hhead, hd⟩ := exists_head_of_lineWords hstart hwords hname
  rw [read?_of_isNameStart hhead hd,
    readWithName?_of_words hv hstart (words_of_lineWords hwords) hname.isFoldedName hto hsource
      htarget]
  simp

variable {s : Symbols} {v : Float}

theorem conversion?_of_read? {form : String → Option Conversion} {c : Conversion}
    (hread : form line = some c) (hamount : s.amount? c.amount = some v) :
    conversion? form line s = some (v, c) := by
  rw [conversion?, hread]
  simp [hamount]

theorem conversion?_eq_none {form : String → Option Conversion} (hread : form line = none) :
    conversion? form line s = none := by
  rw [conversion?, hread]
  rfl

section Conversions

variable (hstart : Text.StartsBlankless line.toList)
  (hwords : lineWords line = [name, source, word, target]) (hname : Token.IsIdentifier name)
  (hkeyword : ∀ d : Directive, name ≠ d.keyword) (hto : IsTo word.toList)
  (hvalue : s.operand? name = some v)

include hwords hname hkeyword hto in
/-- A conversion is neither an assignment nor a directive. -/
theorem classify_of_conversion_words {vocabulary : Vocabulary} (hv : vocabulary.IsProper)
    (hsource : vocabulary.Admits source.toList) (htarget : vocabulary.Admits target.toList) :
    classify line s =
      match conversion? currency? line s with
      | some (amount, conversion) => .currency amount conversion
      | none =>
        match conversion? unit? line s with
        | some (amount, conversion) => .unit amount conversion
        | none => .arithmetic line := by
  have hequals : ∀ w ∈ lineWords line, '=' ∉ w.toList := by
    have hcode : ∀ {code : List Char}, vocabulary.Admits code → '=' ∉ code := by
      intro code hadmits hmem
      have hequals := hadmits.1 '=' hmem
      rw [hv.noEquals] at hequals
      cases hequals
    have hword : '=' ∉ word.toList := fun hmem =>
      absurd (hto.isWordChar '=' hmem) (by decide)
    intro w hw
    rw [hwords] at hw
    simp only [List.mem_cons, List.not_mem_nil, or_false] at hw
    rcases hw with rfl | rfl | rfl | rfl
    · exact hname.equals_not_mem
    · exact hcode hsource
    · exact hword
    · exact hcode htarget
  exact classify_of_not_startsWithKeyword s (assignment?_of_lineWords hequals)
    (not_startsWithKeyword_of_lineWords hwords hkeyword)

include hstart hwords hname hkeyword hto hvalue in
theorem classify_of_currency_words (hsource : currencies.Admits source.toList)
    (htarget : currencies.Admits target.toList) :
    classify line s = .currency v ⟨.name name, source, target⟩ := by
  have hread : currency? line = some ⟨.name name, source, target⟩ :=
    read?_of_lineWords isProper_currencies hstart hwords hname hto hsource htarget
  rw [classify_of_conversion_words hwords hname hkeyword hto isProper_currencies hsource htarget,
    conversion?_of_read? hread hvalue]

include hstart hwords hname hkeyword hto hvalue in
/-- Two units that are paired are not taken for currencies. -/
theorem classify_of_unit_words (hpair : UnitConversion.IsPair source.toList target.toList) :
    classify line s = .unit v ⟨.name name, source, target⟩ := by
  have hread : unit? line = some ⟨.name name, source, target⟩ :=
    read?_of_lineWords isProper_units hstart hwords hname hto hpair.admits_source
      hpair.admits_target
  have hnone : currency? line = none := by
    by_contra hsome
    obtain ⟨c, hc⟩ := Option.ne_none_iff_exists'.mp hsome
    obtain ⟨middle, hws, hadmits, hadmits'⟩ :=
      words_of_read? isProper_currencies hstart hwords hname hc
    simp only [List.cons.injEq, and_true] at hws
    obtain ⟨rfl, -, rfl⟩ := hws
    exact hpair.not_currencies ⟨hadmits, hadmits'⟩
  rw [classify_of_conversion_words hwords hname hkeyword hto isProper_units hpair.admits_source
      hpair.admits_target, conversion?_eq_none hnone, conversion?_of_read? hread hvalue]

end Conversions

/-! ## Names and directives -/

theorem lineWords_of_isWord (hword : Text.IsWord line.toList) : lineWords line = [line] := by
  rw [lineWords, hword.words_eq]
  simp

theorem lineWords_of_identifier (hname : Token.IsIdentifier name) : lineWords name = [name] :=
  lineWords_of_isWord hname.isWord

/-- A conversion has blanks in it. -/
theorem read?_eq_none_of_isWord {v : Vocabulary} (hv : v.IsProper)
    (hword : Text.IsWord line.toList) : read? v line = none := by
  by_contra hsome
  obtain ⟨c, hc⟩ := Option.ne_none_iff_exists'.mp hsome
  obtain ⟨front, codes, hline, gap, word, gap', rest, hcodes, -, hgap, -⟩ :=
    exists_codes_of_read? hv hc
  obtain ⟨b, hb⟩ := List.exists_mem_of_ne_nil gap hgap.nonempty
  have hmem : b ∈ line.toList := by
    rw [hline, hcodes]
    simp [hb]
  exact absurd (hgap.blank b hb) (by simp [hword.blankless b hmem])

/-- A single word is an expression, unless it is an assignment or a directive. -/
theorem classify_of_isWord (s : Symbols) (hword : Text.IsWord line.toList)
    (hequals : '=' ∉ line.toList) (hkeyword : ∀ d : Directive, line ≠ d.keyword) :
    classify line s = .arithmetic line :=
  classify_eq_arithmetic_iff.mpr
    ⟨rfl, assignment?_eq_none_of_not_mem hequals,
      not_startsWithKeyword_of_lineWords (lineWords_of_isWord hword) hkeyword,
      conversion?_eq_none (read?_eq_none_of_isWord isProper_currencies hword),
      conversion?_eq_none (read?_eq_none_of_isWord isProper_units hword)⟩

/-- A line with a double equals sign that begins with `evaluate` is a directive. -/
theorem classify_of_evaluate_words (s : Symbols)
    (hwords : lineWords line = Directive.evaluate.keyword :: ws) (hequals : "==" ∈ ws) :
    classify line s = .evaluation (Directive.evaluate.keyword :: ws) := by
  have hpair : Text.containsPair '=' '=' line.toList = true := by
    have hmem : "==".toList ∈ Text.words line.toList := by
      rw [words_of_lineWords hwords]
      exact List.mem_map_of_mem (List.mem_cons_of_mem _ hequals)
    exact Text.containsPair_iff.mpr (Text.infix_of_mem_words hmem)
  have hsides : assignment? line = none := by
    rw [assignment?, if_pos hpair]
  have hfirst : (lineWords line).head? = some Directive.evaluate.keyword := by
    rw [hwords, List.head?_cons]
  rw [classify_of_evaluate s hsides hfirst]
  exact congrArg Request.evaluation hwords

end Request
end Calculator
