import Calculator.Proofs.Conversion.Inverse
import Calculator.Proofs.Decimal.Literal
import Calculator.Proofs.Request.Currency
import Calculator.Proofs.Session.Effect

/-!
# Lines for the registered units

Every key of the registry is reached by a line with any amount in ASCII digits, in any state
of the session.  The units begin with letters, so the amount keeps all its digits even where
it stands directly in front of the unit; and no key could be taken for two currencies.
-/

namespace Calculator
namespace Conversion

/-! ## Amounts in ASCII digits -/

/-- An amount in ASCII digits: a literal without an exponent, maybe with a minus sign. -/
structure Quantity where
  negative : Bool
  literal : Decimal.Literal
  positional : literal.exponent = none

namespace Quantity

variable (q : Quantity)

def text : String :=
  String.ofList (if q.negative then '-' :: q.literal.chars else q.literal.chars)

/-- The double that the whole text stands for. -/
def value : Float :=
  if q.negative then -q.literal.decimal.toFloat else q.literal.decimal.toFloat

theorem read?_text : Decimal.read? q.text.toList = some q.value := by
  have hmagnitude : Decimal.readMagnitude? q.literal.chars = some q.literal.decimal.toFloat := by
    rw [Decimal.readMagnitude?, q.literal.readUnsigned?_chars]
  rw [text, value, String.toList_ofList]
  cases q.negative with
  | true =>
      change (Decimal.readMagnitude? q.literal.chars).map (fun v => -v) = _
      rw [hmagnitude]
      rfl
  | false => exact q.literal.decimalRead?_chars

theorem chars_eq : q.literal.chars = q.literal.whole ++ q.literal.pointPart := by
  rw [Decimal.Literal.chars, Decimal.Literal.exponentText, q.positional, List.append_nil]

theorem isLiteral_text : IsLiteral q.text.toList := by
  have hdigits : ∀ {cs : List Char}, cs ≠ [] → (∀ c ∈ cs, c.isDigit = true) → IsDigits cs :=
    fun hne h => ⟨hne, fun c hc => Text.isDecimalDigit_of_isDigit (h c hc)⟩
  have hwhole := hdigits q.literal.whole_ne_nil q.literal.whole_digits
  have hunsigned : IsUnsigned q.literal.chars := by
    rw [q.chars_eq, Decimal.Literal.pointPart]
    by_cases hfraction : q.literal.fraction = []
    · rw [if_pos hfraction, List.append_nil]
      exact .inl hwhole
    · rw [if_neg hfraction]
      exact .inr ⟨_, _, rfl, hwhole, hdigits hfraction q.literal.fraction_digits⟩
  rw [text, String.toList_ofList]
  cases q.negative with
  | true => exact .inr ⟨_, rfl, hunsigned⟩
  | false => exact .inl hunsigned

end Quantity

/-! ## Registered units in a line -/

/-- Every registered key begins with a letter. -/
theorem isFoldedLetter_head_of_mem_keys :
    ∀ key ∈ UnitConversion.keys, ∀ c, key.toList.head? = some c →
      Text.isFoldedLetter c = true := by
  have hkeys : ∀ key ∈ UnitConversion.keys, key.toList.head?.all Text.isFoldedLetter = true := by
    decide +kernel
  intro key hmem c hc
  have hall := hkeys key hmem
  rw [hc] at hall
  exact hall

variable {source target : String} {u : UnitConversion}

theorem isFoldedLetter_head_source
    (hkey : UnitConversion.find? (source ++ " to " ++ target) = some u) :
    ∀ c, source.toList.head? = some c → Text.isFoldedLetter c = true := by
  intro c hc
  refine isFoldedLetter_head_of_mem_keys _ (UnitConversion.mem_keys_of_find? hkey) c ?_
  rw [String.toList_append, String.toList_append, List.append_assoc, List.head?_append, hc,
    Option.some_or]

/-- A line that asks for a conversion of an amount, with the blanks between its parts. -/
def line (amount gap source sourceGap word wordGap target : String) : String :=
  amount ++ gap ++ source ++ sourceGap ++ word ++ wordGap ++ target

/-- The line begins with a character of the amount. -/
theorem isLiteralChar_head_line (q : Quantity) (gap source sourceGap word wordGap target : String) :
    ∃ c, (line q.text gap source sourceGap word wordGap target).toList.head? = some c ∧
      isLiteralChar c = true := by
  obtain ⟨c, cs, hcs⟩ := List.exists_cons_of_ne_nil q.isLiteral_text.ne_nil
  refine ⟨c, by simp [line, hcs], ?_⟩
  exact q.isLiteral_text.isLiteralChar c (hcs ▸ List.mem_cons_self)

theorem startsBlankless_line (q : Quantity)
    (gap source sourceGap word wordGap target : String) :
    Text.StartsBlankless (line q.text gap source sourceGap word wordGap target).toList := by
  obtain ⟨c, hc, hchar⟩ := isLiteralChar_head_line q gap source sourceGap word wordGap target
  intro d hd
  rw [hc] at hd
  obtain rfl := Option.some.inj hd
  by_contra hblank
  rw [isLiteralChar_of_isBlank (Bool.of_not_eq_false hblank)] at hchar
  cases hchar

/-- No directive begins like an amount in digits. -/
theorem not_startsWithKeyword_line (q : Quantity)
    (gap source sourceGap word wordGap target : String) :
    ¬ Request.StartsWithKeyword (line q.text gap source sourceGap word wordGap target) := by
  rintro ⟨d, hd⟩
  obtain ⟨w, ws, hwords, hw⟩ := List.map_eq_cons_iff.mp (List.eq_cons_of_mem_head? hd)
  have hkeyword : d.keyword.toList = w := by rw [← hw.1, String.toList_ofList]
  obtain ⟨rest, hline, -⟩ := Text.exists_append_of_words
    (startsBlankless_line q gap source sourceGap word wordGap target) hwords
  obtain ⟨c, hc, hchar⟩ := isLiteralChar_head_line q gap source sourceGap word wordGap target
  rw [hline, ← hkeyword] at hc
  cases d with
  | evaluate =>
      obtain rfl : 'e' = c := Option.some.inj hc
      exact absurd hchar (by decide)
  | graph =>
      obtain rfl : 'g' = c := Option.some.inj hc
      exact absurd hchar (by decide)

theorem trimLine_line (q : Quantity) (gap sourceGap word wordGap : String)
    (hkey : UnitConversion.find? (source ++ " to " ++ target) = some u) :
    trimLine (line q.text gap source sourceGap word wordGap target) =
      line q.text gap source sourceGap word wordGap target := by
  have hstart := startsBlankless_line q gap source sourceGap word wordGap target
  have hword := isProper_units.isWord (UnitConversion.isPair_of_find? hkey).admits_target
  rw [trimLine, Text.trim_eq_self hstart, String.ofList_toList]
  intro c hc
  rw [line, String.toList_append, List.getLast?_append_of_ne_nil _ hword.nonempty] at hc
  exact hword.blankless c (List.mem_of_getLast? hc)

section Lines

variable (q : Quantity) {gap sourceGap word wordGap : String}
  (hkey : UnitConversion.find? (source ++ " to " ++ target) = some u)
  (hgap : ∀ c ∈ gap.toList, Text.isBlank c = true) (hsourceGap : Text.IsGap sourceGap.toList)
  (hto : IsTo word.toList) (hwordGap : Text.IsGap wordGap.toList)

include hkey hgap hsourceGap hto hwordGap

/-- The parts of the line are a split of it. -/
theorem exists_split_line :
    ∃ p : Split units (line q.text gap source sourceGap word wordGap target),
      p.conversion = ⟨.literal q.text, source, target⟩ ∧ p.EndsAmount := by
  have hpair := UnitConversion.isPair_of_find? hkey
  let p : Split units (line q.text gap source sourceGap word wordGap target) :=
    { amount := .literal q.text, gap := gap.toList, source := source.toList
      sourceGap := sourceGap.toList, word := word.toList, wordGap := wordGap.toList
      target := target.toList, rest := []
      line_eq := by simp [line, Amount.text]
      form := ⟨q.isLiteral_text, hgap⟩
      source_admitted := hpair.admits_source
      sourceGap_isGap := hsourceGap
      word_isTo := hto
      wordGap_isGap := hwordGap
      target_admitted := hpair.admits_target
      rest_blank := by simp }
  refine ⟨p, by simp [Split.conversion, p], ?_⟩
  exact p.endsAmount (isFoldedLetter_head_source hkey)
    (isProper_units.isWord p.source_admitted).nonempty

/-- The line is read with the whole amount and both units. -/
theorem unit?_line :
    unit? (line q.text gap source sourceGap word wordGap target) =
      some ⟨.literal q.text, source, target⟩ := by
  obtain ⟨p, hp, hends⟩ := exists_split_line q hkey hgap hsourceGap hto hwordGap
  rw [unit?, p.read?_eq isProper_units hends, hp]

/-- The units of the line are no currencies. -/
theorem currency?_line :
    currency? (line q.text gap source sourceGap word wordGap target) = none := by
  by_contra hsome
  obtain ⟨c, hc⟩ := Option.ne_none_iff_exists'.mp hsome
  have hunit := unit?_of_currency? hc
  rw [unit?_line q hkey hgap hsourceGap hto hwordGap] at hunit
  obtain rfl := Option.some.inj hunit
  obtain ⟨-, -, -, _, _, _, _, -, hsource, -, -, -, htarget, -⟩ :=
    exists_codes_of_read? isProper_currencies hc
  exact (UnitConversion.isPair_of_find? hkey).not_currencies ⟨hsource, htarget⟩

theorem classify_line (s : Symbols) :
    Request.classify (line q.text gap source sourceGap word wordGap target) s =
      .unit q.value ⟨.literal q.text, source, target⟩ := by
  have hunit := unit?_line q hkey hgap hsourceGap hto hwordGap
  have hcurrency := currency?_line q hkey hgap hsourceGap hto hwordGap
  have hamount : s.amount? (.literal q.text) = some q.value := q.read?_text
  rw [Request.classify_of_not_startsWithKeyword s
      (Request.assignment?_of_read? isProper_units hunit)
      (not_startsWithKeyword_line q gap source sourceGap word wordGap target),
    Request.conversion?_eq_none hcurrency, Request.conversion?_of_read? hunit hamount]

end Lines

end Conversion

namespace Session

open Conversion

variable [Elementary]

/-- A line with an amount in ASCII digits and the two units of a registered key is answered
with the registered conversion of the whole amount, whatever blanks are between its parts and
whatever the session holds.  The key in reverse order is registered as well.  Both conversions
are formulas read in doubles, and read in rational numbers the second undoes the first. -/
theorem process_registered_unit (rates : RateSource) (s : Symbols) (q : Quantity)
    {source target : String} {u : UnitConversion}
    (hkey : UnitConversion.find? (source ++ " to " ++ target) = some u)
    {gap sourceGap word wordGap : String} (hgap : ∀ c ∈ gap.toList, Text.isBlank c = true)
    (hsourceGap : Text.IsGap sourceGap.toList) (hto : IsTo word.toList)
    (hwordGap : Text.IsGap wordGap.toList) :
    (∃ v, Decimal.read? q.text.toList = some v ∧
      Request.classify (line q.text gap source sourceGap word wordGap target) s =
        .unit v ⟨.literal q.text, source, target⟩ ∧
      process rates s (line q.text gap source sourceGap word wordGap target) =
        ⟨.ok (.unit v source target (u.apply v)), s, []⟩) ∧
    ∃ u', UnitConversion.find? (target ++ " to " ++ source) = some u' ∧
      (∀ v : Float, u.apply v = u.applyIn id v ∧ u'.apply v = u'.applyIn id v) ∧
      ∀ x : ℚ, u'.applyIn Binary64.exactValue (u.applyIn Binary64.exactValue x) = x := by
  have hclassify := classify_line q hkey hgap hsourceGap hto hwordGap s
  refine ⟨⟨q.value, q.read?_text, hclassify, ?_⟩, u.inverse,
    UnitConversion.find?_reversed hkey, fun v => ⟨?_, ?_⟩,
    UnitConversion.inverse_applyIn_exactValue hkey⟩
  · rw [process_eq, trimLine_line q gap sourceGap word wordGap hkey, hclassify]
    dsimp only
    rw [convertUnit, key, hkey]
    rfl
  · exact u.apply_eq_applyIn v
  · exact u.inverse.apply_eq_applyIn v

/-- A negative amount with a fraction. -/
def minusTwelveAndAHalf : Quantity where
  negative := true
  literal :=
    { whole := ['1', '2']
      fraction := ['5']
      exponent := none
      whole_ne_nil := by decide
      whole_digits := by simp
      fraction_digits := by simp }
  positional := rfl

omit [Elementary] in
/-- A product, a quotient and a temperature, each with the formula that undoes it. -/
theorem process_negative_amounts :
    let _ := Elementary.machine
    (UnitConversion.find? "gal(US) to L" = some (.times 3.78541) ∧
      process (fun _ _ => none) {} "-12.5gal(US)\t tO  L" =
        ⟨.ok (.unit (-12.5) "gal(US)" "L" (-12.5 * 3.78541)), {}, []⟩) ∧
    (UnitConversion.find? "km/h to m/s" = some (.dividedBy 3.6) ∧
      process (fun _ _ => none) {} "-12.5 km/h to m/s" =
        ⟨.ok (.unit (-12.5) "km/h" "m/s" (-12.5 / 3.6)), {}, []⟩) ∧
    UnitConversion.find? "F to C" = some .fahrenheitToCelsius ∧
      process (fun _ _ => none) {} "-12.5F to C" =
        ⟨.ok (.unit (-12.5) "F" "C" ((-12.5 - 32) * 5 / 9)), {}, []⟩ ∧
      ∃ u', UnitConversion.find? "C to F" = some u' ∧
        ∀ x : ℚ, u'.applyIn Binary64.exactValue
          (UnitConversion.fahrenheitToCelsius.applyIn Binary64.exactValue x) = x := by
  intro _
  have hgallons : UnitConversion.find? ("gal(US)" ++ " to " ++ "L") = some (.times 3.78541) := by
    decide +kernel
  have hspeed : UnitConversion.find? ("km/h" ++ " to " ++ "m/s") = some (.dividedBy 3.6) := by
    decide +kernel
  have hdegrees : UnitConversion.find? ("F" ++ " to " ++ "C") = some .fahrenheitToCelsius := by
    decide +kernel
  have hnone : ∀ c ∈ "".toList, Text.isBlank c = true := by simp
  have hone : Text.IsGap " ".toList := ⟨by decide, by simp [Text.isBlank]⟩
  have hblank : ∀ c ∈ " ".toList, Text.isBlank c = true := hone.blank
  have htab : Text.IsGap "\t ".toList := ⟨by decide, by simp [Text.isBlank]⟩
  have htwo : Text.IsGap "  ".toList := ⟨by decide, by simp [Text.isBlank]⟩
  have hto : IsTo "to".toList := ⟨'t', 'o', rfl, by decide, by decide⟩
  have hcapital : IsTo "tO".toList := ⟨'t', 'O', rfl, by decide, by decide⟩
  have hread : Decimal.read? minusTwelveAndAHalf.text.toList = some (-12.5) := by decide +kernel
  obtain ⟨⟨v, hv, -, hliters⟩, -⟩ :=
    process_registered_unit (fun _ _ => none) {} minusTwelveAndAHalf hgallons hnone htab
      hcapital htwo
  obtain rfl := Option.some.inj (hv.symm.trans hread)
  obtain ⟨⟨v, hv, -, hmetres⟩, -⟩ :=
    process_registered_unit (fun _ _ => none) {} minusTwelveAndAHalf hspeed hblank hone hto hone
  obtain rfl := Option.some.inj (hv.symm.trans hread)
  obtain ⟨⟨v, hv, -, hcelsius⟩, u', hu', -, hundo⟩ :=
    process_registered_unit (fun _ _ => none) {} minusTwelveAndAHalf hdegrees hnone hone hto hone
  obtain rfl := Option.some.inj (hv.symm.trans hread)
  exact ⟨⟨hgallons, hliters⟩, ⟨hspeed, hmetres⟩, hdegrees, hcelsius, u', hu', hundo⟩

end Session
end Calculator
