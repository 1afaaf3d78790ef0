import Calculator.Proofs.Conversion.Registry
import Calculator.Proofs.Grammar.Juxtaposition
import Calculator.Proofs.Request.Order

/-!
# Expressions among the requests

A line that is parsed is never an assignment and never a currency conversion.  It
can have the form of a unit conversion, because units may consist of operators and
parentheses; the word `to` is then an operand between them, and the key is none of
the registered ones.
-/

namespace Calculator

namespace Conversion

/-- A conversion that breaks off inside an expression: the word `to` stands behind an
open operator or parenthesis, where an operand belongs, and in front of an operator
or a parenthesis. -/
structure BreaksOff (c : Conversion) : Prop where
  source : ∃ p ∈ UnitConversion.openSigns, c.source.toList.getLast? = some p
  target : ∃ q ∈ ['^', '/', '(', ')'], c.target.toList.head? = some q

/-- No registered unit breaks off. -/
theorem BreaksOff.find?_eq_none {c : Conversion} (h : c.BreaksOff) :
    UnitConversion.find? c.key = none := by
  by_contra hsome
  obtain ⟨u, hu⟩ := Option.ne_none_iff_exists'.mp hsome
  obtain ⟨p, hp, hlast⟩ := h.source
  exact (UnitConversion.isPair_of_find? hu).complete p hp hlast

variable {v : Vocabulary} {line : String} {e : Expr} {c : Conversion}

/-- In a text that is parsed, no word stands beside the word `to` of a conversion. -/
theorem isWordChar_around_to (hv : v.IsProper) (hparse : Expr.parse line = .ok e)
    (hread : read? v line = some c) :
    (∀ p, c.source.toList.getLast? = some p → Text.isWordChar p = false ∧ p ≠ ')') ∧
      ∀ q, c.target.toList.head? = some q → Text.isWordChar q = false := by
  obtain ⟨front, codes, hline, gap, word, gap', rest, rfl, -, hgap, hto, hgap', -, -⟩ :=
    exists_codes_of_read? hv hread
  obtain ⟨t, o, rfl, -⟩ := id hto
  constructor
  · intro p hp
    obtain ⟨source, hsource⟩ := List.getLast?_eq_some_iff.mp hp
    have htext : line.toList =
        (front ++ source) ++ p :: (gap ++ t :: (o :: (gap' ++ (c.target.toList ++ rest)))) := by
      rw [hline, hsource]
      simp
    have hbehind : ¬ (Text.isWordChar p = true ∨ p = ')') := by
      intro hend
      have hword := Grammar.isWordChar_behind_operand hparse htext hgap.1 hgap.2 hend
      rw [hto.isWordChar t (by simp)] at hword
      cases hword
    simpa using hbehind
  · intro q hq
    obtain ⟨target, htarget⟩ := List.head?_eq_some_iff.mp hq
    have htext : line.toList =
        (front ++ c.source.toList ++ gap ++ [t]) ++ o :: (gap' ++ q :: (target ++ rest)) := by
      rw [hline, htarget]
      simp
    exact Grammar.isWordChar_behind_operand hparse htext hgap'.1 hgap'.2
      (.inl (hto.isWordChar o (by simp)))

/-- The codes of currencies are words. -/
theorem currency?_eq_none_of_parse (hparse : Expr.parse line = .ok e) :
    currency? line = none := by
  by_contra hsome
  obtain ⟨c, hread⟩ := Option.ne_none_iff_exists'.mp hsome
  obtain ⟨-, -, -, _, _, _, _, -, hadmits, -⟩ := exists_codes_of_read? isProper_currencies hread
  have hne := (isProper_currencies.isWord hadmits).nonempty
  have hlast := List.getLast?_eq_some_getLast hne
  have hword := isWordChar_of_currency (hadmits.1 _ (List.getLast_mem hne))
  rw [((isWordChar_around_to isProper_currencies hparse hread).1 _ hlast).1] at hword
  cases hword

theorem breaksOff_of_parse (hparse : Expr.parse line = .ok e) (hread : unit? line = some c) :
    c.BreaksOff := by
  obtain ⟨-, -, -, _, _, _, _, -, hsource, -, -, -, htarget, -⟩ :=
    exists_codes_of_read? isProper_units hread
  obtain ⟨hbefore, hbehind⟩ := isWordChar_around_to isProper_units hparse hread
  constructor
  · have hne := (isProper_units.isWord hsource).nonempty
    have hlast := List.getLast?_eq_some_getLast hne
    refine ⟨_, ?_, hlast⟩
    obtain ⟨hword, hclosed⟩ := hbefore _ hlast
    rcases isWordChar_or_of_unit (hsource.1 _ (List.getLast_mem hne)) with h | h
    · rw [hword] at h
      cases h
    · simpa [UnitConversion.openSigns, hclosed] using h
  · obtain ⟨q, target, hcons⟩ := List.exists_cons_of_ne_nil (isProper_units.isWord htarget).nonempty
    have hhead : c.target.toList.head? = some q := by rw [hcons, List.head?_cons]
    refine ⟨q, ?_, hhead⟩
    rcases isWordChar_or_of_unit (htarget.1 q (List.mem_of_head? hhead)) with h | h
    · rw [hbehind q hhead] at h
      cases h
    · exact h

end Conversion

namespace Request

variable {line : String} {e : Expr}

/-- An expression is answered as arithmetic, unless it reads as a unit conversion
whose amount has a value.  Such a conversion breaks off inside the expression and is
never a registered one. -/
theorem classify_of_parse (s : Symbols) (hparse : Expr.parse line = .ok e)
    (hfirst : ¬ StartsWithKeyword line) :
    (classify line s =
      match conversion? Conversion.unit? line s with
      | some (amount, c) => .unit amount c
      | none => .arithmetic line) ∧
    ∀ c, Conversion.unit? line = some c →
      c.BreaksOff ∧ UnitConversion.find? c.key = none := by
  constructor
  · have hequals : '=' ∉ line.toList := by
      intro hmem
      obtain ⟨error, herror⟩ := Grammar.parse_error_of_equals hmem
      rw [hparse] at herror
      cases herror
    have hcurrency : conversion? Conversion.currency? line s = none := by
      rw [conversion?, Conversion.currency?_eq_none_of_parse hparse]
      rfl
    have horder :=
      classify_of_not_startsWithKeyword s (assignment?_eq_none_of_not_mem hequals) hfirst
    rw [hcurrency] at horder
    exact horder
  · intro c hread
    have hbreaks := Conversion.breaksOff_of_parse hparse hread
    exact ⟨hbreaks, hbreaks.find?_eq_none⟩

/-- A power of the last answer that is divided once more: the variable `to` stands
where the form of a conversion has the word. -/
private theorem parse_power_to :
    Expr.parse "ans ^ to /e" =
      .ok (.binary .division
        (.binary .exponentiation (.identifier "ans") (.identifier "to")) (.identifier "e")) := by
  have hscan : Token.scan "ans ^ to /e".toList =
      ⟨[.identifier "ans", .operator .caret, .identifier "to", .operator .slash,
        .identifier "e"], none⟩ :=
    Token.scan_of_first? (by decide) (by decide) rfl <|
      (Token.scan_of_isBlank (by decide)).trans <|
      Token.scan_of_first? (by decide) (by decide) rfl <|
      (Token.scan_of_isBlank (by decide)).trans <|
      Token.scan_of_first? (by decide) (by decide) rfl <|
      (Token.scan_of_isBlank (by decide)).trans <|
      Token.scan_of_first? (by decide) (by decide) rfl <|
      Token.scan_of_first? (by decide) (by decide) rfl Token.scan_nil
  rw [Expr.parse, hscan]
  rfl

private theorem not_startsWithKeyword_power_to : ¬ StartsWithKeyword "ans ^ to /e" := by
  rw [not_startsWithKeyword_iff]
  decide +kernel

/-- The power reads as a conversion from `^` to `/e`. -/
theorem classify_power_to :
    classify "ans ^ to /e" {} = .unit 0 ⟨.name "ans", "^", "/e"⟩ ∧
      UnitConversion.find? "^ to /e" = none := by
  obtain ⟨hclassify, hform⟩ :=
    classify_of_parse {} parse_power_to not_startsWithKeyword_power_to
  have hconversion : conversion? Conversion.unit? "ans ^ to /e" {} =
      some (0, ⟨.name "ans", "^", "/e"⟩) := rfl
  rw [hconversion] at hclassify
  exact ⟨hclassify, (hform ⟨.name "ans", "^", "/e"⟩ rfl).2⟩

/-- So not every expression is answered as arithmetic. -/
theorem not_forall_classify_eq_arithmetic :
    ¬ ∀ (line : String) (e : Expr) (s : Symbols), trimLine line = line →
      Expr.parse line = .ok e → ¬ StartsWithKeyword line →
        classify line s = .arithmetic line := by
  intro h
  have harithmetic := h "ans ^ to /e" _ {} (by decide +kernel) parse_power_to
    not_startsWithKeyword_power_to
  have hnone := (classify_eq_arithmetic_iff.mp harithmetic).2.2.2.2
  have hconversion : conversion? Conversion.unit? "ans ^ to /e" {} =
      some (0, ⟨.name "ans", "^", "/e"⟩) := rfl
  rw [hconversion] at hnone
  cases hnone

end Request
end Calculator
