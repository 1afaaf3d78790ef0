import Calculator.Proofs.Conversion.Amount
import Calculator.Proofs.Request.Named

/-!
# Currencies among the requests

A line of the form of a currency conversion has that of a unit conversion as well, with the
same amount and the same codes.  Only the order of the requests separates the two: where the
amount has a value the line is a currency conversion, and where it has none it is no unit
conversion either.
-/

namespace Calculator

namespace Conversion

variable {v : Vocabulary} {line : String}

theorem HasForm.equals_not_mem {amount : Amount} {gap : List Char} (h : HasForm amount gap) :
    '=' ∉ amount.text.toList := by
  have hliteral : isLiteralChar '=' = false := by decide
  have hname : Text.isFoldedNameChar '=' = false := by decide
  intro hmem
  have hchar := h.isChar '=' hmem
  cases amount with
  | literal text => exact absurd hchar (by simp [Amount.isChar, hliteral])
  | name text => exact absurd hchar (by simp [Amount.isChar, hname])

/-- No line that can be split has an equals sign in it. -/
theorem Split.equals_not_mem (hv : v.IsProper) (p : Split v line) : '=' ∉ line.toList := by
  have hblanks : ∀ {blanks : List Char}, (∀ c ∈ blanks, Text.isBlank c = true) → '=' ∉ blanks :=
    fun hblanks hmem => absurd (hblanks '=' hmem) (by decide)
  have hcode : ∀ {code : List Char}, v.Admits code → '=' ∉ code := by
    intro code hadmits hmem
    have hequals := hadmits.1 '=' hmem
    rw [hv.noEquals] at hequals
    cases hequals
  have hword : '=' ∉ p.word :=
    fun hmem => absurd (p.word_isTo.isWordChar '=' hmem) (by decide)
  rw [p.line_eq]
  simp only [List.mem_append, not_or]
  exact ⟨p.form.equals_not_mem, hblanks p.form.blank, hcode p.source_admitted,
    hblanks p.sourceGap_isGap.blank, hword, hblanks p.wordGap_isGap.blank,
    hcode p.target_admitted, hblanks p.rest_blank⟩

end Conversion

namespace Request

open Conversion

variable {line : String} {c : Conversion} {s : Symbols}

/-- A conversion is never an assignment. -/
theorem assignment?_of_read? {v : Vocabulary} (hv : v.IsProper) (h : read? v line = some c) :
    assignment? line = none := by
  obtain ⟨p, -⟩ := exists_split_of_read? hv h
  exact assignment?_eq_none_of_not_mem (p.equals_not_mem hv)

theorem conversion?_eq {form : String → Option Conversion} (h : form line = some c) :
    conversion? form line s = (s.amount? c.amount).map (·, c) := by
  rw [conversion?, h, Option.bind_eq_bind, Option.bind_some]
  cases s.amount? c.amount with
  | none => rfl
  | some v => rfl

/-- A directive is recognized before any conversion. -/
theorem classify_of_startsWithKeyword (s : Symbols) (hsides : assignment? line = none)
    (hfirst : StartsWithKeyword line) :
    classify line s = .evaluation (lineWords line) ∨ classify line s = .graph (lineWords line) := by
  obtain ⟨d, hd⟩ := hfirst
  cases d with
  | evaluate => exact .inl (classify_of_evaluate s hsides hd)
  | graph =>
      refine .inr ?_
      rw [classify, hsides]
      dsimp only
      rw [if_neg (by rw [hd]; decide), if_pos hd]
      rfl

/-- Behind the directives, a line of currencies is a currency conversion or an expression. -/
theorem classify_of_currency?_of_not_startsWithKeyword (s : Symbols)
    (h : currency? line = some c) (hfirst : ¬ StartsWithKeyword line) :
    classify line s =
      match s.amount? c.amount with
      | some amount => .currency amount c
      | none => .arithmetic line := by
  rw [classify_of_not_startsWithKeyword s (assignment?_of_read? isProper_currencies h) hfirst,
    conversion?_eq h, conversion?_eq (unit?_of_currency? h)]
  cases s.amount? c.amount with
  | none => rfl
  | some amount => rfl

/-- A line of currencies is read as the same conversion of units, but it is never answered as
one: it is a directive if it begins with the word of one, a currency conversion if its amount
has a value, and an expression otherwise. -/
theorem classify_of_currency? (h : currency? line = some c) :
    unit? line = some c ∧ assignment? line = none ∧
    ∀ s : Symbols,
      (∀ amount c', classify line s ≠ .unit amount c') ∧
      (StartsWithKeyword line →
        classify line s = .evaluation (lineWords line) ∨
          classify line s = .graph (lineWords line)) ∧
      (¬ StartsWithKeyword line →
        classify line s =
          match s.amount? c.amount with
          | some amount => .currency amount c
          | none => .arithmetic line) := by
  have hsides := assignment?_of_read? isProper_currencies h
  refine ⟨unit?_of_currency? h, hsides, fun s => ⟨?_, ?_, ?_⟩⟩
  · intro amount c'
    by_cases hfirst : StartsWithKeyword line
    · rcases classify_of_startsWithKeyword s hsides hfirst with hclass | hclass
      · simp [hclass]
      · simp [hclass]
    · rw [classify_of_currency?_of_not_startsWithKeyword s h hfirst]
      cases s.amount? c.amount with
      | none => simp
      | some v => simp
  · exact classify_of_startsWithKeyword s hsides
  · exact classify_of_currency?_of_not_startsWithKeyword s h

/-- Both letters outside ASCII fold to letters of a code.  The digits of another script are an
amount without a value, so the line is left as an expression; digits of ASCII are an amount of
money. -/
theorem classify_script_digits :
    (unit? "٣.٥ſeK tO USD" = some ⟨.literal "٣.٥", "ſeK", "USD"⟩ ∧
      classify "٣.٥ſeK tO USD" {} = .arithmetic "٣.٥ſeK tO USD") ∧
    unit? "3 usd to eur" = some ⟨.literal "3", "usd", "eur"⟩ ∧
      classify "3 usd to eur" {} = .currency 3 ⟨.literal "3", "usd", "eur"⟩ := by
  constructor
  · have hread : currency? "٣.٥ſeK tO USD" = some ⟨.literal "٣.٥", "ſeK", "USD"⟩ := by
      decide +kernel
    have hfirst : ¬ StartsWithKeyword "٣.٥ſeK tO USD" := by
      rw [not_startsWithKeyword_iff]
      decide +kernel
    have hnone : ({} : Symbols).amount? (.literal "٣.٥") = none := by decide +kernel
    obtain ⟨hunit, -, hclassify⟩ := classify_of_currency? hread
    refine ⟨hunit, ?_⟩
    rw [(hclassify {}).2.2 hfirst, hnone]
  · have hread : currency? "3 usd to eur" = some ⟨.literal "3", "usd", "eur"⟩ := by
      decide +kernel
    have hfirst : ¬ StartsWithKeyword "3 usd to eur" := by
      rw [not_startsWithKeyword_iff]
      decide +kernel
    have hthree : ({} : Symbols).amount? (.literal "3") = some 3 := by decide +kernel
    obtain ⟨hunit, -, hclassify⟩ := classify_of_currency? hread
    refine ⟨hunit, ?_⟩
    rw [(hclassify {}).2.2 hfirst, hthree]

end Request
end Calculator
