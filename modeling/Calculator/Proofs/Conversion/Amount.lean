import Calculator.Proofs.Conversion.Split

/-!
# Where an amount ends

An amount in digits may have to give digits back, so that a code is left behind it.  Where
the next character is none of its kind, it neither gives back nor takes any, and the line is
read with this amount.  Such a character is a letter, and currencies begin with nothing else;
so a line of currencies is read in the same way as one of units.
-/

namespace Calculator

namespace Text

theorem blankRanges_disjoint_scriptZeros :
    ∀ b ∈ blankRanges, ∀ start ∈ scriptZeros, b.2 < start ∨ start + 9 < b.1 := by
  decide +kernel

theorem isDecimalDigit_of_isBlank {c : Char} (h : isBlank c = true) :
    isDecimalDigit c = false := by
  obtain ⟨b, hb, hlow, hhigh⟩ := exists_blankRange h
  have hdigit : c.isDigit = false := by
    cases hc : c.isDigit with
    | false => rfl
    | true =>
        have hrange := toNat_of_isAlphanum (c := c) (by simp [Char.isAlphanum, hc])
        have hletters := blankRanges_disjoint_letters b hb
        omega
  rw [isDecimalDigit, hdigit, Bool.false_or, List.any_eq_false]
  intro start hmem
  have hdisjoint := blankRanges_disjoint_scriptZeros b hb start hmem
  simp only [Bool.and_eq_true, decide_eq_true_eq]
  omega

end Text

/-- The characters of amounts of the same kind. -/
def Amount.isChar : Amount → Char → Bool
  | .literal _ => Conversion.isLiteralChar
  | .name _ => Text.isFoldedNameChar

namespace Conversion

/-! ## The characters of amounts -/

theorem isLiteralChar_of_isBlank {c : Char} (h : Text.isBlank c = true) :
    isLiteralChar c = false := by
  have hminus : c ≠ '-' := by
    rintro rfl
    exact absurd h (by decide)
  have hpoint : c ≠ '.' := by
    rintro rfl
    exact absurd h (by decide)
  simp [isLiteralChar, Text.isDecimalDigit_of_isBlank h, hminus, hpoint]

theorem isLiteralChar_of_isFoldedLetter {c : Char} (h : Text.isFoldedLetter c = true) :
    isLiteralChar c = false := by
  have hname : IsFoldedName [c] := by
    refine ⟨⟨c, rfl, by simp [h]⟩, ?_⟩
    exact List.forall_mem_singleton.mpr (Text.isFoldedNameChar_of_isFoldedLetter h)
  obtain ⟨d, hd, hfalse⟩ := isLiteralChar_of_isFoldedName hname
  obtain rfl := Option.some.inj hd
  exact hfalse

theorem isFoldedNameChar_of_isBlank {c : Char} (h : Text.isBlank c = true) :
    Text.isFoldedNameChar c = false := by
  by_contra hname
  have hword := Text.isWordChar_of_isFoldedNameChar (Bool.of_not_eq_false hname)
  rw [Text.isWordChar_of_isBlank h] at hword
  cases hword

theorem isChar_of_isBlank (amount : Amount) {c : Char} (h : Text.isBlank c = true) :
    amount.isChar c = false := by
  cases amount with
  | literal text => exact isLiteralChar_of_isBlank h
  | name text => exact isFoldedNameChar_of_isBlank h

variable {amount amount' : Amount} {gap gap' : List Char}

theorem HasForm.isChar (h : HasForm amount gap) :
    ∀ c ∈ amount.text.toList, amount.isChar c = true := by
  cases amount with
  | literal text => exact h.1.isLiteralChar
  | name text => exact h.1.2

/-- The first character tells of which kind an amount is. -/
theorem HasForm.isChar_eq (h : HasForm amount gap) (h' : HasForm amount' gap')
    (hhead : amount.text.toList.head? = amount'.text.toList.head?) :
    amount.isChar = amount'.isChar := by
  have hkinds : ∀ {text text' : List Char}, IsLiteral text → IsFoldedName text' →
      text.head? ≠ text'.head? := by
    intro text text' hliteral hname heq
    obtain ⟨c, hc, hfalse⟩ := isLiteralChar_of_isFoldedName hname
    rw [hliteral.isLiteralChar c (List.mem_of_head? (heq.trans hc))] at hfalse
    cases hfalse
  cases amount with
  | literal text =>
      cases amount' with
      | literal text' => rfl
      | name text' => exact absurd hhead (hkinds h.1 h'.1)
  | name text =>
      cases amount' with
      | literal text' => exact absurd hhead.symm (hkinds h'.1 h.1)
      | name text' => rfl

theorem HasForm.ne_nil (h : HasForm amount gap) : amount.text.toList ≠ [] := by
  cases amount with
  | literal text => exact h.1.ne_nil
  | name text => exact h.1.isWord.nonempty

/-! ## Amounts that cannot go on -/

namespace Split

variable {v w : Vocabulary} {line : String}

/-- What stands behind the amount is no character of its kind. -/
def EndsAmount (p : Split v line) : Prop :=
  ∀ c, (p.gap ++ p.codes).head? = some c → p.amount.isChar c = false

/-- All splits of a line have amounts of one kind. -/
theorem isChar_eq (p : Split v line) (q : Split w line) : p.amount.isChar = q.amount.isChar := by
  refine p.form.isChar_eq q.form ?_
  rw [← List.head?_append_of_ne_nil _ p.form.ne_nil, ← p.line_eq, q.line_eq,
    List.head?_append_of_ne_nil _ q.form.ne_nil]

/-- An amount that cannot go on is the longest, even if other codes are admitted. -/
theorem length_le (p : Split v line) (hends : p.EndsAmount) (q : Split w line) :
    q.amount.text.length ≤ p.amount.text.length := by
  have hp : line.toList.takeWhile p.amount.isChar = p.amount.text.toList := by
    rw [p.line_eq]
    exact Text.takeWhile_append_of_head? p.form.isChar hends
  rw [p.isChar_eq q, q.line_eq, List.takeWhile_append_of_pos q.form.isChar] at hp
  rw [← String.length_toList, ← String.length_toList, ← hp]
  exact (List.prefix_append _ _).length_le

theorem read?_eq (hv : v.IsProper) (p : Split v line) (hends : p.EndsAmount) :
    read? v line = some p.conversion :=
  (read?_eq_some_iff hv).mpr ⟨p, rfl, p.length_le hends⟩

/-- A letter ends an amount in digits; a name has a blank behind it anyway. -/
theorem endsAmount (p : Split v line)
    (hletter : ∀ c, p.source.head? = some c → Text.isFoldedLetter c = true)
    (hne : p.source ≠ []) : p.EndsAmount := by
  intro c hc
  by_cases hgap : p.gap = []
  · have hform := p.form
    cases hamount : p.amount with
    | name text =>
        rw [hamount] at hform
        exact absurd hgap hform.2.nonempty
    | literal text =>
        rw [hgap, List.nil_append, codes, List.head?_append_of_ne_nil _ hne] at hc
        exact isLiteralChar_of_isFoldedLetter (hletter c hc)
  · rw [List.head?_append_of_ne_nil _ hgap] at hc
    exact isChar_of_isBlank _ (p.form.blank c (List.mem_of_head? hc))

end Split

/-! ## Currencies among the units -/

/-- Every code of the one vocabulary is a code of the other. -/
def Vocabulary.Within (v w : Vocabulary) : Prop :=
  ∀ code, v.Admits code → w.Admits code

theorem currencies_within_units : currencies.Within units := by
  intro code h
  refine ⟨?_, ?_⟩
  · intro c hc
    simp [units, show Text.isFoldedLetter c = true from h.1 c hc]
  · have hword := isProper_currencies.isWord h
    simp [units, hword.nonempty]

/-- A split is one with respect to every wider vocabulary. -/
def Split.widen {v w : Vocabulary} {line : String} (h : v.Within w) (p : Split v line) :
    Split w line :=
  { p with
    source_admitted := h _ p.source_admitted
    target_admitted := h _ p.target_admitted }

/-- A line of currencies is read alike as a line of units. -/
theorem unit?_of_currency? {line : String} {c : Conversion} (h : currency? line = some c) :
    unit? line = some c := by
  obtain ⟨p, rfl⟩ := exists_split_of_read? isProper_currencies h
  have hends : p.EndsAmount := by
    refine p.endsAmount ?_ (isProper_currencies.isWord p.source_admitted).nonempty
    intro c hc
    exact p.source_admitted.1 c (List.mem_of_head? hc)
  exact (p.widen currencies_within_units).read?_eq isProper_units hends

end Conversion
end Calculator
