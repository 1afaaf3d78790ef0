import Calculator.Proofs.Text.Trimming
import Calculator.Text.Letter
import Calculator.Text.Word

/-!
# Whole words by their surroundings

A letter is a whole word where the text falls apart around it into two sides that
do not touch it with a word character.  Blanks are no word characters.
-/

namespace Calculator
namespace Text

/-! ## Characters that are not part of words -/

/-- The stretches of the characters with the property White_Space. -/
def blankRanges : List (Nat × Nat) :=
  [(9, 13), (0x20, 0x20), (0x85, 0x85), (0xA0, 0xA0), (0x1680, 0x1680), (0x2000, 0x200A),
    (0x2028, 0x2029), (0x202F, 0x202F), (0x205F, 0x205F), (0x3000, 0x3000)]

theorem exists_blankRange {c : Char} (h : isBlank c = true) :
    ∃ r ∈ blankRanges, r.1 ≤ c.toNat ∧ c.toNat ≤ r.2 := by
  simp only [isBlank, Bool.or_eq_true, Bool.and_eq_true, decide_eq_true_eq, beq_iff_eq] at h
  simp only [blankRanges, List.mem_cons, List.not_mem_nil, or_false, exists_eq_or_imp,
    exists_eq_left]
  omega

theorem blankRanges_disjoint_wordRanges :
    ∀ b ∈ blankRanges, ∀ w ∈ wordRanges, w.2 < b.1 ∨ b.2 < w.1 := by
  decide +kernel

theorem toNat_of_isAlphanum {c : Char} (h : c.isAlphanum = true) :
    (48 ≤ c.toNat ∧ c.toNat ≤ 57) ∨ (65 ≤ c.toNat ∧ c.toNat ≤ 90) ∨
      (97 ≤ c.toNat ∧ c.toNat ≤ 122) := by
  unfold Char.isAlphanum Char.isAlpha Char.isUpper Char.isLower Char.isDigit at h
  simp only [Bool.or_eq_true, Bool.and_eq_true, decide_eq_true_eq, ge_iff_le,
    UInt32.le_iff_toNat_le, Char.toNat_val, Char.reduceToNat] at h
  omega

theorem blankRanges_disjoint_letters :
    ∀ b ∈ blankRanges, b.2 < 48 ∨ 122 < b.1 := by
  decide

theorem isWordChar_of_isBlank {c : Char} (h : isBlank c = true) : isWordChar c = false := by
  obtain ⟨b, hb, hlow, hhigh⟩ := exists_blankRange h
  have hwithin : isWithin wordRanges c = false := by
    rw [isWithin, List.any_eq_false]
    intro w hw
    have hdisjoint := blankRanges_disjoint_wordRanges b hb w hw
    simp only [Bool.and_eq_true, decide_eq_true_eq]
    omega
  have hb' := blankRanges_disjoint_letters b hb
  have hletter : c.isAlphanum = false := by
    cases hc : c.isAlphanum with
    | false => rfl
    | true =>
        have hrange := toNat_of_isAlphanum hc
        omega
  have hunder : c ≠ '_' := by
    rintro rfl
    have hvalue : '_'.toNat = 95 := rfl
    omega
  simp [isWordChar, hletter, hunder, hwithin]

theorem isBlank_of_isWordChar {c : Char} (h : isWordChar c = true) : isBlank c = false := by
  by_cases hblank : isBlank c = true
  · rw [isWordChar_of_isBlank hblank] at h
    cases h
  · exact Bool.eq_false_iff.mpr hblank

/-- The two letters outside ASCII among the folded ones are word characters too. -/
theorem isWordChar_of_isFoldedNameChar {c : Char} (h : isFoldedNameChar c = true) :
    isWordChar c = true := by
  simp only [isFoldedNameChar, isFoldedLetter, Bool.or_eq_true, beq_iff_eq] at h
  rcases h with (((h | rfl) | rfl) | h) | rfl
  · exact isWordChar_of_isAlphanum (by simp [Char.isAlphanum, h])
  · decide
  · decide +kernel
  · exact isWordChar_of_isAlphanum (by simp [Char.isAlphanum, h])
  · decide

theorem isFoldedNameChar_of_isFoldedLetter {c : Char} (h : isFoldedLetter c = true) :
    isFoldedNameChar c = true := by
  simp [isFoldedNameChar, h]

/-! ## Whole words -/

/-- Neither the character in front of a place nor the one behind it is part of a
word. -/
def IsBoundary (front back : List Char) : Prop :=
  (∀ c, front.getLast? = some c → isWordChar c = false) ∧
    ∀ c, back.head? = some c → isWordChar c = false

theorem standsAlone_iff (letter : Char) (afterWord : Bool) (cs : List Char) :
    standsAlone letter afterWord cs = true ↔
      ∃ front back, cs = front ++ letter :: back ∧ IsBoundary front back ∧
        (front = [] → afterWord = false) := by
  induction cs generalizing afterWord with
  | nil => simp [standsAlone]
  | cons c cs ih =>
      rw [standsAlone, Bool.or_eq_true, ih]
      constructor
      · rintro (hhere | ⟨front, back, rfl, hboundary, hfront⟩)
        · simp only [Bool.and_eq_true, beq_iff_eq, Bool.not_eq_true'] at hhere
          obtain ⟨⟨rfl, hafter⟩, hback⟩ := hhere
          refine ⟨[], cs, rfl, ⟨by simp, ?_⟩, fun _ => hafter⟩
          intro d hd
          simpa [hd] using hback
        · refine ⟨c :: front, back, rfl, ⟨?_, hboundary.2⟩, by simp⟩
          intro d hd
          cases front with
          | nil =>
              obtain rfl : c = d := by simpa using hd
              exact hfront rfl
          | cons e front =>
              rw [List.getLast?_cons_cons] at hd
              exact hboundary.1 d hd
      · rintro ⟨front, back, heq, hboundary, hfront⟩
        cases front with
        | nil =>
            obtain ⟨rfl, rfl⟩ := List.cons.inj heq
            left
            have hback : cs.head?.any isWordChar = false := by
              cases hhead : cs.head? with
              | none => rfl
              | some d => simpa using hboundary.2 d hhead
            simp [hfront rfl, hback]
        | cons d front =>
            obtain ⟨rfl, rfl⟩ := List.cons.inj heq
            right
            refine ⟨front, back, rfl, ⟨?_, hboundary.2⟩, ?_⟩
            · intro e he
              refine hboundary.1 e ?_
              rw [List.getLast?_cons, he, Option.getD_some]
            · rintro rfl
              exact hboundary.1 c rfl

/-- A letter that stands alone behind some characters stands alone in the whole
text. -/
theorem standsAlone_append
    {letter : Char} {afterWord : Bool} {front back : List Char} (hne : front ≠ [])
    (h : standsAlone letter (isWordChar (front.getLast hne)) back = true) :
    standsAlone letter afterWord (front ++ back) = true := by
  obtain ⟨l, r, rfl, hboundary, hl⟩ := (standsAlone_iff _ _ _).mp h
  refine (standsAlone_iff _ _ _).mpr ⟨front ++ l, r, by simp, ⟨?_, hboundary.2⟩, by simp [hne]⟩
  intro c hc
  rw [List.getLast?_append] at hc
  cases hlast : l.getLast? with
  | none =>
      rw [hlast, Option.none_or, List.getLast?_eq_some_getLast hne] at hc
      obtain rfl := Option.some.inj hc
      exact hl (List.getLast?_eq_none_iff.mp hlast)
  | some d =>
      rw [hlast, Option.some_or] at hc
      exact hboundary.1 c (hlast.trans hc)

/-- A letter is a whole word of a text where it stands between boundaries. -/
theorem hasWord_iff {letter : Char} {cs : List Char} :
    hasWord letter cs = true ↔
      ∃ front back, cs = front ++ letter :: back ∧ IsBoundary front back := by
  rw [hasWord, standsAlone_iff]
  simp

/-- A whole word of a part is one of the text, if the part is not in the middle
of a word. -/
theorem hasWord_append
    {letter : Char} {front middle back : List Char}
    (hfront : ∀ c, front.getLast? = some c → isWordChar c = false)
    (hback : ∀ c, back.head? = some c → isWordChar c = false)
    (h : hasWord letter middle = true) :
    hasWord letter (front ++ middle ++ back) = true := by
  obtain ⟨l, r, rfl, hboundary⟩ := hasWord_iff.mp h
  refine hasWord_iff.mpr ⟨front ++ l, r ++ back, by simp, ?_, ?_⟩
  · intro c hc
    rw [List.getLast?_append] at hc
    cases hl : l.getLast? with
    | none =>
        rw [hl, Option.none_or] at hc
        exact hfront c hc
    | some d =>
        rw [hl, Option.some_or] at hc
        exact hboundary.1 c (hl.trans hc)
  · intro c hc
    rw [List.head?_append] at hc
    cases hr : r.head? with
    | none =>
        rw [hr, Option.none_or] at hc
        exact hback c hc
    | some d =>
        rw [hr, Option.some_or] at hc
        exact hboundary.2 c (hr.trans hc)

/-- A whole word of a trimmed text is one of the text. -/
theorem hasWord_of_trim {letter : Char} {cs : List Char}
    (h : hasWord letter (trim cs) = true) : hasWord letter cs = true := by
  obtain ⟨front, back, hcs, hfront, hback⟩ := exists_trim cs
  rw [hcs]
  refine hasWord_append ?_ ?_ h
  · intro c hc
    exact isWordChar_of_isBlank (hfront c (List.mem_of_getLast? hc))
  · intro c hc
    exact isWordChar_of_isBlank (hback c (List.mem_of_head? hc))

end Text
end Calculator
