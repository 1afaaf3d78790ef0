import Calculator.Proofs.Conversion.Form
import Calculator.Proofs.Request.Target
import Calculator.Request

/-!
# Names without spaces

A name without spaces is one word of a line and one token of an expression.  It
reads as a number only if it is one of the words for infinity and NaN.
-/

namespace Calculator

/-! ## The characters of names -/

namespace Token

/-- Names that contain no space. -/
structure IsIdentifier (name : String) : Prop where
  start : ∃ c, name.toList.head? = some c ∧ isNameStart c = true
  chars : ∀ c ∈ name.toList, isNameChar c = true

instance (name : String) : Decidable (IsIdentifier name) :=
  decidable_of_iff
    ((name.toList.head?.any isNameStart && name.toList.all isNameChar) = true) <| by
    rw [Bool.and_eq_true, Option.any_eq_true, List.all_eq_true]
    exact ⟨fun h => ⟨h.1, h.2⟩, fun h => ⟨h.start, h.chars⟩⟩

theorem toNat_of_isNameStart {c : Char} (h : isNameStart c = true) :
    65 ≤ c.toNat ∧ c.toNat ≤ 122 := by
  rw [isNameStart, Bool.or_eq_true, beq_iff_eq] at h
  rcases h with h | rfl
  · have hcase : (65 ≤ c.toNat ∧ c.toNat ≤ 90) ∨ (97 ≤ c.toNat ∧ c.toNat ≤ 122) := by
      change (decide (c.val ≥ 65 ∧ c.val ≤ 90) ||
        (decide (c.val ≥ 97) && decide (c.val ≤ 122))) = true at h
      simpa [UInt32.le_iff_toNat_le] using h
    omega
  · decide

theorem isDigit_of_isNameStart {c : Char} (h : isNameStart c = true) : c.isDigit = false := by
  have hrange := toNat_of_isNameStart h
  simp only [Char.isDigit, Bool.and_eq_false_iff, decide_eq_false_iff_not, ge_iff_le,
    UInt32.le_iff_toNat_le, Char.toNat_val, Char.reduceToNat]
  omega

theorem isDecimalDigit_of_isNameStart {c : Char} (h : isNameStart c = true) :
    Text.isDecimalDigit c = false := by
  have hrange := toNat_of_isNameStart h
  have hzeros : ∀ start ∈ Text.scriptZeros, 122 < start := by decide
  rw [Text.isDecimalDigit, isDigit_of_isNameStart h, Bool.false_or, List.any_eq_false]
  intro start hmem
  have hstart := hzeros start hmem
  simp only [Bool.and_eq_true, decide_eq_true_eq]
  omega

theorem ne_of_isNameStart {c d : Char} (h : isNameStart c = true) (hd : isNameStart d = false) :
    c ≠ d := by
  rintro rfl
  rw [h] at hd
  cases hd

end Token

theorem Target.IsName.isIdentifier {name : String} (h : IsName name)
    (hspace : ' ' ∉ name.toList) : Token.IsIdentifier name := by
  refine ⟨h.start, ?_⟩
  intro c hc
  have hchar := h.chars c hc
  rw [isNameChar, Bool.or_eq_true, beq_iff_eq] at hchar
  rcases hchar with hchar | rfl
  · exact hchar
  · exact absurd hc hspace

namespace Token

variable {name : String}

theorem IsIdentifier.exists_cons (h : IsIdentifier name) :
    ∃ c cs, name.toList = c :: cs ∧ isNameStart c = true := by
  obtain ⟨c, hhead, hstart⟩ := h.start
  obtain ⟨cs, hcs⟩ := List.head?_eq_some_iff.mp hhead
  exact ⟨c, cs, hcs, hstart⟩

theorem IsIdentifier.isFoldedName (h : IsIdentifier name) :
    Conversion.IsFoldedName name.toList := by
  obtain ⟨c, hhead, hstart⟩ := h.start
  refine ⟨⟨c, hhead, ?_⟩, ?_⟩
  · rw [isNameStart, Bool.or_eq_true] at hstart
    simp only [Text.isFoldedLetter, Bool.or_eq_true]
    rcases hstart with halpha | hunder
    · exact .inl (.inl (.inl halpha))
    · exact .inr hunder
  · intro d hd
    have hchar := h.chars d hd
    simp only [isNameChar, Char.isAlphanum, Bool.or_eq_true] at hchar
    simp only [Text.isFoldedNameChar, Text.isFoldedLetter, Bool.or_eq_true]
    rcases hchar with (halpha | hdigit) | hunder
    · exact .inl (.inl (.inl (.inl halpha)))
    · exact .inl (.inr hdigit)
    · exact .inr hunder

theorem IsIdentifier.isWord (h : IsIdentifier name) : Text.IsWord name.toList :=
  h.isFoldedName.isWord

theorem IsIdentifier.equals_not_mem (h : IsIdentifier name) : '=' ∉ name.toList := by
  intro hmem
  exact absurd (h.chars '=' hmem) (by decide)

/-- An identifier is scanned as one token. -/
theorem IsIdentifier.scan_eq (h : IsIdentifier name) :
    scan name.toList = ⟨[.identifier name], none⟩ := by
  obtain ⟨c, cs, hcs, hstart⟩ := h.exists_cons
  have hnumber : startsNumber c cs = false := by
    have hpoint := ne_of_isNameStart hstart (d := '.') (by decide)
    simp [startsNumber, isDigit_of_isNameStart hstart, hpoint]
  have hall : (c :: cs).takeWhile isNameChar = c :: cs := by
    rw [← hcs]
    exact List.takeWhile_eq_self_iff.mpr h.chars
  have hfirst : first? c cs = some (.identifier name) := by
    unfold first?
    rw [hnumber, if_neg Bool.false_ne_true, if_pos hstart, hall, ← hcs, String.ofList_toList]
  have hdrop : cs.drop ((Token.identifier name).width - 1) = [] := by
    rw [width, content, ← String.length_toList, hcs]
    simp
  rw [hcs]
  exact scan_of_first? (Target.isBlank_of_isNameStart hstart) hfirst hdrop scan_nil

/-- An identifier is an expression by itself. -/
theorem IsIdentifier.parse_eq (h : IsIdentifier name) :
    Expr.parse name = .ok (.identifier name) := by
  rw [Expr.parse, h.scan_eq]
  rfl

end Token

/-! ## Names that read as numbers -/

namespace Decimal

/-- The words for infinity and NaN, in any case. -/
def IsNumberWord (cs : List Char) : Prop :=
  String.ofList (cs.map Char.toLower) ∈ ["inf", "infinity", "nan"]

instance (cs : List Char) : Decidable (IsNumberWord cs) :=
  inferInstanceAs (Decidable (String.ofList (cs.map Char.toLower) ∈ ["inf", "infinity", "nan"]))

theorem readWord?_eq_none {cs : List Char} (h : ¬ IsNumberWord cs) : readWord? cs = none := by
  simp only [IsNumberWord, List.mem_cons, List.not_mem_nil, or_false, not_or] at h
  obtain ⟨hinf, hinfinity, hnan⟩ := h
  simp [readWord?, hinf, hinfinity, hnan]

/-- A name has no sign and no digits in front, so it is read as a word or not at
all. -/
theorem read?_of_isIdentifier {name : String} (h : Token.IsIdentifier name) :
    read? name.toList = readWord? name.toList := by
  obtain ⟨c, cs, hcs, hstart⟩ := h.exists_cons
  have hdigit := Token.isDigit_of_isNameStart hstart
  have hminus := Token.ne_of_isNameStart hstart (d := '-') (by decide)
  have hplus := Token.ne_of_isNameStart hstart (d := '+') (by decide)
  have hpoint := Token.ne_of_isNameStart hstart (d := '.') (by decide)
  have hunsigned : readUnsigned? (c :: cs) = none := by
    unfold readUnsigned?
    simp only [List.takeWhile_cons, List.dropWhile_cons, hdigit, Bool.false_eq_true, if_false]
    split
    · rename_i heq
      exact absurd (List.cons.inj heq).1 hpoint
    · exact if_pos ⟨trivial, rfl⟩
  have hmagnitude : readMagnitude? (c :: cs) = readWord? (c :: cs) := by
    rw [readMagnitude?, hunsigned]
  rw [hcs]
  unfold read?
  split
  · rename_i heq
    exact absurd (List.cons.inj heq).1 hminus
  · rename_i heq
    exact absurd (List.cons.inj heq).1 hplus
  · exact hmagnitude

end Decimal

namespace Conversion

/-- A line that does not begin like a literal has no amount in digits. -/
theorem read?_of_not_isLiteralChar {v : Vocabulary} {line : String} {c : Char}
    (hhead : line.toList.head? = some c) (hc : isLiteralChar c = false) :
    read? v line = readWithName? v line.toList := by
  obtain ⟨cs, hcs⟩ := List.head?_eq_some_iff.mp hhead
  have hnone : readWithLiteral? v line.toList = none := by
    rw [readWithLiteral?, hcs, List.takeWhile_cons_of_neg (by simp [hc])]
    rfl
  rw [read?, hnone]
  rfl

theorem isLiteralChar_of_isNameStart {c : Char} (h : Token.isNameStart c = true) :
    isLiteralChar c = false := by
  have hminus := Token.ne_of_isNameStart h (d := '-') (by decide)
  have hpoint := Token.ne_of_isNameStart h (d := '.') (by decide)
  simp [isLiteralChar, Token.isDecimalDigit_of_isNameStart h, hminus, hpoint]

/-- A line that begins with a name has no amount in digits. -/
theorem read?_of_isNameStart {v : Vocabulary} {line : String} {c : Char}
    (hhead : line.toList.head? = some c) (hstart : Token.isNameStart c = true) :
    read? v line = readWithName? v line.toList :=
  read?_of_not_isLiteralChar hhead (isLiteralChar_of_isNameStart hstart)

end Conversion
end Calculator
