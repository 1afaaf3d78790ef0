import Mathlib.Algebra.Ring.Nat
import Calculator.Decimal.Layout
import Calculator.Numeral
import Calculator.Proofs.Decimal.Spelling
import Calculator.Proofs.Token.Layout

/-!
# Literals in digits

Every number is laid out as a literal: digits, a point with more digits, and an
exponent, the last two only where they are needed.  Such a literal is one number token,
and it is read as the decimal it shows.  A decimal laid out with an exponent, or with a
point, shows itself; one laid out in digits alone shows them with the zeros behind.
-/

namespace Calculator

namespace Numeral

/-- The literal announces a radix. -/
def HasRadixPrefix (cs : List Char) : Prop :=
  ∃ letter digits, cs = '0' :: letter :: digits ∧ (radixOf? letter).isSome

theorem read?_of_not_hasRadixPrefix {cs : List Char} (h : ¬ HasRadixPrefix cs) :
    read? cs = Decimal.read? cs := by
  unfold read?
  split
  · next letter digits =>
      cases hradix : radixOf? letter with
      | none => rfl
      | some radix => exact absurd ⟨letter, digits, rfl, by simp [hradix]⟩ h
  · rfl

end Numeral

namespace Decimal

/-- A literal: its digits in front of the point and behind it, and its exponent. -/
structure Literal where
  whole : List Char
  fraction : List Char
  exponent : Option Int
  whole_ne_nil : whole ≠ []
  whole_digits : ∀ c ∈ whole, c.isDigit = true
  fraction_digits : ∀ c ∈ fraction, c.isDigit = true

namespace Literal

/-- The point, with the digits behind it. -/
def pointPart (l : Literal) : List Char :=
  if l.fraction = [] then [] else '.' :: l.fraction

def exponentText (l : Literal) : List Char :=
  match l.exponent with
  | none => []
  | some e => 'e' :: integerText e

def chars (l : Literal) : List Char :=
  l.whole ++ (l.pointPart ++ l.exponentText)

/-- The decimal that a literal shows. -/
def decimal (l : Literal) : Decimal :=
  ⟨digitsValue (l.whole ++ l.fraction), l.exponent.getD 0 - l.fraction.length⟩

end Literal

/-! ## Digits -/

theorem digitsValue_eq (digits : List Char) : digitsValue digits = Nat.ofDigitChars 10 digits 0 :=
  rfl

theorem digitsValue_toDigits (n : Nat) : digitsValue (Nat.toDigits 10 n) = n :=
  Nat.ofDigitChars_ten_toDigits

theorem digitsValue_zeros_append (k : Nat) (digits : List Char) :
    digitsValue (List.replicate k '0' ++ digits) = digitsValue digits := by
  rw [digitsValue_eq, Nat.ofDigitChars_append, Nat.ofDigitChars_replicate_zero, Nat.mul_zero]
  rfl

theorem digitsValue_append_zeros (digits : List Char) (k : Nat) :
    digitsValue (digits ++ List.replicate k '0') = digitsValue digits * 10 ^ k := by
  rw [digitsValue_eq, Nat.ofDigitChars_append, Nat.ofDigitChars_replicate_zero, Nat.mul_comm]
  rfl

theorem isDigit_of_mem_toDigits {n : Nat} {c : Char} (h : c ∈ Nat.toDigits 10 n) :
    c.isDigit = true :=
  Nat.isDigit_of_mem_toDigits (by decide) (by decide) h

theorem isDigit_of_mem_zeros {k : Nat} {c : Char} (h : c ∈ List.replicate k '0') :
    c.isDigit = true := by
  rw [(List.mem_replicate.mp h).2]
  decide

theorem exists_cons_toDigits (n : Nat) :
    ∃ lead rest, Nat.toDigits 10 n = lead :: rest ∧ lead.isDigit = true ∧
      ∀ c ∈ rest, c.isDigit = true := by
  obtain ⟨lead, rest, h⟩ := List.exists_cons_of_ne_nil (Nat.toDigits_ne_nil (n := n) (b := 10))
  have hdigits : ∀ c ∈ lead :: rest, c.isDigit = true :=
    fun c hc => isDigit_of_mem_toDigits (h ▸ hc)
  exact ⟨lead, rest, h, List.forall_mem_cons.mp hdigits⟩

theorem mem_integerText {e : Int} {c : Char} (h : c ∈ integerText e) :
    c = '-' ∨ c.isDigit = true := by
  rw [integerText] at h
  split at h
  · exact (List.mem_cons.mp h).imp_right isDigit_of_mem_toDigits
  · exact .inr (isDigit_of_mem_toDigits h)

theorem ne_of_isDigit {c d : Char} (hc : c.isDigit = true) (hd : d.isDigit = false) : c ≠ d := by
  rintro rfl
  rw [hc] at hd
  cases hd

/-! ## Reading literals -/

theorem isExponent_integerText (e : Int) : IsExponent ('e' :: integerText e) e := by
  have hne : Nat.toDigits 10 e.natAbs ≠ [] := Nat.toDigits_ne_nil
  have hdigits : ∀ c ∈ Nat.toDigits 10 e.natAbs, c.isDigit = true :=
    fun c hc => isDigit_of_mem_toDigits hc
  by_cases h : e < 0
  · rw [integerText, if_pos h]
    have hvalue : -(digitsValue (Nat.toDigits 10 e.natAbs) : Int) = e := by
      rw [digitsValue_toDigits]
      omega
    have hnegative : IsExponent ('e' :: '-' :: Nat.toDigits 10 e.natAbs) _ :=
      .negative (.inl rfl) hne hdigits
    rwa [hvalue] at hnegative
  · rw [integerText, if_neg h]
    have hvalue : (digitsValue (Nat.toDigits 10 e.natAbs) : Int) = e := by
      rw [digitsValue_toDigits]
      omega
    have hpositive : IsExponent ('e' :: Nat.toDigits 10 e.natAbs) _ :=
      .unsigned (.inl rfl) hne hdigits
    rwa [hvalue] at hpositive

namespace Literal

variable (l : Literal)

theorem isExponent_exponentText : IsExponent l.exponentText (l.exponent.getD 0) := by
  rw [exponentText]
  cases l.exponent with
  | none => exact .missing
  | some e => exact isExponent_integerText e

theorem head?_exponentText {c : Char} (h : l.exponentText.head? = some c) : c = 'e' := by
  rw [exponentText] at h
  split at h
  · cases h
  · exact (Option.some.inj h).symm

/-- A literal spells the decimal that it shows. -/
theorem spells_chars : Spells l.chars l.decimal := by
  rw [chars, decimal, pointPart]
  split
  · next hnone =>
      rw [hnone, List.append_nil, List.nil_append]
      simpa using Spells.digits l.whole_ne_nil l.whole_digits l.isExponent_exponentText
  · exact .point (List.append_ne_nil_of_left_ne_nil l.whole_ne_nil _) l.whole_digits
      l.fraction_digits l.isExponent_exponentText

theorem readUnsigned?_chars : readUnsigned? l.chars = some l.decimal :=
  l.spells_chars.readUnsigned?_eq

theorem mem_pointPart {c : Char} (h : c ∈ l.pointPart) : c = '.' ∨ c.isDigit = true := by
  rw [pointPart] at h
  split at h
  · cases h
  · exact (List.mem_cons.mp h).imp_right (l.fraction_digits c)

theorem mem_exponentText {c : Char} (h : c ∈ l.exponentText) :
    c = 'e' ∨ c = '-' ∨ c.isDigit = true := by
  rw [exponentText] at h
  split at h
  · cases h
  · exact (List.mem_cons.mp h).imp_right mem_integerText

/-- The characters of a literal; the letters that announce a radix are not among them. -/
theorem mem_chars {c : Char} (h : c ∈ l.chars) :
    c.isDigit = true ∨ c = '.' ∨ c = 'e' ∨ c = '-' := by
  rw [chars, List.mem_append, List.mem_append] at h
  rcases h with h | h | h
  · exact .inl (l.whole_digits c h)
  · exact (l.mem_pointPart h).elim (fun h => .inr (.inl h)) .inl
  · rcases l.mem_exponentText h with h | h | h
    · exact .inr (.inr (.inl h))
    · exact .inr (.inr (.inr h))
    · exact .inl h

theorem ne_of_mem_chars {c d : Char} (h : c ∈ l.chars)
    (hd : (d.isDigit || d == '.' || d == 'e' || d == '-') = false) : c ≠ d := by
  rintro rfl
  simp only [Bool.or_eq_false_iff, beq_eq_false_iff_ne] at hd
  rcases l.mem_chars h with hc | hc | hc | hc <;> simp_all

theorem exists_cons_chars : ∃ c cs, l.chars = c :: cs ∧ c.isDigit = true := by
  obtain ⟨c, cs, hwhole⟩ := List.exists_cons_of_ne_nil l.whole_ne_nil
  refine ⟨c, cs ++ (l.pointPart ++ l.exponentText), by rw [chars, hwhole]; rfl, ?_⟩
  exact l.whole_digits c (hwhole ▸ List.mem_cons_self)

theorem decimalRead?_chars : Decimal.read? l.chars = some l.decimal.toFloat := by
  have hmagnitude : readMagnitude? l.chars = some l.decimal.toFloat := by
    rw [readMagnitude?, readUnsigned?_chars]
  obtain ⟨c, cs, hcs, hc⟩ := l.exists_cons_chars
  rw [hcs] at hmagnitude ⊢
  unfold Decimal.read?
  split
  · rename_i heq
    exact absurd (List.cons.inj heq).1 (ne_of_isDigit hc (by decide))
  · rename_i heq
    exact absurd (List.cons.inj heq).1 (ne_of_isDigit hc (by decide))
  · exact hmagnitude

/-- Behind a leading zero stands no radix. -/
theorem isRadixLetter_eq_false {d letter : Char} {rest : List Char}
    (h : l.chars = d :: letter :: rest) : Token.isRadixLetter letter = false := by
  have hmem : letter ∈ l.chars := by
    rw [h]
    simp
  simp only [Token.isRadixLetter, Bool.or_eq_false_iff, beq_eq_false_iff_ne]
  refine ⟨⟨⟨⟨⟨?_, ?_⟩, ?_⟩, ?_⟩, ?_⟩, ?_⟩ <;> exact l.ne_of_mem_chars hmem (by decide)

theorem not_hasRadixPrefix_chars : ¬ Numeral.HasRadixPrefix l.chars := by
  rintro ⟨letter, digits, hcs, hradix⟩
  have hletter := l.isRadixLetter_eq_false hcs
  simp only [Token.isRadixLetter, Bool.or_eq_false_iff, beq_eq_false_iff_ne] at hletter
  simp [Numeral.radixOf?, hletter] at hradix

theorem read?_chars : Numeral.read? l.chars = some l.decimal.toFloat := by
  rw [Numeral.read?_of_not_hasRadixPrefix l.not_hasRadixPrefix_chars, l.decimalRead?_chars]

theorem exponentPart_exponentText : Token.exponentPart l.exponentText = l.exponentText := by
  rw [exponentText]
  cases l.exponent with
  | none => rfl
  | some e =>
      have hread : ∀ sign, sign = [] ∨ sign = ['+'] ∨ sign = ['-'] →
          Token.exponentPart ('e' :: (sign ++ Nat.toDigits 10 e.natAbs)) =
            'e' :: (sign ++ Nat.toDigits 10 e.natAbs) := by
        intro sign hsign
        have hends : ∀ c, ([] : List Char).head? = some c → c.isDigit = false := nofun
        simpa using Token.exponentPart_append (.inl rfl) hsign Nat.toDigits_ne_nil
          (fun _ => isDigit_of_mem_toDigits) hends
      change Token.exponentPart ('e' :: integerText e) = 'e' :: integerText e
      rw [integerText]
      split
      · exact hread ['-'] (.inr (.inr rfl))
      · exact hread [] (.inl rfl)

/-- A literal is one number token. -/
theorem numberPart_chars : Token.numberPart l.chars = l.chars := by
  have hstretch : ∀ c ∈ l.whole ++ l.pointPart, Token.isDigitOrPoint c = true := by
    intro c hc
    rw [Token.isDigitOrPoint, Bool.or_eq_true, beq_iff_eq]
    rcases List.mem_append.mp hc with hc | hc
    · exact .inl (l.whole_digits c hc)
    · exact (l.mem_pointPart hc).symm
  have hends : ∀ c, l.exponentText.head? = some c → Token.isDigitOrPoint c = false := by
    intro c hc
    obtain rfl := l.head?_exponentText hc
    rfl
  have hplain : Token.numberPart.plain l.chars = l.chars := by
    rw [Token.numberPart.plain, chars, ← List.append_assoc,
      Text.takeWhile_append_of_head? hstretch hends,
      Text.dropWhile_append_of_head? hstretch hends, exponentPart_exponentText]
  unfold Token.numberPart
  split
  next letter rest hcs =>
    rw [l.isRadixLetter_eq_false hcs, if_neg Bool.false_ne_true]
    exact hplain
  next => exact hplain

end Literal

/-! ## Layouts -/

/-- What is laid out in exponent notation is a literal that shows the decimal. -/
theorem exists_literal_scientific (d : Decimal) :
    ∃ l : Literal, l.chars = d.scientific ∧ l.decimal = d := by
  obtain ⟨lead, rest, hdigits, hlead, hrest⟩ := exists_cons_toDigits d.significand
  let l : Literal :=
    { whole := [lead], fraction := rest, exponent := some (d.exponent + rest.length),
      whole_ne_nil := List.cons_ne_nil _ _, whole_digits := by simpa using hlead,
      fraction_digits := hrest }
  refine ⟨l, ?_, ?_⟩
  · rw [scientific, hdigits]
    simp [l, Literal.chars, Literal.pointPart, Literal.exponentText]
  · have hvalue : digitsValue (lead :: rest) = d.significand := by
      rw [← hdigits, digitsValue_toDigits]
    simp [l, Literal.decimal, hvalue]

/-- What is laid out with a point is a literal that shows the decimal. -/
theorem exists_literal_positional (d : Decimal) (h : d.exponent < 0) :
    ∃ l : Literal, l.chars = d.positional ∧ l.decimal = d := by
  let places := (-d.exponent).toNat
  let digits := Nat.toDigits 10 d.significand
  let padded := List.replicate (places + 1 - digits.length) '0' ++ digits
  have hlength : places + 1 ≤ padded.length := by
    rw [List.length_append, List.length_replicate]
    omega
  have hpadded : ∀ c ∈ padded, c.isDigit = true := by
    intro c hc
    rcases List.mem_append.mp hc with hc | hc
    · exact isDigit_of_mem_zeros hc
    · exact isDigit_of_mem_toDigits hc
  have hfraction : (padded.drop (padded.length - places)).length = places := by
    rw [List.length_drop]
    omega
  have hpoint : padded.drop (padded.length - places) ≠ [] := by
    rw [← List.length_pos_iff_ne_nil, hfraction]
    omega
  let l : Literal :=
    { whole := padded.take (padded.length - places)
      fraction := padded.drop (padded.length - places)
      exponent := none
      whole_ne_nil := by
        rw [← List.length_pos_iff_ne_nil, List.length_take]
        omega
      whole_digits := fun c hc => hpadded c (List.mem_of_mem_take hc)
      fraction_digits := fun c hc => hpadded c (List.mem_of_mem_drop hc) }
  refine ⟨l, ?_, ?_⟩
  · rw [positional, if_neg (by omega)]
    simp only [l, Literal.chars, Literal.pointPart, Literal.exponentText, if_neg hpoint,
      List.append_nil]
    rfl
  · have hvalue : digitsValue padded = d.significand := by
      rw [digitsValue_zeros_append, digitsValue_toDigits]
    have hexponent : -(places : Int) = d.exponent := by
      dsimp only [places]
      omega
    rw [Literal.decimal]
    simp only [l, List.take_append_drop, hvalue, hfraction, Option.getD_none, Int.zero_sub,
      hexponent]

/-- Digits alone, with zeros behind them. -/
theorem exists_literal_digits (n k : Nat) :
    ∃ l : Literal, l.chars = Nat.toDigits 10 n ++ List.replicate k '0' ∧
      l.decimal = ⟨n * 10 ^ k, 0⟩ := by
  let l : Literal :=
    { whole := Nat.toDigits 10 n ++ List.replicate k '0', fraction := [], exponent := none,
      whole_ne_nil := by simp [Nat.toDigits_ne_nil]
      whole_digits := by
        intro c hc
        rcases List.mem_append.mp hc with hc | hc
        · exact isDigit_of_mem_toDigits hc
        · exact isDigit_of_mem_zeros hc
      fraction_digits := by simp }
  refine ⟨l, ?_, ?_⟩
  · simp [l, Literal.chars, Literal.pointPart, Literal.exponentText]
  · simp [l, Literal.decimal, digitsValue_append_zeros, digitsValue_toDigits]

end Decimal
end Calculator
