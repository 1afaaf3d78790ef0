import Calculator.Proofs.Decimal.Literal
import Calculator.Proofs.Decimal.Rounding
import Calculator.Proofs.Grammar.Numbers
import Calculator.Proofs.Radix.Digits

/-!
# The literals of a text

A number token is cut by one rule and read by another.  Without a radix it is a run of digits
and points with an exponent that is complete, so the reader has nothing to object to but a
second point.  Behind the prefix of a radix stand the characters of a name, among which the
reader wants digits only.  Either way the number is the double nearest to the value that is
spelled, and so it is neither negative nor a NaN.
-/

namespace Calculator

open Binary64 (IsNearest isNearest_ofInt)

/-! ## Tokens without a radix -/

namespace Token

theorem isExponent_exponentPart (cs : List Char) : ∃ e, Decimal.IsExponent (exponentPart cs) e := by
  rcases exponentPart_eq_nil_or cs with
    h | ⟨mark, sign, digits, _, h, -, hmark, hsign, hne, hdigits⟩
  · rw [h]
    exact ⟨0, .missing⟩
  · rw [h]
    rcases hsign with rfl | rfl | rfl
    · exact ⟨_, .positive hmark (.inl rfl) hne hdigits⟩
    · exact ⟨_, .positive hmark (.inr rfl) hne hdigits⟩
    · exact ⟨_, .negative hmark hne hdigits⟩

/-- A run of digits and points with one point at most. -/
theorem digits_or_point_of_count_le {run : List Char}
    (hrun : ∀ c ∈ run, isDigitOrPoint c = true) (hcount : run.count '.' ≤ 1) :
    (∀ c ∈ run, c.isDigit = true) ∨
      ∃ whole fraction, run = whole ++ '.' :: fraction ∧ (∀ c ∈ whole, c.isDigit = true) ∧
        ∀ c ∈ fraction, c.isDigit = true := by
  have hdigits : ∀ ds : List Char, (∀ c ∈ ds, isDigitOrPoint c = true) → ds.count '.' = 0 →
      ∀ c ∈ ds, c.isDigit = true := by
    intro ds hds hnone c hc
    have hpoint : c ≠ '.' := by
      rintro rfl
      exact List.count_eq_zero.mp hnone hc
    simpa [isDigitOrPoint, hpoint] using hds c hc
  by_cases hpoint : '.' ∈ run
  · obtain ⟨whole, fraction, rfl⟩ := List.append_of_mem hpoint
    obtain ⟨hwhole, hfraction⟩ := List.forall_mem_append.mp hrun
    rw [List.count_append, List.count_cons_self] at hcount
    exact .inr ⟨whole, fraction, rfl, hdigits whole hwhole (by omega),
      hdigits fraction (List.forall_mem_cons.mp hfraction).2 (by omega)⟩
  · exact .inl (hdigits run hrun (List.count_eq_zero.mpr hpoint))

/-- A literal has a digit, in front of its exponent. -/
theorem exists_isDigit_of_startsNumber {c : Char} {cs : List Char}
    (h : startsNumber c cs = true) :
    ∃ d ∈ (c :: cs).takeWhile isDigitOrPoint, d.isDigit = true := by
  rw [List.takeWhile_cons_of_pos (isDigitOrPoint_of_startsNumber h)]
  rw [startsNumber, Bool.or_eq_true, Bool.and_eq_true] at h
  rcases h with hdigit | ⟨-, hhead⟩
  · exact ⟨c, List.mem_cons_self, hdigit⟩
  · cases cs with
    | nil => cases hhead
    | cons d ds =>
        have hd : d.isDigit = true := hhead
        refine ⟨d, List.mem_cons_of_mem c ?_, hd⟩
        rw [List.takeWhile_cons_of_pos (by simp [isDigitOrPoint, hd])]
        exact List.mem_cons_self

/-- A literal without a radix spells a decimal, unless it has two points. -/
theorem exists_spells_plain {c : Char} {cs : List Char} (h : startsNumber c cs = true)
    (hcount : (numberPart.plain (c :: cs)).count '.' ≤ 1) :
    ∃ d, Decimal.Spells (numberPart.plain (c :: cs)) d := by
  have hrun : ∀ d ∈ (c :: cs).takeWhile isDigitOrPoint, isDigitOrPoint d = true :=
    List.all_eq_true.mp List.all_takeWhile
  obtain ⟨digit, hmem, hdigit⟩ := exists_isDigit_of_startsNumber h
  obtain ⟨e, hexponent⟩ := isExponent_exponentPart ((c :: cs).dropWhile isDigitOrPoint)
  rw [numberPart.plain] at hcount ⊢
  rw [List.count_append] at hcount
  generalize (c :: cs).takeWhile isDigitOrPoint = run at hrun hmem hcount ⊢
  rcases digits_or_point_of_count_le hrun (by omega) with
    hdigits | ⟨whole, fraction, rfl, hwhole, hfraction⟩
  · exact ⟨_, .digits (List.ne_nil_of_mem hmem) hdigits hexponent⟩
  · have hne : whole ++ fraction ≠ [] := by
      intro hnil
      obtain ⟨rfl, rfl⟩ := List.append_eq_nil_iff.mp hnil
      obtain rfl := List.mem_singleton.mp hmem
      exact absurd hdigit (by decide)
    rw [List.append_assoc, List.cons_append]
    exact ⟨_, .point hne hwhole hfraction hexponent⟩

end Token

/-! ## Tokens in a radix -/

namespace Numeral

theorem radixOf?_eq_some_iff {letter : Char} {radix : Nat} :
    radixOf? letter = some radix ↔ (radix, letter) ∈ Radix.letters := by
  constructor
  · intro h
    unfold radixOf? at h
    split_ifs at h with hx ho hb
    · cases h
      rcases hx with rfl | rfl <;> decide
    · cases h
      rcases ho with rfl | rfl <;> decide
    · cases h
      rcases hb with rfl | rfl <;> decide
  · exact fun h => Radix.radixOf?_of_mem_letters _ h

theorem isRadixLetter_of_mem_letters {letter : Char} {radix : Nat}
    (h : (radix, letter) ∈ Radix.letters) : Token.isRadixLetter letter = true := by
  have hall : ∀ entry ∈ Radix.letters, Token.isRadixLetter entry.2 = true := by decide
  exact hall _ h

theorem isSome_radixOf?_of_isRadixLetter {letter : Char}
    (h : Token.isRadixLetter letter = true) : (radixOf? letter).isSome = true := by
  simp only [Token.isRadixLetter, Bool.or_eq_true, beq_iff_eq] at h
  rcases h with ((((rfl | rfl) | rfl) | rfl) | rfl) | rfl <;> rfl

end Numeral

namespace Token

theorem numberPart_eq_plain_of_not_hasRadixPrefix {cs : List Char}
    (h : ¬ Numeral.HasRadixPrefix (numberPart cs)) : numberPart cs = numberPart.plain cs := by
  refine numberPart_eq_plain fun letter rest hcs => ?_
  rw [← Bool.not_eq_true]
  intro hletter
  refine h ⟨letter, rest.takeWhile isNameChar, ?_, Numeral.isSome_radixOf?_of_isRadixLetter hletter⟩
  rw [hcs, numberPart, if_pos hletter]

/-- Behind the prefix of a radix stand the characters of a name, and so no sign. -/
theorem isNameChar_of_numberPart {cs digits : List Char} {letter : Char} {radix : Nat}
    (hletter : (radix, letter) ∈ Radix.letters) (h : numberPart cs = '0' :: letter :: digits) :
    ∀ c ∈ digits, isNameChar c = true := by
  obtain ⟨rest, hrest⟩ := numberPart_prefix cs
  rw [h] at hrest
  rw [← hrest, List.cons_append, List.cons_append, numberPart,
    if_pos (Numeral.isRadixLetter_of_mem_letters hletter)] at h
  obtain ⟨-, h⟩ := List.cons.inj h
  obtain ⟨-, hdigits⟩ := List.cons.inj h
  rw [← hdigits]
  exact List.all_eq_true.mp List.all_takeWhile

end Token

/-! ## Reading tokens -/

namespace Token

variable {literal : String} (h : IsLexeme (.number literal))

include h

/-- Without a radix, a token is read unless it has two points, and then as the double nearest
to the decimal that it spells. -/
theorem IsLexeme.read?_of_not_hasRadixPrefix
    (hplain : ¬ Numeral.HasRadixPrefix literal.toList) :
    ((Numeral.read? literal.toList).isSome = true ↔ literal.toList.count '.' ≤ 1) ∧
      ∀ v, Numeral.read? literal.toList = some v →
        ∃ d, Decimal.Spells literal.toList d ∧ IsNearest d.value v := by
  obtain ⟨c, cs, hnumber, hliteral⟩ := h.exists_numberPart
  obtain ⟨front, ds, hcons, hfront⟩ := h.exists_cons_literal
  have hread : Numeral.read? literal.toList =
      (Decimal.readUnsigned? literal.toList).map Decimal.toFloat := by
    rw [Numeral.read?_of_not_hasRadixPrefix hplain, hcons, Decimal.read?_of_isDigitOrPoint hfront]
  rw [hread]
  refine ⟨?_, fun v hv => ?_⟩
  · rw [Option.isSome_map]
    constructor
    · intro hsome
      obtain ⟨d, hd⟩ := Option.isSome_iff_exists.mp hsome
      exact (Decimal.spells_of_readUnsigned? hd).count_le
    · intro hcount
      rw [hliteral] at hplain hcount ⊢
      rw [numberPart_eq_plain_of_not_hasRadixPrefix hplain] at hcount ⊢
      obtain ⟨d, hd⟩ := exists_spells_plain hnumber hcount
      rw [hd.readUnsigned?_eq]
      rfl
  · obtain ⟨d, hd, rfl⟩ := Option.map_eq_some_iff.mp hv
    exact ⟨d, Decimal.spells_of_readUnsigned? hd, Decimal.isNearest_toFloat d⟩

/-- Behind the prefix of a radix, a token is read exactly when digits of the radix follow, at
least one of them, and their value is one of a 64-bit integer. -/
theorem IsLexeme.read?_eq_some_iff {radix : Nat} {letter : Char} {digits : List Char}
    (hletter : (radix, letter) ∈ Radix.letters)
    (hliteral : literal.toList = '0' :: letter :: digits) {v : Float} :
    Numeral.read? literal.toList = some v ↔
      digits ≠ [] ∧ (∀ c ∈ digits, Radix.digitOf c.toLower < radix) ∧
        Radix.placesValue radix (digits.map Char.toLower) 0 ≤ 2 ^ 63 - 1 ∧
        v = Binary64.ofInt (Radix.placesValue radix (digits.map Char.toLower) 0) := by
  obtain ⟨c, cs, -, hpart⟩ := h.exists_numberPart
  have hnames := isNameChar_of_numberPart hletter (hpart.symm.trans hliteral)
  have hsign : ∀ c, digits.head? = some c → c ≠ '-' ∧ c ≠ '+' := by
    intro c hc
    have hname := hnames c (List.mem_of_mem_head? hc)
    constructor <;> rintro rfl <;> exact absurd hname (by decide)
  have hle : radix ≤ 16 := by
    have hall : ∀ entry ∈ Radix.letters, entry.1 ≤ 16 := by decide
    exact hall _ hletter
  have hread : Numeral.read? literal.toList =
      (Radix.read? radix digits).map Binary64.ofInt := by
    rw [hliteral, Numeral.read?]
    rw [Numeral.radixOf?_eq_some_iff.mpr hletter]
  rw [hread, Option.map_eq_some_iff]
  constructor
  · rintro ⟨n, hn, rfl⟩
    obtain ⟨hne, hdigits, hfits, rfl⟩ := (Radix.read?_eq_some_iff hle hsign).mp hn
    exact ⟨hne, hdigits, hfits, rfl⟩
  · rintro ⟨hne, hdigits, hfits, rfl⟩
    exact ⟨_, (Radix.read?_eq_some_iff hle hsign).mpr ⟨hne, hdigits, hfits, rfl⟩, rfl⟩

/-- Whatever a token is read as is the double nearest to a number that is not negative. -/
theorem IsLexeme.exists_isNearest_of_read? {v : Float}
    (hv : Numeral.read? literal.toList = some v) : ∃ x, IsNearest x v := by
  by_cases hradix : Numeral.HasRadixPrefix literal.toList
  · obtain ⟨letter, digits, hliteral, hletter⟩ := hradix
    obtain ⟨radix, hradix⟩ := Option.isSome_iff_exists.mp hletter
    obtain ⟨-, -, -, rfl⟩ :=
      (h.read?_eq_some_iff (Numeral.radixOf?_eq_some_iff.mp hradix) hliteral).mp hv
    exact ⟨_, isNearest_ofInt _⟩
  · obtain ⟨d, -, hnearest⟩ := (h.read?_of_not_hasRadixPrefix hradix).2 v hv
    exact ⟨_, hnearest⟩

end Token

/-! ## Texts -/

namespace Grammar

theorem parse_infinite_literal : Expr.parse "1e999" = .ok (.number Binary64.infinity) := by
  have hscan : Token.scan "1e999".toList = ⟨[.number "1e999"], none⟩ :=
    Token.scan_of_first? (by decide) (by decide) rfl Token.scan_nil
  rw [Expr.parse, hscan]
  rfl

/-- The numbers of a text are those that its number tokens spell.  A token without a radix is
read exactly when it has one point at most, as the double nearest to its decimal; a token in a
radix is read exactly when digits of the radix follow the prefix, at least one, and their value
is one of a 64-bit integer, as the double nearest to it.  So no number in the tree of a text is
a NaN or has the sign bit, though it may be infinite. -/
theorem literals_of_text :
    (∀ (text literal : String), Token.number literal ∈ (Token.scan text.toList).tokens →
      (¬ Numeral.HasRadixPrefix literal.toList →
        ((Numeral.read? literal.toList).isSome = true ↔ literal.toList.count '.' ≤ 1) ∧
        ∀ v, Numeral.read? literal.toList = some v →
          ∃ d, Decimal.Spells literal.toList d ∧ IsNearest d.value v) ∧
      ∀ (radix : Nat) (letter : Char) (digits : List Char), (radix, letter) ∈ Radix.letters →
        literal.toList = '0' :: letter :: digits →
        ((Numeral.read? literal.toList).isSome = true ↔
          digits ≠ [] ∧ (∀ c ∈ digits, Radix.digitOf c.toLower < radix) ∧
            Radix.placesValue radix (digits.map Char.toLower) 0 ≤ 2 ^ 63 - 1) ∧
        ∀ v, Numeral.read? literal.toList = some v →
          IsNearest (Radix.placesValue radix (digits.map Char.toLower) 0 : Nat) v) ∧
    (∀ (text : String) (t : Expr), Expr.parse text = .ok t →
      ∀ v, t.HasNumber v → v.isNaN = false ∧ Binary64.isNegative v = false) ∧
    ∃ (text : String) (t : Expr), Expr.parse text = .ok t ∧ t.HasNumber Binary64.infinity := by
  refine ⟨fun text literal hmem => ?_, fun text t hparse v hv => ?_,
    ⟨"1e999", _, parse_infinite_literal, .here⟩⟩
  · have h := Token.isLexeme_of_mem_tokens hmem
    refine ⟨h.read?_of_not_hasRadixPrefix, fun radix letter digits hletter hliteral => ⟨?_, ?_⟩⟩
    · rw [Option.isSome_iff_exists]
      constructor
      · rintro ⟨v, hv⟩
        obtain ⟨hne, hdigits, hfits, -⟩ := (h.read?_eq_some_iff hletter hliteral).mp hv
        exact ⟨hne, hdigits, hfits⟩
      · rintro ⟨hne, hdigits, hfits⟩
        exact ⟨_, (h.read?_eq_some_iff hletter hliteral).mpr ⟨hne, hdigits, hfits, rfl⟩⟩
    · intro v hv
      obtain ⟨-, -, -, rfl⟩ := (h.read?_eq_some_iff hletter hliteral).mp hv
      exact isNearest_ofInt _
  · obtain ⟨-, htokens⟩ := ofTokens_of_parse hparse
    obtain ⟨literal, hmem, hread⟩ := (derives_of_ofTokens htokens).1.exists_literal hv
    obtain ⟨x, hx⟩ := (Token.isLexeme_of_mem_tokens hmem).exists_isNearest_of_read? hread
    exact ⟨hx.isNaN, hx.isNegative⟩

/-- A point may end a literal, and a literal in hexadecimal may have the value of the greatest
64-bit integer. -/
theorem literals_of_point_and_greatest_integer :
    Token.scan "5. 0X7fffFFFFffffFFFF".toList =
        ⟨[.number "5.", .number "0X7fffFFFFffffFFFF"], none⟩ ∧
      (Numeral.read? "5.".toList).isSome = true ∧
      (Numeral.read? "0X7fffFFFFffffFFFF".toList).isSome = true ∧
      (∀ v, Numeral.read? "0X7fffFFFFffffFFFF".toList = some v → IsNearest 9223372036854775807 v) ∧
      Expr.parse "1e999" = .ok (.number Binary64.infinity) ∧
      Binary64.infinity.isNaN = false ∧ Binary64.isNegative Binary64.infinity = false := by
  have hscan : Token.scan "5. 0X7fffFFFFffffFFFF".toList =
      ⟨[.number "5.", .number "0X7fffFFFFffffFFFF"], none⟩ := by
    refine Token.scan_of_first? (by decide) (by decide) rfl ?_
    refine (Token.scan_of_isBlank (by decide)).trans ?_
    exact Token.scan_of_first? (by decide) (by decide) rfl Token.scan_nil
  have hall : "7fffFFFFffffFFFF".toList.all (Radix.digitOf ·.toLower < 16) = true := by
    decide +kernel
  have hdigits : ∀ c ∈ "7fffFFFFffffFFFF".toList, Radix.digitOf c.toLower < 16 :=
    fun c hc => of_decide_eq_true (List.all_eq_true.mp hall c hc)
  have hvalue :
      Radix.placesValue 16 ("7fffFFFFffffFFFF".toList.map Char.toLower) 0 =
        9223372036854775807 := by
    decide +kernel
  obtain ⟨htokens, htrees, -⟩ := literals_of_text
  have hpoint := (htokens "5. 0X7fffFFFFffffFFFF" "5." (by rw [hscan]; simp)).1
    (by rintro ⟨letter, digits, hcs, -⟩; cases hcs)
  have hgreatest := (htokens "5. 0X7fffFFFFffffFFFF" "0X7fffFFFFffffFFFF" (by rw [hscan]; simp)).2
    16 'X' "7fffFFFFffffFFFF".toList (by decide) rfl
  rw [hvalue, Nat.cast_ofNat] at hgreatest
  exact ⟨hscan, hpoint.1.mpr (by decide), hgreatest.1.mpr ⟨by decide, hdigits, by norm_num⟩,
    hgreatest.2, parse_infinite_literal, htrees "1e999" _ parse_infinite_literal _ .here⟩

end Grammar
end Calculator
