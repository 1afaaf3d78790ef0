import Calculator.Proofs.Json.Grammar

/-!
# Reading numbers and strings of JSON texts

The readers take numbers and strings from the front of a text.  What they take is in the
grammar; and what the grammar has is taken whole, a number if the text does not go on with a
character that could belong to it, a string up to its closing quote.
-/

namespace Calculator
namespace Json

/-! ## Digits -/

theorem readDigits?_eq_some {cs digits rest : List Char}
    (h : readDigits? cs = some (digits, rest)) :
    cs = digits ++ rest ∧ digits ≠ [] ∧ ∀ c ∈ digits, c.isDigit = true := by
  rw [readDigits?] at h
  split at h
  · cases h
  · next hne =>
      cases h
      exact ⟨List.takeWhile_append_dropWhile.symm, by simpa using hne,
        List.all_eq_true.mp List.all_takeWhile⟩

theorem readDigits?_append {digits rest : List Char} (hne : digits ≠ [])
    (hdigits : ∀ c ∈ digits, c.isDigit = true)
    (hrest : ∀ c, rest.head? = some c → c.isDigit = false) :
    readDigits? (digits ++ rest) = some (digits, rest) := by
  rw [readDigits?, Text.takeWhile_append_of_head? hdigits hrest,
    Text.dropWhile_append_of_head? hdigits hrest]
  exact if_neg (by simpa using hne)

theorem readWhole?_eq_some {cs whole rest : List Char} (h : readWhole? cs = some (whole, rest)) :
    cs = whole ++ rest ∧ IsWhole whole := by
  unfold readWhole? at h
  split at h
  · cases h
    exact ⟨rfl, by simp, by simp, by simp⟩
  · next hzero =>
      obtain ⟨hcs, hne, hdigits⟩ := readDigits?_eq_some h
      refine ⟨hcs, hne, hdigits, ?_⟩
      rintro tail rfl
      exact (hzero (tail ++ rest) hcs).elim

theorem IsWhole.readWhole?_append {whole rest : List Char} (h : IsWhole whole)
    (hrest : ∀ c, rest.head? = some c → c.isDigit = false) :
    readWhole? (whole ++ rest) = some (whole, rest) := by
  unfold readWhole?
  split
  · next cs hcs =>
      obtain ⟨c, tail, hwhole⟩ := List.exists_cons_of_ne_nil h.ne_nil
      rw [hwhole, List.cons_append] at hcs
      obtain ⟨rfl, rfl⟩ := List.cons.inj hcs
      obtain rfl := h.leading tail hwhole
      rw [hwhole]
      rfl
  · exact readDigits?_append h.ne_nil h.isDigit hrest

/-! ## Exponents and numbers -/

theorem readExponent?_eq_some {cs rest : List Char} {e : Int}
    (h : readExponent? cs = some (e, rest)) :
    ∃ exponent, cs = exponent ++ rest ∧ Decimal.IsExponent exponent e := by
  unfold readExponent? at h
  split at h
  · next mark cs =>
      split at h
      · next hmark =>
          have hmark : mark = 'e' ∨ mark = 'E' := by simpa using hmark
          split at h
          all_goals
            obtain ⟨⟨digits, rest⟩, hread, heq⟩ := Option.map_eq_some_iff.mp h
            obtain ⟨rfl, hne, hdigits⟩ := readDigits?_eq_some hread
            cases heq
          · exact ⟨_, rfl, .negative hmark hne hdigits⟩
          · exact ⟨_, rfl, .plus hmark hne hdigits⟩
          · exact ⟨_, rfl, .unsigned hmark hne hdigits⟩
      · cases h
        exact ⟨[], rfl, .missing⟩
  · cases h
    exact ⟨[], rfl, .missing⟩

/-- The text does not go on with a character that a number could have. -/
def EndsNumber (rest : List Char) : Prop :=
  ∀ c, rest.head? = some c → c.isDigit = false ∧ c ≠ '.' ∧ c ≠ 'e' ∧ c ≠ 'E'

theorem readExponent?_append {exponent rest : List Char} {e : Int}
    (h : Decimal.IsExponent exponent e) (hrest : EndsNumber rest) :
    readExponent? (exponent ++ rest) = some (e, rest) := by
  have htest : ∀ {mark : Char}, mark = 'e' ∨ mark = 'E' →
      (mark == 'e' || mark == 'E') = true := by simp
  have hdigit : ∀ c, rest.head? = some c → c.isDigit = false := fun c hc => (hrest c hc).1
  cases h with
  | missing =>
      cases rest with
      | nil => rfl
      | cons c rest =>
          obtain ⟨-, -, hlower, hupper⟩ := hrest c rfl
          exact if_neg (by simp [hlower, hupper])
  | @positive mark sign digits hmark hsign hne hdigits =>
      have hread := readDigits?_append hne hdigits hdigit
      rcases hsign with rfl | rfl
      · obtain ⟨d, ds, rfl⟩ := List.exists_cons_of_ne_nil hne
        have hd : d.isDigit = true := hdigits d List.mem_cons_self
        have hsign : ∀ {c : Char} {cs : List Char}, d :: ds ++ rest = c :: cs →
            c.isDigit = true := by
          rintro c cs heq
          rwa [← (List.cons.inj heq).1]
        rw [List.nil_append, List.cons_append, readExponent?, if_pos (htest hmark), hread]
        · rfl
        · exact fun cs heq => absurd (hsign heq) (by decide)
        · exact fun cs heq => absurd (hsign heq) (by decide)
      · rw [List.cons_append, List.append_assoc, List.singleton_append, readExponent?,
          if_pos (htest hmark), hread]
        rfl
  | negative hmark hne hdigits =>
      rw [List.cons_append, List.cons_append, readExponent?, if_pos (htest hmark),
        readDigits?_append hne hdigits hdigit]
      rfl

theorem readMagnitude?_eq_some {cs rest : List Char} {d : Decimal}
    (h : readMagnitude? cs = some (d, rest)) :
    ∃ front, cs = front ++ rest ∧ IsMagnitude front d := by
  rw [readMagnitude?] at h
  obtain ⟨⟨whole, behind⟩, hreadWhole, h⟩ := Option.bind_eq_some_iff.mp h
  obtain ⟨⟨fraction, behind'⟩, hfraction, h⟩ := Option.bind_eq_some_iff.mp h
  obtain ⟨⟨e, rest⟩, hreadExponent, h⟩ := Option.bind_eq_some_iff.mp h
  cases h
  obtain ⟨rfl, hwhole⟩ := readWhole?_eq_some hreadWhole
  obtain ⟨exponent, rfl, hexponent⟩ := readExponent?_eq_some hreadExponent
  unfold readFraction? at hfraction
  split at hfraction
  · obtain ⟨rfl, hne, hdigits⟩ := readDigits?_eq_some hfraction
    exact ⟨whole ++ '.' :: (fraction ++ exponent), by simp,
      .fraction hwhole hne hdigits hexponent⟩
  · cases hfraction
    refine ⟨whole ++ exponent, (List.append_assoc _ _ _).symm, ?_⟩
    simpa using IsMagnitude.whole hwhole hexponent

theorem IsMagnitude.readMagnitude?_append {cs rest : List Char} {d : Decimal}
    (h : IsMagnitude cs d) (hrest : EndsNumber rest) :
    readMagnitude? (cs ++ rest) = some (d, rest) := by
  -- What ends an exponent, or its lack, is no digit and no point.
  have hends : ∀ {exponent : List Char} {e : Int}, Decimal.IsExponent exponent e →
      ∀ c, (exponent ++ rest).head? = some c → c.isDigit = false ∧ c ≠ '.' := by
    intro exponent e hexponent c hc
    rw [List.head?_append, Option.or_eq_some_iff] at hc
    rcases hc with hc | ⟨-, hc⟩
    · rcases hexponent.mark_of_head? hc with rfl | rfl <;> decide
    · exact ⟨(hrest c hc).1, (hrest c hc).2.1⟩
  cases h with
  | @whole whole exponent e hwhole hexponent =>
      have hfraction : readFraction? (exponent ++ rest) = some ([], exponent ++ rest) := by
        unfold readFraction?
        split
        · next heq =>
            exact absurd rfl (hends hexponent '.' (by rw [heq]; rfl)).2
        · rfl
      rw [List.append_assoc, readMagnitude?,
        hwhole.readWhole?_append fun c hc => (hends hexponent c hc).1]
      simp [hfraction, readExponent?_append hexponent hrest]
  | @fraction whole fraction exponent e hwhole hne hdigits hexponent =>
      have hpoint : ∀ c, ('.' :: (fraction ++ (exponent ++ rest))).head? = some c →
          c.isDigit = false := by
        rintro c ⟨⟩
        decide
      have hfraction : readFraction? ('.' :: (fraction ++ (exponent ++ rest))) =
          some (fraction, exponent ++ rest) :=
        readDigits?_append hne hdigits fun c hc => (hends hexponent c hc).1
      rw [List.append_assoc, List.cons_append, List.append_assoc, readMagnitude?,
        hwhole.readWhole?_append hpoint]
      simp [hfraction, readExponent?_append hexponent hrest]

theorem IsMagnitude.exists_cons {cs : List Char} {d : Decimal} (h : IsMagnitude cs d) :
    ∃ c tail, cs = c :: tail ∧ c.isDigit = true := by
  have hfirst : ∀ {whole : List Char}, IsWhole whole → ∀ rest : List Char,
      ∃ c tail, whole ++ rest = c :: tail ∧ c.isDigit = true := by
    intro whole hwhole rest
    obtain ⟨c, tail, rfl⟩ := List.exists_cons_of_ne_nil hwhole.ne_nil
    exact ⟨c, tail ++ rest, rfl, hwhole.isDigit c List.mem_cons_self⟩
  cases h with
  | whole hwhole => exact hfirst hwhole _
  | fraction hwhole => exact hfirst hwhole _

/-! ## Strings -/

theorem shortEscape?_eq_some_iff {letter c : Char} :
    shortEscape? letter = some c ↔ (letter, c) ∈ shortEscapes := by
  constructor
  · intro h
    unfold shortEscape? at h
    split at h <;> cases h <;> decide
  · have hall : ∀ entry ∈ shortEscapes, shortEscape? entry.1 = some entry.2 := by decide
    exact hall (letter, c)

theorem hexDigit?_of_ascii :
    ∀ c : Char, c.toNat < 128 → hexDigit? c = Radix.digitIn? 16 c :=
  Text.forall_ascii (by decide +kernel)

/-- The digits of an escape are those of the radix sixteen. -/
theorem codeUnit?_eq (digits : List Char) : codeUnit? digits = Radix.digitsValue? 16 digits := by
  have hdigit : ∀ c, hexDigit? c = Radix.digitIn? 16 c := by
    intro c
    by_cases hascii : c.toNat < 128
    · exact hexDigit?_of_ascii c hascii
    · have hbeyond : 128 ≤ c.toNat := by omega
      rw [Radix.digitIn?, Radix.digitValue_of_not_ascii hbeyond, hexDigit?,
        Text.isDigit_of_not_ascii hbeyond, if_neg Bool.false_ne_true,
        if_neg fun hletter => Text.not_le_of_not_ascii hbeyond (by decide) hletter.2,
        if_neg fun hletter => Text.not_le_of_not_ascii hbeyond (by decide) hletter.2]
      rfl
  rw [codeUnit?, Radix.digitsValue?]
  simp only [hdigit]

theorem readPieces?_eq_some {cs rest : List Char} {pieces : List Piece}
    (h : readPieces? cs = some (pieces, rest)) :
    ∃ core, cs = core ++ '"' :: rest ∧ IsPieces core pieces := by
  fun_induction readPieces? cs generalizing pieces rest with
  | case1 => cases h
  | case2 cs =>
      cases h
      exact ⟨[], rfl, .nil⟩
  | case3 h₁ h₂ h₃ h₄ cs ih =>
      obtain ⟨n, hn, h⟩ := Option.bind_eq_some_iff.mp h
      obtain ⟨⟨pieces, rest⟩, hpieces, h⟩ := Option.bind_eq_some_iff.mp h
      cases h
      obtain ⟨core, rfl, hcore⟩ := ih hpieces
      rw [codeUnit?_eq, Radix.digitsValue?_eq_some_iff le_rfl] at hn
      obtain ⟨hdigits, rfl⟩ := hn
      exact ⟨_, rfl, .unit rfl hdigits hcore⟩
  | case4 letter cs hletter ih =>
      obtain ⟨c, hc, h⟩ := Option.bind_eq_some_iff.mp h
      obtain ⟨⟨pieces, rest⟩, hpieces, h⟩ := Option.bind_eq_some_iff.mp h
      cases h
      obtain ⟨core, rfl, hcore⟩ := ih hpieces
      exact ⟨_, rfl, .short (shortEscape?_eq_some_iff.mp hc) hcore⟩
  | case5 => cases h
  | case6 c cs hquote _ _ hplain ih =>
      obtain ⟨⟨pieces, rest⟩, hpieces, h⟩ := Option.bind_eq_some_iff.mp h
      cases h
      obtain ⟨core, rfl, hcore⟩ := ih hpieces
      simp only [Bool.or_eq_true, decide_eq_true_eq, beq_iff_eq, not_or, not_lt] at hplain
      exact ⟨c :: core, rfl, .char hplain.1 hquote hplain.2 hcore⟩

theorem IsPieces.readPieces?_append {core : List Char} {pieces : List Piece}
    (h : IsPieces core pieces) (rest : List Char) :
    readPieces? (core ++ '"' :: rest) = some (pieces, rest) := by
  induction h with
  | nil => rw [List.nil_append, readPieces?]
  | @char c cs pieces hcontrol hquote hescape _ ih =>
      have hplain : ¬ (decide (c.toNat < 0x20) || c == '\\') = true := by
        simp [hescape]
        omega
      rw [List.cons_append, readPieces?, if_neg hplain, ih]
      · rfl
      · exact fun heq => hquote heq
      · exact fun _ _ _ _ _ heq => absurd heq hescape
      · exact fun _ _ heq => absurd heq hescape
  | @short letter c cs pieces hshort _ ih =>
      rw [List.cons_append, List.cons_append, readPieces?, shortEscape?_eq_some_iff.mpr hshort, ih]
      · rfl
      · rintro h₁ h₂ h₃ h₄ cs' rfl
        simp [shortEscapes] at hshort
  | @unit digits cs pieces hlength hdigits _ ih =>
      obtain ⟨h₁, h₂, h₃, h₄, rfl⟩ : ∃ h₁ h₂ h₃ h₄, digits = [h₁, h₂, h₃, h₄] := by
        match digits, hlength with
        | [h₁, h₂, h₃, h₄], _ => exact ⟨h₁, h₂, h₃, h₄, rfl⟩
      have hunit : codeUnit? [h₁, h₂, h₃, h₄] =
          some (Radix.placesValue 16 ([h₁, h₂, h₃, h₄].map Char.toLower) 0) := by
        rw [codeUnit?_eq, Radix.digitsValue?_eq_some_iff le_rfl]
        exact ⟨hdigits, rfl⟩
      simp only [List.cons_append, List.nil_append]
      rw [readPieces?, hunit, ih]
      rfl

theorem characters?_eq_some_iff {pieces : List Piece} {cs : List Char} :
    characters? pieces = some cs ↔ Names pieces cs := by
  constructor
  · intro h
    fun_induction characters? pieces generalizing cs with
    | case1 =>
        cases h
        exact .nil
    | case2 c pieces ih =>
        obtain ⟨cs, hcs, rfl⟩ := Option.map_eq_some_iff.mp h
        exact .char (ih hcs)
    | case3 n m pieces hpair ih =>
        obtain ⟨cs, hcs, rfl⟩ := Option.map_eq_some_iff.mp h
        simp only [isLeading, isTrailing, Bool.and_eq_true, decide_eq_true_eq] at hpair
        exact .pair hpair.1 hpair.2 (ih hcs)
    | case4 => cases h
    | case5 n m pieces _ halone ih =>
        obtain ⟨cs, hcs, rfl⟩ := Option.map_eq_some_iff.mp h
        simp only [isLeading, isTrailing, Bool.or_eq_true, Bool.and_eq_true, decide_eq_true_eq,
          not_or, not_and, not_lt] at halone
        exact .unit (by omega) (ih hcs)
    | case6 => cases h
    | case7 n pieces _ halone ih =>
        obtain ⟨cs, hcs, rfl⟩ := Option.map_eq_some_iff.mp h
        simp only [isLeading, isTrailing, Bool.or_eq_true, Bool.and_eq_true, decide_eq_true_eq,
          not_or, not_and, not_lt] at halone
        exact .unit (by omega) (ih hcs)
  · intro h
    induction h with
    | nil => rfl
    | char _ ih => rw [characters?, ih, Option.map_some]
    | @unit n pieces cs hn _ ih =>
        have hleading : isLeading n = false := by
          simp [isLeading]
          omega
        have htrailing : isTrailing n = false := by
          simp [isTrailing]
          omega
        -- Whether another code unit follows decides how the reader looks at this one.
        cases pieces with
        | nil => simpa [characters?, hleading, htrailing] using ih
        | cons piece pieces => cases piece <;> simpa [characters?, hleading, htrailing] using ih
    | pair hn hm _ ih => simp [characters?, isLeading, isTrailing, hn, hm, ih]

theorem map_characters?_eq_some_iff {pieces : List Piece} {s : String} :
    (characters? pieces).map String.ofList = some s ↔ Names pieces s.toList := by
  rw [← characters?_eq_some_iff, Option.map_eq_some_iff]
  constructor
  · rintro ⟨cs, hcs, rfl⟩
    rw [String.toList_ofList, hcs]
  · exact fun hs => ⟨s.toList, hs, String.ofList_toList⟩

theorem readString?_eq_some {cs rest : List Char} {text : Option String}
    (h : readString? cs = some (text, rest)) :
    ∃ core, cs = core ++ '"' :: rest ∧ IsString core text := by
  obtain ⟨⟨pieces, rest⟩, hpieces, heq⟩ := Option.map_eq_some_iff.mp h
  cases heq
  obtain ⟨core, rfl, hcore⟩ := readPieces?_eq_some hpieces
  exact ⟨core, rfl, pieces, hcore, fun _ => map_characters?_eq_some_iff⟩

theorem IsString.readString?_append {core : List Char} {text : Option String}
    (h : IsString core text) (rest : List Char) :
    readString? (core ++ '"' :: rest) = some (text, rest) := by
  obtain ⟨pieces, hpieces, htext⟩ := h
  have hcharacters : (characters? pieces).map String.ofList = text := by
    ext s
    rw [map_characters?_eq_some_iff, htext s]
  rw [readString?, hpieces.readPieces?_append, Option.map_some]
  dsimp only
  rw [hcharacters]

end Json
end Calculator
