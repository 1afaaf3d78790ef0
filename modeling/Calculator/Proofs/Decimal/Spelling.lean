import Calculator.Decimal.Reading
import Calculator.Proofs.Text.Splitting

/-!
# How decimals are spelled

The unsigned literals in digits, as a relation between a text and the decimal that it spells:
digits with a point among them or none, and then perhaps an exponent.  Reading accepts these
texts and no others.
-/

namespace Calculator
namespace Decimal

/-- The text is an exponent part, or is empty, and stands for the exponent. -/
inductive IsExponent : List Char → Int → Prop where
  | missing : IsExponent [] 0
  | positive {mark : Char} {sign digits : List Char} (hmark : mark = 'e' ∨ mark = 'E')
      (hsign : sign = [] ∨ sign = ['+']) (hne : digits ≠ [])
      (hdigits : ∀ c ∈ digits, c.isDigit = true) :
      IsExponent (mark :: (sign ++ digits)) (digitsValue digits)
  | negative {mark : Char} {digits : List Char} (hmark : mark = 'e' ∨ mark = 'E')
      (hne : digits ≠ []) (hdigits : ∀ c ∈ digits, c.isDigit = true) :
      IsExponent (mark :: '-' :: digits) (-(digitsValue digits : Int))

/-- The text is a literal without a sign, and stands for the decimal.  There has to be a digit,
on whichever side of the point. -/
inductive Spells : List Char → Decimal → Prop where
  | digits {whole exponent : List Char} {e : Int} (hne : whole ≠ [])
      (hwhole : ∀ c ∈ whole, c.isDigit = true) (hexponent : IsExponent exponent e) :
      Spells (whole ++ exponent) ⟨digitsValue whole, e⟩
  | point {whole fraction exponent : List Char} {e : Int} (hne : whole ++ fraction ≠ [])
      (hwhole : ∀ c ∈ whole, c.isDigit = true) (hfraction : ∀ c ∈ fraction, c.isDigit = true)
      (hexponent : IsExponent exponent e) :
      Spells (whole ++ '.' :: (fraction ++ exponent))
        ⟨digitsValue (whole ++ fraction), e - fraction.length⟩

/-! ## Exponents -/

section Exponent

variable {mark : Char} {digits : List Char} (hmark : mark = 'e' ∨ mark = 'E') (hne : digits ≠ [])
  (hdigits : ∀ c ∈ digits, c.isDigit = true)

include hmark hne hdigits

theorem IsExponent.unsigned : IsExponent (mark :: digits) (digitsValue digits) :=
  @positive _ [] _ hmark (.inl rfl) hne hdigits

theorem IsExponent.plus : IsExponent (mark :: '+' :: digits) (digitsValue digits) :=
  @positive _ ['+'] _ hmark (.inr rfl) hne hdigits

end Exponent

theorem IsExponent.mark_of_head? {cs : List Char} {e : Int} (h : IsExponent cs e) {c : Char}
    (hc : cs.head? = some c) : c = 'e' ∨ c = 'E' := by
  cases h with
  | missing => cases hc
  | positive hmark => exact Option.some.inj hc ▸ hmark
  | negative hmark => exact Option.some.inj hc ▸ hmark

theorem IsExponent.isDigit_of_head? {cs : List Char} {e : Int} (h : IsExponent cs e) {c : Char}
    (hc : cs.head? = some c) : c.isDigit = false := by
  rcases h.mark_of_head? hc with rfl | rfl <;> rfl

theorem IsExponent.point_not_mem {cs : List Char} {e : Int} (h : IsExponent cs e) :
    '.' ∉ cs := by
  have hdigit : ∀ {digits : List Char}, (∀ c ∈ digits, c.isDigit = true) → '.' ∉ digits :=
    fun hdigits hmem => absurd (hdigits '.' hmem) (by decide)
  cases h with
  | missing => exact List.not_mem_nil
  | positive hmark hsign _ hdigits =>
      rcases hmark with rfl | rfl <;> rcases hsign with rfl | rfl <;> simp [hdigit hdigits]
  | negative hmark _ hdigits => rcases hmark with rfl | rfl <;> simp [hdigit hdigits]

theorem isExponent_of_readExponent? {cs : List Char} {e : Int} (h : readExponent? cs = some e) :
    IsExponent cs e := by
  unfold readExponent? at h
  split at h
  · cases h
    exact .missing
  · split at h
    · rename_i mark cs hmark
      have hmark : mark = 'e' ∨ mark = 'E' := by simpa using hmark
      split at h
      rename_i negative digits hsign
      split at h
      · rename_i hdigits
        obtain ⟨hne, hall⟩ := hdigits
        rw [List.all_eq_true] at hall
        split at hsign
        · cases hsign
          cases h
          exact .negative hmark hne hall
        · cases hsign
          cases h
          exact .plus hmark hne hall
        · cases hsign
          cases h
          exact .unsigned hmark hne hall
      · cases h
    · cases h

theorem IsExponent.readExponent?_eq {cs : List Char} {e : Int} (h : IsExponent cs e) :
    readExponent? cs = some e := by
  have htest : ∀ {mark : Char}, mark = 'e' ∨ mark = 'E' →
      (decide (mark = 'e') || decide (mark = 'E')) = true := by simp
  cases h with
  | missing => rfl
  | @positive mark sign digits hmark hsign hne hdigits =>
      have hread : digits ≠ [] ∧ digits.all Char.isDigit = true :=
        ⟨hne, List.all_eq_true.mpr hdigits⟩
      have hnosign : ∀ {c : Char} {cs : List Char}, digits = c :: cs → c ≠ '-' ∧ c ≠ '+' := by
        rintro c cs rfl
        constructor <;> rintro rfl <;> exact absurd (hdigits _ List.mem_cons_self) (by decide)
      rcases hsign with rfl | rfl
      · rw [List.nil_append, readExponent?, if_pos (htest hmark), if_pos hread,
          if_neg Bool.false_ne_true]
        · exact fun _ heq => (hnosign heq).1 rfl
        · exact fun _ heq => (hnosign heq).2 rfl
      · change readExponent? (mark :: '+' :: digits) = _
        rw [readExponent?, if_pos (htest hmark)]
        exact if_pos hread
  | negative hmark hne hdigits =>
      rw [readExponent?, if_pos (htest hmark)]
      exact if_pos ⟨hne, List.all_eq_true.mpr hdigits⟩

/-! ## Literals -/

theorem spells_of_readUnsigned? {cs : List Char} {d : Decimal} (h : readUnsigned? cs = some d) :
    Spells cs d := by
  have hdigits : ∀ ds : List Char, ∀ c ∈ ds.takeWhile Char.isDigit, c.isDigit = true :=
    fun _ => List.all_eq_true.mp List.all_takeWhile
  have hcs : cs.takeWhile Char.isDigit ++ cs.dropWhile Char.isDigit = cs :=
    List.takeWhile_append_dropWhile
  unfold readUnsigned? at h
  split at h
  rename_i fraction rest hsplit
  dsimp only at h
  split at h
  · cases h
  · rename_i hne
    obtain ⟨e, he, rfl⟩ := Option.map_eq_some_iff.mp h
    have hexponent := isExponent_of_readExponent? he
    split at hsplit
    · rename_i behind hbehind
      cases hsplit
      have hspells := Spells.point (by simpa using hne) (hdigits cs) (hdigits behind) hexponent
      rwa [List.takeWhile_append_dropWhile, ← hbehind, hcs] at hspells
    · cases hsplit
      have hspells := Spells.digits (by simpa using hne) (hdigits cs) hexponent
      rw [hcs] at hspells
      simpa using hspells

theorem Spells.readUnsigned?_eq {cs : List Char} {d : Decimal} (h : Spells cs d) :
    readUnsigned? cs = some d := by
  cases h with
  | @digits whole exponent e hne hwhole hexponent =>
      have hends : ∀ c, exponent.head? = some c → c.isDigit = false :=
        fun c => hexponent.isDigit_of_head?
      rw [readUnsigned?, Text.takeWhile_append_of_head? hwhole hends,
        Text.dropWhile_append_of_head? hwhole hends]
      split
      next fraction rest heq =>
        split at heq
        case h_1 cs =>
          exact absurd (hexponent.mark_of_head? rfl) (by decide)
        case h_2 =>
          cases heq
          rw [if_neg fun hnil => hne hnil.1, hexponent.readExponent?_eq]
          simp
  | @point whole fraction exponent e hne hwhole hfraction hexponent =>
      have hpoint : ∀ c, ('.' :: (fraction ++ exponent)).head? = some c → c.isDigit = false := by
        intro c hc
        obtain rfl := Option.some.inj hc
        rfl
      have hends : ∀ c, exponent.head? = some c → c.isDigit = false :=
        fun c => hexponent.isDigit_of_head?
      rw [readUnsigned?, Text.takeWhile_append_of_head? hwhole hpoint,
        Text.dropWhile_append_of_head? hwhole hpoint]
      split
      next _ _ heq =>
        split at heq
        case h_1 cs hcs =>
          obtain ⟨-, rfl⟩ := List.cons.inj hcs
          cases heq
          rw [Text.takeWhile_append_of_head? hfraction hends,
            Text.dropWhile_append_of_head? hfraction hends, if_neg (by simpa using hne),
            hexponent.readExponent?_eq]
          rfl
        case h_2 hcs => exact absurd rfl (hcs _)

/-- A literal has one point at most. -/
theorem Spells.count_le {cs : List Char} {d : Decimal} (h : Spells cs d) : cs.count '.' ≤ 1 := by
  have hdigit : ∀ {digits : List Char}, (∀ c ∈ digits, c.isDigit = true) → digits.count '.' = 0 :=
    fun hdigits => List.count_eq_zero.mpr fun hmem => absurd (hdigits '.' hmem) (by decide)
  cases h with
  | digits _ hwhole hexponent =>
      rw [List.count_append, hdigit hwhole, List.count_eq_zero.mpr hexponent.point_not_mem]
      exact Nat.zero_le 1
  | point _ hwhole hfraction hexponent =>
      rw [List.count_append, List.count_cons_self, List.count_append, hdigit hwhole,
        hdigit hfraction, List.count_eq_zero.mpr hexponent.point_not_mem]

end Decimal
end Calculator
