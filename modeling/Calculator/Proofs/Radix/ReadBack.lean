import Calculator.Numeral
import Calculator.Proofs.Binary64.Sign
import Calculator.Value

/-!
# Integers read back from their digits

The text of an integer in a radix is a minus sign in front of negative integers, and the
numeral of the magnitude.  A numeral is said here without the writer and without the reader:
digits in lower case below the radix, no needless zero in front, and the value of the places.
Reading accepts every numeral with the sign put in front, the magnitude of the smallest
integer included, which no positive integer has.
-/

namespace Calculator
namespace Radix

/-! ## Numerals -/

/-- The place of a digit among the digits, which is past all of them for other characters. -/
def digitOf (c : Char) : Nat :=
  "0123456789abcdef".toList.idxOf c

/-- The value of digits by their places, behind digits of a given value. -/
def placesValue (radix : Nat) (digits : List Char) (front : Nat) : Nat :=
  digits.foldl (fun v c => radix * v + digitOf c) front

/-- The digits of a number in a radix, from the highest place down. -/
structure IsNumeral (radix m : Nat) (digits : List Char) : Prop where
  ne_nil : digits ≠ []
  digit_lt : ∀ c ∈ digits, digitOf c < radix
  value : placesValue radix digits 0 = m
  leading : ∀ rest, digits = '0' :: rest → rest = []

theorem placesValue_append (radix : Nat) (ds es : List Char) (front : Nat) :
    placesValue radix (ds ++ es) front = placesValue radix es (placesValue radix ds front) :=
  List.foldl_append

theorem digitOf_digitChar {d : Nat} (h : d < 16) : digitOf d.digitChar = d := by
  have hall : ∀ d < 16, digitOf d.digitChar = d := by decide +kernel
  exact hall d h

theorem digitValue_eq_digitOf {c : Char} (h : digitOf c < 16) :
    digitValue c = some (digitOf c) := by
  have hall : "0123456789abcdef".toList.all (fun c => digitValue c == some (digitOf c)) = true := by
    decide +kernel
  exact beq_iff_eq.mp (List.all_eq_true.mp hall c (List.idxOf_lt_length_iff.mp h))

/-! ## Writing -/

section Writing

variable {radix : Nat} (hle : radix ≤ 16)

include hle

theorem isNumeral_singleton {d : Nat} (hd : d < radix) : IsNumeral radix d [d.digitChar] where
  ne_nil := List.cons_ne_nil _ _
  digit_lt := by
    rw [List.forall_mem_singleton, digitOf_digitChar (by omega)]
    exact hd
  value := by
    change radix * 0 + digitOf d.digitChar = d
    rw [digitOf_digitChar (by omega), Nat.mul_zero, Nat.zero_add]
  leading := fun _ h => (List.cons.inj h).2.symm

/-- A digit more behind the numeral of a positive number. -/
theorem IsNumeral.snoc {m d : Nat} {digits : List Char} (h : IsNumeral radix m digits)
    (hm : 0 < m) (hd : d < radix) :
    IsNumeral radix (radix * m + d) (digits ++ [d.digitChar]) where
  ne_nil := List.append_ne_nil_of_left_ne_nil h.ne_nil _
  digit_lt := by
    rw [List.forall_mem_append, List.forall_mem_singleton, digitOf_digitChar (by omega)]
    exact ⟨h.digit_lt, hd⟩
  value := by
    rw [placesValue_append, h.value]
    change radix * m + digitOf d.digitChar = _
    rw [digitOf_digitChar (by omega)]
  leading := by
    intro rest hrest
    obtain ⟨c, cs, rfl⟩ := List.exists_cons_of_ne_nil h.ne_nil
    obtain ⟨rfl, -⟩ := List.cons.inj hrest
    -- A zero in front was the whole numeral, and its number was not positive.
    obtain rfl := h.leading cs rfl
    have hzero : radix * 0 + digitOf '0' = m := h.value
    rw [show digitOf '0' = 0 by decide +kernel] at hzero
    omega

theorem isNumeral_toDigits (hradix : 1 < radix) (m : Nat) :
    IsNumeral radix m (Nat.toDigits radix m) := by
  induction m using Nat.strongRecOn with
  | _ m ih =>
      by_cases hm : m < radix
      · rw [Nat.toDigits_of_lt_base hm]
        exact isNumeral_singleton hle hm
      · rw [Nat.toDigits_of_base_le hradix (by omega)]
        have hfront := ih (m / radix) (Nat.div_lt_self (by omega) hradix)
        have hsnoc := hfront.snoc hle (Nat.div_pos (by omega) (by omega))
          (Nat.mod_lt m (by omega))
        rwa [Nat.div_add_mod] at hsnoc

end Writing

/-! ## Reading -/

/-- The numeral of a magnitude with the sign of the integer. -/
def signed (n : Int) (digits : List Char) : List Char :=
  if n < 0 then '-' :: digits else digits

theorem digitsValue?_eq_placesValue {radix : Nat} (hle : radix ≤ 16) {digits : List Char}
    (h : ∀ c ∈ digits, digitOf c < radix) :
    digitsValue? radix digits = some (placesValue radix digits 0) := by
  have hfold : ∀ front, digits.foldlM (fun v c => (digitIn? radix c).map (radix * v + ·)) front =
      some (placesValue radix digits front) := by
    induction digits with
    | nil => exact fun _ => rfl
    | cons c cs ih =>
        intro front
        have hc := h c List.mem_cons_self
        have hdigit : digitIn? radix c = some (digitOf c) := by
          rw [digitIn?, digitValue_eq_digitOf (by omega), Option.filter_some, if_pos (by simpa)]
        rw [List.foldlM_cons, hdigit]
        exact ih (fun d hd => h d (List.mem_cons_of_mem c hd)) (radix * front + digitOf c)
  exact hfold 0

theorem IsNumeral.readNat?_eq {radix m : Nat} (hle : radix ≤ 16) {digits : List Char}
    (h : IsNumeral radix m digits) : readNat? radix digits = some m := by
  rw [readNat?, if_neg (by simpa using h.ne_nil), digitsValue?_eq_placesValue hle h.digit_lt,
    h.value]

theorem read?_signed {radix : Nat} (hle : radix ≤ 16) {n : Int} (hn : InRange n)
    {digits : List Char} (h : IsNumeral radix n.natAbs digits) :
    read? radix (signed n digits) = some n := by
  have hnat := h.readNat?_eq hle
  have hvalue : ∀ k : Int, k = n → (some k).filter (fun k => decide (InRange k)) = some n := by
    rintro k rfl
    rw [Option.filter_some, if_pos (decide_eq_true hn)]
  by_cases hneg : n < 0
  · rw [signed, if_pos hneg, read?, hnat]
    exact hvalue (-(n.natAbs : Int)) (by omega)
  · have hsign : ∀ d, radix ≤ digitOf d → ∀ cs, digits = d :: cs → False := by
      rintro d hd cs rfl
      exact absurd (h.digit_lt d List.mem_cons_self) (by omega)
    rw [signed, if_neg hneg, read?, hnat]
    · exact hvalue (n.natAbs : Int) (by omega)
    · exact hsign '-' (Nat.le_trans hle (by decide +kernel))
    · exact hsign '+' (Nat.le_trans hle (by decide +kernel))

/-! ## Texts of integers -/

/-- The letters that announce a radix behind a zero. -/
def letters : List (Nat × Char) :=
  [(2, 'b'), (2, 'B'), (8, 'o'), (8, 'O'), (16, 'x'), (16, 'X')]

theorem radixOf?_of_mem_letters :
    ∀ entry ∈ letters, Numeral.radixOf? entry.2 = some entry.1 := by
  decide

theorem exists_numeral_text {radix : Nat} (hradix : radix ∈ [2, 8, 10, 16]) (n : Int) :
    ∃ digits, IsNumeral radix n.natAbs digits ∧
      (Value.integer n radix).text = String.ofList (signed n digits) := by
  have hbounds : ∀ r ∈ [2, 8, 10, 16], 1 < r ∧ r ≤ 16 ∧ effective r = r := by decide
  obtain ⟨hone, hle, heffective⟩ := hbounds radix hradix
  refine ⟨Nat.toDigits radix n.natAbs, isNumeral_toDigits hle hone n.natAbs, ?_⟩
  rw [Value.text, write, heffective]
  rfl

theorem text_decimal (n : Int) : (Value.integer n 10).text = toString n := by
  cases n with
  | ofNat m => rfl
  | negSucc m =>
      rw [Value.text, ← String.toList_inj, String.toList_ofList, Int.toString_eq_repr, Int.repr,
        String.toList_append, Nat.toList_repr, write]
      exact if_pos (Int.negSucc_lt_zero m)

theorem abs_lt_overflowBound {n : Int} (hn : InRange n) :
    |(n : ℚ)| < Binary64.overflowBound := by
  have hbound : |n| ≤ 2 ^ 63 := by
    obtain ⟨hlower, hupper⟩ := hn
    rw [Nat.pow_eq, Nat.cast_pow, Nat.cast_ofNat] at hlower hupper
    exact abs_le.mpr ⟨hlower, hupper.le⟩
  calc |(n : ℚ)| = (|n| : ℤ) := Int.cast_abs.symm
    _ ≤ ((2 ^ 63 : ℤ) : ℚ) := Int.cast_le.mpr hbound
    _ = 2 ^ (63 : ℤ) := by norm_num
    _ ≤ 2 ^ (971 : ℤ) := zpow_le_zpow_right₀ one_le_two (by norm_num)
    _ < (2 ^ 53 - 1 / 2) * 2 ^ (971 : ℤ) :=
      lt_mul_of_one_lt_left (zpow_pos two_pos _) (by norm_num)

/-- An integer of 64 bits is shown as a minus sign, in front of negative ones only, and the
numeral of its magnitude, and the text is read back as the integer; behind a prefix of the
radix it is read as its double, the one nearest to it with its sign. -/
theorem text_integer_reads_back {radix : Nat} (hradix : radix ∈ [2, 8, 10, 16]) {n : Int}
    (hn : InRange n) :
    (∃ digits, IsNumeral radix n.natAbs digits ∧
      (Value.integer n radix).text = String.ofList (if n < 0 then '-' :: digits else digits)) ∧
    read? radix (Value.integer n radix).text.toList = some n ∧
    (∀ letter, (radix, letter) ∈ letters →
      Numeral.read? ('0' :: letter :: (Value.integer n radix).text.toList) =
        some (Binary64.ofInt n)) ∧
    (Binary64.IsRounded n (Binary64.ofInt n) ∧
      (Binary64.isNegative (Binary64.ofInt n) = true ↔ n < 0)) ∧
    (Value.integer n 10).text = toString n := by
  obtain ⟨digits, hdigits, htext⟩ := exists_numeral_text hradix n
  have hle : ∀ r ∈ [2, 8, 10, 16], r ≤ 16 := by decide
  have hread : read? radix (Value.integer n radix).text.toList = some n := by
    rw [htext, String.toList_ofList]
    exact read?_signed (hle radix hradix) hn hdigits
  have hsmall := abs_lt_overflowBound hn
  refine ⟨⟨digits, hdigits, htext⟩, hread, fun letter hletter => ?_,
    ⟨Binary64.isRounded_ofInt hsmall, Binary64.isNegative_ofInt hsmall⟩, text_decimal n⟩
  have hannounced := radixOf?_of_mem_letters _ hletter
  rw [Numeral.read?]
  dsimp only at hannounced ⊢
  rw [hannounced]
  dsimp only
  rw [hread]
  rfl

theorem smallest_integer_reads_back :
    InRange (-9223372036854775808) ∧
      (Value.integer (-9223372036854775808) 16).text = "-8000000000000000" ∧
      read? 16 "-8000000000000000".toList = some (-9223372036854775808) ∧
      ∃ v, Numeral.read? "0X-8000000000000000".toList = some v ∧
        Binary64.IsRounded (-9223372036854775808) v ∧ Binary64.isNegative v = true := by
  have hrange : InRange (-9223372036854775808) := by decide
  have htext : (Value.integer (-9223372036854775808) 16).text = "-8000000000000000" := by
    decide +kernel
  have hradix : 16 ∈ [2, 8, 10, 16] := by decide
  obtain ⟨-, hread, hletters, ⟨hrounded, hsign⟩, -⟩ := text_integer_reads_back hradix hrange
  rw [htext] at hread hletters
  rw [Int.cast_neg, Int.cast_ofNat] at hrounded
  exact ⟨hrange, htext, hread, _, hletters 'X' (by decide), hrounded, hsign.mpr (by decide)⟩

end Radix
end Calculator
