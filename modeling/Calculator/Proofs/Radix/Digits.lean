import Calculator.Proofs.Radix.ReadBack
import Calculator.Proofs.Text.Ascii

/-!
# Digits in either case

Reading an integer takes letters for digits in either case, so a digit counts by the place of
its lower-case form.  A text without a sign is read when it has a digit, all its characters are
digits of the radix, and its value fits.
-/

namespace Calculator
namespace Radix

open Text (not_le_of_not_ascii)

section Beyond

variable {c : Char} (h : 128 ≤ c.toNat)

include h

/-- Characters beyond ASCII are no digits, in whatever radix. -/
theorem digitValue_of_not_ascii : digitValue c = none := by
  rw [digitValue, Text.isDigit_of_not_ascii h, if_neg Bool.false_ne_true,
    if_neg fun hletter => not_le_of_not_ascii h (by decide) hletter.2,
    if_neg fun hletter => not_le_of_not_ascii h (by decide) hletter.2]

theorem digitOf_toLower_of_not_ascii : digitOf c.toLower = 16 := by
  have hall : "0123456789abcdef".toList.all (·.toNat < 128) = true := by decide +kernel
  rw [Text.toLower_of_not_ascii h]
  refine List.idxOf_of_notMem fun hmem => ?_
  have hlt : c.toNat < 128 := of_decide_eq_true (List.all_eq_true.mp hall c hmem)
  omega

end Beyond

/-- In ASCII, the characters of value below sixteen are the digits of all radices. -/
theorem digitValue_of_ascii : ∀ c : Char, c.toNat < 128 →
    digitOf c.toLower < 16 ∧ digitValue c = some (digitOf c.toLower) ∨
      digitOf c.toLower = 16 ∧ ∀ d ∈ digitValue c, 16 ≤ d :=
  Text.forall_ascii (by decide +kernel)

/-- A digit counts by the place of its lower-case form. -/
theorem digitIn?_eq {radix : Nat} (hle : radix ≤ 16) (c : Char) :
    digitIn? radix c =
      if digitOf c.toLower < radix then some (digitOf c.toLower) else none := by
  rw [digitIn?]
  by_cases hascii : c.toNat < 128
  · rcases digitValue_of_ascii c hascii with ⟨-, hvalue⟩ | ⟨hnone, hgreat⟩
    · rw [hvalue, Option.filter_some]
      simp
    · rw [hnone, if_neg (by omega), Option.filter_eq_none_iff]
      intro d hd
      have hgreat := hgreat d hd
      simp
      omega
  · rw [digitValue_of_not_ascii (by omega), digitOf_toLower_of_not_ascii (by omega),
      if_neg (by omega)]
    rfl

theorem digitsValue?_eq_some_iff {radix : Nat} (hle : radix ≤ 16) {digits : List Char} {m : Nat} :
    digitsValue? radix digits = some m ↔
      (∀ c ∈ digits, digitOf c.toLower < radix) ∧
        placesValue radix (digits.map Char.toLower) 0 = m := by
  have hfold : ∀ front, digits.foldlM (fun v c => (digitIn? radix c).map (radix * v + ·)) front =
        some m ↔
      (∀ c ∈ digits, digitOf c.toLower < radix) ∧
        placesValue radix (digits.map Char.toLower) front = m := by
    induction digits with
    | nil =>
        intro front
        simp [placesValue]
    | cons c cs ih =>
        intro front
        rw [List.foldlM_cons, digitIn?_eq hle, List.forall_mem_cons, List.map_cons, placesValue,
          List.foldl_cons]
        by_cases hc : digitOf c.toLower < radix
        · rw [if_pos hc, and_iff_right hc]
          exact ih _
        · rw [if_neg hc]
          simp [hc]
  exact hfold 0

/-- A text without a sign is read exactly when it has a digit, it has digits of the radix only
and their value is one of a 64-bit integer. -/
theorem read?_eq_some_iff {radix : Nat} (hle : radix ≤ 16) {digits : List Char}
    (hsign : ∀ c, digits.head? = some c → c ≠ '-' ∧ c ≠ '+') {n : Int} :
    read? radix digits = some n ↔
      digits ≠ [] ∧ (∀ c ∈ digits, digitOf c.toLower < radix) ∧
        placesValue radix (digits.map Char.toLower) 0 ≤ Nat.pow 2 63 - 1 ∧
        n = placesValue radix (digits.map Char.toLower) 0 := by
  have hread : read? radix digits =
      ((readNat? radix digits).map Int.ofNat).filter fun n => decide (InRange n) := by
    unfold read?
    split
    · exact absurd rfl (hsign _ rfl).1
    · exact absurd rfl (hsign _ rfl).2
    · rfl
  have hrange : ∀ m : Nat, InRange m ↔ m ≤ Nat.pow 2 63 - 1 := by
    intro m
    have hpow : Nat.pow 2 63 = 9223372036854775808 := rfl
    rw [InRange, hpow]
    omega
  rw [hread, Option.filter_eq_some_iff, Option.map_eq_some_iff, decide_eq_true_eq, readNat?]
  constructor
  · rintro ⟨⟨m, hm, rfl⟩, hfits⟩
    split at hm
    · cases hm
    · next hne =>
        obtain ⟨hdigits, rfl⟩ := (digitsValue?_eq_some_iff hle).mp hm
        exact ⟨by simpa using hne, hdigits, (hrange _).mp hfits, rfl⟩
  · rintro ⟨hne, hdigits, hfits, rfl⟩
    refine ⟨⟨_, ?_, rfl⟩, (hrange _).mpr hfits⟩
    rw [if_neg (by simpa using hne)]
    exact (digitsValue?_eq_some_iff hle).mpr ⟨hdigits, rfl⟩

end Radix
end Calculator
