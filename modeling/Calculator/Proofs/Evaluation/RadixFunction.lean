import Calculator.Builtin
import Calculator.Proofs.Binary64.Truncation

/-!
# The functions that show integers

Four functions turn a double into an integer that is shown in a radix.  Three of them drop the
fraction first; the decimal one goes through the check that the factorial uses, and so admits
only doubles that have no fraction.  All four want a magnitude below `2 ^ 63`, strictly, so the
smallest 64-bit integer is out of reach although it is a double.
-/

namespace Calculator
namespace Builtin

open Binary64 (exactValue truncation)

/-- The functions that drop the fraction of their argument, with their radices. -/
def truncating : List (String × Nat) :=
  [("bin", 2), ("hex", 16), ("oct", 8)]

/-- A finite double that a 64-bit integer can take up. -/
def IsShort (v : Float) : Prop :=
  v.isFinite = true ∧ |exactValue v| < 2 ^ 63

instance (v : Float) : Decidable (IsShort v) :=
  inferInstanceAs (Decidable (_ ∧ _))

theorem natAbs_lt_iff_isShort {v : Float} (h : v.isFinite = true) :
    (truncation (exactValue v)).natAbs < Nat.pow 2 63 ↔ IsShort v := by
  rw [Binary64.natAbs_truncation_lt_iff, IsShort, and_iff_right h]
  norm_num

theorem truncatedInRadix_eq (name : String) (radix : Nat) (v : Float) :
    truncatedInRadix name radix v =
      if IsShort v then .ok (.integer (truncation (exactValue v)) radix)
      else .error (.domain name) := by
  rw [truncatedInRadix]
  by_cases h : v.isFinite = true
  · rw [Binary64.truncate?_of_isFinite h]
    simp only [natAbs_lt_iff_isShort h]
  · rw [Binary64.truncate?_eq_none h, if_neg fun hshort => h hshort.1]

/-- The check for whole numbers admits those of 64 bits, without the smallest. -/
theorem integral_eq (name : String) (v : Float) :
    integral name v =
      if IsShort v ∧ (truncation (exactValue v) : ℚ) = exactValue v then
        .ok (truncation (exactValue v))
      else .error (.domain name) := by
  rw [integral]
  by_cases h : v.isFinite = true
  · rw [Binary64.whole?_of_isFinite h]
    by_cases hwhole : (truncation (exactValue v) : ℚ) = exactValue v
    · rw [if_pos hwhole]
      simp only [natAbs_lt_iff_isShort h, hwhole, and_true]
    · rw [if_neg hwhole, if_neg fun hboth => hwhole hboth.2]
  · rw [Binary64.whole?_eq_none h, if_neg fun hboth => h hboth.1.1]

variable [Elementary]

/-- What `bin`, `hex`, `oct` and `dec` make of a double.  Below `2 ^ 63` the first three give
its integer part in their radix; `dec` gives it where the double is whole.  Everything else is
outside their domain. -/
theorem radix_functions (v : Float) :
    (∀ entry ∈ truncating, ∃ b, find? entry.1 = some b ∧
      b.call entry.1 [v] =
        if v.isFinite = true ∧ |exactValue v| < 2 ^ 63 then
          .ok (.integer (truncation (exactValue v)) entry.2)
        else .error (.domain entry.1)) ∧
    ∃ b, find? "dec" = some b ∧
      b.call "dec" [v] =
        if (v.isFinite = true ∧ |exactValue v| < 2 ^ 63) ∧
            (truncation (exactValue v) : ℚ) = exactValue v then
          .ok (.integer (truncation (exactValue v)) 10)
        else .error (.domain "dec") := by
  refine ⟨?_, _, rfl, ?_⟩
  · simp only [truncating, List.forall_mem_cons]
    exact ⟨⟨_, rfl, truncatedInRadix_eq "bin" 2 v⟩, ⟨_, rfl, truncatedInRadix_eq "hex" 16 v⟩,
      ⟨_, rfl, truncatedInRadix_eq "oct" 8 v⟩, fun _ h => (List.not_mem_nil h).elim⟩
  · rw [call, integral_eq]
    unfold IsShort
    split_ifs <;> rfl

/-! ## A double with a fraction -/

omit [Elementary] in
theorem two_and_a_half :
    (Float.ofBits 0x4004000000000000).isFinite = true ∧
      exactValue (.ofBits 0x4004000000000000) = 5 / 2 ∧ truncation (5 / 2) = 2 := by
  have hmagnitude : Binary64.magnitude? (.ofBits 0x4004000000000000) =
      some ⟨5629499534213120, -51⟩ := by
    decide +kernel
  have hsign : Binary64.isNegative (.ofBits 0x4004000000000000) = false := by
    decide +kernel
  refine ⟨Binary64.isFinite_of_magnitude? hmagnitude, ?_, ?_⟩
  · rw [exactValue, hmagnitude, hsign]
    norm_num [Binary64.Scaled.value]
  · norm_num [truncation]

omit [Elementary] in
/-- Of two and a half, `bin` takes the integer part and `dec` nothing. -/
theorem radix_functions_two_and_a_half :
    let _ := Elementary.machine
    ("bin", 2) ∈ truncating ∧
      (∃ b, find? "bin" = some b ∧
        b.call "bin" [.ofBits 0x4004000000000000] = .ok (.integer 2 2)) ∧
      ∃ b, find? "dec" = some b ∧
        b.call "dec" [.ofBits 0x4004000000000000] = .error (.domain "dec") := by
  intro _
  obtain ⟨hfinite, hvalue, htruncation⟩ := two_and_a_half
  have hbin : ("bin", 2) ∈ truncating := by decide
  obtain ⟨hfunctions, b, hb, hdec⟩ := radix_functions (.ofBits 0x4004000000000000)
  obtain ⟨c, hc, hcall⟩ := hfunctions _ hbin
  rw [hvalue, htruncation] at hcall hdec
  rw [if_pos ⟨hfinite, by norm_num [abs_of_pos]⟩] at hcall
  rw [if_neg (by norm_num)] at hdec
  exact ⟨hbin, ⟨c, hc, hcall⟩, b, hb, hdec⟩

omit [Elementary] in
theorem not_forall_dec_truncates :
    let _ := Elementary.machine
    ¬ ∀ (b : Builtin) (v : Float), find? "dec" = some b → v.isFinite = true →
      |exactValue v| < 2 ^ 63 →
        b.call "dec" [v] = .ok (.integer (truncation (exactValue v)) 10) := by
  intro _ hall
  obtain ⟨hfinite, hvalue, -⟩ := two_and_a_half
  have hdec := hall _ (.ofBits 0x4004000000000000) rfl hfinite
    (by rw [hvalue]; norm_num [abs_of_pos])
  rw [call, integral_eq, if_neg (by rw [hvalue]; norm_num [truncation])] at hdec
  cases hdec

end Builtin
end Calculator
