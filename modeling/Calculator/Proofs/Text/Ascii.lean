/-!
# Characters of ASCII

The digits and the letters with a case are in ASCII.  What is said of all characters comes apart
into those of ASCII, which can be gone through, and all others, which are no digits and are left
alone by changes of case.
-/

namespace Calculator
namespace Text

/-- The characters of ASCII can be gone through. -/
theorem forall_ascii {P : Char → Prop} (h : ∀ n < 128, P (Char.ofNat n)) :
    ∀ c : Char, c.toNat < 128 → P c := by
  intro c hc
  have hn := h c.toNat hc
  rwa [Char.ofNat_toNat] at hn

section Beyond

variable {c : Char} (h : 128 ≤ c.toNat)

include h

theorem not_le_of_not_ascii {d : Char} (hd : d.toNat < 128) : ¬ c ≤ d := by
  intro hle
  have hle : c.toNat ≤ d.toNat := hle
  omega

theorem isDigit_of_not_ascii : c.isDigit = false := by
  rw [← Bool.not_eq_true]
  intro hdigit
  simp only [Char.isDigit, Bool.and_eq_true, decide_eq_true_eq] at hdigit
  exact not_le_of_not_ascii h (d := '9') (by decide) hdigit.2

theorem toLower_of_not_ascii : c.toLower = c :=
  dif_neg fun hupper => not_le_of_not_ascii h (d := 'Z') (by decide) hupper.2

theorem toUpper_of_not_ascii : c.toUpper = c :=
  dif_neg fun hlower => not_le_of_not_ascii h (d := 'z') (by decide) hlower.2

end Beyond

end Text
end Calculator
