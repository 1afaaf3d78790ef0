import Calculator.Conversion.Unit
import Calculator.Proofs.Conversion.Form

/-!
# The units of the registry

Every registered key reads `<from> to <to>` in one way only, with units that a
conversion line admits.  No pair of them could be taken for two currencies, and no
unit breaks off behind an operator or an open parenthesis.
-/

namespace Calculator
namespace Conversion

instance (v : Vocabulary) (code : List Char) : Decidable (v.Admits code) :=
  decidable_of_iff (code.all v.isCodeChar = true ∧ v.isCode code = true)
    (and_congr_left' List.all_eq_true)

end Conversion

namespace UnitConversion

open Conversion

/-- The signs of units behind which an expression goes on. -/
def openSigns : List Char := ['^', '/', '(']

/-- Two units as the registry pairs them. -/
structure IsPair (source target : List Char) : Prop where
  admits_source : units.Admits source
  admits_target : units.Admits target
  not_currencies : ¬ (currencies.Admits source ∧ currencies.Admits target)
  complete : ∀ c ∈ openSigns, source.getLast? ≠ some c

instance (source target : List Char) : Decidable (IsPair source target) :=
  decidable_of_iff
    (units.Admits source ∧ units.Admits target ∧
      ¬ (currencies.Admits source ∧ currencies.Admits target) ∧
      (openSigns.all fun c => source.getLast? ≠ some c) = true)
    ⟨fun ⟨hsource, htarget, hnot, hcomplete⟩ =>
        ⟨hsource, htarget, hnot, by simpa using hcomplete⟩,
      fun h => ⟨h.admits_source, h.admits_target, h.not_currencies, by simpa using h.complete⟩⟩

/-- The keys of the registry. -/
def keys : List String :=
  registry.map Prod.fst

theorem mem_keys_of_find? {key : String} {u : UnitConversion} (h : find? key = some u) :
    key ∈ keys := by
  rw [find?, List.lookup_eq_some_iff] at h
  obtain ⟨front, back, hregistry, -⟩ := h
  rw [keys, hregistry]
  simp

/-- Wherever ` to ` stands in a key, it has a pair of units around it. -/
theorem isPair_around_to :
    ∀ key ∈ keys, ∀ i ∈ List.range key.toList.length,
      (key.toList.drop i).take 4 = " to ".toList →
        IsPair (key.toList.take i) (key.toList.drop (i + 4)) := by
  decide +kernel

theorem isPair_of_find? {source target : String} {u : UnitConversion}
    (h : find? (source ++ " to " ++ target) = some u) :
    IsPair source.toList target.toList := by
  have hkey := isPair_around_to _ (mem_keys_of_find? h) source.toList.length
  simp only [String.toList_append, List.append_assoc] at hkey
  rw [List.drop_left, List.take_left, ← List.drop_drop, List.drop_left] at hkey
  refine hkey ?_ rfl
  rw [List.mem_range, List.length_append]
  exact Nat.lt_add_of_pos_right (by simp)

end UnitConversion
end Calculator
