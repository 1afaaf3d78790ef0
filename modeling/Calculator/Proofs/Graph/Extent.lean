import Calculator.Graph.Interpolation
import Mathlib.Algebra.Order.Ring.Rat

/-!
# The extent of some values

The values are compared as numbers, whatever they are made of: the least and the greatest of
them are among them, and every other one lies in between.
-/

namespace Calculator
namespace Graph

section Extent

variable {α : Type} [LE α] [DecidableLE α] {values : List α} {key : α → ℚ}

/-- Among the values, the order is that of the numbers they stand for. -/
def OrderedBy (key : α → ℚ) (values : List α) : Prop :=
  ∀ a ∈ values, ∀ b ∈ values, a ≤ b ↔ key a ≤ key b

/-- The range after one more value. -/
def widened (range : α × α) (y : α) : α × α :=
  (if range.1 ≤ y then range.1 else y, if y ≤ range.2 then range.2 else y)

/-- The ends of the range are among the values. -/
structure IsWithin (values : List α) (range : α × α) : Prop where
  low : range.1 ∈ values
  high : range.2 ∈ values

/-- One more value widens the range so far that it is inside. -/
theorem widened_spec (hkey : OrderedBy key values) {range : α × α} {y : α}
    (hrange : IsWithin values range) (hy : y ∈ values) :
    IsWithin values (widened range y) ∧
      (key (widened range y).1 ≤ key range.1 ∧ key (widened range y).1 ≤ key y) ∧
      key range.2 ≤ key (widened range y).2 ∧ key y ≤ key (widened range y).2 := by
  have hlow := hkey range.1 hrange.low y hy
  have hhigh := hkey y hy range.2 hrange.high
  by_cases hbelow : range.1 ≤ y
  · have hless := hlow.mp hbelow
    by_cases habove : y ≤ range.2
    · have hmore := hhigh.mp habove
      simp only [widened, if_pos hbelow, if_pos habove]
      exact ⟨hrange, ⟨le_rfl, hless⟩, le_rfl, hmore⟩
    · have hmore := le_of_not_ge (mt hhigh.mpr habove)
      simp only [widened, if_pos hbelow, if_neg habove]
      exact ⟨⟨hrange.low, hy⟩, ⟨le_rfl, hless⟩, hmore, le_rfl⟩
  · have hless := le_of_not_ge (mt hlow.mpr hbelow)
    by_cases habove : y ≤ range.2
    · have hmore := hhigh.mp habove
      simp only [widened, if_neg hbelow, if_pos habove]
      exact ⟨⟨hy, hrange.high⟩, ⟨hless, le_rfl⟩, le_rfl, hmore⟩
    · have hmore := le_of_not_ge (mt hhigh.mpr habove)
      simp only [widened, if_neg hbelow, if_neg habove]
      exact ⟨⟨hy, hy⟩, ⟨hless, le_rfl⟩, hmore, le_rfl⟩

/-- After some values the range has reached all of them and lost nothing. -/
theorem foldl_widened_spec (hkey : OrderedBy key values) {ys : List α} {range : α × α}
    (hrange : IsWithin values range) (hys : ∀ y ∈ ys, y ∈ values) :
    IsWithin values (ys.foldl widened range) ∧
      key (ys.foldl widened range).1 ≤ key range.1 ∧
      key range.2 ≤ key (ys.foldl widened range).2 ∧
      ∀ y ∈ ys, key (ys.foldl widened range).1 ≤ key y ∧
        key y ≤ key (ys.foldl widened range).2 := by
  induction ys generalizing range with
  | nil => exact ⟨hrange, le_rfl, le_rfl, by simp⟩
  | cons y ys ih =>
      obtain ⟨hy, hys⟩ := List.forall_mem_cons.mp hys
      obtain ⟨hwithin, ⟨hlow, hlowY⟩, hhigh, hhighY⟩ := widened_spec hkey hrange hy
      obtain ⟨hend, hlow', hhigh', hrest⟩ := ih hwithin hys
      rw [List.foldl_cons]
      refine ⟨hend, hlow'.trans hlow, hhigh.trans hhigh', ?_⟩
      intro z hz
      rcases List.mem_cons.mp hz with rfl | hz
      · exact ⟨hlow'.trans hlowY, hhighY.trans hhigh'⟩
      · exact hrest z hz

/-- The extent reaches from one of the values to one of them, and all lie in between. -/
theorem exists_extent (hkey : OrderedBy key values) (hne : values ≠ []) :
    ∃ low ∈ values, ∃ high ∈ values, extent values = some (low, high) ∧
      ∀ y ∈ values, key low ≤ key y ∧ key y ≤ key high := by
  obtain ⟨y, ys, rfl⟩ := List.exists_cons_of_ne_nil hne
  have hrange : IsWithin (y :: ys) (y, y) := ⟨List.mem_cons_self, List.mem_cons_self⟩
  obtain ⟨hend, hlow, hhigh, hrest⟩ :=
    foldl_widened_spec hkey hrange fun z hz => List.mem_cons_of_mem y hz
  refine ⟨_, hend.low, _, hend.high, rfl, ?_⟩
  intro z hz
  rcases List.mem_cons.mp hz with rfl | hz
  · exact ⟨hlow, hhigh⟩
  · exact hrest z hz

theorem extent_eq_none_iff : extent values = none ↔ values = [] := by
  cases values with
  | nil => simp [extent]
  | cons y ys => simp [extent]

end Extent

end Graph
end Calculator
