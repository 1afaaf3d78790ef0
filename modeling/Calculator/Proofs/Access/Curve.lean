import Calculator.Graph.Interpolation
import Mathlib.Data.List.GetD
import Mathlib.Tactic.SplitIfs

/-!
# Curves by positions

A curve reads its samples by their positions: those that the halving search tries, and those of the
two neighbours of a place.  The search never leaves the list, whatever the comparisons say, so that
this needs no order of the samples: only as many values as places.
-/

namespace Calculator
namespace Access

/-! ## The search -/

/-- Halving, where a position that is tried may be out of range. -/
def narrow? (below : Nat → Option Bool) (base size : Nat) : Option Nat :=
  if size ≤ 1 then some base
  else do
    let half := size / 2
    narrow? below (if ← below (base + half) then base + half else base) (size - half)
termination_by size
decreasing_by omega

def partitionPoint? (below : Nat → Option Bool) (size : Nat) : Option Nat :=
  if size = 0 then some 0
  else do
    let last ← narrow? below 0 size
    some (if ← below last then last + 1 else last)

section Search

variable {below? : Nat → Option Bool} {below : Nat → Bool} {size : Nat}
  (hbelow : ∀ k < size, below? k = some (below k))

include hbelow

/-- Halving a stretch of the list tries positions of the list only, and ends at one. -/
theorem narrow?_eq {base stretch : Nat} (hpos : 0 < stretch) (hinside : base + stretch ≤ size) :
    narrow? below? base stretch = some (Graph.narrow below base stretch) ∧
      Graph.narrow below base stretch < size := by
  induction stretch using Nat.strongRecOn generalizing base with
  | ind stretch ih =>
    rw [narrow?, Graph.narrow]
    split
    · exact ⟨rfl, by omega⟩
    · next hmany =>
        have htried := hbelow (base + stretch / 2) (by omega)
        dsimp only
        rw [htried]
        change narrow? below? (if below (base + stretch / 2) = true then base + stretch / 2
          else base) (stretch - stretch / 2) = _ ∧ _
        refine ih (stretch - stretch / 2) (by omega) (by omega) ?_
        split
        · omega
        · omega

theorem partitionPoint?_eq :
    partitionPoint? below? size = some (Graph.partitionPoint below size) := by
  rw [partitionPoint?, Graph.partitionPoint]
  split
  · rfl
  · next hsize =>
      obtain ⟨hlast, hinside⟩ :=
        narrow?_eq hbelow (Nat.pos_of_ne_zero hsize) (Nat.le_of_eq (Nat.zero_add size))
      rw [hlast]
      change (below? (Graph.narrow below 0 size) >>= _) = _
      rw [hbelow _ hinside]
      rfl

end Search

/-! ## The curve -/

theorem getElem?_eq_getD {α : Type} (fallback : α) {xs : List α} {k : Nat} (h : k < xs.length) :
    xs[k]? = some (xs.getD k fallback) := by
  rw [List.getElem?_eq_getElem h, List.getD_eq_getElem _ _ h]

section Curve

variable {α : Type}
variable [Add α] [Sub α] [Mul α] [Div α] [LE α] [DecidableLE α]

/-- The curve through samples, with every read by its position. -/
def interpolate? (fallback : α) (xs ys : List α) (x : α) : Option α := do
  let i ← partitionPoint? (fun k => xs[k]?.map fun sample => sample ≤ x) xs.length
  if i = 0 then some (ys.head?.getD fallback)
  else if xs.length ≤ i then some (ys.getLast?.getD fallback)
  else do
    let x0 ← xs[i - 1]?
    let x1 ← xs[i]?
    let y0 ← ys[i - 1]?
    let y1 ← ys[i]?
    some (y0 + (y1 - y0) * (x - x0) / (x1 - x0))

/-- With as many values as places every read is in range. -/
theorem interpolate?_eq (fallback : α) {xs ys : List α} (hlength : xs.length = ys.length)
    (x : α) : interpolate? fallback xs ys x = some (Graph.interpolate fallback xs ys x) := by
  have hsearch : ∀ k < xs.length, (xs[k]?.map fun sample => decide (sample ≤ x)) =
      some (decide (xs.getD k fallback ≤ x)) := by
    intro k hk
    rw [getElem?_eq_getD fallback hk, Option.map_some]
  rw [interpolate?, partitionPoint?_eq hsearch, Graph.interpolate]
  generalize Graph.partitionPoint (fun k => decide (xs.getD k fallback ≤ x)) xs.length = i
  change (if i = 0 then _ else _) = _
  dsimp only
  split_ifs with hzero hlast
  · rfl
  · rfl
  · have hx1 : i < xs.length := Nat.lt_of_not_le hlast
    have hx0 : i - 1 < xs.length := Nat.lt_of_le_of_lt (Nat.sub_le i 1) hx1
    have hy1 : i < ys.length := hlength ▸ hx1
    have hy0 : i - 1 < ys.length := hlength ▸ hx0
    rw [getElem?_eq_getD fallback hx0, getElem?_eq_getD fallback hx1,
      getElem?_eq_getD fallback hy0, getElem?_eq_getD fallback hy1]
    rfl

end Curve

end Access
end Calculator
