/-!
# Curves through samples

A curve is drawn through samples by straight lines between neighbours; outside
the samples it keeps the first or the last value.  The definitions hold for any
arithmetic, so that what is exact over the rationals can be told apart from what
rounding adds.
-/

namespace Calculator
namespace Graph

/-- The last position reached by halving a stretch of `size` positions from
`base` on, moving to the upper half as long as `below` holds there. -/
def narrow (below : Nat → Bool) (base size : Nat) : Nat :=
  if size ≤ 1 then base
  else
    let half := size / 2
    narrow below (if below (base + half) then base + half else base) (size - half)
termination_by size
decreasing_by omega

/-- The number of positions below `size` at which `below` holds, provided that
it holds on a stretch from zero on and nowhere else. -/
def partitionPoint (below : Nat → Bool) (size : Nat) : Nat :=
  if size = 0 then 0
  else
    let last := narrow below 0 size
    if below last then last + 1 else last

section

variable {α : Type}
variable [Add α] [Sub α] [Mul α] [Div α] [LE α] [DecidableLE α]

/-- The curve through the samples at `x`.  Without samples it is `fallback`. -/
def interpolate (fallback : α) (xs ys : List α) (x : α) : α :=
  let i := partitionPoint (fun k => xs.getD k fallback ≤ x) xs.length
  if i = 0 then ys.head?.getD fallback
  else if xs.length ≤ i then ys.getLast?.getD fallback
  else
    let x0 := xs.getD (i - 1) fallback
    let x1 := xs.getD i fallback
    let y0 := ys.getD (i - 1) fallback
    let y1 := ys.getD i fallback
    y0 + (y1 - y0) * (x - x0) / (x1 - x0)

/-- The range that reaches from the least to the greatest of the values. -/
def extent : List α → Option (α × α)
  | [] => none
  | y :: ys =>
    some (ys.foldl
      (fun (low, high) y => (if low ≤ y then low else y, if y ≤ high then high else y))
      (y, y))

/-- The range of values of a graph: the extent of the finite samples, widened by
one on both sides where they are all equal. -/
def bounds [BEq α] [OfNat α 1] (isFinite : α → Bool) (ys : List α) : Option (α × α) :=
  (extent (ys.filter isFinite)).map fun (low, high) =>
    if low == high then (low - 1, high + 1) else (low, high)

end

end Graph
end Calculator
