import Calculator.Text.Cluster

/-!
# Lines as they are typed

A line from a plain stream may hold backspaces, each of which takes back the
grapheme cluster in front of it.

The width of a cluster is remembered in a single byte.  Of a cluster of 256 bytes
or more a backspace therefore takes back only what exceeds a multiple of 256
bytes; where that would cut a character in two, the line cannot be read.
-/

namespace Calculator
namespace Text

def backspace : Char := '\x08'

/-- The number of bytes that a text takes up. -/
def byteWidth (cs : List Char) : Nat :=
  cs.foldr (fun c bytes => c.utf8Size + bytes) 0

/-- The part of a line that has been typed. -/
structure Typed where
  /-- Its characters, the last one in front. -/
  backwards : List Char
  /-- The remembered widths of its clusters, the last one in front. -/
  widths : List Nat

/-- Drops characters that take up the given number of bytes, unless one would be
cut in two. -/
def dropBytes? : (bytes : Nat) → List Char → Option (List Char)
  | 0, cs => some cs
  | _ + 1, [] => none
  | bytes + 1, c :: cs =>
    if c.utf8Size ≤ bytes + 1 then dropBytes? (bytes + 1 - c.utf8Size) cs else none

namespace Typed

/-- The width of a cluster that is remembered. -/
def rememberedWidth (cluster : List Char) : Nat :=
  byteWidth cluster % 256

def append (t : Typed) (cluster : List Char) : Typed where
  backwards := cluster.reverse ++ t.backwards
  widths := rememberedWidth cluster :: t.widths

/-- Takes back the last cluster, if there is one. -/
def takeBack? (t : Typed) : Option Typed :=
  match t.widths with
  | [] => some t
  | width :: widths => (dropBytes? width t.backwards).map fun rest => ⟨rest, widths⟩

/-- Types a cluster, or takes back the last one. -/
def type? (t : Typed) (cluster : List Char) : Option Typed :=
  if cluster = [backspace] then t.takeBack? else some (t.append cluster)

end Typed

/-- The line that is left when all backspaces have been applied. -/
def typedLine? (cs : List Char) : Option (List Char) :=
  ((clusters cs).foldlM Typed.type? ⟨[], []⟩).map fun t => t.backwards.reverse

/-- A line without backspaces is left as it is. -/
theorem typedLine?_of_not_mem
    {cs : List Char} (h : backspace ∉ cs) :
    typedLine? cs = some cs := by
  have hfold : ∀ (groups : List (List Char)) (t : Typed), backspace ∉ groups.flatten →
      ∃ widths, groups.foldlM Typed.type? t =
        some ⟨groups.flatten.reverse ++ t.backwards, widths⟩ := by
    intro groups
    induction groups with
    | nil => exact fun t _ => ⟨t.widths, rfl⟩
    | cons cluster groups ih =>
      intro t hnot
      rw [List.flatten_cons, List.mem_append, not_or] at hnot
      have hcluster : cluster ≠ [backspace] := by
        rintro rfl
        exact hnot.1 (List.mem_singleton.mpr rfl)
      obtain ⟨widths, hrest⟩ := ih (t.append cluster) hnot.2
      refine ⟨widths, ?_⟩
      simp only [List.foldlM_cons, Typed.type?, if_neg hcluster]
      simpa [Typed.append] using hrest
  obtain ⟨widths, hline⟩ := hfold (clusters cs) ⟨[], []⟩ (by rwa [flatten_clusters])
  simp [typedLine?, hline, flatten_clusters]

end Text

/-- What makes lines of what is typed.  Not everything that is typed need be a line. -/
class LineEditor where
  line? : (typed : List Char) → Option (List Char)

/-- Backspaces are applied unless there is another choice. -/
instance (priority := low) LineEditor.backspaces : LineEditor where
  line? := Text.typedLine?

end Calculator
