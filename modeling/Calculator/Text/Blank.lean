/-!
# Blanks, trimming and words

A blank is a character with the Unicode property White_Space.  Everything that
reads lines agrees on this one class: trimming, splitting into words, the gaps
between tokens and the gaps inside conversion lines.
-/

namespace Calculator
namespace Text

/-- The characters with the Unicode property White_Space. -/
def isBlank (c : Char) : Bool :=
  let n := c.toNat
  (9 ≤ n && n ≤ 13) || n == 0x20 || n == 0x85 || n == 0xA0 || n == 0x1680 ||
    (0x2000 ≤ n && n ≤ 0x200A) || n == 0x2028 || n == 0x2029 || n == 0x202F ||
    n == 0x205F || n == 0x3000

/-- Drops the blanks at the front. -/
def trimStart (cs : List Char) : List Char :=
  cs.dropWhile isBlank

/-- Drops the blanks at the back. -/
def trimEnd (cs : List Char) : List Char :=
  (cs.reverse.dropWhile isBlank).reverse

/-- Drops the blanks at both ends. -/
def trim (cs : List Char) : List Char :=
  trimEnd (trimStart cs)

/-- The maximal blank-free stretches of a text, in order. -/
def words : List Char → List (List Char)
  | [] => []
  | c :: cs =>
    if isBlank c then words cs
    else
      match cs, words cs with
      | d :: _, w :: ws => if isBlank d then [c] :: w :: ws else (c :: w) :: ws
      | _, ws => [c] :: ws

/-- Cuts a text at the first occurrence of a character, which is dropped. -/
def splitAtFirst (mark : Char) : List Char → Option (List Char × List Char)
  | [] => none
  | c :: cs =>
    if c = mark then some ([], cs)
    else (splitAtFirst mark cs).map fun halves => (c :: halves.1, halves.2)

/-- Whether the text contains the pair of characters, one directly after the
other. -/
def containsPair (a b : Char) : List Char → Bool
  | c :: d :: cs => (c == a && d == b) || containsPair a b (d :: cs)
  | _ => false

theorem length_trimStart_le (cs : List Char) : (trimStart cs).length ≤ cs.length :=
  (List.dropWhile_sublist isBlank).length_le

theorem length_trimEnd_le (cs : List Char) : (trimEnd cs).length ≤ cs.length := by
  have h := (List.dropWhile_sublist isBlank (l := cs.reverse)).length_le
  simpa [trimEnd] using h

theorem length_trim_le (cs : List Char) : (trim cs).length ≤ cs.length :=
  Nat.le_trans (length_trimEnd_le _) (length_trimStart_le _)

/-- The two halves of a split are shorter than the text by the dropped mark. -/
theorem length_of_splitAtFirst
    {mark : Char} {cs left right : List Char}
    (h : splitAtFirst mark cs = some (left, right)) :
    left.length + right.length + 1 = cs.length := by
  induction cs generalizing left right with
  | nil => simp [splitAtFirst] at h
  | cons c cs ih =>
    by_cases hc : c = mark
    · simp only [splitAtFirst, hc, if_true, Option.some.injEq, Prod.mk.injEq] at h
      obtain ⟨rfl, rfl⟩ := h
      simp
    · simp only [splitAtFirst, hc, if_false, Option.map_eq_some_iff] at h
      obtain ⟨⟨l, r⟩, hs, heq⟩ := h
      cases heq
      have := ih hs
      simp only [List.length_cons]
      omega

end Text
end Calculator
