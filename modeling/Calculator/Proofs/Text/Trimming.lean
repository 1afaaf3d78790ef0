import Calculator.Text.Blank

/-!
# What trimming leaves

A trimmed text is the text without blanks at its ends.
-/

namespace Calculator
namespace Text

theorem trimStart_append (cs : List Char) :
    cs.takeWhile isBlank ++ trimStart cs = cs :=
  List.takeWhile_append_dropWhile

theorem isBlank_of_mem_takeWhile {c : Char} {cs : List Char}
    (h : c ∈ cs.takeWhile isBlank) : isBlank c = true :=
  List.all_eq_true.mp List.all_takeWhile c h

theorem isBlank_head_trimStart {c : Char} {cs : List Char}
    (h : (trimStart cs).head? = some c) : isBlank c = false := by
  have hnot := List.head?_dropWhile_not isBlank cs
  rw [trimStart] at h
  rw [h] at hnot
  simpa using hnot

theorem trimEnd_append (cs : List Char) :
    trimEnd cs ++ (cs.reverse.takeWhile isBlank).reverse = cs := by
  rw [trimEnd, ← List.reverse_append, List.takeWhile_append_dropWhile, List.reverse_reverse]

theorem isBlank_getLast_trimEnd {c : Char} {cs : List Char}
    (h : (trimEnd cs).getLast? = some c) : isBlank c = false := by
  rw [trimEnd, List.getLast?_reverse] at h
  exact isBlank_head_trimStart h

theorem mem_of_mem_trimEnd {c : Char} {cs : List Char} (h : c ∈ trimEnd cs) : c ∈ cs := by
  rw [← trimEnd_append cs]
  exact List.mem_append_left _ h

theorem head?_trimEnd {c : Char} {cs : List Char} (h : (trimEnd cs).head? = some c) :
    cs.head? = some c := by
  rw [← trimEnd_append cs, List.head?_append, h, Option.some_or]

/-- Trimming at the back keeps a first character that is no blank. -/
theorem head?_trimEnd_of_not_isBlank {c : Char} {cs : List Char}
    (h : cs.head? = some c) (hblank : isBlank c = false) : (trimEnd cs).head? = some c := by
  cases hend : (trimEnd cs).head? with
  | some d =>
      rw [← h, head?_trimEnd hend]
  | none =>
      rw [← trimEnd_append cs, List.head?_eq_none_iff.mp hend, List.nil_append] at h
      have hmem := List.mem_reverse.mp (List.mem_of_head? h)
      rw [isBlank_of_mem_takeWhile hmem] at hblank
      cases hblank

/-- A text is its trimmed form between blanks. -/
theorem exists_trim (cs : List Char) :
    ∃ front back, cs = front ++ trim cs ++ back ∧
      (∀ c ∈ front, isBlank c = true) ∧ (∀ c ∈ back, isBlank c = true) := by
  refine ⟨cs.takeWhile isBlank, ((trimStart cs).reverse.takeWhile isBlank).reverse,
    ?_, ?_, ?_⟩
  · rw [trim, List.append_assoc, trimEnd_append, trimStart_append]
  · exact fun c hc => isBlank_of_mem_takeWhile hc
  · exact fun c hc => isBlank_of_mem_takeWhile (List.mem_reverse.mp hc)

theorem mem_of_mem_trim {c : Char} {cs : List Char} (h : c ∈ trim cs) : c ∈ cs :=
  (List.dropWhile_sublist isBlank).subset (mem_of_mem_trimEnd h)

theorem isBlank_head_trim {c : Char} {cs : List Char}
    (h : (trim cs).head? = some c) : isBlank c = false :=
  isBlank_head_trimStart (head?_trimEnd h)

theorem isBlank_getLast_trim {c : Char} {cs : List Char}
    (h : (trim cs).getLast? = some c) : isBlank c = false :=
  isBlank_getLast_trimEnd h

end Text
end Calculator
