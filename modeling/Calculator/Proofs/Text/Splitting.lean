import Calculator.Proofs.Text.Trimming
import Mathlib.Data.List.DropRight

/-!
# Texts between marks

Trimming does not care about further blanks at the ends, so the pieces between
the marks of a text are the same for the trimmed text.
-/

namespace Calculator
namespace Text

/-! ## Trimming -/

theorem trimStart_append_of_isBlank
    {front : List Char} (hfront : ∀ c ∈ front, isBlank c = true) (cs : List Char) :
    trimStart (front ++ cs) = trimStart cs :=
  List.dropWhile_append_of_pos hfront

theorem trimEnd_append_of_isBlank
    {back : List Char} (hback : ∀ c ∈ back, isBlank c = true) (cs : List Char) :
    trimEnd (cs ++ back) = trimEnd cs := by
  have hreverse : ∀ c ∈ back.reverse, isBlank c = true :=
    fun c hc => hback c (List.mem_reverse.mp hc)
  rw [trimEnd, List.reverse_append, List.dropWhile_append_of_pos hreverse, trimEnd]

theorem trimStart_eq_nil {cs : List Char} (h : ∀ c ∈ cs, isBlank c = true) :
    trimStart cs = [] :=
  List.dropWhile_eq_nil_iff.mpr h

theorem trim_append_front
    {front : List Char} (hfront : ∀ c ∈ front, isBlank c = true) (cs : List Char) :
    trim (front ++ cs) = trim cs := by
  rw [trim, trimStart_append_of_isBlank hfront, trim]

theorem trim_append_back
    {back : List Char} (hback : ∀ c ∈ back, isBlank c = true) (cs : List Char) :
    trim (cs ++ back) = trim cs := by
  rw [trim, trim]
  by_cases hcs : trimStart cs = []
  · have hall : trimStart (cs ++ back) = [] := by
      refine trimStart_eq_nil ?_
      intro c hc
      rcases List.mem_append.mp hc with hc | hc
      · exact List.dropWhile_eq_nil_iff.mp hcs c hc
      · exact hback c hc
    rw [hall, hcs]
  · have hkept : trimStart (cs ++ back) = trimStart cs ++ back := by
      rw [trimStart, List.dropWhile_append, if_neg (by rwa [List.isEmpty_iff]), trimStart]
    rw [hkept, trimEnd_append_of_isBlank hback]

@[simp]
theorem trim_trim (cs : List Char) : trim (trim cs) = trim cs := by
  obtain ⟨front, back, hcs, hfront, hback⟩ := exists_trim cs
  have h := trim_append_back hback (front ++ trim cs)
  rw [← hcs, trim_append_front hfront] at h
  exact h.symm

theorem trimEnd_trim (cs : List Char) : trimEnd (trim cs) = trim cs := by
  rw [trim, trimEnd, trimEnd, List.reverse_reverse, List.dropWhile_idempotent]

/-- A stretch that does not begin with a dropped character survives the dropping. -/
theorem infix_dropWhile
    {p : Char → Bool} {c : Char} {word cs : List Char} (hc : p c = false)
    (h : c :: word <:+: cs) : c :: word <:+: cs.dropWhile p := by
  induction cs with
  | nil => exact h
  | cons d cs ih =>
      by_cases hd : p d = true
      · rw [List.dropWhile_cons_of_pos hd]
        rcases List.infix_cons_iff.mp h with hprefix | hinfix
        · obtain ⟨rfl, -⟩ := List.cons_prefix_cons.mp hprefix
          rw [hd] at hc
          cases hc
        · exact ih hinfix
      · rw [List.dropWhile_cons_of_neg hd]
        exact h

/-- A stretch without blanks is not touched by trimming. -/
theorem infix_trim {word cs : List Char} (hne : word ≠ [])
    (hword : ∀ c ∈ word, isBlank c = false) (h : word <:+: cs) : word <:+: trim cs := by
  obtain ⟨c, front, rfl⟩ := List.exists_cons_of_ne_nil hne
  have hstart := infix_dropWhile (hword c List.mem_cons_self) h
  obtain ⟨d, back, hreverse⟩ := List.exists_cons_of_ne_nil (List.reverse_ne_nil_iff.mpr hne)
  have hd : d ∈ c :: front := List.mem_reverse.mp (hreverse ▸ List.mem_cons_self)
  rw [← List.reverse_infix, hreverse] at hstart
  have hend := infix_dropWhile (hword d hd) hstart
  rw [← List.reverse_infix, ← hreverse, List.reverse_reverse] at hend
  exact hend

/-! ## Stretches -/

section Stretches

variable {p : Char → Bool} {stretch rest : List Char}
  (hstretch : ∀ c ∈ stretch, p c = true) (hrest : ∀ c, rest.head? = some c → p c = false)

include hstretch hrest

/-- A stretch is taken whole, up to the character that ends it. -/
theorem takeWhile_append_of_head? : (stretch ++ rest).takeWhile p = stretch := by
  rw [List.takeWhile_append_of_pos hstretch]
  cases rest with
  | nil => simp
  | cons c cs => simp [hrest c rfl]

theorem dropWhile_append_of_head? : (stretch ++ rest).dropWhile p = rest := by
  rw [List.dropWhile_append_of_pos hstretch]
  cases rest with
  | nil => simp
  | cons c cs => simp [hrest c rfl]

end Stretches

/-! ## Marks -/

/-- The halves of a split are those around the first mark. -/
theorem splitAtFirst_eq_some_iff {mark : Char} {cs left right : List Char} :
    splitAtFirst mark cs = some (left, right) ↔
      cs = left ++ mark :: right ∧ mark ∉ left := by
  induction cs generalizing left with
  | nil => simp [splitAtFirst]
  | cons c cs ih =>
      by_cases hc : c = mark
      · subst hc
        cases left with
        | nil => simp [splitAtFirst, eq_comm]
        | cons d left =>
            simp only [splitAtFirst, if_true, List.cons_append, List.cons.injEq, List.mem_cons]
            grind
      · cases left with
        | nil => simp [splitAtFirst, hc]
        | cons d left =>
            simp only [splitAtFirst, if_neg hc, Option.map_eq_some_iff, Prod.exists,
              Prod.mk.injEq, List.cons.injEq, List.cons_append, List.mem_cons]
            grind

/-- A pair of characters is contained where the text has it as a stretch. -/
theorem containsPair_iff {a b : Char} {cs : List Char} :
    containsPair a b cs = true ↔ [a, b] <:+: cs := by
  induction cs with
  | nil => simp [containsPair]
  | cons c cs ih =>
      rw [List.infix_cons_iff, ← ih]
      cases cs with
      | nil => simp [containsPair]
      | cons d cs =>
          rw [containsPair, Bool.or_eq_true, Bool.and_eq_true, beq_iff_eq, beq_iff_eq,
            List.cons_prefix_cons, List.cons_prefix_cons, eq_comm (b := a), eq_comm (b := b)]
          simp

/-! ## Pieces -/

section Pieces

variable {mark : Char} (hmark : isBlank mark = false)

include hmark

theorem not_mem_of_isBlank {blanks : List Char} (hblanks : ∀ c ∈ blanks, isBlank c = true) :
    mark ∉ blanks := by
  intro hmem
  rw [hblanks mark hmem] at hmark
  cases hmark

theorem map_trim_splitOn_append_front
    {front : List Char} (hfront : ∀ c ∈ front, isBlank c = true) (cs : List Char) :
    ((front ++ cs).splitOn mark).map trim = (cs.splitOn mark).map trim := by
  have htrim := trim_append_front hfront
  have hnone : mark ∉ front := not_mem_of_isBlank hmark hfront
  by_cases hmem : mark ∈ cs
  · obtain ⟨first, rest, rfl, hfirst⟩ := List.eq_append_cons_of_mem hmem
    have hfirst' : mark ∉ front ++ first := by
      rw [List.mem_append, not_or]
      exact ⟨hnone, hfirst⟩
    rw [← List.append_assoc, List.splitOn_append_cons_self_of_not_mem hfirst',
      List.splitOn_append_cons_self_of_not_mem hfirst, List.map_cons, List.map_cons, htrim]
  · have hmem' : mark ∉ front ++ cs := by
      rw [List.mem_append, not_or]
      exact ⟨hnone, hmem⟩
    rw [List.splitOn_eq_singleton hmem', List.splitOn_eq_singleton hmem, List.map_singleton,
      List.map_singleton, htrim]

theorem map_trim_splitOn_append_back
    {back : List Char} (hback : ∀ c ∈ back, isBlank c = true) (cs : List Char) :
    ((cs ++ back).splitOn mark).map trim = (cs.splitOn mark).map trim := by
  have htrim := trim_append_back hback
  have hnone : mark ∉ back := not_mem_of_isBlank hmark hback
  by_cases hmem : mark ∈ cs
  · -- The blanks join the piece behind the last mark.
    obtain ⟨last, rest, hcs, hlast⟩ :=
      List.eq_append_cons_of_mem (List.mem_reverse.mpr hmem)
    have hcs' : cs = rest.reverse ++ mark :: last.reverse := by
      rw [← List.reverse_reverse cs, hcs]
      simp
    have hlast' : mark ∉ last.reverse := by rwa [List.mem_reverse]
    have hlast'' : mark ∉ last.reverse ++ back := by
      rw [List.mem_append, not_or]
      exact ⟨hlast', hnone⟩
    rw [hcs', List.append_assoc, List.cons_append, List.splitOn_append_cons_self,
      List.splitOn_append_cons_self, List.splitOn_eq_singleton hlast'',
      List.splitOn_eq_singleton hlast', List.map_append, List.map_append, List.map_singleton,
      List.map_singleton, htrim]
  · have hmem' : mark ∉ cs ++ back := by
      rw [List.mem_append, not_or]
      exact ⟨hmem, hnone⟩
    rw [List.splitOn_eq_singleton hmem', List.splitOn_eq_singleton hmem, List.map_singleton,
      List.map_singleton, htrim]

/-- A text and the trimmed text have the same trimmed pieces. -/
theorem map_trim_splitOn_trim (cs : List Char) :
    ((trim cs).splitOn mark).map trim = (cs.splitOn mark).map trim := by
  obtain ⟨front, back, hcs, hfront, hback⟩ := exists_trim cs
  have h := map_trim_splitOn_append_back hmark hback (front ++ trim cs)
  rw [← hcs, map_trim_splitOn_append_front hmark hfront] at h
  exact h.symm

end Pieces

end Text
end Calculator
