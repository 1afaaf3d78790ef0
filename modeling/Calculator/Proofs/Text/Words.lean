import Calculator.Proofs.Text.Trimming
import Mathlib.Data.List.Basic

/-!
# Words and the blanks between them

The words of a text are its stretches without blanks, so the text is its words with
blanks around them, in one way only.
-/

namespace Calculator
namespace Text

/-- A stretch without blanks. -/
structure IsWord (w : List Char) : Prop where
  nonempty : w ≠ []
  blankless : ∀ c ∈ w, isBlank c = false

instance (w : List Char) : Decidable (IsWord w) :=
  decidable_of_iff ((!w.isEmpty && w.all fun c => !isBlank c) = true) <| by
    rw [Bool.and_eq_true, Bool.not_eq_true', List.isEmpty_eq_false_iff, List.all_eq_true]
    simp only [Bool.not_eq_true']
    exact ⟨fun h => ⟨h.1, h.2⟩, fun h => ⟨h.nonempty, h.blankless⟩⟩

/-- One or more blanks. -/
structure IsGap (gap : List Char) : Prop where
  nonempty : gap ≠ []
  blank : ∀ c ∈ gap, isBlank c = true

/-- The text is empty or begins with a blank. -/
def StartsBlank (cs : List Char) : Prop :=
  ∀ c, cs.head? = some c → isBlank c = true

/-- The text is empty or does not begin with a blank. -/
def StartsBlankless (cs : List Char) : Prop :=
  ∀ c, cs.head? = some c → isBlank c = false

theorem startsBlank_of_blanks {blanks : List Char} (h : ∀ c ∈ blanks, isBlank c = true) :
    StartsBlank blanks :=
  fun c hc => h c (List.mem_of_head? hc)

theorem IsGap.startsBlank {gap : List Char} (hgap : IsGap gap) (rest : List Char) :
    StartsBlank (gap ++ rest) := by
  intro c hc
  rw [List.head?_append_of_ne_nil gap hgap.nonempty] at hc
  exact hgap.blank c (List.mem_of_head? hc)

theorem IsWord.startsBlankless {w : List Char} (hw : IsWord w) (rest : List Char) :
    StartsBlankless (w ++ rest) := by
  intro c hc
  rw [List.head?_append_of_ne_nil w hw.nonempty] at hc
  exact hw.blankless c (List.mem_of_head? hc)

/-! ## Words at the front -/

theorem words_cons (c : Char) (cs : List Char) :
    words (c :: cs) =
      if isBlank c then words cs
      else
        match cs, words cs with
        | d :: _, w :: ws => if isBlank d then [c] :: w :: ws else (c :: w) :: ws
        | _, ws => [c] :: ws := rfl

theorem words_cons_of_isBlank {c : Char} {cs : List Char} (hc : isBlank c = true) :
    words (c :: cs) = words cs := by
  rw [words_cons, if_pos hc]

theorem words_append_of_blanks {blanks cs : List Char}
    (hblanks : ∀ c ∈ blanks, isBlank c = true) : words (blanks ++ cs) = words cs := by
  induction blanks with
  | nil => rfl
  | cons c blanks ih =>
      obtain ⟨hc, hblanks⟩ := List.forall_mem_cons.mp hblanks
      rw [List.cons_append, words_cons_of_isBlank hc, ih hblanks]

theorem words_cons_of_startsBlank {c : Char} {cs : List Char} (hc : isBlank c = false)
    (hcs : StartsBlank cs) : words (c :: cs) = [c] :: words cs := by
  rw [words_cons, hc, if_neg Bool.false_ne_true]
  cases cs with
  | nil => rfl
  | cons d cs =>
      have hd : isBlank d = true := hcs d rfl
      cases words (d :: cs) with
      | nil => rfl
      | cons w ws =>
          dsimp only
          rw [if_pos hd]

theorem words_cons_cons {c d : Char} {cs w : List Char} {ws : List (List Char)}
    (hc : isBlank c = false) (hd : isBlank d = false) (hwords : words (d :: cs) = w :: ws) :
    words (c :: d :: cs) = (c :: w) :: ws := by
  rw [words_cons, hc, if_neg Bool.false_ne_true, hwords]
  dsimp only
  rw [hd, if_neg Bool.false_ne_true]

/-- A word at the front, which ends where a blank follows, is the first of the
words. -/
theorem IsWord.words_append {w rest : List Char} (hw : IsWord w) (hrest : StartsBlank rest) :
    words (w ++ rest) = w :: words rest := by
  obtain ⟨hne, hblankless⟩ := hw
  induction w with
  | nil => exact absurd rfl hne
  | cons c w ih =>
      obtain ⟨hc, hw⟩ := List.forall_mem_cons.mp hblankless
      cases w with
      | nil => exact words_cons_of_startsBlank hc hrest
      | cons d w =>
          have hd : isBlank d = false := hw d List.mem_cons_self
          exact words_cons_cons hc hd (ih (List.cons_ne_nil d w) hw)

theorem IsWord.words_eq {w : List Char} (hw : IsWord w) : words w = [w] := by
  have h : words (w ++ []) = w :: words [] := hw.words_append (by simp [StartsBlank])
  rw [List.append_nil] at h
  exact h

/-- A word at the front is in front of the first word. -/
theorem exists_words_append {w : List Char} (hw : IsWord w) (cs : List Char) :
    ∃ w' ws, words (w ++ cs) = (w ++ w') :: ws := by
  let more := cs.takeWhile fun c => !isBlank c
  let rest := cs.dropWhile fun c => !isBlank c
  have hcs : cs = more ++ rest := List.takeWhile_append_dropWhile.symm
  have hmore : ∀ c ∈ more, isBlank c = false := by
    intro c hc
    simpa using List.all_eq_true.mp List.all_takeWhile c hc
  have hword : IsWord (w ++ more) := by
    refine ⟨List.append_ne_nil_of_left_ne_nil hw.nonempty more, ?_⟩
    intro c hc
    exact (List.mem_append.mp hc).elim (hw.blankless c) (hmore c)
  have hrest : StartsBlank rest := by
    intro c hc
    have hnot := List.head?_dropWhile_not (fun c => !isBlank c) cs
    rw [show (cs.dropWhile fun c => !isBlank c).head? = some c from hc] at hnot
    simpa using hnot
  refine ⟨more, words rest, ?_⟩
  rw [hcs, ← List.append_assoc, hword.words_append hrest]

/-! ## What the words say about the text -/

theorem isBlank_of_words_eq_nil {cs : List Char} (h : words cs = []) :
    ∀ c ∈ cs, isBlank c = true := by
  induction cs with
  | nil => simp
  | cons c cs ih =>
      by_cases hc : isBlank c = true
      · rw [words_cons_of_isBlank hc] at h
        exact List.forall_mem_cons.mpr ⟨hc, ih h⟩
      · rw [words_cons, if_neg hc] at h
        split at h
        · split at h <;> cases h
        · cases h

/-- The first word of a text stands behind blanks, and a blank or nothing behind
it. -/
theorem exists_of_words_eq_cons {cs w : List Char} {ws : List (List Char)}
    (h : words cs = w :: ws) :
    ∃ blanks rest, cs = blanks ++ (w ++ rest) ∧ (∀ c ∈ blanks, isBlank c = true) ∧
      IsWord w ∧ StartsBlank rest ∧ words rest = ws := by
  induction cs generalizing w with
  | nil => cases h
  | cons c cs ih =>
      by_cases hc : isBlank c = true
      · rw [words_cons_of_isBlank hc] at h
        obtain ⟨blanks, rest, rfl, hblanks, hrest⟩ := ih h
        exact ⟨c :: blanks, rest, rfl, List.forall_mem_cons.mpr ⟨hc, hblanks⟩, hrest⟩
      · have hc' : isBlank c = false := Bool.eq_false_iff.mpr hc
        by_cases hcs : StartsBlank cs
        · rw [words_cons_of_startsBlank hc' hcs] at h
          cases h
          exact ⟨[], cs, rfl, by simp, ⟨by simp, by simpa using hc'⟩, hcs, rfl⟩
        · simp only [StartsBlank, not_forall] at hcs
          obtain ⟨d, hhead, hd⟩ := hcs
          obtain ⟨cs', rfl⟩ := List.head?_eq_some_iff.mp hhead
          cases hwords : words (d :: cs') with
          | nil => exact absurd (isBlank_of_words_eq_nil hwords d List.mem_cons_self) hd
          | cons w' ws' =>
              rw [words_cons_cons hc' (Bool.eq_false_iff.mpr hd) hwords] at h
              cases h
              obtain ⟨blanks, rest, hcut, hblanks, ⟨hne, hw'⟩, hrest⟩ := ih hwords
              cases blanks with
              | nil =>
                  refine ⟨[], rest, by rw [hcut]; rfl, by simp, ⟨by simp, ?_⟩, hrest⟩
                  exact List.forall_mem_cons.mpr ⟨hc', hw'⟩
              | cons b blanks =>
                  obtain ⟨rfl, -⟩ := List.cons.inj hcut
                  exact absurd (hblanks d List.mem_cons_self) hd

/-- A text without blanks in front begins with its first word. -/
theorem exists_append_of_words {cs w : List Char} {ws : List (List Char)}
    (hstart : StartsBlankless cs) (h : words cs = w :: ws) :
    ∃ rest, cs = w ++ rest ∧ StartsBlank rest ∧ words rest = ws := by
  obtain ⟨blanks, rest, rfl, hblanks, -, hrest⟩ := exists_of_words_eq_cons h
  cases blanks with
  | nil => exact ⟨rest, rfl, hrest⟩
  | cons b blanks =>
      have hblank := hblanks b List.mem_cons_self
      rw [hstart b rfl] at hblank
      cases hblank

/-- Where a word ends and another follows, there is a gap between them. -/
theorem exists_gap_of_words {rest : List Char} (hrest : StartsBlank rest)
    (h : words rest ≠ []) :
    ∃ gap cs, rest = gap ++ cs ∧ IsGap gap ∧ StartsBlankless cs ∧ words cs = words rest := by
  have hblanks : ∀ c ∈ rest.takeWhile isBlank, isBlank c = true :=
    fun c hc => isBlank_of_mem_takeWhile hc
  refine ⟨rest.takeWhile isBlank, trimStart rest, (trimStart_append rest).symm, ⟨?_, hblanks⟩,
    fun c hc => isBlank_head_trimStart hc, ?_⟩
  · cases rest with
    | nil => exact absurd rfl h
    | cons c rest => simp [hrest c rfl]
  · rw [← words_append_of_blanks hblanks, trimStart_append]

/-- Every character is a blank or in a word. -/
theorem isBlank_or_mem_words {c : Char} {cs : List Char} (hc : c ∈ cs) :
    isBlank c = true ∨ ∃ w ∈ words cs, c ∈ w := by
  generalize hws : words cs = ws
  induction ws generalizing cs with
  | nil => exact .inl (isBlank_of_words_eq_nil hws c hc)
  | cons w ws ih =>
      obtain ⟨blanks, rest, rfl, hblanks, -, -, hrest⟩ := exists_of_words_eq_cons hws
      rcases List.mem_append.mp hc with hc | hc
      · exact .inl (hblanks c hc)
      · rcases List.mem_append.mp hc with hc | hc
        · exact .inr ⟨w, List.mem_cons_self, hc⟩
        · rcases ih hc hrest with hblank | ⟨w', hw', hmem⟩
          · exact .inl hblank
          · exact .inr ⟨w', List.mem_cons_of_mem w hw', hmem⟩

theorem infix_of_mem_words {w cs : List Char} (hw : w ∈ words cs) : w <:+: cs := by
  generalize hws : words cs = ws at hw
  induction ws generalizing cs with
  | nil => simp at hw
  | cons w' ws ih =>
      obtain ⟨blanks, rest, rfl, -, -, -, hrest⟩ := exists_of_words_eq_cons hws
      rcases List.mem_cons.mp hw with rfl | hw
      · exact ⟨blanks, rest, List.append_assoc _ _ _⟩
      · refine (ih hrest hw).trans ⟨blanks ++ w', [], by simp⟩

/-- Where the second of two texts begins with a blank, their words are those of both. -/
theorem words_append {cs rest : List Char} (hrest : StartsBlank rest) :
    words (cs ++ rest) = words cs ++ words rest := by
  generalize hws : words cs = ws
  induction ws generalizing cs with
  | nil => rw [words_append_of_blanks (isBlank_of_words_eq_nil hws), List.nil_append]
  | cons w ws ih =>
      obtain ⟨blanks, back, rfl, hblanks, hw, hstart, hback⟩ := exists_of_words_eq_cons hws
      have hstart' : StartsBlank (back ++ rest) := by
        intro c hc
        rw [List.head?_append, Option.or_eq_some_iff] at hc
        rcases hc with hc | ⟨-, hc⟩
        · exact hstart c hc
        · exact hrest c hc
      rw [List.append_assoc, List.append_assoc, words_append_of_blanks hblanks,
        hw.words_append hstart', ih hback, List.cons_append]

/-- Blanks at the back add no words. -/
theorem words_append_back {cs back : List Char} (hback : ∀ c ∈ back, isBlank c = true) :
    words (cs ++ back) = words cs := by
  have hnil : words (back ++ []) = words [] := words_append_of_blanks hback
  rw [List.append_nil] at hnil
  rw [words_append (startsBlank_of_blanks hback), hnil]
  exact List.append_nil _

theorem StartsBlankless.dropWhile_eq {cs : List Char} (h : StartsBlankless cs) :
    cs.dropWhile isBlank = cs := by
  cases cs with
  | nil => rfl
  | cons c cs => exact List.dropWhile_cons_of_neg (by simp [h c rfl])

/-- A text without blanks at its ends is not changed by trimming. -/
theorem trim_eq_self {cs : List Char} (hhead : StartsBlankless cs)
    (hlast : ∀ c, cs.getLast? = some c → isBlank c = false) : trim cs = cs := by
  have hback : StartsBlankless cs.reverse := by
    intro c hc
    exact hlast c (by rwa [List.head?_reverse] at hc)
  rw [trim, trimStart, hhead.dropWhile_eq, trimEnd, hback.dropWhile_eq, List.reverse_reverse]

theorem words_trim (cs : List Char) : words (trim cs) = words cs := by
  obtain ⟨front, back, hcs, hfront, hback⟩ := exists_trim cs
  calc
    words (trim cs) = words (front ++ trim cs) := (words_append_of_blanks hfront).symm
    _ = words (front ++ trim cs ++ back) := (words_append_back hback).symm
    _ = words cs := by rw [← hcs]

end Text
end Calculator
