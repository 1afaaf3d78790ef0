import Calculator.Proofs.Request.Target
import Calculator.Proofs.Text.Splitting

/-!
# The parts of a target

A target is a name, blanks, and the parameter or nothing.  The name may contain spaces, so the
stretch of name characters runs into the blanks behind it; but the name does not end in a space
and neither a blank nor the parameter has a character of a name other than the space.  Hence
the parts are found by taking the stretch and giving the blanks at its end back, and there is
no other way to cut the text into them.
-/

namespace Calculator
namespace Target

/-- The parameter: `x` in parentheses, with blanks around it or none. -/
def IsParameter (cs : List Char) : Prop :=
  ∃ front back, cs = '(' :: (front ++ 'x' :: (back ++ [')'])) ∧
    (∀ c ∈ front, Text.isBlank c = true) ∧ ∀ c ∈ back, Text.isBlank c = true

/-- The text consists of a name, blanks, and the parameter or nothing. -/
structure HasParts (text name gap parameter : List Char) : Prop where
  text_eq : text = name ++ (gap ++ parameter)
  name : IsName (String.ofList name)
  gap : ∀ c ∈ gap, Text.isBlank c = true
  parameter : parameter = [] ∨ IsParameter parameter

/-! ## The parameter -/

theorem IsParameter.isParameter_eq {cs : List Char} (h : IsParameter cs) :
    isParameter cs = true := by
  obtain ⟨front, back, rfl, hfront, hback⟩ := h
  have hletter : Text.trimStart (front ++ 'x' :: (back ++ [')'])) = 'x' :: (back ++ [')']) :=
    Text.dropWhile_append_of_head? hfront (by rintro c ⟨⟩; decide)
  have hclose : Text.trimStart (back ++ [')']) = [')'] :=
    Text.dropWhile_append_of_head? hback (by rintro c ⟨⟩; decide)
  rw [isParameter, hletter]
  exact beq_iff_eq.mpr hclose

theorem isParameter_iff {cs : List Char} : isParameter cs = true ↔ IsParameter cs :=
  ⟨fun h => by simpa [IsParameter] using exists_of_isParameter h, IsParameter.isParameter_eq⟩

/-! ## Finding the parts -/

section Parts

variable {text name gap parameter : List Char} (h : HasParts text name gap parameter)

include h

theorem HasParts.parameter_head? {c : Char} (hc : parameter.head? = some c) : c = '(' := by
  rcases h.parameter with rfl | ⟨front, back, rfl, -⟩
  · cases hc
  · exact (Option.some.inj hc).symm

theorem HasParts.dropWhile_parameter {p : Char → Bool} (hp : p '(' = false) :
    parameter.dropWhile p = parameter := by
  cases parameter with
  | nil => rfl
  | cons c cs =>
      obtain rfl := h.parameter_head? rfl
      rw [List.dropWhile_cons, hp, if_neg Bool.false_ne_true]

theorem HasParts.isNameChar_of_mem {c : Char} (hc : c ∈ name) : isNameChar c = true :=
  h.name.chars c (by rwa [String.toList_ofList])

theorem HasParts.trimEnd_name : Text.trimEnd name = name := by
  rw [Text.trimEnd]
  cases hreverse : name.reverse with
  | nil =>
      rw [List.reverse_eq_nil_iff.mp hreverse]
      rfl
  | cons c cs =>
      have hlast : name.getLast? = some c := by
        rw [List.getLast?_eq_head?_reverse, hreverse]
        rfl
      have hblank : Text.isBlank c = false := by
        rw [← Bool.not_eq_true]
        intro hblank
        have hchar := h.isNameChar_of_mem (List.mem_of_getLast? hlast)
        obtain rfl := isBlank_of_isNameChar hchar hblank
        exact h.name.last (by rwa [String.toList_ofList])
      rw [List.dropWhile_cons, hblank, if_neg Bool.false_ne_true, ← hreverse, List.reverse_reverse]

/-- The name is the stretch of name characters without the blanks at its end. -/
theorem HasParts.name_eq : name = Text.trimEnd (text.takeWhile isNameChar) := by
  have hparameter : parameter.takeWhile isNameChar = [] := by
    have happend := List.takeWhile_append_dropWhile (p := isNameChar) (l := parameter)
    rw [h.dropWhile_parameter (by decide)] at happend
    exact List.append_left_eq_self.mp happend
  have hblanks : ∀ c ∈ (gap ++ parameter).takeWhile isNameChar, Text.isBlank c = true := by
    intro c hc
    rw [List.takeWhile_append, hparameter, List.append_nil] at hc
    split at hc
    · exact h.gap c hc
    · exact h.gap c ((List.takeWhile_sublist isNameChar).subset hc)
  rw [h.text_eq, List.takeWhile_append_of_pos fun _ => h.isNameChar_of_mem,
    Text.trimEnd_append_of_isBlank hblanks, h.trimEnd_name]

/-- The parameter is what is left behind the stretch and the blanks there. -/
theorem HasParts.parameter_eq :
    parameter = Text.trimStart (text.dropWhile isNameChar) := by
  have hparameter := h.dropWhile_parameter (p := isNameChar) (by decide)
  have htrim : Text.trimStart parameter = parameter := h.dropWhile_parameter (by decide)
  rw [h.text_eq, List.dropWhile_append_of_pos fun _ => h.isNameChar_of_mem, List.dropWhile_append,
    hparameter]
  split
  · exact htrim.symm
  · have hblanks : ∀ c ∈ gap.dropWhile isNameChar, Text.isBlank c = true :=
      fun c hc => h.gap c ((List.dropWhile_sublist isNameChar).subset hc)
    rw [Text.trimStart_append_of_isBlank hblanks, htrim]

/-- A text is a target in one way at most. -/
theorem HasParts.unique {name' gap' parameter' : List Char}
    (h' : HasParts text name' gap' parameter') :
    name = name' ∧ gap = gap' ∧ parameter = parameter' := by
  have hname : name = name' := h.name_eq.trans h'.name_eq.symm
  have hparameter : parameter = parameter' := h.parameter_eq.trans h'.parameter_eq.symm
  have htext := h.text_eq.symm.trans h'.text_eq
  rw [hname, hparameter, List.append_cancel_left_eq, List.append_cancel_right_eq] at htext
  exact ⟨hname, htext, hparameter⟩

theorem HasParts.head? : ∃ c, text.head? = some c ∧ Token.isNameStart c = true := by
  obtain ⟨c, hc, hstart⟩ := h.name.start
  rw [String.toList_ofList] at hc
  refine ⟨c, ?_, hstart⟩
  rw [h.text_eq, List.head?_append, hc, Option.some_or]

end Parts

/-! ## Reading targets -/

theorem HasParts.read?_eq {text : String} {name gap parameter : List Char}
    (h : HasParts text.toList name gap parameter) :
    read? text = some ⟨String.ofList name, !parameter.isEmpty⟩ := by
  obtain ⟨c, hc, hstart⟩ := h.head?
  unfold read?
  dsimp only
  rw [← h.name_eq, ← h.parameter_eq, if_neg (by rw [hc, Option.any_some, hstart]; decide)]
  rcases h.parameter with rfl | hparameter
  · rfl
  · obtain ⟨front, back, hcons, -⟩ := id hparameter
    have hne : parameter.isEmpty = false := by
      rw [hcons]
      rfl
    rw [hne, if_neg Bool.false_ne_true, if_pos hparameter.isParameter_eq]
    rfl

theorem hasParts_of_read? {text : String} {t : Target} (h : read? text = some t) :
    HasParts text.toList t.name.toList
      (((text.toList.takeWhile isNameChar).reverse.takeWhile Text.isBlank).reverse ++
        (text.toList.dropWhile isNameChar).takeWhile Text.isBlank)
      (parameterPart text) := by
  obtain ⟨-, hname, hparameter⟩ := read?_eq_some h
  refine ⟨?_, ?_, ?_, ?_⟩
  · have hstretch := Text.trimEnd_append (text.toList.takeWhile isNameChar)
    have hrest := Text.trimStart_append (text.toList.dropWhile isNameChar)
    rw [hname, String.toList_ofList, parameterPart, List.append_assoc, hrest, ← List.append_assoc,
      hstretch, List.takeWhile_append_dropWhile]
  · rw [String.ofList_toList]
    exact isName_of_read? h
  · intro c hc
    rcases List.mem_append.mp hc with hc | hc
    · exact Text.isBlank_of_mem_takeWhile (List.mem_reverse.mp hc)
    · exact Text.isBlank_of_mem_takeWhile hc
  · exact hparameter.imp And.right fun hpart => isParameter_iff.mp hpart.2

/-- What a text is read as are its parts: the name, and whether there is a parameter. -/
theorem read?_eq_some_iff {text : String} {t : Target} :
    read? text = some t ↔
      ∃ gap parameter, HasParts text.toList t.name.toList gap parameter ∧
        (t.hasParameter = true ↔ parameter ≠ []) := by
  constructor
  · intro h
    have hparts := hasParts_of_read? h
    refine ⟨_, _, hparts, ?_⟩
    have hread := hparts.read?_eq
    rw [h] at hread
    rw [Option.some.inj hread]
    simp
  · rintro ⟨gap, parameter, hparts, hparameter⟩
    rw [hparts.read?_eq, String.ofList_toList]
    cases t with
    | mk name hasParameter =>
        have hempty : (!parameter.isEmpty) = hasParameter := by
          rw [Bool.eq_iff_iff]
          simpa using hparameter.symm
        rw [hempty]

end Target
end Calculator
