import Calculator.Proofs.Text.Trimming
import Calculator.Proofs.Text.WholeWord
import Calculator.Target

/-!
# What a target is read as

A text that is read as a target is the name, blanks and, if there is one, the
parameter.  What is read has the form of a name, and the parameter brings the
word `x` with it.
-/

namespace Calculator
namespace Target

/-- The form of the names that may be stored. -/
structure IsName (name : String) : Prop where
  start : ∃ c, name.toList.head? = some c ∧ Token.isNameStart c = true
  chars : ∀ c ∈ name.toList, isNameChar c = true
  last : name.toList.getLast? ≠ some ' '

/-- What is left of a target behind its stretch of name characters and the
blanks there. -/
def parameterPart (text : String) : List Char :=
  Text.trimStart (text.toList.dropWhile isNameChar)

theorem read?_eq_some {text : String} {t : Target} (h : read? text = some t) :
    (∃ c, text.toList.head? = some c ∧ Token.isNameStart c = true) ∧
      t.name = String.ofList (Text.trimEnd (text.toList.takeWhile isNameChar)) ∧
      (t.hasParameter = false ∧ parameterPart text = [] ∨
        t.hasParameter = true ∧ isParameter (parameterPart text) = true) := by
  unfold read? at h
  dsimp only at h
  split at h
  · cases h
  · rename_i hstart
    have hhead : ∃ c, text.toList.head? = some c ∧ Token.isNameStart c = true := by
      rwa [Bool.not_eq_true, Bool.not_eq_false', Option.any_eq_true] at hstart
    split at h
    · rename_i hempty
      cases h
      exact ⟨hhead, rfl, .inl ⟨rfl, List.isEmpty_iff.mp hempty⟩⟩
    · split at h
      · rename_i hparameter
        cases h
        exact ⟨hhead, rfl, .inr ⟨rfl, hparameter⟩⟩
      · cases h

/-! ## The name -/

theorem isNameChar_of_isNameStart {c : Char} (h : Token.isNameStart c = true) :
    isNameChar c = true := by
  simp only [Token.isNameStart, Bool.or_eq_true] at h
  simp only [isNameChar, Token.isNameChar, Char.isAlphanum, Bool.or_eq_true]
  rcases h with h | h
  · exact .inl (.inl (.inl h))
  · exact .inl (.inr h)

theorem isBlank_of_isNameChar {c : Char} (h : isNameChar c = true)
    (hblank : Text.isBlank c = true) : c = ' ' := by
  simp only [isNameChar, Bool.or_eq_true, beq_iff_eq] at h
  rcases h with h | h
  · have hword : Text.isWordChar c = true := by
      simp only [Token.isNameChar, Bool.or_eq_true] at h
      simp only [Text.isWordChar, Bool.or_eq_true]
      exact .inl h
    rw [Text.isWordChar_of_isBlank hblank] at hword
    cases hword
  · exact h

theorem isBlank_of_isNameStart {c : Char} (h : Token.isNameStart c = true) :
    Text.isBlank c = false := by
  cases hblank : Text.isBlank c with
  | false => rfl
  | true =>
      obtain rfl := isBlank_of_isNameChar (isNameChar_of_isNameStart h) hblank
      exact absurd h (by decide)

/-- The name of a target has the form of a name. -/
theorem isName_of_read? {text : String} {t : Target} (h : read? text = some t) :
    IsName t.name := by
  obtain ⟨⟨c, hhead, hstart⟩, hname, -⟩ := read?_eq_some h
  have hstretch : (text.toList.takeWhile isNameChar).head? = some c := by
    rw [List.head?_takeWhile, hhead, Option.filter_some, if_pos (isNameChar_of_isNameStart hstart)]
  rw [hname]
  refine ⟨⟨c, ?_, hstart⟩, ?_, ?_⟩
  · rw [String.toList_ofList]
    exact Text.head?_trimEnd_of_not_isBlank hstretch (isBlank_of_isNameStart hstart)
  · intro d hd
    rw [String.toList_ofList] at hd
    exact List.all_eq_true.mp List.all_takeWhile d (Text.mem_of_mem_trimEnd hd)
  · intro hlast
    rw [String.toList_ofList] at hlast
    exact absurd (Text.isBlank_getLast_trimEnd hlast) (by decide)

/-! ## The parameter -/

/-- The parameter is `x` in parentheses, with blanks around it. -/
theorem exists_of_isParameter {cs : List Char} (h : isParameter cs = true) :
    ∃ front back, cs = '(' :: front ++ 'x' :: (back ++ [')']) ∧
      (∀ c ∈ front, Text.isBlank c = true) ∧ (∀ c ∈ back, Text.isBlank c = true) := by
  unfold isParameter at h
  split at h
  · rename_i cs
    split at h
    · rename_i rest hrest
      refine ⟨cs.takeWhile Text.isBlank, rest.takeWhile Text.isBlank, ?_,
        fun c hc => Text.isBlank_of_mem_takeWhile hc,
        fun c hc => Text.isBlank_of_mem_takeWhile hc⟩
      have hfront := Text.trimStart_append cs
      have hback := Text.trimStart_append rest
      rw [beq_iff_eq.mp h] at hback
      rw [hback, ← hrest, List.cons_append, hfront]
    · cases h
  · cases h

/-- The parameter of a target is a whole word of its text. -/
theorem hasWord_of_hasParameter {text : String} {t : Target} (h : read? text = some t)
    (hparameter : t.hasParameter = true) : Text.hasWord 'x' text.toList = true := by
  obtain ⟨-, -, ⟨hnone, -⟩ | ⟨-, hpart⟩⟩ := read?_eq_some h
  · rw [hparameter] at hnone
    cases hnone
  · obtain ⟨front, back, hcs, hfront, hback⟩ := exists_of_isParameter hpart
    have htext : text.toList =
        text.toList.takeWhile isNameChar ++
          (text.toList.dropWhile isNameChar).takeWhile Text.isBlank ++
            ('(' :: front ++ 'x' :: (back ++ [')'])) := by
      rw [← hcs, parameterPart, List.append_assoc, Text.trimStart_append,
        List.takeWhile_append_dropWhile]
    rw [htext, ← List.append_assoc]
    refine Text.hasWord_iff.mpr ⟨_, _, rfl, ?_, ?_⟩
    · intro c hc
      rw [List.getLast?_append, List.getLast?_cons, Option.some_or, ← List.getLast?_cons] at hc
      have hmem : c ∈ '(' :: front := List.mem_of_getLast? hc
      rcases List.mem_cons.mp hmem with rfl | hmem
      · decide
      · exact Text.isWordChar_of_isBlank (hfront c hmem)
    · intro c hc
      have hmem : c ∈ back ++ [')'] := List.mem_of_head? hc
      rcases List.mem_append.mp hmem with hmem | hmem
      · exact Text.isWordChar_of_isBlank (hback c hmem)
      · obtain rfl := List.mem_singleton.mp hmem
        decide

end Target
end Calculator
