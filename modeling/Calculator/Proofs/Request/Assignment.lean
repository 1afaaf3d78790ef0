import Calculator.Proofs.Text.Splitting
import Calculator.Proofs.Text.WholeWord
import Calculator.Request

/-!
# The two sides of an assignment

The sides are the trimmed halves of the line around its first equals sign, so a
word of a side is a word of the line.
-/

namespace Calculator
namespace Request

/-- The sides are those around the first equals sign, and there are none where two
equals signs stand together. -/
theorem assignment?_eq_some_iff {line target rhs : String} :
    assignment? line = some (target, rhs) ↔
      ¬ ['=', '='] <:+: line.toList ∧
        ∃ left right, line.toList = left ++ '=' :: right ∧ '=' ∉ left ∧
          target = String.ofList (Text.trim left) ∧ rhs = String.ofList (Text.trim right) := by
  rw [assignment?, ← Text.containsPair_iff]
  by_cases hpair : Text.containsPair '=' '=' line.toList = true
  · simp [hpair]
  · rw [if_neg hpair, Option.map_eq_some_iff]
    constructor
    · rintro ⟨⟨left, right⟩, hsplit, hsides⟩
      obtain ⟨hline, hleft⟩ := Text.splitAtFirst_eq_some_iff.mp hsplit
      cases hsides
      exact ⟨hpair, left, right, hline, hleft, rfl, rfl⟩
    · rintro ⟨-, left, right, hline, hleft, rfl, rfl⟩
      exact ⟨(left, right), Text.splitAtFirst_eq_some_iff.mpr ⟨hline, hleft⟩, rfl⟩

theorem assignment?_eq_some {line target rhs : String}
    (h : assignment? line = some (target, rhs)) :
    ∃ left right, line.toList = left ++ '=' :: right ∧
      target = String.ofList (Text.trim left) ∧ rhs = String.ofList (Text.trim right) := by
  obtain ⟨-, left, right, hline, -, htarget, hrhs⟩ := assignment?_eq_some_iff.mp h
  exact ⟨left, right, hline, htarget, hrhs⟩

/-- A line with an equals sign is an assignment, unless two of them stand
together. -/
theorem exists_assignment? {line : String} (hequals : '=' ∈ line.toList)
    (hpair : ¬ ['=', '='] <:+: line.toList) :
    ∃ target rhs, assignment? line = some (target, rhs) := by
  obtain ⟨left, right, hline, hleft⟩ := List.eq_append_cons_of_mem hequals
  exact ⟨_, _, assignment?_eq_some_iff.mpr ⟨hpair, left, right, hline, hleft, rfl, rfl⟩⟩

theorem assignment?_eq_none_of_not_mem {line : String} (h : '=' ∉ line.toList) :
    assignment? line = none := by
  rw [Option.eq_none_iff_forall_ne_some]
  rintro ⟨target, rhs⟩ hsides
  obtain ⟨left, right, hline, -, -⟩ := assignment?_eq_some hsides
  exact h (by simp [hline])

/-- No pair of equals signs comes about in the right side. -/
theorem not_pair_rhs_of_assignment? {line target rhs : String}
    (h : assignment? line = some (target, rhs)) : ¬ ['=', '='] <:+: rhs.toList := by
  obtain ⟨hpair, left, right, hline, -, -, rfl⟩ := assignment?_eq_some_iff.mp h
  intro hrhs
  rw [String.toList_ofList] at hrhs
  obtain ⟨front, back, hright, -, -⟩ := Text.exists_trim right
  have htrim : Text.trim right <:+: right := ⟨front, back, hright.symm⟩
  have hsuffix : right <:+: line.toList := ⟨left ++ ['='], [], by simp [hline]⟩
  exact hpair (hrhs.trans (htrim.trans hsuffix))

theorem classify_of_assignment? {line target rhs : String} (s : Symbols)
    (h : assignment? line = some (target, rhs)) :
    classify line s = .assignment target rhs := by
  rw [classify, h]

theorem equals_mem_of_assignment? {line target rhs : String}
    (h : assignment? line = some (target, rhs)) : '=' ∈ line.toList := by
  obtain ⟨left, right, hline, -, -⟩ := assignment?_eq_some h
  rw [hline]
  exact List.mem_append_right _ List.mem_cons_self

/-- An equals sign ends a word, so the words of the sides are words of the
line. -/
theorem hasWord_of_assignment? {letter : Char} {line target rhs : String}
    (h : assignment? line = some (target, rhs))
    (hside : Text.hasWord letter target.toList = true ∨
      Text.hasWord letter rhs.toList = true) :
    Text.hasWord letter line.toList = true := by
  obtain ⟨left, right, hline, rfl, rfl⟩ := assignment?_eq_some h
  rw [String.toList_ofList, String.toList_ofList] at hside
  have hequals : Text.isWordChar '=' = false := by decide
  rw [hline]
  rcases hside with hleft | hright
  · have hback : ∀ c, ('=' :: right).head? = some c → Text.isWordChar c = false := by
      intro c hc
      obtain rfl := Option.some.inj hc
      exact hequals
    have hword : Text.hasWord letter ([] ++ left ++ '=' :: right) = true :=
      Text.hasWord_append (by simp) hback (Text.hasWord_of_trim hleft)
    rwa [List.nil_append] at hword
  · have hfront : ∀ c, (left ++ ['=']).getLast? = some c → Text.isWordChar c = false := by
      intro c hc
      rw [List.getLast?_concat] at hc
      obtain rfl := Option.some.inj hc
      exact hequals
    have hword : Text.hasWord letter (left ++ ['='] ++ right ++ []) = true :=
      Text.hasWord_append hfront (by simp) (Text.hasWord_of_trim hright)
    rwa [List.append_nil, List.append_assoc, List.singleton_append] at hword

/-- The right side has no blanks at its ends. -/
theorem not_isBlank_ends_of_assignment? {line target rhs : String}
    (h : assignment? line = some (target, rhs)) :
    (∀ c, rhs.toList.head? = some c → Text.isBlank c = false) ∧
      ∀ c, rhs.toList.getLast? = some c → Text.isBlank c = false := by
  obtain ⟨left, right, -, -, rfl⟩ := assignment?_eq_some h
  rw [String.toList_ofList]
  exact ⟨fun c hc => Text.isBlank_head_trim hc, fun c hc => Text.isBlank_getLast_trim hc⟩

end Request
end Calculator
