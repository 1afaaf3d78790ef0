import Calculator.Proofs.Request.Assignment
import Calculator.Proofs.Request.Target

/-!
# Chained assignments

A chain `n₁ = n₂ = … = nₖ = r` is read from the left, one equals sign at a time.
What the readings come to is what the equals signs cut the line into, all at
once.
-/

namespace Calculator
namespace Request

/-- What stands between the equals signs of a line, without blanks around it. -/
def pieces (line : String) : List String :=
  (line.toList.splitOn '=').map fun piece => String.ofList (Text.trim piece)

theorem pieces_eq (line : String) :
    pieces line = ((line.toList.splitOn '=').map Text.trim).map String.ofList := by
  rw [pieces, List.map_map]
  rfl

theorem pieces_ofList_trim (cs : List Char) :
    pieces (String.ofList (Text.trim cs)) = pieces (String.ofList cs) := by
  rw [pieces_eq, pieces_eq, String.toList_ofList, String.toList_ofList,
    Text.map_trim_splitOn_trim (by decide)]

theorem pieces_of_not_mem {line : String} (h : '=' ∉ line.toList) :
    pieces line = [trimLine line] := by
  rw [pieces, List.splitOn_eq_singleton h, List.map_singleton, trimLine]

/-- The first piece is the target, and the others are those of the right side. -/
theorem pieces_of_assignment? {line target rhs : String}
    (h : assignment? line = some (target, rhs)) : pieces line = target :: pieces rhs := by
  obtain ⟨-, left, right, hline, hleft, rfl, rfl⟩ := assignment?_eq_some_iff.mp h
  rw [pieces_ofList_trim, pieces, hline, List.splitOn_append_cons_self_of_not_mem hleft,
    List.map_cons, pieces, String.toList_ofList]

theorem trimLine_rhs_of_assignment? {line target rhs : String}
    (h : assignment? line = some (target, rhs)) : trimLine rhs = rhs := by
  obtain ⟨left, right, -, -, rfl⟩ := assignment?_eq_some h
  rw [trimLine, String.toList_ofList, Text.trim_trim]

end Request

namespace Target

/-- Without a parameter the whole target is the name. -/
theorem name_of_not_hasParameter {line text rhs : String} {t : Target}
    (hsides : Request.assignment? line = some (text, rhs)) (hread : read? text = some t)
    (hparameter : t.hasParameter = false) : t.name = text := by
  obtain ⟨left, right, -, rfl, -⟩ := Request.assignment?_eq_some hsides
  obtain ⟨-, hname, ⟨-, hpart⟩ | ⟨htrue, -⟩⟩ := read?_eq_some hread
  · have hblanks : ∀ c ∈ (Text.trim left).dropWhile isNameChar, Text.isBlank c = true := by
      rw [parameterPart, String.toList_ofList] at hpart
      exact List.dropWhile_eq_nil_iff.mp hpart
    have htext := Text.trimEnd_append_of_isBlank hblanks ((Text.trim left).takeWhile isNameChar)
    rw [List.takeWhile_append_dropWhile] at htext
    rw [hname, String.toList_ofList, ← htext, Text.trimEnd_trim]
  · rw [hparameter] at htrue
    cases htrue

end Target
end Calculator
