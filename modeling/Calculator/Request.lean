import Calculator.Conversion.Form
import Calculator.Decimal.Reading
import Calculator.Symbols

/-!
# Requests

What an input line asks for.  The kinds are tried in a fixed order, and nothing
is evaluated before the kind is settled; only whether a named amount has a value
is looked up.
-/

namespace Calculator

/-- What an input line asks for. -/
inductive Request where
  | assignment (target rhs : String)
  | evaluation (words : List String)
  | graph (words : List String)
  | currency (amount : Float) (conversion : Conversion)
  | unit (amount : Float) (conversion : Conversion)
  | arithmetic (expression : String)
  deriving DecidableEq

/-- Drops the blanks at both ends of a line. -/
def trimLine (line : String) : String :=
  String.ofList (Text.trim line.toList)

namespace Symbols

/-- The number that a literal, the last answer or a variable stands for, in this
order. -/
def operand? (s : Symbols) (token : String) : Option Float :=
  match Decimal.read? token.toList with
  | some v => some v
  | none => if token == lastAnswerName then some s.lastAnswer else s.valueOf? token

/-- The number that the amount of a conversion stands for. -/
def amount? (s : Symbols) : Amount → Option Float
  | .literal text => Decimal.read? text.toList
  | .name text => s.operand? text

end Symbols

namespace Request

/-- The two sides of an assignment.  A line with a double equals sign anywhere
is none. -/
def assignment? (line : String) : Option (String × String) :=
  if Text.containsPair '=' '=' line.toList then none
  else
    (Text.splitAtFirst '=' line.toList).map fun (left, right) =>
      (String.ofList (Text.trim left), String.ofList (Text.trim right))

/-- The conversion of a form, if its amount has a value. -/
def conversion? (form : String → Option Conversion) (line : String) (s : Symbols) :
    Option (Float × Conversion) := do
  let conversion ← form line
  let amount ← s.amount? conversion.amount
  some (amount, conversion)

/-- Sorts a line without blanks at its ends into a request. -/
def classify (line : String) (s : Symbols) : Request :=
  match assignment? line with
  | some (target, rhs) => .assignment target rhs
  | none =>
    let words := (Text.words line.toList).map String.ofList
    if words.head? = some Directive.evaluate.keyword then .evaluation words
    else if words.head? = some Directive.graph.keyword then .graph words
    else
      match conversion? Conversion.currency? line s with
      | some (amount, conversion) => .currency amount conversion
      | none =>
        match conversion? Conversion.unit? line s with
        | some (amount, conversion) => .unit amount conversion
        | none => .arithmetic line

theorem length_trimLine_le (line : String) : (trimLine line).length ≤ line.length := by
  rw [← String.length_toList, ← String.length_toList]
  simpa [trimLine] using Text.length_trim_le line.toList

/-- Only the two sides of an assignment make a line one. -/
theorem assignment?_of_classify
    {line target rhs : String} {s : Symbols}
    (h : classify line s = .assignment target rhs) :
    assignment? line = some (target, rhs) := by
  revert h
  unfold classify
  split
  · intro h
    cases h
    assumption
  · dsimp only
    split
    · simp
    · split
      · simp
      · split
        · simp
        · split <;> simp

/-- The right side of an assignment is shorter than the line. -/
theorem length_rhs_lt_of_classify
    {line target rhs : String} {s : Symbols}
    (h : classify line s = .assignment target rhs) :
    rhs.length < line.length := by
  have hsides := assignment?_of_classify h
  unfold assignment? at hsides
  split at hsides
  · simp at hsides
  · simp only [Option.map_eq_some_iff] at hsides
    obtain ⟨⟨left, right⟩, hsplit, heq⟩ := hsides
    cases heq
    have hlen := Text.length_of_splitAtFirst hsplit
    have htrim := Text.length_trim_le right
    rw [← String.length_toList, ← String.length_toList]
    simp only [String.toList_ofList]
    omega

end Request
end Calculator
