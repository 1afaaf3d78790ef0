import Calculator.Text.Blank
import Calculator.Token.Scan

/-!
# Assignment targets

The left side of an assignment is a name, which may contain spaces but not end
in one, optionally followed by the parameter `(x)`.
-/

namespace Calculator

/-- The left side of an assignment. -/
structure Target where
  name : String
  /-- Whether the parameter follows the name. -/
  hasParameter : Bool
  deriving DecidableEq

namespace Target

/-- The characters of a name after its first one. -/
def isNameChar (c : Char) : Bool :=
  Token.isNameChar c || c == ' '

/-- Whether a text is the parameter in parentheses. -/
def isParameter : List Char → Bool
  | '(' :: cs =>
    match Text.trimStart cs with
    | 'x' :: rest => Text.trimStart rest == [')']
    | _ => false
  | _ => false

/-- The target that a text stands for.  The stretch of name characters may run
into the spaces behind the name, which are given back. -/
def read? (text : String) : Option Target :=
  let cs := text.toList
  let stretch := cs.takeWhile isNameChar
  let rest := Text.trimStart (cs.dropWhile isNameChar)
  let name := String.ofList (Text.trimEnd stretch)
  if !cs.head?.any Token.isNameStart then none
  else if rest.isEmpty then some ⟨name, false⟩
  else if isParameter rest then some ⟨name, true⟩
  else none

end Target
end Calculator
