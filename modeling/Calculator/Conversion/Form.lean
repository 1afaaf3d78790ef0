import Calculator.Text.Blank
import Calculator.Text.Digit
import Calculator.Text.Letter

/-!
# The form of conversion lines

A conversion line reads `<amount> <from> to <to>`.  Currencies and units have the
same form and differ only in the codes they admit.  An amount in digits need not
be separated from the code; it then takes as many digits as leave a line of the
right form.
-/

namespace Calculator

/-- The quantity of a conversion: a literal, or a name still to be resolved. -/
inductive Amount where
  | literal (text : String)
  | name (text : String)
  deriving DecidableEq

/-- A conversion as it stands in the line. -/
structure Conversion where
  amount : Amount
  source : String
  target : String
  deriving DecidableEq

namespace Conversion

/-- The key of a conversion among the registered ones. -/
def key (c : Conversion) : String :=
  c.source ++ " to " ++ c.target

/-- The codes that a kind of conversion admits. -/
structure Vocabulary where
  isCodeChar : Char → Bool
  /-- Whether a stretch of code characters is a code. -/
  isCode : List Char → Bool

/-- Currencies have codes of three letters. -/
def currencies : Vocabulary where
  isCodeChar := Text.isFoldedLetter
  isCode code := code.length == 3

/-- Units have names over letters, digits and a few signs. -/
def units : Vocabulary where
  isCodeChar c :=
    Text.isFoldedLetter c || c.isDigit || c == '^' || c == '/' || c == '(' || c == ')'
  isCode code := !code.isEmpty

/-- Drops the blanks at the front, of which there must be at least one. -/
def skipGap? : List Char → Option (List Char)
  | c :: cs => if Text.isBlank c then some (Text.trimStart cs) else none
  | [] => none

/-- A code at the front and the rest behind it. -/
def readCode? (v : Vocabulary) (cs : List Char) : Option (List Char × List Char) :=
  let code := cs.takeWhile v.isCodeChar
  if v.isCode code then some (code, cs.dropWhile v.isCodeChar) else none

/-- The word `to` in any case at the front, dropped. -/
def skipTo? : List Char → Option (List Char)
  | t :: o :: cs => if Text.isLetterIn 't' t && Text.isLetterIn 'o' o then some cs else none
  | _ => none

/-- Reads `<from> to <to>` to the end of the line. -/
def readCodes? (v : Vocabulary) (cs : List Char) : Option (List Char × List Char) := do
  let (source, rest) ← readCode? v cs
  let rest ← skipGap? rest
  let rest ← skipTo? rest
  let rest ← skipGap? rest
  let (target, rest) ← readCode? v rest
  if rest.all Text.isBlank then some (source, target) else none

/-- Whether a text is one or more decimal digits. -/
def isDigits (cs : List Char) : Bool :=
  !cs.isEmpty && cs.all Text.isDecimalDigit

/-- Whether a text is an amount in digits: an optional minus sign, digits, and
optionally a point and more digits. -/
def isLiteral (cs : List Char) : Bool :=
  let unsigned :=
    match cs with
    | '-' :: rest => rest
    | rest => rest
  match Text.splitAtFirst '.' unsigned with
  | none => isDigits unsigned
  | some (whole, fraction) => isDigits whole && isDigits fraction

/-- The characters of amounts in digits. -/
def isLiteralChar (c : Char) : Bool :=
  Text.isDecimalDigit c || c == '-' || c == '.'

/-- The longest amount that leaves codes behind it.  The candidate is given in
reverse, so that giving up its last character is one step. -/
def readLiteral? (v : Vocabulary) :
    (candidate rest : List Char) → Option (List Char × List Char × List Char)
  | [], _ => none
  | c :: candidate, rest =>
    let codes :=
      (readCodes? v (Text.trimStart rest)).filter fun _ => isLiteral (c :: candidate).reverse
    match codes with
    | some (source, target) => some ((c :: candidate).reverse, source, target)
    | none => readLiteral? v candidate (c :: rest)

/-- Reads a conversion line whose amount is in digits. -/
def readWithLiteral? (v : Vocabulary) (cs : List Char) : Option Conversion :=
  (readLiteral? v (cs.takeWhile isLiteralChar).reverse (cs.dropWhile isLiteralChar)).map
    fun (amount, source, target) =>
      ⟨.literal (String.ofList amount), String.ofList source, String.ofList target⟩

/-- Reads a conversion line whose amount is a name. -/
def readWithName? (v : Vocabulary) (cs : List Char) : Option Conversion := do
  let c ← cs.head?
  if Text.isFoldedLetter c || c == '_' then
    let name := cs.takeWhile Text.isFoldedNameChar
    let rest ← skipGap? (cs.dropWhile Text.isFoldedNameChar)
    let (source, target) ← readCodes? v rest
    some ⟨.name (String.ofList name), String.ofList source, String.ofList target⟩
  else none

/-- Reads a conversion line. -/
def read? (v : Vocabulary) (line : String) : Option Conversion :=
  readWithLiteral? v line.toList <|> readWithName? v line.toList

/-- A currency conversion, if the line has the form of one. -/
def currency? (line : String) : Option Conversion :=
  read? currencies line

/-- A unit conversion, if the line has the form of one. -/
def unit? (line : String) : Option Conversion :=
  read? units line

end Conversion
end Calculator
