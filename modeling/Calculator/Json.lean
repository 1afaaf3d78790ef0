import Calculator.Decimal.Reading

/-!
# JSON texts

A strict reader of JSON: one value, with nothing but white space around it.  The
strings of a text are sequences of code units, written as characters or as
escapes; a string that names half of a surrogate pair alone is well formed but
has no characters.
-/

namespace Calculator

inductive Json where
  | null
  | bool (b : Bool)
  | number (negative : Bool) (magnitude : Decimal)
  /-- A string; no text if its escapes do not name characters. -/
  | string (text : Option String)
  | array (items : List Json)
  | object (members : List (Option String × Json))

namespace Json

/-- The white space between the parts of a text. -/
def isSpace (c : Char) : Bool :=
  c == ' ' || c == '\t' || c == '\n' || c == '\r'

def skipSpace (cs : List Char) : List Char :=
  cs.dropWhile isSpace

/-! ## Numbers -/

/-- The digits at the front of a text, of which there is at least one. -/
def readDigits? (cs : List Char) : Option (List Char × List Char) :=
  let digits := cs.takeWhile Char.isDigit
  if digits.isEmpty then none else some (digits, cs.dropWhile Char.isDigit)

/-- The integer part of a number, which has no superfluous zero in front. -/
def readWhole? : List Char → Option (List Char × List Char)
  | '0' :: cs => some (['0'], cs)
  | cs => readDigits? cs

/-- The fraction of a number, if there is a point. -/
def readFraction? : List Char → Option (List Char × List Char)
  | '.' :: cs => readDigits? cs
  | cs => some ([], cs)

/-- The exponent of a number, if there is its mark. -/
def readExponent? : List Char → Option (Int × List Char)
  | mark :: cs =>
    if mark == 'e' || mark == 'E' then
      match cs with
      | '-' :: cs =>
        (readDigits? cs).map fun (digits, rest) => (-(Decimal.digitsValue digits : Int), rest)
      | '+' :: cs =>
        (readDigits? cs).map fun (digits, rest) => ((Decimal.digitsValue digits : Int), rest)
      | cs =>
        (readDigits? cs).map fun (digits, rest) => ((Decimal.digitsValue digits : Int), rest)
    else some (0, mark :: cs)
  | [] => some (0, [])

/-- A number without its sign. -/
def readMagnitude? (cs : List Char) : Option (Decimal × List Char) := do
  let (whole, rest) ← readWhole? cs
  let (fraction, rest) ← readFraction? rest
  let (exponent, rest) ← readExponent? rest
  some (⟨Decimal.digitsValue (whole ++ fraction), exponent - fraction.length⟩, rest)

def readNumber? : List Char → Option (Json × List Char)
  | '-' :: cs => (readMagnitude? cs).map fun (d, rest) => (number true d, rest)
  | cs => (readMagnitude? cs).map fun (d, rest) => (number false d, rest)

/-! ## Strings -/

/-- A piece of a string: a character, or an escaped code unit. -/
inductive Piece where
  | char (c : Char)
  | unit (n : Nat)

/-- The characters that have a short escape. -/
def shortEscape? : Char → Option Char
  | '"' => some '"'
  | '\\' => some '\\'
  | '/' => some '/'
  | 'b' => some '\x08'
  | 'f' => some '\x0c'
  | 'n' => some '\n'
  | 'r' => some '\r'
  | 't' => some '\t'
  | _ => none

def hexDigit? (c : Char) : Option Nat :=
  if c.isDigit then some (c.toNat - '0'.toNat)
  else if 'a' ≤ c ∧ c ≤ 'f' then some (c.toNat - 'a'.toNat + 10)
  else if 'A' ≤ c ∧ c ≤ 'F' then some (c.toNat - 'A'.toNat + 10)
  else none

/-- The code unit that four hexadecimal digits name. -/
def codeUnit? (digits : List Char) : Option Nat :=
  digits.foldlM (fun n c => (hexDigit? c).map (16 * n + ·)) 0

/-- The pieces of a string up to its closing quote. -/
def readPieces? : List Char → Option (List Piece × List Char)
  | [] => none
  | '"' :: cs => some ([], cs)
  | '\\' :: 'u' :: h₁ :: h₂ :: h₃ :: h₄ :: cs => do
    let n ← codeUnit? [h₁, h₂, h₃, h₄]
    let (pieces, rest) ← readPieces? cs
    some (.unit n :: pieces, rest)
  | '\\' :: e :: cs => do
    let c ← shortEscape? e
    let (pieces, rest) ← readPieces? cs
    some (.char c :: pieces, rest)
  | c :: cs =>
    if c.toNat < 0x20 || c == '\\' then none
    else do
      let (pieces, rest) ← readPieces? cs
      some (.char c :: pieces, rest)

/-- The first half of a surrogate pair. -/
def isLeading (n : Nat) : Bool :=
  0xD800 ≤ n && n < 0xDC00

/-- The second half of a surrogate pair. -/
def isTrailing (n : Nat) : Bool :=
  0xDC00 ≤ n && n < 0xE000

/-- The characters of a string, if all of its code units name some. -/
def characters? : List Piece → Option (List Char)
  | [] => some []
  | .char c :: pieces => (characters? pieces).map (c :: ·)
  | .unit n :: .unit m :: pieces =>
    if isLeading n && isTrailing m then
      (characters? pieces).map
        (Char.ofNat (0x10000 + (n - 0xD800) * 0x400 + (m - 0xDC00)) :: ·)
    else if isLeading n || isTrailing n then none
    else (characters? (.unit m :: pieces)).map (Char.ofNat n :: ·)
  | .unit n :: pieces =>
    if isLeading n || isTrailing n then none
    else (characters? pieces).map (Char.ofNat n :: ·)

/-- A string behind its opening quote. -/
def readString? (cs : List Char) : Option (Option String × List Char) :=
  (readPieces? cs).map fun (pieces, rest) => ((characters? pieces).map String.ofList, rest)

/-! ## Values -/

mutual

/-- A value at the front of a text, with a bound on the nesting of calls. -/
def readValue? : Nat → List Char → Option (Json × List Char)
  | 0, _ => none
  | bound + 1, cs =>
    match skipSpace cs with
    | 'n' :: 'u' :: 'l' :: 'l' :: rest => some (null, rest)
    | 't' :: 'r' :: 'u' :: 'e' :: rest => some (bool true, rest)
    | 'f' :: 'a' :: 'l' :: 's' :: 'e' :: rest => some (bool false, rest)
    | '"' :: rest => (readString? rest).map fun (text, rest) => (string text, rest)
    | '[' :: rest =>
      match skipSpace rest with
      | ']' :: rest => some (array [], rest)
      | rest => (readItems? bound rest).map fun (items, rest) => (array items, rest)
    | '{' :: rest =>
      match skipSpace rest with
      | '}' :: rest => some (object [], rest)
      | rest => (readMembers? bound rest).map fun (members, rest) => (object members, rest)
    | rest => readNumber? rest

/-- The items of an array, of which there is at least one, and its closing
bracket. -/
def readItems? : Nat → List Char → Option (List Json × List Char)
  | 0, _ => none
  | bound + 1, cs => do
    let (item, rest) ← readValue? bound cs
    match skipSpace rest with
    | ',' :: rest =>
      let (items, rest) ← readItems? bound rest
      some (item :: items, rest)
    | ']' :: rest => some ([item], rest)
    | _ => none

/-- The members of an object, of which there is at least one, and its closing
brace. -/
def readMembers? : Nat → List Char → Option (List (Option String × Json) × List Char)
  | 0, _ => none
  | bound + 1, cs =>
    match skipSpace cs with
    | '"' :: rest => do
      let (key, rest) ← readString? rest
      match skipSpace rest with
      | ':' :: rest =>
        let (value, rest) ← readValue? bound rest
        match skipSpace rest with
        | ',' :: rest =>
          let (members, rest) ← readMembers? bound rest
          some ((key, value) :: members, rest)
        | '}' :: rest => some ([(key, value)], rest)
        | _ => none
      | _ => none
    | _ => none

end

/-- The value of a whole text.  Of two nested calls of the readers at least one
takes a character, which bounds their number. -/
def read? (text : String) : Option Json := do
  let cs := text.toList
  let (value, rest) ← readValue? (2 * cs.length + 2) cs
  if (skipSpace rest).isEmpty then some value else none

/-! ## Readers -/

/-- What reads texts as values. -/
class Reader where
  value? : String → Option Json

/-- Texts are read strictly unless there is another choice. -/
instance (priority := low) strictReader : Reader where
  value? := read?

/-! ## Doubles -/

/-- How numbers become doubles, infinite ones where they overflow.  Readers of
JSON need not give the nearest double. -/
class Doubles where
  ofDecimal : Decimal → Float

/-- The nearest doubles are taken unless there is another choice. -/
instance (priority := low) nearestDoubles : Doubles where
  ofDecimal := Decimal.toFloat

/-- The double that a number stands for; one that overflows has none. -/
def toFloat? [Doubles] : Json → Option Float
  | number negative magnitude =>
    let v := Doubles.ofDecimal magnitude
    if v.isFinite then some (Binary64.withSign negative v) else none
  | _ => none

end Json
end Calculator
