import Calculator.Json
import Calculator.Proofs.Decimal.Spelling
import Calculator.Proofs.Radix.Digits

/-!
# The grammar of JSON texts

Which texts stand for which value, said without the reader.  A value has white space around it
or none; the items of an array and the members of an object are joined by commas, so there is
none behind the last.  Strings are made up of pieces, and a string has characters only if its
code units name some.
-/

namespace Calculator
namespace Json

/-- White space, or nothing. -/
def IsGap (cs : List Char) : Prop :=
  ∀ c ∈ cs, isSpace c = true

/-! ## Numbers -/

/-- The digits of an integer part: a zero stands alone only. -/
structure IsWhole (digits : List Char) : Prop where
  ne_nil : digits ≠ []
  isDigit : ∀ c ∈ digits, c.isDigit = true
  leading : ∀ rest, digits = '0' :: rest → rest = []

/-- The text is a number without its sign, and stands for the decimal. -/
inductive IsMagnitude : List Char → Decimal → Prop where
  | whole {whole exponent : List Char} {e : Int} (hwhole : IsWhole whole)
      (hexponent : Decimal.IsExponent exponent e) :
      IsMagnitude (whole ++ exponent) ⟨Decimal.digitsValue whole, e⟩
  | fraction {whole fraction exponent : List Char} {e : Int} (hwhole : IsWhole whole)
      (hne : fraction ≠ []) (hfraction : ∀ c ∈ fraction, c.isDigit = true)
      (hexponent : Decimal.IsExponent exponent e) :
      IsMagnitude (whole ++ '.' :: (fraction ++ exponent))
        ⟨Decimal.digitsValue (whole ++ fraction), e - fraction.length⟩

/-! ## Strings -/

/-- The letters of the short escapes, with the characters they stand for. -/
def shortEscapes : List (Char × Char) :=
  [('"', '"'), ('\\', '\\'), ('/', '/'), ('b', '\x08'), ('f', '\x0c'), ('n', '\n'), ('r', '\r'),
    ('t', '\t')]

/-- The text between the quotes of a string, and its pieces. -/
inductive IsPieces : List Char → List Piece → Prop where
  | nil : IsPieces [] []
  | char {c : Char} {cs : List Char} {pieces : List Piece} (hcontrol : 0x20 ≤ c.toNat)
      (hquote : c ≠ '"') (hescape : c ≠ '\\') (h : IsPieces cs pieces) :
      IsPieces (c :: cs) (.char c :: pieces)
  | short {letter c : Char} {cs : List Char} {pieces : List Piece}
      (hshort : (letter, c) ∈ shortEscapes) (h : IsPieces cs pieces) :
      IsPieces ('\\' :: letter :: cs) (.char c :: pieces)
  | unit {digits cs : List Char} {pieces : List Piece} (hlength : digits.length = 4)
      (hdigits : ∀ c ∈ digits, Radix.digitOf c.toLower < 16) (h : IsPieces cs pieces) :
      IsPieces ('\\' :: 'u' :: (digits ++ cs))
        (.unit (Radix.placesValue 16 (digits.map Char.toLower) 0) :: pieces)

/-- The characters that pieces name.  A code unit of its own names a character, unless it is
half of a surrogate pair, and the two halves name one together. -/
inductive Names : List Piece → List Char → Prop where
  | nil : Names [] []
  | char {c : Char} {pieces : List Piece} {cs : List Char} (h : Names pieces cs) :
      Names (.char c :: pieces) (c :: cs)
  | unit {n : Nat} {pieces : List Piece} {cs : List Char} (hn : n < 0xD800 ∨ 0xE000 ≤ n)
      (h : Names pieces cs) : Names (.unit n :: pieces) (Char.ofNat n :: cs)
  | pair {n m : Nat} {pieces : List Piece} {cs : List Char} (hn : 0xD800 ≤ n ∧ n < 0xDC00)
      (hm : 0xDC00 ≤ m ∧ m < 0xE000) (h : Names pieces cs) :
      Names (.unit n :: .unit m :: pieces)
        (Char.ofNat (0x10000 + (n - 0xD800) * 0x400 + (m - 0xDC00)) :: cs)

/-- The text between the quotes of a string, and the text of the string, if its pieces name
characters. -/
def IsString (cs : List Char) (text : Option String) : Prop :=
  ∃ pieces, IsPieces cs pieces ∧ ∀ s : String, text = some s ↔ Names pieces s.toList

/-! ## Values -/

/-- A member of an object as it stands in the text, with what its parts stand for. -/
structure Member where
  keyText : List Char
  key : Option String
  valueText : List Char
  value : Json

namespace Member

def text (m : Member) : List Char :=
  m.keyText ++ ':' :: m.valueText

/-- The key is a string with white space around it or none. -/
def HasKey (m : Member) : Prop :=
  ∃ front core back, m.keyText = front ++ '"' :: (core ++ '"' :: back) ∧ IsGap front ∧
    IsGap back ∧ IsString core m.key

end Member

/-- The text stands for the value, with white space around it or none. -/
inductive Spells : List Char → Json → Prop where
  | null : Spells ['n', 'u', 'l', 'l'] .null
  | yes : Spells ['t', 'r', 'u', 'e'] (.bool true)
  | no : Spells ['f', 'a', 'l', 's', 'e'] (.bool false)
  | positive {cs : List Char} {d : Decimal} (h : IsMagnitude cs d) : Spells cs (.number false d)
  | negative {cs : List Char} {d : Decimal} (h : IsMagnitude cs d) :
      Spells ('-' :: cs) (.number true d)
  | string {cs : List Char} {text : Option String} (h : IsString cs text) :
      Spells ('"' :: (cs ++ ['"'])) (.string text)
  | noItems {gap : List Char} (hgap : IsGap gap) : Spells ('[' :: (gap ++ [']'])) (.array [])
  | array {items : List (List Char × Json)} (hne : items ≠ [])
      (h : ∀ item ∈ items, Spells item.1 item.2) :
      Spells ('[' :: ([','].intercalate (items.map Prod.fst) ++ [']']))
        (.array (items.map Prod.snd))
  | noMembers {gap : List Char} (hgap : IsGap gap) : Spells ('{' :: (gap ++ ['}'])) (.object [])
  | object {members : List Member} (hne : members ≠ []) (hkeys : ∀ m ∈ members, m.HasKey)
      (h : ∀ m ∈ members, Spells m.valueText m.value) :
      Spells ('{' :: ([','].intercalate (members.map Member.text) ++ ['}']))
        (.object (members.map fun m => (m.key, m.value)))
  | spaced {front cs back : List Char} {v : Json} (hfront : IsGap front) (hback : IsGap back)
      (h : Spells cs v) : Spells (front ++ (cs ++ back)) v

end Json
end Calculator
