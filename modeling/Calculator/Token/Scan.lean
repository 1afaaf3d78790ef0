import Calculator.Text.Blank
import Calculator.Token.Basic

/-!
# Scanning

A text is cut into tokens from the left, each as long as its class allows, with
blanks in between.  Scanning stops at the end of the text or at the first
character that starts no token; the tokens in front of it still count.
-/

namespace Calculator
namespace Token

def isNameStart (c : Char) : Bool :=
  c.isAlpha || c == '_'

def isNameChar (c : Char) : Bool :=
  c.isAlphanum || c == '_'

def isDigitOrPoint (c : Char) : Bool :=
  c.isDigit || c == '.'

/-- The letters that announce a radix after a leading zero. -/
def isRadixLetter (c : Char) : Bool :=
  c == 'x' || c == 'X' || c == 'o' || c == 'O' || c == 'b' || c == 'B'

/-- The exponent part at the front of a text: a letter, an optional sign and at
least one digit.  Anything less is no exponent part and is left alone. -/
def exponentPart : List Char → List Char
  | mark :: cs =>
    if mark == 'e' || mark == 'E' then
      match cs with
      | sign :: digits =>
        if sign == '+' || sign == '-' then
          let run := digits.takeWhile Char.isDigit
          if run.isEmpty then [] else mark :: sign :: run
        else
          let run := cs.takeWhile Char.isDigit
          if run.isEmpty then [] else mark :: run
      | [] => []
    else []
  | [] => []

/-- The number literal at the front of a text that starts with a digit or a
point. -/
def numberPart (cs : List Char) : List Char :=
  match cs with
  | '0' :: letter :: rest =>
    if isRadixLetter letter then '0' :: letter :: rest.takeWhile isNameChar
    else plain cs
  | _ => plain cs
where
  plain (cs : List Char) : List Char :=
    cs.takeWhile isDigitOrPoint ++ exponentPart (cs.dropWhile isDigitOrPoint)

/-- Whether a number literal starts with `c`, followed by `cs`. -/
def startsNumber (c : Char) (cs : List Char) : Bool :=
  c.isDigit || (c == '.' && cs.head?.any Char.isDigit)

/-- The token that starts with `c`, followed by `cs`. -/
def first? (c : Char) (cs : List Char) : Option Token :=
  if startsNumber c cs then some (.number (String.ofList (numberPart (c :: cs))))
  else if isNameStart c then
    some (.identifier (String.ofList ((c :: cs).takeWhile isNameChar)))
  else
    match c with
    | '+' => some (.operator .plus)
    | '-' => some (.operator .minus)
    | '*' => if cs.head? = some '*' then some (.operator .starStar) else some (.operator .star)
    | '/' => some (.operator .slash)
    | '^' => some (.operator .caret)
    | '%' => some (.operator .percent)
    | '(' => some .openParen
    | ')' => some .closeParen
    | ',' => some .comma
    | _ => none

/-- The number of characters that a token takes up. -/
def width (t : Token) : Nat :=
  t.content.length

/-- What scanning a text yields. -/
structure Scanned where
  tokens : List Token
  /-- The character that starts no token, if scanning stopped at one. -/
  stopped : Option Char

/-- The tokens of a text, up to its end or to a character that starts none.

Every token has at least one character, the one it was recognised by, so the
rest of the text is always shorter. -/
def scan (cs : List Char) : Scanned :=
  match cs with
  | [] => ⟨[], none⟩
  | c :: cs =>
    if Text.isBlank c then scan cs
    else
      match first? c cs with
      | none => ⟨[], some c⟩
      | some t =>
        let rest := scan (cs.drop (t.width - 1))
        ⟨t :: rest.tokens, rest.stopped⟩
termination_by cs.length
decreasing_by
  · simp
  · simp only [List.length_drop, List.length_cons]
    omega

theorem scan_nil : scan [] = ⟨[], none⟩ := by
  unfold scan
  rfl

/-- A token at the front is scanned before the rest. -/
theorem scan_of_first? {c : Char} {cs rest : List Char} {t : Token} {ts : List Token}
    {stopped : Option Char} (hblank : Text.isBlank c = false) (hfirst : first? c cs = some t)
    (hdrop : cs.drop (t.width - 1) = rest) (hrest : scan rest = ⟨ts, stopped⟩) :
    scan (c :: cs) = ⟨t :: ts, stopped⟩ := by
  unfold scan
  rw [hblank, if_neg Bool.false_ne_true, hfirst]
  dsimp only
  rw [hdrop, hrest]

end Token
end Calculator
