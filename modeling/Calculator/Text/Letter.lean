/-!
# Latin letters without regard to case

Case-insensitive patterns compare characters by simple case folding.  Two
characters outside ASCII fold to a Latin letter, the long s and the kelvin
sign, so they count as letters wherever case does not matter.
-/

namespace Calculator
namespace Text

/-- The characters that fold to one of the letters `a` to `z`. -/
def isFoldedLetter (c : Char) : Bool :=
  c.isAlpha || c == '\u017f' || c == '\u212a'

/-- The characters of a name in a pattern that ignores case. -/
def isFoldedNameChar (c : Char) : Bool :=
  isFoldedLetter c || c.isDigit || c == '_'

/-- Whether two characters are the same ASCII letter up to case. -/
def isLetterIn (letter : Char) (c : Char) : Bool :=
  c == letter || c == letter.toUpper

end Text
end Calculator
