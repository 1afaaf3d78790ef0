/-!
# Stretches of code points

A class of characters that no simple rule describes is given by the stretches of
code points that it consists of.
-/

namespace Calculator
namespace Text

/-- Whether a character lies in one of the stretches, each given by its first and
last code point. -/
def isWithin (ranges : List (Nat × Nat)) (c : Char) : Bool :=
  ranges.any fun range => range.1 ≤ c.toNat && c.toNat ≤ range.2

end Text
end Calculator
