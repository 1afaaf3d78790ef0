/-!
# Elementary functions

The calculator takes the elementary functions on doubles as given.  The library
of the machine is one choice; what is said about expressions holds for every
choice.
-/

namespace Calculator

/-- A choice of elementary functions on doubles. -/
class Elementary where
  sin : Float → Float
  cos : Float → Float
  tan : Float → Float
  asin : Float → Float
  acos : Float → Float
  atan : Float → Float
  exp : Float → Float
  ln : Float → Float
  pow : Float → Float → Float

/-- The functions of the machine's mathematical library. -/
@[reducible]
def Elementary.machine : Elementary where
  sin := Float.sin
  cos := Float.cos
  tan := Float.tan
  asin := Float.asin
  acos := Float.acos
  atan := Float.atan
  exp := Float.exp
  ln := Float.log
  pow := Float.pow

end Calculator
