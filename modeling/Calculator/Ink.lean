/-!
# Coloured text

Colour is switched on and off by escape sequences around a text.  Where the text
itself switches colour off, its colour is switched on again behind that place.
-/

namespace Calculator

inductive Ink where
  | red
  | green
  | yellow
  | cyan
  deriving DecidableEq

namespace Ink

def code : Ink → String
  | red => "31"
  | green => "32"
  | yellow => "33"
  | cyan => "36"

/-- The sequence that switches a colour on. -/
def start (ink : Ink) : List Char :=
  '\x1b' :: '[' :: ink.code.toList ++ ['m']

/-- The sequence that switches colours off. -/
def reset : List Char :=
  ['\x1b', '[', '0', 'm']

/-- Switches the colour on again wherever the text switches it off. -/
def resume (on : List Char) : List Char → List Char
  | '\x1b' :: '[' :: '0' :: 'm' :: cs => reset ++ on ++ resume on cs
  | c :: cs => c :: resume on cs
  | [] => []

/-- The text in colour, or as it is where colours are off. -/
def paint (ink : Ink) (colored : Bool) (text : String) : String :=
  if colored then String.ofList (ink.start ++ resume ink.start text.toList ++ reset)
  else text

end Ink
end Calculator
