import Calculator.Value

/-!
# Replies

The successful outcomes of requests, with the number each stands for and the
text it is shown as.
-/

namespace Calculator

/-- The successful outcome of a request. -/
inductive Reply where
  | value (v : Value)
  | assigned (name : String) (v : Float)
  | defined (name : String)
  | functionValue (name : String) (input : Float) (output : Value)
  | inverted (name : String) (input target : Float)
  | graphed (name : String)
  | currency (amount : Float) (source target : String) (converted : Float)
  | unit (amount : Float) (source target : String) (converted : Float)
  deriving DecidableEq

namespace Reply

/-- The number that a reply stands for when it is assigned to a variable. -/
def number? : Reply → Option Float
  | value v => some v.toFloat
  | assigned _ v => some v
  | defined _ => none
  | functionValue _ _ output => some output.toFloat
  | inverted _ input _ => some input
  | graphed _ => none
  | currency _ _ _ converted => some converted
  | unit _ _ _ converted => some converted

/-- The text of a reply. -/
def text : Reply → String
  | value v => v.text
  | assigned name v => s!"{name} = {formatNumber v}"
  | defined name => s!"Function '{name}(x)' defined."
  | functionValue name input output => s!"{name}({formatNumber input}) = {output.text}"
  | inverted name input target => s!"{name}({formatNumber input}) = {formatNumber target}"
  | graphed name => s!"Graphing {name}(x)"
  | currency amount source target converted =>
    s!"{formatNumber amount} {source} = {formatPlaces 2 converted} {target}"
  | unit amount source target converted =>
    s!"{formatNumber amount} {source} = {formatNumber converted} {target}"

end Reply
end Calculator
