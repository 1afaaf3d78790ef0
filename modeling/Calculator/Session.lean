import Calculator.Conversion.Unit
import Calculator.Evaluation
import Calculator.Graph.Chart
import Calculator.Inversion
import Calculator.Reply
import Calculator.Request
import Calculator.Target
import Calculator.Text.Word

/-!
# Sessions

Carrying out one input line: the line is sorted into a request, and the request
is answered against the symbols of the session.  The symbols after the line are
part of the outcome whether or not the line succeeds, and so is what was handed
to the plotter on the way.

The right side of an assignment is itself a line, unless the assignment defines
a function.
-/

namespace Calculator

/-- What turns one unit of a currency into another, if a rate is known. -/
abbrev RateSource := (source target : String) → Option Float

/-- What carrying out a line leads to. -/
structure Outcome where
  result : Except LineError Reply
  symbols : Symbols
  plots : List Samples := []

namespace Session

/-- Names that the syntax of requests needs for itself. -/
def reserved : List String :=
  [freeVariable, lastAnswerName, Directive.evaluate.keyword, Directive.graph.keyword]

/-- An outcome that changes nothing. -/
def unchanged (s : Symbols) (result : Except LineError Reply) : Outcome :=
  ⟨result, s, []⟩

/-- Whether the right side of an assignment is the body of a function: because
of the parameter on the left, or because `x` occurs in it.  In a text that does
not parse, `x` has to stand as a whole word. -/
def definesFunction (target : Target) (rhs : String) : Bool :=
  target.hasParameter ||
    match Expr.parse rhs with
    | .ok body => body.mentions freeVariable
    | .error _ => Text.hasWord 'x' rhs.toList

/-- Stores the text of a function, which is parsed when the function is used. -/
def defineFunction (s : Symbols) (name rhs : String) : Outcome :=
  if rhs.isEmpty then unchanged s (.error (.invalidDefinition .abruptEnd))
  else ⟨.ok (.defined name), s.define name (.ofSource rhs), []⟩

/-- Stores the number of a reply, if it has one, under a name. -/
def assignReply (name : String) (inner : Outcome) : Outcome :=
  match inner.result with
  | .error e => { inner with result := .error e }
  | .ok reply =>
    match reply.number? with
    | none => { inner with result := .error (.evaluation .notANumber) }
    | some v =>
      { inner with
        result := .ok (.assigned name v)
        symbols := inner.symbols.setVariable name v }

/-- Answers a currency conversion; codes are looked up in upper case. -/
def convertCurrency (rates : RateSource) (s : Symbols) (amount : Float) (c : Conversion) :
    Outcome :=
  let source := c.source.map Char.toUpper
  let target := c.target.map Char.toUpper
  unchanged s <|
    match rates source target with
    | some rate => .ok (.currency amount source target (amount * rate))
    | none => .error (.conversionUnavailable source target)

/-- Answers a unit conversion; the registry decides which there are. -/
def convertUnit (s : Symbols) (amount : Float) (c : Conversion) : Outcome :=
  unchanged s <|
    match UnitConversion.find? c.key with
    | some conversion => .ok (.unit amount c.source c.target (conversion.apply amount))
    | none => .error (.unsupportedConversion c.key)

variable [Elementary]

/-- The name of an assignment target, if it may be stored. -/
def targetName (target : String) : Except LineError Target :=
  match Target.read? target with
  | none => .error (.invalidName target)
  | some t =>
    if Builtin.isName t.name || reserved.contains t.name then .error (.invalidName t.name)
    else .ok t

/-- Answers an arithmetic line, whose value becomes the last answer. -/
def arithmetic (s : Symbols) (expression : String) : Outcome :=
  match Expr.parse expression >>= s.evaluate with
  | .error e => unchanged s (.error (.evaluation e))
  | .ok v => ⟨.ok (.value v), s.setLastAnswer v.toFloat, []⟩

/-- Answers `evaluate f for x == v` and `evaluate f for y == v`. -/
def evaluateFunction (s : Symbols) (words : List String) : Except LineError Reply :=
  match words with
  | [_, name, "for", axis, "==", operand] =>
    match s.operand? operand with
    | none => .error (.invalidSyntax .evaluate)
    | some v =>
      match s.functionOf? name with
      | none => .error (.undefinedFunction name)
      | some d =>
        if axis = freeVariable then
          match s.apply name d v with
          | .ok output => .ok (.functionValue name v output)
          | .error e => .error (.evaluation e)
        else if axis = "y" then
          let f (x : Float) : Id (Except EvalError Float) :=
            (s.apply name d x).map Value.toFloat
          match (Inversion.findInput f v).run with
          | some input => .ok (.inverted name input v)
          | none => .error (.rootNotFound name v Inversion.maxSteps)
        else .error (.invalidVariable axis)
  | _ => .error (.invalidSyntax .evaluate)

/-- The samples of a user function for a graph. -/
def sample (s : Symbols) (name : String) (d : Definition) : Samples where
  name := name
  xs := Graph.samplePoints
  ys := Graph.samplePoints.map fun x =>
    match s.apply name d x with
    | .ok v => v.toFloat
    | .error _ => Binary64.nan

/-- Answers `graph f` by handing the samples of the function to the plotter. -/
def graph (s : Symbols) (words : List String) : Outcome :=
  match words with
  | [_, name] =>
    match s.functionOf? name with
    | none => unchanged s (.error (.undefinedFunction name))
    | some d => ⟨.ok (.graphed name), s, [sample s name d]⟩
  | _ => unchanged s (.error (.invalidSyntax .graph))

/-- Carries out a line. -/
def process (rates : RateSource) (s : Symbols) (line : String) : Outcome :=
  match _hclass : Request.classify (trimLine line) s with
  | .assignment target rhs =>
    match targetName target with
    | .error e => unchanged s (.error e)
    | .ok t =>
      if definesFunction t rhs then defineFunction s t.name rhs
      else assignReply t.name (process rates s rhs)
  | .evaluation words => unchanged s (evaluateFunction s words)
  | .graph words => graph s words
  | .currency amount conversion => convertCurrency rates s amount conversion
  | .unit amount conversion => convertUnit s amount conversion
  | .arithmetic expression => arithmetic s expression
termination_by line.length
decreasing_by
  exact Nat.lt_of_lt_of_le (Request.length_rhs_lt_of_classify _hclass)
    (Request.length_trimLine_le line)

end Session
end Calculator
