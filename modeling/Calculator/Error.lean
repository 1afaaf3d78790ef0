import Calculator.Decimal.Layout

/-!
# Errors and their messages

Two kinds of error: those of an expression, and those of an input line, which
include the first kind.  Each constructor is a cause; the wording is in
`message` alone.
-/

namespace Calculator

/-- Why an expression has no value. -/
inductive EvalError where
  | invalidCharacter (c : Char)
  | invalidNumber (literal : String)
  | misplacedOperator (symbol : String)
  | unexpected (token : String)
  | missing (token : String)
  | undefined (name : String)
  | abruptEnd
  | divisionByZero
  | wrongArity (name : String) (least most found : Nat)
  | domain (name : String)
  | notAValue (name : String)
  | notCallable (name : String)
  | recursionLimit (name : String)
  | notANumber
  | tooDeep
  deriving DecidableEq

namespace EvalError

/-- How many arguments a function takes, in words. -/
def arityText (least most : Nat) : String :=
  if least = most then toString least else s!"{least} to {most}"

def message : EvalError → String
  | invalidCharacter c => s!"invalid character, '{c}', encountered"
  | invalidNumber literal => s!"'{literal}' is not a valid number"
  | misplacedOperator symbol => s!"the '{symbol}' operator has been misplaced"
  | unexpected token => s!"did not expect '{token}'"
  | missing token => s!"could not find '{token}'"
  | undefined name => s!"identifier, '{name}', is not defined"
  | abruptEnd => "expression ended abruptly"
  | divisionByZero => "division by zero"
  | wrongArity name least most found =>
    s!"'{name}' takes {arityText least most} argument(s) but {found} were given"
  | domain name => s!"math domain error in '{name}'"
  | notAValue name => s!"'{name}' is a function and must be called"
  | notCallable name => s!"'{name}' is a value and cannot be called"
  | recursionLimit name => s!"call depth exceeded while evaluating '{name}'"
  | notANumber => "could not convert result to a number"
  | tooDeep => "expression nests too deeply"

end EvalError

/-- The lines that start with a keyword of their own. -/
inductive Directive where
  | evaluate
  | graph
  deriving DecidableEq

namespace Directive

def keyword : Directive → String
  | evaluate => "evaluate"
  | graph => "graph"

/-- The form of the whole line. -/
def usage : Directive → String
  | evaluate => "evaluate <function> for <x|y> == <value>"
  | graph => "graph <function>"

end Directive

/-- Why an input line could not be carried out. -/
inductive LineError where
  | invalidName (name : String)
  | invalidDefinition (cause : EvalError)
  | invalidSyntax (directive : Directive)
  | invalidVariable (name : String)
  | undefinedFunction (name : String)
  | conversionUnavailable (source target : String)
  | unsupportedConversion (key : String)
  | evaluation (cause : EvalError)
  | rootNotFound (name : String) (target : Float) (steps : Nat)
  deriving DecidableEq

namespace LineError

def message : LineError → String
  | invalidName name => s!"invalid variable or function name '{name}'"
  | invalidDefinition cause => s!"invalid function definition - {cause.message}"
  | invalidSyntax directive => s!"invalid syntax, expected '{directive.usage}'"
  | invalidVariable name => s!"invalid variable '{name}'"
  | undefinedFunction name => s!"function '{name}' not defined"
  | conversionUnavailable source target =>
    s!"unable to fetch exchange rate for {source} to {target}"
  | unsupportedConversion key => s!"unsupported unit conversion '{key}'"
  | evaluation cause => cause.message
  | rootNotFound name target steps =>
    s!"no x found with {name}(x) = {formatNumber target} after {steps} steps"

end LineError
end Calculator
