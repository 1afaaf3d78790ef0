import Calculator.Rates.Service
import Calculator.Text.Blank

/-!
# The command line

Options stand in front of the expression.  The first word that is no option
starts the expression and takes along everything behind it; a double hyphen in
front of the expression is dropped.  An option that takes a value takes it
after an equals sign or as the next word.

A value given as the next word is checked when the following word is dealt with,
so an excess value of that word is noticed first.
-/

namespace Calculator

/-- How much is logged. -/
inductive LogLevel where
  | off
  | error
  | warn
  | info
  | debug
  | trace
  deriving DecidableEq

namespace LogLevel

def name : LogLevel → String
  | off => "off"
  | error => "error"
  | warn => "warn"
  | info => "info"
  | debug => "debug"
  | trace => "trace"

/-- The level of a name, whose case matters. -/
def ofName? (s : String) : Option LogLevel :=
  [off, error, warn, info, debug, trace].find? (·.name == s)

end LogLevel

/-- Why a command line is not carried out. -/
inductive UsageError where
  | displayHelp
  | displayVersion
  | argumentConflict
  | invalidValue
  | tooManyValues
  | valueValidation
  deriving DecidableEq

/-- The settings of a run. -/
structure Settings where
  ratesAddress : String
  /-- How many seconds to wait for the rate service. -/
  timeout : Nat
  logLevel : LogLevel
  noColor : Bool
  expression : List String
  deriving DecidableEq

namespace CommandLine

/-- The options that take a value. -/
inductive Setting where
  | ratesAddress
  | timeout
  | logLevel
  deriving DecidableEq

/-- The options that take none. -/
inductive Flag where
  | noColor
  | help
  | version
  deriving DecidableEq

/-- The part that a word plays in front of the expression. -/
inductive Word where
  /-- The double hyphen. -/
  | separator
  | setting (option : Setting) (value : Option String)
  | flag (option : Flag)
  /-- An option that takes no value, with a value attached. -/
  | excessValue
  | other

/-- The part of an option with a long name. -/
def longWord (name : String) (value : Option String) : Word :=
  let flag (option : Flag) : Word := if value.isSome then .excessValue else .flag option
  match name with
  | "rates-url" => .setting .ratesAddress value
  | "timeout" => .setting .timeout value
  | "log-level" => .setting .logLevel value
  | "no-color" => flag .noColor
  | "help" => flag .help
  | "version" => flag .version
  | _ => .other

/-- The part of a group of one-letter options.  One unknown letter makes the
whole group an ordinary word. -/
def shortWord (letters : List Char) : Word :=
  if letters.all fun c => c == 'h' || c == 'V' then
    match letters with
    | 'h' :: _ => .flag .help
    | 'V' :: _ => .flag .version
    | _ => .other
  else .other

/-- The part that a word plays. -/
def sort (word : String) : Word :=
  match word.toList with
  | ['-', '-'] => .separator
  | '-' :: '-' :: rest =>
    match Text.splitAtFirst '=' rest with
    | none => longWord (String.ofList rest) none
    | some (name, value) => longWord (String.ofList name) (some (String.ofList value))
  | '-' :: letters => shortWord letters
  | _ => .other

/-- The largest number of seconds, the largest 64-bit word. -/
def maxTimeout : Nat := Nat.pow 2 64 - 1

/-- A number of seconds: digits after an optional plus sign. -/
def readTimeout? (value : String) : Option Nat :=
  let digits :=
    match value.toList with
    | '+' :: digits => digits
    | digits => digits
  (Radix.readNat? 10 digits).filter (· ≤ maxTimeout)

/-- The options given so far. -/
structure Given where
  ratesAddress : Option String := none
  timeout : Option Nat := none
  logLevel : Option LogLevel := none
  noColor : Bool := false
  /-- An option still to be settled, with its value if that has been met. -/
  pending : Option (Setting × Option String) := none

namespace Given

/-- Gives an option a value, unless it has one already. -/
def set (g : Given) (option : Setting) (value : String) : Except UsageError Given :=
  match option with
  | .ratesAddress =>
    if g.ratesAddress.isSome then .error .argumentConflict
    else .ok { g with ratesAddress := some value }
  | .timeout =>
    if g.timeout.isSome then .error .argumentConflict
    else
      match readTimeout? value with
      | some seconds => .ok { g with timeout := some seconds }
      | none => .error .valueValidation
  | .logLevel =>
    if g.logLevel.isSome then .error .argumentConflict
    else
      match LogLevel.ofName? value with
      | some level => .ok { g with logLevel := some level }
      | none => .error .invalidValue

/-- Settles the option that is still pending. -/
def settle (g : Given) : Except UsageError Given :=
  match g.pending with
  | none => .ok g
  | some (_, none) => .error .invalidValue
  | some (option, some value) => { g with pending := none }.set option value

end Given

/-- Reads the words in front of the expression; what is left is the
expression. -/
def readWords : List String → Given → Except UsageError (Given × List String)
  | [], g => do .ok (← g.settle, [])
  | word :: words, g =>
    match sort word with
    | .separator => do .ok (← g.settle, words)
    | .excessValue => .error .tooManyValues
    | .setting option none => do
      let g ← g.settle
      readWords words { g with pending := some (option, none) }
    | .setting option (some value) => do
      let g ← g.settle
      readWords words (← g.set option value)
    | .flag .help => do
      let _ ← g.settle
      .error .displayHelp
    | .flag .version => do
      let _ ← g.settle
      .error .displayVersion
    | .flag .noColor => do
      let g ← g.settle
      if g.noColor then .error .argumentConflict
      else readWords words { g with noColor := true }
    | .other =>
      match g.pending with
      | some (option, none) => readWords words { g with pending := some (option, some word) }
      | _ => do .ok (← g.settle, word :: words)

/-- The variable of the environment that gives the address of the service. -/
def ratesVariable : String := "SHELL_CALC_RATES_URL"

/-- The variable of the environment that gives the timeout. -/
def timeoutVariable : String := "SHELL_CALC_TIMEOUT"

/-- The timeout of the environment, read only where the option is absent. -/
def timeoutOf (environment : String → Option String) (g : Given) : Except UsageError Nat :=
  match g.timeout, environment timeoutVariable with
  | some seconds, _ => .ok seconds
  | none, none => .ok 10
  | none, some value =>
    match readTimeout? value with
    | some seconds => .ok seconds
    | none => .error .valueValidation

/-- Reads a command line without the name of the program. -/
def read (environment : String → Option String) (words : List String) :
    Except UsageError Settings := do
  let (g, expression) ← readWords words {}
  let timeout ← timeoutOf environment g
  .ok {
    ratesAddress :=
      (g.ratesAddress <|> environment ratesVariable).getD RateService.defaultAddress
    timeout
    logLevel := g.logLevel.getD .warn
    noColor := g.noColor
    expression }

end CommandLine

/-- The line to be carried out instead of starting the shell, if any words of it
were given. -/
def Settings.line? (settings : Settings) : Option String :=
  let line := trimLine (" ".intercalate settings.expression)
  if line.isEmpty then none else some line

end Calculator
