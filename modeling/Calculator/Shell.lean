import Calculator.CommandLine
import Calculator.Ink
import Calculator.Session
import Calculator.Text.Typed

/-!
# The shell and the one-shot program

The shell reads lines until one of them ends it or the input does.  What is typed
is edited first.  A few words are commands of the shell itself; every
other line that is not blank is carried out by the session.  With words on the
command line the program carries out the one line that they form instead.
-/

namespace Calculator

/-- What the program puts out: text, or a chart for the drawing device. -/
inductive Output where
  | text (s : String)
  | chart (c : Chart)

/-- The commands of the shell itself. -/
inductive ShellCommand where
  | exit
  | clear
  | delete
  deriving DecidableEq

/-- What a run of the program leaves behind. -/
structure Run where
  exitCode : Nat
  output : List Output

namespace ShellCommand

/-- The command that a line is, in any case of its letters.  No character
outside ASCII has a lower case that occurs in these words. -/
def ofLine? (line : String) : Option ShellCommand :=
  match line.map Char.toLower with
  | "exit" => some exit
  | "quit" => some exit
  | "clear" => some clear
  | "clr" => some clear
  | "cls" => some clear
  | "ac" => some clear
  | "delete" => some delete
  | "del" => some delete
  | "dlt" => some delete
  | _ => none

end ShellCommand

namespace Shell

def logo : String :=
  "\n" ++
  "   ___ _        _ _         _\n" ++
  "  / __| |_  ___| | |  __ __| |__\n" ++
  "  \\__ \\ ' \\/ -_) | | / _/ _` / _|\n" ++
  "  |___/_||_\\___|_|_| \\__\\__,_\\__|\n"

def greeting : String :=
  "Scientific Calculator Shell (type 'exit' to quit)"

/-- Clears the screen and shows the logo. -/
def banner (colored : Bool) : String :=
  "\x1b[2J\x1b[1;1H" ++ Ink.cyan.paint colored logo ++ "\n" ++ greeting ++ "\n"

def farewell : String :=
  "\nExiting calculator.\n"

def deletedNotice (colored : Bool) : String :=
  Ink.red.paint colored "All stored variables and functions deleted." ++ "\n"

/-- How the shell presents itself. -/
structure Style where
  colored : Bool
  /-- Whether each line is asked for with a prompt. -/
  prompts : Bool

/-- What asks for a line. -/
def prompt (style : Style) : List Output :=
  if style.prompts then [.text (Ink.green.paint style.colored "calc> ")] else []

/-- The text of a result. -/
def resultText (colored : Bool) : Except LineError Reply → String
  | .ok reply => Ink.yellow.paint colored reply.text ++ "\n"
  | .error e => Ink.red.paint colored ("Error: " ++ e.message) ++ "\n"

/-- What a line that has been carried out puts out: its charts come first. -/
def outcomeOutput (colored : Bool) (outcome : Outcome) : List Output :=
  (outcome.plots.filterMap (·.chart? {})).map Output.chart ++
    [.text (resultText colored outcome.result)]

/-- What follows a line. -/
inductive Next where
  | goOn (s : Symbols)
  | ended (exitCode : Nat)

/-- The exit code of a shell that meets a line it cannot read. -/
def abortCode : Nat := 101

variable [Elementary]

/-- What the shell does with one line: its output and what follows. -/
def step (rates : RateSource) (colored : Bool) (s : Symbols) (line : String) :
    List Output × Next :=
  let line := trimLine line
  if line.isEmpty then ([], .goOn s)
  else
    match ShellCommand.ofLine? line with
    | some .exit => ([], .ended 0)
    | some .clear => ([.text (banner colored)], .goOn s)
    | some .delete =>
      ([.text (banner colored), .text (deletedNotice colored)], .goOn s.clear)
    | none =>
      let outcome := Session.process rates s line
      (outcomeOutput colored outcome, .goOn outcome.symbols)

variable [LineEditor]

/-- What the shell does with one line as it was typed. -/
def answer (rates : RateSource) (colored : Bool) (s : Symbols) (typed : String) :
    List Output × Next :=
  match LineEditor.line? typed.toList with
  | some line => step rates colored s (String.ofList line)
  | none => ([], .ended abortCode)

/-- The run of the shell on the rest of the input. -/
def runLines (rates : RateSource) (style : Style) : Symbols → List String → Run
  | _, [] => ⟨0, prompt style ++ [.text farewell]⟩
  | s, line :: lines =>
    match answer rates style.colored s line with
    | (output, .goOn s) =>
      let rest := runLines rates style s lines
      ⟨rest.exitCode, prompt style ++ output ++ rest.output⟩
    | (output, .ended exitCode) => ⟨exitCode, prompt style ++ output⟩

/-- The run of the shell on the lines of its input. -/
def run (rates : RateSource) (style : Style) (lines : List String) : Run :=
  let rest := runLines rates style {} lines
  ⟨rest.exitCode, .text (banner style.colored) :: rest.output⟩

/-- The lines of an input.  A last line need not be ended. -/
def inputLines : List Char → List (List Char)
  | [] => []
  | '\n' :: cs => [] :: inputLines cs
  | c :: cs =>
    match inputLines cs with
    | [] => [[c]]
    | line :: lines => (c :: line) :: lines

end Shell

namespace Program

/-- The name and version of the program. -/
def versionText : String := "shell_calc 0.1.0\n"

/-- What the program says about its use. -/
def helpText : String :=
  "Scientific calculator shell: arithmetic, variables, functions of x, " ++
  "unit and currency conversion\n\n" ++
  "Usage: shell_calc [OPTIONS] [EXPRESSION]...\n\n" ++
  "Arguments:\n" ++
  "  [EXPRESSION]...  Evaluate this line and exit instead of starting the shell\n\n" ++
  "Options:\n" ++
  "      --rates-url <RATES_URL>  Base URL of the exchange rate service\n" ++
  "      --timeout <TIMEOUT>      Seconds to wait for the exchange rate service\n" ++
  "      --log-level <LOG_LEVEL>  off, error, warn, info, debug or trace\n" ++
  "      --no-color               Print results without colors\n" ++
  "  -h, --help                   Print help\n" ++
  "  -V, --version                Print version\n"

/-- Whether results are coloured.  Standard output is taken to be no terminal,
so colours have to be forced, and `--no-color` wins over that. -/
def isColored (environment : String → Option String) (settings : Settings) : Bool :=
  !settings.noColor && (environment "CLICOLOR_FORCE").any (· != "0")

/-- The terminals on which lines cannot be edited. -/
def plainTerminals : List String :=
  ["dumb", "cons25", "emacs"]

/-- How the shell presents itself.  A prompt is shown only on terminals on which
lines cannot be edited, since standard input is taken to be no terminal. -/
def shellStyle (environment : String → Option String) (settings : Settings) : Shell.Style where
  colored := isColored environment settings
  prompts := (environment "TERM").any fun name => plainTerminals.contains (name.map Char.toLower)

/-- The run that a command line leads to at once, without starting the shell. -/
def refuse : UsageError → Run
  | .displayHelp => ⟨0, [.text helpText]⟩
  | .displayVersion => ⟨0, [.text versionText]⟩
  | _ => ⟨2, []⟩

variable [Elementary]

/-- Carries out the one line of the command line. -/
def runOnce (rates : RateSource) (colored : Bool) (line : String) : Run :=
  let outcome := Session.process rates {} line
  { exitCode := match outcome.result with
      | .ok _ => 0
      | .error _ => 1
    output := Shell.outcomeOutput colored outcome }

/-- A whole run of the program on a given input. -/
def run [LineEditor] [Json.Doubles] [Json.Reader]
    (fetch : String → Response) (environment : String → Option String)
    (words : List String) (input : String) : Run :=
  match CommandLine.read environment words with
  | .error e => refuse e
  | .ok settings =>
    let rates := RateService.rates fetch settings.ratesAddress
    let style := shellStyle environment settings
    match settings.line? with
    | some line => runOnce rates style.colored line
    | none => Shell.run rates style ((Shell.inputLines input.toList).map String.ofList)

end Program
end Calculator
