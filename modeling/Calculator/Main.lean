import Calculator.Shell

/-!
# The program

Connects the pure program to the command line, the environment and the standard
streams.  Addresses are not asked, so no exchange rate is available, and charts
are not drawn.
-/

namespace Calculator
namespace Program

/-- Prints the text of some output. -/
def putOut (output : List Output) : IO Unit := do
  let stdout ← IO.getStdout
  for piece in output do
    match piece with
    | .text s => stdout.putStr s
    | .chart _ => pure ()
  stdout.flush

/-- Reads lines and answers them until the shell or the input ends. -/
partial def loop [Elementary] (rates : RateSource) (style : Shell.Style) (s : Symbols) :
    IO UInt32 := do
  putOut (Shell.prompt style)
  let line ← (← IO.getStdin).getLine
  if line.isEmpty then
    putOut [.text Shell.farewell]
    return 0
  else
    let (output, next) := Shell.answer rates style.colored s line
    putOut output
    match next with
    | .goOn s => loop rates style s
    | .ended exitCode => return exitCode.toUInt32

end Program
end Calculator

open Calculator in
/-- Runs the program on the words of its command line. -/
def main (words : List String) : IO UInt32 := do
  let ratesVariable ← IO.getEnv CommandLine.ratesVariable
  let timeoutVariable ← IO.getEnv CommandLine.timeoutVariable
  let forced ← IO.getEnv "CLICOLOR_FORCE"
  let terminal ← IO.getEnv "TERM"
  let environment (name : String) : Option String :=
    if name = CommandLine.ratesVariable then ratesVariable
    else if name = CommandLine.timeoutVariable then timeoutVariable
    else if name = "CLICOLOR_FORCE" then forced
    else if name = "TERM" then terminal
    else none
  let finish (run : Run) : IO UInt32 := do
    Program.putOut run.output
    return run.exitCode.toUInt32
  let _ : Elementary := Elementary.machine
  match CommandLine.read environment words with
  | .error e => finish (Program.refuse e)
  | .ok settings =>
    let rates := RateService.rates (fun _ => .unreachable) settings.ratesAddress
    let style := Program.shellStyle environment settings
    match settings.line? with
    | some line => finish (Program.runOnce rates style.colored line)
    | none =>
      Program.putOut [.text (Shell.banner style.colored)]
      Program.loop rates style {}
