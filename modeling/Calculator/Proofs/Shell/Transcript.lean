import Calculator.Shell

/-!
# What a run of the shell prints

The shell carries a session through the lines of its input.  What it prints is the
banner and then, line by line, what that line leads to in the session left by the
lines in front of it, up to the first line that ends the shell.  The relation of a
transcript says so without the loop, and every run has exactly one transcript.

The lines are those that were meant, as the line editor makes them.  Of an editor nothing is
used but that it leaves a line without backspaces as it is.
-/

namespace Calculator

/-! ## Line editors -/

/-- What is used of a line editor. -/
structure LineEditor.Lawful [LineEditor] : Prop where
  line?_of_not_mem : ∀ typed : List Char, Text.backspace ∉ typed → line? typed = some typed

theorem LineEditor.lawful_backspaces : @LineEditor.Lawful backspaces :=
  ⟨fun _ => Text.typedLine?_of_not_mem⟩

/-! ## Commands by their words -/

namespace ShellCommand

/-- The words for a command, in lower case. -/
def words : ShellCommand → List String
  | exit => ["exit", "quit"]
  | clear => ["clear", "clr", "cls", "ac"]
  | delete => ["delete", "del", "dlt"]

/-- The line is a word for the command, in any case and with blanks around it. -/
def IsWordFor (c : ShellCommand) (line : String) : Prop :=
  (trimLine line).map Char.toLower ∈ c.words

instance (c : ShellCommand) (line : String) : Decidable (c.IsWordFor line) :=
  inferInstanceAs (Decidable (_ ∈ _))

theorem ofLine?_eq_some_iff {line : String} {c : ShellCommand} :
    ofLine? line = some c ↔ line.map Char.toLower ∈ c.words := by
  unfold ofLine?
  split
  case h_10 hexit hquit hclear hclr hcls hac hdelete hdel hdlt =>
    cases c <;> simp_all [words]
  all_goals
    rename_i hword
    rw [hword]
    cases c <;> decide

theorem IsWordFor.ne_empty {c : ShellCommand} {line : String} (h : c.IsWordFor line) :
    trimLine line ≠ "" := by
  intro hempty
  have hlower : String.map Char.toLower "" = "" := by simp [← String.toList_inj]
  have hword : "" ∈ c.words := by simpa [IsWordFor, hempty, hlower] using h
  cases c <;> exact absurd hword (by decide)

theorem ofLine?_eq_none {line : String} (h : ∀ c : ShellCommand, ¬ c.IsWordFor line) :
    ofLine? (trimLine line) = none := by
  rw [Option.eq_none_iff_forall_ne_some]
  intro c hc
  exact h c (ofLine?_eq_some_iff.mp hc)

end ShellCommand

/-! ## Printed text -/

namespace Output

/-- The text of a piece of output; charts are left to the drawing device. -/
def shown : Output → String
  | .text s => s
  | .chart _ => ""

/-- The text of some output. -/
def printed (output : List Output) : String :=
  output.foldr (fun piece rest => piece.shown ++ rest) ""

@[simp]
theorem printed_nil : printed [] = "" := rfl

@[simp]
theorem printed_cons (piece : Output) (output : List Output) :
    printed (piece :: output) = piece.shown ++ printed output := rfl

@[simp]
theorem printed_append (front back : List Output) :
    printed (front ++ back) = printed front ++ printed back := by
  induction front with
  | nil => simp
  | cons piece front ih => simp [ih, String.append_assoc]

theorem printed_charts (charts : List Chart) : printed (charts.map Output.chart) = "" := by
  induction charts with
  | nil => rfl
  | cons c charts ih => simp [shown, ih]

end Output

namespace Shell

variable [Elementary]

/-! ## Transcripts -/

/-- What a line that does not end the shell prints, and the session after it. -/
inductive Answers (rates : RateSource) (s : Symbols) (line : String) :
    (shown : String) → (after : Symbols) → Prop where
  | blank (h : trimLine line = "") : Answers rates s line "" s
  | cleared (h : ShellCommand.clear.IsWordFor line) : Answers rates s line (banner false) s
  | deleted (h : ShellCommand.delete.IsWordFor line) :
      Answers rates s line
        (banner false ++ "All stored variables and functions deleted.\n") ⟨[], s.lastAnswer⟩
  | replied {reply : Reply} (hne : trimLine line ≠ "")
      (hword : ∀ c : ShellCommand, ¬ c.IsWordFor line)
      (h : (Session.process rates s (trimLine line)).result = .ok reply) :
      Answers rates s line (reply.text ++ "\n") (Session.process rates s (trimLine line)).symbols
  | failed {e : LineError} (hne : trimLine line ≠ "")
      (hword : ∀ c : ShellCommand, ¬ c.IsWordFor line)
      (h : (Session.process rates s (trimLine line)).result = .error e) :
      Answers rates s line ("Error: " ++ e.message ++ "\n")
        (Session.process rates s (trimLine line)).symbols

/-- The line that is meant by what was typed. -/
def IsMeant [LineEditor] (typed line : String) : Prop :=
  LineEditor.line? typed.toList = some line.toList

/-- What is printed behind the banner, and the exit code.  The lines are understood by
`Reads`, and `ask` is printed before each of them and before the end of the input. -/
inductive Transcript (Reads : String → String → Prop) (rates : RateSource) (ask : String) :
    Symbols → (typed : List String) → (printed : String) → (exitCode : Nat) → Prop where
  | finished (s : Symbols) : Transcript Reads rates ask s [] (ask ++ farewell) 0
  | exited {s : Symbols} {typed line : String} {rest : List String} (hread : Reads typed line)
      (h : ShellCommand.exit.IsWordFor line) :
      Transcript Reads rates ask s (typed :: rest) ask 0
  | answered {s after : Symbols} {typed line shown printed : String} {rest : List String}
      {exitCode : Nat} (hread : Reads typed line) (h : Answers rates s line shown after)
      (hrest : Transcript Reads rates ask after rest printed exitCode) :
      Transcript Reads rates ask s (typed :: rest) (ask ++ shown ++ printed) exitCode
  | unreadable {s : Symbols} {typed : String} {rest : List String}
      (h : ∀ line, ¬ Reads typed line) :
      Transcript Reads rates ask s (typed :: rest) ask 101

/-! ## One line -/

omit [Elementary] in
theorem isMeant_of_not_mem [LineEditor] (hlaws : LineEditor.Lawful) {typed line : String}
    (h : Text.backspace ∉ typed.toList) : IsMeant typed line ↔ line = typed := by
  rw [IsMeant, hlaws.line?_of_not_mem _ h, Option.some.injEq, String.toList_inj, eq_comm]

omit [Elementary] in
theorem printed_outcomeOutput (outcome : Outcome) :
    Output.printed (outcomeOutput false outcome) = resultText false outcome.result := by
  rw [outcomeOutput, Output.printed_append, Output.printed_charts]
  simp [Output.shown]

variable {rates : RateSource} {s after : Symbols} {line shown : String}

theorem step_of_isWordFor {c : ShellCommand} (h : c.IsWordFor line) :
    step rates false s line =
      match c with
      | .exit => ([], .ended 0)
      | .clear => ([.text (banner false)], .goOn s)
      | .delete => ([.text (banner false), .text (deletedNotice false)], .goOn s.clear) := by
  have hempty : (trimLine line).isEmpty = false := by simpa using h.ne_empty
  rw [step, hempty, if_neg Bool.false_ne_true, ShellCommand.ofLine?_eq_some_iff.mpr h]
  cases c <;> rfl

/-- A line that is no command is carried out by the session. -/
theorem step_of_not_isWordFor (hne : trimLine line ≠ "")
    (hword : ∀ c : ShellCommand, ¬ c.IsWordFor line) :
    step rates false s line =
      (outcomeOutput false (Session.process rates s (trimLine line)),
        .goOn (Session.process rates s (trimLine line)).symbols) := by
  have hempty : (trimLine line).isEmpty = false := by simpa using hne
  rw [step, hempty, if_neg Bool.false_ne_true, ShellCommand.ofLine?_eq_none hword]

theorem step_of_answers (h : Answers rates s line shown after) :
    ∃ output, step rates false s line = (output, .goOn after) ∧
      Output.printed output = shown := by
  cases h with
  | blank h =>
      refine ⟨[], ?_, rfl⟩
      rw [step, h]
      rfl
  | cleared h =>
      refine ⟨_, step_of_isWordFor h, ?_⟩
      simp [Output.shown]
  | deleted h =>
      refine ⟨_, step_of_isWordFor h, ?_⟩
      simp [Output.shown, deletedNotice, Ink.paint]
  | replied hne hword h =>
      refine ⟨_, step_of_not_isWordFor hne hword, ?_⟩
      rw [printed_outcomeOutput, h]
      rfl
  | failed hne hword h =>
      refine ⟨_, step_of_not_isWordFor hne hword, ?_⟩
      rw [printed_outcomeOutput, h]
      rfl

theorem Answers.shown_ne_empty (h : Answers rates s line shown after)
    (hne : trimLine line ≠ "") : shown ≠ "" := by
  cases h with
  | blank hblank => exact absurd hblank hne
  | cleared _ => decide
  | deleted _ => simp
  | replied _ _ _ => simp
  | failed _ _ _ => simp

/-- Every line that does not end the shell is answered. -/
theorem exists_answers (rates : RateSource) (s : Symbols)
    (hexit : ¬ ShellCommand.exit.IsWordFor line) :
    ∃ shown after, Answers rates s line shown after := by
  by_cases hne : trimLine line = ""
  · exact ⟨_, _, .blank hne⟩
  · by_cases hclear : ShellCommand.clear.IsWordFor line
    · exact ⟨_, _, .cleared hclear⟩
    · by_cases hdelete : ShellCommand.delete.IsWordFor line
      · exact ⟨_, _, .deleted hdelete⟩
      · have hword : ∀ c : ShellCommand, ¬ c.IsWordFor line := by
          intro c
          cases c with
          | exit => exact hexit
          | clear => exact hclear
          | delete => exact hdelete
        cases h : (Session.process rates s (trimLine line)).result with
        | ok reply => exact ⟨_, _, .replied hne hword h⟩
        | error e => exact ⟨_, _, .failed hne hword h⟩

/-! ## Whole runs -/

/-- What is printed before a line is asked for. -/
def asking (prompts : Bool) : String :=
  if prompts then "calc> " else ""

omit [Elementary] in
theorem printed_prompt (prompts : Bool) :
    Output.printed (prompt ⟨false, prompts⟩) = asking prompts := by
  cases prompts <;> rfl

section Editor

variable [LineEditor]

theorem answer_of_isMeant {typed : String} (hread : IsMeant typed line) :
    answer rates false s typed = step rates false s line := by
  rw [IsMeant] at hread
  rw [answer, hread]
  simp

theorem answer_of_unreadable {typed : String} (h : ∀ line, ¬ IsMeant typed line) :
    answer rates false s typed = ([], .ended abortCode) := by
  have hnone : LineEditor.line? typed.toList = none := by
    rw [Option.eq_none_iff_forall_ne_some]
    intro cs hcs
    exact h (String.ofList cs) (by simpa [IsMeant] using hcs)
  rw [answer, hnone]

/-- A transcript is what the run prints. -/
theorem printed_runLines {prompts : Bool} {lines : List String} {printed : String}
    {exitCode : Nat}
    (h : Transcript IsMeant rates (asking prompts) s lines printed exitCode) :
    Output.printed (runLines rates ⟨false, prompts⟩ s lines).output = printed ∧
      (runLines rates ⟨false, prompts⟩ s lines).exitCode = exitCode := by
  induction h with
  | finished s => simp [runLines, printed_prompt, Output.shown]
  | exited hread h =>
      rw [runLines, answer_of_isMeant hread, step_of_isWordFor h]
      simp [printed_prompt]
  | answered hread h hrest ih =>
      obtain ⟨output, hstep, rfl⟩ := step_of_answers h
      obtain ⟨hprinted, hcode⟩ := ih
      rw [runLines, answer_of_isMeant hread, hstep]
      simp [printed_prompt, hprinted, hcode, String.append_assoc]
  | unreadable h =>
      rw [runLines, answer_of_unreadable h]
      simp [printed_prompt, abortCode]

/-- Every input has a transcript. -/
theorem exists_transcript (rates : RateSource) (ask : String) (s : Symbols)
    (lines : List String) :
    ∃ printed exitCode, Transcript IsMeant rates ask s lines printed exitCode := by
  induction lines generalizing s with
  | nil => exact ⟨_, _, .finished s⟩
  | cons typed rest ih =>
      by_cases hread : ∃ line, IsMeant typed line
      · obtain ⟨line, hread⟩ := hread
        by_cases hexit : ShellCommand.exit.IsWordFor line
        · exact ⟨_, _, .exited hread hexit⟩
        · obtain ⟨shown, after, hanswers⟩ := exists_answers rates s hexit
          obtain ⟨printed, exitCode, hrest⟩ := ih after
          exact ⟨_, _, .answered hread hanswers hrest⟩
      · exact ⟨_, _, .unreadable (not_exists.mp hread)⟩

omit [LineEditor] in
/-- Only the way in which the lines at hand are understood matters. -/
theorem Transcript.of_reads {Reads Reads' : String → String → Prop} {ask printed : String}
    {lines : List String} {exitCode : Nat}
    (h : Transcript Reads rates ask s lines printed exitCode)
    (hreads : ∀ typed ∈ lines, ∀ line, Reads typed line ↔ Reads' typed line) :
    Transcript Reads' rates ask s lines printed exitCode := by
  induction h with
  | finished s => exact .finished s
  | exited hread hexit =>
      exact .exited ((hreads _ (List.mem_cons_self ..) _).mp hread) hexit
  | answered hread hanswers _ ih =>
      refine .answered ((hreads _ (List.mem_cons_self ..) _).mp hread) hanswers (ih ?_)
      exact fun typed hmem => hreads typed (List.mem_cons_of_mem _ hmem)
  | unreadable hnone =>
      refine .unreadable fun line hread => hnone line ?_
      exact (hreads _ (List.mem_cons_self ..) line).mpr hread

omit [LineEditor] in
/-- A run is aborted at a line that cannot be read only. -/
theorem Transcript.exitCode_eq_zero {Reads : String → String → Prop} {ask printed : String}
    {lines : List String} {exitCode : Nat}
    (h : Transcript Reads rates ask s lines printed exitCode)
    (hreads : ∀ typed ∈ lines, ∃ line, Reads typed line) :
    exitCode = 0 := by
  induction h with
  | finished s => rfl
  | exited hread hexit => rfl
  | answered _ _ _ ih => exact ih fun typed hmem => hreads typed (List.mem_cons_of_mem _ hmem)
  | unreadable hnone =>
      obtain ⟨line, hread⟩ := hreads _ (List.mem_cons_self ..)
      exact absurd hread (hnone line)

theorem transcript_iff_printed_run (rates : RateSource) (prompts : Bool)
    (lines : List String) (printed : String) (exitCode : Nat) :
    Transcript IsMeant rates (asking prompts) {} lines printed exitCode ↔
      Output.printed (run rates ⟨false, prompts⟩ lines).output = banner false ++ printed ∧
        (run rates ⟨false, prompts⟩ lines).exitCode = exitCode := by
  have hrun {text : String} {code : Nat}
      (h : Transcript IsMeant rates (asking prompts) {} lines text code) :
      Output.printed (run rates ⟨false, prompts⟩ lines).output = banner false ++ text ∧
        (run rates ⟨false, prompts⟩ lines).exitCode = code := by
    obtain ⟨hprinted, hcode⟩ := printed_runLines h
    exact ⟨by simp [run, Output.shown, hprinted], hcode⟩
  constructor
  · exact hrun
  · rintro ⟨hprinted, rfl⟩
    obtain ⟨text, code, htranscript⟩ := exists_transcript rates (asking prompts) {} lines
    obtain ⟨htext, hcode⟩ := hrun htranscript
    have heq : text = printed := by
      simpa [String.ext_iff] using htext.symm.trans hprinted
    rwa [hcode, ← heq]

/-! ## The first line and the one-shot program -/

omit [Elementary] [LineEditor] in
theorem inputLines_append {cs : List Char} (h : '\n' ∉ cs) (rest : List Char) :
    inputLines (cs ++ '\n' :: rest) = cs :: inputLines rest := by
  induction cs with
  | nil => rfl
  | cons c cs ih =>
      rw [List.mem_cons, not_or] at h
      rw [List.cons_append, inputLines, ih h.2]
      exact fun hbreak => h.1 hbreak.symm

omit [LineEditor] in
/-- The one-shot program prints what the shell prints for the line in a new session. -/
theorem answers_runOnce (rates : RateSource) {settings : Settings} {line joined : String}
    (hjoined : " ".intercalate settings.expression = joined)
    (hline : settings.line? = some line)
    (hword : ∀ c : ShellCommand, ¬ c.IsWordFor joined) :
    Answers rates {} joined (Output.printed (Program.runOnce rates false line).output)
      (Session.process rates {} line).symbols := by
  have htrim : trimLine joined ≠ "" ∧ trimLine joined = line := by
    rw [Settings.line?, hjoined] at hline
    simpa using hline
  obtain ⟨hne, rfl⟩ := htrim
  rw [Program.runOnce, printed_outcomeOutput]
  cases h : (Session.process rates {} (trimLine joined)).result with
  | ok reply => exact .replied hne hword h
  | error e => exact .failed hne hword h

/-! ## Lines without backspaces -/

section Plain

variable (hlaws : LineEditor.Lawful)

include hlaws

/-- Without backspaces and prompts the lines are read as they stand, and the run ends well. -/
theorem printed_run_of_plain (rates : RateSource) {lines : List String}
    (hplain : ∀ typed ∈ lines, Text.backspace ∉ typed.toList) :
    (run rates ⟨false, false⟩ lines).exitCode = 0 ∧
      ∀ printed : String,
        Transcript (fun typed line => line = typed) rates "" {} lines printed 0 ↔
          Output.printed (run rates ⟨false, false⟩ lines).output = banner false ++ printed := by
  have hreads (typed : String) (hmem : typed ∈ lines) (line : String) :
      IsMeant typed line ↔ line = typed :=
    isMeant_of_not_mem hlaws (hplain typed hmem)
  have hcode : (run rates ⟨false, false⟩ lines).exitCode = 0 := by
    obtain ⟨printed, exitCode, h⟩ := exists_transcript rates (asking false) {} lines
    rw [((transcript_iff_printed_run rates false lines printed exitCode).mp h).2]
    exact h.exitCode_eq_zero fun typed hmem => ⟨typed, (hreads typed hmem typed).mpr rfl⟩
  refine ⟨hcode, fun printed => ?_⟩
  have hiff := transcript_iff_printed_run rates false lines printed 0
  constructor
  · intro h
    exact (hiff.mp (h.of_reads fun typed hmem line => (hreads typed hmem line).symm)).1
  · intro hprinted
    exact (hiff.mpr ⟨hprinted, hcode⟩).of_reads hreads

/-- The shell prints for a first line what the one-shot program prints for it. -/
theorem printed_run_of_first (rates : RateSource) {settings : Settings} {line joined : String}
    (hjoined : " ".intercalate settings.expression = joined)
    (hline : settings.line? = some line) (hbreak : '\n' ∉ joined.toList)
    (hbackspace : Text.backspace ∉ joined.toList)
    (hword : ∀ c : ShellCommand, ¬ c.IsWordFor joined) (rest : List Char) :
    ∃ after,
      Answers rates {} joined (Output.printed (Program.runOnce rates false line).output) after ∧
      ∀ (prompts : Bool) (printed : String) (exitCode : Nat),
        Transcript IsMeant rates (asking prompts) after
          ((inputLines rest).map String.ofList) printed exitCode →
        Output.printed (run rates ⟨false, prompts⟩
            ((inputLines (joined.toList ++ '\n' :: rest)).map String.ofList)).output =
          banner false ++ (asking prompts ++
            Output.printed (Program.runOnce rates false line).output ++ printed) := by
  have hanswers := answers_runOnce rates hjoined hline hword
  refine ⟨_, hanswers, fun prompts printed exitCode hrest => ?_⟩
  have hmeant : IsMeant joined joined := (isMeant_of_not_mem hlaws hbackspace).mpr rfl
  rw [inputLines_append hbreak, List.map_cons, String.ofList_toList]
  exact ((transcript_iff_printed_run rates prompts _ _ exitCode).mp
    (.answered hmeant hanswers hrest)).1

end Plain

/-! ## The whole program -/

section Program

variable [Json.Doubles] [Json.Reader] {fetch : String → Response}
  {environment : String → Option String} {words : List String} {settings : Settings}
  (hread : CommandLine.read environment words = .ok settings)
  (hcolors : Program.isColored environment settings = false)

include hread hcolors

/-- Without words for a line the program is the shell, which asks for lines on terminals on
which they cannot be edited. -/
theorem exists_prompts_of_run (hline : settings.line? = none) (input : String) :
    ∃ prompts : Bool,
      (prompts = true ↔ ∃ terminal, environment "TERM" = some terminal ∧
        terminal.map Char.toLower ∈ ["dumb", "cons25", "emacs"]) ∧
      Program.run fetch environment words input =
        run (RateService.rates fetch settings.ratesAddress) ⟨false, prompts⟩
          ((inputLines input.toList).map String.ofList) := by
  refine ⟨(Program.shellStyle environment settings).prompts, ?_, ?_⟩
  · simp [Program.shellStyle, Option.any_eq_true, Program.plainTerminals]
  · have hstyle : Program.shellStyle environment settings =
        ⟨false, (Program.shellStyle environment settings).prompts⟩ := by
      rw [← hcolors]
      rfl
    rw [Program.run, hread]
    dsimp only
    rw [hline, ← hstyle]

/-- With words for a line the program carries out that line. -/
theorem run_of_line {line : String} (hline : settings.line? = some line) (input : String) :
    Program.run fetch environment words input =
      Program.runOnce (RateService.rates fetch settings.ratesAddress) false line := by
  rw [Program.run, hread]
  dsimp only
  rw [hline, ← hcolors]
  rfl

end Program

end Editor

/-! ## Main result -/

/-- What a run prints is the one transcript of its lines, whatever lawful editor makes them, such
as the one that applies backspaces.  Where no line holds a backspace and no prompts are shown,
the lines are read as they stand and the run ends well.  The one-shot program prints what the
shell prints when its line comes first.  With colours off, the program is the one-shot program
or the shell; the shell shows prompts on a terminal without line editing only. -/
theorem transcript_of_run (rates : RateSource) :
    @LineEditor.Lawful LineEditor.backspaces ∧
    ∀ [LineEditor], LineEditor.Lawful →
      (∀ (prompts : Bool) (lines : List String) (printed : String) (exitCode : Nat),
        Transcript IsMeant rates (asking prompts) {} lines printed exitCode ↔
          Output.printed (run rates ⟨false, prompts⟩ lines).output = banner false ++ printed ∧
            (run rates ⟨false, prompts⟩ lines).exitCode = exitCode) ∧
      (∀ lines : List String, (∀ typed ∈ lines, Text.backspace ∉ typed.toList) →
        (run rates ⟨false, false⟩ lines).exitCode = 0 ∧
        ∀ printed : String,
          Transcript (fun typed line => line = typed) rates "" {} lines printed 0 ↔
            Output.printed (run rates ⟨false, false⟩ lines).output = banner false ++ printed) ∧
      (∀ (settings : Settings) (line joined : String) (rest : List Char),
        " ".intercalate settings.expression = joined → settings.line? = some line →
        '\n' ∉ joined.toList → Text.backspace ∉ joined.toList →
        (∀ c : ShellCommand, ¬ c.IsWordFor joined) →
        ∃ after,
          Answers rates {} joined (Output.printed (Program.runOnce rates false line).output)
            after ∧
          ∀ (prompts : Bool) (printed : String) (exitCode : Nat),
            Transcript IsMeant rates (asking prompts) after
              ((inputLines rest).map String.ofList) printed exitCode →
            Output.printed (run rates ⟨false, prompts⟩
                ((inputLines (joined.toList ++ '\n' :: rest)).map String.ofList)).output =
              banner false ++ (asking prompts ++
                Output.printed (Program.runOnce rates false line).output ++ printed)) ∧
      ∀ [Json.Doubles] [Json.Reader] (fetch : String → Response)
        (environment : String → Option String) (words : List String) (settings : Settings)
        (input : String), CommandLine.read environment words = .ok settings →
        Program.isColored environment settings = false →
        (settings.line? = none → ∃ prompts : Bool,
          (prompts = true ↔ ∃ terminal, environment "TERM" = some terminal ∧
            terminal.map Char.toLower ∈ ["dumb", "cons25", "emacs"]) ∧
          Program.run fetch environment words input =
            run (RateService.rates fetch settings.ratesAddress) ⟨false, prompts⟩
              ((inputLines input.toList).map String.ofList)) ∧
        ∀ line, settings.line? = some line →
          Program.run fetch environment words input =
            Program.runOnce (RateService.rates fetch settings.ratesAddress) false line := by
  refine ⟨LineEditor.lawful_backspaces, ?_⟩
  intro editor hlaws
  refine ⟨transcript_iff_printed_run rates, fun _ hplain => printed_run_of_plain hlaws rates hplain,
    ?_, ?_⟩
  · intro settings line joined rest hjoined hline hbreak hbackspace hword
    exact printed_run_of_first hlaws rates hjoined hline hbreak hbackspace hword rest
  · intro doubles reader fetch environment words settings input hread hcolors
    exact ⟨fun hline => exists_prompts_of_run hread hcolors hline input,
      fun _ hline => run_of_line hread hcolors hline input⟩

omit [Elementary] in
/-- On a plain terminal the last answer is asked for, and the input ends.  As a word of the
command line it is answered alone. -/
theorem printed_run_last_answer :
    let _ := Elementary.machine
    let once := Output.printed (Program.runOnce (fun _ _ => none) false "ans").output
    let environment (name : String) := if name = "TERM" then some "Dumb" else none
    (run (fun _ _ => none) ⟨false, false⟩ ["ans"]).exitCode = 0 ∧
      Output.printed (run (fun _ _ => none) ⟨false, true⟩
          ((inputLines "ans\n".toList).map String.ofList)).output =
        banner false ++ ("calc> " ++ once ++ ("calc> " ++ farewell)) ∧
      Program.run (fun _ => .unreachable) environment [] "ans\n" =
        run (RateService.rates (fun _ => .unreachable) RateService.defaultAddress) ⟨false, true⟩
          ((inputLines "ans\n".toList).map String.ofList) ∧
      Program.run (fun _ => .unreachable) environment ["ans"] "" =
        Program.runOnce (RateService.rates (fun _ => .unreachable) RateService.defaultAddress)
          false "ans" := by
  intro _ once environment
  obtain ⟨hlaws, hruns⟩ := transcript_of_run (fun _ _ => none)
  obtain ⟨-, hplain, honce, hprogram⟩ := @hruns LineEditor.backspaces hlaws
  have hwords : ∀ c : ShellCommand, ¬ c.IsWordFor "ans" := by
    intro c
    cases c <;> decide +kernel
  obtain ⟨after, -, hfirst⟩ := honce ⟨"", 0, .off, true, ["ans"]⟩ "ans" "ans" []
    (by decide +kernel) (by decide +kernel) (by decide) (by decide) hwords
  refine ⟨(hplain ["ans"] (by decide)).1, hfirst true _ 0 (.finished after), ?_⟩
  have hnowords : CommandLine.read environment [] =
      .ok ⟨RateService.defaultAddress, 10, .warn, false, []⟩ := rfl
  have hans : CommandLine.read environment ["ans"] =
      .ok ⟨RateService.defaultAddress, 10, .warn, false, ["ans"]⟩ := rfl
  obtain ⟨hshell, -⟩ := hprogram (fun _ => .unreachable) environment [] _ "ans\n" hnowords rfl
  obtain ⟨prompts, hprompts, hrun⟩ := hshell (by decide +kernel)
  obtain rfl : prompts = true := hprompts.mpr ⟨"Dumb", rfl, by decide +kernel⟩
  obtain ⟨-, hline⟩ := hprogram (fun _ => .unreachable) environment ["ans"] _ "" hans rfl
  exact ⟨hrun, hline "ans" (by decide +kernel)⟩

omit [Elementary] in
/-- A line is not always read as it stands, and on some terminals it is asked for. -/
theorem not_forall_transcript :
    let _ := Elementary.machine
    (¬ ∀ lines : List String, ∃ printed,
      Transcript (fun typed line => line = typed) (fun _ _ => none) "" {} lines printed 0 ∧
        Output.printed (run (fun _ _ => none) ⟨false, false⟩ lines).output =
          banner false ++ printed) ∧
    (¬ ∀ lines : List String, ∃ printed,
      Transcript (fun typed line => line = typed) (fun _ _ => none) "" {} lines printed 0 ∧
        Output.printed (run (fun _ _ => none) ⟨false, true⟩ lines).output =
          banner false ++ printed) := by
  intro _
  constructor
  · intro h
    obtain ⟨printed, htranscript, hprinted⟩ := h ["1\x08"]
    have hmeant : IsMeant "1\x08" "" := by
      rw [IsMeant]
      decide +kernel
    have hblank := (transcript_iff_printed_run (fun _ _ => none) false ["1\x08"] _ 0).mp
      (.answered hmeant (.blank (by decide +kernel)) (.finished _))
    have hfarewell : printed = farewell := by
      simpa [asking, String.ext_iff] using hprinted.symm.trans hblank.1
    cases htranscript with
    | exited hread hexit =>
        subst hread
        exact absurd hexit (by decide +kernel)
    | answered hread hanswers hrest =>
        subst hread
        cases hrest with
        | finished =>
            rw [String.empty_append, String.empty_append] at hfarewell
            have hlength := congrArg String.length hfarewell
            rw [String.length_append] at hlength
            refine hanswers.shown_ne_empty (by decide +kernel) (String.length_eq_zero_iff.mp ?_)
            omega
  · intro h
    obtain ⟨printed, htranscript, hprinted⟩ := h []
    have hasked := (transcript_iff_printed_run (fun _ _ => none) true [] _ 0).mp (.finished _)
    have hprompt : printed = asking true ++ farewell := by
      simpa [String.ext_iff] using hprinted.symm.trans hasked.1
    cases htranscript with
    | finished => exact absurd hprompt (by decide)

end Shell
end Calculator
