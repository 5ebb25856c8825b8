/-
# Sessions

A session is a console with a printer, the settings in force and the file they are saved to.
Each input does one thing and then prints what is new in the log. A prompt asks for each line;
the session ends at `:quit`, at the end of the lines, or at a line that is not text.
-/

import SnippetConsole.CommandLine.Input
import SnippetConsole.CommandLine.Printer
import SnippetConsole.Console
import SnippetConsole.Settings.Store
import SnippetConsole.Text.Substitution

namespace SnippetConsole
namespace CommandLine

/-- A session over a console whose executor has state `σ`. Settings are saved by a change of
that state (`store`). -/
structure Session (σ : Type) where
  console : Console σ
  printer : Printer
  settings : Settings
  settingsFile : FilePath
  store : Settings → FilePath → σ → Except Settings.Fault PUnit × σ

namespace Session

/-- The session with the log of its console changed. -/
def withLog (s : Session σ) (f : Log → Log) : Session σ :=
  { s with console.log := f s.console.log }

/-- The session with the log settings as they are by default. -/
def resetLogSettings (s : Session σ) : Session σ :=
  let console := s.settings.console.resetLogFields
  { s with
    settings.console := console
    console := s.console.applySettings console
    printer := s.printer.setTemplate console.formatString }
  |>.withLog (·.note "log settings reset to defaults" .info)

/-- The session after its settings were saved, or not. -/
def saveSettings (s : Session σ) : Session σ :=
  let (result, state) := s.store s.settings s.settingsFile s.console.state
  let s := { s with console.state := state }
  match result with
  | .ok _ => s.withLog (·.note ("settings saved to " ++ s.settingsFile.display) .info)
  | .error fault => s.withLog (·.note ("failed to save settings: " ++ fault.message) .error)

/-- The session after a snippet was run as a command. -/
def runSnippet (s : Session σ) (code : String) : Session σ :=
  { s with console := ((s.console.setCommandLine code).submit .roll).2 }

/-- The session after a snippet was run beside the command line. -/
def runKeeping (s : Session σ) (code : String) : Session σ :=
  let previous := s.console.commandLine
  let console := ((s.console.setCommandLine code).submit .keep).2
  { s with console := console.setCommandLine previous }

/-- What is said if there is no command to run again. -/
def noPreviousCommand : String := "no previous command\n"

/-- The session after the command before the cursor was run again, or what is said instead. -/
def runAgain (s : Session σ) : String × Session σ :=
  match s.console.history.previous? with
  | none => (noPreviousCommand, s)
  | some history => ("", { s with console := ({ s.console with history := history }.submit .roll).2 })

/-- A number right-aligned in four columns. -/
def aligned (n : Nat) : String :=
  let digits := toString n
  String.ofList (List.replicate (4 - digits.length) ' ') ++ digits

/-- One line of the list of commands; a command's further lines are indented. -/
def historyLine (command : String × Nat) : String :=
  aligned command.2 ++ "  " ++ Text.replaceAll "\n" "\n      " command.1 ++ "\n"

/-- The list of commands, without the slot being typed into. -/
def historyText (h : History) : String :=
  String.join (h.slots.dropLast.zipIdx.map historyLine)

/-- What an input says, and the session after it; none if the input ends it. -/
def act (s : Session σ) : Input → Option (String × Session σ)
  | .snippet code => some ("", s.runSnippet code)
  | .keep code => some ("", s.runKeeping code)
  | .again => some s.runAgain
  | .history => some (historyText s.console.history, s)
  | .clear => some ("", s.withLog Log.clear)
  | .reset => some ("", s.resetLogSettings)
  | .save => some ("", s.saveSettings)
  | .help => some (helpText ++ "\n", s)
  | .quit => none
  | .unknown name =>
    some ("", s.withLog (·.note ("unknown command `:" ++ name ++ "`, try :help") .warning))

/-- What the log has to print, and the session after it is printed. -/
def flush (s : Session σ) : String × Session σ :=
  let (text, printer) := s.printer.flush s.console.log
  (text, { s with printer := printer })

/-- What is printed for an input, and the session after it; none if the input ends it. -/
def process (s : Session σ) (input : Input) : Option (String × Session σ) :=
  (s.act input).map fun (said, s) =>
    let (printed, s) := s.flush
    (said ++ printed, s)

/-- The prompt for the next line. -/
def prompt (a : Assembler) : String := if a.isContinuing then ".. " else ">> "

/-- How the lines of a session ended. -/
inductive Ending where
  | over
  | notText
  deriving DecidableEq, Repr

/-- What is printed at the end, after `printed`. -/
def finish (s : Session σ) (printed : String) : String × Ending × Session σ :=
  let (text, s) := s.flush
  (printed ++ text, .over, s)

/-- What is printed at the end of all lines. A command that was not complete is run first. -/
def runEnd (s : Session σ) (a : Assembler) (printed : String) : String × Ending × Session σ :=
  let printed := printed ++ prompt a
  match a.finish with
  | (none, _) => s.finish printed
  | (some input, a) =>
    match s.process input with
    | none => s.finish printed
    | some (text, s) => s.finish (printed ++ text ++ prompt a)

/-- What is printed for raw lines after `printed`, and the session at the end. -/
def run (s : Session σ) (a : Assembler) (printed : String) :
    List Bytes → String × Ending × Session σ
  | [] => s.runEnd a printed
  | line :: lines =>
    let printed := printed ++ prompt a
    match Text.decode? line with
    | none => (printed, .notText, s)
    | some text =>
      match a.push text with
      | (none, a) => run s a printed lines
      | (some input, a) =>
        match s.process input with
        | none => s.finish printed
        | some (text, s) => run s a (printed ++ text) lines

/-- The raw lines of bytes, each with its line feed. -/
def rawLines : Bytes → List Bytes
  | [] => []
  | b :: bs =>
    if b = 10 then [b] :: rawLines bs
    else
      match rawLines bs with
      | [] => [[b]]
      | line :: lines => (b :: line) :: lines

/-- A session after one snippet: what is printed, and whether it failed. -/
def evaluate (s : Session σ) (code : String) : String × Bool × Session σ :=
  let (text, s) := (s.runSnippet code).flush
  let failed :=
    match s.console.log.last? with
    | some e => e.severity.isFailure
    | none => false
  (text, failed, s)

end Session
end CommandLine
end SnippetConsole
