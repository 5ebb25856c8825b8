/-
# The console

A console has a log, a command history, a template and an executor. Submitting the command
line writes an echo of it to the log, runs it, and writes one terminal message: that it was
executed, why it failed, or that the executor panicked. Then the history rolls forward,
unless the command line is to be kept. A blank command line is not submitted at all.
-/

import SnippetConsole.Execution.Basic
import SnippetConsole.History
import SnippetConsole.Text.Blank

namespace SnippetConsole

/-- A console whose executor has state `σ`. -/
structure Console (σ : Type) where
  log : Log
  history : History
  template : Snippet.Template
  executor : Execution.Executor σ
  state : σ

namespace Console

/-- Whether a submission rolls the history forward. -/
inductive Mode where
  | roll
  | keep
  deriving DecidableEq, Repr

/-- What became of a submission. -/
inductive Outcome where
  | executed
  | failed (kind : Execution.FailureKind)
  | faulted
  deriving DecidableEq, Repr

/-- A console with nothing typed yet. -/
def new (log : Log) (template : Snippet.Template) (executor : Execution.Executor σ) (state : σ) :
    Console σ := ⟨log, .new, template, executor, state⟩

/-- The echo of a command. -/
def echo (command : String) : Log.Message := ⟨.internal, "> " ++ command, .info⟩

/-- The message that ends a submission. -/
def terminal : Execution.Ending → Log.Message
  | .done => ⟨.internal, "Executed command-line", .info⟩
  | .failed failure => ⟨.internal, failure.message, failure.severity⟩
  | .panicked payload => ⟨.internal, "Exception in console - " ++ payload.message, .exception⟩

/-- What became of a submission that ended so. -/
def Outcome.ofEnding : Execution.Ending → Outcome
  | .done => executed
  | .failed failure => failed failure.kind
  | .panicked _ => faulted

/-- The text on the command line. -/
def commandLine (c : Console σ) : String := c.history.current

/-- The console with another text on the command line. -/
def setCommandLine (c : Console σ) (text : String) : Console σ :=
  { c with history := c.history.setCurrent text }

/-- The console with the policy that settings describe. -/
def applySettings (c : Console σ) (s : Settings.Console) : Console σ :=
  { c with log := c.log.setPolicy (.ofSettings s) }

/-- The log after a submission of a command that ran so. -/
def logAfter (log : Log) (command : String) (run : Execution.Run) : Log :=
  ((log.write (echo command)).applyAll run.writes).write (terminal run.ending)

/-- Submits the command line. -/
def submit (c : Console σ) (mode : Mode) : Option Outcome × Console σ :=
  let command := c.commandLine
  if Text.isBlankText command then (none, c)
  else
    let (run, state) := c.executor (c.template.wrap command) c.state
    (some (.ofEnding run.ending),
      { c with
        log := logAfter c.log command run
        state := state
        history :=
          match mode with
          | .roll => c.history.submit
          | .keep => c.history })

end Console
end SnippetConsole
