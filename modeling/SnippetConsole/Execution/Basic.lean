/-
# Executing a unit

An executor takes a unit and runs it: it writes to the log, and then it is done, reports a
failure, or panics. It may have a state of its own, which it changes as it runs.
-/

import SnippetConsole.Execution.Failure
import SnippetConsole.Log.Basic
import SnippetConsole.Panic

namespace SnippetConsole
namespace Execution

/-- How an execution ended. -/
inductive Ending where
  | done
  | failed (failure : Failure)
  | panicked (payload : Panic.Payload)
  deriving DecidableEq, Repr

/-- What an execution did to the log, in order, and how it ended. -/
structure Run where
  writes : List Log.Operation
  ending : Ending
  deriving DecidableEq, Repr

/-- A way to run units, with a state `σ`. -/
abbrev Executor (σ : Type) := Snippet.SourceUnit → σ → Run × σ

/-- A scripted executor's state: the runs to come and the units seen so far. -/
structure Script where
  runs : List Run
  seen : List Snippet.SourceUnit
  deriving DecidableEq, Repr

/-- The run number `n`, counted from 0: the last one given stands for all later ones, and
without any, a run that does nothing. -/
def runNumber (runs : List Run) (n : Nat) : Run :=
  match runs[n]? with
  | some run => run
  | none => runs.getLast?.getD ⟨[], .done⟩

/-- An executor that follows a script. -/
def scripted : Executor Script := fun unit s =>
  (runNumber s.runs s.seen.length, { s with seen := s.seen ++ [unit] })

end Execution
end SnippetConsole
