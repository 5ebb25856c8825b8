/-
# How an execution fails

A submission that could not be executed fails in one of six ways, by the stage that failed.
What went wrong before the compiler ran counts as a failed compilation. Only a failure of the
running unit itself is an exception; all others are errors.
-/

import SnippetConsole.Compile.Basic
import SnippetConsole.Severity

namespace SnippetConsole
namespace Execution

/-- The stage that failed. -/
inductive FailureKind where
  | compileFailed
  | artifactMissing
  | loadFailed
  | noEntryPoint
  | instantiationFailed
  | invocationFailed
  deriving DecidableEq, Repr

/-- The name of a stage's failure. -/
def FailureKind.name : FailureKind → String
  | compileFailed => "CompileFailed"
  | artifactMissing => "ArtifactMissing"
  | loadFailed => "LoadFailed"
  | noEntryPoint => "NoEntryPoint"
  | instantiationFailed => "InstantiationFailed"
  | invocationFailed => "InvocationFailed"

/-- Why a submission could not be executed. -/
inductive Failure where
  | compileFailed (diagnostics : String)
  | artifactMissing (path : FilePath)
  | loadFailed (reason : String)
  | noEntryPoint
  | instantiationFailed (entryPoint : String)
  | invocationFailed (message : String)
  deriving DecidableEq, Repr

namespace Failure

/-- The stage of a failure. -/
def kind : Failure → FailureKind
  | compileFailed _ => .compileFailed
  | artifactMissing _ => .artifactMissing
  | loadFailed _ => .loadFailed
  | noEntryPoint => .noEntryPoint
  | instantiationFailed _ => .instantiationFailed
  | invocationFailed _ => .invocationFailed

/-- How serious a failure is. -/
def severity : Failure → Severity
  | invocationFailed _ => .exception
  | _ => .error

/-- The words for a failure. -/
def message : Failure → String
  | compileFailed diagnostics => "Failed to compile command-line:\n" ++ diagnostics
  | artifactMissing path => "Compiled command-line produced no artifact at " ++ path.display
  | loadFailed reason => "Failed to load compiled command-line: " ++ reason
  | noEntryPoint => "Failed to find an entry point in the compiled command-line"
  | instantiationFailed entryPoint => "Failed to create an instance of `" ++ entryPoint ++ "`"
  | invocationFailed message => "Command-line raised: " ++ message

/-- **Every failure is reported as one.** -/
theorem isFailure_severity (f : Failure) : f.severity.isFailure = true := by cases f <;> rfl

/-- A failed compilation as a failed execution. -/
def ofCompile : Compile.Fault → Failure
  | .artifactMissing path => .artifactMissing path
  | .rejected diagnostics => .compileFailed diagnostics
  | fault => .compileFailed fault.message

/-- A request that could not be made, as a failed execution. -/
def ofWorkspace (fault : Workspace.Fault) : Failure := .compileFailed fault.message

end Failure
end Execution
end SnippetConsole
