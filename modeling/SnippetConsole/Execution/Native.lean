/-
# Executing natively

The native executor makes a request in its workspace, compiles the unit in it, loads the
artifact, makes an instance, runs its `on_load` and drops it. The first stage that fails ends
the execution.
-/

import SnippetConsole.Execution.Basic
import SnippetConsole.Loadable.Loader

namespace SnippetConsole
namespace Execution

/-- The state of a native executor: the machine it works on, its workspace, compiler and
loader. -/
structure Native where
  machine : Machine
  workspace : Workspace
  compiler : Compiler
  loader : Loadable.Loader

namespace Native

/-- The workspace that settings name. -/
def rootOf (w : Settings.Workspace) (m : Machine) : FilePath :=
  match w.path.filter (· ≠ "") with
  | some path => .ofString path
  | none => Workspace.defaultRoot m

/-- The executor that settings describe, its workspace initialised; it takes the machine over. -/
def ofSettings (s : Settings) (m : Machine) : EStateM.Result Workspace.Fault Machine Native :=
  match Workspace.initialise (rootOf s.workspace m) m with
  | .error fault m => .error fault m
  | .ok workspace m => .ok ⟨m, workspace, Compiler.ofSettings s.toolchain m, .new⟩ m

/-- Makes a request and compiles a unit in it. -/
def build (workspace : Workspace) (compiler : Compiler) (unit : Snippet.SourceUnit) :
    Act Failure FilePath := do
  let request ← Machine.withFault Failure.ofWorkspace workspace.allocate
  Machine.withFault Failure.ofCompile (compiler.compile unit request)

/-- The execution of an artifact: its instance is made and loaded. -/
def load (loader : Loadable.Loader) (artifact : FilePath) (m : Machine) :
    Run × Loadable.Loader :=
  match loader.instantiate (Loadable.libraryAt artifact m) (m.loaderWords artifact) with
  | ((.error failure, _), loader) => (⟨[], .failed failure⟩, loader)
  | ((.ok made, _), loader) =>
    let (messages, result, _) := made.invoke .load
    (⟨messages.map .append,
      match result with
      | .ok _ => .done
      | .error failure => .failed failure⟩, loader)

/-- Runs a unit natively. -/
def execute : Executor Native := fun unit s =>
  match build s.workspace s.compiler unit s.machine with
  | .error failure m => (⟨[], .failed failure⟩, { s with machine := m })
  | .ok artifact m =>
    let (run, loader) := load s.loader artifact m
    (run, { s with machine := m, loader := loader })

end Native
end Execution
end SnippetConsole
