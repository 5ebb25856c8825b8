/-
# The scratch workspace

A workspace is a directory with an empty marker file and two directories: sources and
artifacts. Each request gets a fresh directory of its own, named by its id, in both.

Initialising a workspace empties its root. Only a root that is empty or holds the marker is
the console's to empty; any other is left alone. Nothing is removed afterwards, as loaded units
stay in use.
-/

import SnippetConsole.Machine.Files

namespace SnippetConsole
namespace Workspace

/-- The name of the directory for sources. -/
def sourcesName : FilePath := .ofString "src"

/-- The name of the directory for artifacts. -/
def artifactsName : FilePath := .ofString "dll"

/-- The name of the marker, as text. -/
def markerText : String := ".livecode-workspace"

/-- The name of the marker. -/
def markerName : FilePath := .ofString markerText

/-- How many fresh ids a request tries. -/
def maxAttempts : Nat := 8

/-- Why a workspace cannot be used. -/
inductive Fault where
  | initialise (root : FilePath) (fault : FileTree.Fault)
  | notOwned (root : FilePath)
  | allocate (attempts : Nat) (fault : FileTree.Fault)
  deriving DecidableEq, Repr

namespace Fault

/-- The words for a fault. -/
def message : Fault → String
  | initialise root fault =>
    "failed to initialize workspace at " ++ root.display ++ ": " ++ fault.message
  | notOwned root =>
    "refusing to use " ++ root.display ++ " as workspace: it is not empty and has no "
      ++ markerText ++ " marker"
  | allocate attempts fault =>
    "failed to allocate a compile request after " ++ toString attempts ++ " attempts: "
      ++ fault.message

/-- The words for the cause of a fault alone, if it has a cause of its own. -/
def source? : Fault → Option String
  | initialise _ fault => some fault.message
  | notOwned _ => none
  | allocate _ fault => some fault.message

end Fault

/-- Where one request's source files and artifact go. -/
structure Request where
  id : RequestId
  sourceDirectory : FilePath
  artifactDirectory : FilePath
  deriving DecidableEq, Repr

/-- The file name of a loadable unit. -/
def libraryName (id : RequestId) : FilePath := .ofString (id.text ++ ".so")

/-- Where the artifact of a request is made. -/
def Request.artifactPath (r : Request) : FilePath := r.artifactDirectory.join (libraryName r.id)

/-- Removes all that the artifact directory of a request holds. -/
def Request.clearArtifacts (r : Request) : Act FileTree.Fault Unit :=
  Machine.emptyDirectory r.artifactDirectory

end Workspace

/-- A workspace, by its root. -/
structure Workspace where
  root : FilePath
  deriving DecidableEq, Repr

namespace Workspace

/-- The directory of all requests' sources. -/
def sources (w : Workspace) : FilePath := w.root.join sourcesName

/-- The directory of all requests' artifacts. -/
def artifacts (w : Workspace) : FilePath := w.root.join artifactsName

/-- The root used if none is given. -/
def defaultRoot (m : Machine) : FilePath := m.temporaryDirectory.join (.ofString "livecode")

/-- Whether a root may be emptied: it holds the marker as a file, or nothing. -/
def isOwned (root : FilePath) (m : Machine) : Except FileTree.Fault Bool :=
  if m.isFile (root.join markerName) then .ok true
  else do .ok (← m.namesAt root).isEmpty

/-- Makes a workspace: its root with the parents it lacks, emptied, then the marker and the
two directories. -/
def initialise (root : FilePath) : Act Fault Workspace := do
  let step (act : Act FileTree.Fault Unit) : Act Fault Unit :=
    Machine.withFault (.initialise root) act
  step (Machine.makeDirectories root)
  let owned ← Machine.withFault (.initialise root) (Machine.asks (isOwned root))
  if !owned then throw (.notOwned root)
  step (Machine.emptyDirectory root)
  step (Machine.writeFile (root.join markerName) (.bytes []))
  let w : Workspace := ⟨root⟩
  step (Machine.makeDirectory w.sources)
  step (Machine.makeDirectory w.artifacts)
  pure w

/-- Makes the two directories of a request, both or none. -/
def makePair (sourceDirectory artifactDirectory : FilePath) : Act FileTree.Fault Unit := do
  Machine.makeDirectory sourceDirectory
  match ← Machine.attempt (Machine.makeDirectory artifactDirectory) with
  | .ok _ => pure ()
  | .error fault => do
    let _ ← Machine.attempt (Machine.removeDirectory sourceDirectory)
    throw fault

/-- Tries fresh ids, `left` of them after `tried` were taken, the last for the reason `fault`,
until the directories of one can be made. -/
def allocateWithin (w : Workspace) :
    (left tried : Nat) → (fault : FileTree.Fault) → Act Fault Request
  | 0, tried, fault => throw (.allocate tried fault)
  | left + 1, tried, _ => do
    let id ← Machine.nextId
    let name : FilePath := .ofString id.text
    let request : Request := ⟨id, w.sources.join name, w.artifacts.join name⟩
    match ← Machine.attempt (makePair request.sourceDirectory request.artifactDirectory) with
    | .ok _ => pure request
    | .error fault =>
      if fault.kind = .alreadyExists then allocateWithin w left (tried + 1) fault
      else throw (.allocate (tried + 1) fault)

/-- Makes the directories of a new request. -/
def allocate (w : Workspace) : Act Fault Request :=
  w.allocateWithin maxAttempts 0 (.ofKind .alreadyExists)

end Workspace
end SnippetConsole
