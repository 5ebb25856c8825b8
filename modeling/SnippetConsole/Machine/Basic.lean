/-
# The machine the console runs on

A machine is what the console finds and changes outside itself: a file tree, the directory in
which relative paths start, environment variables, and a supply of request ids. An action
(`Act`) answers a result or a fault and the machine afterwards; a fault undoes nothing.

Changes of the tree are counted, and `faults` says which of them fail for a reason that lies
outside (a full disk, a lost permission). On a sound machine none does. The machine also
remembers the argument lists with which a toolchain was started, and has its own words for a
file that its dynamic loader cannot map.
-/

import SnippetConsole.FileTree.Change
import SnippetConsole.Environment
import SnippetConsole.Machine.RequestId

namespace SnippetConsole

open FileTree

/-- The state of a machine. -/
structure Machine where
  tree : Tree
  directory : Location
  environment : Environment
  ids : Nat → RequestId
  idsUsed : Nat
  faults : Nat → Option Fault
  changes : Nat
  runs : List (List Bytes)
  /-- What the dynamic loader says of the file at a path if it cannot map it. -/
  loaderWords : FilePath → String

/-- An action on a machine that may fail with `ε`. -/
abbrev Act (ε α : Type) := EStateM ε Machine α

namespace Machine

/-- A machine with a file tree and variables, on which no change fails by itself. -/
def sound (tree : Tree) (directory : Location) (environment : Environment)
    (ids : Nat → RequestId) (loaderWords : FilePath → String := fun _ => "<loader text>") :
    Machine :=
  ⟨tree, directory, environment, ids, 0, fun _ => none, 0, [], loaderWords⟩

/-- An answer that changes nothing. -/
def asks (f : Machine → Except ε α) : Act ε α := fun m =>
  match f m with
  | .ok a => .ok a m
  | .error e => .error e m

/-- One change of the tree, which is counted and may fail for an outside reason. -/
def change (f : Tree → Location → Except Fault Tree) : Act Fault Unit := fun m =>
  let counted := { m with changes := m.changes + 1 }
  match m.faults m.changes with
  | some fault => .error fault counted
  | none =>
    match f m.tree m.directory with
    | .error fault => .error fault counted
    | .ok tree => .ok () { counted with tree := tree }

/-- What an action came to, as a value: its fault becomes an answer. -/
def attempt (act : Act ε α) : Act ε' (Except ε α) := fun m =>
  match act m with
  | .ok a m => .ok (.ok a) m
  | .error e m => .ok (.error e) m

/-- The machine after an action, whatever the action came to. -/
def after (m : Machine) (act : Act ε α) : Machine :=
  match act m with
  | .ok _ m => m
  | .error _ m => m

/-- An action with its fault seen as another one. -/
def withFault (f : ε → ε') (act : Act ε α) : Act ε' α := fun m =>
  match act m with
  | .ok a m => .ok a m
  | .error e m => .error (f e) m

/-- The next request id of the supply. -/
def nextId : Act ε RequestId := fun m => .ok (m.ids m.idsUsed) { m with idsUsed := m.idsUsed + 1 }

/-- Remembers that a toolchain is started with these arguments. -/
def noteRun (arguments : List Bytes) : Act ε Unit := fun m =>
  .ok () { m with runs := m.runs ++ [arguments] }

/-- What a path leads to. -/
def find? (m : Machine) (p : FilePath) : Option (Location × Node) :=
  (m.tree.find m.directory true p).toOption

/-- Whether a path leads to something. -/
def pathExists (m : Machine) (p : FilePath) : Bool := (m.find? p).isSome

/-- Whether a path leads to a directory. -/
def isDirectory (m : Machine) (p : FilePath) : Bool :=
  match m.find? p with
  | some (_, .directory) => true
  | _ => false

/-- Whether a path leads to a file. -/
def isFile (m : Machine) (p : FilePath) : Bool :=
  match m.find? p with
  | some (_, .file _) => true
  | _ => false

/-- The directory for files that need not stay. -/
def temporaryDirectory (m : Machine) : FilePath :=
  (m.environment.get? "TMPDIR").getD (FilePath.ofString "/tmp")

/-- The file at `p` as text. -/
def textOf (m : Machine) (p : FilePath) : Except Fault String := do
  match ← m.tree.find m.directory true p with
  | (_, .file (.bytes content)) =>
    match Text.decode? content with
    | some text => .ok text
    | none => .error .notText
  | (_, .file _) => .error .notText
  | _ => .error .isDirectory

/-- The names in the directory at `p`. -/
def namesAt (m : Machine) (p : FilePath) : Except Fault (List Bytes) := do
  match ← m.tree.find m.directory true p with
  | (loc, .directory) => .ok (m.tree.namesIn loc)
  | _ => .error .notDirectory

end Machine
end SnippetConsole
