/-
# Compiling a unit

A unit is compiled inside a request. It is checked before anything is written: it has a
file, the libraries it refers to exist, each file name ends in a name, and no two end in the
same one. Then each file is written into the source directory under its final name, the
toolchain is run, and the artifact has to be there as a file. After any failure the artifact
directory is emptied; if that fails too, nothing more is done about it.
-/

import SnippetConsole.Compile.Toolchain
import SnippetConsole.Snippet.Basic
import SnippetConsole.Workspace

namespace SnippetConsole
namespace Compile

open Snippet (SourceFile SourceUnit)

/-- Why a unit has no artifact. -/
inductive Fault where
  | emptyUnit
  | missingReference (name : String) (path : FilePath)
  | rejected (diagnostics : String)
  | artifactMissing (path : FilePath)
  | file (fault : FileTree.Fault)
  deriving DecidableEq, Repr

/-- The words for a fault. -/
def Fault.message : Fault → String
  | emptyUnit => "compile unit has no files"
  | missingReference name path => "reference `" ++ name ++ "` not found at " ++ path.display
  | rejected diagnostics => diagnostics
  | artifactMissing path => "compiler produced no artifact at " ++ path.display
  | file fault => "compiler I/O error: " ++ fault.message

/-- The fault of a file name that ends in no name. -/
def invalidName (name : String) : FileTree.Fault :=
  .custom .invalidInput ("invalid source file name `" ++ name ++ "`")

/-- The fault of a file name that ends like an earlier one. -/
def duplicateName (name : String) : FileTree.Fault :=
  .custom .invalidInput ("duplicate source file name `" ++ name ++ "` in unit")

/-- The first library that does not exist. -/
def References.missing? (r : References) (m : Machine) : Option Extern :=
  r.externs.find? fun e => !m.pathExists e.path

/-- Checks that every library exists. -/
def References.verify (r : References) (m : Machine) : Except Fault Unit :=
  match r.missing? m with
  | some e => .error (.missingReference e.name e.path)
  | none => .ok ()

/-- The final names of files. -/
def finalNames : List SourceFile → Except FileTree.Fault (List (Bytes × SourceFile))
  | [] => .ok []
  | file :: files =>
    match FilePath.fileName? (.ofString file.name) with
    | none => .error (invalidName file.name)
    | some name => do .ok ((name, file) :: (← finalNames files))

/-- The first file whose final name is among `seen` or that of an earlier file. -/
def repeated? : (seen : List Bytes) → List (Bytes × SourceFile) → Option SourceFile
  | _, [] => none
  | seen, (name, file) :: files =>
    if name ∈ seen then some file else repeated? (name :: seen) files

/-- What a unit's files are called where they are written: at least one, each with a name of
its own. -/
structure Checked where
  first : Bytes
  files : List (Bytes × SourceFile)

/-- A unit checked against libraries, or what is wrong with it. -/
def check (unit : SourceUnit) (references : References) (m : Machine) : Except Fault Checked := do
  if unit.files.isEmpty then throw .emptyUnit
  references.verify m
  match finalNames unit.files with
  | .error fault => .error (.file fault)
  | .ok files =>
    match repeated? [] files, files with
    | some file, _ => .error (.file (duplicateName file.name))
    | none, [] => .error .emptyUnit
    | none, (name, _) :: _ => .ok ⟨name, files⟩

end Compile

/-- A compiler: a toolchain and what it is always called with. -/
structure Compiler where
  toolchain : Compile.Toolchain
  references : Compile.References
  optLevel : UInt8
  extraArgs : List String

namespace Compiler

open Compile

/-- A toolchain called with nothing but what it needs. -/
def plain (toolchain : Toolchain) : Compiler := ⟨toolchain, .empty, 0, []⟩

/-- The compiler that the settings describe on a machine. -/
def ofSettings (t : Settings.Toolchain) (m : Machine) : Compiler where
  toolchain := Toolchain.program (Toolchain.programOf t m)
  references := .ofSettings t
  optLevel := t.optLevel
  extraArgs := t.extraArgs

/-- How the toolchain is called for a request whose root file has this name. -/
def invocation (c : Compiler) (request : Workspace.Request) (root : Bytes) : Invocation where
  root := request.sourceDirectory.join root
  output := request.artifactPath
  optLevel := c.optLevel
  references := c.references
  extraArgs := c.extraArgs

/-- Writes the files of a unit into a directory. -/
def writeSources (directory : FilePath) (files : List (Bytes × Snippet.SourceFile)) :
    Act FileTree.Fault PUnit :=
  files.forM fun (name, file) =>
    Machine.writeFile (directory.join name) (.bytes (Text.encode file.text))

/-- Compiles a unit and leaves what was made, also after a failure. -/
def build (c : Compiler) (unit : Snippet.SourceUnit) (request : Workspace.Request) :
    Act Fault FilePath := do
  let checked ← Machine.asks (check unit c.references)
  Machine.withFault .file (writeSources request.sourceDirectory checked.files)
  let invocation := c.invocation request checked.first
  Machine.noteRun invocation.arguments
  let output ← Machine.withFault .file (c.toolchain invocation)
  if !output.success then throw (.rejected output.diagnostics)
  Machine.asks fun m =>
    if m.isFile request.artifactPath then .ok request.artifactPath
    else .error (.artifactMissing request.artifactPath)

/-- Compiles a unit; after a failure the artifact directory is emptied. -/
def compile (c : Compiler) (unit : Snippet.SourceUnit) (request : Workspace.Request) :
    Act Fault FilePath := do
  match ← Machine.attempt (c.build unit request) with
  | .ok path => pure path
  | .error fault => do
    let _ ← Machine.attempt request.clearArtifacts
    throw fault

end Compiler
end SnippetConsole
