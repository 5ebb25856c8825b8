/-
# Calling a compiler

A compiler is called with a list of arguments: the kind and name of what it makes, the level
of optimisation, search paths, libraries, extra arguments, and last where the artifact goes
and the root source file. It answers whether it succeeded, and two texts.
-/

import SnippetConsole.FilePath
import SnippetConsole.Settings.Basic
import SnippetConsole.Text.Blank

namespace SnippetConsole
namespace Compile

/-- A library that units are linked against, under a name. -/
structure Extern where
  name : String
  path : FilePath
  deriving DecidableEq, Repr

/-- The libraries and search paths of a unit, each in the given order. -/
structure References where
  externs : List Extern
  searchPaths : List FilePath
  deriving DecidableEq, Repr

/-- No libraries and no search paths. -/
def References.empty : References := ⟨[], []⟩

/-- The libraries and search paths of the settings. -/
def References.ofSettings (t : Settings.Toolchain) : References where
  externs := t.references.map fun r => ⟨r.name, .ofString r.path⟩
  searchPaths := t.libraryPaths.map .ofString

/-- What one artifact is made from. -/
structure Invocation where
  root : FilePath
  output : FilePath
  optLevel : UInt8
  references : References
  extraArgs : List String
  deriving DecidableEq, Repr

/-- The name under which every unit is compiled. -/
def unitName : String := "livecode_snippet"

/-- The flag before the path of the artifact. -/
def outputFlag : Bytes := Text.encode "-o"

/-- The arguments of a call. -/
def Invocation.arguments (i : Invocation) : List Bytes :=
  ["--crate-type", "cdylib", "--crate-name", unitName, "--edition", "2021", "--color", "never",
      "-C", "opt-level=" ++ toString i.optLevel.toNat].map Text.encode
    ++ i.references.searchPaths.flatMap (fun p => [Text.encode "-L", p])
    ++ i.references.externs.flatMap
      (fun e => [Text.encode "--extern", Text.encode (e.name ++ "=") ++ e.path])
    ++ i.extraArgs.map Text.encode
    ++ [outputFlag, i.output, i.root]

/-- What a compiler answered. A compiler that a signal ended has no exit code. -/
structure Output where
  success : Bool
  exitCode : Option Int
  stdout : String
  stderr : String
  deriving DecidableEq, Repr

/-- What to tell about a failure: the second text if it is not blank, else the first, else how
the compiler ended. -/
def Output.diagnostics (o : Output) : String :=
  let stderr := Text.trim o.stderr
  let stdout := Text.trim o.stdout
  if stderr ≠ "" then stderr
  else if stdout ≠ "" then stdout
  else
    match o.exitCode with
    | some code => "compiler exited with status " ++ toString code
    | none => "compiler was terminated by a signal"

end Compile
end SnippetConsole
