/-
# Toolchains

A toolchain makes an artifact on a machine or reports that it could not be run; a unit that it
rejects is an answer, not a fault. It may be a program on the machine (`Toolchain.program`), or
follow a script (`Toolchain.scripted`).

The program is the configured one; else the one named by `LIVECODE_RUSTC` or `RUSTC`, else the
one beside the build tool named by `CARGO`, else the one found by its name.
-/

import SnippetConsole.Compile.Invocation
import SnippetConsole.Machine.Files

namespace SnippetConsole
namespace Compile

open FileTree

/-- A way to make artifacts. -/
abbrev Toolchain := Invocation → Act Fault Output

namespace Toolchain

/-! ### Programs -/

/-- The program of the standard name. -/
def standardName : FilePath := .ofString "rustc"

/-- The program that the environment names. `isFile` tells which paths are files. -/
def discover (text? : String → Option String) (isFile : FilePath → Bool) : FilePath :=
  let given (name : String) : Option String := (text? name).filter (· ≠ "")
  match given "LIVECODE_RUSTC" <|> given "RUSTC" with
  | some program => .ofString program
  | none =>
    match given "CARGO" with
    | none => standardName
    | some tool =>
      let sibling := FilePath.withFileName (.ofString tool) standardName
      if isFile sibling then sibling else standardName

/-- The program that the settings name, or else the environment. -/
def programOf (t : Settings.Toolchain) (m : Machine) : FilePath :=
  match t.program.filter (· ≠ "") with
  | some program => .ofString program
  | none => discover m.environment.text? m.isFile

/-- Where a program is looked for: its path if it has a slash, else in each directory of
`PATH`. -/
def candidates (program : FilePath) (m : Machine) : List FilePath :=
  if FilePath.slash ∈ program then [program]
  else if program = [] then []
  else
    match m.environment.get? "PATH" with
    | none => []
    | some path =>
      (path.splitOn 58).map fun dir => FilePath.join (if dir = [] then FilePath.here else dir) program

/-- The program that a path leads to, if it may be run. -/
def runnable (m : Machine) (p : FilePath) : Except Fault Program := do
  match ← m.tree.find m.directory true p with
  | (_, .file (.program program true)) => .ok program
  | _ => .error .denied

/-- The first program that may be run, or the first reason but absence why there is none. -/
def firstRunnable (m : Machine) : List FilePath → Except Fault Program
  | [] => .error .missing
  | p :: ps =>
    match runnable m p with
    | .ok program => .ok program
    | .error fault =>
      if fault.kind = .notFound then firstRunnable m ps
      else
        match firstRunnable m ps with
        | .ok program => .ok program
        | .error _ => .error fault

/-- Puts an artifact at a path. -/
def place (artifact : Artifact) (p : FilePath) : Act Fault Unit :=
  match artifact with
  | .nothing => pure ()
  | .directory => Machine.makeDirectory p
  | .bytes content => Machine.writeFile p (.bytes content)
  | .library library => Machine.writeFile p (.library library)

/-- What a program writes to its second output when it is run with these arguments. -/
def errorText (program : Program) (arguments : List Bytes) : Bytes :=
  program.stderr
    ++ (if program.listsArguments then arguments.flatMap (· ++ [10]) else [])

/-- What a program answers that was run with these arguments. Of its status the last eight bits
count. -/
def outputFrom (program : Program) (arguments : List Bytes) : Output :=
  let exitCode :=
    match program.ending with
    | .status code => some (code % 256)
    | .signal _ => none
  ⟨exitCode = some 0, exitCode, Text.lossy program.stdout,
    Text.lossy (errorText program arguments)⟩

/-- A program run as a toolchain. That it cannot put its artifact where it should is its own
affair. -/
def program (p : FilePath) : Toolchain := fun invocation => do
  let arguments := invocation.arguments
  if (p :: arguments).any (·.contains 0) then throw .nulInArgument
  let found ← Machine.asks fun m => firstRunnable m (candidates p m)
  let _ ← Machine.attempt (place found.artifact invocation.output)
  pure (outputFrom found arguments)

/-! ### Scripts -/

/-- What a scripted toolchain does in one run: it cannot be run, or it puts an artifact and
other files where the artifact goes and answers. -/
inductive Script where
  | unavailable (fault : Fault)
  | run (artifact : Artifact) (litter : List (String × Bytes)) (output : Output)
  deriving DecidableEq, Repr

/-- One file beside a path, with the directories it needs. -/
def placeBeside (output : FilePath) (file : String × Bytes) : Act Fault Unit :=
  Machine.placeFile (FilePath.join (output.parent?.getD []) (.ofString file.1)) (.bytes file.2)

/-- One run of a scripted toolchain. -/
def Script.play : Script → Toolchain
  | .unavailable fault => fun _ => throw fault
  | .run artifact litter output => fun invocation => do
    place artifact invocation.output
    litter.forM (placeBeside invocation.output)
    pure output

/-- The script of the run number `n`, counted from 0: the last one given stands for all later
ones, and without any, a run that does nothing and succeeds. -/
def scriptNumber (scripts : List Script) (n : Nat) : Script :=
  match scripts[n]? with
  | some script => script
  | none => scripts.getLast?.getD (.run .nothing [] ⟨true, some 0, "", ""⟩)

/-- A toolchain that follows scripts, one a run. -/
def scripted (scripts : List Script) : Toolchain := fun invocation => do
  let started ← Machine.asks fun m => .ok m.runs.length
  (scriptNumber scripts (started - 1)).play invocation

end Toolchain
end Compile
end SnippetConsole
