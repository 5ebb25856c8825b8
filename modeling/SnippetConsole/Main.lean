/-
# The executable

The program over the variables it is started with, its input, the clock and the settings file.
All else it finds and changes is a machine held in memory, so no compiler is ever started;
settings that a session saves are written back.
-/

import SnippetConsole.CommandLine.Program
import Std.Time.DateTime.Timestamp

namespace SnippetConsole
namespace CommandLine

/-- The variables that the program reads. -/
def variableNames : List String :=
  ["HOME", "TMPDIR", "PATH", "PWD", "CARGO", "RUSTC", "LIVECODE_RUSTC", "LIVECODE_WORKSPACE",
    "LIVECODE_MAX_HISTORY", "LIVECODE_SHOW_ON_ERROR", "LIVECODE_LOG_LEVEL"]

/-- The variables that are set. -/
def readEnvironment : IO Environment := do
  let entries ← variableNames.filterMapM fun name => do
    return (← IO.getEnv name).map fun value => (name, Text.encode value)
  return ⟨entries⟩

/-- All bytes of a stream, after those read before. -/
partial def readAll (stream : IO.FS.Stream) (before : ByteArray) : IO ByteArray := do
  let chunk ← stream.read 4096
  if chunk.isEmpty then return before else readAll stream (before ++ chunk)

/-- A clock that stands at the time now. -/
def readClock : IO Clock := do
  let now ← Std.Time.Timestamp.now
  return .still ⟨now.toSecondsSinceUnixEpoch.val,
    (now.toNanosecondsSinceUnixEpoch.val % 1000000000).toNat⟩

/-- The settings file that the arguments or the variables name. -/
def settingsFileOf (arguments : List Bytes) (m : Machine) : Option FilePath :=
  (Options.ofArguments arguments).toOption.map (settingsFile · m)

/-- The bytes of a file of the machine. -/
def bytesAt? (m : Machine) (p : FilePath) : Option Bytes :=
  match m.find? p with
  | some (_, .file (.bytes content)) => some content
  | _ => none

/-- The machine in memory: the directories that the variables name and the settings file. -/
def machineOf (environment : Environment) (file : Option (FilePath × Bytes)) : Machine :=
  let directory : FilePath := (environment.get? "PWD").getD [FilePath.slash]
  let m : Machine :=
    .sound .empty directory.names.reverse environment (RequestId.timeOrdered 0)
  let m := [directory, m.temporaryDirectory].foldl (fun m p => m.after (Machine.makeDirectories p)) m
  match file with
  | none => m
  | some (p, content) => m.after (Machine.placeFile p (.bytes content))

end CommandLine
end SnippetConsole

open SnippetConsole CommandLine in
/-- Runs the program. -/
def main (arguments : List String) : IO UInt32 := do
  let arguments := arguments.map Text.encode
  let environment ← readEnvironment
  let file? := settingsFileOf arguments (machineOf environment none)
  let content? ← file?.bindM fun file => do
    try return some (file, (← IO.FS.readBinFile (FilePath.display file)).toList)
    catch _ => return none
  let stdin ← readAll (← IO.getStdin) .empty
  let report := run arguments stdin.toList (← readClock) (machineOf environment content?)
  (← IO.getStdout).putStr report.stdout
  (← IO.getStderr).putStr report.stderr
  match file? with
  | none => pure ()
  | some file =>
    let saved := bytesAt? report.machine file
    if saved ≠ content?.map (·.2) then
      match saved with
      | some bytes =>
        match file.parent? with
        | some parent => IO.FS.createDirAll (FilePath.display parent)
        | none => pure ()
        IO.FS.writeBinFile (FilePath.display file) ⟨bytes.toArray⟩
      | none => pure ()
  return UInt32.ofNat report.status
