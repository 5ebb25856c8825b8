/-
# Loading and saving settings

Loading merges the document in a file over the standard settings, reads the result, applies
the environment and checks two bounds: at least one log entry is kept, and the level of
optimisation is at most 3. A file that does not exist stands for an empty document; any other
failure to read it is a fault. Saving makes the directories it needs.
-/

import SnippetConsole.Json.Merge
import SnippetConsole.Machine.Files
import SnippetConsole.Settings.Document
import SnippetConsole.Settings.Override

namespace SnippetConsole
namespace Settings

/-- A bound that settings break. -/
inductive Violation where
  | noHistory
  | optLevelTooHigh (level : UInt8)
  deriving DecidableEq, Repr

/-- The words for a broken bound. -/
def Violation.message : Violation → String
  | noHistory => "console.maxHistoryLength must be at least 1"
  | optLevelTooHigh level => "toolchain.optLevel must be 0-3, got " ++ toString level.toNat

/-- Why settings cannot be loaded or saved. -/
inductive Fault where
  | file (path : FilePath) (fault : FileTree.Fault)
  | unreadable (text : String) (fault : Json.Fault)
  | unsuitable (fault : Json.DataFault)
  | invalid (violation : Violation)
  deriving DecidableEq, Repr

/-- The words for the cause of a fault alone, if it has a cause of its own. -/
def Fault.source? : Fault → Option String
  | file _ fault => some fault.message
  | unreadable text fault => some (fault.message text)
  | unsuitable fault => some fault.message
  | invalid _ => none

/-- The words for a fault. -/
def Fault.message : Fault → String
  | file path fault => "settings file " ++ path.display ++ ": " ++ fault.message
  | unreadable text fault => "malformed settings: " ++ fault.message text
  | unsuitable fault => "malformed settings: " ++ fault.message
  | invalid violation => "invalid settings value: " ++ violation.message

/-- The first bound that settings break. -/
def violation? (s : Settings) : Option Violation :=
  if s.console.maxHistoryLength = 0 then some .noHistory
  else if 3 < s.toolchain.optLevel then some (.optLevelTooHigh s.toolchain.optLevel)
  else none

/-- Settings read from a JSON value. -/
def ofValue (v : Json.Value) : Except Json.DataFault Settings := shape.decoder.ofValue v

/-- The standard settings as a value. -/
def standardValue : Json.Value := standard.toValue.sorted

/-- The settings of a document, merged over the standard ones. -/
def ofDocument (document : Json.Value) : Except Fault Settings :=
  match ofValue (Json.merge standardValue document) with
  | .ok s => .ok s
  | .error fault => .error (.unsuitable fault)

/-- The settings of the text of a file; none stands for an empty document. -/
def ofFileText? : Option String → Except Fault Settings
  | none => ofDocument .null
  | some text =>
    match Json.document text with
    | .error fault => .error (.unreadable text fault)
    | .ok document => ofDocument document

/-- The settings with what the environment says, if they keep the bounds. -/
def checked (env : Environment) (s : Settings) : Except Fault Settings :=
  let s := s.withOverrides env
  match s.violation? with
  | some violation => .error (.invalid violation)
  | none => .ok s

/-- The settings of the file at a path. -/
def load (path : FilePath) (m : Machine) : Except Fault Settings := do
  let text ←
    match m.textOf path with
    | .ok text => .ok (some text)
    | .error fault => if fault.kind = .notFound then .ok none else .error (.file path fault)
  checked m.environment (← ofFileText? text)

/-- Writes settings to a file. -/
def save (s : Settings) (path : FilePath) : Act Fault PUnit := do
  match path.parent? with
  | none => pure ()
  | some parent => Machine.withFault (.file parent) (Machine.makeDirectories parent)
  Machine.withFault (.file path) (Machine.writeFile path (.bytes (Text.encode s.fileText)))

/-- The file of a user's settings: `.livecode/settings.json` in the home directory, or in
the directory for temporary files if there is no home. -/
def defaultPath (m : Machine) : FilePath :=
  let home : FilePath := (m.environment.get? "HOME").getD m.temporaryDirectory
  FilePath.join (home.join (.ofString ".livecode")) (.ofString "settings.json")

end Settings
end SnippetConsole
