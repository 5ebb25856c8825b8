/-
# Settings

Four sections: the console and its log, the workspace, the toolchain, and the console's own
diagnostics. `standard` values are what holds where a document says nothing.
-/

namespace SnippetConsole
namespace Settings

/-- The console and its log. -/
structure Console where
  /-- Number of log entries kept. -/
  maxHistoryLength : UInt64
  /-- Template of a printed log line. -/
  formatString : String
  /-- Reveal the log on information. -/
  showOnMessage : Bool
  /-- Reveal the log on warnings. -/
  showOnWarning : Bool
  /-- Reveal the log on errors and exceptions. -/
  showOnError : Bool
  /-- Scroll to each new entry. -/
  autoScrollToBottom : Bool
  /-- Put events of the application into the log. -/
  forwardTracing : Bool
  /-- Put panics of the host into the log. -/
  logPanics : Bool
  deriving DecidableEq, Repr

/-- The scratch workspace: its root, which is wiped at each start. -/
structure Workspace where
  path : Option String
  deriving DecidableEq, Repr

/-- A library that snippets are linked against, under a name. -/
structure Reference where
  name : String
  path : String
  deriving DecidableEq, Repr

/-- The compiler and how it is called. -/
structure Toolchain where
  /-- The compiler program; found from the environment if it is not given. -/
  program : Option String
  /-- The level of optimisation, 0 to 3. -/
  optLevel : UInt8
  /-- Arguments added as they are. -/
  extraArgs : List String
  /-- Libraries that snippets are linked against. -/
  references : List Reference
  /-- Directories in which libraries are searched. -/
  libraryPaths : List String
  /-- Lines placed above each snippet. -/
  prelude : List String
  deriving DecidableEq, Repr

/-- The console's own diagnostics: the filter of what is written. -/
structure Logging where
  level : String
  deriving DecidableEq, Repr

/-- The standard console section. -/
def Console.standard : Console where
  maxHistoryLength := 1024
  formatString := "[\x7b\x7btype\x7d\x7d] \x7b\x7bcaller\x7d\x7d: \x7b\x7bmessage\x7d\x7d"
  showOnMessage := false
  showOnWarning := false
  showOnError := true
  autoScrollToBottom := true
  forwardTracing := true
  logPanics := true

/-- The standard workspace section. -/
def Workspace.standard : Workspace := ⟨none⟩

/-- The lines placed above each snippet unless others are given. -/
def standardPrelude : List String := [
  "use std::collections::\x7bBTreeMap, BTreeSet, HashMap, HashSet, VecDeque\x7d;",
  "use std::fmt::Write as _;",
  "use std::sync::\x7bArc, Mutex\x7d;",
  "use std::time::\x7bDuration, Instant\x7d;"]

/-- The standard toolchain section. -/
def Toolchain.standard : Toolchain := ⟨none, 0, [], [], [], standardPrelude⟩

/-- The standard logging section. -/
def Logging.standard : Logging := ⟨"warn"⟩

/-- The section with the fields that shape the log as they are by default; whether events and
panics are recorded, and scrolling, stay as they are. -/
def Console.resetLogFields (c : Console) : Console :=
  { c with
    maxHistoryLength := Console.standard.maxHistoryLength
    formatString := Console.standard.formatString
    showOnMessage := Console.standard.showOnMessage
    showOnWarning := Console.standard.showOnWarning
    showOnError := Console.standard.showOnError }

end Settings

/-- The settings of a console. -/
structure Settings where
  version : String
  console : Settings.Console
  workspace : Settings.Workspace
  toolchain : Settings.Toolchain
  logging : Settings.Logging
  deriving DecidableEq, Repr

/-- The standard settings. -/
def Settings.standard : Settings :=
  ⟨"0.1.0", .standard, .standard, .standard, .standard⟩

end SnippetConsole
