/-
# Severity

| severity | code | word | failure |
| --- | ---: | --- | --- |
| `info` | 0 | `info` | no |
| `warning` | 1 | `warning` | no |
| `error` | 2 | `error` | yes |
| `exception` | 3 | `exception` | yes |

Units state a severity by its code; a code that is not in the table means `info`. Events of an
application state a level instead (`ofLevel`).
-/

import SnippetConsole.Json.Decoder

namespace SnippetConsole

/-- How serious a message is. -/
inductive Severity where
  | info
  | warning
  | error
  | exception
  deriving DecidableEq, Repr

/-- How verbose an event is. -/
inductive Level where
  | error
  | warn
  | info
  | debug
  | trace
  deriving DecidableEq, Repr

/-- The rank of a level; more verbose levels have greater ranks. -/
def Level.rank : Level → Nat
  | error => 0
  | warn => 1
  | info => 2
  | debug => 3
  | trace => 4

/-- The name of a level, in capitals. -/
def Level.name : Level → String
  | error => "ERROR"
  | warn => "WARN"
  | info => "INFO"
  | debug => "DEBUG"
  | trace => "TRACE"

/-- The level of a name. -/
def Level.ofName? (name : String) : Option Level :=
  [error, warn, info, debug, trace].find? (·.name = name)

/-- **Every level is known by its name.** -/
theorem Level.ofName?_name (l : Level) : ofName? l.name = some l := by cases l <;> decide

namespace Severity

/-- The code of a severity. -/
def code : Severity → UInt32
  | info => 0
  | warning => 1
  | error => 2
  | exception => 3

/-- The severity of a code. -/
def ofCode (code : UInt32) : Severity :=
  if code = 1 then warning else if code = 2 then error else if code = 3 then exception else info

/-- **Every severity has a code of its own.** -/
theorem ofCode_code (s : Severity) : ofCode s.code = s := by cases s <;> decide

/-- The severity of an event's level. -/
def ofLevel : Level → Severity
  | .error => error
  | .warn => warning
  | _ => info

/-- Errors and exceptions are failures. -/
def isFailure : Severity → Bool
  | error => true
  | exception => true
  | _ => false

/-- The word for a severity. -/
def name : Severity → String
  | info => "info"
  | warning => "warning"
  | error => "error"
  | exception => "exception"

/-- A severity as data: its word. -/
def decoder : Json.Decoder Severity :=
  .choice [("info", info), ("warning", warning), ("error", error), ("exception", exception)]

/-- A severity written as data. -/
def toValue (s : Severity) : Json.Value := .string s.name

end Severity
end SnippetConsole
