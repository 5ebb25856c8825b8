/-
# Entries of the log

A message has a caller, a text, a severity and a time. The log keeps messages as entries:
each has an id and counts how often its text arrived with its severity in a row. Its caller
and time are those of the first arrival. When that was is for a clock to say.
-/

import SnippetConsole.Severity

namespace SnippetConsole

/-- A point in time: seconds since 1970 UTC, and nanoseconds within the second. A second of more
than `10 ^ 9` nanoseconds is a leap second. -/
structure Timestamp where
  seconds : Int
  nanoseconds : Nat
  deriving DecidableEq, Repr

namespace Timestamp

/-- The start of 1970. -/
def epoch : Timestamp := ⟨0, 0⟩

/-- A number below 100 with two digits. -/
def twoDigits (n : Nat) : String := toString (n / 10) ++ toString (n % 10)

/-- Hours, minutes and seconds of the day; a leap second is second 60. -/
def clockText (t : Timestamp) : String :=
  let ofDay := (t.seconds % 86400).toNat
  let leap := if 1000000000 ≤ t.nanoseconds then 1 else 0
  twoDigits (ofDay / 3600) ++ ":" ++ twoDigits (ofDay / 60 % 60) ++ ":"
    ++ twoDigits (ofDay % 60 + leap)

end Timestamp

/-- The times at which a log makes its entries. -/
structure Clock where
  /-- The time at which the entry with an id is made. -/
  timeOf : Nat → Timestamp

namespace Clock

/-- A clock that always shows the same time. -/
def still (t : Timestamp) : Clock := ⟨fun _ => t⟩

/-- A clock that stands at the start of 1970. -/
def epoch : Clock := still .epoch

end Clock

namespace Log

/-- Who wrote a message: the console itself, a place in a program, or someone with a name. -/
inductive Caller where
  | internal
  | place (label : String)
  | named (name : String)
  deriving DecidableEq, Repr

/-- The words for a caller. -/
def Caller.label : Caller → String
  | internal => "livecode"
  | place label => label
  | named name => name

/-- A message on its way into the log. -/
structure Message where
  caller : Caller
  text : String
  severity : Severity
  deriving DecidableEq, Repr

/-- A message in the log. -/
structure Entry where
  id : Nat
  caller : String
  text : String
  severity : Severity
  count : Nat
  time : Timestamp
  deriving DecidableEq, Repr

/-- Whether an entry carries what a message says. -/
def Entry.carries (e : Entry) (m : Message) : Bool :=
  e.severity = m.severity && e.text = m.text

end Log
end SnippetConsole
