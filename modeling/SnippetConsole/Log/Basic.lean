/-
# The log

A bounded log of messages. A message that says the same as the newest entry raises that
entry's count; any other becomes a new entry with the next id, and the oldest entries go as
soon as there are more than the policy allows. Clearing the log does not reset the ids. Every
append, clearing and change of policy moves the revision, a word of 64 bits.

The entries are kept newest first. Two signals wait for the view until it takes them: a new
entry raises them as the policy in force says.
-/

import SnippetConsole.Log.Entry
import SnippetConsole.Log.Policy

namespace SnippetConsole

/-- A log: its entries, newest first, its state towards the view, and the clock for new entries. -/
structure Log where
  newestFirst : List Log.Entry
  policy : Log.Policy
  nextId : Nat
  revealRequested : Bool
  scrollRequested : Bool
  revision : UInt64
  clock : Clock

namespace Log

/-- What became of an appended message: a new entry, or one more count of the newest. -/
inductive Outcome where
  | added (id : Nat)
  | repeated (id count : Nat)
  deriving DecidableEq, Repr

/-- The id of the entry that has the message. -/
def Outcome.id : Outcome → Nat
  | added id => id
  | repeated id _ => id

/-- An empty log with a policy, which is taken as it is, and a clock. -/
def new (policy : Policy) (clock : Clock := .epoch) : Log :=
  ⟨[], policy, 1, false, false, 0, clock⟩

/-- An empty log with the standard policy. -/
def standard (clock : Clock := .epoch) : Log := new .standard clock

/-- The entries, oldest first. -/
def snapshot (log : Log) : List Entry := log.newestFirst.reverse

/-- The newest entry. -/
def last? (log : Log) : Option Entry := log.newestFirst.head?

/-- Number of entries. -/
def length (log : Log) : Nat := log.newestFirst.length

/-- The entries with an id greater than `after`, oldest first. -/
def since (log : Log) (after : Nat) : List Entry := log.snapshot.filter (after < ·.id)

/-- The entry for a message that is new in the log. -/
def entryOf (log : Log) (m : Message) : Entry :=
  ⟨log.nextId, m.caller.label, m.text, m.severity, 1, log.clock.timeOf log.nextId⟩

/-- The entry that a message repeats, with its count raised, and the entries before it. -/
def repeated? (log : Log) (m : Message) : Option (Entry × List Entry) :=
  match log.newestFirst with
  | [] => none
  | e :: rest => if e.carries m then some ({ e with count := e.count + 1 }, rest) else none

/-- The log with a message, and what became of it. -/
def append (log : Log) (m : Message) : Outcome × Log :=
  match log.repeated? m with
  | some (e, rest) =>
    (.repeated e.id e.count,
      { log with newestFirst := e :: rest, revision := log.revision + 1 })
  | none =>
    (.added log.nextId,
      { log with
        newestFirst := (log.entryOf m :: log.newestFirst).take log.policy.maxEntries
        nextId := log.nextId + 1
        revealRequested := log.revealRequested || log.policy.reveals m.severity
        scrollRequested := log.scrollRequested || log.policy.autoScroll
        revision := log.revision + 1 })

/-- The log without entries. -/
def clear (log : Log) : Log := { log with newestFirst := [], revision := log.revision + 1 }

/-- The log with another policy, which keeps at least one entry. -/
def setPolicy (log : Log) (policy : Policy) : Log :=
  { log with
    policy := policy.clamped
    newestFirst := log.newestFirst.take policy.clamped.maxEntries
    revision := log.revision + 1 }

/-- Takes the request to show the log. -/
def takeReveal (log : Log) : Bool × Log :=
  (log.revealRequested, { log with revealRequested := false })

/-- Takes the request to scroll. -/
def takeScroll (log : Log) : Bool × Log :=
  (log.scrollRequested, { log with scrollRequested := false })

/-- The log with a message, whatever became of it. -/
def write (log : Log) (m : Message) : Log := (log.append m).2

/-- The log with a message of the console itself. -/
def note (log : Log) (text : String) (severity : Severity) : Log :=
  log.write ⟨.internal, text, severity⟩

/-- Something done to a log. -/
inductive Operation where
  | append (m : Message)
  | clear
  | setPolicy (policy : Policy)
  | takeReveal
  | takeScroll
  deriving DecidableEq, Repr

/-- The log after an operation. -/
def apply (log : Log) : Operation → Log
  | .append m => log.write m
  | .clear => log.clear
  | .setPolicy policy => log.setPolicy policy
  | .takeReveal => log.takeReveal.2
  | .takeScroll => log.takeScroll.2

/-- The log after operations in order. -/
def applyAll (log : Log) (ops : List Operation) : Log := ops.foldl apply log

/-- **A new message becomes the newest entry,** if the policy keeps any. -/
theorem last?_append_of_new {log : Log} {m : Message} (h : log.repeated? m = none)
    (hp : 1 ≤ log.policy.maxEntries) : (log.append m).2.last? = some (log.entryOf m) := by
  obtain ⟨n, hn⟩ := Nat.exists_eq_add_of_le hp
  simp [append, h, last?, hn, Nat.add_comm 1 n]

end Log
end SnippetConsole
