/-
# Panics

Code of the host may raise a panic with a payload. Who runs code inside a containment (`contain`)
reports its panics in words of its own; a panic raised outside of every containment is
recorded by each recorder in its log, as an exception. Either way it goes on to whoever
catches it. Several recorders may write to one log.

A piece of code is what it does to its surroundings: the logs and how deeply containments
are nested.
-/

import SnippetConsole.Log.Basic

namespace SnippetConsole
namespace Panic

/-- What a panic is raised with. -/
inductive Payload where
  | text (s : String)
  | other
  deriving DecidableEq, Repr

/-- The words for a payload. -/
def Payload.message : Payload → String
  | text s => s
  | other => "non-string panic payload"

/-- What panics find: how deeply containments are nested, the logs, and for each recorder the
number of its log, in the order in which they record. -/
structure Surroundings where
  depth : Nat
  logs : List Log
  recorders : List Nat

/-- The surroundings with one more recorder, for the log with this number. It records before
those that were there. -/
def Surroundings.install (s : Surroundings) (log : Nat) : Surroundings :=
  { s with recorders := log :: s.recorders }

/-- The message that records a panic. -/
def record (place : String) (payload : Payload) : Log.Message :=
  ⟨.named place, "panic: " ++ payload.message, .exception⟩

/-- The logs after each recorder has noted a panic. -/
def recordAll (recorders : List Nat) (m : Log.Message) (logs : List Log) : List Log :=
  recorders.foldl (fun logs i => logs.modify i (·.write m)) logs

/-- Code that answers a result or a panic. -/
abbrev Code (α : Type) := EStateM Payload Surroundings α

/-- Raises a panic at a place. Outside of every containment each recorder notes it. -/
def raise (place : String) (payload : Payload) : Code α := fun s =>
  .error payload
    (if s.depth = 0 then { s with logs := recordAll s.recorders (record place payload) s.logs }
      else s)

/-- Runs code and catches its panic. -/
def catching (code : Code α) : Code (Except Payload α) := fun s =>
  match code s with
  | .ok a s => .ok (.ok a) s
  | .error payload s => .ok (.error payload) s

/-- Runs code inside a containment, which catches its panic. -/
def contain (code : Code α) : Code (Except Payload α) := fun s =>
  match code { s with depth := s.depth + 1 } with
  | .ok a s => .ok (.ok a) { s with depth := s.depth - 1 }
  | .error payload s => .ok (.error payload) { s with depth := s.depth - 1 }

end Panic
end SnippetConsole
