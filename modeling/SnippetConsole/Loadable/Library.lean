/-
# Loadable units

A compiled unit is a library that registers *entry points*. An entry point has a layout
version, a name, a constructor that may fail, and two hooks. When a hook runs, it calls the
host back: it logs texts with severity codes and reports faults, and returns a status. A call
that does not pass the host's context back reaches nobody.

A unit here is what it does when it is used: the registrations it makes, or none if it
has no registration function, and for each hook what its first, second, … run does. The last
run given stands for all later ones.
-/

import SnippetConsole.Text.Utf8

namespace SnippetConsole
namespace Loadable

/-- The layout version that host and units share. -/
def layoutVersion : UInt32 := 1

/-- The status of a hook that completed. -/
def statusOk : UInt32 := 0

/-- A call of a running hook to its host; a text that is missing is empty. -/
inductive HostCall where
  | log (code : UInt32) (text : Option Bytes)
  | fault (text : Option Bytes)
  | withoutContext
  deriving DecidableEq, Repr

/-- One run of a hook: its calls in order, and the status it returns. -/
structure HookRun where
  calls : List HostCall
  status : UInt32
  deriving DecidableEq, Repr

/-- A run that does nothing. -/
def HookRun.idle : HookRun := ⟨[], statusOk⟩

/-- The run number `n`, counted from 0, of a hook with the given first runs. -/
def runNumber (runs : List HookRun) (n : Nat) : HookRun :=
  match runs[n]? with
  | some run => run
  | none => runs.getLast?.getD .idle

/-- An entry point as a unit registers it. -/
structure EntryPoint where
  version : UInt32
  name : Option Bytes
  constructs : Bool
  onLoad : List HookRun
  onUnload : List HookRun
  deriving DecidableEq, Repr

/-- One call of a unit's registration function: with an entry point, with none, or without
the host's context. -/
inductive Registration where
  | entry (point : EntryPoint)
  | nothing
  | withoutContext
  deriving DecidableEq, Repr

/-- A loadable unit. -/
structure Library where
  registrations : Option (List Registration)
  deriving DecidableEq, Repr

end Loadable
end SnippetConsole
