/-
# Loading units

A loader maps a library, lets it register its entry points and makes an instance of the
first one it registered; what else it registers is not looked at. A library stays mapped once
it is, whatever happens next.

While a hook of an instance runs, each text that it logs becomes a message of
`<name>::<hook>`, and each fault it reports replaces the one before. Its status decides what
is answered: zero is success; any other is a failure with the last fault of this run, or the
status itself if there was none.

The calls that the unit sees are answered beside the result.
-/

import SnippetConsole.Execution.Failure
import SnippetConsole.Log.Basic

namespace SnippetConsole
namespace Loadable

open Execution (Failure)

/-- The text of bytes that a unit hands over; missing ones are empty. -/
def textOf (bytes : Option Bytes) : String := Text.lossy (bytes.getD [])

/-- A call that a unit sees, with the number of the registration it is for. -/
inductive Call where
  | register
  | create (index : Nat) (made : Bool)
  | onLoad (index : Nat)
  | onUnload (index : Nat)
  | destroy (index : Nat)
  deriving DecidableEq, Repr

/-- The two hooks of an entry point. -/
inductive Hook where
  | load
  | unload
  deriving DecidableEq, Repr

/-- The name of a hook. -/
def Hook.name : Hook → String
  | load => "on_load"
  | unload => "on_unload"

/-- An instance of an entry point: the number of its registration, its name, and how often each
hook ran. -/
structure Instance where
  index : Nat
  point : EntryPoint
  name : String
  loads : Nat
  unloads : Nat
  deriving DecidableEq, Repr

/-- A loader, by the number of libraries it has mapped. -/
structure Loader where
  mapped : Nat
  deriving DecidableEq, Repr

/-- A loader that has mapped nothing. -/
def Loader.new : Loader := ⟨0⟩

/-- The first entry point among registrations, with its number; registrations without one, or
without the host's context, are passed over. -/
def firstEntry? : (index : Nat) → List Registration → Option (Nat × EntryPoint)
  | _, [] => none
  | i, .entry point :: _ => some (i, point)
  | i, _ :: rest => firstEntry? (i + 1) rest

/-- The fault of an entry point with another layout. -/
def wrongLayout (version : UInt32) : Failure :=
  .loadFailed ("entry point uses ABI version " ++ toString version.toNat ++ ", host expects "
    ++ toString layoutVersion.toNat)

/-- An instance of the first of these registrations, with the calls that the unit sees. -/
def makeInstance (registrations : List Registration) : Except Failure Instance × List Call :=
  match firstEntry? 0 registrations with
  | none => (.error .noEntryPoint, [])
  | some (index, point) =>
    if point.version ≠ layoutVersion then (.error (wrongLayout point.version), [])
    else if point.constructs then
      (.ok ⟨index, point, textOf point.name, 0, 0⟩, [.create index true])
    else (.error (.instantiationFailed (textOf point.name)), [.create index false])

/-- An instance of what a library registers first; none stands for a file that cannot be mapped,
for which `reason` is what the system's loader says. -/
def Loader.instantiate (loader : Loader) (library : Option Library)
    (reason : String := "<loader text>") : (Except Failure Instance × List Call) × Loader :=
  match library with
  | none => ((.error (.loadFailed reason), []), loader)
  | some library =>
    (match library.registrations with
      | none => (.error .noEntryPoint, [])
      | some registrations =>
        let (result, calls) := makeInstance registrations
        (result, .register :: calls),
      ⟨loader.mapped + 1⟩)

/-- The library in the file at a path, if there is one. -/
def libraryAt (p : FilePath) (m : Machine) : Option Library :=
  match m.find? p with
  | some (_, .file (.library library)) => some library
  | _ => none

/-- The messages that calls of a running hook log, in order. -/
def messagesOf (caller : String) (calls : List HostCall) : List Log.Message :=
  calls.filterMap fun call =>
    match call with
    | .log code text => some ⟨.named caller, textOf text, Severity.ofCode code⟩
    | _ => none

/-- The last fault that calls of a running hook report. -/
def lastFault? (calls : List HostCall) : Option String :=
  calls.foldl (fun fault call =>
    match call with
    | .fault text => some (textOf text)
    | _ => fault) none

/-- What a run of a hook is answered with. -/
def resultOf (hook : Hook) (run : HookRun) : Except Failure Unit :=
  if run.status = statusOk then .ok ()
  else
    .error (.invocationFailed ((lastFault? run.calls).getD
      (hook.name ++ " returned status " ++ toString run.status.toNat)))

namespace Instance

/-- The next run of a hook. -/
def nextRun (i : Instance) : Hook → HookRun
  | .load => runNumber i.point.onLoad i.loads
  | .unload => runNumber i.point.onUnload i.unloads

/-- The instance after a run of a hook. -/
def afterRun (i : Instance) : Hook → Instance
  | .load => { i with loads := i.loads + 1 }
  | .unload => { i with unloads := i.unloads + 1 }

/-- Whom the messages of a hook are from. -/
def caller (i : Instance) (hook : Hook) : String := i.name ++ "::" ++ hook.name

/-- The call that the unit sees when a hook runs. -/
def hookCall (i : Instance) : Hook → Call
  | .load => .onLoad i.index
  | .unload => .onUnload i.index

/-- Runs a hook: its messages, its result, and the instance afterwards. -/
def invoke (i : Instance) (hook : Hook) : List Log.Message × Except Failure Unit × Instance :=
  let run := i.nextRun hook
  (messagesOf (i.caller hook) run.calls, resultOf hook run, i.afterRun hook)

/-- The call that the unit sees when an instance is dropped. -/
def dropCall (i : Instance) : Call := .destroy i.index

end Instance
end Loadable
end SnippetConsole
