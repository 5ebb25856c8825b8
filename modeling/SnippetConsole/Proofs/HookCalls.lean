/-
# Calls of hooks

What is reported of a hook depends on its own run alone. While it runs, the host keeps the log, whom
messages are from and the last fault; each call of the hook changes that by one step
(`Context.receive`). It starts without a fault, so no fault is left from an earlier run, and at the
end it has what the calls of the run amount to (`call_eq`).

Each logged text is one message (`logs_messagesOf`), and the status alone decides between success
and failure; the last fault of the run only words the failure (`answered_resultOf`). Hooks called
one after the other are reported one by one (`callAll_reports`), whatever their runs are: any runs
in any order are those of some instance (`exists_runAfter`).
-/

import Mathlib.Data.List.Induction
import SnippetConsole.Loadable.Loader
import SnippetConsole.Proofs.LenientText
import SnippetConsole.Proofs.LogStep

namespace SnippetConsole
namespace Loadable

open Execution (Failure)

/-! ### What is reported -/

/-- A code stands for a severity: it is its code, or no severity has the code and it is
`info`. -/
def StandsFor (code : UInt32) (s : Severity) : Prop :=
  s.code = code ∨ s = .info ∧ ∀ other : Severity, other.code ≠ code

/-- Calls of a hook log messages from a caller: one for each text that is logged, in order, and
none for the other calls. -/
inductive Logs (caller : String) : List HostCall → List Log.Message → Prop
  | nil : Logs caller [] []
  | log {code text severity s calls messages} (hseverity : StandsFor code severity)
    (htext : Text.Decodes (text.getD []) s.toList) (h : Logs caller calls messages) :
    Logs caller (.log code text :: calls) (⟨.named caller, s, severity⟩ :: messages)
  | fault {text calls messages} (h : Logs caller calls messages) :
    Logs caller (.fault text :: calls) messages
  | withoutContext {calls messages} (h : Logs caller calls messages) :
    Logs caller (.withoutContext :: calls) messages

/-- A run of a hook is answered with: success if its status is zero, whatever faults it reports;
else a failure, with the last fault, or with the status if there is no fault. -/
inductive Answered (hook : Hook) (run : HookRun) : Except Failure Unit → Prop
  | done (hstatus : run.status = 0) : Answered hook run (.ok ())
  | fault {front text back message} (hstatus : run.status ≠ 0)
    (hcalls : run.calls = front ++ .fault text :: back) (hlast : ∀ later, .fault later ∉ back)
    (htext : Text.Decodes (text.getD []) message.toList) :
    Answered hook run (.error (.invocationFailed message))
  | status (hstatus : run.status ≠ 0) (hnone : ∀ text, .fault text ∉ run.calls) :
    Answered hook run (.error (.invocationFailed
      (hook.name ++ " returned status " ++ toString run.status.toNat)))

/-! ### One run -/

/-- Each code stands for the severity that it is read as. -/
theorem standsFor_ofCode (code : UInt32) : StandsFor code (Severity.ofCode code) := by
  by_cases h : ∃ s : Severity, s.code = code
  · obtain ⟨s, rfl⟩ := h
    exact .inl (congrArg Severity.code s.ofCode_code)
  · refine .inr ⟨?_, fun other hother => h ⟨other, hother⟩⟩
    have hne (s : Severity) : code ≠ s.code := fun hs => h ⟨s, hs.symm⟩
    exact (if_neg (hne .warning)).trans ((if_neg (hne .error)).trans (if_neg (hne .exception)))

/-- What is handed over is read as its text. -/
theorem decodes_textOf (bytes : Option Bytes) :
    Text.Decodes (bytes.getD []) (textOf bytes).toList :=
  Text.lossy_eq_iff.1 rfl

/-- **Every logged text is one message.** -/
theorem logs_messagesOf (caller : String) (calls : List HostCall) :
    Logs caller calls (messagesOf caller calls) := by
  induction calls with
  | nil => exact .nil
  | cons call calls ih =>
    cases call with
    | log code text => exact .log (standsFor_ofCode code) (decodes_textOf text) ih
    | fault text => exact .fault ih
    | withoutContext => exact .withoutContext ih

/-- **The last fault** is that of the last call that reports one. -/
theorem lastFault?_cases (calls : List HostCall) :
    (∃ front text back, calls = front ++ .fault text :: back ∧
        (∀ later, .fault later ∉ back) ∧ lastFault? calls = some (textOf text)) ∨
      (∀ text, .fault text ∉ calls) ∧ lastFault? calls = none := by
  induction calls using List.reverseRecOn with
  | nil => exact .inr ⟨fun _ => List.not_mem_nil, rfl⟩
  | append_singleton calls call ih =>
    by_cases hfault : ∃ text, call = .fault text
    · obtain ⟨text, rfl⟩ := hfault
      exact .inl ⟨calls, text, [], rfl, fun _ => List.not_mem_nil, by simp [lastFault?]⟩
    · have hkeep : lastFault? (calls ++ [call]) = lastFault? calls := by
        cases call with
        | fault text => exact absurd ⟨text, rfl⟩ hfault
        | log code text => simp [lastFault?]
        | withoutContext => simp [lastFault?]
      have hmem {text} {others : List HostCall} (h : .fault text ∉ others) :
          .fault text ∉ others ++ [call] := by
        simpa [h] using fun h => hfault ⟨text, h.symm⟩
      rw [hkeep]
      rcases ih with ⟨front, text, back, rfl, hback, hfound⟩ | ⟨hnone, hfound⟩
      · exact .inl ⟨front, text, back ++ [call], by simp, fun later => hmem (hback later), hfound⟩
      · exact .inr ⟨fun text => hmem (hnone text), hfound⟩

/-- **The status decides, and the last fault words a failure.** -/
theorem answered_resultOf (hook : Hook) (run : HookRun) :
    Answered hook run (resultOf hook run) := by
  by_cases hstatus : run.status = statusOk
  · rw [resultOf, if_pos hstatus]
    exact .done hstatus
  · rw [resultOf, if_neg hstatus]
    rcases lastFault?_cases run.calls with ⟨front, text, back, hcalls, hlast, h⟩ | ⟨hnone, h⟩
    · rw [h]
      exact .fault hstatus hcalls hlast (decodes_textOf text)
    · rw [h]
      exact .status hstatus hnone

/-! ### The host during a run -/

/-- What the host keeps while a hook runs. -/
structure Context where
  log : Log
  caller : String
  fault : Option String

namespace Context

/-- The host after a call of the hook. -/
def receive (c : Context) : HostCall → Context
  | .log code text =>
    { c with log := c.log.write ⟨.named c.caller, textOf text, Severity.ofCode code⟩ }
  | .fault text => { c with fault := some (textOf text) }
  | .withoutContext => c

/-- The host after calls of the hook, in order. -/
def receiveAll (c : Context) (calls : List HostCall) : Context := calls.foldl receive c

/-- The host before the first call. -/
def start (log : Log) (caller : String) : Context := ⟨log, caller, none⟩

@[simp] theorem caller_receive (c : Context) (call : HostCall) :
    (c.receive call).caller = c.caller := by
  cases call <;> rfl

/-- The log gets the messages of the calls. -/
theorem log_receiveAll (c : Context) (calls : List HostCall) :
    (c.receiveAll calls).log = c.log.applyAll ((messagesOf c.caller calls).map .append) := by
  induction calls generalizing c with
  | nil => rfl
  | cons call calls ih =>
    show ((c.receive call).receiveAll calls).log = _
    rw [ih, caller_receive]
    cases call <;> rfl

/-- The fault is the last one. -/
theorem fault_receiveAll_start (log : Log) (caller : String) (calls : List HostCall) :
    ((start log caller).receiveAll calls).fault = lastFault? calls := by
  unfold receiveAll lastFault?
  refine (List.foldl_hom Context.fault fun c call => ?_).symm
  cases call <;> rfl

end Context

/-! ### Hooks one after the other -/

/-- What the first, second, … run of a hook does. -/
def EntryPoint.runsOf (point : EntryPoint) : Hook → List HookRun
  | .load => point.onLoad
  | .unload => point.onUnload

/-- What calls of hooks come to: what each is answered with, and the log afterwards. -/
structure Called where
  results : List (Except Failure Unit)
  log : Log

namespace Instance

/-- How often a hook ran. -/
def ran (i : Instance) : Hook → Nat
  | .load => i.loads
  | .unload => i.unloads

/-- The run that a hook makes when others were called before. -/
def runAfter (i : Instance) (earlier : List Hook) (hook : Hook) : HookRun :=
  runNumber (i.point.runsOf hook) (i.ran hook + earlier.count hook)

/-- Calls a hook; its messages are appended to the log. -/
def call (i : Instance) (log : Log) (hook : Hook) : Except Failure Unit × Instance × Log :=
  let (messages, result, made) := i.invoke hook
  (result, made, log.applyAll (messages.map .append))

/-- Calls hooks one after the other. -/
def callAll (i : Instance) (log : Log) : List Hook → Called
  | [] => ⟨[], log⟩
  | hook :: hooks =>
    let (result, made, log) := i.call log hook
    let rest := made.callAll log hooks
    { rest with results := result :: rest.results }

/-- **A call is what the host has at the end of the run:** its log, and its fault if the status is
not zero. -/
theorem call_eq (i : Instance) (log : Log) (hook : Hook) :
    i.call log hook =
      let c := (Context.start log (i.caller hook)).receiveAll (i.nextRun hook).calls
      (if (i.nextRun hook).status = statusOk then .ok ()
        else .error (.invocationFailed (c.fault.getD
          (hook.name ++ " returned status " ++ toString (i.nextRun hook).status.toNat))),
        i.afterRun hook, c.log) := by
  simp only [Context.fault_receiveAll_start, Context.log_receiveAll]
  rfl

@[simp] theorem name_afterRun (i : Instance) (hook : Hook) : (i.afterRun hook).name = i.name := by
  cases hook <;> rfl

/-- A run is counted for its own hook. -/
theorem runAfter_afterRun (i : Instance) (first hook : Hook) (earlier : List Hook) :
    (i.afterRun first).runAfter earlier hook = i.runAfter (first :: earlier) hook := by
  have hpoint : (i.afterRun first).point = i.point := by cases first <;> rfl
  have hran : (i.afterRun first).ran hook = i.ran hook + if first = hook then 1 else 0 := by
    cases first <;> cases hook <;> rfl
  rw [runAfter, runAfter, hpoint, hran, List.count_cons]
  simp only [beq_iff_eq]
  congr 1
  omega

/-- The next run is the one after no others. -/
theorem nextRun_eq (i : Instance) (hook : Hook) : i.nextRun hook = i.runAfter [] hook := by
  cases hook <;> rfl

/-- **One call** appends the messages of its run and is answered for its run. -/
theorem call_reports (i : Instance) (log : Log) (hook : Hook) :
    ∃ messages result, Logs (i.name ++ "::" ++ hook.name) (i.runAfter [] hook).calls messages ∧
      Answered hook (i.runAfter [] hook) result ∧
      i.call log hook = (result, i.afterRun hook, log.applyAll (messages.map .append)) := by
  rw [← nextRun_eq]
  exact ⟨_, _, logs_messagesOf (i.caller hook) _, answered_resultOf hook _, rfl⟩

/-- **Every call is reported for itself.** Whatever hooks are called one after the other, each is
answered for its own run, and appends the messages of its own run to what the log was before. -/
theorem callAll_reports (i : Instance) (log : Log) (hooks : List Hook) :
    (i.callAll log hooks).results.length = hooks.length ∧
    ∀ k hook, hooks[k]? = some hook → ∃ messages result,
      Logs (i.name ++ "::" ++ hook.name) (i.runAfter (hooks.take k) hook).calls messages ∧
      Answered hook (i.runAfter (hooks.take k) hook) result ∧
      (i.callAll log hooks).results[k]? = some result ∧
      (i.callAll log (hooks.take (k + 1))).log
        = (i.callAll log (hooks.take k)).log.applyAll (messages.map .append) := by
  induction hooks generalizing i log with
  | nil => exact ⟨rfl, fun k hook h => nomatch h⟩
  | cons first hooks ih =>
    obtain ⟨messages, result, hlogs, hanswered, hcall⟩ := i.call_reports log first
    have hall (others : List Hook) : i.callAll log (first :: others) =
        { (i.afterRun first).callAll (log.applyAll (messages.map .append)) others with
          results := result :: ((i.afterRun first).callAll
            (log.applyAll (messages.map .append)) others).results } := by
      rw [callAll, hcall]
    obtain ⟨hlength, hrest⟩ := ih (i.afterRun first) (log.applyAll (messages.map .append))
    refine ⟨by rw [hall, List.length_cons, List.length_cons, hlength], fun k hook hk => ?_⟩
    rcases k with _ | k
    · obtain rfl := Option.some.inj hk
      refine ⟨messages, result, hlogs, hanswered, by rw [hall]; rfl, ?_⟩
      rw [List.take_succ_cons, List.take_zero, hall]
      rfl
    · obtain ⟨more, answer, hmore, hanswer, hget, hlog⟩ := hrest k hook hk
      rw [runAfter_afterRun] at hmore hanswer
      rw [name_afterRun] at hmore
      refine ⟨more, answer, hmore, hanswer, by rw [hall]; exact hget, ?_⟩
      rw [List.take_succ_cons, List.take_succ_cons, hall, hall]
      exact hlog

/-- An instance whose first loading reports a fault; the second one logs a text, and fails without
a fault. -/
def failing : Instance where
  index := 0
  point :=
    ⟨layoutVersion, none, true, [⟨[.fault (some [0x41])], 1⟩, ⟨[.log 9 (some [0x42])], 2⟩], []⟩
  name := "Unit"
  loads := 0
  unloads := 0

/-- The fault of the first loading is not what the second one fails with. -/
theorem callAll_failing :
    [Hook.load, .load][1]? = some .load ∧
    ∃ messages, Logs "Unit::on_load" [.log 9 (some [0x42])] messages ∧
      (failing.callAll .standard [.load, .load]).results[1]?
        = some (.error (.invocationFailed "on_load returned status 2")) ∧
      (failing.callAll .standard [.load, .load]).log
        = (failing.callAll .standard [.load]).log.applyAll (messages.map .append) := by
  obtain ⟨messages, result, hlogs, hanswered, hget, hlog⟩ :=
    (callAll_reports failing .standard [.load, .load]).2 1 .load rfl
  refine ⟨rfl, messages, hlogs, ?_, hlog⟩
  rw [hget]
  cases hanswered with
  | done hstatus => exact absurd hstatus (by decide)
  | @fault front text back _ _ hcalls _ _ =>
    have hmem : HostCall.fault text ∈ [.log 9 (some [0x42])] := by
      rw [show [HostCall.log 9 (some [0x42])] = front ++ .fault text :: back from hcalls]
      exact List.mem_append_right _ List.mem_cons_self
    simp at hmem
  | status _ _ => rfl

/-- The number of calls of a hook before one of them is its place among the runs of the hook. -/
theorem getElem?_runs {script : List (Hook × HookRun)} {k : Nat} {hook : Hook} {run : HookRun}
    (h : script[k]? = some (hook, run)) :
    ((script.filter (·.1 = hook)).map (·.2))[((script.take k).map (·.1)).count hook]?
      = some run := by
  induction script generalizing k with
  | nil => exact nomatch h
  | cons first script ih =>
    rcases k with _ | k
    · obtain rfl := Option.some.inj h
      simp
    · have hrest := ih h
      by_cases hfirst : first.1 = hook
      · simpa [hfirst] using hrest
      · simpa [hfirst] using hrest

/-- **Any runs in any order are those of some instance,** whatever its name. -/
theorem exists_runAfter (name : String) (script : List (Hook × HookRun)) :
    ∃ i : Instance, i.name = name ∧ ∀ k hook run, script[k]? = some (hook, run) →
      i.runAfter ((script.take k).map (·.1)) hook = run := by
  let runs (hook : Hook) : List HookRun := (script.filter (·.1 = hook)).map (·.2)
  refine ⟨⟨0, ⟨layoutVersion, none, true, runs .load, runs .unload⟩, name, 0, 0⟩, rfl, ?_⟩
  intro k hook run h
  have hrun := getElem?_runs h
  cases hook <;> simp only [runAfter, EntryPoint.runsOf, ran, Nat.zero_add, runNumber] <;>
    rw [hrun]

end Instance
end Loadable
end SnippetConsole
