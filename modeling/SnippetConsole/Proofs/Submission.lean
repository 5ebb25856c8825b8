/-
# What a submission leaves behind

However an execution ends, its submission ends in the same way: the echo, what the executor wrote,
one terminal message, and a history that depends on the mode alone. `Reports` is the table of
endings.

| ending | text | severity | outcome |
| --- | --- | --- | --- |
| done | `Executed command-line` | info | executed |
| failed | the words for the failure | that of the failure | failed, with its kind |
| panicked | `Exception in console - ` and the payload's words | exception | faulted |

That a panic is an ending at all is the work of a containment. `Console.submitIn` is the same
submission as code that really raises it: the executor's code runs contained, among any
logs, under any recorders and at any depth. It never raises, no recorder notes the panic, and
only the console's own log changes (`submitIn_eq`).
-/

import SnippetConsole.Console
import SnippetConsole.Proofs.LogStep

namespace SnippetConsole

open Log (Message)

/-! ### Runs as code -/

namespace Panic

/-- Code that does operations on the log with a number. -/
def writing (i : Nat) (ops : List Log.Operation) : Code Unit := fun s =>
  .ok () { s with logs := s.logs.modify i (·.applyAll ops) }

end Panic

namespace Execution

/-- A run as code: what it does to the log with number `i`, then its result or its panic, raised at
a place. -/
def Run.code (run : Run) (i : Nat) (place : String) : Panic.Code (Except Failure Unit) := do
  Panic.writing i run.writes
  match run.ending with
  | .done => pure (.ok ())
  | .failed failure => pure (.error failure)
  | .panicked payload => Panic.raise place payload

/-- What a containment makes of an ending. -/
def Ending.contained : Ending → Except Panic.Payload (Except Failure Unit)
  | .done => .ok (.ok ())
  | .failed failure => .ok (.error failure)
  | .panicked payload => .error payload

/-- **A contained run always returns.** Its log has what it wrote and nothing else, and the
nesting is as before. -/
theorem contain_code (run : Run) (i : Nat) (place : String) (s : Panic.Surroundings) :
    Panic.contain (run.code i place) s
      = .ok run.ending.contained { s with logs := s.logs.modify i (·.applyAll run.writes) } := by
  obtain ⟨writes, ending⟩ := run
  cases ending with
  | done => rfl
  | failed failure => rfl
  | panicked payload =>
    -- the depth inside is not 0, so no recorder notes the panic
    have hdepth : s.depth + 1 ≠ 0 := Nat.succ_ne_zero _
    simp only [Panic.contain, Run.code, Panic.writing, Panic.raise, bind, EStateM.bind, hdepth,
      if_false, Ending.contained]
    rfl

/-- An executor that also lists the units it is called with. -/
def listing (executor : Executor σ) : Executor (List Snippet.SourceUnit × σ) := fun unit s =>
  let (run, state) := executor unit s.2
  (run, s.1 ++ [unit], state)

end Execution

namespace Console

/-- How an ending is told: the terminal message and the outcome. -/
inductive Reports : Execution.Ending → Message → Outcome → Prop
  | done : Reports .done ⟨.internal, "Executed command-line", .info⟩ .executed
  | failed (failure : Execution.Failure) :
    Reports (.failed failure) ⟨.internal, failure.message, failure.severity⟩ (.failed failure.kind)
  | panicked (payload : Panic.Payload) :
    Reports (.panicked payload)
      ⟨.internal, "Exception in console - " ++ payload.message, .exception⟩ .faulted

/-- Every ending is told in one way. -/
theorem reports_terminal (ending : Execution.Ending) :
    Reports ending (terminal ending) (.ofEnding ending) := by
  cases ending with
  | done => exact .done
  | failed failure => exact .failed failure
  | panicked payload => exact .panicked payload

/-- The console with a list of the units that its executor is called with, empty at first. -/
def listing (c : Console σ) : Console (List Snippet.SourceUnit × σ) :=
  { c with executor := Execution.listing c.executor, state := ([], c.state) }

/-- The submission of the command line as code, the console's log being the one with number `i`.
The executor's code is contained, and its panics are raised at a place. -/
def submitIn (c : Console σ) (i : Nat) (place : String) : Panic.Code (Option Outcome) :=
  if Text.isBlankText c.commandLine then pure none
  else do
    Panic.writing i [.append ⟨.internal, "> " ++ c.commandLine, .info⟩]
    let run := (c.executor (c.template.wrap c.commandLine) c.state).1
    match ← Panic.contain (run.code i place) with
    | .ok (.ok _) => do
      Panic.writing i [.append ⟨.internal, "Executed command-line", .info⟩]
      pure (some .executed)
    | .ok (.error failure) => do
      Panic.writing i [.append ⟨.internal, failure.message, failure.severity⟩]
      pure (some (.failed failure.kind))
    | .error payload => do
      Panic.writing i
        [.append ⟨.internal, "Exception in console - " ++ payload.message, .exception⟩]
      pure (some .faulted)

/-- A blank command line is not submitted. -/
theorem submit_of_blank {c : Console σ} (h : Text.isBlankText c.commandLine = true)
    (mode : Mode) : c.submit mode = (none, c) := by
  unfold submit
  rw [if_pos h]

/-- Any other command line is executed once and told about. -/
theorem submit_of_command {c : Console σ} (h : Text.isBlankText c.commandLine = false)
    (mode : Mode) {run : Execution.Run} {state : σ}
    (hrun : c.executor (c.template.wrap c.commandLine) c.state = (run, state)) :
    c.submit mode =
      (some (.ofEnding run.ending),
        { c with
          log := c.log.applyAll
            (.append (echo c.commandLine) :: run.writes ++ [.append (terminal run.ending)])
          state := state
          history := if mode = .roll then c.history.submit else c.history }) := by
  have hlog : logAfter c.log c.commandLine run = c.log.applyAll
      (.append (echo c.commandLine) :: run.writes ++ [.append (terminal run.ending)]) := by
    rw [Log.applyAll_append]
    rfl
  cases mode with
  | roll => simp [submit, h, hrun, hlog]
  | keep => simp [submit, h, hrun, hlog]

/-- The units that the executor is called with in a submission. -/
theorem calls_submit (c : Console σ) (mode : Mode) :
    (c.listing.submit mode).2.state.1 =
      if Text.isBlankText c.commandLine then [] else [c.template.wrap c.commandLine] := by
  rcases h : Text.isBlankText c.commandLine with _ | _
  · rw [submit_of_command (c := c.listing) h mode rfl]
    rfl
  · rw [submit_of_blank (c := c.listing) h mode]
    rfl

/-- What is done to one log of several, that log being known. -/
theorem modify_eq_set {logs : List Log} {i : Nat} {log : Log} (h : logs[i]? = some log)
    (f : Log → Log) : logs.modify i f = logs.set i (f log) := by
  refine List.ext_getElem? fun j => ?_
  rw [List.getElem?_modify, List.getElem?_set]
  by_cases hij : i = j
  · subst hij
    obtain ⟨hlt, rfl⟩ := List.getElem?_eq_some_iff.1 h
    simp [hlt]
  · simp [hij]

/-- **Raised panics do not escape.** As code, a submission returns what `submit` says, changes no
log but its own, and has no recorder note anything. -/
theorem submitIn_eq (c : Console σ) (mode : Mode) {i : Nat} (place : String)
    {s : Panic.Surroundings} (hs : s.logs[i]? = some c.log) :
    c.submitIn i place s
      = .ok (c.submit mode).1 { s with logs := s.logs.set i (c.submit mode).2.log } := by
  rcases hblank : Text.isBlankText c.commandLine with _ | _
  · rcases hrun : c.executor (c.template.wrap c.commandLine) c.state with ⟨run, state⟩
    rw [submit_of_command hblank mode hrun]
    -- the log changes three times, the second time by the contained code
    have hthree : ((s.logs.modify i (·.applyAll [.append (echo c.commandLine)])).modify i
          (·.applyAll run.writes)).modify i (·.applyAll [.append (terminal run.ending)])
        = s.logs.set i (c.log.applyAll
            (.append (echo c.commandLine) :: run.writes ++ [.append (terminal run.ending)])) := by
      rw [List.modify_modify_eq, List.modify_modify_eq, modify_eq_set hs, Log.applyAll_append]
      rfl
    rw [← hthree]
    obtain ⟨writes, ending⟩ := run
    simp only [submitIn, hblank, hrun, Bool.false_eq_true, if_false, bind, EStateM.bind,
      Panic.writing, Execution.contain_code]
    cases ending with
    | done => rfl
    | failed failure => rfl
    | panicked payload => rfl
  · have hset : s.logs.set i c.log = s.logs := by
      rw [← id_eq c.log, ← modify_eq_set hs id, List.modify_id]
    rw [submit_of_blank hblank, hset, submitIn, if_pos hblank]
    rfl

/-- **A submission is reported whatever the execution does.** A blank command line is not
submitted: nothing changes and the executor is not called. Any other calls it once, with the
wrapped command; the log is told the echo, what the executor wrote and how it ended, and keeps
the last of these as its newest entry; the outcome tells the same ending, and the history is
rolled or kept as the mode says. Nothing of this is different if the executor really panics:
as code, among any other logs and recorders, the submission returns. -/
theorem submit_reports (c : Console σ) (mode : Mode) (hroom : 1 ≤ c.log.policy.maxEntries) :
    (Text.isBlankText c.commandLine = true →
      c.submit mode = (none, c) ∧ (c.listing.submit mode).2.state.1 = []) ∧
    (Text.isBlankText c.commandLine = false →
      (c.listing.submit mode).2.state.1 = [c.template.wrap c.commandLine] ∧
      ∃ run state message outcome entry,
        c.executor (c.template.wrap c.commandLine) c.state = (run, state) ∧
        Reports run.ending message outcome ∧
        c.submit mode =
          (some outcome,
            { c with
              log := c.log.applyAll
                (.append ⟨.internal, "> " ++ c.commandLine, .info⟩
                  :: run.writes ++ [.append message])
              state := state
              history := if mode = .roll then c.history.submit else c.history }) ∧
        (c.submit mode).2.log.last? = some entry ∧
        entry.text = message.text ∧ entry.severity = message.severity) ∧
    ∀ (s : Panic.Surroundings) (i : Nat) (place : String), s.logs[i]? = some c.log →
      c.submitIn i place s
        = .ok (c.submit mode).1 { s with logs := s.logs.set i (c.submit mode).2.log } := by
  have hcalls := c.calls_submit mode
  refine ⟨fun hblank => ?_, fun hblank => ?_, fun s i place hs => c.submitIn_eq mode place hs⟩
  · rw [if_pos hblank] at hcalls
    exact ⟨submit_of_blank hblank mode, hcalls⟩
  · rw [if_neg (by simp [hblank])] at hcalls
    rcases hrun : c.executor (c.template.wrap c.commandLine) c.state with ⟨run, state⟩
    have hsubmit := submit_of_command hblank mode hrun
    have hkept := Log.one_le_maxEntries_applyAll hroom
      (.append (echo c.commandLine) :: run.writes)
    obtain ⟨entry, hentry, htext, hseverity⟩ := Log.exists_last?_write hkept (terminal run.ending)
    refine ⟨hcalls, run, state, terminal run.ending, .ofEnding run.ending, entry, rfl,
      reports_terminal run.ending, hsubmit, ?_, htext, hseverity⟩
    rw [hsubmit, Log.applyAll_append]
    exact hentry

/-- A console with `x` on the command line, whose executor clears the log and panics. -/
def faultyConsole : Console Execution.Script :=
  { log := .standard
    history := ⟨["y"], "x", ["z"]⟩
    template := .standard
    executor := Execution.scripted
    state := ⟨[⟨[.clear], .panicked (.text "out of bounds")⟩], []⟩ }

/-- Its submission is faulted, says so in the log and still rolls the history. -/
theorem submit_faultyConsole :
    (faultyConsole.submit .roll).1 = some .faulted ∧
    (faultyConsole.submit .roll).2.history = faultyConsole.history.submit ∧
    ∃ entry, (faultyConsole.submit .roll).2.log.last? = some entry ∧
      entry.text = "Exception in console - out of bounds" ∧ entry.severity = .exception := by
  obtain ⟨-, hcommand, -⟩ := faultyConsole.submit_reports .roll (by decide)
  obtain ⟨-, run, state, message, outcome, entry, hrun, hreports, hsubmit, hlast, htext,
    hseverity⟩ := hcommand (by decide)
  obtain ⟨rfl, rfl⟩ := Prod.mk.inj hrun
  cases hreports with
  | panicked payload =>
    exact ⟨by rw [hsubmit], by rw [hsubmit]; rfl, entry, hlast, htext, hseverity⟩

end Console
end SnippetConsole
