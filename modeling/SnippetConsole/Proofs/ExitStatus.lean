/-
# The status of one snippet

A run of the program over one snippet ends with a status that it reads off the log: 1 if the newest
entry is a failure, else 0. The outcome of the submission is not looked at, yet the status tells it.

| text | execution | outcome | newest entry | status |
| --- | --- | --- | --- | ---: |
| blank | none | none | there is none | 0 |
| a command | done | executed | `Executed command-line`, info | 0 |
| a command | failed | failed, with its kind | the words for the failure, error or exception | 1 |
| a command | panicked | faulted | `Exception in console - ..`, exception | 1 |

What the execution writes itself plays no part, nor does how many entries are kept: the terminal
message is the newest entry or raises the count of one that says the same, and there is room for it
(`Log.exists_last?_write`). The log of the console starts empty, so a blank text finds no entry.
-/

import SnippetConsole.Proofs.SettingsInForce

namespace SnippetConsole

open CommandLine (Session)

/-! ### Endings and severities -/

/-- **Only an execution that is done ends without a failure in the log.** -/
theorem Console.isFailure_terminal (ending : Execution.Ending) :
    (Console.terminal ending).severity.isFailure = true ↔ ending ≠ .done := by
  cases ending with
  | done => simp [Console.terminal, Severity.isFailure]
  | failed failure => simp [Console.terminal, failure.isFailure_severity]
  | panicked payload => simp [Console.terminal, Severity.isFailure]

/-- It is the only one that is told as executed. -/
theorem Console.ofEnding_eq_executed {ending : Execution.Ending} :
    Console.Outcome.ofEnding ending = .executed ↔ ending = .done := by
  cases ending with
  | done => simp [Console.Outcome.ofEnding]
  | failed failure => simp [Console.Outcome.ofEnding]
  | panicked payload => simp [Console.Outcome.ofEnding]

/-- Any other is told as failed or faulted. -/
theorem Console.Outcome.failed_or_faulted {outcome : Console.Outcome} :
    ((∃ kind, some outcome = some (.failed kind)) ∨ some outcome = some Console.Outcome.faulted) ↔
      outcome ≠ .executed := by
  cases outcome with
  | executed => simp
  | failed kind => simp
  | faulted => simp

namespace CommandLine

variable {σ : Type}

/-- The console that settings describe, over any executor. -/
def consoleOver (executor : Execution.Executor σ) (state : σ) (s : Settings) (clock : Clock) :
    Console σ :=
  let log := Log.new (.ofSettings s.console) clock
  .new (log.setPolicy (.ofSettings s.console)) (.ofSettings s.toolchain) executor state

/-- A session with settings over any executor, as the program starts it. -/
def sessionOver (executor : Execution.Executor σ) (state : σ)
    (store : Settings → FilePath → σ → Except Settings.Fault PUnit × σ) (s : Settings)
    (file : FilePath) (clock : Clock) : Session σ where
  console := consoleOver executor state s clock
  printer := .new s.console.formatString
  settings := s
  settingsFile := file
  store := store

/-- The program's session is the one over the native executor. -/
theorem sessionOf_eq (s : Settings) (file : FilePath) (native : Execution.Native)
    (clock : Clock) :
    sessionOf s file native clock
      = sessionOver Execution.Native.execute native saveNatively s file clock :=
  rfl

namespace Session

/-- The status after one snippet. -/
def status (s : Session σ) (code : String) : Nat := if (s.evaluate code).2.1 then 1 else 0

/-- What became of one snippet. -/
def outcome (s : Session σ) (code : String) : Option Console.Outcome :=
  ((s.console.setCommandLine code).submit .roll).1

theorem status_eq_zero_iff (s : Session σ) (code : String) :
    s.status code = 0 ↔ ¬s.status code = 1 := by
  rw [status]
  split <;> simp

/-- Printing leaves the log alone: the status is that of the newest entry after the snippet. -/
theorem status_eq_one_iff (s : Session σ) (code : String) :
    s.status code = 1 ↔
      ∃ e, (s.runSnippet code).console.log.last? = some e ∧ e.severity.isFailure = true := by
  have hflush : (s.runSnippet code).flush.2.console = (s.runSnippet code).console := rfl
  rw [status, evaluate]
  simp only [hflush]
  rcases (s.runSnippet code).console.log.last? with _ | e
  · simp
  · simp

/-- A blank text leaves the log as it is. -/
theorem status_of_blank {s : Session σ} (hlog : s.console.log.last? = none) {code : String}
    (hblank : Text.isBlankText code = true) : s.outcome code = none ∧ s.status code ≠ 1 := by
  have hsubmit := Console.submit_of_blank (c := s.console.setCommandLine code) hblank .roll
  refine ⟨by rw [outcome, hsubmit], fun hstatus => ?_⟩
  obtain ⟨e, he, -⟩ := (s.status_eq_one_iff code).1 hstatus
  rw [runSnippet, hsubmit] at he
  cases hlog.symm.trans he

/-- **The newest entry after a command is how it ended,** whatever was written before. -/
theorem status_of_command {s : Session σ} (hroom : 1 ≤ s.console.log.policy.maxEntries)
    {code : String} (hcommand : Text.isBlankText code = false) {run : Execution.Run} {state : σ}
    (hrun : s.console.executor (s.console.template.wrap code) s.console.state = (run, state)) :
    s.outcome code = some (.ofEnding run.ending) ∧ (s.status code = 1 ↔ run.ending ≠ .done) := by
  have hsubmit := Console.submit_of_command (c := s.console.setCommandLine code) hcommand .roll hrun
  refine ⟨by rw [outcome, hsubmit], ?_⟩
  -- the terminal message comes last, and no write before it takes the room away
  obtain ⟨e, he, -, hseverity⟩ := Log.exists_last?_write
    (Log.one_le_maxEntries_applyAll hroom (.append (Console.echo code) :: run.writes))
    (Console.terminal run.ending)
  have hlast : (s.runSnippet code).console.log.last? = some e := by
    rw [runSnippet, hsubmit, Log.applyAll_append]
    exact he
  rw [status_eq_one_iff, hlast, ← Console.isFailure_terminal, ← hseverity]
  constructor
  · rintro ⟨e', he', hfailure⟩
    rwa [Option.some.inj he']
  · intro hfailure
    exact ⟨e, rfl, hfailure⟩

/-- **A status for each outcome,** where the log has room for an entry and has none yet. -/
theorem status_of_log {s : Session σ} (hroom : 1 ≤ s.console.log.policy.maxEntries)
    (hempty : s.console.log.last? = none) (code : String) :
    (s.status code = 1 ↔
      (∃ kind, s.outcome code = some (.failed kind)) ∨ s.outcome code = some .faulted) ∧
    (s.status code = 0 ↔ s.outcome code = some .executed ∨ Text.isBlankText code = true) ∧
    (s.status code = 1 ↔ Text.isBlankText code = false ∧
      (s.console.executor (s.console.template.wrap code) s.console.state).1.ending ≠ .done) := by
  rw [status_eq_zero_iff]
  rcases hblank : Text.isBlankText code with _ | _
  · obtain ⟨houtcome, hstatus⟩ := status_of_command hroom hblank rfl
    rw [houtcome, hstatus, Console.Outcome.failed_or_faulted, Option.some.injEq, ne_eq, ne_eq,
      Console.ofEnding_eq_executed]
    exact ⟨Iff.rfl, by simp, by simp⟩
  · obtain ⟨houtcome, hstatus⟩ := status_of_blank hempty hblank
    rw [houtcome]
    exact ⟨by simp [hstatus], by simp [hstatus], by simp [hstatus]⟩

/-- A session starts with room for an entry and without any. -/
theorem log_sessionOver (executor : Execution.Executor σ) (state : σ)
    (store : Settings → FilePath → σ → Except Settings.Fault PUnit × σ) (s : Settings)
    (file : FilePath) (clock : Clock) :
    1 ≤ (sessionOver executor state store s file clock).console.log.policy.maxEntries ∧
      (sessionOver executor state store s file clock).console.log.last? = none := by
  refine ⟨Log.Policy.one_le_clamped _, ?_⟩
  show (List.take _ []).head? = none
  rw [List.take_nil]
  rfl

end Session

/-- The status of the program is that of the snippet, once it has its settings and workspace. -/
theorem status_run {arguments : List Bytes} {o : Options} {code : String} {m m₀ : Machine}
    {loaded : Settings} {native : Execution.Native}
    (hoptions : Options.ofArguments arguments = .ok o) (heval : o.eval = some code)
    (hload : Settings.load (settingsFile o m) m = .ok loaded)
    (hnative : Execution.Native.ofSettings (withOptions o loaded) m = .ok native m₀)
    (stdin : Bytes) (clock : Clock) :
    (run arguments stdin clock m).status
      = (sessionOf (withOptions o loaded) (settingsFile o m) native clock).status code := by
  simp only [run, hoptions, runOptions, hload, hnative, heval, Session.status]

/-- **The status tells the outcome.** For all settings, snippets and executors, whatever they write
and however they end: the status is 1 just if the submission failed or was faulted, and 0 just if it
was executed or the text is blank. The outcome is in turn that of the execution: the status is 1
just if there was a command and its execution was not done. With accepted arguments, settings and
workspace, a run of the program ends with this status, its executor being the native one. -/
theorem status_tells_outcome (executor : Execution.Executor σ) (state : σ)
    (store : Settings → FilePath → σ → Except Settings.Fault PUnit × σ) (settings : Settings)
    (file : FilePath) (clock : Clock) (code : String) :
    let s := sessionOver executor state store settings file clock
    (s.status code = 1 ↔
      (∃ kind, s.outcome code = some (.failed kind)) ∨ s.outcome code = some .faulted) ∧
    (s.status code = 0 ↔ s.outcome code = some .executed ∨ Text.isBlankText code = true) ∧
    (s.status code = 1 ↔ Text.isBlankText code = false ∧
      (executor (s.console.template.wrap code) state).1.ending ≠ .done) ∧
    ∀ arguments stdin o m loaded native m₀,
      Options.ofArguments arguments = .ok o → o.eval = some code →
      Settings.load (settingsFile o m) m = .ok loaded →
      Execution.Native.ofSettings (withOptions o loaded) m = .ok native m₀ →
      (run arguments stdin clock m).status
        = (sessionOver Execution.Native.execute native saveNatively (withOptions o loaded)
            (settingsFile o m) clock).status code := by
  intro s
  obtain ⟨hroom, hempty⟩ := Session.log_sessionOver executor state store settings file clock
  obtain ⟨hfailure, hsuccess, hending⟩ := Session.status_of_log (s := s) hroom hempty code
  refine ⟨hfailure, hsuccess, hending, ?_⟩
  intro arguments stdin o m loaded native m₀ hoptions heval hload hnative
  rw [status_run hoptions heval hload hnative, sessionOf_eq]

/-- Settings with room for one entry. -/
def narrowSettings : Settings := { Settings.standard with console.maxHistoryLength := 1 }

/-- A session of them whose executor follows one run. -/
def narrowSession (run : Execution.Run) : Session Execution.Script :=
  sessionOver Execution.scripted ⟨[run], []⟩ (fun _ _ state => (.ok ⟨⟩, state)) narrowSettings []
    .epoch

/-- Arguments that name a settings file and a filter, and a blank snippet. -/
def blankArguments : List Bytes :=
  ["--settings", "s", "--log-level", "trace", "--eval", " "].map Text.encode

/-- In a session with room for one entry, a snippet that says the words of success as an error and
then is done ends with 0; one that says them as they are and then fails ends with 1. A program with
a workspace that runs a blank snippet ends with 0. -/
theorem status_narrowSession :
    (narrowSession ⟨[.append ⟨.internal, "Executed command-line", .error⟩], .done⟩).status "x" = 0 ∧
    (narrowSession ⟨[.append ⟨.internal, "Executed command-line", .info⟩],
      .failed .noEntryPoint⟩).status "x" = 1 ∧
    (run blankArguments [] .epoch boundedMachine).status = 0 := by
  refine ⟨(status_tells_outcome _ _ _ _ _ _ "x").2.1.2 (.inl rfl),
    (status_tells_outcome _ _ _ _ _ _ "x").1.2 (.inl ⟨.noEntryPoint, rfl⟩), ?_⟩
  obtain ⟨native, m₀, hnative, -⟩ := ofSettings_boundedMachine
  have hoptions : Options.ofArguments blankArguments
      = .ok { tracingOptions with eval := some " " } := by decide +kernel
  obtain ⟨-, hsuccess, -, hrun⟩ := status_tells_outcome Execution.Native.execute native
    saveNatively (withOptions tracingOptions boundedSettings) Settings.bareName .epoch " "
  rw [hrun _ [] _ _ _ native m₀ hoptions rfl load_boundedMachine hnative]
  exact hsuccess.2 (.inr (by decide))

end CommandLine
end SnippetConsole
