/-
# What a reset restores

`:reset` puts the fields of the console section back that shape the log, takes the policy of the log
and the template of the printer from them, and writes a note.

| field | after a reset |
| --- | --- |
| number of entries, template, what reveals the log | as by default |
| recording of events and of panics | as it was |
| scrolling | as it was |

The last row is the one that shows: the policy is the default one just if the settings scroll, and
no input changes whether they do (`settings_processAll`). So a session that was started without
scrolling cannot be reset to the default policy (`reset_leaves_scrolling`). The log is cut at the
default bound before the note is written, and the note counts as one of the entries that this leaves
room for (`showsBefore_write_setPolicy`).
-/

import SnippetConsole.Proofs.SettingsInForce

namespace SnippetConsole

/-! ### A message after a cut -/

namespace Log

/-- A log has a message as its newest entry, in front of the newest entries of an earlier log, as
they were and as many as a bound leaves room for. If the newest entry of the earlier log said the
same, it was counted once more. -/
def ShowsBefore (m : Message) (bound : Nat) (earlier log : Log) : Prop :=
  (∃ e rest, earlier.newestFirst = e :: rest ∧ e.carries m = true ∧
      log.newestFirst = { e with count := e.count + 1 } :: rest.take (bound - 1)) ∨
    (∀ e rest, earlier.newestFirst = e :: rest → e.carries m = false) ∧
      log.newestFirst = earlier.entryOf m :: earlier.newestFirst.take (bound - 1)

/-- **A message after a change of policy** stands in front of what the new bound leaves room for. -/
theorem showsBefore_write_setPolicy (log : Log) (policy : Policy) (m : Message) :
    ShowsBefore m policy.clamped.maxEntries log ((log.setPolicy policy).write m) := by
  obtain ⟨n, hn⟩ := Nat.exists_eq_add_of_le' policy.one_le_clamped
  have hcut : (log.setPolicy policy).newestFirst = log.newestFirst.take (n + 1) := by
    rw [setPolicy, hn]
  have hroom : policy.clamped.maxEntries - 1 = n := by rw [hn, Nat.add_sub_cancel]
  rw [ShowsBefore, hroom]
  rcases (log.setPolicy policy).append_cases m with ⟨e, rest, hl, hcarries, happ⟩ | ⟨hnew, happ⟩
  · rw [hcut] at hl
    rcases hlog : log.newestFirst with _ | ⟨e', more⟩
    · rw [hlog] at hl
      cases hl
    · rw [hlog, List.take_succ_cons] at hl
      obtain ⟨rfl, rfl⟩ := List.cons.inj hl
      refine .inl ⟨e', more, rfl, hcarries, ?_⟩
      rw [write, happ]
      rfl
  · refine .inr ⟨fun e rest hlog => hnew e (rest.take n) ?_, ?_⟩
    · rw [hcut, hlog, List.take_succ_cons]
    · rw [write, happ]
      change (log.entryOf m :: (log.setPolicy policy).newestFirst).take
        policy.clamped.maxEntries = _
      rw [hn, hcut, List.take_succ_cons, List.take_take, Nat.min_eq_left (Nat.le_succ n)]

end Log

namespace CommandLine
namespace Session

variable {σ : Type}

/-! ### Settings through a run -/

/-- **One input:** only a reset changes the settings of a session. -/
theorem settings_act {s s' : Session σ} {input : Input} {said : String}
    (h : s.act input = some (said, s')) : s'.settings = s.settings.after input := by
  cases input with
  | again =>
    rw [act, Option.some.injEq, runAgain] at h
    split at h
    · cases h
      rfl
    · cases h
      rfl
  | save =>
    rw [act, Option.some.injEq, saveSettings] at h
    dsimp only at h
    split at h
    · cases h
      rfl
    · cases h
      rfl
  | quit => cases h
  | _ =>
    cases h
    rfl

/-- **A run:** the settings are those of the start, reset or not. -/
theorem settings_processAll {s s' : Session σ} {inputs : List Input}
    (h : s.processAll inputs = some s') : s'.settings = s.settings.afterAll inputs := by
  induction inputs generalizing s with
  | nil =>
    cases h
    rfl
  | cons input inputs ih =>
    obtain ⟨⟨text, s₁⟩, hprocess, hrest⟩ := Option.bind_eq_some_iff.1 h
    obtain ⟨said, s₂, hact, -, rfl⟩ := process_eq_some.1 hprocess
    have hstep : s₂.settings = s.settings.after input := settings_act hact
    rw [ih hrest]
    -- what the printer writes after an input does not touch the settings
    exact congrArg (Settings.afterAll · inputs) hstep

/-- No input changes whether new entries scroll. -/
theorem autoScrollToBottom_afterAll (s : Settings) (inputs : List Input) :
    (s.afterAll inputs).console.autoScrollToBottom = s.console.autoScrollToBottom := by
  rw [Settings.afterAll_eq]
  split
  · rfl
  · rfl

/-! ### A reset -/

/-- The note of a reset. -/
def resetNote : Log.Message := ⟨.internal, "log settings reset to defaults", .info⟩

/-- The policy that a reset brings into force: the standard one, but for scrolling. -/
theorem policy_resetLogSettings (s : Session σ) :
    s.resetLogSettings.console.log.policy =
      { Log.Policy.standard with autoScroll := s.settings.console.autoScrollToBottom } :=
  (Log.policy_write _ _).trans (Log.Policy.clamped_ofSettings _)

/-- **A reset restores all log settings but scrolling.** Afterwards the policy of the log is the
standard one, the console section is the default one, but for scrolling and the recording of events
and panics, which stay as they were, and the template of the printer is the default one. The note
is the newest entry, in front of as many of the newest earlier ones as the default bound leaves room
for. Nothing else changes. So whatever the inputs of a session were, a reset brings the standard
policy and the default log settings back just if the session was started with scrolling. -/
theorem reset_leaves_scrolling (s : Session σ) :
    s.resetLogSettings.console.log.policy =
        { Log.Policy.standard with autoScroll := s.settings.console.autoScrollToBottom } ∧
    s.resetLogSettings.settings = { s.settings with
      console := { Settings.Console.standard with
        autoScrollToBottom := s.settings.console.autoScrollToBottom
        forwardTracing := s.settings.console.forwardTracing
        logPanics := s.settings.console.logPanics } } ∧
    s.resetLogSettings.printer.template = Settings.Console.standard.formatString ∧
    Log.ShowsBefore resetNote Log.Policy.standard.maxEntries s.console.log
      s.resetLogSettings.console.log ∧
    { s.resetLogSettings with
      settings := s.settings
      printer.template := s.printer.template
      console.log := s.console.log } = s ∧
    ∀ inputs s', s.processAll inputs = some s' →
      (s'.resetLogSettings.console.log.policy = .standard ↔
        s.settings.console.autoScrollToBottom = true) ∧
      (s'.resetLogSettings.settings.console = { Settings.Console.standard with
          forwardTracing := s'.settings.console.forwardTracing
          logPanics := s'.settings.console.logPanics } ↔
        s.settings.console.autoScrollToBottom = true) := by
  refine ⟨s.policy_resetLogSettings, rfl, rfl, ?_, rfl, fun inputs s' h => ?_⟩
  · exact s.console.log.showsBefore_write_setPolicy
      (.ofSettings s.settings.console.resetLogFields) _
  · have hscrolls : s'.settings.console.autoScrollToBottom =
        s.settings.console.autoScrollToBottom := by
      rw [settings_processAll h, autoScrollToBottom_afterAll]
    rw [s'.policy_resetLogSettings, ← hscrolls]
    constructor
    · exact ⟨congrArg Log.Policy.autoScroll, fun htrue => by rw [htrue]; rfl⟩
    · refine ⟨congrArg Settings.Console.autoScrollToBottom, fun htrue => ?_⟩
      change { Settings.Console.standard with
        autoScrollToBottom := s'.settings.console.autoScrollToBottom
        forwardTracing := s'.settings.console.forwardTracing
        logPanics := s'.settings.console.logPanics } = _
      rw [htrue]
      rfl

/-- Settings by which new entries do not scroll. -/
def unscrolledSettings : Settings :=
  { Settings.standard with console.autoScrollToBottom := false }

/-- An idle session started with them. -/
def unscrolledSession : Session Unit :=
  { idleSession with
    console.log := .new (.ofSettings unscrolledSettings.console)
    settings := unscrolledSettings }

/-- Whatever happened in it before, a reset does not bring the default policy back. -/
theorem resetLogSettings_after_inputs :
    ∃ s, unscrolledSession.processAll [.snippet "x", .clear, .reset, .save] = some s ∧
      s.resetLogSettings.console.log.policy ≠ .standard := by
  obtain ⟨s, hrun⟩ : ∃ s, unscrolledSession.processAll
      [.snippet "x", .clear, .reset, .save] = some s := ⟨_, rfl⟩
  obtain ⟨-, -, -, -, -, hscrolls⟩ := reset_leaves_scrolling unscrolledSession
  exact ⟨s, hrun, fun hstandard => nomatch (hscrolls _ s hrun).1.1 hstandard⟩

/-- It keeps its policy and its log settings through a reset: neither are the default ones. -/
theorem resetLogSettings_unscrolledSession :
    let reset := unscrolledSession.resetLogSettings
    reset.console.log.policy ≠ .standard ∧
      reset.settings.console ≠ { Settings.Console.standard with
        forwardTracing := unscrolledSettings.console.forwardTracing
        logPanics := unscrolledSettings.console.logPanics } ∧
      reset.console.log.policy = unscrolledSession.console.log.policy ∧
      reset.settings.console = unscrolledSession.settings.console := by
  decide

end Session
end CommandLine
end SnippetConsole
