/-
# Entries of submissions

The log counts a message once more if the newest entry says the same. So a message makes an entry of
its own, which stays as it is, if it differs from the message before it and from the one behind it
(`stands_of_apart`): an entry is counted again only while it is the newest, and later entries have
higher ids.

An echo and a terminal message never say the same (`not_same_echo_terminal`): only one ending is
information, and its words do not start with an angle bracket. Submissions write echo, own messages
and terminal message in turn, so if what an executor writes first and last differs from its
neighbour (`Apart`), each echo and each terminal message stands (`submissions_stand`). An executor
that writes nothing leaves two entries for each submission.
-/

import SnippetConsole.Proofs.LogOrder
import SnippetConsole.Proofs.Submission
import Mathlib.Data.List.Induction

namespace SnippetConsole

namespace Log

/-! ### An entry that stays as it is -/

/-- The messages among operations. -/
def appended (ops : List Operation) : List Message :=
  ops.filterMap fun
    | .append m => some m
    | _ => none

theorem appended_append (ops more : List Operation) :
    appended (ops ++ more) = appended ops ++ appended more :=
  List.filterMap_append

/-- A message makes an entry of its own: it is new and the newest, and as long as the log keeps it
while operations follow, it stays as it is. -/
structure Stands (log : Log) (m : Message) (later : List Operation) : Prop where
  added : (log.append m).1 = .added log.nextId
  newest : (log.append m).2.last? = some (log.entryOf m)
  stays : ∀ ops, ops <+: later → ∀ e ∈ ((log.append m).2.applyAll ops).snapshot,
    e.id = log.nextId → e = log.entryOf m ∧ e.count = 1

/-- Ids are never given back. -/
theorem nextId_le_apply (log : Log) (op : Operation) : log.nextId ≤ (log.apply op).nextId := by
  cases op with
  | append m =>
    rcases log.append_cases m with ⟨e, rest, -, -, happ⟩ | ⟨-, happ⟩
    · rw [apply, write, happ]
      exact Nat.le_refl _
    · rw [apply, write, happ]
      exact Nat.le_add_right _ _
  | clear => exact Nat.le_refl _
  | setPolicy policy => exact Nat.le_refl _
  | takeReveal => exact Nat.le_refl _
  | takeScroll => exact Nat.le_refl _

/-- An operation that appends nothing makes no entry and changes none. -/
theorem mem_of_mem_apply_quiet {log : Log} {op : Operation} (hquiet : appended [op] = [])
    {e : Entry} (he : e ∈ (log.apply op).newestFirst) : e ∈ log.newestFirst := by
  cases op with
  | append m => cases hquiet
  | clear => exact absurd he List.not_mem_nil
  | setPolicy policy => exact List.mem_of_mem_take he
  | takeReveal => exact he
  | takeScroll => exact he

/-- Only the newest entry changes. -/
theorem Ordered.mem_of_mem_apply {log : Log} (h : log.Ordered) {op : Operation} {e : Entry}
    (he : e ∈ (log.apply op).newestFirst) (hid : e.id + 1 < log.nextId) :
    e ∈ log.newestFirst := by
  cases op with
  | append m =>
    rcases log.append_cases m with ⟨newest, rest, hl, -, happ⟩ | ⟨-, happ⟩
    · rw [Log.apply, write, happ] at he
      obtain rfl | he := List.mem_cons.1 he
      · exact absurd (h.newest newest rest hl) (Nat.ne_of_lt hid)
      · exact hl ▸ List.mem_cons_of_mem _ he
    · rw [Log.apply, write, happ] at he
      obtain rfl | he := List.mem_cons.1 (List.mem_of_mem_take he)
      · exact absurd hid (by simp [entryOf])
      · exact he
  | _ => exact mem_of_mem_apply_quiet rfl he

/-- Nor does any entry that is not the newest come back in another form. -/
theorem Ordered.mem_of_mem_applyAll {log : Log} (h : log.Ordered) {ops : List Operation} {e : Entry}
    (he : e ∈ (log.applyAll ops).newestFirst) (hid : e.id + 1 < log.nextId) :
    e ∈ log.newestFirst := by
  induction ops generalizing log with
  | nil => exact he
  | cons op ops ih =>
    have hnext := log.nextId_le_apply op
    exact h.mem_of_mem_apply (ih (h.apply op) he (by omega)) hid

/-- Nor does it make another entry the newest. -/
theorem last?_of_apply_quiet {log : Log} {op : Operation} (hquiet : appended [op] = [])
    {e : Entry} (he : (log.apply op).last? = some e) : log.last? = some e := by
  cases op with
  | append m => cases hquiet
  | clear => cases he
  | setPolicy policy =>
    rw [last?, List.head?_eq_some_iff] at he ⊢
    obtain ⟨rest, hrest⟩ := he
    have hcut := List.take_append_drop policy.clamped.maxEntries log.newestFirst
    rw [← hcut, show log.newestFirst.take _ = _ from hrest]
    exact ⟨_, rfl⟩
  | takeReveal => exact he
  | takeScroll => exact he

/-- **The newest entry says what was appended last.** -/
theorem carries_last_appended {log : Log} {ops : List Operation} {e : Entry}
    (he : (log.applyAll ops).last? = some e) :
    (∃ m, (appended ops).getLast? = some m ∧ e.carries m = true) ∨
      (appended ops = [] ∧ log.last? = some e) := by
  induction ops using List.reverseRecOn generalizing e with
  | nil => exact Or.inr ⟨rfl, he⟩
  | append_singleton ops op ih =>
    rw [applyAll_append] at he
    rw [appended_append]
    rcases hop : appended [op] with _ | ⟨m, more⟩
    · rw [List.append_nil]
      exact ih (last?_of_apply_quiet hop he)
    · obtain ⟨rfl, rfl⟩ : op = .append m ∧ more = [] := by
        cases op with
        | append m' => simpa [appended] using hop
        | _ => cases hop
      exact Or.inl ⟨m, by simp, carries_of_last?_write he⟩

/-- Operations that append nothing leave the next id. -/
theorem nextId_apply_quiet {log : Log} {op : Operation} (hquiet : appended [op] = []) :
    (log.apply op).nextId = log.nextId := by
  cases op with
  | append m => cases hquiet
  | _ => rfl

/-- An entry that is not counted again by the next message is never changed. -/
theorem Ordered.eq_of_mem_applyAll {log : Log} (h : log.Ordered) {entry : Entry}
    (hid : entry.id + 1 = log.nextId) (hentry : ∀ e ∈ log.newestFirst, e.id = entry.id → e = entry)
    {ops : List Operation} (hafter : ∀ m, (appended ops).head? = some m → entry.carries m = false)
    {e : Entry} (he : e ∈ (log.applyAll ops).newestFirst) (heid : e.id = entry.id) :
    e = entry := by
  induction ops generalizing log with
  | nil => exact hentry e he heid
  | cons op ops ih =>
    rcases hop : appended [op] with _ | ⟨m, more⟩
    · have hhead : appended (op :: ops) = appended ops := by
        rw [← List.singleton_append, appended_append, hop, List.nil_append]
      rw [hhead] at hafter
      refine ih (h.apply op) (by rw [nextId_apply_quiet hop, hid]) (fun e he => ?_) hafter he
      exact hentry e (mem_of_mem_apply_quiet hop he)
    · obtain rfl : op = .append m := by
        cases op with
        | append m' => simp_all [appended]
        | _ => cases hop
      rcases log.append_cases m with ⟨newest, rest, hl, hcarries, -⟩ | ⟨-, happ⟩
      · -- the newest entry is the one in question
        have hnewest := h.newest newest rest hl
        obtain rfl := hentry newest (hl ▸ List.mem_cons_self) (by omega)
        rw [hafter m rfl] at hcarries
        cases hcarries
      · have hnext : (log.apply (.append m)).nextId = log.nextId + 1 := by
          rw [Log.apply, write, happ]
          rfl
        have hmem := (h.apply (.append m)).mem_of_mem_applyAll he (by omega)
        rw [Log.apply, write, happ] at hmem
        obtain rfl | hmem := List.mem_cons.1 (List.mem_of_mem_take hmem)
        · have : log.nextId = entry.id := heid
          omega
        · exact hentry e hmem heid

/-- A message that the newest entry does not say is new. -/
theorem append_of_apart {log : Log} {m : Message}
    (hbefore : ∀ e, log.last? = some e → e.carries m = false) :
    log.append m = (.added log.nextId, log.extended m) := by
  rcases log.append_cases m with ⟨e, rest, hl, hcarries, -⟩ | ⟨-, happ⟩
  · rw [hbefore e (by simp [last?, hl])] at hcarries
    cases hcarries
  · exact happ

/-- **A message that differs from its neighbours stands.** Operations that append nothing may lie
between them. -/
theorem stands_of_apart {log : Log} (hordered : log.Ordered) (hroom : 1 ≤ log.policy.maxEntries)
    {m : Message} {later : List Operation}
    (hbefore : ∀ e, log.last? = some e → e.carries m = false)
    (hafter : ∀ m', (appended later).head? = some m' → (log.entryOf m).carries m' = false) :
    log.Stands m later := by
  have happ := append_of_apart hbefore
  obtain ⟨n, hn⟩ := Nat.exists_eq_add_of_le' hroom
  refine ⟨by rw [happ], by simp [happ, extended, last?, hn], fun ops hops e he hid => ?_⟩
  have hordered' : (log.append m).2.Ordered := hordered.apply (.append m)
  rw [happ] at he hordered'
  have hsame : e = log.entryOf m := by
    refine hordered'.eq_of_mem_applyAll rfl (fun e he hid => ?_) (fun m' hm' => ?_)
      (List.mem_reverse.1 he) hid
    · obtain rfl | he := List.mem_cons.1 (List.mem_of_mem_take he)
      · rfl
      · exact absurd hid (Nat.ne_of_lt (hordered.id_lt he))
    · obtain ⟨more, rfl⟩ := hops
      refine hafter m' ?_
      rw [appended_append, List.head?_append, hm']
      rfl
  exact ⟨hsame, hsame ▸ rfl⟩

/-- If there is room, nothing is pushed out. -/
theorem newestFirst_write_of_apart {log : Log} {m : Message}
    (hbefore : ∀ e, log.last? = some e → e.carries m = false)
    (hroom : log.length < log.policy.maxEntries) :
    (log.write m).newestFirst = log.entryOf m :: log.newestFirst := by
  rw [write, append_of_apart hbefore]
  exact List.take_of_length_le hroom

end Log

namespace Console

open Log (Message)

/-! ### Echoes and terminal messages -/

/-- What an entry says, apart from who and when, and how often. -/
def heard (e : Log.Entry) : String × Severity × Nat := (e.text, e.severity, e.count)

/-- Two messages say the same: text and severity agree. -/
def Same (m m' : Message) : Prop := m.text = m'.text ∧ m.severity = m'.severity

theorem carries_entryOf {log : Log} {m m' : Message} (h : ¬ Same m m') :
    (log.entryOf m).carries m' = false := by
  refine Bool.eq_false_iff.2 fun hcarries => h ?_
  obtain ⟨hseverity, htext⟩ := Log.Entry.carries_iff.1 hcarries
  exact ⟨htext, hseverity⟩

/-- An entry says one thing. -/
theorem carries_of_not_same {e : Log.Entry} {m m' : Message} (he : e.carries m = true)
    (h : ¬ Same m m') : e.carries m' = false := by
  refine Bool.eq_false_iff.2 fun hcarries => h ?_
  obtain ⟨hseverity, htext⟩ := Log.Entry.carries_iff.1 he
  obtain ⟨hseverity', htext'⟩ := Log.Entry.carries_iff.1 hcarries
  exact ⟨htext.symm.trans htext', hseverity.symm.trans hseverity'⟩

/-- **An echo never says the same as a terminal message.** -/
theorem not_same_echo_terminal (command : String) (ending : Execution.Ending) :
    ¬ Same (echo command) (terminal ending) := by
  rintro ⟨htext, hseverity⟩
  cases ending with
  | done =>
    have := congrArg (fun text => text.toList.head?) htext
    simp [echo, terminal] at this
  | failed failure =>
    have hfailure := failure.isFailure_severity
    rw [show failure.severity = .info from hseverity.symm] at hfailure
    cases hfailure
  | panicked payload => cases hseverity

theorem not_same_terminal_echo (ending : Execution.Ending) (command : String) :
    ¬ Same (terminal ending) (echo command) :=
  fun ⟨htext, hseverity⟩ => not_same_echo_terminal command ending ⟨htext.symm, hseverity.symm⟩

/-! ### Runs of submissions -/

/-- A command line to submit: the history it stands in, and the mode. -/
structure Entered where
  history : History
  mode : Mode

/-- A command that was submitted, and how it ran. -/
structure Submission where
  command : String
  run : Execution.Run

namespace Submission

/-- What a submission does to the log. -/
def operations (s : Submission) : List Log.Operation :=
  .append (echo s.command) :: s.run.writes ++ [.append (terminal s.run.ending)]

/-- The executor's own first message differs from the echo, and its own last one from the
terminal message. -/
structure Apart (s : Submission) : Prop where
  first : ∀ m, (Log.appended s.run.writes).head? = some m → ¬ Same (echo s.command) m
  last : ∀ m, (Log.appended s.run.writes).getLast? = some m → ¬ Same m (terminal s.run.ending)

/-- A run that writes nothing is apart. -/
theorem apart_of_silent {s : Submission} (h : s.run.writes = []) : s.Apart := by
  refine ⟨fun m hm => ?_, fun m hm => ?_⟩
  all_goals
    rw [h] at hm
    cases hm

theorem appended_operations (s : Submission) : Log.appended s.operations
    = echo s.command :: Log.appended s.run.writes ++ [terminal s.run.ending] := by
  rw [operations, Log.appended_append]
  rfl

end Submission

/-- What submissions do to the log. -/
def traffic (submissions : List Submission) : List Log.Operation :=
  submissions.flatMap Submission.operations

/-- Submissions begin with the echo of the first. -/
theorem head?_appended_traffic (submissions : List Submission) :
    (Log.appended (traffic submissions)).head? = submissions.head?.map (echo ·.command) := by
  cases submissions with
  | nil => rfl
  | cons s rest =>
    rw [traffic, List.flatMap_cons, Log.appended_append, s.appended_operations]
    rfl

/-- Submissions end with the terminal message of the last. -/
theorem getLast?_appended_traffic (submissions : List Submission) :
    (Log.appended (traffic submissions)).getLast?
      = submissions.getLast?.map (terminal ·.run.ending) := by
  induction submissions using List.reverseRecOn with
  | nil => rfl
  | append_singleton rest s _ =>
    rw [traffic, List.flatMap_append, Log.appended_append, List.flatMap_singleton,
      s.appended_operations, ← List.append_assoc, List.getLast?_concat, List.getLast?_concat]
    rfl

/-- The console after a command line was submitted. -/
def enter (c : Console σ) (e : Entered) : Console σ :=
  ({ c with history := e.history }.submit e.mode).2

/-- The console after command lines were submitted in turn. -/
def enterAll (c : Console σ) (entered : List Entered) : Console σ := entered.foldl enter c

/-- The commands among command lines, each with its run. -/
def submissions (c : Console σ) : List Entered → List Submission
  | [] => []
  | e :: entered =>
    let command := e.history.current
    let rest := (c.enter e).submissions entered
    if Text.isBlankText command then rest
    else ⟨command, (c.executor (c.template.wrap command) c.state).1⟩ :: rest

theorem commands_submissions (c : Console σ) (entered : List Entered) :
    (c.submissions entered).map (·.command)
      = (entered.map (·.history.current)).filter fun text => !Text.isBlankText text := by
  induction entered generalizing c with
  | nil => rfl
  | cons e entered ih =>
    rw [submissions, List.map_cons, List.filter_cons]
    rcases h : Text.isBlankText e.history.current with _ | _
    · simp [ih]
    · simp [ih]

/-- What is done to the log in submitting. -/
theorem log_enterAll (c : Console σ) (entered : List Entered) :
    (c.enterAll entered).log = c.log.applyAll (traffic (c.submissions entered)) := by
  induction entered generalizing c with
  | nil => rfl
  | cons e entered ih =>
    change ((c.enter e).enterAll entered).log = _
    rw [ih, submissions]
    rcases h : Text.isBlankText e.history.current with _ | _
    · have hsubmit := submit_of_command (c := { c with history := e.history }) h e.mode rfl
      have hlog : (c.enter e).log = c.log.applyAll (Submission.operations
          ⟨e.history.current, (c.executor (c.template.wrap e.history.current) c.state).1⟩) := by
        rw [enter, hsubmit]
        rfl
      rw [hlog, ← Log.applyAll_append, if_neg (by simp)]
      rfl
    · have hsubmit := submit_of_blank (c := { c with history := e.history }) h e.mode
      rw [if_pos rfl, show (c.enter e).log = c.log by rw [enter, hsubmit]]

/-! ### The main statement -/

section Standing

variable {log : Log} (hempty : log.newestFirst = []) (hordered : log.Ordered)
  (hroom : 1 ≤ log.policy.maxEntries)

include hempty in
/-- Between submissions the newest entry is no echo. -/
theorem not_carries_echo {before : List Submission} {e : Log.Entry}
    (he : (log.applyAll (traffic before)).last? = some e) (command : String) :
    e.carries (echo command) = false := by
  rcases Log.carries_last_appended he with ⟨m, hm, hcarries⟩ | ⟨-, hlast⟩
  · rw [getLast?_appended_traffic, Option.map_eq_some_iff] at hm
    obtain ⟨s, -, rfl⟩ := hm
    exact carries_of_not_same hcarries (not_same_terminal_echo s.run.ending command)
  · rw [Log.last?, hempty] at hlast
    cases hlast

include hempty hordered hroom in
/-- **The echo stands.** -/
theorem stands_echo (before : List Submission) {s : Submission} (hs : s.Apart)
    (after : List Submission) :
    (log.applyAll (traffic before)).Stands (echo s.command)
      (s.run.writes ++ .append (terminal s.run.ending) :: traffic after) := by
  refine Log.stands_of_apart (hordered.applyAll _) (Log.one_le_maxEntries_applyAll hroom _)
    (fun e he => not_carries_echo hempty he s.command) fun m hm => carries_entryOf ?_
  rw [Log.appended_append, List.head?_append, Option.or_eq_some_iff] at hm
  rcases hm with hm | ⟨-, hm⟩
  · exact hs.first m hm
  · obtain rfl := Option.some.inj hm
    exact not_same_echo_terminal s.command s.run.ending

include hordered hroom in
/-- **The terminal message stands.** -/
theorem stands_terminal (before : List Submission) {s : Submission} (hs : s.Apart)
    (after : List Submission) :
    ((log.applyAll (traffic before)).applyAll (.append (echo s.command) :: s.run.writes)).Stands
      (terminal s.run.ending) (traffic after) := by
  refine Log.stands_of_apart ((hordered.applyAll _).applyAll _)
    (Log.one_le_maxEntries_applyAll (Log.one_le_maxEntries_applyAll hroom _) _)
    (fun e he => ?_) fun m hm => carries_entryOf ?_
  · have hechoed : Log.appended (.append (echo s.command) :: s.run.writes)
        = echo s.command :: Log.appended s.run.writes := rfl
    rcases Log.carries_last_appended he with ⟨m, hm, hcarries⟩ | ⟨hnone, -⟩
    · refine carries_of_not_same hcarries ?_
      rw [hechoed, List.getLast?_cons] at hm
      obtain rfl := Option.some.inj hm
      rcases hlast : (Log.appended s.run.writes).getLast? with _ | m
      · exact not_same_echo_terminal s.command s.run.ending
      · exact hs.last m hlast
    · rw [hechoed] at hnone
      cases hnone
  · rw [head?_appended_traffic, Option.map_eq_some_iff] at hm
    obtain ⟨s', -, rfl⟩ := hm
    exact not_same_terminal_echo s.run.ending s'.command

end Standing

/-- What the entries of a submission say if its executor writes nothing. -/
def Submission.entries (s : Submission) : List (String × Severity × Nat) :=
  [((echo s.command).text, (echo s.command).severity, 1),
    ((terminal s.run.ending).text, (terminal s.run.ending).severity, 1)]

theorem length_entries (submissions : List Submission) :
    (submissions.flatMap Submission.entries).length = 2 * submissions.length := by
  induction submissions with
  | nil => rfl
  | cons s rest ih =>
    rw [List.flatMap_cons, List.length_append, ih, List.length_cons]
    change 2 + 2 * rest.length = _
    omega

/-- Each of them is counted once. -/
theorem count_of_mem_entries {s : Submission} {e : Log.Entry} (he : heard e ∈ s.entries) :
    e.count = 1 := by
  simp only [Submission.entries, heard, List.mem_cons, Prod.mk.injEq, List.not_mem_nil,
    or_false] at he
  rcases he with ⟨-, -, hcount⟩ | ⟨-, -, hcount⟩ <;> exact hcount

/-- **Each submission without messages of its own leaves its echo and its terminal message.** -/
theorem heard_applyAll_traffic {log : Log} {submissions : List Submission}
    (hsilent : ∀ s ∈ submissions, s.run.writes = [])
    (hbefore : ∀ e, log.last? = some e → ∀ command, e.carries (echo command) = false)
    (hroom : log.length + 2 * submissions.length ≤ log.policy.maxEntries) :
    (log.applyAll (traffic submissions)).snapshot.map heard
      = log.snapshot.map heard ++ submissions.flatMap Submission.entries := by
  induction submissions generalizing log with
  | nil => simp [traffic, Log.applyAll]
  | cons s rest ih =>
    obtain ⟨hwrites, hrest⟩ := List.forall_mem_cons.1 hsilent
    rw [List.length_cons] at hroom
    have hfits : log.length + 1 < log.policy.maxEntries := by omega
    have hecho := Log.newestFirst_write_of_apart (fun e he => hbefore e he s.command)
      (show log.length < log.policy.maxEntries by omega)
    have hroomLeft : (log.write (echo s.command)).length
        < (log.write (echo s.command)).policy.maxEntries := by
      rw [Log.policy_write, Log.length, hecho, List.length_cons]
      exact hfits
    have hterminal := Log.newestFirst_write_of_apart (fun e he =>
      carries_of_not_same (Log.carries_of_last?_write he)
        (not_same_echo_terminal s.command s.run.ending)) hroomLeft
    have hlog : log.applyAll (traffic (s :: rest))
        = ((log.write (echo s.command)).write (terminal s.run.ending)).applyAll (traffic rest) := by
      rw [traffic, List.flatMap_cons, Log.applyAll_append, Submission.operations, hwrites]
      rfl
    rw [hlog, ih hrest, List.flatMap_cons, ← List.append_assoc]
    · simp [Log.snapshot, hterminal, hecho, Submission.entries, heard, Log.entryOf]
    · intro e he command
      exact carries_of_not_same (Log.carries_of_last?_write he)
        (not_same_terminal_echo s.run.ending command)
    · rw [Log.length, hterminal, hecho, Log.policy_write, Log.policy_write]
      change log.length + 1 + 1 + 2 * rest.length ≤ _
      omega

/-- **No two submissions share an entry.** On a new log with room, the echo and the terminal message
of each submission make entries of their own, counted once and never again, if what the executor
writes first differs from the echo and what it writes last from the terminal message. If no executor
writes anything and there is room for all, each submission leaves two entries. -/
theorem submissions_stand {c : Console σ} {policy : Log.Policy} {clock : Clock}
    (hnew : c.log = Log.new policy clock) (hroom : 1 ≤ policy.maxEntries)
    (entered : List Entered) (hapart : ∀ s ∈ c.submissions entered, s.Apart) :
    (c.submissions entered).map (·.command)
        = (entered.map (·.history.current)).filter (fun text => !Text.isBlankText text) ∧
      (c.enterAll entered).log = c.log.applyAll (traffic (c.submissions entered)) ∧
      (∀ before s after, c.submissions entered = before ++ s :: after →
        (c.log.applyAll (traffic before)).Stands (echo s.command)
          (s.run.writes ++ .append (terminal s.run.ending) :: traffic after) ∧
        ((c.log.applyAll (traffic before)).applyAll
            (.append (echo s.command) :: s.run.writes)).Stands
          (terminal s.run.ending) (traffic after)) ∧
      ((∀ s ∈ c.submissions entered, s.run.writes = []) →
        2 * (c.submissions entered).length ≤ policy.maxEntries →
          (c.enterAll entered).log.length = 2 * (c.submissions entered).length ∧
          (c.enterAll entered).log.snapshot.map heard
            = (c.submissions entered).flatMap Submission.entries ∧
          ∀ e ∈ (c.enterAll entered).log.snapshot, e.count = 1) := by
  have hempty : c.log.newestFirst = [] := by rw [hnew]; rfl
  have hordered : c.log.Ordered :=
    (Log.Ordered.new policy clock).take 0 (by rw [hnew]; rfl) (by rw [hnew])
  refine ⟨c.commands_submissions entered, c.log_enterAll entered, fun before s after hsplit => ?_,
    fun hsilent hfits => ?_⟩
  · have hs := hapart s (hsplit ▸ List.mem_append_right _ List.mem_cons_self)
    have hroom : 1 ≤ c.log.policy.maxEntries := hnew ▸ hroom
    exact ⟨stands_echo hempty hordered hroom before hs after,
      stands_terminal hordered hroom before hs after⟩
  · have hheard : (c.enterAll entered).log.snapshot.map heard
        = (c.submissions entered).flatMap Submission.entries := by
      have hbefore : ∀ e, c.log.last? = some e → ∀ command, e.carries (echo command) = false := by
        intro e he
        rw [Log.last?, hempty] at he
        cases he
      have hfits : c.log.length + 2 * (c.submissions entered).length ≤ c.log.policy.maxEntries := by
        rw [Log.length, hempty, List.length_nil, Nat.zero_add, hnew]
        exact hfits
      rw [c.log_enterAll, heard_applyAll_traffic hsilent hbefore hfits, Log.snapshot.eq_def c.log,
        hempty]
      rfl
    refine ⟨?_, hheard, fun e he => ?_⟩
    · have hlength := congrArg List.length hheard
      rw [List.length_map, length_entries, Log.snapshot, List.length_reverse] at hlength
      exact hlength
    · have hmem := List.mem_map_of_mem (f := heard) he
      rw [hheard] at hmem
      obtain ⟨s, -, hs⟩ := List.mem_flatMap.1 hmem
      exact count_of_mem_entries hs

/-- A console with room for four entries, whose executor writes nothing and always fails. -/
def failingConsole : Console Execution.Script :=
  .new (.new ⟨4, false, false, true, true⟩) .standard Execution.scripted
    ⟨[⟨[], .failed .noEntryPoint⟩], []⟩

/-- The same command twice, with a blank command line between. -/
def sameTwice : List Entered :=
  [⟨⟨[], "x", []⟩, .keep⟩, ⟨⟨[], " ", []⟩, .roll⟩, ⟨⟨["y"], "x", []⟩, .roll⟩]

/-- Its failures are alike, and each submission has its own two entries. -/
theorem submissions_stand_sameTwice :
    (∀ s ∈ failingConsole.submissions sameTwice, s.Apart) ∧
    (failingConsole.enterAll sameTwice).log.snapshot.map heard =
      [("> x", .info, 1),
        ("Failed to find an entry point in the compiled command-line", .error, 1),
        ("> x", .info, 1),
        ("Failed to find an entry point in the compiled command-line", .error, 1)] := by
  have hsilent : ∀ s ∈ failingConsole.submissions sameTwice, s.run.writes = [] := by decide
  have hapart : ∀ s ∈ failingConsole.submissions sameTwice, s.Apart :=
    fun s hs => s.apart_of_silent (hsilent s hs)
  obtain ⟨-, -, -, hentries⟩ := submissions_stand (c := failingConsole) rfl (by decide)
    sameTwice hapart
  refine ⟨hapart, ?_⟩
  rw [(hentries hsilent (by decide)).2.1]
  decide

end Console

end SnippetConsole
