/-
# Which events of an application reach the log

A bridge is made from the standard one by adjustments, in any order and any number. Which events it
accepts is told by the adjustments themselves: each of its two parts by those that concern it.

| part | is | without any |
| --- | --- | --- |
| level | the level that was set last (`lastLevel`) | informational |
| ignored beginnings | those added since all targets were forwarded (`stillIgnored`) | `livecode_` |

An event that is not accepted leaves no trace: the log is that of the accepted events alone
(`receiveAll_eq_applyAll`), so two series of events with the same accepted ones cannot be told apart
by it. What is said of the log follows from what is said of the accepted events. A caller is the
target of one of them (`caller_of_mem_receiveAll`), and events that say the same are counted in one
entry, whatever was refused between them (`newestFirst_receiveAll_of_same`).
-/

import SnippetConsole.Event
import SnippetConsole.Proofs.LogStep
import Mathlib.Data.List.DropRight
import Mathlib.Data.List.Induction

namespace SnippetConsole

namespace Log

/-! ### A message that is said again -/

/-- The newest entry carries what a message says; there is none only if the log keeps none. -/
structure SaidLast (log : Log) (m : Message) : Prop where
  carries : ∀ e, log.last? = some e → e.carries m = true
  empty : log.newestFirst = [] → log.policy.maxEntries = 0

/-- What was written was said last. -/
theorem saidLast_write (log : Log) (m : Message) : (log.write m).SaidLast m where
  carries := fun _ he => carries_of_last?_write he
  empty := by
    intro hempty
    rw [policy_write, ← Nat.lt_one_iff, ← Nat.not_le]
    intro hroom
    obtain ⟨e, he, -⟩ := exists_last?_write hroom m
    rw [last?, hempty] at he
    cases he

/-- The entries with the newest one counted `n` times more. -/
def countMore (n : Nat) (entries : List Entry) : List Entry :=
  entries.modifyHead fun e => { e with count := e.count + n }

theorem countMore_zero (entries : List Entry) : countMore 0 entries = entries := by
  cases entries with
  | nil => rfl
  | cons e rest => rfl

theorem countMore_countMore (k n : Nat) (entries : List Entry) :
    countMore n (countMore k entries) = countMore (k + n) entries := by
  cases entries with
  | nil => rfl
  | cons e rest => simp [countMore, Nat.add_assoc]

/-- **Said again, a message is counted once more,** and no entry is added or lost. -/
theorem SaidLast.newestFirst_write {log : Log} {m : Message} (h : log.SaidLast m) :
    (log.write m).newestFirst = countMore 1 log.newestFirst := by
  rcases log.append_cases m with ⟨e, rest, hl, -, happ⟩ | ⟨hno, happ⟩
  · rw [write, happ, hl]
    rfl
  · rw [write, happ]
    rcases hl : log.newestFirst with _ | ⟨e, rest⟩
    · -- a new entry, for which there is no room
      simp [extended, h.empty hl, countMore]
    · have hcarries := h.carries e (by rw [last?, hl]; rfl)
      rw [hno e rest hl] at hcarries
      cases hcarries

/-- Messages that agree in text and severity are said by the same entries. -/
theorem SaidLast.congr {log : Log} {m m' : Message} (h : log.SaidLast m)
    (htext : m'.text = m.text) (hseverity : m'.severity = m.severity) : log.SaidLast m' where
  carries := fun e he => by
    rw [Entry.carries_iff, htext, hseverity, ← Entry.carries_iff]
    exact h.carries e he
  empty := h.empty

end Log

namespace Event

/-! ### Bridges and what they accept -/

/-- A change of a bridge before it is used. -/
inductive Adjustment where
  | level (level : Level)
  | ignore (beginning : String)
  | forwardAll
  deriving DecidableEq, Repr

namespace Adjustment

/-- The level that an adjustment sets. -/
def level? : Adjustment → Option Level
  | level l => some l
  | _ => none

/-- The beginning that an adjustment ignores. -/
def ignored? : Adjustment → Option String
  | ignore beginning => some beginning
  | _ => none

end Adjustment

/-- The level set last. -/
def lastLevel (adjustments : List Adjustment) : Level :=
  (adjustments.filterMap (·.level?)).getLast?.getD .info

/-- The beginnings ignored since all targets were last forwarded. The first of them is there from
the start. -/
def stillIgnored (adjustments : List Adjustment) : List String :=
  ((.ignore "livecode_" :: adjustments).rtakeWhile (· ≠ .forwardAll)).filterMap (·.ignored?)

/-- An event is no more verbose than the level set last, and its target has none of the beginnings
that are still ignored. -/
def Accepted (adjustments : List Adjustment) (e : Event) : Prop :=
  e.level.rank ≤ (lastLevel adjustments).rank ∧
    ∀ beginning ∈ stillIgnored adjustments, ¬beginning.toList <+: e.target.toList

namespace Bridge

/-- The bridge after an adjustment. -/
def adjust (b : Bridge) : Adjustment → Bridge
  | .level level => b.withLevel level
  | .ignore beginning => b.ignoring beginning
  | .forwardAll => b.forwardingAll

/-- The bridge made by adjustments in order. -/
def built (adjustments : List Adjustment) : Bridge := adjustments.foldl adjust standard

/-- The log after events in order. -/
def receiveAll (b : Bridge) (log : Log) (events : List Event) : Log := events.foldl b.receive log

/-- **A bridge is what its adjustments say,** part by part. -/
theorem built_eq (adjustments : List Adjustment) :
    built adjustments = ⟨lastLevel adjustments, stillIgnored adjustments⟩ := by
  induction adjustments using List.reverseRecOn with
  | nil => rfl
  | append_singleton adjustments last ih =>
    have hbuilt : built (adjustments ++ [last]) = (built adjustments).adjust last := by
      simp [built]
    rw [hbuilt, ih, lastLevel.eq_1 (_ ++ _), stillIgnored.eq_1 (_ ++ _), List.filterMap_append,
      ← List.cons_append]
    cases last with
    | level l =>
      rw [List.rtakeWhile_concat_pos _ _ _ (by simp), List.filterMap_append]
      simp [adjust, withLevel, Adjustment.level?, Adjustment.ignored?, stillIgnored]
    | ignore beginning =>
      rw [List.rtakeWhile_concat_pos _ _ _ (by simp), List.filterMap_append]
      simp [adjust, ignoring, Adjustment.level?, Adjustment.ignored?, stillIgnored, lastLevel]
    | forwardAll =>
      rw [List.rtakeWhile_concat_neg _ _ _ (by simp)]
      simp [adjust, forwardingAll, Adjustment.level?, lastLevel]

theorem accepts_iff {b : Bridge} {e : Event} :
    b.accepts e = true ↔ e.level.rank ≤ b.level.rank ∧
      ∀ beginning ∈ b.ignored, ¬beginning.toList <+: e.target.toList := by
  simp [accepts, List.isPrefixOf_iff_prefix]

/-- **What a bridge accepts is told by its adjustments.** -/
theorem accepts_built_iff (adjustments : List Adjustment) (e : Event) :
    (built adjustments).accepts e = true ↔ Accepted adjustments e := by
  rw [accepts_iff, built_eq]
  exact Iff.rfl

/-! ### Events in a row -/

section Receiving

variable (b : Bridge) (log : Log)

theorem receive_of_accepts {e : Event} (h : b.accepts e = true) :
    b.receive log e = log.write e.toMessage :=
  if_pos h

theorem receive_of_refuses {e : Event} (h : b.accepts e = false) : b.receive log e = log := by
  rw [receive, if_neg (by simp [h])]

theorem receiveAll_append (events more : List Event) :
    b.receiveAll log (events ++ more) = b.receiveAll (b.receiveAll log events) more :=
  List.foldl_append

theorem receiveAll_concat {events : List Event} {e : Event} (h : b.accepts e = true) :
    b.receiveAll log (events ++ [e]) = (b.receiveAll log events).write e.toMessage := by
  rw [receiveAll_append]
  exact b.receive_of_accepts _ h

/-- **Only accepted events do anything,** and each is one append. -/
theorem receiveAll_eq_applyAll (events : List Event) :
    b.receiveAll log events
      = log.applyAll ((events.filter b.accepts).map fun e => .append e.toMessage) := by
  induction events generalizing log with
  | nil => rfl
  | cons e events ih =>
    change b.receiveAll (b.receive log e) events = _
    rw [ih]
    rcases h : b.accepts e with _ | _
    · rw [b.receive_of_refuses log h, List.filter_cons_of_neg (by simp [h])]
    · rw [b.receive_of_accepts log h, List.filter_cons_of_pos h]
      rfl

/-- The refused events may as well not have occurred. -/
theorem receiveAll_filter (events : List Event) :
    b.receiveAll log (events.filter b.accepts) = b.receiveAll log events := by
  rw [receiveAll_eq_applyAll, receiveAll_eq_applyAll, List.filter_filter]
  simp only [Bool.and_self]

/-- A caller was there before an event, or is its target and the event was accepted. -/
theorem caller_of_mem_receive {e : Event} {entry : Log.Entry}
    (hentry : entry ∈ (b.receive log e).newestFirst) :
    (∃ old ∈ log.newestFirst, old.caller = entry.caller) ∨
      (b.accepts e = true ∧ entry.caller = e.target) := by
  rcases h : b.accepts e with _ | _
  · rw [b.receive_of_refuses log h] at hentry
    exact .inl ⟨entry, hentry, rfl⟩
  · rw [b.receive_of_accepts log h] at hentry
    rcases log.append_cases e.toMessage with ⟨newest, rest, hl, -, happ⟩ | ⟨-, happ⟩
    · rw [Log.write, happ] at hentry
      -- an entry that is counted again keeps its first caller
      rcases List.mem_cons.1 hentry with rfl | hentry
      · exact .inl ⟨newest, hl ▸ List.mem_cons_self, rfl⟩
      · exact .inl ⟨entry, hl ▸ List.mem_cons_of_mem _ hentry, rfl⟩
    · rw [Log.write, happ] at hentry
      rcases List.mem_cons.1 (List.mem_of_mem_take hentry) with rfl | hentry
      · exact .inr ⟨rfl, rfl⟩
      · exact .inl ⟨entry, hentry, rfl⟩

/-- **A caller was there before, or is the target of an accepted event.** -/
theorem caller_of_mem_receiveAll {events : List Event} {entry : Log.Entry}
    (hentry : entry ∈ (b.receiveAll log events).newestFirst) :
    (∃ old ∈ log.newestFirst, old.caller = entry.caller) ∨
      ∃ e ∈ events, b.accepts e = true ∧ entry.caller = e.target := by
  induction events using List.reverseRecOn generalizing entry with
  | nil => exact .inl ⟨entry, hentry, rfl⟩
  | append_singleton events e ih =>
    rw [receiveAll_append] at hentry
    rcases b.caller_of_mem_receive _ hentry with ⟨old, hold, hcaller⟩ | ⟨haccepts, hcaller⟩
    · rcases ih hold with ⟨older, holder, h⟩ | ⟨e', he', haccepts, h⟩
      · exact .inl ⟨older, holder, h.trans hcaller⟩
      · exact .inr ⟨e', List.mem_append_left _ he', haccepts, hcaller.symm.trans h⟩
    · exact .inr ⟨e, by simp, haccepts, hcaller⟩

/-- **What is said again is counted in the newest entry,** once for each accepted event, with any
refused ones between them. -/
theorem newestFirst_receiveAll_of_same {log : Log} {m : Log.Message} (h : log.SaidLast m)
    {more : List Event} (hsame : ∀ e ∈ more, b.accepts e = true →
      e.toMessage.text = m.text ∧ e.toMessage.severity = m.severity) :
    (b.receiveAll log more).newestFirst
      = Log.countMore (more.countP b.accepts) log.newestFirst := by
  induction more generalizing log with
  | nil => exact (Log.countMore_zero _).symm
  | cons e more ih =>
    obtain ⟨he, hmore⟩ := List.forall_mem_cons.1 hsame
    change (b.receiveAll (b.receive log e) more).newestFirst = _
    rcases haccepts : b.accepts e with _ | _
    · rw [b.receive_of_refuses log haccepts, ih h hmore,
        List.countP_cons_of_neg (by simp [haccepts])]
    · obtain ⟨htext, hseverity⟩ := he haccepts
      rw [b.receive_of_accepts log haccepts,
        ih ((log.saidLast_write _).congr htext.symm hseverity.symm) hmore,
        (h.congr htext hseverity).newestFirst_write, Log.countMore_countMore,
        List.countP_cons_of_pos haccepts, Nat.add_comm]

end Receiving

/-- **Events are filtered without a trace.** However a bridge was adjusted, it accepts an event just
if the level set last admits it and its target has none of the beginnings that are still ignored.
Any log after any events is what the appends of the accepted ones make of it, so series with the
same accepted events leave the same log. In a log that was new, no caller has a beginning that is
still ignored. And an accepted event, with any that say the same behind it and any refused ones
between them, is one entry, which is counted once for each, if the log keeps entries at all. -/
theorem refused_events_leave_no_trace (adjustments : List Adjustment) :
    let b := built adjustments
    (∀ e, b.accepts e = true ↔ Accepted adjustments e) ∧
    (∀ log events, b.receiveAll log (events.filter b.accepts) = b.receiveAll log events ∧
      b.receiveAll log events
        = log.applyAll ((events.filter b.accepts).map fun e => .append e.toMessage)) ∧
    (∀ log events events', events.filter b.accepts = events'.filter b.accepts →
      b.receiveAll log events = b.receiveAll log events') ∧
    (∀ policy clock events, ∀ entry ∈ (b.receiveAll (Log.new policy clock) events).snapshot,
      ∀ beginning ∈ stillIgnored adjustments, ¬beginning.toList <+: entry.caller.toList) ∧
    ∀ log events e more, b.accepts e = true →
      (∀ e' ∈ more, b.accepts e' = true → e'.toMessage.text = e.toMessage.text ∧
        e'.toMessage.severity = e.toMessage.severity) →
      (b.receiveAll log (events ++ e :: more)).newestFirst
          = Log.countMore (more.countP b.accepts)
              (b.receiveAll log (events ++ [e])).newestFirst ∧
        (1 ≤ (b.receiveAll log events).policy.maxEntries →
          ∃ entry, (b.receiveAll log (events ++ [e])).last? = some entry ∧
            entry.text = e.toMessage.text ∧ entry.severity = e.toMessage.severity) := by
  intro b
  refine ⟨accepts_built_iff adjustments, fun log events =>
      ⟨b.receiveAll_filter log events, b.receiveAll_eq_applyAll log events⟩,
    fun log events events' hsame => ?_, fun policy clock events entry hentry => ?_,
    fun log events e more he hsame => ⟨?_, fun hroom => ?_⟩⟩
  · rw [b.receiveAll_eq_applyAll, b.receiveAll_eq_applyAll, hsame]
  · rcases b.caller_of_mem_receiveAll _ (List.mem_reverse.1 hentry) with
      ⟨old, hold, -⟩ | ⟨e, -, haccepts, hcaller⟩
    · exact absurd hold List.not_mem_nil
    · rw [hcaller]
      exact ((accepts_built_iff adjustments e).1 haccepts).2
  · rw [List.append_cons, b.receiveAll_append log _ more, b.receiveAll_concat log he]
    exact b.newestFirst_receiveAll_of_same (Log.saidLast_write _ e.toMessage) hsame
  · rw [b.receiveAll_concat log he]
    exact Log.exists_last?_write hroom e.toMessage

/-- Beginnings come back after all targets were forwarded only if they are added again; the level is
not concerned. -/
example : built [.ignore "net", .level .warn, .forwardAll, .ignore "db"] = ⟨.warn, ["db"]⟩ := by
  decide

end Bridge
end Event
end SnippetConsole
