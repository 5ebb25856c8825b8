/-
# One step of the log

What an operation can do to a log. An append either raises the count of the newest entry,
which says the same, or puts an entry with the next id in front and drops what is beyond the
bound (`append_cases`). No operation takes the last room away: a bound of at least one stays
at least one (`one_le_maxEntries_applyAll`), so what was appended last is the newest entry
(`exists_last?_write`).
-/

import SnippetConsole.Log.Basic

namespace SnippetConsole
namespace Log

/-- The log whose newest entry `e`, before `rest`, arrived once more. -/
def raised (log : Log) (e : Entry) (rest : List Entry) : Log :=
  { log with
    newestFirst := { e with count := e.count + 1 } :: rest
    revision := log.revision + 1 }

/-- The log with a new entry for a message. -/
def extended (log : Log) (m : Message) : Log :=
  { log with
    newestFirst := (log.entryOf m :: log.newestFirst).take log.policy.maxEntries
    nextId := log.nextId + 1
    revealRequested := log.revealRequested || log.policy.reveals m.severity
    scrollRequested := log.scrollRequested || log.policy.autoScroll
    revision := log.revision + 1 }

/-- A message says the same as an entry if severity and text agree. -/
theorem Entry.carries_iff {e : Entry} {m : Message} :
    e.carries m = true ↔ e.severity = m.severity ∧ e.text = m.text := by
  simp [Entry.carries]

/-- **What an append can do:** the newest entry says the same and is counted once more, or it
does not and there is a new entry. -/
theorem append_cases (log : Log) (m : Message) :
    (∃ e rest, log.newestFirst = e :: rest ∧ e.carries m = true ∧
        log.append m = (.repeated e.id (e.count + 1), log.raised e rest)) ∨
      ((∀ e rest, log.newestFirst = e :: rest → e.carries m = false) ∧
        log.append m = (.added log.nextId, log.extended m)) := by
  rcases hl : log.newestFirst with _ | ⟨e, rest⟩
  · refine Or.inr ⟨fun _ _ h => absurd h (by simp), ?_⟩
    simp [append, repeated?, extended, hl]
  · rcases hs : e.carries m with _ | _
    · refine Or.inr ⟨fun e' rest' h => ?_, ?_⟩
      · obtain ⟨rfl, rfl⟩ := List.cons.inj h
        exact hs
      · simp [append, repeated?, extended, hl, hs]
    · refine Or.inl ⟨e, rest, rfl, hs, ?_⟩
      simp [append, repeated?, raised, hl, hs]

/-- An append leaves the policy as it is. -/
@[simp] theorem policy_write (log : Log) (m : Message) : (log.write m).policy = log.policy := by
  rcases log.append_cases m with ⟨e, rest, -, -, h⟩ | ⟨-, h⟩
  · rw [write, h]
    rfl
  · rw [write, h]
    rfl

/-- No operation changes the clock. -/
theorem clock_apply (log : Log) (op : Operation) : (log.apply op).clock = log.clock := by
  cases op with
  | append m =>
    rcases log.append_cases m with ⟨e, rest, -, -, h⟩ | ⟨-, h⟩ <;> rw [apply, write, h] <;> rfl
  | clear => rfl
  | setPolicy policy => rfl
  | takeReveal => rfl
  | takeScroll => rfl

/-- Nor do several. -/
theorem clock_applyAll (log : Log) (ops : List Operation) :
    (log.applyAll ops).clock = log.clock := by
  induction ops generalizing log with
  | nil => rfl
  | cons op ops ih => exact (ih (log.apply op)).trans (log.clock_apply op)

/-- **No operation takes the last room away.** -/
theorem one_le_maxEntries_apply {log : Log} (h : 1 ≤ log.policy.maxEntries) (op : Operation) :
    1 ≤ (log.apply op).policy.maxEntries := by
  cases op with
  | append m => simpa [apply] using h
  | clear => exact h
  | setPolicy policy => exact policy.one_le_clamped
  | takeReveal => exact h
  | takeScroll => exact h

/-- Nor does any number of them. -/
theorem one_le_maxEntries_applyAll {log : Log} (h : 1 ≤ log.policy.maxEntries)
    (ops : List Operation) : 1 ≤ (log.applyAll ops).policy.maxEntries := by
  induction ops generalizing log with
  | nil => exact h
  | cons op ops ih => exact ih (one_le_maxEntries_apply h op)

/-- Operations in two parts are done one part after the other. -/
theorem applyAll_append (log : Log) (ops more : List Operation) :
    log.applyAll (ops ++ more) = (log.applyAll ops).applyAll more :=
  List.foldl_append

/-- **What was appended is the newest entry,** if the log keeps any. -/
theorem exists_last?_write {log : Log} (h : 1 ≤ log.policy.maxEntries) (m : Message) :
    ∃ e, (log.write m).last? = some e ∧ e.text = m.text ∧ e.severity = m.severity := by
  obtain ⟨n, hn⟩ := Nat.exists_eq_add_of_le h
  rcases log.append_cases m with ⟨e, rest, -, hs, happ⟩ | ⟨-, happ⟩
  · obtain ⟨hsev, htext⟩ := Entry.carries_iff.1 hs
    refine ⟨{ e with count := e.count + 1 }, ?_, htext, hsev⟩
    rw [write, happ]
    rfl
  · refine ⟨log.entryOf m, ?_, rfl, rfl⟩
    rw [write, happ]
    simp [extended, last?, hn, Nat.add_comm 1 n]

/-- The newest entry after an append says the message. -/
theorem carries_of_last?_write {log : Log} {m : Message} {e : Entry}
    (he : (log.write m).last? = some e) : e.carries m = true := by
  rcases log.append_cases m with ⟨newest, rest, -, hcarries, happ⟩ | ⟨-, happ⟩
  · rw [write, happ] at he
    obtain rfl := Option.some.inj he
    exact Entry.carries_iff.2 (Entry.carries_iff.1 hcarries)
  · rw [write, happ, last?, extended] at he
    obtain ⟨rest, hrest⟩ := List.head?_eq_some_iff.1 he
    rcases hn : log.policy.maxEntries with _ | n
    · simp [hn] at hrest
    · simp only [hn, List.take_succ_cons, List.cons.injEq] at hrest
      obtain ⟨rfl, -⟩ := hrest
      exact Entry.carries_iff.2 ⟨rfl, rfl⟩

end Log
end SnippetConsole
