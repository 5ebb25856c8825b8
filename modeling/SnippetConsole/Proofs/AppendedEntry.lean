/-
# What was appended is in the log

An append answers with the id and the count of an entry. If the log has room for one, that is its
newest entry, and it says the message (`Ordered.hasAppended`). Room is what a policy gives:

| how the policy came | room |
| --- | --- |
| from settings, or standard | for one at least |
| set in a log | for one at least |
| given when the log was made | as it says, also for none |

No operation takes the room away, and only a policy that is set can give it to a log that was made
without (`room_applyAll_iff`). Until then the log keeps no entry: it never has more than there is
room for (`length_applyAll_le`), and an append answers with the id of an entry that is not there.
-/

import SnippetConsole.Proofs.LogOrder

namespace SnippetConsole
namespace Log

/-- The count of the entry that has the message. -/
def Outcome.count : Outcome → Nat
  | added _ => 1
  | repeated _ count => count

/-- What an append answered is so: the newest entry, and no other, has the id of the outcome. It
says the message, and its count is that of the outcome. -/
def HasAppended (log : Log) (m : Message) (outcome : Outcome) : Prop :=
  ∃ e rest, log.newestFirst = e :: rest ∧ e.id = outcome.id ∧ e.text = m.text ∧
    e.severity = m.severity ∧ e.count = outcome.count ∧ ∀ other ∈ rest, other.id ≠ outcome.id

/-! ### With room -/

/-- **An append to a log with room** is in it. -/
theorem Ordered.hasAppended {log : Log} (h : log.Ordered) (hroom : 1 ≤ log.policy.maxEntries)
    (m : Message) : (log.append m).2.HasAppended m (log.append m).1 := by
  rcases log.append_cases m with ⟨e, rest, hl, hcarries, happ⟩ | ⟨-, happ⟩
  · obtain ⟨hseverity, htext⟩ := Entry.carries_iff.1 hcarries
    have hfalling := (List.pairwise_cons.1 (hl ▸ h.falling)).1
    rw [happ]
    exact ⟨_, rest, rfl, rfl, htext, hseverity, rfl, fun other hother =>
      Nat.ne_of_lt (hfalling other hother)⟩
  · obtain ⟨n, hn⟩ := Nat.exists_eq_add_of_le' hroom
    have hcut : (log.extended m).newestFirst = log.entryOf m :: log.newestFirst.take n := by
      rw [extended, hn]
      rfl
    rw [happ]
    exact ⟨_, _, hcut, rfl, rfl, rfl, rfl, fun other hother =>
      Nat.ne_of_lt (h.id_lt (List.mem_of_mem_take hother))⟩

/-- **One operation:** a log has room afterwards if it had room before, or if its policy was set. -/
theorem room_apply_iff {log : Log} {op : Operation} :
    1 ≤ (log.apply op).policy.maxEntries ↔
      1 ≤ log.policy.maxEntries ∨ ∃ policy, .setPolicy policy = op := by
  cases op with
  | setPolicy policy => exact iff_of_true policy.one_le_clamped (.inr ⟨policy, rfl⟩)
  | append m =>
    rw [or_iff_left (by rintro ⟨_, ⟨⟩⟩), apply, policy_write]
  | clear => exact (or_iff_left (by rintro ⟨_, ⟨⟩⟩)).symm
  | takeReveal => exact (or_iff_left (by rintro ⟨_, ⟨⟩⟩)).symm
  | takeScroll => exact (or_iff_left (by rintro ⟨_, ⟨⟩⟩)).symm

/-- **A run:** a log has room if it had room at first, or if its policy was ever set. -/
theorem room_applyAll_iff {log : Log} {ops : List Operation} :
    1 ≤ (log.applyAll ops).policy.maxEntries ↔
      1 ≤ log.policy.maxEntries ∨ ∃ policy, .setPolicy policy ∈ ops := by
  induction ops generalizing log with
  | nil => simp [applyAll]
  | cons op ops ih =>
    change 1 ≤ ((log.apply op).applyAll ops).policy.maxEntries ↔ _
    simp only [ih, room_apply_iff, List.mem_cons, exists_or, or_assoc]

/-! ### Without room -/

/-- **One operation:** a log that has no more entries than it has room for stays so. -/
theorem length_apply_le {log : Log} (h : log.length ≤ log.policy.maxEntries) (op : Operation) :
    (log.apply op).length ≤ (log.apply op).policy.maxEntries := by
  cases op with
  | append m =>
    rcases log.append_cases m with ⟨e, rest, hl, -, happ⟩ | ⟨-, happ⟩
    · rw [length, hl] at h
      rw [apply, write, happ]
      exact h
    · rw [apply, write, happ]
      exact List.length_take_le _ _
  | clear => exact Nat.zero_le _
  | setPolicy policy => exact List.length_take_le _ _
  | takeReveal => exact h
  | takeScroll => exact h

/-- **A run:** so it does after any operations. -/
theorem length_applyAll_le {log : Log} (h : log.length ≤ log.policy.maxEntries)
    (ops : List Operation) :
    (log.applyAll ops).length ≤ (log.applyAll ops).policy.maxEntries := by
  induction ops generalizing log with
  | nil => exact h
  | cons op ops ih => exact ih (length_apply_le h op)

/-- **An append to a log without room** answers with a new id, and no entry has it. -/
theorem append_of_noRoom {log : Log} (h : log.length ≤ log.policy.maxEntries)
    (hroom : log.policy.maxEntries = 0) (m : Message) :
    (log.append m).1 = .added log.nextId ∧ (log.append m).2.newestFirst = [] := by
  have hempty : log.newestFirst = [] := List.eq_nil_of_length_eq_zero (Nat.le_zero.1 (hroom ▸ h))
  rcases log.append_cases m with ⟨e, rest, hl, -, -⟩ | ⟨-, happ⟩
  · rw [hempty] at hl
    cases hl
  · rw [happ]
    refine ⟨rfl, ?_⟩
    rw [extended, hroom]
    rfl

/-- **An append is in the log just if there is room for it.** There is in a log that was made with
room, so with the policy of any settings, and in one whose policy was ever set. Then the newest
entry is the one that the append answered with, and says the message. Else the append answers with
a new id, and the log stays empty. -/
theorem append_shown_iff_room (policy : Policy) (clock : Clock) (ops : List Operation) :
    let log := (Log.new policy clock).applyAll ops
    (1 ≤ log.policy.maxEntries ↔
      1 ≤ policy.maxEntries ∨ ∃ other, .setPolicy other ∈ ops) ∧
    (∀ c, policy = .ofSettings c → 1 ≤ log.policy.maxEntries) ∧
    ∀ m, ((log.append m).2.HasAppended m (log.append m).1 ↔ 1 ≤ log.policy.maxEntries) ∧
      (log.policy.maxEntries = 0 →
        (log.append m).1 = .added log.nextId ∧ (log.append m).2.newestFirst = []) := by
  intro log
  have hroom : 1 ≤ log.policy.maxEntries ↔
      1 ≤ policy.maxEntries ∨ ∃ other, .setPolicy other ∈ ops := room_applyAll_iff
  have hordered : log.Ordered := (Ordered.new policy clock).applyAll ops
  have hlength : log.length ≤ log.policy.maxEntries := length_applyAll_le (Nat.zero_le _) ops
  refine ⟨hroom, ?_, fun m => ⟨⟨fun hshown => ?_, fun h => hordered.hasAppended h m⟩,
    fun h => append_of_noRoom hlength h m⟩⟩
  · rintro c rfl
    exact hroom.2 (.inl (Nat.le_max_right _ _))
  · by_contra hnone
    obtain ⟨-, hempty⟩ := append_of_noRoom hlength (Nat.lt_one_iff.1 (Nat.not_le.1 hnone)) m
    obtain ⟨e, rest, hl, -⟩ := hshown
    rw [hempty] at hl
    cases hl

/-- A log made without room answers with the id of an entry that it does not keep. -/
theorem not_hasAppended_without_room :
    let log := Log.new { Policy.standard with maxEntries := 0 }
    let m : Message := ⟨.internal, "a", .info⟩
    ¬1 ≤ log.policy.maxEntries ∧ (log.append m).1 = .added 1 ∧ (log.append m).2.last? = none ∧
      ¬(log.append m).2.HasAppended m (log.append m).1 :=
  ⟨by decide, rfl, rfl, fun ⟨_, _, h, _⟩ => nomatch h⟩

end Log
end SnippetConsole
