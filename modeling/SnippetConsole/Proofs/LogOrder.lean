/-
# The order of the entries

Whatever the bound, even none at all, the ids of a log fall from the newest entry to the
oldest, and the newest entry has the id given last (`Ordered`): once an entry was pushed out or
cleared away, no later one gets its id. An operation retains the log's entries (`retains`) if none
is pushed out or cleared away by it, the one it writes included; then a cut at the bound cuts
nothing (`Ordered.eq_of_ids_subset`).
-/

import SnippetConsole.Proofs.LogStep
import Mathlib.Data.List.Nodup
import Mathlib.Data.List.Perm.Subperm

namespace SnippetConsole
namespace Log

/-- The ids of the entries, newest first. -/
def ids (log : Log) : List Nat := log.newestFirst.map (·.id)

/-- The entry that an operation writes to, by its id. -/
def writtenBy (log : Log) : Operation → List Nat
  | .append m => [(log.append m).1.id]
  | _ => []

/-- Whether all entries are still there after an operation: those that were there before, and
the one that it writes to. -/
def retains (log : Log) (op : Operation) : Bool :=
  (log.writtenBy op ++ log.ids).all (· ∈ (log.apply op).ids)

/-- The log with a new entry for a message, before it is cut at the bound. -/
def grown (log : Log) (m : Message) : Log :=
  { log.extended m with newestFirst := log.entryOf m :: log.newestFirst }

/-- Entries are numbered in the order in which they came, and counted from one. -/
structure Ordered (log : Log) : Prop where
  falling : log.newestFirst.Pairwise fun a b => b.id < a.id
  newest : ∀ e rest, log.newestFirst = e :: rest → e.id + 1 = log.nextId
  one_le_nextId : 1 ≤ log.nextId
  one_le_id : ∀ e ∈ log.newestFirst, 1 ≤ e.id
  one_le_count : ∀ e ∈ log.newestFirst, 1 ≤ e.count

namespace Ordered

variable {log : Log}

/-- A new log is ordered, whatever its policy and its clock. -/
theorem new (policy : Policy) (clock : Clock) : (Log.new policy clock).Ordered where
  falling := .nil
  newest := fun _ _ h => absurd h (List.cons_ne_nil _ _).symm
  one_le_nextId := Nat.le_refl 1
  one_le_id := fun _ h => absurd h List.not_mem_nil
  one_le_count := fun _ h => absurd h List.not_mem_nil

/-- No id is beyond the last one given. -/
theorem id_lt (h : log.Ordered) {e : Entry} (he : e ∈ log.newestFirst) : e.id < log.nextId := by
  obtain ⟨front, rest, hl⟩ : ∃ front rest, log.newestFirst = front :: rest :=
    List.exists_cons_of_ne_nil (List.ne_nil_of_mem he)
  have hfront := h.newest front rest hl
  have hfall := hl ▸ h.falling
  rcases List.mem_cons.1 (hl ▸ he) with rfl | he
  · omega
  · have := (List.pairwise_cons.1 hfall).1 e he
    omega

/-- No entry has a higher id than the newest one. -/
theorem id_le_newest (h : log.Ordered) {e newest : Entry} {rest : List Entry}
    (hl : log.newestFirst = newest :: rest) (he : e ∈ log.newestFirst) : e.id ≤ newest.id := by
  have hnext := h.newest newest rest hl
  have hlt := h.id_lt he
  omega

theorem nodup_ids (h : log.Ordered) : log.ids.Nodup :=
  List.pairwise_map.2 (h.falling.imp fun hlt => Nat.ne_of_gt hlt)

/-- An entry is known by its id. -/
theorem eq_of_id_eq (h : log.Ordered) {a b : Entry} (ha : a ∈ log.newestFirst)
    (hb : b ∈ log.newestFirst) (hid : a.id = b.id) : a = b :=
  List.inj_on_of_nodup_map h.nodup_ids ha hb hid

/-- The oldest entries may go. -/
theorem take (h : log.Ordered) (n : Nat) {other : Log}
    (hn : other.newestFirst = log.newestFirst.take n) (hid : other.nextId = log.nextId) :
    other.Ordered where
  falling := hn ▸ h.falling.sublist (List.take_sublist _ _)
  newest := by
    intro e rest he
    obtain ⟨more, hl⟩ : ∃ more, log.newestFirst = e :: more := by
      have hcut := List.take_append_drop n log.newestFirst
      rw [← hn, he] at hcut
      exact ⟨_, hcut.symm⟩
    exact (h.newest e more hl).trans hid.symm
  one_le_nextId := hid ▸ h.one_le_nextId
  one_le_id := fun e he => h.one_le_id e (List.mem_of_mem_take (hn ▸ he))
  one_le_count := fun e he => h.one_le_count e (List.mem_of_mem_take (hn ▸ he))

/-- Counting the newest entry once more keeps the order. -/
theorem raised (h : log.Ordered) {e : Entry} {rest : List Entry}
    (hl : log.newestFirst = e :: rest) : (log.raised e rest).Ordered where
  falling := List.pairwise_cons.2 (List.pairwise_cons.1 (hl ▸ h.falling))
  newest := by
    intro e' rest' he
    obtain ⟨rfl, rfl⟩ := List.cons.inj he
    exact h.newest e rest hl
  one_le_nextId := h.one_le_nextId
  one_le_id := by
    intro e' he
    rcases List.mem_cons.1 he with rfl | he
    · exact h.one_le_id e (hl ▸ List.mem_cons_self)
    · exact h.one_le_id e' (hl ▸ List.mem_cons_of_mem _ he)
  one_le_count := by
    intro e' he
    rcases List.mem_cons.1 he with rfl | he
    · exact Nat.le_add_left 1 _
    · exact h.one_le_count e' (hl ▸ List.mem_cons_of_mem _ he)

/-- A new entry gets an id beyond all others. -/
theorem grown (h : log.Ordered) (m : Message) : (log.grown m).Ordered where
  falling := List.pairwise_cons.2 ⟨fun _ he => h.id_lt he, h.falling⟩
  newest := by
    intro e rest he
    obtain ⟨rfl, -⟩ := List.cons.inj he
    rfl
  one_le_nextId := Nat.le_add_left 1 _
  one_le_id := by
    intro e he
    rcases List.mem_cons.1 he with rfl | he
    · exact h.one_le_nextId
    · exact h.one_le_id e he
  one_le_count := by
    intro e he
    rcases List.mem_cons.1 he with rfl | he
    · exact Nat.le_refl 1
    · exact h.one_le_count e he

/-- **Every operation keeps the order.** -/
theorem apply (h : log.Ordered) (op : Operation) : (log.apply op).Ordered := by
  cases op with
  | append m =>
    rcases log.append_cases m with ⟨e, rest, hl, -, happ⟩ | ⟨-, happ⟩
    · rw [Log.apply, write, happ]
      exact h.raised hl
    · rw [Log.apply, write, happ]
      exact (h.grown m).take _ rfl rfl
  | clear => exact h.take 0 rfl rfl
  | setPolicy policy => exact h.take _ rfl rfl
  | takeReveal => exact ⟨h.1, h.2, h.3, h.4, h.5⟩
  | takeScroll => exact ⟨h.1, h.2, h.3, h.4, h.5⟩

/-- So does any number of them. -/
theorem applyAll (h : log.Ordered) (ops : List Operation) : (log.applyAll ops).Ordered := by
  induction ops generalizing log with
  | nil => exact h
  | cons op ops ih => exact ih (h.apply op)

/-- A cut that leaves every id leaves every entry. -/
theorem eq_of_ids_subset (h : log.Ordered) {n : Nat} {other : Log}
    (hn : other.newestFirst = log.newestFirst.take n) (hsub : log.ids ⊆ other.ids) :
    other.newestFirst = log.newestFirst := by
  have hlen := (List.subperm_of_subset h.nodup_ids hsub).length_le
  simp only [ids, hn, List.length_map, List.length_take] at hlen
  rw [hn]
  exact List.take_of_length_le (by omega)

end Ordered

/-- What an operation writes to and what was there before is there afterwards. -/
theorem retains_iff {log : Log} {op : Operation} :
    log.retains op = true ↔ log.writtenBy op ++ log.ids ⊆ (log.apply op).ids := by
  simp only [retains, List.all_eq_true, decide_eq_true_eq]
  exact Iff.rfl

end Log
end SnippetConsole
