/-
# The log as the newest part of a run-length encoding

A log without a bound would be the run-length encoding of what was appended since it was last
cleared: messages that say the same as the one before them fall into one run (`runs`), and
the runs are numbered from the first one ever, those that were cleared included
(`Unbounded.entries`). Nothing in this encoding depends on the bound.

The bounded log shows the last entries of it. How many is told by the operations alone: one
more for a new run, as far as there is room, as many as the bound allows after a change of
policy, and none after clearing (`Window.apply`). What makes this inductive is that the newest
entry of both logs is the same one (`Shows`): it is there as soon as the encoding has any run,
so both logs take the same message for a repetition.
-/

import SnippetConsole.Proofs.LogStep
import Mathlib.Algebra.Order.Ring.Nat
import Mathlib.Data.List.Chain
import Mathlib.Data.List.DropRight

namespace SnippetConsole
namespace Log

/-! ### Runs -/

/-- What a message says: its text and its severity. -/
def Message.content (m : Message) : String × Severity := (m.text, m.severity)

/-- Runs with one more message before them. -/
def addFirst (m : Message) : List (Message × Nat) → List (Message × Nat)
  | [] => [(m, 1)]
  | (first, n) :: rest =>
    if m.content = first.content then (m, n + 1) :: rest else (m, 1) :: (first, n) :: rest

/-- The run-length encoding of messages: the first message of each run and its length. -/
def runs (messages : List Message) : List (Message × Nat) := messages.foldr addFirst []

/-- Runs with one more message behind them. -/
def addLast (m : Message) (rs : List (Message × Nat)) : List (Message × Nat) :=
  match rs.getLast? with
  | none => [(m, 1)]
  | some (first, n) =>
    if first.content = m.content then rs.dropLast ++ [(first, n + 1)] else rs ++ [(m, 1)]

theorem addLast_concat_of_eq {first m : Message} (h : first.content = m.content)
    (init : List (Message × Nat)) (n : Nat) :
    addLast m (init ++ [(first, n)]) = init ++ [(first, n + 1)] := by
  simp [addLast, h]

theorem addLast_concat_of_ne {first m : Message} (h : first.content ≠ m.content)
    (init : List (Message × Nat)) (n : Nat) :
    addLast m (init ++ [(first, n)]) = init ++ [(first, n), (m, 1)] := by
  simp [addLast, h]

/-- Adding in front changes the first run only. -/
theorem addFirst_cons_append (x : Message) (r : Message × Nat) (rs more : List (Message × Nat)) :
    addFirst x (r :: rs ++ more) = addFirst x (r :: rs) ++ more := by
  by_cases h : x.content = r.1.content <;> simp [addFirst, h]

/-- Adding in front and adding behind do not interfere. -/
theorem addFirst_addLast (x m : Message) (rs : List (Message × Nat)) :
    addFirst x (addLast m rs) = addLast m (addFirst x rs) := by
  rcases List.eq_nil_or_concat rs with rfl | ⟨init, ⟨first, n⟩, rfl⟩
  · by_cases h : x.content = m.content <;> simp [addFirst, addLast, h]
  rw [List.concat_eq_append]
  by_cases hm : first.content = m.content
  · rw [addLast_concat_of_eq hm]
    rcases init with _ | ⟨r, init⟩
    · by_cases hx : x.content = m.content
      · simp [addFirst, addLast, hx, hm]
      · simp [addFirst, addLast, hx, hm]
    · rw [addFirst_cons_append, addFirst_cons_append, addLast_concat_of_eq hm]
  · rw [addLast_concat_of_ne hm]
    rcases init with _ | ⟨r, init⟩
    · by_cases hx : x.content = first.content
      · simp [addFirst, addLast, hx, hm]
      · simp [addFirst, addLast, hx, hm]
    · rw [addFirst_cons_append, addFirst_cons_append, addLast_concat_of_ne hm]

/-- **The encoding grows at its end only.** -/
theorem runs_concat (messages : List Message) (m : Message) :
    runs (messages ++ [m]) = addLast m (runs messages) := by
  induction messages with
  | nil => rfl
  | cons x messages ih =>
    calc runs (x :: messages ++ [m]) = addFirst x (runs (messages ++ [m])) := rfl
      _ = addFirst x (addLast m (runs messages)) := by rw [ih]
      _ = addLast m (addFirst x (runs messages)) := addFirst_addLast x m _
      _ = addLast m (runs (x :: messages)) := rfl

/-- The messages of all runs together are the messages. -/
theorem sum_runs (messages : List Message) :
    ((runs messages).map (·.2)).sum = messages.length := by
  induction messages with
  | nil => rfl
  | cons x messages ih =>
    show ((addFirst x (runs messages)).map (·.2)).sum = messages.length + 1
    rcases h : runs messages with _ | ⟨⟨first, n⟩, rest⟩
    · rw [h] at ih
      simp only [addFirst, List.map_cons, List.map_nil, List.sum_cons, List.sum_nil] at ih ⊢
      omega
    · rw [h] at ih
      by_cases hx : x.content = first.content
      · simp only [addFirst, hx, if_true, List.map_cons, List.sum_cons] at ih ⊢
        omega
      · simp only [addFirst, hx, if_false, List.map_cons, List.sum_cons] at ih ⊢
        omega

/-- Runs next to each other say different things, and none is empty. -/
theorem runs_canonical (messages : List Message) :
    (runs messages).IsChain (fun r s => r.1.content ≠ s.1.content) ∧
      ∀ r ∈ runs messages, 1 ≤ r.2 := by
  induction messages with
  | nil => simp [runs]
  | cons x messages ih =>
    show (addFirst x (runs messages)).IsChain _ ∧ ∀ r ∈ addFirst x (runs messages), 1 ≤ r.2
    rcases h : runs messages with _ | ⟨⟨first, n⟩, rest⟩
    · simp [addFirst]
    · rw [h] at ih
      obtain ⟨hchain, hpos⟩ := ih
      by_cases hx : x.content = first.content
      · simp only [addFirst, hx, if_true]
        refine ⟨?_, fun r hr => ?_⟩
        · cases rest with
          | nil => exact .singleton _
          | cons s rest =>
            rw [List.isChain_cons_cons] at hchain ⊢
            exact ⟨hx ▸ hchain.1, hchain.2⟩
        · rcases List.mem_cons.1 hr with rfl | hr
          · exact Nat.le_add_left 1 n
          · exact hpos r (List.mem_cons_of_mem _ hr)
      · simp only [addFirst, hx, if_false]
        refine ⟨List.isChain_cons_cons.2 ⟨hx, hchain⟩, fun r hr => ?_⟩
        rcases List.mem_cons.1 hr with rfl | hr
        · exact le_rfl
        · exact hpos r hr

/-! ### The log without a bound -/

/-- A run as an entry: it has the caller of its first message, its length as count, and the time at
which the entry with its id is made. -/
def entryOfRun (clock : Clock) (id : Nat) (r : Message × Nat) : Entry :=
  ⟨id, r.1.caller.label, r.1.text, r.1.severity, r.2, clock.timeOf id⟩

/-- Runs as entries with ids in a row, the first behind `before`. -/
def numbered (before : Nat) (clock : Clock) (rs : List (Message × Nat)) : List Entry :=
  rs.mapIdx fun i r => entryOfRun clock (before + i + 1) r

@[simp] theorem length_numbered (before : Nat) (clock : Clock) (rs : List (Message × Nat)) :
    (numbered before clock rs).length = rs.length := by
  simp [numbered]

theorem numbered_concat (before : Nat) (clock : Clock) (init : List (Message × Nat))
    (r : Message × Nat) :
    numbered before clock (init ++ [r])
      = numbered before clock init ++ [entryOfRun clock (before + init.length + 1) r] := by
  simp [numbered, List.mapIdx_concat]

/-- The entry of a run carries what the messages of the run say. -/
theorem carries_entryOfRun (clock : Clock) (id : Nat) (r : Message × Nat) (m : Message) :
    (entryOfRun clock id r).carries m = true ↔ r.1.content = m.content := by
  simp [Entry.carries_iff, entryOfRun, Message.content, and_comm]

/-- A log that loses nothing but by clearing: how many runs were cleared, and the messages since
then, oldest first. -/
structure Unbounded where
  cleared : Nat
  messages : List Message
  deriving DecidableEq, Repr

namespace Unbounded

/-- Nothing appended yet. -/
def empty : Unbounded := ⟨0, []⟩

/-- The runs since the last clearing as entries, each numbered among all runs there ever were. -/
def entries (u : Unbounded) (clock : Clock) : List Entry :=
  numbered u.cleared clock (runs u.messages)

/-- The log after an operation. -/
def apply (u : Unbounded) : Operation → Unbounded
  | .append m => { u with messages := u.messages ++ [m] }
  | .clear => ⟨u.cleared + (runs u.messages).length, []⟩
  | _ => u

/-- Whether a message starts a run of its own. -/
def startsRun (u : Unbounded) (m : Message) : Bool :=
  (runs u.messages).length < (runs (u.messages ++ [m])).length

/-- A message repeats the last run, or starts one behind it. -/
theorem runs_append_cases (u : Unbounded) (m : Message) :
    (∃ init first n, runs u.messages = init ++ [(first, n)] ∧ first.content = m.content ∧
        u.startsRun m = false ∧ runs (u.messages ++ [m]) = init ++ [(first, n + 1)]) ∨
      ((∀ init first n, runs u.messages = init ++ [(first, n)] → first.content ≠ m.content) ∧
        u.startsRun m = true ∧ runs (u.messages ++ [m]) = runs u.messages ++ [(m, 1)]) := by
  rcases List.eq_nil_or_concat (runs u.messages) with h | ⟨init, ⟨first, n⟩, h⟩
  · have hnew : runs (u.messages ++ [m]) = runs u.messages ++ [(m, 1)] := by
      rw [runs_concat, h]
      rfl
    refine Or.inr ⟨fun init first n he => ?_, by simp [startsRun, hnew], hnew⟩
    simp [h] at he
  · rw [List.concat_eq_append] at h
    by_cases hm : first.content = m.content
    · have hnew : runs (u.messages ++ [m]) = init ++ [(first, n + 1)] := by
        rw [runs_concat, h, addLast_concat_of_eq hm]
      exact Or.inl ⟨init, first, n, h, hm, by simp [startsRun, h, hnew], hnew⟩
    · have hnew : runs (u.messages ++ [m]) = runs u.messages ++ [(m, 1)] := by
        rw [runs_concat, h, addLast_concat_of_ne hm, List.append_assoc]
        rfl
      refine Or.inr ⟨fun init' first' n' he => ?_, by simp [startsRun, hnew], hnew⟩
      obtain ⟨-, he⟩ := List.append_inj' (h.symm.trans he) rfl
      obtain ⟨rfl, rfl⟩ := Prod.mk.inj (List.singleton_inj.1 he)
      exact hm

end Unbounded

/-! ### What the bounded log shows of it -/

/-- What a bounded log shows of an unbounded one: its newest `kept` entries. The bound in force
is `capacity`. -/
structure Window where
  whole : Unbounded
  capacity : Nat
  kept : Nat
  deriving DecidableEq, Repr

namespace Window

/-- Nothing to show yet. -/
def start (capacity : Nat) : Window := ⟨.empty, capacity, 0⟩

/-- The bound in force after an operation: a policy has room for at least one entry. -/
def capacityAfter (w : Window) : Operation → Nat
  | .setPolicy policy => max policy.maxEntries 1
  | _ => w.capacity

/-- How many entries are shown after an operation. -/
def keptAfter (w : Window) : Operation → Nat
  | .append m => if w.whole.startsRun m then min (w.kept + 1) w.capacity else w.kept
  | .clear => 0
  | .setPolicy policy => min w.kept (max policy.maxEntries 1)
  | _ => w.kept

/-- The window after an operation. -/
def apply (w : Window) (op : Operation) : Window :=
  ⟨w.whole.apply op, w.capacityAfter op, w.keptAfter op⟩

/-- The window after operations in order. -/
def applyAll (w : Window) (ops : List Operation) : Window := ops.foldl apply w

/-- The entries that are shown: the last `kept` ones. -/
def shown (w : Window) (clock : Clock) : List Entry := (w.whole.entries clock).rtake w.kept

end Window

/-- A log shows what a window tells of the unbounded log. If that one has any run, its newest
entry is among what is shown. -/
structure Shows (log : Log) (w : Window) : Prop where
  newestFirst : log.newestFirst = (w.whole.entries log.clock).reverse.take w.kept
  nextId : log.nextId = w.whole.cleared + (runs w.whole.messages).length + 1
  capacity : log.policy.maxEntries = w.capacity
  one_le_capacity : 1 ≤ w.capacity
  kept_le_capacity : w.kept ≤ w.capacity
  kept_le_runs : w.kept ≤ (runs w.whole.messages).length
  one_le_kept : runs w.whole.messages ≠ [] → 1 ≤ w.kept

namespace Shows

variable {log : Log} {w : Window}

/-- A new log shows nothing of nothing. -/
theorem start {policy : Policy} (h : 1 ≤ policy.maxEntries) (clock : Clock) :
    Shows (.new policy clock) (.start policy.maxEntries) where
  newestFirst := rfl
  nextId := rfl
  capacity := rfl
  one_le_capacity := h
  kept_le_capacity := Nat.zero_le _
  kept_le_runs := Nat.zero_le _
  one_le_kept := fun hne => absurd rfl hne

/-- The snapshot is what the window shows. -/
theorem snapshot_eq (h : Shows log w) : log.snapshot = w.shown log.clock := by
  rw [snapshot, h.newestFirst, Window.shown, List.rtake_eq_reverse_take_reverse]

theorem length_eq (h : Shows log w) : log.length = w.kept := by
  have := h.kept_le_runs
  simp [length, h.newestFirst, Unbounded.entries, this]

/-- The newest entry is that of the last run. -/
theorem newestFirst_of_runs (h : Shows log w) {init : List (Message × Nat)} {r : Message × Nat}
    (hr : runs w.whole.messages = init ++ [r]) :
    log.newestFirst = entryOfRun log.clock (w.whole.cleared + init.length + 1) r
      :: (numbered w.whole.cleared log.clock init).reverse.take (w.kept - 1) := by
  have hk : w.kept = w.kept - 1 + 1 := by
    have := h.one_le_kept (by simp [hr])
    omega
  rw [h.newestFirst, Unbounded.entries, hr, numbered_concat, List.reverse_append, hk]
  rfl

/-- A message that joins the last run is counted with the newest entry. -/
theorem append_of_joins (h : Shows log w) {init : List (Message × Nat)} {first m : Message}
    {n : Nat} (hr : runs w.whole.messages = init ++ [(first, n)]) (hm : first.content = m.content)
    (hold : w.whole.startsRun m = false)
    (hr' : runs (w.whole.messages ++ [m]) = init ++ [(first, n + 1)]) :
    Shows (log.append m).2 (w.apply (.append m)) ∧
      (log.append m).1 = .repeated (w.whole.cleared + init.length + 1) (n + 1) := by
  have hfront := h.newestFirst_of_runs hr
  have hk : 1 ≤ w.kept := h.one_le_kept (by simp [hr])
  rcases log.append_cases m with ⟨e, rest, hl, -, happ⟩ | ⟨hno, -⟩
  · obtain ⟨rfl, rfl⟩ := List.cons.inj (hl.symm.trans hfront)
    rw [happ]
    refine ⟨⟨?_, ?_, h.capacity, h.one_le_capacity, ?_, ?_, ?_⟩, rfl⟩
    · have hsucc : w.kept = w.kept - 1 + 1 := by omega
      simp only [Window.apply, Window.keptAfter, Unbounded.apply, Unbounded.entries, hold, hr',
        numbered_concat, List.reverse_append]
      rw [hsucc]
      rfl
    · simp [raised, h.nextId, Window.apply, Unbounded.apply, hr, hr']
    · simpa [Window.apply, Window.keptAfter, hold, Window.capacityAfter] using h.kept_le_capacity
    · simpa [Window.apply, Window.keptAfter, Unbounded.apply, hold, hr, hr'] using h.kept_le_runs
    · simpa [Window.apply, Window.keptAfter, hold] using fun _ => hk
  · have hc := (carries_entryOfRun log.clock (w.whole.cleared + init.length + 1) (first, n) m).2 hm
    rw [hno _ _ hfront] at hc
    exact absurd hc (by simp)

/-- A message that starts a run becomes the newest entry. -/
theorem append_of_starts (h : Shows log w) {m : Message}
    (hm : ∀ init first n, runs w.whole.messages = init ++ [(first, n)] → first.content ≠ m.content)
    (hnew : w.whole.startsRun m = true)
    (hr' : runs (w.whole.messages ++ [m]) = runs w.whole.messages ++ [(m, 1)]) :
    Shows (log.append m).2 (w.apply (.append m)) ∧
      (log.append m).1 = .added (w.whole.cleared + (runs w.whole.messages).length + 1) := by
  have hone := h.one_le_capacity
  have hle := h.kept_le_runs
  rcases log.append_cases m with ⟨e, rest, hl, hc, -⟩ | ⟨-, happ⟩
  · rcases List.eq_nil_or_concat (runs w.whole.messages) with hr | ⟨init, ⟨first, n⟩, hr⟩
    · rw [h.newestFirst, Unbounded.entries, hr] at hl
      exact absurd hl (by simp [numbered])
    · rw [List.concat_eq_append] at hr
      obtain ⟨rfl, -⟩ := List.cons.inj (hl.symm.trans (h.newestFirst_of_runs hr))
      exact absurd ((carries_entryOfRun _ _ _ _).1 hc) (hm _ _ _ hr)
  · have hentry : entryOfRun log.clock (w.whole.cleared + (runs w.whole.messages).length + 1) (m, 1)
        = log.entryOf m := by
      rw [← h.nextId]
      rfl
    rw [happ]
    refine ⟨⟨?_, ?_, h.capacity, hone, ?_, ?_, ?_⟩, by rw [h.nextId]⟩
    · simp only [extended, Window.apply, Window.keptAfter, Unbounded.apply, Unbounded.entries, hnew,
        hr', numbered_concat, hentry, List.reverse_append, h.capacity, h.newestFirst, if_true]
      rw [Nat.min_comm, ← List.take_take]
      rfl
    · simp only [extended, h.nextId, Window.apply, Unbounded.apply, hr', List.length_append,
        List.length_singleton]
      omega
    · simp only [Window.apply, Window.keptAfter, Window.capacityAfter, hnew, if_true]
      exact Nat.min_le_right _ _
    · simp only [Window.apply, Window.keptAfter, Unbounded.apply, hnew, hr', if_true,
        List.length_append, List.length_singleton]
      omega
    · simp only [Window.apply, Window.keptAfter, hnew, if_true]
      omega

/-- **An append is the same append on both sides,** and answers as the last run tells. -/
theorem append (h : Shows log w) (m : Message) :
    Shows (log.append m).2 (w.apply (.append m)) ∧
      ∃ e, ((w.whole.apply (.append m)).entries log.clock).getLast? = some e ∧
        (log.append m).1 = if w.whole.startsRun m then .added e.id else .repeated e.id e.count := by
  rcases w.whole.runs_append_cases m with ⟨init, first, n, hr, hm, hold, hr'⟩ | ⟨hm, hnew, hr'⟩
  · obtain ⟨hs, hans⟩ := h.append_of_joins hr hm hold hr'
    refine ⟨hs, entryOfRun log.clock (w.whole.cleared + init.length + 1) (first, n + 1), ?_, ?_⟩
    · simp [Unbounded.apply, Unbounded.entries, hr', numbered_concat]
    · simp [hold, hans, entryOfRun]
  · obtain ⟨hs, hans⟩ := h.append_of_starts hm hnew hr'
    refine ⟨hs, entryOfRun log.clock (w.whole.cleared + (runs w.whole.messages).length + 1) (m, 1),
      ?_, ?_⟩
    · simp [Unbounded.apply, Unbounded.entries, hr', numbered_concat]
    · simp [hnew, hans, entryOfRun]

/-- Clearing shows nothing and keeps the numbers going. -/
theorem clear (h : Shows log w) : Shows log.clear (w.apply .clear) where
  newestFirst := rfl
  nextId := by simpa [Window.apply, Unbounded.apply, runs, Log.clear] using h.nextId
  capacity := h.capacity
  one_le_capacity := h.one_le_capacity
  kept_le_capacity := Nat.zero_le _
  kept_le_runs := Nat.zero_le _
  one_le_kept := fun hne => absurd rfl hne

/-- Another policy shows as much as it has room for. -/
theorem setPolicy (h : Shows log w) (policy : Policy) :
    Shows (log.setPolicy policy) (w.apply (.setPolicy policy)) where
  newestFirst := by
    rw [Log.setPolicy, h.newestFirst, List.take_take, Nat.min_comm]
    rfl
  nextId := h.nextId
  capacity := rfl
  one_le_capacity := Nat.le_max_right _ _
  kept_le_capacity := Nat.min_le_right _ _
  kept_le_runs := (Nat.min_le_left _ _).trans h.kept_le_runs
  one_le_kept := fun hne => le_min (h.one_le_kept hne) (Nat.le_max_right _ _)

/-- **One step:** whatever is done to the log, the window tells what it shows then. -/
theorem apply (h : Shows log w) (op : Operation) : Shows (log.apply op) (w.apply op) := by
  cases op with
  | append m => exact (h.append m).1
  | clear => exact h.clear
  | setPolicy policy => exact h.setPolicy policy
  | takeReveal => exact ⟨h.1, h.2, h.3, h.4, h.5, h.6, h.7⟩
  | takeScroll => exact ⟨h.1, h.2, h.3, h.4, h.5, h.6, h.7⟩

/-- **A run:** the same holds after any operations. -/
theorem applyAll (h : Shows log w) (ops : List Operation) :
    Shows (log.applyAll ops) (w.applyAll ops) := by
  induction ops generalizing log w with
  | nil => exact h
  | cons op ops ih => exact ih (h.apply op)

end Shows

/-! ### What follows for the entries -/

/-- Entries of runs have ids in a row, and neighbours differ in text or severity. -/
theorem isChain_numbered {rs : List (Message × Nat)}
    (h : rs.IsChain fun r s => r.1.content ≠ s.1.content) (before : Nat) (clock : Clock) :
    (numbered before clock rs).IsChain fun a b =>
      b.id = a.id + 1 ∧ (a.text, a.severity) ≠ (b.text, b.severity) := by
  rw [List.isChain_iff_getElem] at h ⊢
  intro i hi
  rw [length_numbered] at hi
  simp only [numbered, List.getElem_mapIdx]
  exact ⟨by simp only [entryOfRun]; omega, h i hi⟩

theorem one_le_count_numbered {rs : List (Message × Nat)} (h : ∀ r ∈ rs, 1 ≤ r.2) (before : Nat)
    (clock : Clock) : ∀ e ∈ numbered before clock rs, 1 ≤ e.count := by
  intro e he
  obtain ⟨i, hi, rfl⟩ := List.mem_mapIdx.1 he
  exact h _ (List.getElem_mem hi)

theorem map_count_numbered (before : Nat) (clock : Clock) (rs : List (Message × Nat)) :
    (numbered before clock rs).map (·.count) = rs.map (·.2) := by
  refine List.ext_getElem (by simp) fun i _ _ => ?_
  simp [numbered, entryOfRun]

/-- **The bounded log is the newest part of the unbounded one.** After any operations on a new log
with room for at least one entry, the snapshot is the last `kept` entries of the run-length
encoding, and the next append answers with the id and count of its last run. So ids are in a
row, neighbours differ, counts are positive, the bound is kept, and as long as nothing was
evicted the counts add up to the messages. -/
theorem snapshot_applyAll_eq_newest_runs (policy : Policy) (h : 1 ≤ policy.maxEntries)
    (clock : Clock) (ops : List Operation) :
    let log := (Log.new policy clock).applyAll ops
    let w := (Window.start policy.maxEntries).applyAll ops
    let whole := w.whole.entries clock
    log.snapshot = whole.rtake w.kept ∧ log.length = w.kept ∧
      (∀ m, ∃ e, ((w.whole.apply (.append m)).entries clock).getLast? = some e ∧
        (log.append m).1
          = if w.whole.startsRun m then .added e.id else .repeated e.id e.count) ∧
      log.policy.maxEntries = w.capacity ∧ log.length ≤ log.policy.maxEntries ∧
      (log.snapshot.IsChain fun a b =>
        b.id = a.id + 1 ∧ (a.text, a.severity) ≠ (b.text, b.severity)) ∧
      (∀ e ∈ log.snapshot, 1 ≤ e.count) ∧
      (log.length = whole.length →
        (log.snapshot.map (·.count)).sum = w.whole.messages.length) := by
  intro log w whole
  have hs : Shows log w := (Shows.start h clock).applyAll ops
  have hclock : log.clock = clock := clock_applyAll _ ops
  obtain ⟨hchain, hpos⟩ := runs_canonical w.whole.messages
  have hsnap : log.snapshot = whole.rtake w.kept := by rw [hs.snapshot_eq, hclock]; rfl
  have hsuffix : log.snapshot <:+ whole := hsnap ▸ List.drop_suffix _ _
  refine ⟨hsnap, hs.length_eq, fun m => hclock ▸ (hs.append m).2, hs.capacity, ?_, ?_, ?_, ?_⟩
  · rw [hs.length_eq, hs.capacity]
    exact hs.kept_le_capacity
  · exact (isChain_numbered hchain _ _).suffix hsuffix
  · exact fun e he => one_le_count_numbered hpos _ _ e (hsuffix.subset he)
  · intro hlen
    have hall : log.snapshot = whole := hsuffix.eq_of_length (List.length_reverse.trans hlen)
    rw [hall, ← sum_runs]
    exact congrArg List.sum (map_count_numbered ..)

/-- A policy with room for two entries. -/
def roomForTwo : Policy := { Policy.standard with maxEntries := 2 }

/-- A clock that shows another second for each entry. -/
def tickingClock : Clock := ⟨fun id => ⟨id, 0⟩⟩

/-- Operations that clear, repeat, evict and ask for no room at all. -/
def busyOperations : List Operation :=
  [.append ⟨.internal, "a", .info⟩, .append ⟨.named "n", "b", .error⟩, .clear,
    .append ⟨.internal, "c", .info⟩, .append ⟨.named "n", "c", .info⟩,
    .append ⟨.internal, "c", .warning⟩, .append ⟨.internal, "d", .info⟩,
    .append ⟨.named "n", "d", .info⟩, .setPolicy { roomForTwo with maxEntries := 0 }]

/-- The last of three runs is left, with its number among all five, its count and the time of its
first message. -/
theorem snapshot_busyOperations :
    1 ≤ roomForTwo.maxEntries ∧
      ((Log.new roomForTwo tickingClock).applyAll busyOperations).snapshot
        = (((Window.start roomForTwo.maxEntries).applyAll busyOperations).whole.entries
            tickingClock).rtake
              ((Window.start roomForTwo.maxEntries).applyAll busyOperations).kept ∧
      ((Log.new roomForTwo tickingClock).applyAll busyOperations).snapshot
        = [⟨5, "livecode", "d", .info, 2, ⟨5, 0⟩⟩] :=
  ⟨by decide,
    (snapshot_applyAll_eq_newest_runs roomForTwo (by decide) tickingClock busyOperations).1,
    by decide⟩

end Log
end SnippetConsole
