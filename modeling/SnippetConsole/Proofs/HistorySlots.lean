/-
# Slots that stay where they are

A history is kept around its cursor, so its cursor cannot leave the slots. A `Row` is the same
history told by numbers: the slots in a row and the number of the one under the cursor. There every
operation has to look a slot up by its number, and finds none if the number is wrong. Started from
one empty slot, no operation ever fails to find its slot, and all of them answer what the history
around its cursor answers (`performAll?_row`).

| step | slots | cursor |
| --- | --- | --- |
| `setCurrent` | the one under the cursor has the new text | stays |
| `submit` | stay; an empty one comes last, unless the last is empty | on the last one, which is empty |
| `previous` | stay | one back, unless it is on the first one |
| `next` | stay | one on, unless it is on the last one |

So only `setCurrent` changes the text of a slot that is there, and only that of the slot under the
cursor (`getElem?_slots_performAll`): what was submitted stays under its number.
-/

import SnippetConsole.Proofs.SessionHistory

namespace SnippetConsole
namespace History

/-! ### Steps -/

/-- Something done to a history. -/
inductive Step where
  | setCurrent (text : String)
  | submit
  | previous
  | next
  deriving DecidableEq, Repr

/-- What a step answers: nothing, the submitted text, or whether the cursor moved. -/
inductive Answer where
  | done
  | submitted (text : String)
  | moved (yes : Bool)
  deriving DecidableEq, Repr

/-- What a move of the cursor answers, and the history after it. -/
def moved (h : History) : Option History → Answer × History
  | none => (.moved false, h)
  | some g => (.moved true, g)

/-- What a step answers, and the history after it. -/
def perform (h : History) : Step → Answer × History
  | .setCurrent text => (.done, h.setCurrent text)
  | .submit => (.submitted h.current, h.submit)
  | .previous => h.moved h.previous?
  | .next => h.moved h.next?

/-- What steps answer in turn, and the history after them. -/
def performAll (h : History) : List Step → List Answer × History
  | [] => ([], h)
  | step :: steps =>
    let (answer, g) := h.perform step
    let (answers, last) := g.performAll steps
    (answer :: answers, last)

/-! ### Slots by number -/

/-- Slots in a row and the number of the one under the cursor, if there is one with this number. -/
structure Row where
  slots : List String
  cursor : Nat
  deriving DecidableEq, Repr

namespace Row

/-- One empty slot. -/
def new : Row := ⟨[""], 0⟩

/-- The text under the cursor; none if there is no slot with its number. -/
def current? (r : Row) : Option String := r.slots[r.cursor]?

/-- The text under the cursor replaced, if there is a slot. -/
def setCurrent? (r : Row) (text : String) : Option Row :=
  if r.cursor < r.slots.length then some { r with slots := r.slots.set r.cursor text } else none

/-- The number of the last of `slots`, if there is any. -/
def last? (slots : List String) : Option Nat :=
  match slots.length with
  | 0 => none
  | n + 1 => some n

/-- The slots with an empty one behind a last one that is not empty. -/
def opened (slots : List String) : List String :=
  match slots.getLast? with
  | none => slots
  | some text => if text = "" then slots else slots ++ [""]

/-- The text under the cursor and the row after it was taken, if there are slots for both. -/
def submit? (r : Row) : Option (String × Row) := do
  let text ← r.current?
  let last ← last? (opened r.slots)
  return (text, ⟨opened r.slots, last⟩)

/-- The cursor one slot earlier, unless its number is 0. -/
def previous (r : Row) : Bool × Row :=
  if r.cursor = 0 then (false, r) else (true, { r with cursor := r.cursor - 1 })

/-- The cursor one slot later, unless that is behind the last one. -/
def next (r : Row) : Bool × Row :=
  if r.slots.length ≤ r.cursor + 1 then (false, r) else (true, { r with cursor := r.cursor + 1 })

/-- The slots before the last one, if there is a last one. -/
def beforeLast? (r : Row) : Option (List String) := (last? r.slots).map r.slots.take

/-- What a step answers, and the row after it; none if a slot is missing. -/
def perform? (r : Row) : Step → Option (Answer × Row)
  | .setCurrent text => (r.setCurrent? text).map fun r => (.done, r)
  | .submit => r.submit?.map fun (text, r) => (.submitted text, r)
  | .previous => some (.moved r.previous.1, r.previous.2)
  | .next => some (.moved r.next.1, r.next.2)

/-- What steps answer in turn, and the row after them; none if a slot is missing on the way. -/
def performAll? (r : Row) : List Step → Option (List Answer × Row)
  | [] => some ([], r)
  | step :: steps =>
    (r.perform? step).bind fun (answer, r) =>
      (r.performAll? steps).map fun (answers, r) => (answer :: answers, r)

end Row

/-- The history told by numbers. -/
def row (h : History) : Row := ⟨h.slots, h.cursor⟩

/-! ### What one step does -/

/-- The cursor is on a slot. -/
theorem cursor_lt_length (h : History) : h.cursor < h.slots.length := by
  simp [slots, cursor]

theorem slots_ne_nil (h : History) : h.slots ≠ [] :=
  List.ne_nil_of_length_pos (Nat.zero_lt_of_lt h.cursor_lt_length)

/-- Only the slot under the cursor gets the new text. -/
theorem row_setCurrent (h : History) (text : String) :
    (h.setCurrent text).row = ⟨h.slots.set h.cursor text, h.cursor⟩ := by
  simp [row, setCurrent, slots, cursor]

/-- The slots that a submission opens: none or an empty one. -/
theorem opened_eq_append {slots : List String} (hne : slots ≠ []) :
    Row.opened slots = slots ++ (if slots.getLast? = some "" then [] else [""]) := by
  rw [Row.opened, List.getLast?_eq_some_getLast hne]
  simp only [Option.some.injEq]
  split
  · exact (List.append_nil slots).symm
  · rfl

/-- A submission keeps the slots and may open one behind them. -/
theorem slots_submit (h : History) : h.submit.slots = Row.opened h.slots := by
  have hopen : Row.opened h.slots
      = if h.slots.getLast? = some "" then h.slots else h.slots ++ [""] := by
    rw [opened_eq_append h.slots_ne_nil]
    split
    · exact List.append_nil _
    · rfl
  have hne : Row.opened h.slots ≠ [] := by
    rw [opened_eq_append h.slots_ne_nil]
    exact List.append_ne_nil_of_left_ne_nil h.slots_ne_nil _
  rw [submit, ← hopen, slots_atLast hne]

/-- After a submission the cursor is on the last slot. -/
theorem cursor_submit (h : History) : h.submit.cursor + 1 = h.submit.slots.length := by
  rw [submit_eq]
  simp [cursor, slots]

/-- That slot is empty. -/
theorem current_submit (h : History) : h.submit.current = "" := by rw [submit_eq]

/-- The cursor cannot go back from the first slot only. -/
theorem previous?_eq_none_iff (h : History) : h.previous? = none ↔ h.cursor = 0 := by
  obtain ⟨earlier, current, later⟩ := h
  cases earlier with
  | nil => simp [previous?, cursor]
  | cons text earlier => simp [previous?, cursor]

/-- It cannot go on from the last slot only. -/
theorem next?_eq_none_iff (h : History) : h.next? = none ↔ h.cursor + 1 = h.slots.length := by
  obtain ⟨earlier, current, later⟩ := h
  cases later with
  | nil => simp [next?, cursor, slots]
  | cons text later => simp [next?, cursor, slots]

/-- Back is one slot back. -/
theorem cursor_previous? {h g : History} (hg : h.previous? = some g) : g.cursor + 1 = h.cursor := by
  rw [cursor, cursor, (previous?_eq_some.1 hg).1, List.length_cons]

/-- On is one slot on. -/
theorem cursor_next? {h g : History} (hg : h.next? = some g) : g.cursor = h.cursor + 1 := by
  obtain ⟨earlier, current, later⟩ := h
  cases later with
  | nil => simp [next?] at hg
  | cons text later =>
    obtain rfl := Option.some.inj hg
    rfl

/-! ### No slot is missing -/

theorem last?_eq {slots : List String} (hne : slots ≠ []) :
    Row.last? slots = some (slots.length - 1) := by
  cases slots with
  | nil => exact absurd rfl hne
  | cons text slots => rfl

theorem setCurrent?_row (h : History) (text : String) :
    h.row.setCurrent? text = some (h.setCurrent text).row := by
  have hlt : h.row.cursor < h.row.slots.length := h.cursor_lt_length
  rw [Row.setCurrent?, if_pos hlt, row_setCurrent]
  rfl

theorem submit?_row (h : History) : h.row.submit? = some (h.current, h.submit.row) := by
  have hcurrent : h.row.current? = some h.current := h.getElem?_slots_cursor
  have hlast : Row.last? (Row.opened h.row.slots) = some h.submit.cursor := by
    show Row.last? (Row.opened h.slots) = _
    rw [← h.slots_submit, last?_eq h.submit.slots_ne_nil, ← h.cursor_submit, Nat.add_sub_cancel]
  have hrow : h.submit.row = ⟨Row.opened h.row.slots, h.submit.cursor⟩ := by
    rw [row, h.slots_submit]
    rfl
  rw [Row.submit?, hcurrent, hlast, hrow]
  rfl

theorem previous_row (h : History) :
    (Answer.moved h.row.previous.1, h.row.previous.2)
      = ((h.perform .previous).1, (h.perform .previous).2.row) := by
  rcases hprevious : h.previous? with _ | g
  · have hzero : h.row.cursor = 0 := h.previous?_eq_none_iff.1 hprevious
    rw [Row.previous, if_pos hzero, perform, hprevious]
    rfl
  · have hcursor : g.cursor + 1 = h.row.cursor := cursor_previous? hprevious
    rw [Row.previous, if_neg (by omega), perform, hprevious, ← hcursor, Nat.add_sub_cancel]
    show _ = (Answer.moved true, (⟨g.slots, g.cursor⟩ : Row))
    rw [slots_previous? hprevious]
    rfl

theorem next_row (h : History) :
    (Answer.moved h.row.next.1, h.row.next.2)
      = ((h.perform .next).1, (h.perform .next).2.row) := by
  have hlt : h.row.cursor < h.row.slots.length := h.cursor_lt_length
  rcases hnext : h.next? with _ | g
  · have hlast : h.row.cursor + 1 = h.row.slots.length := h.next?_eq_none_iff.1 hnext
    rw [Row.next, if_pos (Nat.le_of_eq hlast.symm), perform, hnext]
    rfl
  · have hmore : h.row.cursor + 1 ≠ h.row.slots.length := fun hlast => by
      have hnone := h.next?_eq_none_iff.2 hlast
      rw [hnext] at hnone
      cases hnone
    rw [Row.next, if_neg (by omega), perform, hnext]
    show _ = (Answer.moved true, (⟨g.slots, g.cursor⟩ : Row))
    rw [slots_next? hnext, cursor_next? hnext]
    rfl

/-- **One step by number** finds its slots and does what the step does around the cursor. -/
theorem perform?_row (h : History) (step : Step) :
    h.row.perform? step = some ((h.perform step).1, (h.perform step).2.row) := by
  cases step with
  | setCurrent text =>
    rw [Row.perform?, setCurrent?_row]
    rfl
  | submit =>
    rw [Row.perform?, submit?_row]
    rfl
  | previous => exact congrArg some h.previous_row
  | next => exact congrArg some h.next_row

/-- **So do any steps in turn.** -/
theorem performAll?_row (h : History) (steps : List Step) :
    h.row.performAll? steps = some ((h.performAll steps).1, (h.performAll steps).2.row) := by
  induction steps generalizing h with
  | nil => rfl
  | cons step steps ih =>
    rw [Row.performAll?, perform?_row, Option.bind_some]
    exact congrArg (Option.map _) (ih (h.perform step).2)

/-- The slots before the last one are there too; they are those listed. -/
theorem beforeLast?_row (h : History) : h.row.beforeLast? = some h.slots.dropLast := by
  show (Row.last? h.slots).map h.slots.take = _
  rw [last?_eq h.slots_ne_nil, List.dropLast_eq_take]
  rfl

/-! ### Texts that stay -/

/-- **A step changes no slot but by `setCurrent` under the cursor.** -/
theorem getElem?_slots_perform {h : History} {i : Nat} (hi : i < h.slots.length) {step : Step}
    (hstep : ∀ text, step = .setCurrent text → h.cursor ≠ i) :
    (h.perform step).2.slots[i]? = h.slots[i]? := by
  cases step with
  | setCurrent text =>
    have hslots := congrArg Row.slots (h.row_setCurrent text)
    show (h.setCurrent text).row.slots[i]? = _
    rw [hslots, List.getElem?_set_ne (hstep text rfl)]
  | submit =>
    show h.submit.slots[i]? = _
    rw [slots_submit, opened_eq_append h.slots_ne_nil, List.getElem?_append_left hi]
  | previous =>
    rw [perform]
    rcases hprevious : h.previous? with _ | g
    · rfl
    · exact congrArg (·[i]?) (slots_previous? hprevious)
  | next =>
    rw [perform]
    rcases hnext : h.next? with _ | g
    · rfl
    · exact congrArg (·[i]?) (slots_next? hnext)

/-- **Nor do any steps,** as long as none of them is a `setCurrent` with the cursor on the slot. -/
theorem getElem?_slots_performAll {h : History} {i : Nat} {text : String}
    (hi : h.slots[i]? = some text) {steps : List Step}
    (hsteps : ∀ before new after, steps = before ++ .setCurrent new :: after →
      (h.performAll before).2.cursor ≠ i) :
    (h.performAll steps).2.slots[i]? = some text := by
  induction steps generalizing h with
  | nil => exact hi
  | cons step steps ih =>
    obtain ⟨hlt, -⟩ := List.getElem?_eq_some_iff.1 hi
    have hkept : (h.perform step).2.slots[i]? = h.slots[i]? :=
      getElem?_slots_perform hlt fun new hnew => hsteps [] new steps (by rw [hnew]; rfl)
    refine ih (hkept.trans hi) fun before new after heq => ?_
    exact hsteps (step :: before) new after (by rw [heq]; rfl)

/-- **No step loses a slot or leaves the slots.** From a new history, by any steps: told by number,
no slot is ever missing, not for the listing either, and all answers are the same. `setCurrent`
changes the slot under the cursor alone. A move changes the cursor alone, by one; it answers that it
did not move, and changes nothing, on the first and on the last slot only. A submission answers the
text under the cursor, keeps all slots in their places, opens an empty one behind them if the last
is not empty, and ends on an empty last slot. The text submitted stays under its number through all
steps up to a `setCurrent` with the cursor there. -/
theorem slots_of_performAll (steps : List Step) :
    let h := (new.performAll steps).2
    (Row.new.performAll? steps = some ((new.performAll steps).1, h.row) ∧
      h.slots ≠ [] ∧ h.cursor < h.slots.length ∧ h.row.beforeLast? = some h.slots.dropLast) ∧
    (∀ text, (h.perform (.setCurrent text)).2.row = ⟨h.slots.set h.cursor text, h.cursor⟩) ∧
    ((h.cursor = 0 → h.perform .previous = (.moved false, h)) ∧
      (h.cursor ≠ 0 → ∃ g, h.perform .previous = (.moved true, g) ∧
        g.slots = h.slots ∧ g.cursor + 1 = h.cursor)) ∧
    ((h.cursor + 1 = h.slots.length → h.perform .next = (.moved false, h)) ∧
      (h.cursor + 1 ≠ h.slots.length → ∃ g, h.perform .next = (.moved true, g) ∧
        g.slots = h.slots ∧ g.cursor = h.cursor + 1)) ∧
    (∃ text g, h.perform .submit = (.submitted text, g) ∧ h.slots[h.cursor]? = some text ∧
      g.slots = h.slots ++ (if h.slots.getLast? = some "" then [] else [""]) ∧
      g.cursor + 1 = g.slots.length ∧ g.slots[g.cursor]? = some "" ∧
      ∀ later,
        (∀ before new after, later = before ++ .setCurrent new :: after →
          (g.performAll before).2.cursor ≠ h.cursor) →
        (g.performAll later).2.slots[h.cursor]? = some text) := by
  intro h
  refine ⟨⟨performAll?_row new steps, h.slots_ne_nil, h.cursor_lt_length, h.beforeLast?_row⟩,
    h.row_setCurrent, ⟨fun hfirst => ?_, fun hlater => ?_⟩, ⟨fun hlast => ?_, fun hearlier => ?_⟩,
    h.current, h.submit, rfl, h.getElem?_slots_cursor, ?_, h.cursor_submit, ?_,
    fun later huntouched => ?_⟩
  · rw [perform, h.previous?_eq_none_iff.2 hfirst]
    rfl
  · obtain ⟨g, hg⟩ := Option.ne_none_iff_exists'.1 (mt h.previous?_eq_none_iff.1 hlater)
    exact ⟨g, by rw [perform, hg]; rfl, slots_previous? hg, cursor_previous? hg⟩
  · rw [perform, h.next?_eq_none_iff.2 hlast]
    rfl
  · obtain ⟨g, hg⟩ := Option.ne_none_iff_exists'.1 (mt h.next?_eq_none_iff.1 hearlier)
    exact ⟨g, by rw [perform, hg]; rfl, slots_next? hg, cursor_next? hg⟩
  · rw [slots_submit, opened_eq_append h.slots_ne_nil]
  · rw [h.submit.getElem?_slots_cursor, current_submit]
  · have hkept : h.submit.slots[h.cursor]? = some h.current := by
      rw [slots_submit, opened_eq_append h.slots_ne_nil,
        List.getElem?_append_left h.cursor_lt_length, h.getElem?_slots_cursor]
    exact getElem?_slots_performAll hkept huntouched

end History
end SnippetConsole
