/-
# The command history

A history is a list of slots with a cursor on one of them. There is always a slot, and the
last one is the one being typed into. Recalling moves the cursor; what is typed then changes
the slot under it. Submitting leaves all slots as they are and puts the cursor on the last
one, after a new empty one is added unless the last is empty already.

The slots are kept as those before the cursor, nearest first, the one under it, and those after
it; so the cursor cannot leave the slots.
-/

namespace SnippetConsole

/-- Slots around a cursor. -/
structure History where
  earlier : List String
  current : String
  later : List String
  deriving DecidableEq, Repr

namespace History

/-- One empty slot. -/
def new : History := ⟨[], "", []⟩

/-- All slots, oldest first. -/
def slots (h : History) : List String := h.earlier.reverse ++ h.current :: h.later

/-- The number of the slot under the cursor. -/
def cursor (h : History) : Nat := h.earlier.length

/-- The text under the cursor replaced. -/
def setCurrent (h : History) (text : String) : History := { h with current := text }

/-- The history of these slots with the cursor on the last one. -/
def atLast (slots : List String) : History := ⟨slots.dropLast.reverse, slots.getLast?.getD "", []⟩

/-- The history after the text under the cursor was taken for execution. -/
def submit (h : History) : History :=
  atLast (if h.slots.getLast? = some "" then h.slots else h.slots ++ [""])

/-- The cursor one slot earlier, if there is one. -/
def previous? (h : History) : Option History :=
  match h.earlier with
  | [] => none
  | text :: earlier => some ⟨earlier, text, h.current :: h.later⟩

/-- The cursor one slot later, if there is one. -/
def next? (h : History) : Option History :=
  match h.later with
  | [] => none
  | text :: later => some ⟨h.current :: h.earlier, text, later⟩

/-- **The cursor is on a slot,** which holds the current text. -/
theorem getElem?_slots_cursor (h : History) : h.slots[h.cursor]? = some h.current := by
  simp [slots, cursor]

/-- Putting the cursor on the last slot keeps the slots. -/
theorem slots_atLast {slots : List String} (h : slots ≠ []) : (atLast slots).slots = slots := by
  rcases List.eq_nil_or_concat slots with rfl | ⟨init, last, rfl⟩
  · exact absurd rfl h
  · simp [atLast, History.slots]

/-- Recalling moves the cursor and keeps the slots. -/
theorem slots_previous? {h g : History} (hg : h.previous? = some g) : g.slots = h.slots := by
  obtain ⟨earlier, current, later⟩ := h
  cases earlier with
  | nil => simp [previous?] at hg
  | cons text earlier =>
    obtain rfl := Option.some.inj hg
    simp [slots]

/-- Returning moves the cursor and keeps the slots. -/
theorem slots_next? {h g : History} (hg : h.next? = some g) : g.slots = h.slots := by
  obtain ⟨earlier, current, later⟩ := h
  cases later with
  | nil => simp [next?] at hg
  | cons text later =>
    obtain rfl := Option.some.inj hg
    simp [slots]

end History
end SnippetConsole
