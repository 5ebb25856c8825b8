/-
# What a printer has printed

A printer remembers one id and one count. To say that this is enough, `Watch` runs a log and a
printer side by side and writes down what the printer does not: every entry whose line it
returned, with the count it had then, the messages appended since it was last asked, and
whether the log retained all entries since then. An entry is *owed* if it was never printed, or
if it has a higher count than when it was printed last (`isOwed`).

The invariant (`UpToDate`) ties the three together. Only the newest entry of a log can grow, so
all entries older than the one printed last were printed with the count they still have, and
those newer were never printed. Hence an entry is due for the printer exactly if it is owed
(`UpToDate.isDue_eq`), and after a call nothing in the log is owed any more
(`UpToDate.lastCount?_print`).

What a line shows is told by the template in force and the entry alone (`Printer.line_eq`): the
entry in the template, and behind it its count, if that is above one (`countMark`). So a count can
be read off its line (`Printer.count_eq_of_line_eq`).
-/

import SnippetConsole.CommandLine.Printer
import SnippetConsole.Proofs.LogOrder
import SnippetConsole.Proofs.SlotFilling
import Mathlib.Algebra.BigOperators.Group.List.Basic
import Mathlib.Algebra.Order.Ring.Nat

namespace SnippetConsole
namespace CommandLine

/-! ### What a line shows -/

/-- How a line shows a count: not at all unless it is above one. -/
def countMark (count : Nat) : String :=
  if 1 < count then " (x" ++ toString count ++ ")" else ""

/-- Behind a character that is no digit, the digits of a number are the longest end of digits. -/
theorem takeWhile_isDigit_reverse (front : List Char) {c : Char} (hc : c.isDigit = false) (n : Nat) :
    (front ++ c :: Nat.toDigits 10 n).reverse.takeWhile Char.isDigit
      = (Nat.toDigits 10 n).reverse := by
  have hdigits : ∀ d ∈ (Nat.toDigits 10 n).reverse, d.isDigit = true := fun d hd =>
    Nat.isDigit_of_mem_toDigits (by decide) (by decide) (List.mem_reverse.1 hd)
  rw [List.reverse_append, List.reverse_cons, List.append_assoc,
    List.takeWhile_append_of_pos hdigits]
  simp [hc]

/-- **A count can be read off the end of a text,** if it is shown there. -/
theorem eq_of_append_countMark {before before' : String} {n n' : Nat} (hn : 1 < n) (hn' : 1 < n')
    (h : before ++ countMark n = before' ++ countMark n') : n = n' := by
  have hchars (before : String) {n : Nat} (hn : 1 < n) : (before ++ countMark n).toList
      = (before.toList ++ [' ', '(']) ++ 'x' :: Nat.toDigits 10 n ++ [')'] := by
    simp [countMark, hn]
  have hboth := congrArg String.toList h
  rw [hchars before hn, hchars before' hn'] at hboth
  obtain ⟨hboth, -⟩ := List.append_inj' hboth rfl
  have hdigits := congrArg (fun cs => cs.reverse.takeWhile Char.isDigit) hboth
  simp only [takeWhile_isDigit_reverse _ (by decide : 'x'.isDigit = false), List.reverse_inj]
    at hdigits
  rw [← Nat.ofDigitChars_ten_toDigits (n := n), hdigits, Nat.ofDigitChars_ten_toDigits]

namespace Printer

/-- **A line shows its entry in the template,** and behind it the count. -/
theorem line_eq (p : Printer) (e : Log.Entry) :
    p.line e = e.format p.template ++ countMark e.count := by
  rw [line, countMark]
  split
  · simp [String.append_assoc]
  · simp

/-- Lines that show different counts are different. -/
theorem count_eq_of_line_eq (p : Printer) {e e' : Log.Entry} (he : 1 < e.count)
    (he' : 1 < e'.count) (h : p.line e = p.line e') : e.count = e'.count := by
  rw [line_eq, line_eq] at h
  exact eq_of_append_countMark he he' h

/-- **A line has the text of its entry in it,** if the template has the slot for it. -/
theorem text_infix_line (p : Printer) (e : Log.Entry)
    (h : (Log.slot "message").toList <:+: p.template.toList) :
    e.text.toList <:+: (p.line e).toList := by
  rw [line_eq, String.toList_append]
  exact (e.text_infix_format h).trans (List.prefix_append _ _).isInfix

/-! ### One call -/

/-- The printer after it printed several entries. -/
def afterAll (p : Printer) (es : List Log.Entry) : Printer := es.foldl after p

/-- What is due for a printer stays due while it prints older entries. -/
theorem isDue_after {p : Printer} {e e' : Log.Entry} (he : p.isDue e = true) (hlt : e.id < e'.id) :
    (p.after e).isDue e' = p.isDue e' := by
  simp only [isDue, after, Bool.or_eq_true, Bool.and_eq_true, decide_eq_true_eq] at he ⊢
  have hp : p.lastId < e'.id := by omega
  simp [hlt, hp]

/-- **One call prints what is due,** one line for each entry, in the order of the ids. -/
theorem print_eq (p : Printer) {es : List Log.Entry} (h : es.Pairwise fun a b => a.id < b.id) :
    p.print es = ((es.filter p.isDue).map p.line, p.afterAll (es.filter p.isDue)) := by
  induction es generalizing p with
  | nil => rfl
  | cons e es ih =>
    obtain ⟨hlt, hes⟩ := List.pairwise_cons.1 h
    by_cases he : p.isDue e = true
    · have hsame : es.filter (p.after e).isDue = es.filter p.isDue :=
        List.filter_congr fun e' he' => isDue_after he (hlt e' he')
      simp only [print, he, if_true, ih (p.after e) hes, hsame, List.filter_cons_of_pos,
        List.map_cons, afterAll, List.foldl_cons]
      rfl
    · simp only [print, he, ih p hes, List.filter_cons_of_neg he]
      rfl

/-- Printing leaves the template as it is. -/
theorem template_print (p : Printer) (es : List Log.Entry) :
    (p.print es).2.template = p.template := by
  induction es generalizing p with
  | nil => rfl
  | cons e es ih =>
    by_cases he : p.isDue e = true
    · rw [print, if_pos he]
      exact ih (p.after e)
    · rw [print, if_neg he]
      exact ih p

/-- Nothing due is missed by reading from the entry printed last. -/
theorem pending_eq (p : Printer) {log : Log} (h : log.Ordered) :
    p.pending log = ((log.snapshot.filter p.isDue).map p.line,
      p.afterAll (log.snapshot.filter p.isDue)) := by
  have hsorted : (log.since (p.lastId - 1)).Pairwise fun a b => a.id < b.id :=
    (List.pairwise_reverse.2 h.falling).filter _
  have hread : (log.since (p.lastId - 1)).filter p.isDue = log.snapshot.filter p.isDue := by
    rw [Log.since, List.filter_filter]
    refine List.filter_congr fun e he => ?_
    have hid : 1 ≤ e.id := h.one_le_id e (List.mem_reverse.1 he)
    rcases hdue : p.isDue e with _ | _
    · simp
    · simp only [isDue, Bool.or_eq_true, Bool.and_eq_true, decide_eq_true_eq] at hdue
      have : p.lastId - 1 < e.id := by omega
      simpa using this
  rw [pending, print_eq p hsorted, hread]

end Printer

/-! ### A log and a printer side by side -/

/-- Something done to a log and its printer. -/
inductive WatchStep where
  | write (op : Log.Operation)
  | setTemplate (template : String)
  | print
  deriving DecidableEq, Repr

/-- The template that a step sets. -/
def WatchStep.template? : WatchStep → Option String
  | setTemplate template => some template
  | _ => none

/-- The template in force after steps: the one set last, or the one there was. -/
def templateAfter (template : String) (steps : List WatchStep) : String :=
  (steps.filterMap WatchStep.template?).getLastD template

/-- A log and a printer, and what happened so far: the entries printed, the latest first, the
messages appended since the last call, and whether the log retained all entries since then. -/
structure Watch where
  log : Log
  printer : Printer
  printed : List Log.Entry
  appended : Nat
  intact : Bool

/-- The count with which an entry was printed last. -/
def lastCount? (printed : List Log.Entry) (id : Nat) : Option Nat :=
  (printed.find? (·.id = id)).map (·.count)

/-- Whether an entry was never printed, or with a lower count only. -/
def isOwed (printed : List Log.Entry) (e : Log.Entry) : Bool :=
  match lastCount? printed e.id with
  | none => true
  | some n => n < e.count

theorem lastCount?_append (es more : List Log.Entry) (id : Nat) :
    lastCount? (es ++ more) id = (lastCount? es id).or (lastCount? more id) := by
  rcases h : es.find? (·.id = id) <;> simp [lastCount?, List.find?_append, h]

theorem lastCount?_eq_none {es : List Log.Entry} {id : Nat} (h : ∀ e ∈ es, e.id ≠ id) :
    lastCount? es id = none := by
  simpa [lastCount?] using h

theorem lastCount?_of_mem {es : List Log.Entry} (h : (es.map (·.id)).Nodup) {e : Log.Entry}
    (he : e ∈ es) : lastCount? es e.id = some e.count := by
  rcases hf : es.find? (·.id = e.id) with _ | e'
  · have := List.find?_eq_none.1 hf e he
    simp at this
  · have hid : e'.id = e.id := by simpa using List.find?_some hf
    have hsame : e' = e := List.inj_on_of_nodup_map h (List.mem_of_find?_eq_some hf) he hid
    simp [lastCount?, hf, hsame]

/-- By how much an entry's count is above the one it was printed with last. -/
def increment (printed : List Log.Entry) (e : Log.Entry) : Nat :=
  e.count - (lastCount? printed e.id).getD 0

namespace Watch

/-- A new log and a new printer. -/
def new (policy : Log.Policy) (clock : Clock) (template : String) : Watch :=
  ⟨.new policy clock, .new template, [], 0, true⟩

/-- The entries of the log that are owed, in order. -/
def owed (w : Watch) : List Log.Entry := w.log.snapshot.filter (isOwed w.printed)

/-- How many messages an operation appends. -/
def appends : Log.Operation → Nat
  | .append _ => 1
  | _ => 0

/-- What is there after a step. -/
def step (w : Watch) : WatchStep → Watch
  | .write op =>
    { w with
      log := w.log.apply op
      appended := w.appended + appends op
      intact := w.intact && w.log.retains op }
  | .setTemplate template => { w with printer := w.printer.setTemplate template }
  | .print =>
    { w with
      printer := (w.printer.pending w.log).2
      printed := w.owed.reverse ++ w.printed
      appended := 0
      intact := true }

/-- What is there after steps in order. -/
def run (w : Watch) (steps : List WatchStep) : Watch := steps.foldl step w

theorem template_step (w : Watch) (s : WatchStep) :
    (w.step s).printer.template = s.template?.getD w.printer.template := by
  cases s with
  | write op => rfl
  | setTemplate template => rfl
  | print => exact w.printer.template_print _

/-- **The template in force** is the printer's. -/
theorem template_run (w : Watch) (steps : List WatchStep) :
    (w.run steps).printer.template = templateAfter w.printer.template steps := by
  induction steps generalizing w with
  | nil => rfl
  | cons s steps ih =>
    have hrun : w.run (s :: steps) = (w.step s).run steps := rfl
    rw [hrun, ih, template_step, templateAfter, templateAfter]
    cases hs : s.template? with
    | none => rw [List.filterMap_cons_none hs, Option.getD_none]
    | some template => rw [List.filterMap_cons_some hs, Option.getD_some, List.getLastD_cons]

/-- What the printer remembers tells what was printed, and with which counts. -/
structure UpToDate (w : Watch) : Prop where
  ordered : w.log.Ordered
  lastId_lt : w.printer.lastId < w.log.nextId
  printed_le : ∀ e ∈ w.printed, e.id ≤ w.printer.lastId
  count_le : ∀ e ∈ w.printed, e.id = w.printer.lastId → e.count ≤ w.printer.lastCount
  older : ∀ e ∈ w.log.newestFirst, e.id < w.printer.lastId →
    lastCount? w.printed e.id = some e.count
  last : ∀ e ∈ w.log.newestFirst, e.id = w.printer.lastId →
    lastCount? w.printed e.id = some w.printer.lastCount ∧ w.printer.lastCount ≤ e.count
  nodup : (w.printed.map fun e => (e.id, e.count)).Nodup
  appended : w.intact = true → (w.log.newestFirst.map (increment w.printed)).sum = w.appended

namespace UpToDate

variable {w : Watch}

/-- Nothing is printed yet, and nothing owed. -/
theorem new (policy : Log.Policy) (clock : Clock) (template : String) :
    (Watch.new policy clock template).UpToDate where
  ordered := .new policy clock
  lastId_lt := Nat.zero_lt_one
  printed_le := fun _ h => absurd h List.not_mem_nil
  count_le := fun _ h => absurd h List.not_mem_nil
  older := fun _ h => absurd h List.not_mem_nil
  last := fun _ h => absurd h List.not_mem_nil
  nodup := .nil
  appended := fun _ => rfl

/-- An entry newer than the last one printed was never printed. -/
theorem lastCount?_of_lt (h : w.UpToDate) {id : Nat} (hid : w.printer.lastId < id) :
    lastCount? w.printed id = none := by
  refine lastCount?_eq_none fun e he => ?_
  have := h.printed_le e he
  omega

/-- No entry was printed with a higher count than it has. -/
theorem lastCount_le (h : w.UpToDate) {e : Log.Entry} (he : e ∈ w.log.newestFirst) :
    (lastCount? w.printed e.id).getD 0 ≤ e.count := by
  rcases Nat.lt_trichotomy e.id w.printer.lastId with hlt | heq | hgt
  · simp [h.older e he hlt]
  · simp [(h.last e he heq).1, (h.last e he heq).2]
  · simp [h.lastCount?_of_lt hgt]

/-- **Due is what is owed.** -/
theorem isDue_eq (h : w.UpToDate) {e : Log.Entry} (he : e ∈ w.log.newestFirst) :
    w.printer.isDue e = isOwed w.printed e := by
  rcases Nat.lt_trichotomy e.id w.printer.lastId with hlt | heq | hgt
  · have h1 : ¬ w.printer.lastId < e.id := by omega
    have h2 : e.id ≠ w.printer.lastId := by omega
    simp [Printer.isDue, isOwed, h.older e he hlt, h1, h2]
  · have hc : lastCount? w.printed w.printer.lastId = some w.printer.lastCount :=
      heq ▸ (h.last e he heq).1
    simp [Printer.isDue, isOwed, heq, hc]
  · simp [Printer.isDue, isOwed, h.lastCount?_of_lt hgt, hgt]

theorem filter_isDue (h : w.UpToDate) : w.log.snapshot.filter w.printer.isDue = w.owed :=
  List.filter_congr fun _ he => h.isDue_eq (List.mem_reverse.1 he)

/-- **One call returns one line for each entry that is owed.** -/
theorem pending_eq (h : w.UpToDate) :
    w.printer.pending w.log = (w.owed.map w.printer.line, w.printer.afterAll w.owed) := by
  rw [Printer.pending_eq _ h.ordered, h.filter_isDue]

theorem mem_newestFirst_of_owed {e : Log.Entry} (he : e ∈ w.owed) : e ∈ w.log.newestFirst :=
  List.mem_reverse.1 (List.mem_of_mem_filter he)

/-- The ids of the entries owed rise. -/
theorem pairwise_owed (h : w.UpToDate) : w.owed.Pairwise fun a b => a.id < b.id :=
  (List.pairwise_reverse.2 h.ordered.falling).filter _

/-- **After a call each entry of the log was printed with the count it has.** -/
theorem lastCount?_print (h : w.UpToDate) {e : Log.Entry} (he : e ∈ w.log.newestFirst) :
    lastCount? (w.owed.reverse ++ w.printed) e.id = some e.count := by
  have hids : (w.owed.reverse.map (·.id)).Nodup := by
    rw [List.map_reverse, List.nodup_reverse]
    exact List.pairwise_map.2 (h.pairwise_owed.imp Nat.ne_of_lt)
  rw [lastCount?_append]
  by_cases ho : e ∈ w.owed
  · rw [lastCount?_of_mem hids (List.mem_reverse.2 ho)]
    rfl
  · have hskip : lastCount? w.owed.reverse e.id = none := by
      refine lastCount?_eq_none fun e' he' hid => ho ?_
      have hmem := List.mem_reverse.1 he'
      rwa [← h.ordered.eq_of_id_eq (mem_newestFirst_of_owed hmem) he hid]
    have hno : isOwed w.printed e = false := by
      rcases hi : isOwed w.printed e with _ | _
      · rfl
      · exact absurd (List.mem_filter.2 ⟨List.mem_reverse.2 he, hi⟩) ho
    have hle := h.lastCount_le he
    rw [hskip, Option.none_or]
    rcases hc : lastCount? w.printed e.id with _ | n
    · simp [isOwed, hc] at hno
    · simp only [isOwed, hc, decide_eq_false_iff_not] at hno
      rw [hc, Option.getD_some] at hle
      congr 1
      omega

/-- What is not owed has not grown. -/
theorem sum_increment_owed (w : Watch) :
    (w.owed.map (increment w.printed)).sum
      = (w.log.newestFirst.map (increment w.printed)).sum := by
  have hzero : ∀ e, isOwed w.printed e = false → increment w.printed e = 0 := by
    intro e he
    rcases hc : lastCount? w.printed e.id with _ | n
    · simp [isOwed, hc] at he
    · simp only [isOwed, hc, decide_eq_false_iff_not, Nat.not_lt] at he
      simp [increment, hc, he]
  have hsum : ∀ es : List Log.Entry, ((es.filter (isOwed w.printed)).map (increment w.printed)).sum
      = (es.map (increment w.printed)).sum := by
    intro es
    induction es with
    | nil => rfl
    | cons e es ih =>
      rcases he : isOwed w.printed e with _ | _
      · simp [he, ih, hzero e he]
      · simp [he, ih]
  rw [owed, hsum, Log.snapshot, List.map_reverse, List.sum_reverse]

/-- The oldest entries may go; the log is intact only if none goes. -/
theorem cut (h : w.UpToDate) {log : Log} {n : Nat} {intact : Bool}
    (hn : log.newestFirst = w.log.newestFirst.take n) (hid : log.nextId = w.log.nextId)
    (hi : intact = true → w.intact = true ∧ log.newestFirst = w.log.newestFirst) :
    UpToDate { w with log := log, intact := intact } where
  ordered := h.ordered.take n hn hid
  lastId_lt := hid ▸ h.lastId_lt
  printed_le := h.printed_le
  count_le := h.count_le
  older := fun e he => h.older e (List.mem_of_mem_take (hn ▸ he))
  last := fun e he => h.last e (List.mem_of_mem_take (hn ▸ he))
  nodup := h.nodup
  appended := by
    intro hintact
    obtain ⟨hw, hsame⟩ := hi hintact
    show (log.newestFirst.map _).sum = _
    rw [hsame]
    exact h.appended hw

/-- The newest entry was counted once more. -/
theorem raised (h : w.UpToDate) {e : Log.Entry} {rest : List Log.Entry}
    (hl : w.log.newestFirst = e :: rest) :
    UpToDate { w with log := w.log.raised e rest, appended := w.appended + 1 } where
  ordered := h.ordered.raised hl
  lastId_lt := h.lastId_lt
  printed_le := h.printed_le
  count_le := h.count_le
  older := by
    intro e' he hlt
    rcases List.mem_cons.1 he with rfl | he
    · -- the newest entry is not older than the one printed last
      have hnew := h.ordered.newest e rest hl
      have hbound := h.lastId_lt
      change e.id < w.printer.lastId at hlt
      omega
    · exact h.older e' (hl ▸ List.mem_cons_of_mem _ he) hlt
  last := by
    intro e' he hid
    rcases List.mem_cons.1 he with rfl | he
    · obtain ⟨hc, hle⟩ := h.last e (hl ▸ List.mem_cons_self) hid
      exact ⟨hc, Nat.le_succ_of_le hle⟩
    · exact h.last e' (hl ▸ List.mem_cons_of_mem _ he) hid
  nodup := h.nodup
  appended := by
    intro hintact
    have hsum := h.appended hintact
    have hle := h.lastCount_le (hl ▸ List.mem_cons_self : e ∈ w.log.newestFirst)
    simp only [hl, List.map_cons, List.sum_cons] at hsum
    simp only [Log.raised, List.map_cons, List.sum_cons, increment] at hsum ⊢
    omega

/-- There is a new entry. -/
theorem grown (h : w.UpToDate) (m : Log.Message) :
    UpToDate { w with log := w.log.grown m, appended := w.appended + 1 } where
  ordered := h.ordered.grown m
  lastId_lt := Nat.lt_succ_of_lt h.lastId_lt
  printed_le := h.printed_le
  count_le := h.count_le
  older := by
    intro e he hlt
    rcases List.mem_cons.1 he with rfl | he
    · exact absurd hlt (Nat.lt_asymm h.lastId_lt)
    · exact h.older e he hlt
  last := by
    intro e he hid
    rcases List.mem_cons.1 he with rfl | he
    · exact absurd hid (Nat.ne_of_gt h.lastId_lt)
    · exact h.last e he hid
  nodup := h.nodup
  appended := by
    intro hintact
    have hsum := h.appended hintact
    have hnew : lastCount? w.printed (w.log.entryOf m).id = none := h.lastCount?_of_lt h.lastId_lt
    simp only [Log.grown, List.map_cons, List.sum_cons]
    rw [hsum, increment, hnew]
    exact Nat.add_comm _ _

/-- **The log may do anything.** -/
theorem write (h : w.UpToDate) (op : Log.Operation) : (w.step (.write op)).UpToDate := by
  have hret : (w.intact && w.log.retains op) = true →
      w.intact = true ∧ w.log.writtenBy op ++ w.log.ids ⊆ (w.log.apply op).ids := by
    intro hi
    obtain ⟨hw, hr⟩ := Bool.and_eq_true_iff.1 hi
    exact ⟨hw, Log.retains_iff.1 hr⟩
  cases op with
  | append m =>
    rcases w.log.append_cases m with ⟨e, rest, hl, -, happ⟩ | ⟨-, happ⟩
    · have hlog : w.log.apply (.append m) = w.log.raised e rest := by
        rw [Log.apply, Log.write, happ]
      simp only [step, hlog]
      refine (h.raised hl).cut (n := rest.length + 1) ?_ rfl fun hi => ⟨?_, rfl⟩
      · simp [Log.raised]
      · exact (hret hi).1
    · have hlog : w.log.apply (.append m) = w.log.extended m := by
        rw [Log.apply, Log.write, happ]
      have hids : w.log.writtenBy (.append m) ++ w.log.ids = (w.log.grown m).ids := by
        simp [Log.writtenBy, happ, Log.ids, Log.grown, Log.Outcome.id, Log.entryOf]
      simp only [step, hlog]
      refine (h.grown m).cut (n := w.log.policy.maxEntries) rfl rfl fun hi => ?_
      obtain ⟨hw, hsub⟩ := hret hi
      rw [hids, hlog] at hsub
      exact ⟨hw, (h.ordered.grown m).eq_of_ids_subset rfl hsub⟩
  | clear =>
    refine h.cut (n := 0) rfl rfl fun hi => ?_
    obtain ⟨hw, hsub⟩ := hret hi
    exact ⟨hw, h.ordered.eq_of_ids_subset (n := 0) rfl hsub⟩
  | setPolicy policy =>
    refine h.cut (n := policy.clamped.maxEntries) rfl rfl fun hi => ?_
    obtain ⟨hw, hsub⟩ := hret hi
    exact ⟨hw, h.ordered.eq_of_ids_subset (n := policy.clamped.maxEntries) rfl hsub⟩
  | takeReveal =>
    refine h.cut (n := w.log.newestFirst.length) List.take_length.symm rfl fun hi => ?_
    exact ⟨(hret hi).1, rfl⟩
  | takeScroll =>
    refine h.cut (n := w.log.newestFirst.length) List.take_length.symm rfl fun hi => ?_
    exact ⟨(hret hi).1, rfl⟩

/-- Another template makes no difference to what is owed. -/
theorem setTemplate (h : w.UpToDate) (template : String) :
    (w.step (.setTemplate template)).UpToDate :=
  ⟨h.1, h.2, h.3, h.4, h.5, h.6, h.7, h.8⟩

/-- If anything is owed, the newest entry is, and it comes last; if nothing is, the newest entry
was printed last. -/
theorem owed_cases (h : w.UpToDate) {e : Log.Entry} {rest : List Log.Entry}
    (hl : w.log.newestFirst = e :: rest) :
    (∃ init, w.owed = init ++ [e]) ∨
      (w.owed = [] ∧ e.id = w.printer.lastId ∧ e.count = w.printer.lastCount) := by
  have he : e ∈ w.log.newestFirst := hl ▸ List.mem_cons_self
  have hsnap : w.log.snapshot = rest.reverse ++ [e] := by simp [Log.snapshot, hl]
  have hbound := h.lastId_lt
  have hnew := h.ordered.newest e rest hl
  rcases ho : isOwed w.printed e with _ | _
  · have hdue := (h.isDue_eq he).trans ho
    simp only [Printer.isDue, Bool.or_eq_false_iff, Bool.and_eq_false_iff, decide_eq_false_iff_not]
      at hdue
    have hid : e.id = w.printer.lastId := by omega
    have hcount := (h.last e he hid).2
    refine Or.inr ⟨?_, hid, by omega⟩
    refine List.filter_eq_nil_iff.2 fun e' he' => ?_
    have hmem := List.mem_reverse.1 he'
    rcases List.mem_cons.1 (hl ▸ hmem) with rfl | hrest
    · simp [ho]
    · have hlt := (List.pairwise_cons.1 (hl ▸ h.ordered.falling)).1 e' hrest
      have hold := h.older e' hmem (hid ▸ hlt)
      simp [isOwed, hold]
  · exact Or.inl ⟨rest.reverse.filter (isOwed w.printed), by simp [owed, hsnap, ho]⟩

/-- The printer remembers the entry that it printed last. -/
theorem afterAll_concat (p : Printer) (init : List Log.Entry) (e : Log.Entry) :
    (p.afterAll (init ++ [e])).lastId = e.id ∧ (p.afterAll (init ++ [e])).lastCount = e.count := by
  simp [Printer.afterAll, Printer.after]

/-- **After a call the newest entry of the log is the one remembered.** -/
theorem remembers_newest (h : w.UpToDate) {e : Log.Entry} {rest : List Log.Entry}
    (hl : w.log.newestFirst = e :: rest) :
    (w.printer.afterAll w.owed).lastId = e.id ∧
      (w.printer.afterAll w.owed).lastCount = e.count := by
  rcases h.owed_cases hl with ⟨init, ho⟩ | ⟨ho, hid, hcount⟩
  · rw [ho]
    exact afterAll_concat _ _ _
  · rw [ho]
    exact ⟨hid.symm, hcount.symm⟩

/-- What is owed has not been printed with its count. -/
theorem nodup_print (h : w.UpToDate) :
    ((w.owed.reverse ++ w.printed).map fun e => (e.id, e.count)).Nodup := by
  rw [List.map_append]
  refine List.nodup_append.2 ⟨?_, h.nodup, ?_⟩
  · rw [List.map_reverse, List.nodup_reverse]
    refine List.pairwise_map.2 (h.pairwise_owed.imp fun hlt heq => ?_)
    exact Nat.ne_of_lt hlt (congrArg Prod.fst heq)
  · intro x hx y hy hxy
    obtain ⟨e, he, rfl⟩ := List.mem_map.1 hx
    obtain ⟨p, hp, rfl⟩ := List.mem_map.1 hy
    obtain ⟨hid, hcount⟩ := Prod.mk.inj hxy
    have hmem := mem_newestFirst_of_owed (List.mem_reverse.1 he)
    have hdue := (h.isDue_eq hmem).trans (List.mem_filter.1 (List.mem_reverse.1 he)).2
    simp only [Printer.isDue, Bool.or_eq_true, Bool.and_eq_true, decide_eq_true_eq] at hdue
    have hp_id := h.printed_le p hp
    have hp_count := h.count_le p hp
    omega

/-- Nothing was printed under a higher id than the newest entry has, nor with a higher count. -/
theorem printed_le_newest (h : w.UpToDate) {newest : Log.Entry} {rest : List Log.Entry}
    (hl : w.log.newestFirst = newest :: rest) (hlast : w.printer.lastId ≤ newest.id)
    {e : Log.Entry} (he : e ∈ w.owed.reverse ++ w.printed) :
    e.id ≤ newest.id ∧ (e.id = newest.id → e.count ≤ newest.count) := by
  have hmem : newest ∈ w.log.newestFirst := hl ▸ List.mem_cons_self
  rcases List.mem_append.1 he with he | he
  · have hin := mem_newestFirst_of_owed (List.mem_reverse.1 he)
    refine ⟨h.ordered.id_le_newest hl hin, fun hid => ?_⟩
    obtain rfl := h.ordered.eq_of_id_eq hin hmem hid
    exact Nat.le_refl _
  · have hle := h.printed_le e he
    refine ⟨hle.trans hlast, fun hid => ?_⟩
    have heq : e.id = w.printer.lastId := by omega
    exact (h.count_le e he heq).trans (h.last newest hmem (hid.symm.trans heq)).2

/-- After a call no count has gone up since it was printed. -/
theorem sum_increment_print (h : w.UpToDate) :
    (w.log.newestFirst.map (increment (w.owed.reverse ++ w.printed))).sum = 0 := by
  refine List.sum_eq_zero fun n hn => ?_
  obtain ⟨e, he, rfl⟩ := List.mem_map.1 hn
  rw [increment, h.lastCount?_print he, Option.getD_some, Nat.sub_self]

/-- **A call pays what is owed.** -/
theorem print (h : w.UpToDate) : (w.step .print).UpToDate := by
  have hpending : (w.printer.pending w.log).2 = w.printer.afterAll w.owed :=
    congrArg Prod.snd h.pending_eq
  simp only [step, hpending]
  rcases hl : w.log.newestFirst with _ | ⟨newest, rest⟩
  · have ho : w.owed = [] := by simp [owed, Log.snapshot, hl]
    have hnone : ∀ e, e ∉ w.log.newestFirst := by simp [hl]
    rw [ho]
    exact ⟨h.ordered, h.lastId_lt, h.printed_le, h.count_le, fun e he => absurd he (hnone e),
      fun e he => absurd he (hnone e), h.nodup, fun _ => by simp [hl]⟩
  · obtain ⟨hid, hcount⟩ := h.remembers_newest hl
    have hmem : newest ∈ w.log.newestFirst := hl ▸ List.mem_cons_self
    have hlast : w.printer.lastId ≤ newest.id := by
      have hnext := h.ordered.newest newest rest hl
      have hbound := h.lastId_lt
      omega
    -- all that the invariant says of the printer's memory is about the newest entry now
    have hmemory : w.printer.afterAll w.owed
        = { w.printer.afterAll w.owed with lastId := newest.id, lastCount := newest.count } := by
      rw [← hid, ← hcount]
    rw [hmemory]
    exact {
      ordered := h.ordered
      lastId_lt := h.ordered.id_lt hmem
      printed_le := fun e he => (h.printed_le_newest hl hlast he).1
      count_le := fun e he => (h.printed_le_newest hl hlast he).2
      older := fun e he _ => h.lastCount?_print he
      last := by
        intro e he heq
        obtain rfl := h.ordered.eq_of_id_eq he hmem heq
        exact ⟨h.lastCount?_print he, Nat.le_refl _⟩
      nodup := h.nodup_print
      appended := fun _ => h.sum_increment_print }

/-- **One step:** whatever is done, the printer's memory tells what was printed. -/
theorem step (h : w.UpToDate) (s : WatchStep) : (w.step s).UpToDate := by
  cases s with
  | write op => exact h.write op
  | setTemplate template => exact h.setTemplate template
  | print => exact h.print

/-- **A run:** so it does after any steps. -/
theorem run (h : w.UpToDate) (steps : List WatchStep) : (w.run steps).UpToDate := by
  induction steps generalizing w with
  | nil => exact h
  | cons s steps ih => exact ih (h.step s)

end UpToDate

/-- **Nothing is lost, nothing is printed twice.** Start with a new log of any policy and a new
printer, and let anything be done to both. Then a call returns one line for each entry in the
log that was never printed or has grown since, in the order of their ids, and nothing else. The
line is the entry in the template that was set last, with the count behind it if that is above one,
so it has the text of the entry in it if the template has a slot for it, and one of two counts is
never taken for the other. No entry was printed twice with one count; after the call each entry in
the log was printed with the count it has; and if the log retained all entries since the last call,
the counts printed went up by the number of messages appended since then. -/
theorem pending_run_eq_owed (policy : Log.Policy) (clock : Clock) (template : String)
    (steps : List WatchStep) :
    let w := (Watch.new policy clock template).run steps
    let inForce := templateAfter template steps
    let lineOf := fun e : Log.Entry => e.format inForce ++ countMark e.count
    (w.printer.pending w.log).1 = w.owed.map lineOf ∧
      (∀ e ∈ w.owed, (Log.slot "message").toList <:+: inForce.toList →
        e.text.toList <:+: (lineOf e).toList) ∧
      (∀ e e' : Log.Entry, 1 < e.count → 1 < e'.count → lineOf e = lineOf e' →
        e.count = e'.count) ∧
      w.owed.Pairwise (fun a b => a.id < b.id) ∧
      (w.printed.map fun e => (e.id, e.count)).Nodup ∧
      (∀ e ∈ w.log.snapshot, lastCount? (w.step .print).printed e.id = some e.count) ∧
      (w.intact = true → (w.owed.map (increment w.printed)).sum = w.appended) := by
  intro w inForce lineOf
  have h : w.UpToDate := (UpToDate.new policy clock template).run steps
  have hinForce : w.printer.template = inForce := template_run _ steps
  have hline (e : Log.Entry) : w.printer.line e = lineOf e := by
    rw [Printer.line_eq, hinForce]
  refine ⟨?_, fun e _ hslot => ?_, fun e e' he he' hsame => ?_, h.pairwise_owed, h.nodup,
    fun e he => ?_, fun hi => ?_⟩
  · rw [h.pending_eq]
    exact List.map_congr_left fun e _ => hline e
  · rw [← hline]
    exact w.printer.text_infix_line e (hinForce ▸ hslot)
  · rw [← hline, ← hline] at hsame
    exact w.printer.count_eq_of_line_eq he he' hsame
  · exact h.lastCount?_print (List.mem_reverse.1 he)
  · exact (UpToDate.sum_increment_owed w).trans (h.appended hi)

end Watch
end CommandLine
end SnippetConsole
