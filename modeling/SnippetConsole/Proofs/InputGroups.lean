/-
# Inputs and the lines they come from

A line *goes on* if it ends in a backslash, its line ending apart (`goesOn`). The lines before the
end fall into groups (`Group`): lines that go on, and one that does not; the end of all lines may
take the place of that one in the last group. There is one way to cut lines so (`isCut_iff`), and
each group becomes one input (`Group.input`):

| group | input |
| --- | --- |
| one line that does not go on | what the line says, its ending apart |
| several lines | the snippet of their texts, with line feeds between them |
| lines cut off by the end | the snippet of their texts, with a line feed behind each |

An assembler that has read the front of a group waits with the texts of its lines (`waiting`). Each
push either makes the front longer or ends the group, so the assembler makes the inputs of the
groups and no others (`inputs_waiting`), and a session does them in their order (`run_encode`).
-/

import SnippetConsole.CommandLine.Session
import Mathlib.Data.List.TakeWhile

namespace SnippetConsole
namespace CommandLine

/-! ### The lines of a group -/

/-- Whether the next line goes on from this one. -/
def goesOn (line : String) : Bool := (withoutEnding line).getLast? = some '\\'

/-- What a line says: the line without its ending. -/
def contents (line : String) : String := String.ofList (withoutEnding line)

/-- What a line that goes on says: the line without its ending and the backslash before that. -/
def head (line : String) : String := String.ofList (withoutEnding line).dropLast

/-- Lines that become one input: those that go on, then the one that does not. There is no such
line if the end comes first. -/
structure Group where
  front : List String
  last : Option String
  deriving DecidableEq, Repr

namespace Group

/-- All lines of a group. -/
def lines (g : Group) : List String := g.front ++ g.last.toList

/-- Whether the group ends with a line. -/
def isClosed (g : Group) : Bool := g.last.isSome

/-- The front goes on, the last line does not, and there is a line. -/
structure WellFormed (g : Group) : Prop where
  front : ∀ line ∈ g.front, goesOn line = true
  last : ∀ line ∈ g.last, goesOn line = false
  lines_ne_nil : g.lines ≠ []

/-- The input of a group. -/
def input (g : Group) : Input :=
  match g.last with
  | none => .snippet (String.intercalate "\n" (g.front.map head) ++ "\n")
  | some line =>
    if g.front = [] then .ofLine (contents line)
    else .snippet (String.intercalate "\n" (g.front.map head ++ [contents line]))

theorem input_of_nil (line : String) :
    input ⟨[], some line⟩ = .ofLine (contents line) := by
  simp [input]

end Group

/-- The groups hold the lines in their order, and only the last one may be cut off. -/
structure IsCut (lines : List String) (groups : List Group) : Prop where
  flatMap_lines : groups.flatMap Group.lines = lines
  wellFormed : ∀ g ∈ groups, g.WellFormed
  closed : ∀ g ∈ groups.dropLast, g.isClosed = true

/-! ### Cutting lines into groups -/

/-- The groups with lines that go on before the first one. -/
def prepend (front : List String) : List Group → List Group
  | [] => if front = [] then [] else [⟨front, none⟩]
  | g :: groups => ⟨front ++ g.front, g.last⟩ :: groups

/-- The groups of lines. -/
def cut : List String → List Group
  | [] => []
  | line :: lines =>
    if goesOn line then prepend [line] (cut lines) else ⟨[], some line⟩ :: cut lines

@[simp] theorem prepend_nil (groups : List Group) : prepend [] groups = groups := by
  cases groups <;> rfl

theorem prepend_append (front front' : List String) (groups : List Group) :
    prepend (front ++ front') groups = prepend front (prepend front' groups) := by
  cases groups with
  | cons g groups => simp [prepend]
  | nil =>
    by_cases h : front' = []
    · simp [h]
    · simp [prepend, h]

theorem isCut_nil : IsCut [] [] := ⟨rfl, by simp, by simp⟩

theorem IsCut.cons_closed {lines : List String} {groups : List Group} (h : IsCut lines groups)
    {line : String} (hline : goesOn line = false) :
    IsCut (line :: lines) (⟨[], some line⟩ :: groups) where
  flatMap_lines := by
    rw [List.flatMap_cons, h.flatMap_lines]
    rfl
  wellFormed := List.forall_mem_cons.2 ⟨⟨by simp, by simpa using hline, by simp [Group.lines]⟩,
    h.wellFormed⟩
  closed g hg := by
    cases groups with
    | nil => simp at hg
    | cons g' groups =>
      rw [List.dropLast_cons_cons] at hg
      obtain rfl | hg := List.mem_cons.1 hg
      · rfl
      · exact h.closed g hg

theorem IsCut.prepend {lines : List String} {groups : List Group} (h : IsCut lines groups)
    {line : String} (hline : goesOn line = true) :
    IsCut (line :: lines) (prepend [line] groups) := by
  obtain ⟨hlines, hwell, hclosed⟩ := h
  cases groups with
  | nil =>
    obtain rfl : [] = lines := hlines
    refine ⟨rfl, ?_, by simp [CommandLine.prepend]⟩
    intro g hg
    obtain rfl := List.mem_singleton.1 hg
    exact ⟨by simpa using hline, by simp, by simp [Group.lines]⟩
  | cons g groups =>
    obtain ⟨hg, hgroups⟩ := List.forall_mem_cons.1 hwell
    refine ⟨?_, List.forall_mem_cons.2 ⟨⟨?_, hg.last, by simp [Group.lines]⟩, hgroups⟩, ?_⟩
    · rw [← hlines]
      rfl
    · exact List.forall_mem_cons.2 ⟨hline, hg.front⟩
    · cases groups with
      | nil => simp [CommandLine.prepend]
      | cons g' groups =>
        rw [List.dropLast_cons_cons] at hclosed
        rw [CommandLine.prepend, List.dropLast_cons_cons]
        obtain ⟨hfirst, hrest⟩ := List.forall_mem_cons.1 hclosed
        exact List.forall_mem_cons.2 ⟨hfirst, hrest⟩

theorem isCut_cut (lines : List String) : IsCut lines (cut lines) := by
  induction lines with
  | nil => exact isCut_nil
  | cons line lines ih =>
    rw [cut]
    by_cases h : goesOn line = true
    · rw [if_pos h]
      exact ih.prepend h
    · rw [if_neg h]
      exact ih.cons_closed (by simpa using h)

/-- Lines that go on come before the groups of the rest. -/
theorem cut_append {front : List String} (h : ∀ line ∈ front, goesOn line = true)
    (rest : List String) : cut (front ++ rest) = prepend front (cut rest) := by
  induction front with
  | nil => simp
  | cons line front ih =>
    obtain ⟨hline, hfront⟩ := List.forall_mem_cons.1 h
    rw [List.cons_append, cut, if_pos hline, ih hfront, ← prepend_append]
    rfl

theorem Group.WellFormed.cut_lines {g : Group} (h : g.WellFormed) : cut g.lines = [g] := by
  obtain ⟨front, last⟩ := g
  rw [Group.lines, cut_append h.front]
  cases last with
  | none =>
    have hfront : front ≠ [] := by simpa [Group.lines] using h.lines_ne_nil
    simp [cut, CommandLine.prepend, hfront]
  | some line => simp [cut, CommandLine.prepend, h.last line rfl]

theorem Group.WellFormed.cut_append {g : Group} (h : g.WellFormed) (hclosed : g.isClosed = true)
    (rest : List String) : cut (g.lines ++ rest) = g :: cut rest := by
  obtain ⟨front, _ | line⟩ := g
  · cases hclosed
  · rw [Group.lines, List.append_assoc, CommandLine.cut_append h.front]
    simp [cut, CommandLine.prepend, h.last line rfl]

/-- **There is one way to cut lines into groups.** -/
theorem isCut_iff {lines : List String} {groups : List Group} :
    IsCut lines groups ↔ groups = cut lines := by
  refine ⟨fun h => ?_, fun h => h ▸ isCut_cut lines⟩
  induction groups generalizing lines with
  | nil =>
    obtain rfl : [] = lines := h.flatMap_lines
    rfl
  | cons g groups ih =>
    obtain ⟨hlines, hwell, hclosed⟩ := h
    obtain ⟨hg, hgroups⟩ := List.forall_mem_cons.1 hwell
    rw [← hlines, List.flatMap_cons]
    cases groups with
    | nil => rw [List.flatMap_nil, List.append_nil, hg.cut_lines]
    | cons g' groups =>
      rw [List.dropLast_cons_cons] at hclosed
      obtain ⟨hfirst, hrest⟩ := List.forall_mem_cons.1 hclosed
      rw [hg.cut_append hfirst, ← ih ⟨rfl, hgroups, hrest⟩]

/-! ### What the assembler makes of them -/

namespace Assembler

/-- The inputs that raw lines complete, and the assembler afterwards. -/
def pushLines (a : Assembler) : List String → List Input × Assembler
  | [] => ([], a)
  | line :: lines =>
    let (input?, a) := a.push line
    let (inputs, a) := a.pushLines lines
    (input?.toList ++ inputs, a)

/-- The inputs that raw lines and the end behind them complete. -/
def inputs (a : Assembler) (lines : List String) : List Input :=
  (a.pushLines lines).1 ++ (a.pushLines lines).2.finish.1.toList

theorem pushLines_cons {a b : Assembler} {line : String} {input? : Option Input}
    (h : a.push line = (input?, b)) (lines : List String) :
    a.pushLines (line :: lines)
      = (input?.toList ++ (b.pushLines lines).1, (b.pushLines lines).2) := by
  rw [pushLines, h]

/-- The texts of lines that go on, each with a line feed. -/
def carried (front : List String) : String := String.join (front.map fun line => head line ++ "\n")

/-- The assembler that has read lines that go on, and no other line of their group. -/
def waiting (front : List String) : Assembler :=
  ⟨if front = [] then none else some (carried front)⟩

theorem isContinuing_waiting (front : List String) :
    (waiting front).isContinuing = !front.isEmpty := by
  cases front <;> simp [waiting, isContinuing]

theorem carried_concat (front : List String) (line : String) :
    carried (front ++ [line]) = carried front ++ head line ++ "\n" := by
  simp [carried, String.append_assoc]

/-- A text behind the carried ones, with the line feeds between the texts. -/
theorem carried_append (front : List String) (text : String) :
    carried front ++ text = String.intercalate "\n" (front.map head ++ [text]) := by
  induction front with
  | nil => simp [carried]
  | cons line front ih =>
    rw [List.map_cons, List.cons_append, String.intercalate_cons_of_ne_nil (by simp), ← ih]
    simp [carried, String.append_assoc]

/-- The carried texts alone, with the line feeds between them and one at the end. -/
theorem carried_eq {front : List String} (h : front ≠ []) :
    carried front = String.intercalate "\n" (front.map head) ++ "\n" := by
  obtain ⟨init, line, rfl⟩ := (List.eq_nil_or_concat front).resolve_left h
  rw [List.concat_eq_append, carried_concat, carried_append, List.map_append]
  rfl

/-- A line that goes on makes the front longer. -/
theorem push_of_goesOn {line : String} (h : goesOn line = true) (front : List String) :
    (waiting front).push line = (none, waiting (front ++ [line])) := by
  have hpending : (waiting front).pending.getD "" = carried front := by
    by_cases hfront : front = []
    · simp [waiting, hfront, carried]
    · simp [waiting, hfront]
  rw [push, if_pos (by simpa [goesOn] using h), hpending]
  simp [waiting, carried_concat, head]

/-- A line that does not go on ends the group. -/
theorem push_of_ends {line : String} (h : goesOn line = false) (front : List String) :
    (waiting front).push line = (some (Group.input ⟨front, some line⟩), new) := by
  rw [push, if_neg (by simpa [goesOn] using h)]
  by_cases hfront : front = []
  · simp [waiting, hfront, Group.input, contents]
  · simp [waiting, hfront, Group.input, ← carried_append, contents]

/-- The end of all lines ends the group of lines that wait. -/
theorem finish_waiting (front : List String) :
    (waiting front).finish = (((prepend front []).head?).map Group.input, new) := by
  by_cases hfront : front = []
  · simp [waiting, hfront, finish]
  · simp [waiting, hfront, finish, prepend, Group.input, carried_eq hfront]

/-- **Each push ends a group or makes its front longer.** What waits in the end is the front of a
group that was cut off. -/
theorem pushLines_waiting (front : List String) (lines : List String) :
    ∃ rest, (waiting front).pushLines lines
        = (((prepend front (cut lines)).filter Group.isClosed).map Group.input, waiting rest) ∧
      prepend front (cut lines) = (prepend front (cut lines)).filter Group.isClosed
        ++ prepend rest [] := by
  induction lines generalizing front with
  | nil =>
    refine ⟨front, ?_, ?_⟩
    all_goals
      by_cases hfront : front = []
      · simp [pushLines, cut, hfront]
      · simp [pushLines, cut, prepend, Group.isClosed, hfront]
  | cons line lines ih =>
    by_cases h : goesOn line = true
    · obtain ⟨rest, hpush, hcut⟩ := ih (front ++ [line])
      rw [pushLines_cons (push_of_goesOn h front), hpush, cut, if_pos h, ← prepend_append]
      exact ⟨rest, rfl, hcut⟩
    · obtain ⟨rest, hpush, hcut⟩ := ih []
      rw [prepend_nil] at hpush hcut
      have hends : prepend front (cut (line :: lines)) = ⟨front, some line⟩ :: cut lines := by
        rw [cut, if_neg h, prepend, List.append_nil]
      have hfilter : (prepend front (cut (line :: lines))).filter Group.isClosed
          = ⟨front, some line⟩ :: (cut lines).filter Group.isClosed := by
        rw [hends, List.filter_cons_of_pos rfl]
      refine ⟨rest, ?_, ?_⟩
      · have hnew : new = waiting [] := rfl
        rw [pushLines_cons (push_of_ends (by simpa using h) front), hnew, hpush, hfilter]
        rfl
      · rw [hfilter, hends, List.cons_append, ← hcut]

/-- The assembler has one input for each group. -/
theorem inputs_new (lines : List String) : new.inputs lines = (cut lines).map Group.input := by
  obtain ⟨rest, hpush, hcut⟩ := pushLines_waiting [] lines
  rw [prepend_nil] at hpush hcut
  have hnew : new = waiting [] := rfl
  have hend : ((prepend rest []).head?.map Group.input).toList
      = (prepend rest []).map Group.input := by
    by_cases hrest : rest = []
    · simp [hrest]
    · simp [prepend, hrest]
  rw [inputs, hnew, hpush, finish_waiting, hend, ← List.map_append, ← hcut]

end Assembler

/-! ### What a group says -/

/-- Whether an input is a command, and not a snippet. -/
def Input.isCommand : Input → Bool
  | .snippet _ => false
  | _ => true

theorem Input.isCommand_ofCommand (name rest : String) :
    (ofCommand name rest).isCommand = true := by
  rw [ofCommand]
  repeat' split
  all_goals rfl

/-- Trimming keeps the first character that is not blank. -/
theorem head?_trimChars (cs : List Char) :
    (Text.trimChars cs).head? = cs.find? fun c => !Text.isBlank c := by
  rw [List.find?_not_eq_head?_dropWhile, Text.trimChars, Text.dropWhileEnd]
  rcases h : cs.dropWhile Text.isBlank with _ | ⟨c, rest⟩
  · rfl
  · have hc : Text.isBlank c = false := by
      have := List.head?_dropWhile_not Text.isBlank cs
      simpa [h] using this
    rw [List.reverse_cons, List.dropWhile_append]
    split <;> simp [hc]

/-- **A line is a command iff its first character that is not blank is a colon.** -/
theorem isCommand_ofLine (line : String) : (Input.ofLine line).isCommand = true
    ↔ line.toList.find? (fun c => !Text.isBlank c) = some ':' := by
  rw [← head?_trimChars, Input.ofLine]
  split
  · rename_i command h
    simp [h, Input.isCommand_ofCommand]
  · rename_i hother
    rcases h : Text.trimChars line.toList with _ | ⟨c, rest⟩
    · simp [Input.isCommand]
    · have hc : c ≠ ':' := fun hc => hother rest (hc ▸ h)
      simp [Input.isCommand, hc]

/-- Any other line is a snippet as it stands. -/
theorem ofLine_of_not_isCommand {line : String} (h : (Input.ofLine line).isCommand = false) :
    Input.ofLine line = .snippet line := by
  rw [Input.ofLine] at h ⊢
  split at h
  · rw [Input.isCommand_ofCommand] at h
    cases h
  · rfl

/-- A group is a command only if it is one line. -/
theorem Group.isCommand_input (g : Group) : g.input.isCommand = true
    ↔ ∃ line, g = ⟨[], some line⟩
      ∧ (contents line).toList.find? (fun c => !Text.isBlank c) = some ':' := by
  obtain ⟨front, last⟩ := g
  cases last with
  | none => simp [Group.input, Input.isCommand]
  | some line =>
    by_cases hfront : front = []
    · simp [Group.input, hfront, isCommand_ofLine]
    · simp [Group.input, hfront, Input.isCommand]

/-! ### Sessions -/

namespace Session

/-- The session after inputs, up to the one that ends it. -/
def processUntilQuit (s : Session σ) : List Input → Session σ
  | [] => s
  | input :: inputs =>
    match s.process input with
    | none => s
    | some (_, s) => s.processUntilQuit inputs

/-- **A session does the inputs of its lines** and then prints what is new. -/
theorem run_encode (s : Session σ) (a : Assembler) (printed : String) (lines : List String) :
    (s.run a printed (lines.map Text.encode)).2
      = (.over, (s.processUntilQuit (a.inputs lines)).flush.2) := by
  induction lines generalizing s a printed with
  | nil =>
    rw [List.map_nil, run, runEnd]
    rcases h : a.finish with ⟨_ | input, b⟩
    · simp [Assembler.inputs, Assembler.pushLines, h, processUntilQuit, finish]
    · rcases hprocess : s.process input with _ | ⟨text, s'⟩
      · simp [Assembler.inputs, Assembler.pushLines, h, hprocess, processUntilQuit, finish]
      · simp [Assembler.inputs, Assembler.pushLines, h, hprocess, processUntilQuit, finish]
  | cons line lines ih =>
    rw [List.map_cons, run, Text.decode?_encode]
    rcases h : a.push line with ⟨_ | input, b⟩
    · have hinputs : a.inputs (line :: lines) = b.inputs lines := by
        rw [Assembler.inputs, Assembler.pushLines_cons h]
        rfl
      rw [hinputs]
      simp only [h]
      exact ih s b _
    · have hinputs : a.inputs (line :: lines) = input :: b.inputs lines := by
        rw [Assembler.inputs, Assembler.pushLines_cons h]
        rfl
      rw [hinputs, processUntilQuit]
      simp only [h]
      rcases hprocess : s.process input with _ | ⟨text, s'⟩
      · rfl
      · exact ih s' b _

end Session

/-! ### The main statement -/

/-- **Lines become one input for each group, in order, and no other.** Pushing the lines gives the
inputs of the groups that a line ends; the end of all lines gives the input of the group that is
left, and then nothing waits and nothing is left. An input is a command only if its group is one
line whose first character that is not blank is a colon; any other line of its own is a snippet as
it stands. A session does these inputs up to the first that ends it. -/
theorem inputs_one_per_group (lines : List String) :
    ∃ groups, (∀ groups', IsCut lines groups' ↔ groups' = groups) ∧
      Assembler.new.inputs lines = groups.map Group.input ∧
      (Assembler.new.pushLines lines).1 = (groups.filter Group.isClosed).map Group.input ∧
      ((Assembler.new.pushLines lines).2.isContinuing = true ↔ ∃ g ∈ groups, g.isClosed = false) ∧
      (Assembler.new.pushLines lines).2.finish.2 = .new ∧
      Assembler.new.isContinuing = false ∧ Assembler.new.finish.1 = none ∧
      (∀ g ∈ groups, g.input.isCommand = true ↔ ∃ line, g = ⟨[], some line⟩ ∧
        (contents line).toList.find? (fun c => !Text.isBlank c) = some ':') ∧
      (∀ line, ⟨[], some line⟩ ∈ groups → (Input.ofLine (contents line)).isCommand = false →
        Group.input ⟨[], some line⟩ = .snippet (contents line)) ∧
      ∀ (σ : Type) (s : Session σ) (printed : String),
        (s.run .new printed (lines.map Text.encode)).2
          = (.over, (s.processUntilQuit (groups.map Group.input)).flush.2) := by
  obtain ⟨rest, hpush, hcut⟩ := Assembler.pushLines_waiting [] lines
  rw [prepend_nil] at hpush hcut
  have hnew : Assembler.new = Assembler.waiting [] := rfl
  refine ⟨cut lines, fun _ => isCut_iff, Assembler.inputs_new lines, ?_, ?_, ?_, rfl, rfl,
    fun g _ => g.isCommand_input, ?_, ?_⟩
  · rw [hnew, hpush]
  · rw [hnew, hpush, Assembler.isContinuing_waiting, hcut]
    by_cases hrest : rest = []
    · simp [hrest]
    · simp [prepend, hrest, Group.isClosed]
  · rw [hnew, hpush, Assembler.finish_waiting, hnew]
  · intro line _ hline
    rw [Group.input_of_nil, ofLine_of_not_isCommand hline]
  · intro σ s printed
    rw [s.run_encode, Assembler.inputs_new]

/-- What looks like a command is text of a snippet if a line before it goes on. -/
example : Assembler.new.inputs ["a\\\r\n", ":quit\n", ":quit\n", "x\\"]
    = [.snippet "a\n:quit", .quit, .snippet "x\n"] := by
  decide +kernel

end CommandLine
end SnippetConsole
