/-
# The history of a session

What an input does to the history depends on the history and the input alone (`History.after`,
`history_processAll`):

| input | history |
| --- | --- |
| a snippet | its text replaces that of the slot under the cursor; if it is not blank, it is submitted |
| `:again` | the cursor goes one slot back; if that slot is not blank, it is submitted |
| any other | as it was |

Whatever the inputs, the slots that are not blank are the commands so far, in order, and none of them
is at or behind the cursor (`Recorded`). So `:again` runs the newest command or nothing at all.

At a prompt there is more to expect: the cursor on the last slot, and before it the commands and
nothing else (`Exact`). A blank snippet stays in the last slot without being submitted, and `:again`
then commits it with the slot. The expectation holds at all prompts exactly if `:again` never meets
such a leftover (`exact_iff_undisturbed`).
-/

import SnippetConsole.CommandLine.Session
import SnippetConsole.Proofs.Submission
import Mathlib.Data.List.Induction

namespace SnippetConsole

open CommandLine (Input)

namespace History

/-! ### What inputs do to a history -/

/-- The history after an input. -/
def after (h : History) : Input → History
  | .snippet code =>
    if Text.isBlankText code then h.setCurrent code else (h.setCurrent code).submit
  | .again =>
    match h.previous? with
    | none => h
    | some g => if Text.isBlankText g.current then g else g.submit
  | _ => h

/-- The history after inputs. -/
def afterAll (h : History) (inputs : List Input) : History := inputs.foldl after h

/-- The text that an input runs. -/
def executed? (h : History) : Input → Option String
  | .snippet code => if Text.isBlankText code then none else some code
  | .keep code => if Text.isBlankText code then none else some code
  | .again => h.previous?.bind fun g => if Text.isBlankText g.current then none else some g.current
  | _ => none

/-- The command that an input adds: a snippet that is not blank. -/
def command? : Input → Option String
  | .snippet code => if Text.isBlankText code then none else some code
  | _ => none

/-- The commands among inputs. -/
def commands (inputs : List Input) : List String := inputs.filterMap command?

theorem commands_concat (inputs : List Input) (input : Input) :
    commands (inputs ++ [input]) = commands inputs ++ (command? input).toList := by
  rw [commands, List.filterMap_append, commands]
  cases h : command? input with
  | none => simp [h]
  | some code => simp [h]

/-- Other inputs add no command. -/
theorem commands_concat_of_none {inputs : List Input} {input : Input}
    (h : command? input = none) : commands (inputs ++ [input]) = commands inputs := by
  rw [commands_concat, h]
  exact List.append_nil _

/-- A command is not blank. -/
theorem isBlankText_of_mem_commands {inputs : List Input} {code : String}
    (h : code ∈ commands inputs) : Text.isBlankText code = false := by
  obtain ⟨input, -, hinput⟩ := List.mem_filterMap.1 h
  cases input with
  | snippet text =>
    rw [command?] at hinput
    split at hinput
    · cases hinput
    · rename_i hblank
      obtain rfl := Option.some.inj hinput
      simpa using hblank
  | _ => cases hinput

/-! ### Submitted slots -/

/-- The slots after a submission: the last one is empty. -/
def rolled (slots : List String) : List String :=
  if slots.getLast? = some "" then slots.dropLast else slots

/-- **A submission puts the cursor on an empty last slot.** -/
theorem submit_eq (h : History) : h.submit = ⟨(rolled h.slots).reverse, "", []⟩ := by
  rw [submit, rolled]
  by_cases hlast : h.slots.getLast? = some ""
  · rw [if_pos hlast, if_pos hlast, atLast, hlast]
    rfl
  · rw [if_neg hlast, if_neg hlast, atLast]
    simp

/-- The text is not blank. -/
def isCommand (text : String) : Bool := !Text.isBlankText text

/-- Rolling takes and adds blank slots only. -/
theorem filter_rolled (slots : List String) :
    (rolled slots).filter isCommand = slots.filter isCommand := by
  rw [rolled]
  split
  · rename_i hlast
    obtain ⟨init, rfl⟩ := List.getLast?_eq_some_iff.1 hlast
    rw [List.dropLast_concat, List.filter_append]
    exact (List.append_nil _).symm
  · rfl

/-- What lies around the cursor after it went back. -/
theorem previous?_eq_some {h g : History} :
    h.previous? = some g ↔ h.earlier = g.current :: g.earlier ∧ g.later = h.current :: h.later := by
  obtain ⟨earlier, current, later⟩ := h
  obtain ⟨earlier', current', later'⟩ := g
  cases earlier with
  | nil => simp [previous?]
  | cons text earlier =>
    simp only [previous?, Option.some.injEq, mk.injEq, List.cons.injEq]
    constructor
    · rintro ⟨rfl, rfl, rfl⟩
      exact ⟨⟨rfl, rfl⟩, rfl⟩
    · rintro ⟨⟨rfl, rfl⟩, rfl⟩
      exact ⟨rfl, rfl, rfl⟩

/-! ### What holds whatever the inputs -/

/-- The slots that are not blank are the commands, and they are before the cursor. -/
structure Recorded (h : History) (inputs : List Input) : Prop where
  commands_eq : h.earlier.reverse.filter isCommand = commands inputs
  blank : ∀ text ∈ h.current :: h.later, Text.isBlankText text = true
  earlier_eq_nil : commands inputs = [] → h.earlier = []

theorem recorded_new : new.Recorded [] where
  commands_eq := rfl
  blank := by decide
  earlier_eq_nil _ := rfl

/-- After the submission of slots with a command. -/
theorem recorded_submit {h : History} {inputs : List Input}
    (hslots : h.slots.filter isCommand = commands inputs) (hsome : commands inputs ≠ []) :
    h.submit.Recorded inputs := by
  rw [submit_eq]
  refine ⟨?_, fun text htext => ?_, fun hnone => absurd hnone hsome⟩
  · rw [List.reverse_reverse, filter_rolled, hslots]
  · obtain rfl := List.mem_singleton.1 htext
    rfl

theorem filter_eq_nil_of_blank {texts : List String}
    (h : ∀ text ∈ texts, Text.isBlankText text = true) : texts.filter isCommand = [] := by
  refine List.filter_eq_nil_iff.2 fun text htext => ?_
  simp [isCommand, h text htext]

theorem Recorded.filter_slots {h : History} {inputs : List Input} (hr : h.Recorded inputs) :
    h.slots.filter isCommand = commands inputs := by
  rw [History.slots, List.filter_append, filter_eq_nil_of_blank hr.blank, List.append_nil,
    hr.commands_eq]

/-- Inputs with the same commands have the same record. -/
theorem Recorded.of_commands_eq {h : History} {inputs inputs' : List Input} (hr : h.Recorded inputs)
    (heq : commands inputs' = commands inputs) : h.Recorded inputs' :=
  ⟨heq ▸ hr.commands_eq, hr.blank, fun hnone => hr.earlier_eq_nil (heq ▸ hnone)⟩

theorem Recorded.after_snippet {h : History} {inputs : List Input} (hr : h.Recorded inputs)
    (code : String) : (h.after (.snippet code)).Recorded (inputs ++ [.snippet code]) := by
  obtain ⟨-, hlater⟩ := List.forall_mem_cons.1 hr.blank
  rcases hblank : Text.isBlankText code with _ | _
  · have hnew : commands (inputs ++ [.snippet code]) = commands inputs ++ [code] := by
      rw [commands_concat, command?, if_neg (by simp [hblank])]
      rfl
    have hcommand : isCommand code = true := by simp [isCommand, hblank]
    rw [History.after, if_neg (by simp [hblank])]
    refine recorded_submit ?_ (by simp [hnew])
    rw [hnew, History.slots, List.filter_append]
    show h.earlier.reverse.filter isCommand ++ (code :: h.later).filter isCommand = _
    rw [hr.commands_eq, List.filter_cons_of_pos hcommand, filter_eq_nil_of_blank hlater]
  · -- a blank text takes the place of a blank text
    have hkept : (h.setCurrent code).Recorded inputs :=
      ⟨hr.commands_eq, List.forall_mem_cons.2 ⟨hblank, hlater⟩, hr.earlier_eq_nil⟩
    rw [History.after, if_pos hblank]
    exact hkept.of_commands_eq (commands_concat_of_none (by rw [command?, if_pos hblank]))

theorem Recorded.after_again {h : History} {inputs : List Input} (hr : h.Recorded inputs) :
    (h.after .again).Recorded inputs := by
  rw [History.after]
  rcases hprevious : h.previous? with _ | g
  · exact hr
  · obtain ⟨hearlier, hlater⟩ := previous?_eq_some.1 hprevious
    have hsome : commands inputs ≠ [] := by
      intro hnone
      have hnil := hr.earlier_eq_nil hnone
      rw [hearlier] at hnil
      cases hnil
    dsimp only
    by_cases hblank : Text.isBlankText g.current = true
    · rw [if_pos hblank]
      have hcommands := hr.commands_eq
      have hgone : [g.current].filter isCommand = [] := by simp [isCommand, hblank]
      rw [hearlier, List.reverse_cons, List.filter_append, hgone, List.append_nil] at hcommands
      refine ⟨hcommands, ?_, fun hnone => absurd hnone hsome⟩
      rw [hlater]
      exact List.forall_mem_cons.2 ⟨hblank, hr.blank⟩
    · rw [if_neg hblank]
      refine recorded_submit ?_ hsome
      rw [slots_previous? hprevious, hr.filter_slots]

/-- **One input keeps the record.** -/
theorem Recorded.after {h : History} {inputs : List Input} (hr : h.Recorded inputs)
    (input : Input) : (h.after input).Recorded (inputs ++ [input]) := by
  cases input with
  | snippet code => exact hr.after_snippet code
  | again => exact hr.after_again.of_commands_eq (commands_concat_of_none rfl)
  | _ => exact hr.of_commands_eq (commands_concat_of_none rfl)

theorem afterAll_concat (h : History) (inputs : List Input) (input : Input) :
    h.afterAll (inputs ++ [input]) = (h.afterAll inputs).after input := by
  rw [afterAll, List.foldl_append]
  rfl

/-- **Any inputs keep the record.** -/
theorem recorded_afterAll (inputs : List Input) : (new.afterAll inputs).Recorded inputs := by
  induction inputs using List.reverseRecOn with
  | nil => exact recorded_new
  | append_singleton inputs input ih =>
    rw [afterAll_concat]
    exact ih.after input

/-- `:again` runs nothing, or the newest command. -/
theorem Recorded.executed?_again {h : History} {inputs : List Input} (hr : h.Recorded inputs) :
    h.executed? .again = none ∨ h.executed? .again = (commands inputs).getLast? := by
  rw [executed?]
  rcases hprevious : h.previous? with _ | g
  · exact .inl rfl
  · rw [Option.bind_some]
    by_cases hblank : Text.isBlankText g.current = true
    · rw [if_pos hblank]
      exact .inl rfl
    · rw [if_neg hblank]
      have hcommand : isCommand g.current = true := by simpa [isCommand] using hblank
      refine .inr ?_
      rw [← hr.commands_eq, (previous?_eq_some.1 hprevious).1, List.reverse_cons,
        List.filter_append, List.filter_cons_of_pos hcommand, List.filter_nil, List.getLast?_concat]

/-! ### What is expected at a prompt -/

/-- The cursor is on the last slot, and before it are the commands and nothing else. -/
structure Exact (h : History) (inputs : List Input) : Prop where
  cursor : h.cursor + 1 = h.slots.length
  slots : h.slots.dropLast = commands inputs

/-- The text that is left in the last slot by an input, if `text` was there. -/
def leftoverAfter (text : String) : Input → String
  | .snippet code => if Text.isBlankText code then code else ""
  | _ => text

/-- The text that inputs leave in the last slot: that of the newest snippet if it is blank. -/
def leftover (inputs : List Input) : String := inputs.foldl leftoverAfter ""

/-- No command is run again while a blank text is left in the last slot. -/
def Undisturbed (inputs : List Input) : Prop :=
  ∀ before later, inputs = before ++ .again :: later → commands before = [] ∨ leftover before = ""

/-- Whether inputs are so can be told from the places of `:again` among them. -/
instance : DecidablePred Undisturbed := fun inputs =>
  decidable_of_iff
    (∀ n < inputs.length, inputs[n]? = some .again →
      commands (inputs.take n) = [] ∨ leftover (inputs.take n) = "") <| by
    constructor
    · rintro h before later rfl
      have hat := h before.length (by simp) (by simp)
      rwa [List.take_left] at hat
    · intro h n hn hagain
      refine h (inputs.take n) (inputs.drop (n + 1)) ?_
      obtain ⟨hlt, heq⟩ := List.getElem?_eq_some_iff.1 hagain
      rw [← heq, ← List.drop_eq_getElem_cons hlt, List.take_append_drop]

theorem leftover_concat (inputs : List Input) (input : Input) :
    leftover (inputs ++ [input]) = leftoverAfter (leftover inputs) input := by
  rw [leftover, List.foldl_append]
  rfl

theorem undisturbed_nil : Undisturbed [] := by
  intro before later heq
  exact absurd heq.symm (List.append_ne_nil_of_right_ne_nil _ (List.cons_ne_nil _ _))

theorem undisturbed_concat {inputs : List Input} {input : Input} :
    Undisturbed (inputs ++ [input]) ↔
      Undisturbed inputs ∧ (input = .again → commands inputs = [] ∨ leftover inputs = "") := by
  constructor
  · intro h
    refine ⟨fun before later heq => h before (later ++ [input]) (by simp [heq]), ?_⟩
    rintro rfl
    exact h inputs [] rfl
  · rintro ⟨hinputs, hlast⟩ before later heq
    rcases List.eq_nil_or_concat later with rfl | ⟨later, last, rfl⟩
    · obtain ⟨rfl, hinput⟩ := List.append_inj' heq rfl
      exact hlast (List.singleton_inj.1 hinput)
    · refine hinputs before later ?_
      have hsplit : inputs ++ [input] = (before ++ .again :: later) ++ [last] := by simp [heq]
      exact (List.append_inj' hsplit rfl).1

/-- The history with the commands before the cursor and the leftover under it. -/
def expected (inputs : List Input) : History := ⟨(commands inputs).reverse, leftover inputs, []⟩

theorem slots_expected (inputs : List Input) :
    (expected inputs).slots = commands inputs ++ [leftover inputs] := by
  rw [expected, slots, List.reverse_reverse]

theorem exact_expected (inputs : List Input) : (expected inputs).Exact inputs where
  cursor := by rw [slots_expected, cursor, expected, List.length_reverse, List.length_append]; rfl
  slots := by rw [slots_expected, List.dropLast_concat]

/-- With a command before the cursor, `:again` submits the slots as they are. -/
theorem after_again_expected {inputs : List Input} (h : commands inputs ≠ []) :
    (expected inputs).after .again
      = ⟨(rolled (commands inputs ++ [leftover inputs])).reverse, "", []⟩ := by
  obtain ⟨init, code, hcommands⟩ := (List.eq_nil_or_concat (commands inputs)).resolve_left h
  have hprevious : (expected inputs).previous? = some ⟨init.reverse, code, [leftover inputs]⟩ := by
    simp [previous?, expected, hcommands]
  have hmem : code ∈ commands inputs := by simp [hcommands]
  have hcode := isBlankText_of_mem_commands hmem
  rw [after, hprevious]
  dsimp only
  rw [if_neg (by simp [hcode]), submit_eq, slots_previous? hprevious, slots_expected]

/-- **One input keeps to what is expected,** unless it commits a leftover. -/
theorem after_expected {inputs : List Input} {input : Input}
    (h : input = .again → commands inputs = [] ∨ leftover inputs = "") :
    (expected inputs).after input = expected (inputs ++ [input]) := by
  have hother (hcommand : command? input = none) (hleft : leftoverAfter (leftover inputs) input
      = leftover inputs) : expected (inputs ++ [input]) = expected inputs := by
    rw [expected, commands_concat_of_none hcommand, leftover_concat, hleft, expected]
  cases input with
  | snippet code =>
    by_cases hblank : Text.isBlankText code = true
    · rw [after, if_pos hblank, expected, expected, commands_concat, leftover_concat, command?,
        if_pos hblank, leftoverAfter, if_pos hblank]
      simp [setCurrent]
    · have hne : code ≠ "" := by
        rintro rfl
        exact hblank rfl
      have hslots : ((expected inputs).setCurrent code).slots = commands inputs ++ [code] := by
        simp [expected, setCurrent, slots]
      rw [after, if_neg hblank, submit_eq, hslots, rolled, if_neg (by simpa using hne), expected,
        commands_concat, leftover_concat, command?, if_neg hblank, leftoverAfter, if_neg hblank]
      rfl
  | again =>
    rw [hother rfl rfl]
    by_cases hcommands : commands inputs = []
    · simp [after, previous?, expected, hcommands]
    · have hleft : leftover inputs = "" := (h rfl).resolve_left hcommands
      rw [after_again_expected hcommands, rolled, hleft, if_pos List.getLast?_concat,
        List.dropLast_concat, expected, hleft]
  | _ => exact (hother rfl rfl).symm

/-- Undisturbed inputs lead to what is expected. -/
theorem afterAll_of_undisturbed {inputs : List Input} (h : Undisturbed inputs) :
    new.afterAll inputs = expected inputs := by
  induction inputs using List.reverseRecOn with
  | nil => rfl
  | append_singleton inputs input ih =>
    obtain ⟨hinputs, hinput⟩ := undisturbed_concat.1 h
    rw [afterAll_concat, ih hinputs, after_expected hinput]

/-- **The expectation holds at all prompts exactly if no leftover is committed.** -/
theorem exact_iff_undisturbed (inputs : List Input) :
    (∀ before, before <+: inputs → (new.afterAll before).Exact before) ↔ Undisturbed inputs := by
  constructor
  · intro h
    induction inputs using List.reverseRecOn with
    | nil => exact undisturbed_nil
    | append_singleton inputs input ih =>
      have hinputs := ih fun before hbefore => h before (hbefore.trans (List.prefix_append _ _))
      refine undisturbed_concat.2 ⟨hinputs, ?_⟩
      rintro rfl
      by_contra hboth
      obtain ⟨hsome, hleft⟩ := not_or.1 hboth
      -- the leftover is then among the slots before the last one
      have hslots := (h _ (List.prefix_refl _)).slots
      rw [afterAll_concat, afterAll_of_undisturbed hinputs, after_again_expected hsome, rolled,
        if_neg (by simpa using hleft), commands_concat] at hslots
      simp [slots, command?] at hslots
  · intro h before hbefore
    obtain ⟨later, rfl⟩ := hbefore
    have hundisturbed : Undisturbed before := fun b l heq => h b (l ++ later) (by simp [heq])
    rw [afterAll_of_undisturbed hundisturbed]
    exact exact_expected before

/-- There, `:again` runs the newest command. -/
theorem executed?_again_of_undisturbed {inputs : List Input} (h : Undisturbed inputs) :
    (new.afterAll inputs).executed? .again = (commands inputs).getLast? := by
  rw [afterAll_of_undisturbed h, executed?]
  rcases List.eq_nil_or_concat (commands inputs) with hnone | ⟨init, code, hcommands⟩
  · simp [previous?, expected, hnone]
  · have hmem : code ∈ commands inputs := by simp [hcommands]
    have hcode := isBlankText_of_mem_commands hmem
    simp [previous?, expected, hcommands, hcode]

end History

/-! ### Sessions -/

namespace CommandLine
namespace Session

open History (Exact Undisturbed commands)

variable {σ : Type}

/-- The session after inputs, if none of them ends it. -/
def processAll (s : Session σ) : List Input → Option (Session σ)
  | [] => some s
  | input :: inputs => (s.process input).bind fun r => r.2.processAll inputs

/-- The session with a list of the units that its executor is called with, empty at first. -/
def listing (s : Session σ) : Session (List Snippet.SourceUnit × σ) where
  console := s.console.listing
  printer := s.printer
  settings := s.settings
  settingsFile := s.settingsFile
  store settings path state :=
    let (result, inner) := s.store settings path state.2
    (result, state.1, inner)

/-- The units that the executor is called with in the course of an input. -/
def calls (s : Session σ) (input : Input) : List Snippet.SourceUnit :=
  match s.listing.process input with
  | none => []
  | some (_, after) => after.console.state.1

/-- A submission that rolls. -/
theorem history_submit_roll (c : Console σ) :
    (c.submit .roll).2.history =
      if Text.isBlankText c.commandLine then c.history else c.history.submit := by
  rcases hblank : Text.isBlankText c.commandLine with _ | _
  · rw [Console.submit_of_command hblank .roll rfl]
    rfl
  · rw [Console.submit_of_blank hblank]
    rfl

/-- One that does not. -/
theorem history_submit_keep (c : Console σ) : (c.submit .keep).2.history = c.history := by
  rcases hblank : Text.isBlankText c.commandLine with _ | _
  · rw [Console.submit_of_command hblank .keep rfl]
    rfl
  · rw [Console.submit_of_blank hblank]

/-- Saving settings leaves the history alone. -/
theorem history_saveSettings (s : Session σ) :
    s.saveSettings.console.history = s.console.history := by
  unfold saveSettings
  rcases s.store s.settings s.settingsFile s.console.state with ⟨result, state⟩
  cases result with
  | ok _ => rfl
  | error fault => rfl

/-- **What an input does to the history** depends on nothing else. -/
theorem history_act {s s' : Session σ} {input : Input} {said : String}
    (h : s.act input = some (said, s')) :
    s'.console.history = s.console.history.after input := by
  cases input with
  | snippet code =>
    cases h
    exact history_submit_roll (s.console.setCommandLine code)
  | keep code =>
    cases h
    have hkept := history_submit_keep (s.console.setCommandLine code)
    show ((s.console.setCommandLine code).submit .keep).2.history.setCurrent _ = _
    rw [hkept]
    rfl
  | again =>
    rw [act, Option.some.injEq, runAgain] at h
    rw [History.after]
    rcases hprevious : s.console.history.previous? with _ | g
    · rw [hprevious] at h
      cases h
      rfl
    · rw [hprevious] at h
      cases h
      exact history_submit_roll { s.console with history := g }
  | save =>
    cases h
    exact history_saveSettings s
  | quit => cases h
  | history => cases h; rfl
  | clear => cases h; rfl
  | reset => cases h; rfl
  | help => cases h; rfl
  | unknown name => cases h; rfl

/-- Printing leaves the console alone. -/
theorem process_eq_some {s s' : Session σ} {input : Input} {text : String} :
    s.process input = some (text, s') ↔
      ∃ said s₁, s.act input = some (said, s₁) ∧ text = said ++ s₁.flush.1 ∧ s' = s₁.flush.2 := by
  rw [process, Option.map_eq_some_iff]
  constructor
  · rintro ⟨⟨said, s₁⟩, hact, heq⟩
    cases heq
    exact ⟨said, s₁, hact, rfl, rfl⟩
  · rintro ⟨said, s₁, hact, rfl, rfl⟩
    exact ⟨(said, s₁), hact, rfl⟩

/-- **Inputs change the history one after the other.** -/
theorem history_processAll {s s' : Session σ} {inputs : List Input}
    (h : s.processAll inputs = some s') :
    s'.console.history = s.console.history.afterAll inputs := by
  induction inputs generalizing s with
  | nil =>
    cases h
    rfl
  | cons input inputs ih =>
    obtain ⟨⟨text, s₁⟩, hprocess, hrest⟩ := Option.bind_eq_some_iff.1 h
    obtain ⟨said, s₂, hact, -, rfl⟩ := process_eq_some.1 hprocess
    rw [ih hrest]
    show (s₂.console.history).afterAll inputs = _
    rw [history_act hact]
    rfl

/-- The units listed in the course of an input. -/
theorem calls_of_act {s : Session σ} {input : Input} {said : String}
    {s₁ : Session (List Snippet.SourceUnit × σ)} (h : s.listing.act input = some (said, s₁)) :
    s.calls input = s₁.console.state.1 := by
  rw [calls, process_eq_some.2 ⟨said, s₁, h, rfl, rfl⟩]
  rfl

/-- Saving settings calls no executor. -/
theorem calls_save (s : Session σ) : s.calls .save = [] := by
  refine (calls_of_act rfl).trans ?_
  rw [saveSettings]
  rcases hstore : s.store s.settings s.settingsFile s.console.state with ⟨result, state⟩
  have hlisting : s.listing.store s.listing.settings s.listing.settingsFile s.listing.console.state
      = (result, [], state) := by
    show ((s.store s.settings s.settingsFile s.console.state).1, [],
      (s.store s.settings s.settingsFile s.console.state).2) = _
    rw [hstore]
  rw [hlisting]
  cases result with
  | ok _ => rfl
  | error fault => rfl

/-- **What an input runs** can be told from the history, and it runs once. -/
theorem calls_eq (s : Session σ) (input : Input) :
    s.calls input
      = ((s.console.history.executed? input).map s.console.template.wrap).toList := by
  have hsubmitted (code : String) :
      (if Text.isBlankText code then [] else [s.console.template.wrap code]) =
        ((if Text.isBlankText code then none else some code).map
          s.console.template.wrap).toList := by
    rcases Text.isBlankText code with _ | _
    · rfl
    · rfl
  cases input with
  | snippet code =>
    exact ((s.console.setCommandLine code).calls_submit .roll).trans (hsubmitted code)
  | keep code =>
    exact ((s.console.setCommandLine code).calls_submit .keep).trans (hsubmitted code)
  | again =>
    rw [History.executed?]
    rcases hprevious : s.console.history.previous? with _ | g
    · have hact : s.listing.act .again = some (noPreviousCommand, s.listing) := by
        show some s.listing.runAgain = _
        rw [runAgain, show s.listing.console.history = s.console.history from rfl, hprevious]
      exact calls_of_act hact
    · have hact : s.listing.act .again = some ("", { s.listing with
          console := ({ s.console with history := g }.listing.submit .roll).2 }) := by
        show some s.listing.runAgain = _
        rw [runAgain, show s.listing.console.history = s.console.history from rfl, hprevious]
        rfl
      refine (calls_of_act hact).trans ?_
      exact (Console.calls_submit { s.console with history := g } .roll).trans
        (hsubmitted g.current)
  | save => exact calls_save s
  | quit => rfl
  | history => rfl
  | clear => rfl
  | reset => rfl
  | help => rfl
  | unknown name => rfl

/-- Nothing is said or run again without a command. -/
theorem act_again_of_none {s : Session σ} (h : s.console.history.previous? = none) :
    s.act .again = some (noPreviousCommand, s) := by
  rw [act, runAgain, h]

theorem processAll_append (s : Session σ) (inputs more : List Input) :
    s.processAll (inputs ++ more) = (s.processAll inputs).bind fun s' => s'.processAll more := by
  induction inputs generalizing s with
  | nil => rfl
  | cons input inputs ih =>
    rw [List.cons_append, processAll, processAll, Option.bind_assoc]
    exact Option.bind_congr fun r _ => ih r.2

/-- **What the history of a session says.** Whatever the inputs: the slots that are not blank are the
commands so far; `:again` runs the newest of them or nothing, and without any it says so and changes
nothing. If no leftover was committed, and only then, at each prompt so far the cursor was on the last
slot and before it were the commands and nothing else; then `:again` runs the newest one. -/
theorem history_of_processAll {s₀ s : Session σ} (hnew : s₀.console.history = .new)
    {inputs : List Input} (hrun : s₀.processAll inputs = some s) :
    s.console.history.slots.filter History.isCommand = commands inputs ∧
    (s.calls .again = [] ∨
      ∃ code, (commands inputs).getLast? = some code ∧
        s.calls .again = [s.console.template.wrap code]) ∧
    (commands inputs = [] →
      s.process .again = some (noPreviousCommand ++ s.flush.1, s.flush.2) ∧
        s.calls .again = []) ∧
    ((∀ before s', before <+: inputs → s₀.processAll before = some s' →
        s'.console.history.Exact before) ↔ Undisturbed inputs) ∧
    (Undisturbed inputs → ∀ code, (commands inputs).getLast? = some code →
      s.calls .again = [s.console.template.wrap code]) := by
  have hhistory {inputs : List Input} {s : Session σ} (h : s₀.processAll inputs = some s) :
      s.console.history = History.new.afterAll inputs := hnew ▸ history_processAll h
  have hrecorded := History.recorded_afterAll inputs
  rw [← hhistory hrun] at hrecorded
  refine ⟨hrecorded.filter_slots, ?_, fun hnone => ?_, ?_, fun hundisturbed code hcode => ?_⟩
  · rw [calls_eq]
    rcases hrecorded.executed?_again with hnone | hnewest
    · exact .inl (by rw [hnone]; rfl)
    · rcases hlast : (commands inputs).getLast? with _ | code
      · exact .inl (by rw [hnewest, hlast]; rfl)
      · exact .inr ⟨code, rfl, by rw [hnewest, hlast]; rfl⟩
  · have hprevious : s.console.history.previous? = none := by
      rw [History.previous?, hrecorded.earlier_eq_nil hnone]
    refine ⟨process_eq_some.2 ⟨_, s, act_again_of_none hprevious, rfl, rfl⟩, ?_⟩
    rw [calls_eq, History.executed?, hprevious]
    rfl
  · rw [← History.exact_iff_undisturbed]
    constructor
    · intro h before hbefore
      obtain ⟨later, rfl⟩ := hbefore
      rw [processAll_append] at hrun
      obtain ⟨s', hs', -⟩ := Option.bind_eq_some_iff.1 hrun
      rw [← hhistory hs']
      exact h before s' (List.prefix_append _ _) hs'
    · intro h before s' hbefore hs'
      rw [hhistory hs']
      exact h before hbefore
  · rw [calls_eq, hhistory hrun, History.executed?_again_of_undisturbed hundisturbed, hcode]
    rfl

/-- A session whose executor does nothing. -/
def idleSession : Session Unit where
  console := .new .standard .standard (fun _ state => (⟨[], .done⟩, state)) ()
  printer := .new "\x7b\x7bmessage\x7d\x7d"
  settings := .standard
  settingsFile := []
  store _ _ state := (.ok ⟨⟩, state)

/-- Empty lines and kept snippets are no commands: the newest one is `x`. -/
theorem history_idleSession :
    ∃ s, idleSession.processAll [.snippet "x", .snippet "", .keep "y", .again] = some s ∧
      Undisturbed [.snippet "x", .snippet "", .keep "y", .again] ∧
      s.console.history.slots.filter History.isCommand = ["x"] ∧
      s.calls .again = [s.console.template.wrap "x"] := by
  obtain ⟨s, hrun⟩ : ∃ s, idleSession.processAll
      [.snippet "x", .snippet "", .keep "y", .again] = some s := ⟨_, rfl⟩
  have hundisturbed : Undisturbed [.snippet "x", .snippet "", .keep "y", .again] := by decide
  obtain ⟨hslots, -, -, -, hagain⟩ := history_of_processAll rfl hrun
  exact ⟨s, hrun, hundisturbed, hslots, hagain hundisturbed "x" rfl⟩

/-- A line of two spaces is no command either, but `:again` commits it: it comes to stand behind
`x`, and the next `:again` runs nothing. -/
theorem slots_idleSession_of_leftover :
    ∃ s, idleSession.processAll [.snippet "x", .snippet "  ", .again] = some s ∧
      commands [.snippet "x", .snippet "  ", .again] = ["x"] ∧
      s.console.history.slots.dropLast = ["x", "  "] ∧
      s.calls .again = [] :=
  ⟨_, rfl, by decide, by decide, rfl⟩

/-! ### Lines -/

end Session

namespace Assembler

/-- The inputs that raw lines complete, if all are text, and the assembler afterwards. -/
def pushAll (a : Assembler) : List Bytes → Option (List Input × Assembler)
  | [] => some ([], a)
  | line :: lines =>
    (Text.decode? line).bind fun text =>
      ((a.push text).2.pushAll lines).map fun (inputs, a') => ((a.push text).1.toList ++ inputs, a')

end Assembler

namespace Session

variable {σ : Type}

/-- **A session over lines processes the inputs that they complete,** and goes on from there. -/
theorem exists_run_append {s s' : Session σ} {a a' : Assembler} {lines : List Bytes}
    {inputs : List Input} (hread : a.pushAll lines = some (inputs, a'))
    (hrun : s.processAll inputs = some s') (printed : String) :
    ∃ printed', ∀ more, s.run a printed (lines ++ more) = s'.run a' printed' more := by
  induction lines generalizing s a inputs printed with
  | nil =>
    cases hread
    cases hrun
    exact ⟨printed, fun _ => rfl⟩
  | cons line lines ih =>
    obtain ⟨text, htext, hmap⟩ := Option.bind_eq_some_iff.1 hread
    obtain ⟨⟨inputs', a''⟩, hlines, heq⟩ := Option.map_eq_some_iff.1 hmap
    obtain ⟨rfl, rfl⟩ := Prod.mk.inj heq
    rcases hpush : a.push text with ⟨_ | input, a₁⟩
    · rw [hpush] at hlines hrun
      obtain ⟨printed', hmore⟩ := ih hlines hrun (printed ++ prompt a)
      refine ⟨printed', fun more => ?_⟩
      rw [List.cons_append, run, htext]
      simp only [hpush]
      exact hmore more
    · rw [hpush] at hlines hrun
      obtain ⟨⟨said, s₁⟩, hprocess, hrest⟩ := Option.bind_eq_some_iff.1 hrun
      obtain ⟨printed', hmore⟩ := ih hlines hrest (printed ++ prompt a ++ said)
      refine ⟨printed', fun more => ?_⟩
      rw [List.cons_append, run, htext]
      simp only [hpush, hprocess]
      exact hmore more

end Session
end CommandLine
end SnippetConsole
