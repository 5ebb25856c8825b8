/-
# Snippets that leave no mark

A `:keep` puts its snippet into the slot under the cursor, runs it from there and puts the old text
back. So the history is the same before and after it, whatever the slots, the cursor and the
execution are.

What the inputs of a session execute and say (`Session.deeds`) depends on the history they start from
and on nothing else (`Session.deeds_eq`): on no log, no settings and no state of the executor, all of
which a `:keep` may change. As it does not change the history, the other inputs execute and say the
same with it and without it (`History.filter_deeds`). What is executed is a unit of one file, the
frame of the template with the snippet in it (`Snippet.Template.wrap_eq`).
-/

import SnippetConsole.Proofs.CommandPlace
import SnippetConsole.Proofs.SessionHistory

namespace SnippetConsole

open CommandLine (Input)

namespace CommandLine

/-- Whether an input is a `:keep`. -/
def Input.isKeep : Input → Bool
  | .keep _ => true
  | _ => false

/-- What an input did: the units it had executed, and what it said itself. -/
structure Deed where
  input : Input
  units : List Snippet.SourceUnit
  said : String
  deriving DecidableEq, Repr

end CommandLine

open CommandLine (Deed)

namespace History

/-- What an input says, which depends on the history alone. -/
def said (h : History) : Input → String
  | .again => if h.previous?.isNone then CommandLine.Session.noPreviousCommand else ""
  | .history => CommandLine.Session.historyText h
  | .help => CommandLine.helpText ++ "\n"
  | _ => ""

/-- What inputs do from a history on, with a template for what is executed. -/
def deeds (template : Snippet.Template) (h : History) : List Input → List Deed
  | [] => []
  | input :: inputs =>
    if input = .quit then []
    else
      ⟨input, ((h.executed? input).map template.wrap).toList, h.said input⟩
        :: (h.after input).deeds template inputs

/-- **Without the `:keep`s the others do the same.** -/
theorem filter_deeds (template : Snippet.Template) (h : History) (inputs : List Input) :
    (h.deeds template inputs).filter (!·.input.isKeep)
      = h.deeds template (inputs.filter (!·.isKeep)) := by
  induction inputs generalizing h with
  | nil => rfl
  | cons input inputs ih =>
    rcases hkeep : input.isKeep with _ | _
    · rw [List.filter_cons_of_pos (by simp [hkeep]), deeds, deeds]
      by_cases hquit : input = .quit
      · rw [if_pos hquit, if_pos hquit, List.filter_nil]
      · rw [if_neg hquit, if_neg hquit, List.filter_cons_of_pos (by simp [hkeep]), ih]
    · rw [List.filter_cons_of_neg (by simp [hkeep]), ← ih, deeds]
      cases input with
      | keep code =>
        -- the history after it is the one before
        rw [if_neg nofun, List.filter_cons_of_neg (by simp [hkeep])]
        rfl
      | _ => cases hkeep

end History

namespace CommandLine
namespace Session

variable {σ : Type}

/-- What inputs do in a session, one after the other, up to the one that ends it. -/
def deeds (s : Session σ) : List Input → List Deed
  | [] => []
  | input :: inputs =>
    match s.act input with
    | none => []
    | some (said, s') => ⟨input, s.calls input, said⟩ :: s'.flush.2.deeds inputs

/-- Only `:quit` ends a session. -/
theorem act_eq_none_iff {s : Session σ} {input : Input} : s.act input = none ↔ input = .quit := by
  cases input <;> simp [act]

/-- What an input says can be told from the history. -/
theorem said_act {s s' : Session σ} {input : Input} {said : String}
    (h : s.act input = some (said, s')) : said = s.console.history.said input := by
  cases input with
  | again =>
    rw [act, Option.some.injEq, runAgain] at h
    rw [History.said]
    split at h
    · rename_i hnone
      cases h
      rw [hnone]
      rfl
    · rename_i hsome
      cases h
      rw [hsome]
      rfl
  | quit => cases h
  | _ =>
    cases h
    rfl

/-- A submission keeps the template. -/
theorem template_submit (c : Console σ) (mode : Console.Mode) :
    (c.submit mode).2.template = c.template := by
  rcases hblank : Text.isBlankText c.commandLine with _ | _
  · rw [Console.submit_of_command hblank mode rfl]
  · rw [Console.submit_of_blank hblank]

/-- So does every input. -/
theorem template_act {s s' : Session σ} {input : Input} {said : String}
    (h : s.act input = some (said, s')) : s'.console.template = s.console.template := by
  cases input with
  | snippet code =>
    cases h
    exact template_submit (s.console.setCommandLine code) .roll
  | keep code =>
    cases h
    exact template_submit (s.console.setCommandLine code) .keep
  | again =>
    rw [act, Option.some.injEq, runAgain] at h
    split at h
    · cases h
      rfl
    · rename_i g _
      cases h
      exact template_submit { s.console with history := g } .roll
  | save =>
    rw [act, Option.some.injEq, saveSettings] at h
    dsimp only at h
    split at h
    · cases h
      rfl
    · cases h
      rfl
  | quit => cases h
  | _ =>
    cases h
    rfl

/-- **What inputs do depends on the history and the template alone.** -/
theorem deeds_eq (s : Session σ) (inputs : List Input) :
    s.deeds inputs = s.console.history.deeds s.console.template inputs := by
  induction inputs generalizing s with
  | nil => rfl
  | cons input inputs ih =>
    rw [deeds, History.deeds]
    rcases hact : s.act input with _ | ⟨said, s'⟩
    · rw [if_pos (act_eq_none_iff.1 hact)]
    · have hquit : input ≠ .quit := fun hquit => by
        rw [act_eq_none_iff.2 hquit] at hact
        cases hact
      have hrest := ih s'.flush.2
      -- printing touches neither the history nor the template
      change _ = s'.console.history.deeds s'.console.template inputs at hrest
      rw [history_act hact, template_act hact] at hrest
      rw [if_neg hquit, calls_eq, said_act hact, ← hrest]

/-- **A `:keep` leaves no mark on the history.** Whatever the state of a session and its executor, the
snippet is executed once, as it is, if it is not blank, and nothing is executed if it is: the unit is
one file, the frame of the template with the snippet in it, verbatim. The session goes on, with the
slots and the cursor as they were. So two series of inputs that differ in their `:keep`s alone are the
same to all other inputs: these execute the same units and say the same. -/
theorem keep_leaves_no_mark (s : Session σ) :
    (∀ code,
      s.calls (.keep code)
          = (if Text.isBlankText code then []
            else [⟨[⟨"command_line.rs", s.console.template.render code⟩]⟩]) ∧
        code.toList <:+: (s.console.template.render code).toList ∧
        ∃ text s', s.process (.keep code) = some (text, s') ∧
          s'.console.history = s.console.history) ∧
    ∀ inputs inputs' : List Input,
      inputs.filter (!·.isKeep) = inputs'.filter (!·.isKeep) →
        (s.deeds inputs).filter (!·.input.isKeep) = (s.deeds inputs').filter (!·.input.isKeep) := by
  refine ⟨fun code => ⟨?_, s.console.template.infix_render code, ?_⟩,
    fun inputs inputs' hsame => ?_⟩
  · rw [calls_eq, History.executed?, ← Snippet.Template.wrap_eq]
    rcases Text.isBlankText code with _ | _
    · rfl
    · rfl
  · have hact : s.act (.keep code) = some ("", s.runKeeping code) := rfl
    exact ⟨_, _, process_eq_some.2 ⟨"", s.runKeeping code, hact, rfl, rfl⟩, history_act hact⟩
  · rw [deeds_eq, deeds_eq, History.filter_deeds, History.filter_deeds, hsame]

/-- A session whose cursor is between a command and a leftover of blanks, and whose executor first
clears the log and panics. -/
def recalledSession : Session Execution.Script where
  console :=
    { log := .standard
      history := ⟨["y"], "x", ["  "]⟩
      template := .standard
      executor := Execution.scripted
      state := ⟨[⟨[.clear], .panicked (.text "out of bounds")⟩], []⟩ }
  printer := .new "\x7b\x7bmessage\x7d\x7d"
  settings := .standard
  settingsFile := []
  store _ _ state := (.ok ⟨⟩, state)

/-- Two snippets that are kept, a blank one among them, change nothing for the command that is run
again and the list behind it. -/
theorem keeps_recalledSession :
    ([.keep " ", .again, .keep "q", .history] : List Input).filter (!·.isKeep)
        = ([.again, .history] : List Input).filter (!·.isKeep) ∧
      recalledSession.calls (.keep "q")
        = [⟨[⟨"command_line.rs", recalledSession.console.template.render "q"⟩]⟩] ∧
      (recalledSession.deeds [.keep " ", .again, .keep "q", .history]).filter (!·.input.isKeep)
        = (recalledSession.deeds [.again, .history]).filter (!·.input.isKeep) := by
  obtain ⟨hkeep, hothers⟩ := keep_leaves_no_mark recalledSession
  exact ⟨rfl, (hkeep "q").1, hothers _ _ rfl⟩

end Session
end CommandLine
end SnippetConsole
