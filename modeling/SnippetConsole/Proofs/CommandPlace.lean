/-
# Where the command stands

The frame has a place for the prelude and, further down, one for the command. They are filled in
this order, and each time the first place of its kind is taken. No line of the frame has an `@`
outside the two places, so the prelude comes where it belongs. But the place for the command is
looked for in a text that has the prelude in it already, and the prelude stands before the body:

| prelude | command | the place in the body |
| --- | --- | --- |
| without the place for a command | in the body | filled |
| with it | in the prelude, where it is first spelled | left as it is |

So a command stands in the body of the entry point for all preludes without a line that spells its
place (`Template.render_of_not_infix`), and in the prelude for all others
(`Template.render_of_splitAtFirst?`). A command may spell any place it likes, as nothing is filled
after it.
-/

import SnippetConsole.Proofs.TextOccurrence
import SnippetConsole.Snippet.Basic

namespace SnippetConsole
namespace Snippet

/-! ### Lines and their text -/

theorem toList_joined (lines : List String) :
    (String.intercalate "\n" lines).toList = ['\n'].intercalate (lines.map String.toList) := by
  rw [String.toList_intercalate]
  rfl

/-- A last line that is empty leaves a line feed at the end. -/
theorem toList_joined_concat (lines : List String) (hne : lines ≠ []) :
    (String.intercalate "\n" (lines ++ [""])).toList
      = (String.intercalate "\n" lines).toList ++ ['\n'] := by
  rw [toList_joined, toList_joined, List.map_append]
  exact Text.intercalate_concat_nil (by simpa using hne)

/-- A first line that is empty leaves one at the beginning. -/
theorem toList_joined_cons (lines : List String) (hne : lines ≠ []) :
    (String.intercalate "\n" ("" :: lines)).toList
      = '\n' :: (String.intercalate "\n" lines).toList := by
  rw [toList_joined, toList_joined, List.map_cons]
  exact Text.intercalate_nil_cons (by simpa using hne)

/-- A character other than a line feed is in joined lines only if a line has it. -/
theorem notMem_joined {c : Char} {lines : List String} (hc : c ≠ '\n')
    (h : ∀ line ∈ lines, c ∉ line.toList) : c ∉ (String.intercalate "\n" lines).toList := by
  rw [toList_joined]
  exact Text.notMem_intercalate hc (List.forall_mem_map.2 h)

/-- One line more without a character, as it is looked for in a literal. -/
theorem forall_notMem_cons {c : Char} {line : List Char} {lines : List String}
    (hline : line.contains c = false) (h : ∀ line ∈ lines, c ∉ line.toList) :
    ∀ l ∈ String.ofList line :: lines, c ∉ l.toList := by
  refine List.forall_mem_cons.2 ⟨?_, h⟩
  rw [String.toList_ofList]
  simpa using hline

/-! ### The places of the frame -/

theorem notMem_linesBefore : ∀ line ∈ linesBefore, '@' ∉ line.toList := by decide +kernel

-- a decision over all lines at once takes minutes
set_option maxRecDepth 20000 in
theorem notMem_linesBetween : ∀ line ∈ linesBetween, '@' ∉ line.toList := by
  unfold linesBetween
  repeat refine forall_notMem_cons rfl ?_
  simp

theorem notMem_textBefore : '@' ∉ textBefore.toList :=
  notMem_joined (by decide) notMem_linesBefore

theorem notMem_textBetween : '@' ∉ textBetween.toList :=
  notMem_joined (by decide) notMem_linesBetween

/-- The place for the prelude begins a line. -/
theorem textBefore_eq : ∃ start, textBefore.toList = start ++ ['\n'] :=
  ⟨_, toList_joined_concat linesBefore.dropLast (List.cons_ne_nil _ _)⟩

/-- And ends it. -/
theorem textBetween_eq : ∃ rest, textBetween.toList = '\n' :: rest :=
  ⟨_, toList_joined_cons linesBetween.tail (List.cons_ne_nil _ _)⟩

/-- The place for the command begins a line. -/
theorem getLast?_textBetween : textBetween.toList.getLast? = some '\n' := by
  have hlast : textBetween.toList = _ :=
    toList_joined_concat linesBetween.dropLast (List.cons_ne_nil _ _)
  rw [hlast, List.getLast?_concat]

/-! ### Filling the places -/

/-- The lines of the prelude as one text. -/
def Template.preludeText (t : Template) : String := String.intercalate "\n" t.prelude

/-- The frame with a text in each of its places. -/
def placed (prelude command : String) : String :=
  textBefore ++ prelude ++ textBetween ++ command ++ textAfter

theorem toList_placed (prelude command : String) :
    (placed prelude command).toList
      = textBefore.toList ++ (prelude.toList ++ (textBetween.toList ++
          (command.toList ++ textAfter.toList))) := by
  simp only [placed, String.toList_append, List.append_assoc]

/-- **The place for the prelude** is the frame's own one. -/
theorem splitAtFirst?_preludeMarker (command : String) :
    Text.splitAtFirst? preludeMarker.toList (placed preludeMarker command).toList
      = some (textBefore.toList, (textBetween ++ command ++ textAfter).toList) := by
  rw [toList_placed, String.toList_append, String.toList_append, List.append_assoc]
  exact Text.splitAtFirst?_slot (p := ['/', '*']) (by decide) notMem_textBefore _

theorem notMem_bodyMarker : '\n' ∉ bodyMarker.toList := by decide +kernel

/-- There is no place for a command before the prelude. -/
theorem splitAtFirst?_textBefore (cs : List Char) :
    Text.splitAtFirst? bodyMarker.toList (textBefore.toList ++ cs)
      = (Text.splitAtFirst? bodyMarker.toList cs).map fun (before, after) =>
          (textBefore.toList ++ before, after) := by
  obtain ⟨start, hstart⟩ := textBefore_eq
  have hnone : ¬bodyMarker.toList <:+: start := fun hin => notMem_textBefore <| by
    rw [hstart]
    exact List.mem_append_left _ (hin.subset (by decide +kernel))
  rw [hstart, List.append_assoc, List.singleton_append,
    Text.splitAtFirst?_append_cons notMem_bodyMarker hnone]
  simp

/-- **The place for the command** is the frame's own one behind a prelude that does not spell it. -/
theorem splitAtFirst?_bodyMarker {prelude : String} (h : ¬bodyMarker.toList <:+: prelude.toList) :
    Text.splitAtFirst? bodyMarker.toList (placed prelude bodyMarker).toList
      = some ((textBefore ++ prelude ++ textBetween).toList, textAfter.toList) := by
  obtain ⟨rest, hrest⟩ := textBetween_eq
  have hnone : '@' ∉ rest := fun hin => notMem_textBetween (hrest ▸ List.mem_cons_of_mem _ hin)
  have hown : Text.splitAtFirst? bodyMarker.toList
      (rest ++ (bodyMarker.toList ++ textAfter.toList)) = some (rest, textAfter.toList) :=
    Text.splitAtFirst?_slot (p := ['/', '*']) (by decide) hnone textAfter.toList
  rw [toList_placed, splitAtFirst?_textBefore, hrest, List.cons_append,
    Text.splitAtFirst?_append_cons notMem_bodyMarker h, hown, String.toList_append,
    String.toList_append, hrest, List.append_assoc]
  rfl

/-- In a prelude that spells it, it is there. -/
theorem splitAtFirst?_bodyMarker_prelude {prelude : String} {before after : List Char}
    (h : Text.splitAtFirst? bodyMarker.toList prelude.toList = some (before, after)) :
    Text.splitAtFirst? bodyMarker.toList (placed prelude bodyMarker).toList
      = some (textBefore.toList ++ before,
          after ++ (textBetween ++ bodyMarker ++ textAfter).toList) := by
  rw [toList_placed, splitAtFirst?_textBefore, Text.splitAtFirst?_append h,
    String.toList_append, String.toList_append, List.append_assoc]
  rfl

/-! ### Where the command stands -/

namespace Template

variable {t : Template} {before after : List Char}

/-- The prelude is in its place when that for the command is looked for. -/
theorem render_eq (t : Template) (command : String) :
    t.render command = Text.replaceFirst bodyMarker command (placed t.preludeText bodyMarker) := by
  have hprelude : Text.replaceFirst preludeMarker t.preludeText frame
      = placed t.preludeText bodyMarker := by
    rw [frame, ← placed, Text.replaceFirst_of_some (splitAtFirst?_preludeMarker bodyMarker),
      ← String.toList_inj]
    simp only [placed, String.toList_ofList, String.toList_append, List.append_assoc]
  rw [render, ← preludeText, hprelude]

/-- A place for a command is spelled in the prelude just if a line of it spells it. -/
theorem infix_preludeText_iff (t : Template) :
    bodyMarker.toList <:+: t.preludeText.toList ↔
      ∃ line ∈ t.prelude, bodyMarker.toList <:+: line.toList := by
  rw [preludeText, toList_joined, Text.infix_intercalate_iff (by decide +kernel) notMem_bodyMarker]
  simp only [List.mem_map, exists_exists_and_eq_and]

/-- **The command stands in the body** if no line of the prelude spells its place. -/
theorem render_of_not_infix (h : ∀ line ∈ t.prelude, ¬bodyMarker.toList <:+: line.toList)
    (command : String) : t.render command = placed t.preludeText command := by
  have hprelude : ¬bodyMarker.toList <:+: t.preludeText.toList := by
    rw [infix_preludeText_iff]
    rintro ⟨line, hline, hin⟩
    exact h line hline hin
  rw [render_eq, Text.replaceFirst_of_some (splitAtFirst?_bodyMarker hprelude), ← String.toList_inj]
  simp only [placed, String.toList_ofList, String.toList_append]

/-- **Else it stands in the prelude,** and the body keeps the mark of its place. -/
theorem render_of_splitAtFirst?
    (h : Text.splitAtFirst? bodyMarker.toList t.preludeText.toList = some (before, after))
    (command : String) :
    t.render command
      = placed (String.ofList before ++ command ++ String.ofList after) bodyMarker := by
  rw [render_eq, Text.replaceFirst_of_some (splitAtFirst?_bodyMarker_prelude h),
    ← String.toList_inj]
  simp only [placed, String.toList_ofList, String.toList_append, List.append_assoc]

/-- **No command is lost:** whatever the prelude is, the text has the command in it, verbatim. -/
theorem infix_render (t : Template) (command : String) :
    command.toList <:+: (t.render command).toList := by
  rcases hcut : Text.splitAtFirst? bodyMarker.toList t.preludeText.toList with _ | ⟨before, after⟩
  · have hnone := mt (infix_preludeText_iff t).2 (Text.splitAtFirst?_eq_none_iff.1 hcut)
    have hbody := render_of_not_infix (fun line hline hin => hnone ⟨line, hline, hin⟩) command
    rw [hbody]
    exact ⟨(textBefore ++ t.preludeText ++ textBetween).toList, textAfter.toList, by
      simp [placed, List.append_assoc]⟩
  · rw [render_of_splitAtFirst? hcut]
    exact ⟨textBefore.toList ++ before, after ++ (textBetween ++ bodyMarker ++ textAfter).toList, by
      simp [toList_placed, List.append_assoc]⟩

/-- **The unit of a command** is one file, the root, with the command in the frame. -/
theorem wrap_eq (t : Template) (command : String) :
    t.wrap command = ⟨[⟨"command_line.rs", t.render command⟩]⟩ := rfl

/-- Before the end of the frame, only one of the two has a line feed. So they are different for the
empty command. -/
theorem render_empty_ne
    (h : Text.splitAtFirst? bodyMarker.toList t.preludeText.toList = some (before, after)) :
    t.render "" ≠ placed t.preludeText "" := by
  intro heq
  rw [render_of_splitAtFirst? h, ← String.toList_inj, toList_placed, toList_placed,
    Text.eq_of_splitAtFirst? h] at heq
  simp only [String.toList_append, String.toList_ofList, String.toList_empty, List.append_assoc,
    List.append_cancel_left_eq, List.nil_append] at heq
  simp only [← List.append_assoc, List.append_cancel_right_eq] at heq
  have hmark : (after ++ textBetween.toList ++ bodyMarker.toList).getLast? = some '/' := by
    rw [List.getLast?_append]
    rfl
  have hfeed : (bodyMarker.toList ++ after ++ textBetween.toList).getLast? = some '\n' := by
    rw [List.getLast?_append, getLast?_textBetween]
    rfl
  exact absurd (hmark.symm.trans ((congrArg List.getLast? heq).trans hfeed)) (by decide)

/-- **Which preludes leave the body to the command.** The frame is cut at the first place for the
prelude and at the first one for the command. If the text of the prelude spells no place for a
command, then every command stands in the body, verbatim, with the prelude in its place and the
frame around them; else it stands in the prelude, instead of the place that is spelled first, and
what the body has is the mark. So the body has the command for all commands just if no line of the
prelude spells the mark. -/
theorem render_places_command (t : Template) :
    Text.splitAtFirst? preludeMarker.toList frame.toList
      = some (textBefore.toList, (textBetween ++ bodyMarker ++ textAfter).toList) ∧
    Text.splitAtFirst? bodyMarker.toList frame.toList
      = some ((textBefore ++ preludeMarker ++ textBetween).toList, textAfter.toList) ∧
    (∀ command, t.render command =
      match Text.splitAtFirst? bodyMarker.toList t.preludeText.toList with
      | none => placed t.preludeText command
      | some (before, after) =>
        placed (String.ofList before ++ command ++ String.ofList after) bodyMarker) ∧
    ((∀ command, t.render command = placed t.preludeText command) ↔
      ∀ line ∈ t.prelude, ¬bodyMarker.toList <:+: line.toList) := by
  have hmarks : ¬bodyMarker.toList <:+: preludeMarker.toList := by decide +kernel
  refine ⟨splitAtFirst?_preludeMarker bodyMarker, splitAtFirst?_bodyMarker hmarks,
    fun command => ?_, fun hall line hline hin => ?_, render_of_not_infix⟩
  · split
    · rename_i hnone
      refine render_of_not_infix (fun line hline hin => ?_) command
      exact Text.splitAtFirst?_eq_none_iff.1 hnone
        ((infix_preludeText_iff t).2 ⟨line, hline, hin⟩)
    · rename_i before after hsome
      exact render_of_splitAtFirst? hsome command
  · have hsome : Text.splitAtFirst? bodyMarker.toList t.preludeText.toList ≠ none := fun hnone =>
      Text.splitAtFirst?_eq_none_iff.1 hnone ((infix_preludeText_iff t).2 ⟨line, hline, hin⟩)
    obtain ⟨⟨before, after⟩, hcut⟩ := Option.ne_none_iff_exists'.1 hsome
    exact render_empty_ne hcut (hall "")

/-- The standard prelude spells no place for a command. -/
example : ∀ line ∈ Template.standard.prelude, ¬bodyMarker.toList <:+: line.toList := by
  decide +kernel

/-- A prelude that is the mark of the place for a command. -/
def marked : Template := ⟨[bodyMarker]⟩

/-- **Its body has no command:** what is entered comes before the entry point. -/
theorem render_marked :
    marked.render "x" = placed "x" bodyMarker ∧ marked.render "x" ≠ placed bodyMarker "x" := by
  have hcut : Text.splitAtFirst? bodyMarker.toList marked.preludeText.toList = some ([], []) := by
    decide +kernel
  have hrender : marked.render "x" = placed "x" bodyMarker := render_of_splitAtFirst? hcut "x"
  refine ⟨hrender, fun heq => ?_⟩
  rw [hrender, ← String.toList_inj, toList_placed, toList_placed, List.append_cancel_left_eq] at heq
  exact absurd (congrArg List.head? heq) (by simp [bodyMarker])

end Template

end Snippet
end SnippetConsole
