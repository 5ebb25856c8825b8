/-
# Texts typed line by line

A text of several lines is typed with a backslash behind each line but the last; behind that, and
behind the last line, any line ending may follow (`Types`).

| raw line | what the assembler reads |
| --- | --- |
| line, backslash, ending | the line goes on: the ending and one backslash before it are cut off |
| line, ending | the line ends the text, if nothing of it counts as an ending or as the mark |

So a line that goes on is read as it was meant whatever it ends in: the backslash guards it. The
last line has none. If it ends in a carriage return, that is cut off with the ending, and if it ends
in a backslash, it goes on. The texts of several lines whose last one ends in neither are the ones
that can be typed (`Typable`): however they are typed, they are read (`pushLines_of_types`), and
whatever is read from several lines is one of them (`typable_of_pushLines`).
-/

import SnippetConsole.Proofs.InputGroups

namespace SnippetConsole
namespace CommandLine

/-! ### The lines of a text -/

/-- The lines of a text: what lies between its line feeds. -/
def linesOf (text : String) : List String := (text.toList.splitOn '\n').map String.ofList

/-- No part of characters that are split at `d` holds `d`. -/
theorem notMem_of_mem_splitOn {d : Char} {cs : List Char} :
    ∀ part ∈ cs.splitOn d, d ∉ part := by
  induction cs with
  | nil => simp
  | cons c cs ih =>
    rw [List.splitOn_cons_eq_if_modifyHead]
    split
    · exact List.forall_mem_cons.2 ⟨List.not_mem_nil, ih⟩
    · rename_i hc
      obtain ⟨first, rest, hsplit⟩ := List.exists_cons_of_ne_nil (List.splitOn_ne_nil d cs)
      rw [hsplit] at ih ⊢
      obtain ⟨hfirst, hrest⟩ := List.forall_mem_cons.1 ih
      have hne : d ≠ c := fun h => hc (by simp [h])
      exact List.forall_mem_cons.2 ⟨by simp [hne, hfirst], hrest⟩

/-- No line holds a line feed. -/
theorem notMem_of_mem_linesOf {text line : String} (h : line ∈ linesOf text) :
    '\n' ∉ line.toList := by
  obtain ⟨part, hpart, rfl⟩ := List.mem_map.1 h
  rw [String.toList_ofList]
  exact notMem_of_mem_splitOn part hpart

/-- The lines with line feeds between them are the text. -/
theorem intercalate_linesOf (text : String) : String.intercalate "\n" (linesOf text) = text := by
  rw [← String.toList_inj, String.toList_intercalate, linesOf, List.map_map]
  simp [Function.comp_def, List.intercalate_splitOn]

/-- A text with a line feed has more than one line. -/
theorem two_le_length_linesOf {text : String} (h : '\n' ∈ text.toList) :
    2 ≤ (linesOf text).length := by
  rcases hlines : linesOf text with _ | ⟨line, _ | ⟨next, rest⟩⟩
  · exact absurd hlines (by simp [linesOf])
  · have htext : line = text := by simpa [hlines] using intercalate_linesOf text
    have hline : line ∈ linesOf text := hlines ▸ List.mem_cons_self
    exact absurd (htext ▸ h) (notMem_of_mem_linesOf hline)
  · simp

/-- Joined texts end with the last of them. -/
theorem exists_intercalate_concat (lines : List String) (line : String) :
    ∃ before, String.intercalate "\n" (lines ++ [line]) = before ++ line := by
  rcases eq_or_ne lines [] with rfl | hne
  · exact ⟨"", by simp⟩
  · refine ⟨String.intercalate "\n" lines ++ "\n", ?_⟩
    rw [String.intercalate_append_of_ne_nil hne (by simp), String.intercalate_singleton]

/-- What a last line ends in, the text ends in. -/
theorem getLast?_of_getLast?_linesOf {text line : String} {c : Char}
    (hline : (linesOf text).getLast? = some line) (hc : line.toList.getLast? = some c) :
    text.toList.getLast? = some c := by
  obtain ⟨init, hlines⟩ := List.getLast?_eq_some_iff.1 hline
  obtain ⟨before, hbefore⟩ := exists_intercalate_concat init line
  rw [← intercalate_linesOf text, hlines, hbefore, String.toList_append, List.getLast?_append, hc]
  rfl

/-! ### Typing -/

/-- Carriage returns and line feeds, any number of them in any order. -/
def IsEnding (ending : String) : Prop := ∀ c ∈ ending.toList, c = '\r' ∨ c = '\n'

theorem isEnding_empty : IsEnding "" := nofun

/-- Raw lines type lines: each but the last with a backslash behind it, and all with any ending. -/
inductive Types : List String → List String → Prop
  | last (line : String) {ending : String} (hending : IsEnding ending) :
    Types [line] [line ++ ending]
  | more (line : String) {ending : String} {lines raw : List String} (hending : IsEnding ending)
    (hlines : Types lines raw) : Types (line :: lines) ((line ++ "\\" ++ ending) :: raw)

theorem Types.length_eq {lines raw : List String} (h : Types lines raw) :
    raw.length = lines.length := by
  induction h with
  | last => rfl
  | more _ _ _ ih => simp [ih]

/-- There is a way to type any lines. -/
theorem exists_types {lines : List String} (h : lines ≠ []) : ∃ raw, Types lines raw := by
  induction lines with
  | nil => exact absurd rfl h
  | cons line lines ih =>
    rcases eq_or_ne lines [] with rfl | hne
    · exact ⟨_, .last line isEnding_empty⟩
    · obtain ⟨raw, hraw⟩ := ih hne
      exact ⟨_, .more line isEnding_empty hraw⟩

/-- A text of several lines whose last one ends in no backslash and in no carriage return. -/
structure Typable (text : String) : Prop where
  several : '\n' ∈ text.toList
  last : ∀ line, (linesOf text).getLast? = some line →
    line.toList.getLast? ≠ some '\\' ∧ line.toList.getLast? ≠ some '\r'

/-- An ending is cut off, and nothing of a text that ends in none itself. -/
theorem withoutEnding_append {text ending : String} (hending : IsEnding ending)
    (htext : ∀ c, text.toList.getLast? = some c → isLineEnd c = false) :
    withoutEnding (text ++ ending) = text.toList := by
  have hends : ∀ c ∈ ending.toList, isLineEnd c = true := by
    simpa [isLineEnd, IsEnding] using hending
  rw [withoutEnding, String.toList_append, Text.dropWhileEnd_append_of_forall hends]
  rcases List.eq_nil_or_concat text.toList with hnil | ⟨init, c, hconcat⟩
  · rw [hnil]
    rfl
  · rw [List.concat_eq_append] at hconcat
    have hc := htext c (by rw [hconcat, List.getLast?_concat])
    rw [hconcat, Text.dropWhileEnd_append_singleton hc]

/-- A line with a backslash behind it goes on, and is read as it was meant. -/
theorem withoutEnding_more (line : String) {ending : String} (hending : IsEnding ending) :
    withoutEnding (line ++ "\\" ++ ending) = line.toList ++ ['\\'] := by
  have hguarded : (line ++ "\\").toList = line.toList ++ ['\\'] := String.toList_append
  rw [withoutEnding_append hending, hguarded]
  intro c hc
  rw [hguarded, List.getLast?_concat, Option.some.injEq] at hc
  subst hc
  rfl

/-- **Raw lines that type lines are one group,** which says those lines. -/
theorem Types.exists_group {lines raw : List String} (h : Types lines raw)
    (hfeeds : ∀ line ∈ lines, '\n' ∉ line.toList)
    (hlast : ∀ line, lines.getLast? = some line →
      line.toList.getLast? ≠ some '\\' ∧ line.toList.getLast? ≠ some '\r') :
    ∃ front last, raw = front ++ [last] ∧ (∀ line ∈ front, goesOn line = true) ∧
      goesOn last = false ∧ front.map head ++ [contents last] = lines := by
  induction h with
  | @last line ending hending =>
    obtain ⟨hbackslash, hreturn⟩ := hlast line rfl
    have hread : withoutEnding (line ++ ending) = line.toList := by
      refine withoutEnding_append hending fun c hc => ?_
      have hfeed : c ≠ '\n' := fun heq =>
        hfeeds line List.mem_cons_self (heq ▸ List.mem_of_getLast? hc)
      have hr : c ≠ '\r' := fun heq => hreturn (heq ▸ hc)
      simp [isLineEnd, hfeed, hr]
    refine ⟨[], line ++ ending, rfl, nofun, ?_, ?_⟩
    · rw [goesOn, hread]
      simpa using hbackslash
    · rw [contents, hread, String.ofList_toList]
      rfl
  | @more line ending lines raw hending htyped ih =>
    have hne : lines ≠ [] := by
      rintro rfl
      cases htyped
    obtain ⟨front, last, rfl, hfront, hends, hsays⟩ :=
      ih (fun line hline => hfeeds line (List.mem_cons_of_mem _ hline))
        (fun line hline => hlast line (by rwa [List.getLast?_cons_of_ne_nil hne]))
    have hread := withoutEnding_more line hending
    refine ⟨(line ++ "\\" ++ ending) :: front, last, rfl, ?_, hends, ?_⟩
    · refine List.forall_mem_cons.2 ⟨?_, hfront⟩
      rw [goesOn, hread, List.getLast?_concat]
      rfl
    · rw [List.map_cons, List.cons_append, hsays, head, hread, List.dropLast_concat,
        String.ofList_toList]

namespace Assembler

/-- An assembler that does not wait for anything is a new one. -/
theorem eq_new_of_not_isContinuing {a : Assembler} (h : a.isContinuing = false) : a = new := by
  obtain ⟨pending⟩ := a
  cases pending with
  | none => rfl
  | some text => cases h

/-- Lines that go on complete no input. -/
theorem pushLines_of_goesOn {lines : List String} (h : ∀ line ∈ lines, goesOn line = true)
    (front : List String) :
    (waiting front).pushLines lines = ([], waiting (front ++ lines)) := by
  induction lines generalizing front with
  | nil => rw [pushLines, List.append_nil]
  | cons line lines ih =>
    obtain ⟨hline, hlines⟩ := List.forall_mem_cons.1 h
    rw [pushLines_cons (push_of_goesOn hline front), ih hlines, List.append_assoc]
    rfl

theorem pushLines_append (a : Assembler) (lines more : List String) :
    a.pushLines (lines ++ more) =
      ((a.pushLines lines).1 ++ ((a.pushLines lines).2.pushLines more).1,
        ((a.pushLines lines).2.pushLines more).2) := by
  induction lines generalizing a with
  | nil => rfl
  | cons line lines ih =>
    rw [List.cons_append, pushLines_cons rfl, pushLines_cons rfl, ih, List.append_assoc]

/-- **A text of several lines is read as it was typed,** when its last line comes and not before. -/
theorem pushLines_of_types {text : String} (h : Typable text) {raw : List String}
    (htyped : Types (linesOf text) raw) {a : Assembler} (ha : a.isContinuing = false) :
    ∃ front last b, raw = front ++ [last] ∧ a.pushLines front = ([], b) ∧
      b.push last = (some (.snippet text), new) := by
  obtain ⟨front, last, hraw, hfront, hends, hsays⟩ :=
    htyped.exists_group (fun line => notMem_of_mem_linesOf) h.last
  refine ⟨front, last, waiting front, hraw, ?_, ?_⟩
  · rw [eq_new_of_not_isContinuing ha]
    exact pushLines_of_goesOn hfront []
  · have hseveral : front ≠ [] := by
      rintro rfl
      have hlength := two_le_length_linesOf h.several
      rw [← hsays] at hlength
      exact absurd hlength (by simp)
    rw [push_of_ends hends, Group.input]
    dsimp only
    rw [if_neg hseveral, hsays, intercalate_linesOf]

/-- Lines that complete one input, with none waiting behind it, are its group. -/
theorem exists_group_of_pushLines {raw : List String} {input : Input}
    (hread : new.pushLines raw = ([input], new)) :
    ∃ front last, raw = front ++ [last] ∧ goesOn last = false ∧
      Group.input ⟨front, some last⟩ = input := by
  obtain ⟨rest, hpush, hcut⟩ := pushLines_waiting [] raw
  have hnew : new = waiting [] := rfl
  rw [prepend_nil] at hpush hcut
  rw [hnew, hpush] at hread
  obtain ⟨hinputs, hwaiting⟩ := Prod.mk.inj hread
  obtain ⟨g, hgroups, rfl⟩ := List.map_eq_singleton_iff.1 hinputs
  have hrest : rest = [] := by
    by_contra hne
    rw [waiting, if_neg hne] at hwaiting
    cases hwaiting
  rw [hgroups, hrest, prepend_nil, List.append_nil] at hcut
  have hwell := isCut_cut raw
  rw [hcut] at hwell
  have hg := hwell.wellFormed g List.mem_cons_self
  have hclosed : g.isClosed = true :=
    (List.mem_filter.1 (hgroups ▸ List.mem_cons_self : g ∈ (cut raw).filter Group.isClosed)).2
  have hlines : g.lines = raw := by simpa using hwell.flatMap_lines
  obtain ⟨front, _ | last⟩ := g
  · cases hclosed
  · exact ⟨front, last, hlines.symm, hg.last last rfl, rfl⟩

/-- What a line says that does not go on ends in no backslash and in no line ending. -/
theorem getLast?_contents {line : String} (h : goesOn line = false) {c : Char}
    (hc : (contents line).toList.getLast? = some c) : c ≠ '\\' ∧ isLineEnd c = false := by
  rw [contents, String.toList_ofList] at hc
  constructor
  · rintro rfl
    simp [goesOn, hc] at h
  · have hkept := List.head?_dropWhile_not isLineEnd line.toList.reverse
    rw [withoutEnding, Text.dropWhileEnd, List.getLast?_reverse] at hc
    rw [hc] at hkept
    simpa using hkept

/-- **What is read from several lines can be typed.** -/
theorem typable_of_pushLines {raw : List String} {text : String} (hlength : 2 ≤ raw.length)
    (hread : new.pushLines raw = ([.snippet text], new)) : Typable text := by
  obtain ⟨front, last, rfl, hends, hinput⟩ := exists_group_of_pushLines hread
  obtain ⟨init, line, rfl⟩ : ∃ init line, front = init ++ [line] := by
    rcases List.eq_nil_or_concat front with rfl | ⟨init, line, rfl⟩
    · simp at hlength
    · exact ⟨init, line, List.concat_eq_append⟩
  -- what stands before the last line's own characters ends in a line feed
  have htext : text.toList = (carried init ++ head line).toList ++ '\n' :: (contents last).toList := by
    have hjoined : carried (init ++ [line]) ++ contents last = text := by
      rw [carried_append]
      simpa [Group.input] using hinput
    rw [← hjoined, carried_concat]
    simp
  refine ⟨by simp [htext], fun l hl => ?_⟩
  have hplain (c : Char) (hc : l.toList.getLast? = some c) : c ≠ '\\' ∧ c ≠ '\r' := by
    have hlast := getLast?_of_getLast?_linesOf hl hc
    rw [htext, List.getLast?_append, List.getLast?_cons] at hlast
    rcases hcontents : (contents last).toList.getLast? with _ | d
    · simp [hcontents] at hlast
      subst hlast
      decide
    · obtain rfl : d = c := by simpa [hcontents] using hlast
      obtain ⟨hbackslash, hending⟩ := getLast?_contents hends hcontents
      exact ⟨hbackslash, by rintro rfl; cases hending⟩
  exact ⟨fun h => (hplain _ h).1 rfl, fun h => (hplain _ h).2 rfl⟩

end Assembler

/-! ### The main statement -/

/-- **Every text of several lines can be typed,** but for those whose last line ends in a backslash
or a carriage return. However the others are typed, an assembler that is not waiting completes no
input before the last line, then the text as one snippet, and does not wait afterwards. -/
theorem typed_text_is_read (text : String) :
    (Typable text → ∀ raw, Types (linesOf text) raw → ∀ a : Assembler, a.isContinuing = false →
      ∃ front last b c, raw = front ++ [last] ∧ a.pushLines front = ([], b) ∧
        b.push last = (some (.snippet text), c) ∧ c.isContinuing = false) ∧
    (Typable text ↔
      ∃ raw, 2 ≤ raw.length ∧ Assembler.new.pushLines raw = ([.snippet text], .new)) := by
  refine ⟨fun htext raw htyped a ha => ?_, fun htext => ?_, fun ⟨raw, hlength, hread⟩ =>
    Assembler.typable_of_pushLines hlength hread⟩
  · obtain ⟨front, last, b, hraw, hfront, hlast⟩ := Assembler.pushLines_of_types htext htyped ha
    exact ⟨front, last, b, .new, hraw, hfront, hlast, rfl⟩
  · have hlength := two_le_length_linesOf htext.several
    obtain ⟨raw, htyped⟩ := exists_types (List.ne_nil_of_length_pos (Nat.lt_of_succ_lt hlength))
    obtain ⟨front, last, b, rfl, hfront, hlast⟩ :=
      Assembler.pushLines_of_types htext htyped (a := .new) rfl
    refine ⟨front ++ [last], ?_, ?_⟩
    · rw [htyped.length_eq]
      exact hlength
    · rw [Assembler.pushLines_append, hfront, Assembler.pushLines_cons hlast]
      rfl

/-- Four lines: one that ends in a backslash, an empty one, one that begins like a command and ends in
a carriage return, and the last. -/
def guardedText : String := "a\\\n\n:quit\r\nb"

/-- It is read from lines with different endings. -/
theorem read_guardedText :
    Typable guardedText ∧
    ∃ front last b c, ["a\\\\\r\n", "\\\n", ":quit\r\\\r\r\n", "b"] = front ++ [last] ∧
      Assembler.new.pushLines front = ([], b) ∧
      b.push last = (some (.snippet guardedText), c) ∧ c.isContinuing = false := by
  have hlines : linesOf guardedText = ["a\\", "", ":quit\r", "b"] := by decide +kernel
  have htext : Typable guardedText := by
    refine ⟨by decide +kernel, fun line hline => ?_⟩
    rw [hlines] at hline
    obtain rfl := Option.some.inj hline
    decide
  have htyped : Types (linesOf guardedText)
      ["a\\\\\r\n", "\\\n", ":quit\r\\\r\r\n", "b"] := by
    rw [hlines]
    have hfeed : IsEnding "\n" := by simp [IsEnding]
    have hpair : IsEnding "\r\n" := by simp [IsEnding]
    have hdoubled : IsEnding "\r\r\n" := by simp [IsEnding]
    exact .more "a\\" hpair <| .more "" hfeed <| .more ":quit\r" hdoubled <|
      .last "b" isEnding_empty
  exact ⟨htext, (typed_text_is_read guardedText).1 htext _ htyped .new rfl⟩

end CommandLine
end SnippetConsole
