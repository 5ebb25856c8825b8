/-
# Units that are fit

A unit is fit to be compiled if it has a file, each of its files ends in a name, no two end in the
same one (`Named`), and the libraries it is compiled against exist. Just these pass the check,
which lists the files with their names in order (`check_eq_ok`).
-/

import SnippetConsole.Compile.Basic
import SnippetConsole.Proofs.TreeChange

namespace SnippetConsole
namespace Compile

open FileTree.Tree
open Snippet (SourceFile SourceUnit)

/-- The files of a unit have these final names, which differ, and there is a file. -/
structure Named (unit : SourceUnit) (names : List Bytes) : Prop where
  ne_nil : unit.files ≠ []
  final : unit.files.map (fun file => FilePath.fileName? (.ofString file.name)) = names.map some
  nodup : names.Nodup

theorem verify_eq_ok {references : References} {m : Machine} :
    references.verify m = .ok () ↔ ∀ e ∈ references.externs, m.pathExists e.path = true := by
  have hnone : references.missing? m = none
      ↔ ∀ e ∈ references.externs, m.pathExists e.path = true := by
    rw [References.missing?, List.find?_eq_none]
    simp
  rw [References.verify, ← hnone]
  rcases references.missing? m with _ | e
  · simp
  · simp

/-- Files are listed with their final names if each has one. -/
theorem finalNames_eq_ok {files : List SourceFile} {named : List (Bytes × SourceFile)} :
    finalNames files = .ok named ↔ ∃ names : List Bytes,
      files.map (fun file => FilePath.fileName? (.ofString file.name)) = names.map some ∧
      named = names.zip files := by
  induction files generalizing named with
  | nil =>
    constructor
    · intro h
      cases h
      exact ⟨[], rfl, rfl⟩
    · rintro ⟨names, -, rfl⟩
      rw [List.zip_nil_right]
      rfl
  | cons file files ih =>
    rw [finalNames]
    rcases hname : FilePath.fileName? (.ofString file.name) with _ | name
    · refine ⟨fun h => (by cases h), fun ⟨names, h, _⟩ => ?_⟩
      cases names with
      | nil => simp at h
      | cons n names => simp [hname] at h
    · constructor
      · intro h
        obtain ⟨rest, hrest, h⟩ := except_bind_eq_ok.1 h
        obtain ⟨names, hnames, rfl⟩ := ih.1 hrest
        cases h
        exact ⟨name :: names, by simp [hname, hnames], rfl⟩
      · rintro ⟨names, hnames, rfl⟩
        cases names with
        | nil => simp at hnames
        | cons n names =>
          simp only [List.map_cons, List.cons.injEq, hname, Option.some.injEq] at hnames
          obtain ⟨rfl, hnames⟩ := hnames
          exact except_bind_eq_ok.2 ⟨_, ih.2 ⟨names, hnames, rfl⟩, rfl⟩

/-- Each file has one final name. -/
theorem map_fst_zip_of_final {files : List SourceFile} {names : List Bytes}
    (h : files.map (fun file => FilePath.fileName? (.ofString file.name)) = names.map some) :
    (names.zip files).map (·.1) = names := by
  refine List.map_fst_zip (Nat.le_of_eq ?_)
  simpa using (congrArg List.length h).symm

/-- No file is repeated if all names differ. -/
theorem repeated?_eq_none {seen : List Bytes} {named : List (Bytes × SourceFile)} :
    repeated? seen named = none ↔
      (named.map (·.1)).Nodup ∧ ∀ n ∈ named.map (·.1), n ∉ seen := by
  induction named generalizing seen with
  | nil => simp [repeated?]
  | cons file named ih =>
    obtain ⟨name, file⟩ := file
    rw [repeated?]
    by_cases h : name ∈ seen
    · simp [h]
    · rw [if_neg h, ih]
      simp only [List.map_cons, List.nodup_cons, List.mem_cons, not_or, forall_eq_or_imp]
      constructor
      · rintro ⟨hnodup, hseen⟩
        refine ⟨⟨fun hmem => (hseen name hmem).1 rfl, hnodup⟩, h, fun n hn => (hseen n hn).2⟩
      · rintro ⟨⟨hfirst, hnodup⟩, -, hseen⟩
        refine ⟨hnodup, fun n hn => ⟨?_, hseen n hn⟩⟩
        rintro rfl
        exact hfirst hn

/-- A unit's files have names of their own if each has a name and none is repeated. -/
theorem named_iff {unit : SourceUnit} {names : List Bytes} (hne : unit.files ≠ [])
    (hfinal : unit.files.map (fun file => FilePath.fileName? (.ofString file.name))
      = names.map some) :
    Named unit names ↔ repeated? [] (names.zip unit.files) = none := by
  rw [repeated?_eq_none, map_fst_zip_of_final hfinal]
  exact ⟨fun h => ⟨h.nodup, fun _ _ => List.not_mem_nil⟩, fun h => ⟨hne, hfinal, h.1⟩⟩

/-- The first file of a unit has the first name. -/
theorem Named.zip_eq_cons {unit : SourceUnit} {names : List Bytes} (h : Named unit names) :
    ∃ name file rest, names.head? = some name ∧ names.zip unit.files = (name, file) :: rest := by
  have hfinal := h.final
  rcases hfiles : unit.files with _ | ⟨file, files⟩
  · exact absurd hfiles h.ne_nil
  · rcases names with _ | ⟨name, names⟩
    · simp [hfiles] at hfinal
    · exact ⟨name, file, names.zip files, rfl, rfl⟩

/-- **A unit passes its check** if its files have names of their own and its libraries exist. -/
theorem check_eq_ok {unit : SourceUnit} {references : References} {m : Machine}
    {checked : Checked} :
    check unit references m = .ok checked ↔
      (∀ e ∈ references.externs, m.pathExists e.path = true) ∧ ∃ names, Named unit names ∧
        names.head? = some checked.first ∧ checked.files = names.zip unit.files := by
  rw [check]
  by_cases hne : unit.files = []
  · simp only [hne, List.isEmpty_nil, if_true]
    exact ⟨fun h => (by cases h), fun ⟨_, names, hnamed, _⟩ => absurd hne hnamed.ne_nil⟩
  · have hnot : ¬unit.files.isEmpty = true := fun h => hne (List.isEmpty_iff.1 h)
    rw [if_neg hnot, ← verify_eq_ok]
    refine except_bind_eq_ok.trans ?_
    constructor
    · rintro ⟨_, hverify, h⟩
      refine ⟨hverify, ?_⟩
      rcases hfinal : finalNames unit.files with fault | named
      · rw [hfinal] at h
        cases h
      · obtain ⟨names, hnames, rfl⟩ := finalNames_eq_ok.1 hfinal
        rw [hfinal] at h
        rcases hrepeated : repeated? [] (names.zip unit.files) with _ | file
        · have hnamed : Named unit names := (named_iff hne hnames).2 hrepeated
          obtain ⟨name, file, rest, hhead, hzip⟩ := hnamed.zip_eq_cons
          simp only [hrepeated] at h
          rw [hzip] at h
          cases h
          exact ⟨names, hnamed, hhead, hzip.symm⟩
        · simp only [hrepeated] at h
          cases h
    · rintro ⟨hverify, names, hnamed, hhead, hfiles⟩
      refine ⟨(), hverify, ?_⟩
      obtain ⟨name, file, rest, hhead', hzip⟩ := hnamed.zip_eq_cons
      have hrepeated := (named_iff hne hnamed.final).1 hnamed
      rw [finalNames_eq_ok.2 ⟨names, hnamed.final, rfl⟩]
      simp only [hrepeated]
      obtain ⟨first, files⟩ := checked
      obtain rfl : name = first := Option.some.inj (hhead'.symm.trans hhead)
      dsimp only at hfiles
      rw [hfiles, hzip]

end Compile
end SnippetConsole
