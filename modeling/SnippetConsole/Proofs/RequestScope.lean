/-
# The scope of a compilation

A compilation works inside the two directories of its request. Its files go under their final names
into the source directory, which holds no links (`writeFile_source_eq_ok`); the toolchain keeps to
the two directories by assumption; what is cleared lies below the artifact directory. So nothing
else changes, however the compilation ends (`untouched_compile`), and as the directories of a fresh
request are empty, nothing that was there before the compilation is lost (`Untouched.eq_some`).
-/

import SnippetConsole.Proofs.Compilation
import SnippetConsole.Proofs.FinalNames
import SnippetConsole.Proofs.Initialisation

namespace SnippetConsole

namespace FilePath

/-- **A final name is a piece** that is not empty and neither `.` nor `..`. -/
theorem fileName?_eq_some {p : FilePath} {n : Bytes} (h : fileName? p = some n) :
    n ≠ [] ∧ slash ∉ n ∧ n ≠ here ∧ n ≠ up := by
  obtain ⟨hne, hhere, hup, front, back, hsplit, -⟩ := fileName?_eq_some_iff.1 h
  exact ⟨hne, slash_notMem_pieces p n (by simp [hsplit]), hhere, hup⟩

end FilePath

namespace Workspace

open FileTree FileTree.Tree Machine
open FilePath (IsName)

/-- What leads somewhere when joined to a path is a name, if it is one piece and no dots. -/
theorem isName_of_locate_join {t : Tree} {dir loc : Location} {follow : Bool} {p : FilePath}
    {n : Bytes} (hn : n ≠ [] ∧ FilePath.slash ∉ n ∧ n ≠ FilePath.here ∧ n ≠ FilePath.up)
    (h : t.locate dir follow (p.join n) = .ok loc) : IsName n := by
  obtain ⟨hne, hslash, hhere, hup⟩ := hn
  obtain ⟨hp, hwalk⟩ := locate_eq_ok.1 h
  rw [FilePath.names_join_of_slash_notMem hne hslash] at hwalk
  obtain ⟨links, mid, -, -, hback⟩ := (route_of_walk hwalk).split (List.cons_ne_nil n [])
  refine ⟨hne, hslash, fun hnul => ?_, hhere, hup, ?_⟩
  · have hmem : (0 : UInt8) ∈ p.join n := by
      rcases FilePath.join_cases hslash p with ⟨-, heq⟩ | ⟨q, -, heq⟩ | ⟨-, heq⟩
      · rw [heq]
        exact hnul
      · rw [heq]
        simp [hnul]
      · rw [heq]
        simp [hnul]
    exact (requireWalkable_eq_ok.1 hp).2.1 hmem
  · cases hback with
    | here => exact absurd rfl hhere
    | up => exact absurd rfl hup
    | stop _ hentry => exact hentry.length_le
    | enter _ hentry => exact hentry.length_le
    | jump _ hentry => exact hentry.length_le

/-- The names of a fit unit are final. -/
theorem final_of_named {unit : Snippet.SourceUnit} {names : List Bytes}
    (h : Compile.Named unit names) :
    ∀ n ∈ (names.zip unit.files).map (·.1),
      n ≠ [] ∧ FilePath.slash ∉ n ∧ n ≠ FilePath.here ∧ n ≠ FilePath.up := by
  rw [Compile.map_fst_zip_of_final h.final]
  intro n hn
  have hmem : some n ∈ names.map some := List.mem_map_of_mem hn
  rw [← h.final] at hmem
  obtain ⟨file, -, hfile⟩ := List.mem_map.1 hmem
  exact FilePath.fileName?_eq_some hfile

/-- Between two machines nothing changed but nodes below two directories, which are still there. -/
structure Untouched (src art : Location) (m m' : Machine) : Prop where
  wellFormed : m'.tree.WellFormed
  outside : ∀ loc, loc = src ∨ loc = art ∨ ¬Below src loc ∧ ¬Below art loc →
    m'.tree.node? loc = m.tree.node? loc
  directory : m'.directory = m.directory
  faults : m'.faults = m.faults

namespace Untouched

variable {src art : Location} {m m₁ m₂ : Machine}

theorem refl (ht : m.tree.WellFormed) : Untouched src art m m := ⟨ht, fun _ _ => rfl, rfl, rfl⟩

theorem trans (h : Untouched src art m m₁) (h' : Untouched src art m₁ m₂) :
    Untouched src art m m₂ :=
  ⟨h'.wellFormed, fun loc hloc => (h'.outside loc hloc).trans (h.outside loc hloc),
    h'.directory.trans h.directory, h'.faults.trans h.faults⟩

end Untouched

section Scope

variable {c : Compiler} {unit : Snippet.SourceUnit} {request : Request} {m m₁ : Machine}
  {src art : Location} (hfresh : request.Fresh m src art)

include hfresh

/-- **Nothing that was there is lost.** -/
theorem Untouched.eq_some (h : Untouched src art m m₁) {loc : Location} {node : Node}
    (hnode : m.tree.node? loc = some node) : m₁.tree.node? loc = some node := by
  rw [h.outside loc (hfresh.eq_src_or_art hnode)]
  exact hnode

theorem Untouched.extends (h : Untouched src art m m₁) : m₁.tree.Extends m.tree :=
  fun _ _ hnode _ => h.eq_some hfresh hnode

/-- There are no links below a directory. -/
def LinkFree (src : Location) (m : Machine) : Prop :=
  ∀ loc path, Below src loc → m.tree.node? loc ≠ some (.link path)

/-- **A file with a final name is written into the source directory,** where there are no links. -/
theorem writeFile_source_eq_ok (h : Untouched src art m m₁) (hlinks : LinkFree src m₁) {n : Bytes}
    (hfinal : n ≠ [] ∧ FilePath.slash ∉ n ∧ n ≠ FilePath.here ∧ n ≠ FilePath.up)
    {content : Content} {t : Tree}
    (hwrite : m₁.tree.writeFile m₁.directory (request.sourceDirectory.join n) content = .ok t) :
    IsName n ∧ n :: src ≠ art ∧
      m₁.tree.locate m₁.directory true (request.sourceDirectory.join n) = .ok (n :: src) ∧
      t = m₁.tree.put (n :: src) (.file content) := by
  obtain ⟨n', d, hlocate, -, -, hold, rfl⟩ := writeFile_eq_ok h.wellFormed hwrite
  have hn := isName_of_locate_join hfinal hlocate
  have hentry := hlocate
  rw [h.directory] at hentry
  obtain ⟨-, hloc⟩ := (locate_entry_eq_ok (h.extends hfresh) hfresh.source hn true
    fun path hlink => absurd hlink (hlinks _ path (below_cons n src))).1 hentry
  refine ⟨hn, fun heq => ?_, hloc ▸ hlocate, by rw [hloc]⟩
  -- at the artifact directory no file can be written
  have hart := h.eq_some hfresh (find_eq_ok.1 hfresh.artifact).2.1
  obtain ⟨old, hfile⟩ := hold _ (hloc.trans heq ▸ hart)
  cases hfile

/-- It changes nothing else, and there are no links afterwards. -/
theorem untouched_writeFile (h : Untouched src art m m₁) (hlinks : LinkFree src m₁) {n : Bytes}
    (hfinal : n ≠ [] ∧ FilePath.slash ∉ n ∧ n ≠ FilePath.here ∧ n ≠ FilePath.up)
    {content : Content} {t : Tree}
    (hwrite : m₁.tree.writeFile m₁.directory (request.sourceDirectory.join n) content = .ok t) :
    t.WellFormed ∧ (∀ loc, loc = src ∨ loc = art ∨ ¬Below src loc ∧ ¬Below art loc →
      t.node? loc = m₁.tree.node? loc) ∧
      ∀ loc path, Below src loc → t.node? loc ≠ some (.link path) := by
  have hwell := h.wellFormed.writeFile hwrite
  obtain ⟨-, hne, -, rfl⟩ := writeFile_source_eq_ok hfresh h hlinks hfinal hwrite
  have hread := m₁.tree.node?_put (List.cons_ne_nil n src) (.file content)
  refine ⟨hwell, fun loc hkept => ?_, fun loc path hloc => ?_⟩
  · rw [hread loc, if_neg]
    rintro rfl
    rcases hkept with heq | heq | ⟨hnot, -⟩
    · exact (below_cons n src).2 heq
    · exact hne heq
    · exact hnot (below_cons n src)
  · rw [hread loc]
    split
    · simp
    · exact hlinks loc path hloc

/-- So all files of a unit are, as far as it gets. -/
theorem untouched_writeSources {files : List (Bytes × Snippet.SourceFile)}
    (hfinal : ∀ n ∈ files.map (·.1),
      n ≠ [] ∧ FilePath.slash ∉ n ∧ n ≠ FilePath.here ∧ n ≠ FilePath.up) :
    Untouched src art m (m.after (Compiler.writeSources request.sourceDirectory files)) := by
  have hkeeps : Keeps (fun m₁ => Untouched src art m m₁ ∧ LinkFree src m₁)
      (Compiler.writeSources request.sourceDirectory files) := by
    refine keeps_forM fun ⟨n, file⟩ hfile => keeps_of_results (fun m₁ _ m₂ hm₁ hrun => ?_)
      fun m₁ e m₂ hm₁ hrun => ?_
    · obtain ⟨-, t, hwrite, rfl⟩ := change_eq_ok.1 hrun
      obtain ⟨hwell, houtside, hlinks⟩ := untouched_writeFile hfresh hm₁.1 hm₁.2
        (hfinal n (List.mem_map_of_mem hfile)) hwrite
      exact ⟨hm₁.1.trans ⟨hwell, houtside, rfl, rfl⟩, hlinks⟩
    · obtain ⟨rfl, -⟩ := change_eq_error.1 hrun
      exact ⟨⟨hm₁.1.wellFormed, hm₁.1.outside, hm₁.1.directory, hm₁.1.faults⟩, hm₁.2⟩
  refine (hkeeps m ⟨.refl hfresh.wellFormed, fun loc path hbelow hlink => ?_⟩).1
  rcases hfresh.eq_src_or_art hlink with rfl | rfl | ⟨hnot, -⟩
  · exact hbelow.2 rfl
  · rw [(find_eq_ok.1 hfresh.artifact).2.1] at hlink
    cases hlink
  · exact hnot hbelow

/-- **A build changes nothing outside the directories of its request,** however it ends. -/
theorem untouched_build (hconfined : c.Confined unit request m) :
    Untouched src art m (m.after (c.build unit request)) := by
  refine Compiler.after_build (.refl hfresh.wellFormed)
    (fun names hnamed => untouched_writeSources hfresh (final_of_named hnamed))
    fun invocation m₁ hcall => ?_
  have hupholds := hcall.upholds hfresh.wellFormed
  obtain ⟨hwell, houtside, hdirectory, hfaults⟩ := hconfined _ _ hcall
  have hcalled : Untouched src art m m₁ := by
    cases hcall with
    | @intro names first m₁ hnamed hexterns hfirst hwritten =>
      have hwrote := untouched_writeSources hfresh (final_of_named hnamed)
      rw [after_of_eq_ok (Compiler.writeSources_eq_ok.2 hwritten)] at hwrote
      exact ⟨hwrote.wellFormed, hwrote.outside, hwrote.directory, hwrote.faults⟩
  exact hcalled.trans ⟨hwell hupholds.wellFormed,
    houtside src art (hupholds.find_directory hfresh.source)
      (hupholds.find_directory hfresh.artifact), hdirectory, hfaults⟩

/-- Clearing the artifacts changes nothing but what lies below their directory. -/
theorem untouched_clearArtifacts (h : Compiler.Upholds m m₁) :
    Untouched src art m₁ (m₁.after request.clearArtifacts) := by
  have hfind := h.find_artifacts hfresh (.refl _ _)
  have hafter := after_emptyDirectory h.wellFormed hfind
  refine ⟨hafter.tree.wellFormed, fun loc hloc => hafter.tree.pruned.eq_of_not fun hbelow => ?_,
    hafter.directory_eq, hafter.faults_eq⟩
  rcases hloc with rfl | rfl | ⟨-, hnot⟩
  · -- the source directory does not lie in the artifact directory
    have hnone := hfresh.artifact_free loc hbelow
    rw [(find_eq_ok.1 hfresh.source).2.1] at hnone
    cases hnone
  · exact hbelow.2 rfl
  · exact hnot hbelow

/-- **A compilation changes nothing outside the directories of its request,** however it ends. -/
theorem untouched_compile (hconfined : c.Confined unit request m) :
    Untouched src art m (m.after (c.compile unit request)) := by
  have hbuild := untouched_build hfresh hconfined
  rcases h : c.compile unit request m with ⟨p, m'⟩ | ⟨fault, m'⟩
  · rw [after_of_eq_ok h]
    have hok := Compiler.build_eq_ok.2 (Compiler.compile_eq_ok.1 h)
    rwa [after_of_eq_ok hok] at hbuild
  · rw [after_of_eq_error h]
    have hclear := untouched_clearArtifacts hfresh (Compiler.upholds_build hfresh hconfined)
    obtain ⟨-, hcleared | ⟨cause, hcleared⟩⟩ := Compiler.compile_eq_error h
    · rw [after_of_eq_ok hcleared] at hclear
      exact hbuild.trans hclear
    · rw [after_of_eq_error hcleared] at hclear
      exact hbuild.trans hclear

end Scope
end Workspace
end SnippetConsole
