/-
# What the toolchain finds

A unit is unfit if it has no file, a library it is compiled against is missing, a file's name ends
in no name, or two of them end in the same one (`Unfit`). Its compilation then ends before anything
is changed or run.

The files of a fit unit are written one after the other into the source directory of the request,
each under the name that its own name ends in (`Filled.written`). The first that cannot be written
ends the compilation. If all are there, the toolchain is called: all it finds in the source
directory are these files (`Filled.only`), and what the compilation comes to is decided by its run
(`compile_of_calls`).
-/

import Mathlib.Data.List.Nodup
import SnippetConsole.Proofs.RequestScope

namespace SnippetConsole
namespace Compile

open Snippet (SourceFile SourceUnit)

/-! ### Units that are not fit -/

/-- What keeps a unit from being compiled: there is no file, a library is missing, a file's name
ends in no name, or two files have names that end in one. -/
inductive Unfit (unit : SourceUnit) (references : References) (m : Machine) : Prop
  | empty (h : unit.files = [])
  | missing {e} (he : e ∈ references.externs) (h : m.pathExists e.path = false)
  | nameless {file} (hfile : file ∈ unit.files)
    (h : ∀ n, ¬(FilePath.ofString file.name).EndsIn n)
  | shared {i j : Nat} {file other : SourceFile} {n} (hlt : i < j)
    (hfile : unit.files[i]? = some file) (hother : unit.files[j]? = some other)
    (hname : (FilePath.ofString file.name).EndsIn n)
    (hname' : (FilePath.ofString other.name).EndsIn n)

/-- The files of a unit, each with the name that its own name ends in, all of them different. -/
structure Labelled (unit : SourceUnit) (files : List (Bytes × SourceFile)) : Prop where
  ne_nil : files ≠ []
  files_eq : files.map (·.2) = unit.files
  endsIn : ∀ f ∈ files, (FilePath.ofString f.2.name).EndsIn f.1
  nodup : (files.map (·.1)).Nodup

section Names

variable {files : List SourceFile} {names : List Bytes}
  (h : files.map (fun file => FilePath.fileName? (.ofString file.name)) = names.map some) {i : Nat}

include h

/-- The file at a place has the final name at that place. -/
theorem exists_name {file : SourceFile} (hfile : files[i]? = some file) :
    ∃ n, names[i]? = some n ∧ (FilePath.ofString file.name).EndsIn n := by
  have hfinal := congrArg (·[i]?) h
  simp only [List.getElem?_map, hfile, Option.map_some] at hfinal
  obtain ⟨n, hn, hname⟩ := Option.map_eq_some_iff.1 hfinal.symm
  exact ⟨n, hn, FilePath.fileName?_eq_some_iff.1 hname.symm⟩

/-- And the other way round. -/
theorem exists_file {n : Bytes} (hn : names[i]? = some n) :
    ∃ file, files[i]? = some file ∧ (FilePath.ofString file.name).EndsIn n := by
  have hfinal := congrArg (·[i]?) h
  simp only [List.getElem?_map, hn, Option.map_some] at hfinal
  obtain ⟨file, hfile, hname⟩ := Option.map_eq_some_iff.1 hfinal
  exact ⟨file, hfile, FilePath.fileName?_eq_some_iff.1 hname⟩

end Names

theorem Named.labelled {unit : SourceUnit} {names : List Bytes} (h : Named unit names) :
    Labelled unit (names.zip unit.files) := by
  have hlength : names.length = unit.files.length := by
    simpa using (congrArg List.length h.final).symm
  have hfst := map_fst_zip_of_final h.final
  refine ⟨?_, List.map_snd_zip hlength.ge, fun f hf => ?_, by rw [hfst]; exact h.nodup⟩
  · obtain ⟨name, file, rest, -, hzip⟩ := h.zip_eq_cons
    simp [hzip]
  · obtain ⟨i, hi⟩ := List.mem_iff_getElem?.1 hf
    obtain ⟨hname, hfile⟩ := List.getElem?_zip_eq_some.1 hi
    obtain ⟨n, hn, hends⟩ := exists_name h.final hfile
    rw [hname] at hn
    exact Option.some.inj hn ▸ hends

/-- Files that end in a name have a list of names. -/
theorem exists_names {files : List SourceFile}
    (h : ∀ file ∈ files, ∃ n, (FilePath.ofString file.name).EndsIn n) :
    ∃ names : List Bytes,
      files.map (fun file => FilePath.fileName? (.ofString file.name)) = names.map some := by
  induction files with
  | nil => exact ⟨[], rfl⟩
  | cons file files ih =>
    obtain ⟨n, hn⟩ := h file List.mem_cons_self
    obtain ⟨names, hnames⟩ := ih fun f hf => h f (List.mem_cons_of_mem _ hf)
    exact ⟨n :: names, by simp [FilePath.fileName?_eq_some_iff.2 hn, hnames]⟩

/-- **A unit is unfit just if it does not pass its check.** -/
theorem not_unfit_iff {unit : SourceUnit} {references : References} {m : Machine} :
    ¬Unfit unit references m ↔
      (∀ e ∈ references.externs, m.pathExists e.path = true) ∧ ∃ names, Named unit names := by
  constructor
  · intro h
    have hfinal : ∀ file ∈ unit.files, ∃ n, (FilePath.ofString file.name).EndsIn n := by
      intro file hfile
      by_contra hnone
      exact h (.nameless hfile (not_exists.1 hnone))
    obtain ⟨names, hnames⟩ := exists_names hfinal
    refine ⟨fun e he => ?_, names, fun hnil => h (.empty hnil), hnames, ?_⟩
    · by_contra hmissing
      exact h (.missing he (Bool.eq_false_iff.2 hmissing))
    · refine List.nodup_iff_getElem?_ne_getElem?.2 fun i j hlt hj heq => ?_
      have hn := List.getElem?_eq_getElem hj
      obtain ⟨file, hfile, hname⟩ := exists_file hnames (heq.trans hn)
      obtain ⟨other, hother, hname'⟩ := exists_file hnames hn
      exact h (.shared hlt hfile hother hname hname')
  · rintro ⟨hexterns, names, hnamed⟩ hunfit
    cases hunfit with
    | empty hnil => exact hnamed.ne_nil hnil
    | missing he hmissing => exact absurd (hexterns _ he) (Bool.eq_false_iff.1 hmissing)
    | nameless hfile hnone =>
      obtain ⟨i, hi⟩ := List.mem_iff_getElem?.1 hfile
      obtain ⟨n, -, hends⟩ := exists_name hnamed.final hi
      exact hnone n hends
    | @shared i j file other n hlt hfile hother hname hname' =>
      obtain ⟨a, ha, hends⟩ := exists_name hnamed.final hfile
      obtain ⟨b, hb, hends'⟩ := exists_name hnamed.final hother
      obtain rfl := hends.unique hname
      obtain rfl := hends'.unique hname'
      obtain ⟨hj, -⟩ := List.getElem?_eq_some_iff.1 hb
      exact List.nodup_iff_getElem?_ne_getElem?.1 hnamed.nodup i j hlt hj (ha.trans hb.symm)

/-- The names are those of the unit's files, in order. -/
theorem Labelled.map_some_eq {unit : SourceUnit} {files : List (Bytes × SourceFile)}
    (h : Labelled unit files) : (files.map (·.1)).map some
      = unit.files.map (fun file => FilePath.fileName? (.ofString file.name)) := by
  rw [← h.files_eq, List.map_map, List.map_map]
  exact List.map_congr_left fun f hf => (FilePath.fileName?_eq_some_iff.2 (h.endsIn f hf)).symm

/-- A final name is a piece that is not made of dots. -/
theorem Labelled.final {unit : SourceUnit} {files : List (Bytes × SourceFile)}
    (h : Labelled unit files) :
    ∀ f ∈ files, f.1 ≠ [] ∧ FilePath.slash ∉ f.1 ∧ f.1 ≠ FilePath.here ∧ f.1 ≠ FilePath.up :=
  fun f hf => FilePath.fileName?_eq_some (FilePath.fileName?_eq_some_iff.2 (h.endsIn f hf))

end Compile

namespace Workspace

open FileTree FileTree.Tree Machine
open Snippet (SourceFile)

/-! ### Files that are written -/

/-- The content of a source file on a machine. -/
def sourceContent (file : SourceFile) : Content := .bytes (Text.encode file.text)

/-- All that changed between two machines are new files in the directory at `src`: each is there
under its name, found by its path, and holds its text. -/
structure Filled (request : Request) (src : Location) (files : List (Bytes × SourceFile))
    (m m' : Machine) : Prop where
  wellFormed : m'.tree.WellFormed
  new : ∀ f ∈ files, m.tree.node? (f.1 :: src) = none
  found : ∀ f ∈ files, m'.tree.find m'.directory true (request.sourceDirectory.join f.1)
    = .ok (f.1 :: src, .file (sourceContent f.2))
  elsewhere : ∀ loc, (∀ f ∈ files, loc ≠ f.1 :: src) → m'.tree.node? loc = m.tree.node? loc
  rest : m' = { m with tree := m'.tree, changes := m'.changes }

section Fill

variable {request : Request} {m m₁ m₂ : Machine} {src art : Location}
  {files done : List (Bytes × SourceFile)}

theorem Filled.refl (ht : m.tree.WellFormed) : Filled request src [] m m :=
  ⟨ht, fun _ hf => absurd hf List.not_mem_nil, fun _ hf => absurd hf List.not_mem_nil,
    fun _ _ => rfl, rfl⟩

theorem Filled.directory_eq (h : Filled request src files m m₁) : m₁.directory = m.directory := by
  rw [h.rest]

/-- A change that fails is counted, and that is all. -/
theorem Filled.counted (h : Filled request src files m m₁)
    (hsame : m₂ = { m₁ with changes := m₁.changes + 1 }) : Filled request src files m m₂ := by
  subst hsame
  exact ⟨h.wellFormed, h.new, h.found, h.elsewhere, by rw [h.rest]⟩

/-- What was written is there. -/
theorem Filled.node?_eq (h : Filled request src files m m₁) {f : Bytes × SourceFile}
    (hf : f ∈ files) : m₁.tree.node? (f.1 :: src) = some (.file (sourceContent f.2)) :=
  (find_eq_ok.1 (h.found f hf)).2.1

variable (hfresh : request.Fresh m src art)

include hfresh

/-- **The files are all there is** below the source directory, but for the artifact directory if it
lies there. -/
theorem Filled.only (h : Filled request src files m m₁) {loc : Location} {node : Node}
    (hbelow : Below src loc) (hnode : m₁.tree.node? loc = some node) :
    loc = art ∨ ∃ f ∈ files, loc = f.1 :: src ∧ node = .file (sourceContent f.2) := by
  by_cases hfile : ∃ f ∈ files, loc = f.1 :: src
  · obtain ⟨f, hf, rfl⟩ := hfile
    exact .inr ⟨f, hf, rfl, Option.some.inj (hnode.symm.trans (h.node?_eq hf))⟩
  · rw [h.elsewhere loc fun f hf heq => hfile ⟨f, hf, heq⟩] at hnode
    by_contra hnot
    rw [hfresh.source_free loc hbelow (not_or.1 hnot).1] at hnode
    cases hnode

/-- No file is where the artifact directory is. -/
theorem Filled.ne_artifacts (h : Filled request src files m m₁) {f : Bytes × SourceFile}
    (hf : f ∈ files) : art ≠ f.1 :: src := by
  rintro rfl
  have hfree := h.new f hf
  rw [(find_eq_ok.1 hfresh.artifact).2.1] at hfree
  cases hfree

theorem Filled.untouched (h : Filled request src files m m₁) : Untouched src art m m₁ := by
  refine ⟨h.wellFormed, fun loc hloc => h.elsewhere loc fun f hf => ?_, h.directory_eq,
    by rw [h.rest]⟩
  rintro rfl
  have hbelow := below_cons f.1 src
  rcases hloc with heq | heq | ⟨hnot, -⟩
  · exact hbelow.2 heq
  · exact h.ne_artifacts hfresh hf heq.symm
  · exact hnot hbelow

theorem Filled.linkFree (h : Filled request src files m m₁) : LinkFree src m₁ := by
  intro loc path hbelow hlink
  rcases h.only hfresh hbelow hlink with rfl | ⟨f, -, -, hfile⟩
  · rw [(h.untouched hfresh).outside _ (.inr (.inl rfl)),
      (find_eq_ok.1 hfresh.artifact).2.1] at hlink
    cases hlink
  · cases hfile

/-- **One more file is written,** under a name that was not used yet. -/
theorem Filled.write (h : Filled request src done m m₁) {f : Bytes × SourceFile}
    (hfinal : f.1 ≠ [] ∧ FilePath.slash ∉ f.1 ∧ f.1 ≠ FilePath.here ∧ f.1 ≠ FilePath.up)
    (hunused : f.1 ∉ done.map (·.1))
    (hwrite : Machine.writeFile (request.sourceDirectory.join f.1) (sourceContent f.2) m₁
      = .ok () m₂) :
    Filled request src (done ++ [f]) m m₂ := by
  obtain ⟨-, t, ht, rfl⟩ := change_eq_ok.1 hwrite
  have hwell := h.wellFormed.writeFile ht
  have hext : t.Extends m₁.tree := (Extends.refl m₁.tree).writeFile h.wellFormed ht
  obtain ⟨hn, hart, hlocate, rfl⟩ :=
    writeFile_source_eq_ok hfresh (h.untouched hfresh) (h.linkFree hfresh) hfinal ht
  have hread := m₁.tree.node?_put (List.cons_ne_nil f.1 src) (.file (sourceContent f.2))
  refine ⟨hwell, fun g hg => ?_, fun g hg => ?_, fun loc hloc => ?_, ?_⟩
  · rcases List.mem_append.1 hg with hg | hg
    · exact h.new g hg
    · obtain rfl := List.mem_singleton.1 hg
      exact hfresh.source_free _ (below_cons g.1 src) hart
  · rcases List.mem_append.1 hg with hg | hg
    · -- an earlier file has another name, so it is still there and still found
      have hne : g.1 :: src ≠ f.1 :: src := fun heq =>
        hunused ((List.cons.inj heq).1 ▸ List.mem_map_of_mem hg)
      obtain ⟨hlocate', hnode, hslash⟩ := find_eq_ok.1 (h.found g hg)
      rw [Bool.true_or] at hlocate'
      refine hext.find_file hlocate' (Bool.eq_false_iff.2 fun hs => ?_) ?_
      · cases hslash hs
      · rw [hread, if_neg hne]
        exact hnode
    · obtain rfl := List.mem_singleton.1 hg
      exact hext.find_file hlocate (hn.endsInSlash_join _) (by rw [hread, if_pos rfl])
  · rw [hread, if_neg (hloc f (by simp))]
    exact h.elsewhere loc fun g hg => hloc g (List.mem_append_left _ hg)
  · rw [h.rest]

/-- **Files are written one after the other.** -/
theorem Filled.written (h : Filled request src done m m₁)
    (hfinal : ∀ f ∈ files,
      f.1 ≠ [] ∧ FilePath.slash ∉ f.1 ∧ f.1 ≠ FilePath.here ∧ f.1 ≠ FilePath.up)
    (hnodup : ((done ++ files).map (·.1)).Nodup)
    (hwritten : Compiler.Written request.sourceDirectory files m₁ m₂) :
    Filled request src (done ++ files) m m₂ := by
  induction hwritten generalizing done with
  | done =>
    rw [List.append_nil]
    exact h
  | @next name file files m₁ m₂ m₃ hwrite _ ih =>
    have hunused : name ∉ done.map (·.1) := by
      rw [List.map_append, List.nodup_append] at hnodup
      exact fun hmem => hnodup.2.2 _ hmem _ List.mem_cons_self rfl
    have hnext := h.write hfresh (f := (name, file)) (hfinal _ List.mem_cons_self) hunused hwrite
    rw [List.append_cons] at hnodup ⊢
    exact ih hnext (fun f hf => hfinal f (List.mem_cons_of_mem _ hf)) hnodup

/-- Nothing that is in the artifact directory can be cleared when only files were written. -/
theorem Filled.clearArtifacts (h : Filled request src files m m₁) :
    request.clearArtifacts m₁ = .ok () m₁ := by
  have hscope := h.untouched hfresh
  have hupholds : Compiler.Upholds m m₁ :=
    ⟨hscope.wellFormed, hscope.extends hfresh, hscope.directory, hscope.faults⟩
  have hempty : m₁.tree.namesIn art = [] := by
    refine namesIn_eq_nil_iff.2 fun n => ?_
    rw [h.elsewhere _ fun f _ heq => hfresh.ne (List.cons.inj heq).2.symm]
    exact hfresh.artifact_free _ (below_cons n art)
  have hnames : m₁.namesAt request.artifactDirectory = .ok [] :=
    namesAt_eq_ok.2 ⟨art, hupholds.find_directory hfresh.artifact, hempty.symm⟩
  exact asks_bind (f := fun m => m.namesAt request.artifactDirectory) hnames

end Fill

end Workspace

namespace Compiler

open Compile FileTree FileTree.Tree Machine Workspace
open Snippet (SourceFile SourceUnit)

/-- The first file that cannot be written ends the writing. -/
theorem writeSources_eq_error {directory : FilePath} {files : List (Bytes × SourceFile)}
    {m m' : Machine} {fault : FileTree.Fault}
    (h : writeSources directory files m = .error fault m') :
    ∃ done f rest m₁, files = done ++ f :: rest ∧ Written directory done m m₁ ∧
      Machine.writeFile (directory.join f.1) (sourceContent f.2) m₁ = .error fault m' := by
  obtain ⟨done, f, rest, m₁, hfiles, hdone, hf⟩ := forM_eq_error.1 h
  exact ⟨done, f, rest, m₁, hfiles, writeSources_eq_ok.1 hdone, hf⟩

/-- What a compilation makes of it: after a failure the artifact directory is emptied. -/
def conclude (request : Request) (run : Act FileTree.Fault Output) :
    Act Compile.Fault FilePath := do
  match ← attempt (finish request run) with
  | .ok path => pure path
  | .error fault => do
    let _ ← attempt request.clearArtifacts
    throw fault

section Compile

variable {c : Compiler} {unit : SourceUnit} {request : Request} {m m₁ : Machine}

/-- A compilation whose toolchain is called comes to what its run comes to. -/
theorem compile_of_calls {invocation : Invocation} (h : c.Calls unit request m invocation m₁) :
    c.compile unit request m = conclude request (c.toolchain invocation) m₁ := by
  have hattempt : (attempt (c.build unit request) : Act Compile.Fault _) m
      = attempt (finish request (c.toolchain invocation)) m₁ := by
    rw [attempt_eq, attempt_eq, build_of_calls h]
  exact bind_eq_bind hattempt

end Compile

/-- How the files of a fit unit are delivered, whatever the toolchain is: the first one that cannot
be written ends the compilation, or else they are all that is in the source directory when the
toolchain is called, and the rest is up to its run. -/
inductive Delivery (c : Compiler) (unit : SourceUnit) (request : Request) (m : Machine)
    (src art : Location) (files : List (Bytes × SourceFile)) : Prop
  | stopped {done f rest m₁ m₂ fault} (hfiles : files = done ++ f :: rest)
    (hfilled : Filled request src done m m₁)
    (hwrite : Machine.writeFile (request.sourceDirectory.join f.1) (sourceContent f.2) m₁
      = .error fault m₂)
    (hsame : m₂ = { m₁ with changes := m₁.changes + 1 })
    (hcompile : ∀ toolchain : Toolchain,
      compile { c with toolchain } unit request m = .error (.file fault) m₂)
  | called {first rest m₁ invocation} (hfiles : files = first :: rest)
    (hfilled : Filled request src files m m₁)
    (honly : ∀ loc node, Below src loc → m₁.tree.node? loc = some node →
      loc = art ∨ ∃ f ∈ files, loc = f.1 :: src ∧ node = .file (sourceContent f.2))
    (hroot : invocation.root = request.sourceDirectory.join first.1)
    (houtput : invocation.output = request.artifactPath)
    (hcompile : ∀ toolchain : Toolchain,
      compile { c with toolchain } unit request m
        = conclude request (toolchain invocation)
          { m₁ with runs := m₁.runs ++ [invocation.arguments] })

/-- A unit that is not fit is refused, and nothing is changed. -/
theorem compile_of_unfit {c : Compiler} {unit : SourceUnit} {request : Request} {m : Machine}
    {src art : Location} (hfresh : request.Fresh m src art)
    (hunfit : Unfit unit c.references m) :
    ∃ fault, ∀ toolchain : Toolchain,
      compile { c with toolchain } unit request m = .error fault m := by
  rcases hcheck : check unit c.references m with fault | checked
  · refine ⟨fault, fun toolchain => ?_⟩
    have hbuild : build { c with toolchain } unit request m = .error fault m :=
      bind_of_error (asks_eq_error.2 ⟨hcheck, rfl⟩)
    have hfilled : Filled request src [] m m := .refl hfresh.wellFormed
    exact compile_of_build_eq_error hbuild (hfilled.clearArtifacts hfresh)
  · obtain ⟨hexterns, names, hnamed, -⟩ := check_eq_ok.1 hcheck
    exact absurd hunfit (not_unfit_iff.2 ⟨hexterns, names, hnamed⟩)

/-- The files of a unit that is fit are delivered. -/
theorem delivery_of_named {c : Compiler} {unit : SourceUnit} {request : Request} {m : Machine}
    {src art : Location} (hfresh : request.Fresh m src art) {names : List Bytes}
    (hexterns : ∀ e ∈ c.references.externs, m.pathExists e.path = true)
    (hnamed : Named unit names) :
    Delivery c unit request m src art (names.zip unit.files) := by
  have hlabelled := hnamed.labelled
  obtain ⟨first, file, rest, hfirst, hzip⟩ := hnamed.zip_eq_cons
  rcases hwrite : writeSources request.sourceDirectory (names.zip unit.files) m
    with ⟨_, m₁⟩ | ⟨fault, m₂⟩
  · have hwritten := writeSources_eq_ok.1 hwrite
    have hfilled := (Filled.refl hfresh.wellFormed).written hfresh hlabelled.final
      hlabelled.nodup hwritten
    have hroot : (c.invocation request first).root = request.sourceDirectory.join first := rfl
    refine .called hzip hfilled (fun loc node => hfilled.only hfresh) hroot rfl fun toolchain => ?_
    exact compile_of_calls (.intro hnamed hexterns hfirst hwritten)
  · obtain ⟨done, f, back, m₁, hfiles, hdone, hf⟩ := writeSources_eq_error hwrite
    have hdoneFinal (g) (hg : g ∈ done) := hlabelled.final g (by simp [hfiles, hg])
    have hdoneNodup : (done.map (·.1)).Nodup := by
      have hnodup := hlabelled.nodup
      rw [hfiles, List.map_append, List.nodup_append] at hnodup
      exact hnodup.1
    have hfilled := (Filled.refl hfresh.wellFormed).written hfresh hdoneFinal hdoneNodup hdone
    obtain ⟨hsame, -⟩ := change_eq_error.1 hf
    refine .stopped hfiles hfilled hf hsame fun toolchain => ?_
    have hcheck : check unit c.references m = .ok ⟨first, names.zip unit.files⟩ :=
      check_eq_ok.2 ⟨hexterns, names, hnamed, hfirst, rfl⟩
    have hbuild : build { c with toolchain } unit request m = .error (.file fault) m₂ :=
      (asks_bind hcheck).trans (bind_of_error (withFault_eq_error hwrite))
    exact compile_of_build_eq_error hbuild ((hfilled.counted hsame).clearArtifacts hfresh)

/-- **A unit is checked before anything happens, and its files stay in their request.** Compiled in
a request as it was allocated, a unit that is not fit is refused: nothing is changed, and what the
toolchain is makes no difference. The files of one that is fit are delivered: they are written into
the source directory, each under the name that its own name ends in and whatever else is in its
name, and nothing else is changed; if all are there, the toolchain is called with the first one as
the root. -/
theorem compile_checks_then_delivers {w : Workspace} {m₀ m : Machine} {request : Request}
    (hwell : m₀.tree.WellFormed) (hallocate : w.allocate m₀ = .ok request m) (c : Compiler)
    (unit : SourceUnit) :
    (Unfit unit c.references m → ∃ fault, ∀ toolchain : Toolchain,
      compile { c with toolchain } unit request m = .error fault m) ∧
    (¬Unfit unit c.references m → ∃ src art files, request.Fresh m src art ∧
      Labelled unit files ∧ Delivery c unit request m src art files) := by
  obtain ⟨src, art, hfresh⟩ := fresh_of_allocate hwell hallocate
  refine ⟨compile_of_unfit hfresh, fun hfit => ?_⟩
  obtain ⟨hexterns, names, hnamed⟩ := not_unfit_iff.1 hfit
  exact ⟨src, art, names.zip unit.files, hfresh, hnamed.labelled,
    delivery_of_named hfresh hexterns hnamed⟩

/-- Two files whose names end alike. -/
def clashing : SourceUnit := ⟨[⟨"a/x.rs", "fn a() \x7b\x7d"⟩, ⟨"b/x.rs/.", "fn b() \x7b\x7d"⟩]⟩

/-- Two files whose names would lead elsewhere. -/
def spread : SourceUnit := ⟨[⟨"/nested/root.rs", "mod helper;"⟩, ⟨"../helper.rs/", ""⟩]⟩

/-- The first unit is refused, the files of the other one are delivered. -/
theorem compile_clashing_and_spread :
    scratchMachine.tree.WellFormed ∧
    ∃ m, rootWorkspace.allocate scratchMachine = .ok scratchRequest m ∧
      (∃ fault, ∀ toolchain : Toolchain,
        compile { rejecting with toolchain } clashing scratchRequest m = .error fault m) ∧
      ∃ src art files, scratchRequest.Fresh m src art ∧
        files.map (·.1) = [FilePath.ofString "root.rs", FilePath.ofString "helper.rs"] ∧
        Delivery rejecting spread scratchRequest m src art files := by
  have hwell := wellFormed_scratchMachine
  obtain ⟨m, hallocate, -⟩ := exists_allocate_scratchMachine
  have hclash : Unfit clashing rejecting.references m :=
    .shared Nat.zero_lt_one rfl rfl (n := FilePath.ofString "x.rs") (by decide) (by decide)
  have hspread : Named spread [FilePath.ofString "root.rs", FilePath.ofString "helper.rs"] :=
    ⟨by decide, by decide, by decide⟩
  have hfit : ¬Unfit spread rejecting.references m :=
    not_unfit_iff.2 ⟨fun _ he => absurd he List.not_mem_nil, _, hspread⟩
  obtain ⟨src, art, files, hfresh, hlabelled, hdelivery⟩ :=
    (compile_checks_then_delivers hwell hallocate rejecting spread).2 hfit
  have hnames := hlabelled.map_some_eq.trans hspread.final
  exact ⟨hwell, m, hallocate,
    (compile_checks_then_delivers hwell hallocate rejecting clashing).1 hclash, src, art, files,
    hfresh, List.map_injective_iff.2 (fun _ _ => Option.some.inj) hnames, hdelivery⟩

end Compiler
end SnippetConsole
