/-
# What a compilation leaves behind

A compilation succeeds if the unit is fit, its files are written, the toolchain says that it
succeeded and the artifact is there (`Succeeds`). It says so then and only then
(`compile_eq_ok`), and changes nothing that the toolchain made.

| stage | goes wrong if |
| --- | --- |
| check | there is no file, a library is missing, a file has no final name or that of another |
| sources | a file cannot be written |
| toolchain | it cannot be run or rejects the unit |
| artifact | there is no file at its path |

At whatever stage it goes wrong, the artifact directory is emptied. The way to it stays open, as
nothing before takes a directory or a link away that was there when the request was allocated
(`upholds_build`); so what remains in it is nothing (`compile_ok_iff_and_cleans`).
-/

import SnippetConsole.Proofs.Allocation
import SnippetConsole.Proofs.UnitCheck

namespace SnippetConsole
namespace Workspace

open FileTree FileTree.Tree

/-- All that changed between two machines are nodes inside the two directories of a request. -/
structure Request.Confines (request : Request) (m m' : Machine) : Prop where
  wellFormed : m.tree.WellFormed → m'.tree.WellFormed
  outside : ∀ src art,
    m.tree.find m.directory true request.sourceDirectory = .ok (src, .directory) →
    m.tree.find m.directory true request.artifactDirectory = .ok (art, .directory) →
    ∀ loc, loc = src ∨ loc = art ∨ ¬Below src loc ∧ ¬Below art loc →
      m'.tree.node? loc = m.tree.node? loc
  directory : m'.directory = m.directory
  faults : m'.faults = m.faults

end Workspace

namespace Compiler

open Compile FileTree FileTree.Tree Machine Workspace
open Snippet (SourceFile SourceUnit)

/-! ### Compilations that succeed -/

/-- Each file was written into a directory, one after the other. -/
inductive Written (directory : FilePath) : List (Bytes × SourceFile) → Machine → Machine → Prop
  | done {m} : Written directory [] m m
  | next {name file files m m₁ m'}
    (hwrite : Machine.writeFile (directory.join name) (.bytes (Text.encode file.text)) m
      = .ok () m₁)
    (hrest : Written directory files m₁ m') : Written directory ((name, file) :: files) m m'

/-- The toolchain is called with this invocation on this machine: the unit is fit, its libraries
exist and its files are written. -/
inductive Calls (c : Compiler) (unit : SourceUnit) (request : Request) (m : Machine) :
    Invocation → Machine → Prop
  | intro {names first m₁} (hnamed : Named unit names)
    (hexterns : ∀ e ∈ c.references.externs, m.pathExists e.path = true)
    (hfirst : names.head? = some first)
    (hwritten : Written request.sourceDirectory (names.zip unit.files) m m₁) :
    Calls c unit request m (c.invocation request first)
      { m₁ with runs := m₁.runs ++ [(c.invocation request first).arguments] }

/-- Everything goes well and the toolchain leaves the second machine, with an artifact on it. -/
def Succeeds (c : Compiler) (unit : SourceUnit) (request : Request) (m m' : Machine) : Prop :=
  ∃ invocation m₁ output, c.Calls unit request m invocation m₁ ∧
    c.toolchain invocation m₁ = .ok output m' ∧ output.success = true ∧
    m'.isFile request.artifactPath = true

/-- The toolchain, where it is called, changes files only inside the directories of the request. -/
def Confined (c : Compiler) (unit : SourceUnit) (request : Request) (m : Machine) : Prop :=
  ∀ invocation m₁, c.Calls unit request m invocation m₁ →
    request.Confines m₁ (m₁.after (c.toolchain invocation))

theorem writeSources_eq_ok {directory : FilePath} {files : List (Bytes × SourceFile)}
    {m m' : Machine} :
    writeSources directory files m = .ok () m' ↔ Written directory files m m' := by
  induction files generalizing m with
  | nil =>
    constructor
    · intro h
      cases h
      exact .done
    · intro h
      cases h
      rfl
  | cons file files ih =>
    obtain ⟨name, file⟩ := file
    refine bind_eq_ok.trans ?_
    constructor
    · rintro ⟨_, m₁, hwrite, hrest⟩
      exact .next hwrite (ih.1 hrest)
    · intro h
      cases h with
      | next hwrite hrest => exact ⟨(), _, hwrite, ih.2 hrest⟩

/-- What a build makes of a run of its toolchain. -/
def finish (request : Request) (run : Act FileTree.Fault Output) : Act Compile.Fault FilePath :=
  fun m =>
    match run m with
    | .error fault m' => .error (.file fault) m'
    | .ok output m' =>
      if output.success = false then .error (.rejected output.diagnostics) m'
      else if m'.isFile request.artifactPath = true then .ok request.artifactPath m'
      else .error (.artifactMissing request.artifactPath) m'

/-- What a build comes to once the toolchain is called. -/
theorem build_of_calls {c : Compiler} {unit : SourceUnit} {request : Request} {m m₁ : Machine}
    {invocation : Invocation} (h : c.Calls unit request m invocation m₁) :
    c.build unit request m = finish request (c.toolchain invocation) m₁ := by
  rw [finish]
  cases h with
  | @intro names first m₁ hnamed hexterns hfirst hwritten =>
    have hcheck : check unit c.references m = .ok ⟨first, names.zip unit.files⟩ :=
      check_eq_ok.2 ⟨hexterns, names, hnamed, hfirst, rfl⟩
    have hwrite : withFault Compile.Fault.file
        (writeSources request.sourceDirectory (names.zip unit.files)) m = .ok () m₁ :=
      withFault_eq_ok.2 (writeSources_eq_ok.2 hwritten)
    rw [build, asks_bind hcheck, bind_of_ok hwrite]
    refine (bind_of_ok rfl).trans ?_
    rcases hrun : c.toolchain (c.invocation request first)
      { m₁ with runs := m₁.runs ++ [(c.invocation request first).arguments] }
      with ⟨output, m'⟩ | ⟨fault, m'⟩
    · refine (bind_of_ok (withFault_eq_ok.2 hrun)).trans ?_
      rcases hsuccess : output.success with _ | _
      · simp only [hsuccess, Bool.not_false, if_true]
        exact bind_of_error rfl
      · rcases hfile : m'.isFile request.artifactPath with _ | _
        · simp only [hsuccess, hfile, Bool.not_true, Bool.false_eq_true, reduceCtorEq, if_false,
            asks]
        · simp only [hsuccess, hfile, Bool.not_true, Bool.false_eq_true, reduceCtorEq, if_false,
            if_true, asks]
    · exact bind_of_error (withFault_eq_error hrun)

/-- **The toolchain is called for a unit of one file** on a machine without faults, if its path is
not too long. -/
theorem exists_calls_of_file {c : Compiler} {request : Request} {m : Machine} {src art : Location}
    (hfresh : request.Fresh m src art) (hsound : ∀ k, m.faults k = none)
    (hreferences : c.references.externs = []) {file : SourceFile} {n : Bytes}
    (hn : FilePath.IsName n) (hname : FilePath.fileName? (.ofString file.name) = some n)
    (hart : n :: src ≠ art) (hlen : (request.sourceDirectory.join n).length ≤ maxPathLength) :
    ∃ invocation m₁, c.Calls ⟨[file]⟩ request m invocation m₁ ∧
      m₁.tree = m.tree.put (n :: src) (.file (.bytes (Text.encode file.text))) ∧
      m₁.ids = m.ids ∧ m₁.idsUsed = m.idsUsed := by
  have hnamed : Named ⟨[file]⟩ [n] :=
    ⟨List.cons_ne_nil _ _, by simp [hname], List.pairwise_singleton _ _⟩
  have hfree := hfresh.source_free _ (below_cons n src) hart
  obtain ⟨hlocate, hdir, -⟩ := find_eq_ok.1 hfresh.source
  have hjoin : m.tree.locate m.directory true (request.sourceDirectory.join n)
      = .ok (n :: src) :=
    (Extends.refl m.tree).locate_join hlocate hdir hn
      (requireWalkable_join hn (locate_eq_ok.1 hlocate).1 hlen)
      fun path hlink => by rw [hfree] at hlink; cases hlink
  have hwrite : Machine.writeFile (request.sourceDirectory.join n)
      (.bytes (Text.encode file.text)) m = .ok () { m with
        tree := m.tree.put (n :: src) (.file (.bytes (Text.encode file.text)))
        changes := m.changes + 1 } :=
    change_eq_ok.2 ⟨hsound _, _, writeFile_of_free (hn.endsInSlash_join _) hjoin hfree, rfl⟩
  exact ⟨_, _, .intro hnamed (by simp [hreferences]) rfl (.next hwrite .done), rfl, rfl, rfl⟩

/-- How a build can end. -/
inductive Built (c : Compiler) (unit : SourceUnit) (request : Request) (m : Machine) :
    EStateM.Result Compile.Fault Machine FilePath → Prop
  | unfit {fault} (hcheck : check unit c.references m = .error fault) :
    Built c unit request m (.error fault m)
  | unwritten {names fault m'} (hnamed : Named unit names)
    (hwrite : writeSources request.sourceDirectory (names.zip unit.files) m = .error fault m') :
    Built c unit request m (.error (.file fault) m')
  | unavailable {invocation m₁ fault m'} (hcall : c.Calls unit request m invocation m₁)
    (hrun : c.toolchain invocation m₁ = .error fault m') :
    Built c unit request m (.error (.file fault) m')
  | rejected {invocation m₁ output m'} (hcall : c.Calls unit request m invocation m₁)
    (hrun : c.toolchain invocation m₁ = .ok output m') (hsuccess : output.success = false) :
    Built c unit request m (.error (.rejected output.diagnostics) m')
  | absent {invocation m₁ output m'} (hcall : c.Calls unit request m invocation m₁)
    (hrun : c.toolchain invocation m₁ = .ok output m') (hsuccess : output.success = true)
    (hfile : m'.isFile request.artifactPath = false) :
    Built c unit request m (.error (.artifactMissing request.artifactPath) m')
  | made {invocation m₁ output m'} (hcall : c.Calls unit request m invocation m₁)
    (hrun : c.toolchain invocation m₁ = .ok output m') (hsuccess : output.success = true)
    (hfile : m'.isFile request.artifactPath = true) :
    Built c unit request m (.ok request.artifactPath m')

/-- **Every build ends in one of these ways.** -/
theorem built (c : Compiler) (unit : SourceUnit) (request : Request) (m : Machine) :
    Built c unit request m (c.build unit request m) := by
  rcases hcheck : check unit c.references m with fault | checked
  · have hbuild : c.build unit request m = .error fault m := by
      rw [build]
      exact bind_of_error (asks_eq_error.2 ⟨hcheck, rfl⟩)
    rw [hbuild]
    exact .unfit hcheck
  · obtain ⟨hexterns, names, hnamed, hfirst, hfiles⟩ := check_eq_ok.1 hcheck
    rcases hwrite : writeSources request.sourceDirectory checked.files m with ⟨_, m₁⟩ | ⟨fault, m₁⟩
    · rw [hfiles] at hwrite
      have hcall := Calls.intro hnamed hexterns hfirst (writeSources_eq_ok.1 hwrite)
      rw [build_of_calls hcall, finish]
      rcases hrun : c.toolchain (c.invocation request checked.first) _ with
        ⟨output, m'⟩ | ⟨fault, m'⟩
      · dsimp only
        by_cases hsuccess : output.success = false
        · rw [if_pos hsuccess]
          exact .rejected hcall hrun hsuccess
        · have hsuccess' : output.success = true := Bool.not_eq_false _ ▸ hsuccess
          rw [if_neg hsuccess]
          by_cases hfile : m'.isFile request.artifactPath = true
          · rw [if_pos hfile]
            exact .made hcall hrun hsuccess' hfile
          · rw [if_neg hfile]
            exact .absent hcall hrun hsuccess' (Bool.eq_false_iff.2 hfile)
      · exact .unavailable hcall hrun
    · have hbuild : c.build unit request m = .error (.file fault) m₁ := by
        rw [build, asks_bind hcheck]
        exact bind_of_error (withFault_eq_error hwrite)
      rw [hfiles] at hwrite
      rw [hbuild]
      exact .unwritten hnamed hwrite

/-- **What holds wherever a build can stop** holds after the build: before all, when the files are
written or could not be, and after the run of the toolchain. -/
theorem after_build {motive : Machine → Prop} {c : Compiler} {unit : SourceUnit}
    {request : Request} {m : Machine} (start : motive m)
    (written : ∀ names, Named unit names →
      motive (m.after (writeSources request.sourceDirectory (names.zip unit.files))))
    (called : ∀ invocation m₁, c.Calls unit request m invocation m₁ →
      motive (m₁.after (c.toolchain invocation))) :
    motive (m.after (c.build unit request)) := by
  have hbuilt := c.built unit request m
  rw [after]
  generalize c.build unit request m = result at hbuilt ⊢
  cases hbuilt with
  | unfit hcheck => exact start
  | unwritten hnamed hwrite => exact after_of_eq_error hwrite ▸ written _ hnamed
  | unavailable hcall hrun => exact after_of_eq_error hrun ▸ called _ _ hcall
  | rejected hcall hrun hsuccess => exact after_of_eq_ok hrun ▸ called _ _ hcall
  | absent hcall hrun hsuccess hfile => exact after_of_eq_ok hrun ▸ called _ _ hcall
  | made hcall hrun hsuccess hfile => exact after_of_eq_ok hrun ▸ called _ _ hcall

/-- **A build is right if every stage is.** -/
theorem build_eq_ok {c : Compiler} {unit : SourceUnit} {request : Request} {m m' : Machine}
    {p : FilePath} :
    c.build unit request m = .ok p m' ↔
      p = request.artifactPath ∧ c.Succeeds unit request m m' := by
  constructor
  · intro h
    have hbuilt := c.built unit request m
    rw [h] at hbuilt
    cases hbuilt with
    | made hcall hrun hsuccess hfile => exact ⟨rfl, _, _, _, hcall, hrun, hsuccess, hfile⟩
  · rintro ⟨rfl, invocation, m₁, output, hcall, hrun, hsuccess, hfile⟩
    rw [build_of_calls hcall, finish, hrun]
    simp [hsuccess, hfile]

/-- **A compilation says that it succeeded if it did,** with the artifact's path, and leaves the
machine as the toolchain left it. -/
theorem compile_eq_ok {c : Compiler} {unit : SourceUnit} {request : Request} {m m' : Machine}
    {p : FilePath} :
    c.compile unit request m = .ok p m' ↔
      p = request.artifactPath ∧ c.Succeeds unit request m m' := by
  rw [compile, ← build_eq_ok]
  constructor
  · intro h
    obtain ⟨r, m₁, hattempt, h⟩ := bind_eq_ok.1 h
    rcases attempt_eq_ok.1 hattempt with ⟨path, rfl, hbuild⟩ | ⟨fault, rfl, -⟩
    · cases h
      exact hbuild
    · obtain ⟨_, _, -, h⟩ := bind_eq_ok.1 h
      cases h
  · intro h
    exact bind_of_ok (attempt_of_ok h)

/-- After a failure the artifacts were cleared, or that failed. -/
theorem compile_eq_error {c : Compiler} {unit : SourceUnit} {request : Request} {m m' : Machine}
    {fault : Compile.Fault} (h : c.compile unit request m = .error fault m') :
    c.build unit request m = .error fault (m.after (c.build unit request)) ∧
      (request.clearArtifacts (m.after (c.build unit request)) = .ok () m' ∨
        ∃ cause, request.clearArtifacts (m.after (c.build unit request)) = .error cause m') := by
  rw [compile] at h
  rcases bind_eq_error.1 h with h | ⟨r, m₁, hattempt, h⟩
  · exact absurd h attempt_ne_error
  · rcases attempt_eq_ok.1 hattempt with ⟨path, rfl, -⟩ | ⟨e, rfl, hbuild⟩
    · cases h
    · rw [after_of_eq_error hbuild]
      rcases bind_eq_error.1 h with h | ⟨r, m₂, hattempt, h⟩
      · exact absurd h attempt_ne_error
      · cases h
        refine ⟨hbuild, ?_⟩
        rcases attempt_eq_ok.1 hattempt with ⟨_, rfl, hclear⟩ | ⟨cause, rfl, hclear⟩
        · exact .inl hclear
        · exact .inr ⟨cause, hclear⟩

/-- A build that fails makes a compilation fail. -/
theorem compile_of_build_eq_error {c : Compiler} {unit : SourceUnit} {request : Request}
    {m m₁ m₂ : Machine} {fault : Compile.Fault} (h : c.build unit request m = .error fault m₁)
    (hclear : request.clearArtifacts m₁ = .ok () m₂) :
    c.compile unit request m = .error fault m₂ :=
  (bind_of_ok (attempt_of_error h)).trans (bind_of_ok (attempt_of_ok hclear))

/-! ### The way to the directories -/

/-- The second machine has every directory and link of the first one and is the same as far as paths
and faults go. -/
structure Upholds (m m' : Machine) : Prop where
  wellFormed : m'.tree.WellFormed
  extends' : m'.tree.Extends m.tree
  directory : m'.directory = m.directory
  faults : m'.faults = m.faults

theorem Upholds.trans {m m₁ m₂ : Machine} (h : Upholds m m₁) (h' : Upholds m₁ m₂) :
    Upholds m m₂ :=
  ⟨h'.wellFormed, h'.extends'.trans h.extends', h'.directory.trans h.directory,
    h'.faults.trans h.faults⟩

section Way

variable {c : Compiler} {unit : SourceUnit} {request : Request} {m m₁ m₂ : Machine}

/-- Writing files upholds what was there, also if it stops half-way. -/
theorem upholds_writeSources (ht : m.tree.WellFormed) (directory : FilePath)
    (files : List (Bytes × SourceFile)) : Upholds m (m.after (writeSources directory files)) := by
  have hkeeps : Keeps (m.With fun t => t.WellFormed ∧ t.Extends m.tree)
      (writeSources directory files) := by
    refine keeps_forM fun file _ => keeps_change fun t t' ⟨ht, hext⟩ h => ?_
    exact ⟨ht.writeFile h, Extends.writeFile ht hext h⟩
  have hafter := hkeeps m (.refl ⟨ht, .refl _⟩)
  exact ⟨hafter.tree.1, hafter.tree.2, hafter.directory_eq, hafter.faults_eq⟩

/-- So does all that comes before the toolchain is called. -/
theorem Calls.upholds {invocation : Invocation} (ht : m.tree.WellFormed)
    (h : c.Calls unit request m invocation m₁) : Upholds m m₁ := by
  cases h with
  | @intro names first m₁ hnamed hexterns hfirst hwritten =>
    have hafter := upholds_writeSources ht request.sourceDirectory (names.zip unit.files)
    rw [after_of_eq_ok (writeSources_eq_ok.2 hwritten)] at hafter
    exact ⟨hafter.wellFormed, hafter.extends', hafter.directory, hafter.faults⟩

/-- What leads to a directory leads to it on a machine that upholds this one. -/
theorem Upholds.find_directory (h : Upholds m m₁) {p : FilePath} {loc : Location}
    (hfind : m.tree.find m.directory true p = .ok (loc, .directory)) :
    m₁.tree.find m₁.directory true p = .ok (loc, .directory) := by
  obtain ⟨hlocate, hdir, -⟩ := find_eq_ok.1 hfind
  rw [h.directory]
  exact h.extends'.find_directory hlocate (h.extends'.directory hdir)

/-- So does a toolchain that keeps to the directories of a fresh request, which hold nothing that
was there. -/
theorem Upholds.trans_confines {src art : Location} (hfresh : request.Fresh m src art)
    (h : Upholds m m₁) (hconfines : request.Confines m₁ m₂) : Upholds m m₂ := by
  refine ⟨hconfines.wellFormed h.wellFormed, fun loc node hnode hfile => ?_,
    hconfines.directory.trans h.directory, hconfines.faults.trans h.faults⟩
  rw [hconfines.outside src art (h.find_directory hfresh.source)
    (h.find_directory hfresh.artifact) loc (hfresh.eq_src_or_art hnode)]
  exact h.extends' loc node hnode hfile

/-- **A build upholds what was there when the request was allocated,** however it ends. -/
theorem upholds_build {src art : Location} (hfresh : request.Fresh m src art)
    (hconfined : c.Confined unit request m) : Upholds m (m.after (c.build unit request)) := by
  refine after_build ⟨hfresh.wellFormed, .refl _, rfl, rfl⟩
    (fun names _ => upholds_writeSources hfresh.wellFormed _ _) fun invocation m₁ hcall => ?_
  exact (hcall.upholds hfresh.wellFormed).trans_confines hfresh (hconfined _ _ hcall)

/-- The way to the artifact directory does not lead through what it holds. -/
theorem Upholds.find_artifacts {src art : Location} (hfresh : request.Fresh m src art)
    (h : Upholds m m₁) {t : Tree} (hpruned : Pruned (Below art) m₁.tree t) :
    t.find m₁.directory true request.artifactDirectory = .ok (art, .directory) := by
  obtain ⟨hlocate, hdir, -⟩ := find_eq_ok.1 hfresh.artifact
  have hext := hpruned.extends_right h.extends' hfresh.artifact_free
  rw [h.directory]
  exact hext.find_directory hlocate (hext.directory hdir)

/-- **Cleared artifacts are gone.** -/
theorem namesIn_of_clearArtifacts {src art : Location} (hfresh : request.Fresh m src art)
    (h : Upholds m m₁) (hclear : request.clearArtifacts m₁ = .ok () m₂) :
    m₂.tree.namesIn art = [] :=
  namesIn_of_emptyDirectory_eq_ok h.wellFormed (h.find_artifacts hfresh (.refl _ _)) hclear

/-- So nothing is listed in their directory. -/
theorem namesAt_of_clearArtifacts {src art : Location} (hfresh : request.Fresh m src art)
    (h : Upholds m m₁) (hclear : request.clearArtifacts m₁ = .ok () m₂) :
    m₂.namesAt request.artifactDirectory = .ok [] := by
  have hafter := after_emptyDirectory h.wellFormed (h.find_artifacts hfresh (.refl _ _))
  have hnames := namesIn_of_clearArtifacts hfresh h hclear
  have hclear' : emptyDirectory request.artifactDirectory m₁ = .ok () m₂ := hclear
  rw [after_of_eq_ok hclear'] at hafter
  refine namesAt_eq_ok.2 ⟨art, ?_, hnames.symm⟩
  rw [hafter.directory_eq]
  exact h.find_artifacts hfresh hafter.tree.pruned

/-- **Artifacts can be cleared** on a machine without faults if the directory's path leaves room for
a name. -/
theorem exists_clearArtifacts {src art : Location} (hfresh : request.Fresh m src art)
    (h : Upholds m m₁) (hsound : ∀ k, m.faults k = none)
    (hroom : request.artifactDirectory.length + 1 + maxNameLength ≤ maxPathLength) :
    ∃ m₂, request.clearArtifacts m₁ = .ok () m₂ :=
  exists_emptyDirectory h.wellFormed (h.faults ▸ hsound) (fun _ => h.find_artifacts hfresh)
    (h.wellFormed.length_join_le hroom)

end Way

/-! ### Toolchains that keep to their place -/

section Place

variable {c : Compiler} {unit : SourceUnit} {request : Request} {m m₁ m₂ : Machine}
  {src art : Location}

/-- When the toolchain is called, every link was there before. -/
theorem Calls.link_of_link {invocation : Invocation} (ht : m.tree.WellFormed)
    (h : c.Calls unit request m invocation m₁) {loc : Location} {path : FilePath}
    (hlink : m₁.tree.node? loc = some (.link path)) : m.tree.node? loc = some (.link path) := by
  cases h with
  | @intro names first m₁ hnamed hexterns hfirst hwritten =>
    have hkeeps : Keeps (m.With fun t => t.WellFormed ∧ ∀ loc path,
          t.node? loc = some (.link path) → m.tree.node? loc = some (.link path))
        (writeSources request.sourceDirectory (names.zip unit.files)) := by
      refine keeps_forM fun file _ => keeps_change fun t t' ⟨ht, hold⟩ h => ?_
      refine ⟨ht.writeFile h, fun loc path hlink => ?_⟩
      obtain ⟨n, d, -, -, -, -, rfl⟩ := writeFile_eq_ok ht h
      rw [t.node?_put (List.cons_ne_nil n d)] at hlink
      split at hlink
      · cases hlink
      · exact hold loc path hlink
    exact (hkeeps.ok (.refl ⟨ht, fun _ _ h => h⟩) (writeSources_eq_ok.2 hwritten)).tree.2 _ _
      hlink

/-- The second tree is well-formed and differs from the first one at one location at most. -/
structure ChangedAt (loc : Location) (t t' : Tree) : Prop where
  wellFormed : t'.WellFormed
  elsewhere : ∀ l, l ≠ loc → t'.node? l = t.node? l

/-- An artifact is put in the artifact directory and nowhere else. -/
theorem after_place (ht : m.tree.WellFormed)
    (hart : m.tree.find m.directory true request.artifactDirectory = .ok (art, .directory))
    (hlink : ∀ path, m.tree.node? (libraryName request.id :: art) ≠ some (.link path))
    (artifact : Artifact) :
    m.With (ChangedAt (libraryName request.id :: art) m.tree)
      (m.after (Toolchain.place artifact request.artifactPath)) := by
  obtain ⟨hlocate, hdir, -⟩ := find_eq_ok.1 hart
  have hn := request.id.isName_libraryName
  have hentry {follow : Bool} {loc : Location}
      (h : m.tree.locate m.directory follow request.artifactPath = .ok loc) :
      loc = libraryName request.id :: art := by
    have hjoin : m.tree.locate m.directory follow request.artifactPath
        = .ok (libraryName request.id :: art) :=
      (Extends.refl m.tree).locate_join hlocate hdir hn (locate_eq_ok.1 h).1
        fun path hpath => absurd hpath (hlink path)
    exact Except.ok.inj (h.symm.trans hjoin)
  have hput (node : Node) (loc : Location) (hloc : loc ≠ libraryName request.id :: art) :
      (m.tree.put (libraryName request.id :: art) node).node? loc = m.tree.node? loc := by
    rw [m.tree.node?_put (List.cons_ne_nil _ art), if_neg hloc]
  have hsame : ChangedAt (libraryName request.id :: art) m.tree m.tree := ⟨ht, fun _ _ => rfl⟩
  have hwrite (content : Content) : m.With (ChangedAt (libraryName request.id :: art) m.tree)
      (m.after (Machine.writeFile request.artifactPath content)) := by
    refine after_change hsame fun t h => ⟨ht.writeFile h, ?_⟩
    obtain ⟨n, d, hfile, -, -, -, rfl⟩ := writeFile_eq_ok ht h
    rw [hentry hfile]
    exact hput _
  cases artifact with
  | nothing => exact .refl hsame
  | directory =>
    show m.With _ (m.after (Machine.makeDirectory request.artifactPath))
    refine after_change hsame fun t h => ⟨ht.makeDirectory h, ?_⟩
    obtain ⟨n, d, hdirectory, -, -, -, rfl⟩ := makeDirectory_eq_ok ht h
    rw [hentry hdirectory]
    exact hput _
  | bytes content => exact hwrite (.bytes content)
  | library library => exact hwrite (.library library)

/-- What changes one entry of the artifact directory keeps to the directories of the request. -/
theorem confines_of_changedAt (hfresh : request.Fresh m src art) (hupholds : Upholds m m₁)
    {n : Bytes} (hafter : m₁.With (ChangedAt (n :: art) m₁.tree) m₂) : request.Confines m₁ m₂ := by
  refine ⟨fun _ => hafter.tree.wellFormed, fun src' art' hsrc' hart' loc hloc => ?_,
    hafter.directory_eq, hafter.faults_eq⟩
  rw [hupholds.find_directory hfresh.source] at hsrc'
  rw [hupholds.find_directory hfresh.artifact] at hart'
  cases hsrc'
  cases hart'
  have hbelow : Below art (n :: art) := below_cons n art
  refine hafter.tree.elsewhere loc ?_
  rintro rfl
  rcases hloc with heq | heq | ⟨-, hnot⟩
  · -- the source directory was there, this location was free
    have hfree := hfresh.artifact_free _ hbelow
    rw [heq, (find_eq_ok.1 hfresh.source).2.1] at hfree
    cases hfree
  · exact hbelow.2 heq
  · exact hnot hbelow

/-- When the toolchain is called, there is no link in the artifact directory. -/
theorem Calls.ne_link {invocation : Invocation} (hfresh : request.Fresh m src art)
    (h : c.Calls unit request m invocation m₁) (n : Bytes) (path : FilePath) :
    m₁.tree.node? (n :: art) ≠ some (.link path) := by
  intro hlink
  have hfree := hfresh.artifact_free _ (below_cons n art)
  rw [h.link_of_link hfresh.wellFormed hlink] at hfree
  cases hfree

/-- **A toolchain that puts an artifact and does nothing else keeps to its place.** -/
theorem confined_of_place (hfresh : request.Fresh m src art)
    (h : ∀ (invocation : Invocation) (m₁ : Machine),
      m₁.after (c.toolchain invocation) = m₁ ∨ ∃ artifact,
        m₁.after (c.toolchain invocation)
          = m₁.after (Toolchain.place artifact invocation.output)) :
    c.Confined unit request m := by
  intro invocation m₁ hcall
  have hupholds := hcall.upholds hfresh.wellFormed
  rcases h invocation m₁ with hsame | ⟨artifact, hplace⟩
  · rw [hsame]
    exact ⟨id, fun _ _ _ _ _ _ => rfl, rfl, rfl⟩
  · have houtput : invocation.output = request.artifactPath := by
      cases hcall with
      | intro hnamed hexterns hfirst hwritten => rfl
    rw [hplace, houtput]
    exact confines_of_changedAt hfresh hupholds (after_place hupholds.wellFormed
      (hupholds.find_directory hfresh.artifact) (hcall.ne_link hfresh _) artifact)

/-- So does a program that is run as a toolchain. -/
theorem confined_program (hfresh : request.Fresh m src art) {p : FilePath}
    (hc : c.toolchain = Toolchain.program p) : c.Confined unit request m := by
  refine confined_of_place hfresh fun invocation m₁ => ?_
  rw [hc]
  unfold Toolchain.program
  dsimp only
  split
  · exact .inl (after_of_eq_error (bind_of_error rfl))
  · rcases hfound : Toolchain.firstRunnable m₁ (Toolchain.candidates p m₁) with fault | found
    · exact .inl (after_of_eq_error (bind_of_error (asks_eq_error.2 ⟨hfound, rfl⟩)))
    · refine .inr ⟨found.artifact, ?_⟩
      rcases hplace : Toolchain.place found.artifact invocation.output m₁ with ⟨_, m₂⟩ | ⟨e, m₂⟩
      · rw [after_of_eq_ok hplace]
        exact after_of_eq_ok ((asks_bind hfound).trans (bind_of_ok (attempt_of_ok hplace)))
      · rw [after_of_eq_error hplace]
        exact after_of_eq_ok ((asks_bind hfound).trans (bind_of_ok (attempt_of_error hplace)))

/-- So does a script that puts nothing beside the artifact. -/
theorem confined_script (hfresh : request.Fresh m src art) {artifact : Artifact} {output : Output}
    (hc : c.toolchain = (Toolchain.Script.run artifact [] output).play) :
    c.Confined unit request m := by
  refine confined_of_place hfresh fun invocation m₁ => .inr ⟨artifact, ?_⟩
  rw [hc]
  exact after_bind_pure (Toolchain.place artifact invocation.output) fun _ => output

/-- A file can be written into the artifact directory when the toolchain is called, if its name is
free and its path is not too long. -/
theorem Calls.writeFile_artifact {invocation : Invocation} (hfresh : request.Fresh m src art)
    (h : c.Calls unit request m invocation m₁) {n : Bytes} (hn : FilePath.IsName n)
    (hfree : m₁.tree.node? (n :: art) = none)
    (hlen : (request.artifactDirectory.join n).length ≤ maxPathLength) (content : Content) :
    m₁.tree.writeFile m₁.directory (request.artifactDirectory.join n) content
      = .ok (m₁.tree.put (n :: art) (.file content)) := by
  have hupholds := h.upholds hfresh.wellFormed
  obtain ⟨hlocate, hdir, -⟩ := find_eq_ok.1 (hupholds.find_directory hfresh.artifact)
  exact writeFile_of_free (hn.endsInSlash_join _) ((Extends.refl m₁.tree).locate_join hlocate hdir
    hn (requireWalkable_join hn (locate_eq_ok.1 hlocate).1 hlen)
    fun path hlink => absurd hlink (h.ne_link hfresh n path)) hfree

/-- **A script puts its artifact where it should go,** on a machine without faults if no path is too
long, and the build answers what the script says. -/
theorem exists_build_of_script (hfresh : request.Fresh m src art) (hsound : ∀ k, m.faults k = none)
    (content : Bytes) (output : Output) (file : SourceFile) {n : Bytes} (hn : FilePath.IsName n)
    (hname : FilePath.fileName? (.ofString file.name) = some n) (hart : n :: src ≠ art)
    (hsource : (request.sourceDirectory.join n).length ≤ maxPathLength)
    (hartifact : request.artifactPath.length ≤ maxPathLength) :
    ∃ m', m'.ids = m.ids ∧ m'.idsUsed = m.idsUsed ∧
      (∃ loc, m'.tree.find m'.directory true request.artifactPath
        = .ok (loc, .file (.bytes content))) ∧
      (plain (Toolchain.Script.run (.bytes content) [] output).play).build ⟨[file]⟩ request m =
        if output.success then .ok request.artifactPath m'
        else .error (.rejected output.diagnostics) m' := by
  obtain ⟨invocation, m₁, hcall, htree, hids, hidsUsed⟩ := exists_calls_of_file
    (c := plain (Toolchain.Script.run (.bytes content) [] output).play)
    hfresh hsound rfl hn hname hart hsource
  have hupholds := hcall.upholds hfresh.wellFormed
  have hfree : m₁.tree.node? (libraryName request.id :: art) = none := by
    rw [htree, node?_put _ (List.cons_ne_nil n src),
      if_neg fun heq => hfresh.ne (List.cons.inj heq).2.symm]
    exact hfresh.artifact_free _ (below_cons _ art)
  have htreeWrite := hcall.writeFile_artifact hfresh request.id.isName_libraryName hfree
    hartifact (.bytes content)
  have hwrite := change_of_sound (m := m₁) (hupholds.faults ▸ hsound)
    (f := fun t dir => t.writeFile dir request.artifactPath (.bytes content)) htreeWrite
  have houtput : invocation.output = request.artifactPath := by
    cases hcall with
    | intro hnamed hexterns hfirst hwritten => rfl
  obtain ⟨m', hm'⟩ : ∃ m', m' = { m₁ with
      tree := m₁.tree.put (libraryName request.id :: art) (.file (.bytes content))
      changes := m₁.changes + 1 } := ⟨_, rfl⟩
  rw [← hm'] at hwrite
  have hrun : (plain (Toolchain.Script.run (.bytes content) [] output).play).toolchain invocation m₁
      = .ok output m' := by
    show (Toolchain.place (.bytes content) invocation.output >>= _) m₁ = _
    rw [houtput]
    exact (bind_of_ok hwrite).trans rfl
  obtain ⟨loc, hfound⟩ := find_of_writeFile hupholds.wellFormed htreeWrite
  have hfound' : m'.tree.find m'.directory true request.artifactPath
      = .ok (loc, .file (.bytes content)) := hm' ▸ hfound
  refine ⟨m', hm' ▸ hids, hm' ▸ hidsUsed, ⟨loc, hfound'⟩, ?_⟩
  rw [build_of_calls hcall, finish, hrun]
  cases hsuccess : output.success with
  | false => simp [hsuccess]
  | true => simp [hsuccess, isFile_eq_true.2 ⟨loc, _, hfound'⟩]

end Place

/-- **A compilation succeeds if it should, and leaves no artifact otherwise.** For a request as it
was allocated and a toolchain that changes files only in its directories: the answer is the
artifact's path, on the machine that the toolchain left, if the unit is fit, its files are written,
the toolchain says that it succeeded and its artifact is there; else it is a fault, and nothing
remains in the artifact directory unless listing or removing an entry fails, which it does not
without a fault from outside if the directory's path is not too long. -/
theorem compile_ok_iff_and_cleans {w : Workspace} {m₀ m : Machine} {request : Request}
    (hwell : m₀.tree.WellFormed) (hallocate : w.allocate m₀ = .ok request m) (c : Compiler)
    (unit : SourceUnit) (hconfined : c.Confined unit request m) :
    (∀ p m', c.compile unit request m = .ok p m' ↔
      p = request.artifactPath ∧ c.Succeeds unit request m m') ∧
    ((∃ fault m', c.compile unit request m = .error fault m') ↔
      ¬∃ m', c.Succeeds unit request m m') ∧
    ∀ fault m', c.compile unit request m = .error fault m' →
      (m'.namesAt request.artifactDirectory = .ok [] ∨
        ∃ cause, request.clearArtifacts (m.after (c.build unit request)) = .error cause m') ∧
      ((∀ k, m.faults k = none) →
        request.artifactDirectory.length + 1 + maxNameLength ≤ maxPathLength →
        m'.namesAt request.artifactDirectory = .ok []) := by
  obtain ⟨src, art, hfresh⟩ := fresh_of_allocate hwell hallocate
  have hupholds := upholds_build hfresh hconfined
  refine ⟨fun p m' => compile_eq_ok, ?_, fun fault m' h => ?_⟩
  · constructor
    · rintro ⟨fault, m', h⟩ ⟨m'', hsucceeds⟩
      rw [compile_eq_ok.2 ⟨rfl, hsucceeds⟩] at h
      cases h
    · intro hnone
      rcases h : c.compile unit request m with ⟨p, m'⟩ | ⟨fault, m'⟩
      · exact absurd ⟨m', (compile_eq_ok.1 h).2⟩ hnone
      · exact ⟨fault, m', rfl⟩
  · obtain ⟨-, hclear | ⟨cause, hclear⟩⟩ := compile_eq_error h
    · have hnames := namesAt_of_clearArtifacts hfresh hupholds hclear
      exact ⟨.inl hnames, fun _ _ => hnames⟩
    · refine ⟨.inr ⟨cause, hclear⟩, fun hsound hroom => ?_⟩
      obtain ⟨m₂, hok⟩ := exists_clearArtifacts hfresh hupholds hsound hroom
      rw [hok] at hclear
      cases hclear

/-- A workspace at the root of a machine. -/
def rootWorkspace : Workspace := ⟨[FilePath.slash]⟩

/-- A machine with the two directories of that workspace and nothing else. -/
def scratchMachine : Machine :=
  .sound ((Tree.empty.put [sourcesName] .directory).put [artifactsName] .directory) [] .empty
    fun _ => ⟨0, by decide⟩

theorem wellFormed_scratchMachine : scratchMachine.tree.WellFormed :=
  (wellFormed_empty.put (node?_root _) (by decide) (by decide) (by simp)).put
    (node?_root _) (by decide) (by decide) (by simp)

/-- An entry of the root is found by its absolute path. -/
theorem find_root_entry {t : Tree} {name : Bytes} (hn : FilePath.IsName name)
    (hp : requireWalkable (FilePath.join [FilePath.slash] name) = .ok ())
    (hnode : t.node? [name] = some .directory) :
    t.find [] true (FilePath.join [FilePath.slash] name) = .ok ([name], .directory) := by
  have hroot : t.locate [] true [FilePath.slash] = .ok [] := locate_eq_ok.2 ⟨rfl, walk_nil⟩
  have hlocate : t.locate [] false (FilePath.join [FilePath.slash] name) = .ok [name] :=
    (Extends.refl _).locate_join hroot (node?_root _) hn hp fun _ _ => rfl
  exact (Extends.refl _).find_directory hlocate hnode

/-- The first request of that machine. -/
def scratchRequest : Request where
  id := scratchMachine.ids 0
  sourceDirectory := rootWorkspace.sources.join (.ofString (scratchMachine.ids 0).text)
  artifactDirectory := rootWorkspace.artifacts.join (.ofString (scratchMachine.ids 0).text)

theorem exists_allocate_scratchMachine :
    ∃ m, rootWorkspace.allocate scratchMachine = .ok scratchRequest m ∧
      ∀ k, m.faults k = none :=
  ⟨_, allocate_of_free (w := rootWorkspace) (fun _ => rfl) (by decide)
    (find_root_entry (by decide) rfl rfl) (find_root_entry (by decide) rfl rfl)
    rfl rfl (by decide) (by decide) rfl rfl rfl, fun _ => rfl⟩

/-- A compiler that leaves part of an artifact and then rejects the unit. -/
def rejecting : Compiler :=
  .plain (Toolchain.Script.run (.bytes [0]) [] ⟨false, some 1, "", "error: expected `;`"⟩).play

/-- It makes nothing. -/
theorem not_succeeds_rejecting (unit : SourceUnit) (request : Request) (m : Machine) :
    ¬∃ m', rejecting.Succeeds unit request m m' := by
  rintro ⟨m', invocation, m₁, output, -, hrun, hsuccess, -⟩
  obtain ⟨_, _, -, hrun⟩ := bind_eq_ok.1 hrun
  cases hrun
  cases hsuccess

/-- Its compilation of a command fails and leaves nothing in the artifact directory. -/
theorem compile_rejecting :
    scratchMachine.tree.WellFormed ∧
    ∃ request m, rootWorkspace.allocate scratchMachine = .ok request m ∧
      rejecting.Confined (Snippet.Template.standard.wrap "1 +") request m ∧
      ∃ fault m', rejecting.compile (Snippet.Template.standard.wrap "1 +") request m
          = .error fault m' ∧
        m'.namesAt request.artifactDirectory = .ok [] := by
  have hwell := wellFormed_scratchMachine
  obtain ⟨m, hallocate, hsound⟩ := exists_allocate_scratchMachine
  obtain ⟨src, art, hfresh⟩ := fresh_of_allocate hwell hallocate
  have hconfined : rejecting.Confined (Snippet.Template.standard.wrap "1 +") scratchRequest m :=
    confined_script hfresh rfl
  obtain ⟨-, hfails, hcleans⟩ := compile_ok_iff_and_cleans hwell hallocate rejecting
    (Snippet.Template.standard.wrap "1 +") hconfined
  obtain ⟨fault, m', hfailed⟩ := hfails.2 (not_succeeds_rejecting _ _ _)
  exact ⟨hwell, _, _, hallocate, hconfined, fault, m', hfailed,
    (hcleans fault m' hfailed).2 hsound (by decide)⟩

end Compiler
end SnippetConsole
