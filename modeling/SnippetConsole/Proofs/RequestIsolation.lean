/-
# Requests beside each other

Requests of one workspace do not get into each other's way, however many of them fail
(`requests_isolated`): their directories have the same names among the sources and among the
artifacts, no artifact is lost or changed, and what a failed compilation made is cleared away.

Where that ends (`isolation_has_exceptions`):

| directory | what may be left in it |
| --- | --- |
| the sources | halves: a directory whose other one could not be made, nor it be taken back |
| the artifacts of one request | what a failed compilation made, if it cannot be cleared away |
-/

import Mathlib.Data.List.Perm.Subperm
import SnippetConsole.Proofs.RequestRuns

namespace SnippetConsole
namespace Workspace

open FileTree FileTree.Tree Machine
open FilePath (IsName)
open Compiler (Upholds)

/-- **Requests do not get into each other's way.** After any calls on a workspace that was made, on
a well-formed tree and whatever changes fail:

- The names of the allocated requests are distinct. The artifacts' directory holds these and no
  others. The sources' directory holds these and the names of the ids that were tried in vain and
  left half of their pair, and no others. For each half two changes in a row failed for an outside
  reason: the one that should have made the other directory, and the one that should have removed
  this one. So there are none if no two changes in a row fail.
- The artifact of each compilation that succeeded is there, with the content that it had then.
- The artifact directory of each request whose compilation failed is empty, unless clearing it
  failed; that takes a change that fails for an outside reason or a path too long for the system. -/
theorem requests_isolated {p : FilePath} {w : Workspace} {m m₀ m' : Machine}
    {records : List Record} {tried : List Machine} (ht : m.tree.WellFormed)
    (h : initialise p m = .ok w m₀) (hran : Ran w m₀ records tried m') :
    (names records).Nodup ∧
    (∃ sources artifacts, m'.namesAt w.sources = .ok sources ∧
      m'.namesAt w.artifacts = .ok artifacts ∧ artifacts.Perm (names records) ∧ sources.Nodup ∧
      (∀ n, n ∈ sources ↔
        n ∈ names records ∨ ∃ t ∈ tried, w.LeavesHalfAt t ∧ n = (w.nextRequest t).name) ∧
      ((∀ k, m.faults k = none ∨ m.faults (k + 1) = none) → sources.Perm (names records))) ∧
    (∀ t ∈ tried, w.LeavesHalfAt t →
      m.faults (t.changes + 1) ≠ none ∧ m.faults (t.changes + 2) ≠ none) ∧
    ∀ r ∈ records, r.request = w.requestOf r.request.id ∧
      (r.standing = .waiting → m'.namesAt r.request.sourceDirectory = .ok [] ∧
        m'.namesAt r.request.artifactDirectory = .ok []) ∧
      (∀ content, r.standing = .made content → ∃ loc,
        m'.tree.find m'.directory true r.request.artifactPath = .ok (loc, .file content)) ∧
      (r.standing = .failed → m'.namesAt r.request.artifactDirectory = .ok []) ∧
      (r.standing = .uncleared → (∃ k, m.faults k ≠ none) ∨
        maxPathLength < r.request.artifactDirectory.length + 1 + maxNameLength) := by
  obtain ⟨root, hmade, hsite⟩ := site_of_initialise ht h
  have hfaults := hmade.faults_eq
  have hisolated := hran.isolated hsite
  have hwell := hisolated.upholds.wellFormed
  have hlist {p : FilePath} {loc : Location} {found : List Bytes}
      (hfind : m'.tree.find m'.directory true p = .ok (loc, .directory))
      (hnames : m'.tree.namesIn loc = found) : m'.namesAt p = .ok found :=
    namesAt_eq_ok.2 ⟨loc, hfind, hnames.symm⟩
  have hhalf : ∀ t ∈ tried, w.LeavesHalfAt t →
      m.faults (t.changes + 1) ≠ none ∧ m.faults (t.changes + 2) ≠ none :=
    hfaults ▸ hisolated.faults_of_half
  refine ⟨hisolated.nodup, ⟨_, _,
    hlist (hisolated.upholds.find_directory hsite.find_sources) rfl,
    hlist (hisolated.upholds.find_directory hsite.find_artifacts) rfl, ?_,
    hwell.nodup_namesIn _, hisolated.source_names, fun hnotTwo => ?_⟩, hhalf, fun r hr => ?_⟩
  · exact (List.perm_ext_iff_of_nodup (hwell.nodup_namesIn _) hisolated.nodup).2
      hisolated.artifact_names
  · refine (List.perm_ext_iff_of_nodup (hwell.nodup_namesIn _) hisolated.nodup).2 fun n =>
      (hisolated.source_names n).trans (or_iff_left ?_)
    rintro ⟨t, ht, hleaves, -⟩
    obtain ⟨hfault, hfault'⟩ := hhalf t ht hleaves
    exact (hnotTwo (t.changes + 1)).elim hfault hfault'
  · have hholds := hisolated.holds r hr
    have hstanding := hholds.standing
    refine ⟨hholds.request_eq, fun heq => ?_, fun content heq => ?_, fun heq => ?_,
      fun heq => ?_⟩
    · rw [heq] at hstanding
      have hempty {dir : Location} (hdir : dir = r.request.name :: sourcesName :: root ∨
          dir = r.request.name :: artifactsName :: root) : m'.tree.namesIn dir = [] := by
        refine List.eq_nil_iff_forall_not_mem.2 fun n hn => ?_
        obtain ⟨node, hnode⟩ := mem_namesIn.1 hn
        rw [hstanding _ (hdir.imp (· ▸ below_cons n dir) (· ▸ below_cons n dir))] at hnode
        cases hnode
      exact ⟨hlist hholds.source (hempty (.inl rfl)), hlist hholds.artifact (hempty (.inr rfl))⟩
    · rw [heq] at hstanding
      exact hstanding
    · rw [heq] at hstanding
      exact hlist hholds.artifact hstanding
    · rw [heq] at hstanding
      have hwhy : (∃ k, m'.faults k ≠ none) ∨ _ := hstanding
      rwa [hisolated.upholds.faults, hfaults] at hwhy

/-! ### Machines without faults -/

/-- The directories of a request have paths of little more length than those of the workspace. -/
theorem length_directories_le (w : Workspace) (id : RequestId) :
    (w.requestOf id).sourceDirectory.length ≤ w.sources.length + 37 ∧
      (w.requestOf id).artifactDirectory.length ≤ w.artifacts.length + 37 := by
  have hn := RequestId.isName_text id
  have hlen := RequestId.length_text id
  have hsource : (w.requestOf id).sourceDirectory.length ≤ _ := hn.length_join_le w.sources
  have hartifact : (w.requestOf id).artifactDirectory.length ≤ _ := hn.length_join_le w.artifacts
  omega

theorem isName_rootName : IsName (FilePath.ofString Snippet.rootName) := by decide

/-- So has a source file. -/
theorem length_rootName_le (w : Workspace) (id : RequestId) :
    ((w.requestOf id).sourceDirectory.join (.ofString Snippet.rootName)).length
      ≤ w.sources.length + 53 := by
  obtain ⟨hsource, -⟩ := w.length_directories_le id
  have hfile := isName_rootName.length_join_le (w.requestOf id).sourceDirectory
  have hlen : (FilePath.ofString Snippet.rootName).length = 15 := by decide
  omega

section Sound

variable {w : Workspace} {m₀ m : Machine} {sources artifacts : Location} {records : List Record}
  {tried : List Machine} (hsite : Site w m₀ sources artifacts)
  (hsound : ∀ k, m₀.faults k = none) (hnew : (w.nextRequest m).name ∉ names records)

include hsite hsound hnew

/-- The next request is allocated on a machine without faults, if none has its name and the root's
path leaves room. -/
theorem Isolated.exists_allocate (h : Isolated w m₀ sources artifacts records tried m)
    (hroom : w.sources.length + 37 ≤ maxPathLength ∧ w.artifacts.length + 37 ≤ maxPathLength) :
    ∃ m', w.allocate m = .ok (w.nextRequest m) m' ∧ m'.ids = m.ids ∧
      m'.idsUsed = m.idsUsed + 1 := by
  have hlen : (w.sources.join (w.nextRequest m).name).length ≤ _ ∧
      (w.artifacts.join (w.nextRequest m).name).length ≤ _ :=
    w.length_directories_le (m.ids m.idsUsed)
  have hfree : m.tree.node? ((w.nextRequest m).name :: sources) = none := by
    refine Option.eq_none_iff_forall_ne_some.2 fun node hnode => ?_
    rcases (h.source_names _).1 (mem_namesIn.2 ⟨node, hnode⟩) with hmem | ⟨t, ht, hhalf, -⟩
    · exact hnew hmem
    · exact (h.faults_of_half t ht hhalf).1 (hsound _)
  have hfree' : m.tree.node? ((w.nextRequest m).name :: artifacts) = none :=
    Option.eq_none_iff_forall_ne_some.2 fun node hnode =>
      hnew ((h.artifact_names _).1 (mem_namesIn.2 ⟨node, hnode⟩))
  exact ⟨_, allocate_of_free (h.upholds.faults ▸ hsound) hsite.ne
    (h.upholds.find_directory hsite.find_sources) (h.upholds.find_directory hsite.find_artifacts)
    hfree hfree' (by omega) (by omega) rfl rfl rfl, rfl, rfl⟩

/-- **And it is compiled:** if the toolchain puts an artifact and says that it succeeded, the
artifact is made, and if it says that it did not, the compilation fails. -/
theorem Ran.exists_compiled (hran : Ran w m₀ records tried m)
    (hroom : w.sources.length + 300 ≤ maxPathLength ∧ w.artifacts.length + 300 ≤ maxPathLength)
    (content : Bytes) (output : Compile.Output) :
    ∃ m', Ran w m₀ (records ++ [⟨w.nextRequest m,
        if output.success then .made (.bytes content) else .failed⟩])
        (tried ++ w.tries maxAttempts m) m' ∧
      m'.ids = m.ids ∧ m'.idsUsed = m.idsUsed + 1 := by
  have hisolated := hran.isolated hsite
  obtain ⟨m₁, hallocate, hids, hidsUsed⟩ := hisolated.exists_allocate hsite hsound hnew
    ⟨by omega, by omega⟩
  have hran₁ := Ran.allocated hran hallocate
  have hisolated₁ := hran₁.isolated hsite
  have hfresh := hisolated₁.fresh hsite
  have hsound₁ : ∀ k, m₁.faults k = none := hisolated₁.upholds.faults ▸ hsound
  have hart : FilePath.ofString Snippet.rootName :: (w.nextRequest m).name :: sources
      ≠ (w.nextRequest m).name :: artifacts := fun heq => by
    have hlen := congrArg List.length heq
    simp [hsite.length_eq] at hlen
  obtain ⟨-, hdirectory⟩ := w.length_directories_le (m.ids m.idsUsed)
  have hsource : ((w.nextRequest m).sourceDirectory.join (.ofString Snippet.rootName)).length ≤ _ :=
    w.length_rootName_le (m.ids m.idsUsed)
  have hclearable : (w.nextRequest m).artifactDirectory.length + 1 + maxNameLength
      ≤ maxPathLength := by
    have hname : maxNameLength = 255 := rfl
    have hartifacts : (w.nextRequest m).artifactDirectory.length ≤ _ := hdirectory
    omega
  have hlibrary := (w.nextRequest m).id.isName_libraryName
  have hartifact : (w.nextRequest m).artifactPath.length ≤ maxPathLength :=
    (hlibrary.length_join_le _).trans
      ((Nat.add_le_add_left hlibrary.length_le _).trans hclearable)
  obtain ⟨m₂, hids₂, hidsUsed₂, ⟨loc, hfound⟩, hbuild⟩ := Compiler.exists_build_of_script hfresh
    hsound₁ content output ⟨Snippet.rootName, ""⟩ isName_rootName (by decide) hart
    (by omega) hartifact
  have hconfined : (Compiler.plain
      (Compile.Toolchain.Script.run (.bytes content) [] output).play).Confined
      ⟨[⟨Snippet.rootName, ""⟩]⟩ _ m₁ := Compiler.confined_script hfresh rfl
  cases hsuccess : output.success with
  | true =>
    rw [hsuccess, if_pos rfl] at hbuild
    exact ⟨m₂, .made hran₁ hconfined (Compiler.compile_eq_ok.2 (Compiler.build_eq_ok.1 hbuild))
      hfound, hids₂.trans hids, hidsUsed₂.trans hidsUsed⟩
  | false =>
    rw [hsuccess, if_neg Bool.false_ne_true] at hbuild
    have hafter := after_of_eq_error hbuild
    have hupholds := Compiler.upholds_build hfresh hconfined
    rw [hafter] at hupholds
    obtain ⟨m₃, hclear⟩ := Compiler.exists_clearArtifacts hfresh hupholds hsound₁ hclearable
    have hcleared : m₂.With _ (m₂.after (w.nextRequest m).clearArtifacts) :=
      after_emptyDirectory hupholds.wellFormed (hupholds.find_artifacts hfresh (.refl _ _))
    rw [after_of_eq_ok hclear] at hcleared
    have hids₃ : m₃.ids = m₂.ids ∧ m₃.idsUsed = m₂.idsUsed := by
      rw [hcleared.rest]
      exact ⟨rfl, rfl⟩
    refine ⟨m₃, .failed hran₁ hconfined (Compiler.compile_of_build_eq_error hbuild hclear)
      (hafter ▸ hclear), hids₃.1.trans (hids₂.trans hids), hids₃.2.trans (hidsUsed₂.trans hidsUsed)⟩

end Sound

/-- A machine with an empty directory for a workspace. -/
def homeMachine : Machine := .sound homeTree [] .empty (RequestId.timeOrdered 0)

/-- Of three requests there the second one fails. The artifacts of the other two are there in the
end, each with its content, and all three have their directories. -/
theorem requests_isolated_homeMachine :
    homeMachine.tree.WellFormed ∧ ∃ w m₀ first second third tried m' sources artifacts,
      initialise (rootEntry scratchName) homeMachine = .ok w m₀ ∧
      Ran w m₀ [⟨first, .made (.bytes [1])⟩, ⟨second, .failed⟩, ⟨third, .made (.bytes [2])⟩] tried
        m' ∧
      (∃ loc, m'.tree.find m'.directory true first.artifactPath = .ok (loc, .file (.bytes [1]))) ∧
      m'.namesAt second.artifactDirectory = .ok [] ∧
      (∃ loc, m'.tree.find m'.directory true third.artifactPath = .ok (loc, .file (.bytes [2]))) ∧
      m'.namesAt w.sources = .ok sources ∧ m'.namesAt w.artifacts = .ok artifacts ∧
      sources.Perm [first.name, second.name, third.name] ∧
      artifacts.Perm [first.name, second.name, third.name] := by
  have hwell : homeMachine.tree.WellFormed := wellFormed_homeTree
  have hinit := initialise_of_ground (m := homeMachine) (fun _ _ => rfl) ground_homeTree
    walkable_scratch
  obtain ⟨root, hmade, hsite⟩ := site_of_initialise hwell hinit
  obtain ⟨m₁, hran₁, hids₁, hidsUsed₁⟩ := Ran.exists_compiled hsite (fun _ => rfl)
    List.not_mem_nil .start (by decide) [1] ⟨true, some 0, "", ""⟩
  have hnext₁ : (Workspace.mk (rootEntry scratchName)).nextRequest m₁
      = (Workspace.mk (rootEntry scratchName)).requestOf (RequestId.timeOrdered 0 1) := by
    rw [nextRequest, hids₁, hidsUsed₁]
    rfl
  obtain ⟨m₂, hran₂, hids₂, hidsUsed₂⟩ := Ran.exists_compiled hsite (fun _ => rfl)
    (by rw [hnext₁]; decide) hran₁ (by decide) [1] ⟨false, some 1, "", "error"⟩
  have hnext₂ : (Workspace.mk (rootEntry scratchName)).nextRequest m₂
      = (Workspace.mk (rootEntry scratchName)).requestOf (RequestId.timeOrdered 0 2) := by
    rw [nextRequest, hids₂, hidsUsed₂, hids₁, hidsUsed₁]
    rfl
  obtain ⟨m₃, hran₃, -, -⟩ := Ran.exists_compiled hsite (fun _ => rfl)
    (by rw [hnext₁, hnext₂]; decide) hran₂ (by decide) [2] ⟨true, some 0, "", ""⟩
  obtain ⟨-, ⟨sources, artifacts, hsources, hartifacts, hperm, -, -, hsame⟩, -, hrecords⟩ :=
    requests_isolated hwell hinit hran₃
  simp only [List.nil_append, List.cons_append, List.forall_mem_cons] at hrecords
  obtain ⟨⟨-, -, hfirst, -⟩, ⟨-, -, -, hsecond, -⟩, ⟨-, -, hthird, -⟩, -⟩ := hrecords
  exact ⟨hwell, _, _, _, _, _, _, m₃, sources, artifacts, hinit, hran₃, hfirst _ rfl, hsecond rfl,
    hthird _ rfl, hsources, hartifacts, hsame fun _ => .inl rfl, hperm⟩

/-! ### What may be left -/

/-- A machine on which two changes fail, after the four that make a workspace and one more. -/
def brokenMachine : Machine :=
  { homeMachine with faults := fun k => if k = 5 ∨ k = 6 then some (.system 5) else none }

/-- They leave half a pair. -/
theorem allocate_brokenMachine :
    ∃ w m₀ fault m' found, initialise (rootEntry scratchName) brokenMachine = .ok w m₀ ∧
      w.allocate m₀ = .error fault m' ∧ m'.namesAt w.artifacts = .ok [] ∧
      m'.namesAt w.sources = .ok found ∧ found ≠ [] := by
  have hwell : brokenMachine.tree.WellFormed := wellFormed_homeTree
  have hinit := initialise_of_ground (m := brokenMachine)
    (fun k hk => if_neg (by show ¬(0 + k = 5 ∨ 0 + k = 6); omega)) ground_homeTree
    walkable_scratch
  obtain ⟨root, -, hsite⟩ := site_of_initialise hwell hinit
  have hfree {dir : Location} (hnames : (furnished [scratchName] homeTree).namesIn dir = [])
      (n : Bytes) : (furnished [scratchName] homeTree).node? (n :: dir) = none :=
    hsite.wellFormed.eq_none_of_namesIn hnames (below_cons n dir)
  -- the first id is tried
  have hid : (Machine.nextId : Act Fault RequestId) { brokenMachine with
      tree := furnished [scratchName] homeTree, changes := 4 } = .ok _ _ := rfl
  obtain ⟨m', hpair, hm, hread⟩ := makePair_join_of_faults hsite
    (RequestId.isName_text (brokenMachine.ids 0)) (m := { brokenMachine with
      tree := furnished [scratchName] homeTree, changes := 4, idsUsed := 1 })
    ⟨hsite.wellFormed, .refl _, rfl, rfl⟩ rfl (hfree hsite.sources_empty _) rfl rfl rfl
  have hupholds : Upholds { brokenMachine with
    tree := furnished [scratchName] homeTree, changes := 4 } m' := ⟨hm.1, hm.2, hm.3, hm.4⟩
  refine ⟨_, _, .allocate 1 (.system 5), m', _, hinit,
    (bind_of_ok hid).trans ((bind_of_ok (attempt_of_error hpair)).trans rfl),
    namesAt_eq_ok.2 ⟨_, hupholds.find_directory hsite.find_artifacts, ?_⟩,
    namesAt_eq_ok.2 ⟨_, hupholds.find_directory hsite.find_sources, rfl⟩,
    List.ne_nil_of_mem (mem_namesIn.2 ⟨_, (hread _).trans (if_pos rfl)⟩)⟩
  refine (List.eq_nil_iff_forall_not_mem.2 fun n hn => ?_).symm
  obtain ⟨node, hnode⟩ := mem_namesIn.1 hn
  rw [hread, if_neg (hsite.entry_ne _ _).symm] at hnode
  cases (hfree hsite.artifacts_empty n).symm.trans hnode

/-- A path of slashes, which leads to the root. -/
def slashes : FilePath := List.replicate 3800 FilePath.slash

/-- A name as long as a name can be. -/
def longName : Bytes := List.replicate maxNameLength 97

theorem length_slashes : slashes.length = 3800 := List.length_replicate

theorem isName_longName : IsName longName := by
  refine FilePath.isName_of_length ?_ ?_ (fun h => ?_) fun h => ?_
  · rw [longName, List.length_replicate]
    decide
  · rw [longName, List.length_replicate]
  · exact absurd (List.eq_of_mem_replicate h) (by decide)
  · exact absurd (List.eq_of_mem_replicate h) (by decide)

theorem names_replicate_slash (k : Nat) :
    FilePath.names (List.replicate k FilePath.slash) = [] := by
  have hpieces : FilePath.pieces (List.replicate k FilePath.slash) = List.replicate (k + 1) [] := by
    induction k with
    | zero => rfl
    | succ k ih => rw [List.replicate_succ, FilePath.pieces, if_pos rfl, ih, ← List.replicate_succ]
  rw [FilePath.names, hpieces]
  simp

/-- A machine with nothing on it. -/
def emptyMachine : Machine := .sound .empty [] .empty (RequestId.timeOrdered 0)

theorem ground_slashes : Ground [] slashes [] Tree.empty where
  wellFormed := wellFormed_empty
  find := by
    have hwalkable : requireWalkable slashes = .ok () := by
      refine requireWalkable_eq_ok.2 ⟨fun h => ?_, fun h => ?_, ?_⟩
      · have hlen := length_slashes
        rw [h] at hlen
        cases hlen
      · exact absurd (List.eq_of_mem_replicate h) (by decide)
      · rw [length_slashes]
        decide
    refine find_eq_ok.2 ⟨locate_eq_ok.2 ⟨hwalkable, ?_⟩, node?_root _, fun _ => rfl⟩
    rw [start, ite_self, slashes, names_replicate_slash, walk_nil]
  free loc hloc := wellFormed_empty.eq_none_of_namesIn rfl hloc

theorem walkable_slashes : Walkable slashes := by
  have hwalkable := (locate_eq_ok.1 (find_eq_ok.1 ground_slashes.find).1).1
  have hname {n : Bytes} (hn : IsName n) (hlen : n.length ≤ 200) :
      requireWalkable (slashes.join n) = .ok () := by
    have hjoin := hn.length_join_le slashes
    have hslashes := length_slashes
    refine requireWalkable_join hn hwalkable ?_
    rw [maxPathLength]
    omega
  simp only [Walkable, List.forall_mem_cons]
  exact ⟨hname isName_markerName (by decide), hname isName_sourcesName (by decide),
    hname isName_artifactsName (by decide), List.forall_mem_nil _⟩

/-- The artifact directory of a request in a workspace at the root, by its shortest path. -/
def shortPath (request : Request) : FilePath := (rootEntry artifactsName).join request.name

/-- A compiler that leaves a file with a long name there and rejects the unit. -/
def littering (request : Request) : Compiler := .plain fun _ => do
  Machine.writeFile ((shortPath request).join longName) (.bytes [])
  pure ⟨false, some 1, "", ""⟩

section Littering

variable {m : Machine} {request : Request}
  (hfresh : request.Fresh m [request.name, sourcesName] [request.name, artifactsName])
  (hdir : m.directory = [])

include hfresh hdir

/-- The file's path leads into the artifact directory. -/
theorem locate_shortPath {m₁ : Machine} (hm₁ : Upholds m m₁)
    (hlink : ∀ path, m₁.tree.node? [longName, request.name, artifactsName] ≠ some (.link path)) :
    m₁.tree.locate m₁.directory true ((shortPath request).join longName)
      = .ok [longName, request.name, artifactsName] := by
  have hartifact : m₁.tree.node? [request.name, artifactsName] = some .directory :=
    hm₁.extends'.directory (find_eq_ok.1 hfresh.artifact).2.1
  have hroot := find_rootEntry isName_artifactsName rfl (hm₁.wellFormed.parent hartifact)
  have hn : IsName request.name := RequestId.isName_text request.id
  have hname : request.name.length = 36 := RequestId.length_text request.id
  have hlong : longName.length = maxNameLength := List.length_replicate
  have hentry : (rootEntry artifactsName).length = 4 := rfl
  have hlen : (shortPath request).length ≤ _ := hn.length_join_le (rootEntry artifactsName)
  have hlen' := isName_longName.length_join_le (shortPath request)
  have hmax : maxNameLength + 100 ≤ maxPathLength := by decide
  have hshort : requireWalkable (shortPath request) = .ok () :=
    requireWalkable_join hn rfl (by rw [← shortPath]; omega)
  have hwalkable : requireWalkable ((shortPath request).join longName) = .ok () :=
    requireWalkable_join isName_longName hshort (by omega)
  have hfind := find_entry_directory (Extends.refl m₁.tree) hroot hn hshort hartifact
  rw [hm₁.directory, hdir]
  exact (locate_entry_eq_ok (Extends.refl m₁.tree) hfind isName_longName true
    fun path h => absurd h (hlink path)).2 ⟨hwalkable, rfl⟩

theorem confined_littering (unit : Snippet.SourceUnit) :
    (littering request).Confined unit request m := by
  intro invocation m₁ hcall
  have hm₁ := hcall.upholds hfresh.wellFormed
  have hlocate := locate_shortPath hfresh hdir hm₁ (hcall.ne_link hfresh longName)
  refine Compiler.confines_of_changedAt hfresh hm₁ (n := longName) ?_
  rw [show m₁.after ((littering request).toolchain invocation) = _ from
    after_bind_pure (Machine.writeFile ((shortPath request).join longName) (.bytes [])) _]
  refine after_change ⟨hm₁.wellFormed, fun _ _ => rfl⟩ fun t hwrite =>
    ⟨hm₁.wellFormed.writeFile hwrite, fun loc hloc => ?_⟩
  obtain ⟨n, d, hwhere, -, -, -, rfl⟩ := writeFile_eq_ok hm₁.wellFormed hwrite
  obtain heq := Except.ok.inj (hwhere.symm.trans hlocate)
  rw [m₁.tree.node?_put (List.cons_ne_nil n d), if_neg (heq ▸ hloc)]

/-- The build fails, and the file is there. -/
theorem build_littering (hsound : ∀ k, m.faults k = none) {file : Snippet.SourceFile} {n : Bytes}
    (hn : IsName n) (hname : FilePath.fileName? (.ofString file.name) = some n)
    (hlen : (request.sourceDirectory.join n).length ≤ maxPathLength) :
    ∃ fault m', (littering request).build ⟨[file]⟩ request m = .error fault m' ∧
      m'.tree.node? [longName, request.name, artifactsName] = some (.file (.bytes [])) := by
  have hart : [n, request.name, sourcesName] ≠ [request.name, artifactsName] :=
    fun heq => by simpa using congrArg List.length heq
  obtain ⟨invocation, m₁, hcall, htree, -⟩ := Compiler.exists_calls_of_file (c := littering request)
    hfresh hsound rfl hn hname hart hlen
  have hm₁ := hcall.upholds hfresh.wellFormed
  have hlocate := locate_shortPath hfresh hdir hm₁ (hcall.ne_link hfresh longName)
  have hfree : m₁.tree.node? [longName, request.name, artifactsName] = none := by
    have hother : [longName, request.name, artifactsName] ≠ [n, request.name, sourcesName] :=
      fun heq => by
        have hne : artifactsName ≠ sourcesName := by decide
        exact hne (by simpa using congrArg List.getLast? heq)
    rw [htree, m.tree.node?_put (List.cons_ne_nil n _), if_neg hother]
    exact hfresh.artifact_free _ (below_cons _ _)
  have hwrite := change_of_sound (m := m₁) (hm₁.faults ▸ hsound)
    (f := fun t dir => t.writeFile dir ((shortPath request).join longName) (.bytes []))
    (writeFile_of_free (isName_longName.endsInSlash_join _) hlocate hfree)
  have hrun : (littering request).toolchain invocation m₁ = .ok ⟨false, some 1, "", ""⟩ _ :=
    (bind_of_ok hwrite).trans rfl
  rw [Compiler.build_of_calls hcall, Compiler.finish, hrun]
  refine ⟨_, _, rfl, ?_⟩
  show (m₁.tree.put _ _).node? _ = _
  rw [node?_put _ (List.cons_ne_nil _ _), if_pos rfl]

/-- A compilation cannot clear the file away if its path, by way of the workspace, is too long. -/
theorem compile_littering (hsound : ∀ k, m.faults k = none) {file : Snippet.SourceFile} {n : Bytes}
    (hn : IsName n) (hname : FilePath.fileName? (.ofString file.name) = some n)
    (hlen : (request.sourceDirectory.join n).length ≤ maxPathLength)
    (hlong : maxPathLength < (request.artifactDirectory.join longName).length) :
    ∃ fault cause m' found, (littering request).compile ⟨[file]⟩ request m = .error fault m' ∧
      request.clearArtifacts (m.after ((littering request).build ⟨[file]⟩ request))
        = .error cause m' ∧
      m'.namesAt request.artifactDirectory = .ok found ∧ found ≠ [] := by
  have hconfined := confined_littering hfresh hdir ⟨[file]⟩
  obtain ⟨fault, m₁, hbuild, hfile⟩ := build_littering hfresh hdir hsound hn hname hlen
  have hm₁ := Compiler.upholds_build hfresh hconfined
  rw [after_of_eq_error hbuild] at hm₁
  have hstays : (m₁.after request.clearArtifacts).tree.node?
      [longName, request.name, artifactsName] = some (.file (.bytes [])) :=
    (node?_after_emptyDirectory_of_long hm₁.wellFormed (hm₁.find_artifacts hfresh (.refl _ _))
      hlong).trans hfile
  have huntouched := untouched_compile hfresh hconfined
  rcases h : (littering request).compile ⟨[file]⟩ request m with ⟨p, m'⟩ | ⟨fault', m'⟩
  · rw [Compiler.build_eq_ok.2 (Compiler.compile_eq_ok.1 h)] at hbuild
    cases hbuild
  · rw [after_of_eq_error h] at huntouched
    have hupholds : Upholds m m' := ⟨huntouched.wellFormed, huntouched.extends hfresh,
      huntouched.directory, huntouched.faults⟩
    have hfind := hupholds.find_directory hfresh.artifact
    obtain ⟨-, hclear | ⟨cause, hclear⟩⟩ := Compiler.compile_eq_error h
    · rw [after_of_eq_error hbuild] at hclear
      rw [after_of_eq_ok hclear] at hstays
      have hmem := mem_namesIn.2 ⟨_, hstays⟩
      rw [Compiler.namesIn_of_clearArtifacts hfresh hm₁ hclear] at hmem
      exact absurd hmem List.not_mem_nil
    · rw [← after_of_eq_error hbuild, after_of_eq_error hclear] at hstays
      exact ⟨fault', cause, m', _, rfl, hclear, namesAt_eq_ok.2 ⟨_, hfind, rfl⟩,
        List.ne_nil_of_mem (mem_namesIn.2 ⟨_, hstays⟩)⟩

end Littering

/-- The workspace by the path of slashes. -/
def slashesWorkspace : Workspace := ⟨slashes⟩

section Lengths

variable {w : Workspace} (hlen : w.root.length = 3800) (id : RequestId)

include hlen

/-- The path leaves room for what a request needs. -/
theorem length_add_le_of_root :
    w.sources.length + 100 ≤ maxPathLength ∧ w.artifacts.length + 100 ≤ maxPathLength := by
  have hroom {n : Bytes} (hn : IsName n) (hshort : n.length ≤ 100) :
      (w.root.join n).length + 100 ≤ maxPathLength := by
    have hjoin := hn.length_join_le w.root
    rw [maxPathLength]
    omega
  exact ⟨hroom isName_sourcesName (by decide), hroom isName_artifactsName (by decide)⟩

/-- A source file has a path that is short enough. -/
theorem length_rootName_le_of_root :
    ((w.requestOf id).sourceDirectory.join (.ofString Snippet.rootName)).length
      ≤ maxPathLength := by
  obtain ⟨hsources, -⟩ := length_add_le_of_root hlen
  have hfile := w.length_rootName_le id
  omega

/-- In an artifact directory a file with a long name has a path that is too long. -/
theorem lt_length_longName_of_root :
    maxPathLength < ((w.requestOf id).artifactDirectory.join longName).length := by
  have hn := RequestId.isName_text id
  have hname := RequestId.length_text id
  have hlong : longName.length = 255 := List.length_replicate
  have hartifacts : artifactsName.length = 3 := rfl
  have hslash := isName_artifactsName.le_length_join w.root
  have hinner : (w.artifacts.join _).length = _ :=
    isName_artifactsName.length_join_join hn w.root
  have houter : ((w.requestOf id).artifactDirectory.join longName).length = _ :=
    hn.length_join_join isName_longName w.artifacts
  have hroot : w.artifacts = w.root.join artifactsName := rfl
  rw [hroot] at hinner houter
  rw [maxPathLength]
  omega

end Lengths

/-- A first request there waits to be compiled. -/
theorem waiting_slashesWorkspace :
    ∃ m₀ id tried m, initialise slashes emptyMachine = .ok slashesWorkspace m₀ ∧
      Ran slashesWorkspace m₀ [⟨slashesWorkspace.requestOf id, .waiting⟩] tried m ∧
      (slashesWorkspace.requestOf id).Fresh m
        [(slashesWorkspace.requestOf id).name, sourcesName]
        [(slashesWorkspace.requestOf id).name, artifactsName] ∧
      m.directory = [] ∧ ∀ k, m.faults k = none := by
  have hwell : emptyMachine.tree.WellFormed := wellFormed_empty
  have hinit := initialise_of_ground (m := emptyMachine) (fun _ _ => rfl) ground_slashes
    walkable_slashes
  obtain ⟨root, hmade, hsite⟩ := site_of_initialise hwell hinit
  obtain rfl := hmade.tree.found _ ground_slashes.find
  obtain ⟨hsources, hartifacts⟩ := length_add_le_of_root (w := slashesWorkspace) length_slashes
  rw [← slashesWorkspace] at hinit hsite
  obtain ⟨m, hallocate, -⟩ := (isolated_start hsite).exists_allocate hsite (fun _ => rfl)
    List.not_mem_nil ⟨by omega, by omega⟩
  have hran := Ran.allocated .start hallocate
  have hisolated := hran.isolated hsite
  have hfresh := (hisolated.holds _ (List.mem_singleton_self _)).fresh hisolated.upholds.wellFormed
    hsite
  exact ⟨_, _, _, m, hinit, hran, hfresh, hisolated.upholds.directory,
    hisolated.upholds.faults ▸ fun _ => rfl⟩

/-- **The directories do not always agree.** After a refused allocation there may be one more among
the sources, and after a failed compilation the artifact directory need not be empty, also on a
machine without faults. -/
theorem isolation_has_exceptions :
    (∃ w m₀ tried m' found, initialise (rootEntry scratchName) brokenMachine = .ok w m₀ ∧
      Ran w m₀ [] tried m' ∧ m'.namesAt w.artifacts = .ok [] ∧ m'.namesAt w.sources = .ok found ∧
      found ≠ []) ∧
    ∃ w m₀ request tried m' found, initialise slashes emptyMachine = .ok w m₀ ∧
      Ran w m₀ [⟨request, .uncleared⟩] tried m' ∧
      m'.namesAt request.artifactDirectory = .ok found ∧ found ≠ [] := by
  obtain ⟨w, m₀, fault, m', found, hinit, hrefused, hartifacts, hsources, hne⟩ :=
    allocate_brokenMachine
  refine ⟨⟨w, m₀, _, m', found, hinit, .refused .start hrefused, hartifacts, hsources, hne⟩, ?_⟩
  obtain ⟨m₁, id, tried, m, hinit', hran, hfresh, hdir, hsound⟩ := waiting_slashesWorkspace
  have hname : FilePath.fileName? (.ofString (Snippet.SourceFile.mk Snippet.rootName "1 +").name)
      = some (FilePath.ofString Snippet.rootName) := by decide
  obtain ⟨fault', cause, m₂, found', hfailed, hclear, hlist, hne'⟩ := compile_littering hfresh hdir
    hsound isName_rootName hname (length_rootName_le_of_root length_slashes id)
      (lt_length_longName_of_root length_slashes id)
  have hran₁ : Ran slashesWorkspace m₁ ([] ++ ⟨_, .waiting⟩ :: []) tried m := hran
  exact ⟨slashesWorkspace, m₁, _, tried, m₂, found', hinit',
    .uncleared hran₁ (confined_littering hfresh hdir _) hfailed hclear, hlist, hne'⟩

end Workspace
end SnippetConsole
