/-
# Runs of requests

A workspace that was made serves one request after the other (`Ran`). Each has a directory of its
own among the sources and among the artifacts, under the same name:

| step | what it changes |
| --- | --- |
| an id tried in vain | nothing, or it leaves half of its pair, a directory among the sources |
| an id that is given | two new directories, both empty |
| a compilation | what lies below the two directories of its request |

So each step keeps what was there of the requests before it (`Isolated`), and a run keeps it from
its start to its end (`Ran.isolated`). A run remembers every machine on which an id was tried, so
the sources' directory is known name by name: the requests that were given, and the halves.
-/

import SnippetConsole.Execution.Native
import SnippetConsole.Proofs.RequestPairs

namespace SnippetConsole
namespace Workspace

open FileTree FileTree.Tree Machine
open FilePath (IsName)
open Compiler (Upholds)

/-! ### Runs -/

/-- What became of a request so far: it was allocated; its compilation answered an artifact with
this content; its compilation failed and its artifacts were cleared; or that failed as well. -/
inductive Standing where
  | waiting
  | made (content : Content)
  | failed
  | uncleared
  deriving DecidableEq, Repr

/-- A request that was allocated, and what became of it. -/
structure Record where
  request : Request
  standing : Standing
  deriving DecidableEq, Repr

/-- The names of requests. -/
def names (records : List Record) : List Bytes := records.map (·.request.name)

/-- What requests of a workspace come to: allocations, and compilations of allocated requests by
toolchains that change files only in the directories of the request. The list of machines are those
on which an id was tried, in order. -/
inductive Ran (w : Workspace) (m₀ : Machine) : List Record → List Machine → Machine → Prop
  | start : Ran w m₀ [] [] m₀
  | refused {records tried m fault m'} (hran : Ran w m₀ records tried m)
    (h : w.allocate m = .error fault m') : Ran w m₀ records (tried ++ w.tries maxAttempts m) m'
  | allocated {records tried m request m'} (hran : Ran w m₀ records tried m)
    (h : w.allocate m = .ok request m') :
    Ran w m₀ (records ++ [⟨request, .waiting⟩]) (tried ++ w.tries maxAttempts m) m'
  | made {before after tried request m m' p loc content} {c : Compiler}
    {unit : Snippet.SourceUnit} (hran : Ran w m₀ (before ++ ⟨request, .waiting⟩ :: after) tried m)
    (hconfined : c.Confined unit request m) (h : c.compile unit request m = .ok p m')
    (hcontent : m'.tree.find m'.directory true p = .ok (loc, .file content)) :
    Ran w m₀ (before ++ ⟨request, .made content⟩ :: after) tried m'
  | failed {before after tried request m m' fault} {c : Compiler} {unit : Snippet.SourceUnit}
    (hran : Ran w m₀ (before ++ ⟨request, .waiting⟩ :: after) tried m)
    (hconfined : c.Confined unit request m) (h : c.compile unit request m = .error fault m')
    (hclear : request.clearArtifacts (m.after (c.build unit request)) = .ok () m') :
    Ran w m₀ (before ++ ⟨request, .failed⟩ :: after) tried m'
  | uncleared {before after tried request m m' fault cause} {c : Compiler}
    {unit : Snippet.SourceUnit} (hran : Ran w m₀ (before ++ ⟨request, .waiting⟩ :: after) tried m)
    (hconfined : c.Confined unit request m) (h : c.compile unit request m = .error fault m')
    (hclear : request.clearArtifacts (m.after (c.build unit request)) = .error cause m') :
    Ran w m₀ (before ++ ⟨request, .uncleared⟩ :: after) tried m'

/-- **Every compilation of a waiting request is a step of a run,** whatever it comes to. -/
theorem Ran.compile {w : Workspace} {m₀ m : Machine} {before after : List Record}
    {tried : List Machine} {request : Request}
    (hran : Ran w m₀ (before ++ ⟨request, .waiting⟩ :: after) tried m) {c : Compiler}
    {unit : Snippet.SourceUnit} (hconfined : c.Confined unit request m) :
    ∃ standing, standing ≠ .waiting ∧
      Ran w m₀ (before ++ ⟨request, standing⟩ :: after) tried
        (m.after (c.compile unit request)) := by
  rcases h : c.compile unit request m with ⟨p, m'⟩ | ⟨fault, m'⟩
  · rw [after_of_eq_ok h]
    obtain ⟨hp, invocation, m₁, output, -, -, -, hfile⟩ := Compiler.compile_eq_ok.1 h
    obtain ⟨loc, content, hcontent⟩ := isFile_eq_true.1 hfile
    exact ⟨.made content, by simp, .made hran hconfined h (hp ▸ hcontent)⟩
  · rw [after_of_eq_error h]
    obtain ⟨-, hclear | ⟨cause, hclear⟩⟩ := Compiler.compile_eq_error h
    · exact ⟨.failed, by simp, .failed hran hconfined h hclear⟩
    · exact ⟨.uncleared, by simp, .uncleared hran hconfined h hclear⟩

/-- **So is every native build.** -/
theorem Ran.build {w : Workspace} {m₀ m : Machine} {records : List Record} {tried : List Machine}
    (hran : Ran w m₀ records tried m) {c : Compiler} {unit : Snippet.SourceUnit}
    (hconfined : ∀ request m₁, w.allocate m = .ok request m₁ → c.Confined unit request m₁) :
    ∃ more, Ran w m₀ (records ++ more) (tried ++ w.tries maxAttempts m)
      (m.after (Execution.Native.build w c unit)) := by
  rcases h : w.allocate m with ⟨request, m₁⟩ | ⟨fault, m₁⟩
  · obtain ⟨standing, -, hran'⟩ := (Ran.allocated hran h).compile (hconfined request m₁ h)
    refine ⟨[⟨request, standing⟩], ?_⟩
    have hallocate : withFault Execution.Failure.ofWorkspace w.allocate m = .ok request m₁ :=
      withFault_eq_ok.2 h
    have hafter : m.after (Execution.Native.build w c unit)
        = m₁.after (c.compile unit request) := by
      rw [after, Execution.Native.build, bind_of_ok hallocate, withFault, after]
      rcases c.compile unit request m₁ with ⟨p, m'⟩ | ⟨fault, m'⟩
      · rfl
      · rfl
    rw [hafter]
    exact hran'
  · refine ⟨[], ?_⟩
    rw [List.append_nil, Execution.Native.build,
      after_of_eq_error (bind_of_error (withFault_eq_error h))]
    exact .refused hran h

/-! ### Requests that stand -/

/-- What became of a request says this of its directories. -/
def Standing.Holds (m : Machine) (request : Request) (src art : Location) : Standing → Prop
  | .waiting => ∀ loc, Below src loc ∨ Below art loc → m.tree.node? loc = none
  | .made content =>
    ∃ loc, m.tree.find m.directory true request.artifactPath = .ok (loc, .file content)
  | .failed => m.tree.namesIn art = []
  | .uncleared => (∃ k, m.faults k ≠ none) ∨
    maxPathLength < request.artifactDirectory.length + 1 + maxNameLength

/-- A request stands: its directories are there, with what its standing says. -/
structure Record.Holds (w : Workspace) (m : Machine) (sources artifacts : Location) (r : Record) :
    Prop where
  request_eq : r.request = w.requestOf r.request.id
  source : m.tree.find m.directory true r.request.sourceDirectory
    = .ok (r.request.name :: sources, .directory)
  artifact : m.tree.find m.directory true r.request.artifactDirectory
    = .ok (r.request.name :: artifacts, .directory)
  standing : r.standing.Holds m r.request (r.request.name :: sources) (r.request.name :: artifacts)

section Holds

variable {w : Workspace} {m m' : Machine} {sources artifacts : Location} {r : Record}

/-- **A request goes on standing** while no node is lost and nothing changes in its directories. -/
theorem Record.Holds.mono (h : r.Holds w m sources artifacts) (hdir : m'.directory = m.directory)
    (hfaults : m'.faults = m.faults)
    (hkept : ∀ loc node, m.tree.node? loc = some node → m'.tree.node? loc = some node)
    (hsame : ∀ loc,
      Below (r.request.name :: sources) loc ∨ Below (r.request.name :: artifacts) loc →
      m'.tree.node? loc = m.tree.node? loc) : r.Holds w m' sources artifacts := by
  have hext : m'.tree.Extends m.tree := fun loc node hnode _ => hkept loc node hnode
  have hfind {p : FilePath} {loc : Location}
      (hfound : m.tree.find m.directory true p = .ok (loc, .directory)) :
      m'.tree.find m'.directory true p = .ok (loc, .directory) := by
    obtain ⟨hlocate, hnode, -⟩ := find_eq_ok.1 hfound
    rw [hdir]
    exact hext.find_directory hlocate (hkept _ _ hnode)
  refine ⟨h.request_eq, hfind h.source, hfind h.artifact, ?_⟩
  have hstanding := h.standing
  cases hr : r.standing with
  | waiting =>
    rw [hr] at hstanding
    intro loc hloc
    rw [hsame loc hloc]
    exact hstanding loc hloc
  | made content =>
    rw [hr] at hstanding
    obtain ⟨loc, hfound⟩ := hstanding
    obtain ⟨hlocate, hnode, hslash⟩ := find_eq_ok.1 hfound
    have hslash' : endsInSlash r.request.artifactPath = false :=
      r.request.id.isName_libraryName.endsInSlash_join _
    refine ⟨loc, ?_⟩
    rw [hdir]
    exact hext.find_file hlocate hslash' (hkept _ _ hnode)
  | failed =>
    rw [hr] at hstanding
    refine List.eq_nil_iff_forall_not_mem.2 fun n hn => ?_
    rw [mem_namesIn, hsame _ (.inr (below_cons n _)), ← mem_namesIn, hstanding] at hn
    exact List.not_mem_nil hn
  | uncleared =>
    rw [hr] at hstanding
    show (∃ k, m'.faults k ≠ none) ∨ _
    rw [hfaults]
    exact hstanding

/-- A waiting request is as it was allocated. -/
theorem Record.Holds.fresh {request : Request} (ht : m.tree.WellFormed) {m₀ : Machine}
    (hsite : Site w m₀ sources artifacts)
    (h : Record.Holds w m sources artifacts ⟨request, .waiting⟩) :
    request.Fresh m (request.name :: sources) (request.name :: artifacts) where
  wellFormed := ht
  source := h.source
  artifact := h.artifact
  ne := hsite.entry_ne _ _
  source_free loc hloc _ := h.standing loc (.inl hloc)
  artifact_free loc hloc := h.standing loc (.inr hloc)

end Holds

/-- **Requests are isolated:** each has its directories under its own name, there are no others but
for the halves that were left of pairs, each by two changes in a row that failed for an outside
reason, and each request stands. -/
structure Isolated (w : Workspace) (m₀ : Machine) (sources artifacts : Location)
    (records : List Record) (tried : List Machine) (m : Machine) : Prop where
  upholds : Upholds m₀ m
  nodup : (names records).Nodup
  artifact_names : ∀ n, n ∈ m.tree.namesIn artifacts ↔ n ∈ names records
  source_names : ∀ n, n ∈ m.tree.namesIn sources ↔
    n ∈ names records ∨ ∃ t ∈ tried, w.LeavesHalfAt t ∧ n = (w.nextRequest t).name
  faults_of_half : ∀ t ∈ tried, w.LeavesHalfAt t →
    m₀.faults (t.changes + 1) ≠ none ∧ m₀.faults (t.changes + 2) ≠ none
  holds : ∀ r ∈ records, r.Holds w m sources artifacts

section Steps

variable {w : Workspace} {m₀ m m' : Machine} {sources artifacts : Location}
  {records : List Record} {tried : List Machine}

/-- A machine with the same nodes is as good. -/
theorem Isolated.of_same (h : Isolated w m₀ sources artifacts records tried m) (hm : Upholds m m')
    (hsame : ∀ loc, m'.tree.node? loc = m.tree.node? loc) :
    Isolated w m₀ sources artifacts records tried m' where
  upholds := h.upholds.trans hm
  nodup := h.nodup
  artifact_names n := by
    rw [mem_namesIn, hsame, ← mem_namesIn]
    exact h.artifact_names n
  source_names n := by
    rw [mem_namesIn, hsame, ← mem_namesIn]
    exact h.source_names n
  faults_of_half := h.faults_of_half
  holds r hr := (h.holds r hr).mono hm.directory hm.faults
    (fun loc node hnode => (hsame loc).trans hnode) fun loc _ => hsame loc

/-- A try that leaves nothing leaves no half. -/
theorem Isolated.tried_concat (h : Isolated w m₀ sources artifacts records tried m) {t : Machine}
    (ht : ¬w.LeavesHalfAt t) : Isolated w m₀ sources artifacts records (tried ++ [t]) m where
  upholds := h.upholds
  nodup := h.nodup
  artifact_names := h.artifact_names
  source_names n := by
    simp only [h.source_names n, List.mem_append, List.mem_singleton, or_and_right, exists_or,
      exists_eq_left, ht, false_and, or_false]
  faults_of_half t' ht' hhalf := by
    rcases List.mem_append.1 ht' with ht' | ht'
    · exact h.faults_of_half t' ht' hhalf
    · exact absurd (List.mem_singleton.1 ht' ▸ hhalf) ht
  holds := h.holds

/-- The machine goes on when an id is drawn. -/
theorem Isolated.afterId (h : Isolated w m₀ sources artifacts records tried m) :
    Isolated w m₀ sources artifacts records tried (afterId m) :=
  h.of_same ⟨h.upholds.wellFormed, .refl _, rfl, rfl⟩ fun _ => rfl

variable (hsite : Site w m₀ sources artifacts)

include hsite

/-- At first there are none. -/
theorem isolated_start : Isolated w m₀ sources artifacts [] [] m₀ where
  upholds := ⟨hsite.wellFormed, .refl _, rfl, rfl⟩
  nodup := List.nodup_nil
  artifact_names n := by simp [names, hsite.artifacts_empty]
  source_names n := by simp [names, hsite.sources_empty]
  faults_of_half t ht := absurd ht List.not_mem_nil
  holds r hr := absurd hr List.not_mem_nil

/-- **New directories of requests** do not touch those that were there. -/
theorem Isolated.holds_of_added (h : Isolated w m₀ sources artifacts records tried m)
    (hm : Upholds m m') (hadded : ∀ loc, m'.tree.node? loc = m.tree.node? loc ∨
      m.tree.node? loc = none ∧ ∃ n, loc = n :: sources ∨ loc = n :: artifacts) :
    ∀ r ∈ records, r.Holds w m' sources artifacts := by
  refine fun r hr => (h.holds r hr).mono hm.directory hm.faults (fun loc node hnode => ?_)
    fun loc hloc => ?_
  · rcases hadded loc with hsame | ⟨hnone, -⟩
    · rw [hsame]
      exact hnode
    · rw [hnone] at hnode
      cases hnode
  · refine (hadded loc).resolve_right ?_
    rintro ⟨-, n, heq | heq⟩
    · exact (hsite.ne_of_below hloc).1 heq
    · exact (hsite.ne_of_below hloc).2 heq

/-- A pair that is made is that of one more request. -/
theorem Isolated.makePair_eq_ok (h : Isolated w m₀ sources artifacts records tried m)
    {id : RequestId}
    (hpair : makePair (w.requestOf id).sourceDirectory (w.requestOf id).artifactDirectory m
      = .ok () m') :
    Isolated w m₀ sources artifacts (records ++ [⟨w.requestOf id, .waiting⟩]) tried m' := by
  obtain ⟨hfree, hfree', hm, hread, hsource, hartifact⟩ :=
    makePair_join_eq_ok hsite (RequestId.isName_text id) h.upholds hpair
  obtain ⟨n, hn⟩ : ∃ n, n = FilePath.ofString id.text := ⟨_, rfl⟩
  rw [← hn] at hfree hfree' hread hsource hartifact
  have hnew : n ∉ names records := fun hmem => by
    obtain ⟨node, hnode⟩ := mem_namesIn.1 ((h.source_names n).2 (.inl hmem))
    rw [hfree] at hnode
    cases hnode
  have hnames : names (records ++ [⟨w.requestOf id, .waiting⟩]) = names records ++ [n] := by
    rw [hn, names, names, List.map_append]
    rfl
  have hwas (n' : Bytes) (hne : n' ≠ n) {dir : Location} (hdir : dir = sources ∨ dir = artifacts) :
      m'.tree.node? (n' :: dir) = m.tree.node? (n' :: dir) := by
    rw [hread, if_neg]
    rintro (heq | heq) <;> exact hne (List.cons.inj heq).1
  refine ⟨h.upholds.trans hm, ?_, fun n' => ?_, fun n' => ?_, h.faults_of_half, fun r hr => ?_⟩
  · rw [hnames]
    exact List.nodup_append.2 ⟨h.nodup, List.pairwise_singleton _ n, fun a ha b hb hab =>
      hnew (List.mem_singleton.1 hb ▸ hab ▸ ha)⟩
  · rw [hnames, List.mem_append, List.mem_singleton, mem_namesIn]
    by_cases hne : n' = n
    · rw [hne, hread, if_pos (.inr rfl)]
      simp
    · rw [hwas n' hne (.inr rfl), ← mem_namesIn, h.artifact_names]
      simp [hne]
  · rw [hnames, List.mem_append, List.mem_singleton, mem_namesIn]
    by_cases hne : n' = n
    · rw [hne, hread, if_pos (.inl rfl)]
      simp
    · rw [hwas n' hne (.inl rfl), ← mem_namesIn, h.source_names]
      simp [hne]
  · rcases List.mem_append.1 hr with hr | hr
    · refine h.holds_of_added hsite hm (fun loc => ?_) r hr
      rw [hread]
      by_cases hloc : loc = n :: sources ∨ loc = n :: artifacts
      · refine .inr ⟨?_, n, hloc⟩
        rcases hloc with rfl | rfl
        · exact hfree
        · exact hfree'
      · exact .inl (if_neg hloc)
    · obtain rfl := List.mem_singleton.1 hr
      subst hn
      refine ⟨rfl, hsource, hartifact, fun loc hloc => ?_⟩
      -- nothing lay below what was free
      obtain ⟨hne, hne'⟩ := hsite.ne_of_below hloc
      rw [hread, if_neg (not_or.2 ⟨hne, hne'⟩)]
      have ht := h.upholds.wellFormed
      rcases hloc with hloc | hloc
      · exact ht.eq_none_of_below (fun hdir => by cases hfree.symm.trans hdir) hloc
      · exact ht.eq_none_of_below (fun hdir => by cases hfree'.symm.trans hdir) hloc

/-- **An id that is given** adds its request. -/
theorem Isolated.tryNext_eq_ok (h : Isolated w m₀ sources artifacts records tried m)
    {request : Request} (htry : w.tryNext m = .ok request m') :
    Isolated w m₀ sources artifacts (records ++ [⟨request, .waiting⟩]) (tried ++ [m]) m' := by
  obtain ⟨rfl, hpair⟩ := Workspace.tryNext_eq_ok.1 htry
  exact (h.afterId.makePair_eq_ok hsite hpair).tried_concat (not_leavesHalf_of_makePair hpair)

/-- **One that is tried in vain** changes nothing, or leaves half of its pair. -/
theorem Isolated.tryNext_eq_error (h : Isolated w m₀ sources artifacts records tried m)
    {fault : FileTree.Fault} (htry : w.tryNext m = .error fault m') :
    Isolated w m₀ sources artifacts records (tried ++ [m]) m' := by
  have hpair := Workspace.tryNext_eq_error.1 htry
  have hdrawn := h.afterId.upholds
  have hboth (hfree : m.tree.node? ((w.nextRequest m).name :: sources) = none) :
      m.tree.node? ((w.nextRequest m).name :: artifacts) = none := by
    refine Option.eq_none_iff_forall_ne_some.2 fun node hnode => ?_
    have hmem := (h.artifact_names _).1 (mem_namesIn.2 ⟨node, hnode⟩)
    obtain ⟨node', hnode'⟩ := mem_namesIn.1 ((h.source_names _).2 (.inl hmem))
    rw [hfree] at hnode'
    cases hnode'
  obtain ⟨ht, hdir, hfaults, ⟨hnot, hsame⟩ | ⟨hhalf, htwo, hfree, hread⟩⟩ :=
    makePair_join_eq_error hsite (RequestId.isName_text _) hdrawn hboth hpair
  · have hm : Upholds m m' := ⟨ht, fun loc node hnode _ => (hsame loc).trans hnode, hdir, hfaults⟩
    exact (h.of_same hm hsame).tried_concat hnot
  · obtain ⟨n, hn⟩ : ∃ n, n = (w.nextRequest m).name := ⟨_, rfl⟩
    have hread' (loc : Location) : m'.tree.node? loc
        = if loc = n :: sources then some .directory else m.tree.node? loc := hn ▸ hread loc
    have hadded (loc : Location) : m'.tree.node? loc = m.tree.node? loc ∨
        m.tree.node? loc = none ∧ ∃ n, loc = n :: sources ∨ loc = n :: artifacts := by
      rw [hread']
      by_cases hloc : loc = n :: sources
      · exact .inr ⟨by rw [hloc, hn]; exact hfree, n, .inl hloc⟩
      · exact .inl (if_neg hloc)
    have hm : Upholds m m' := by
      refine ⟨ht, fun loc node hnode _ => ?_, hdir, hfaults⟩
      rcases hadded loc with hsame | ⟨hnone, -⟩
      · exact hsame.trans hnode
      · rw [hnone] at hnode
        cases hnode
    have hhalf' : w.LeavesHalfAt m := hhalf
    refine ⟨h.upholds.trans hm, h.nodup, fun n' => ?_, fun n' => ?_, fun t ht hhalf => ?_,
      h.holds_of_added hsite hm hadded⟩
    · rw [mem_namesIn, hread', if_neg (hsite.entry_ne n n').symm, ← mem_namesIn]
      exact h.artifact_names n'
    · -- the name of this try is new among the sources
      have hlast : (∃ t ∈ tried ++ [m], w.LeavesHalfAt t ∧ n' = (w.nextRequest t).name) ↔
          (∃ t ∈ tried, w.LeavesHalfAt t ∧ n' = (w.nextRequest t).name) ∨ n' = n := by
        simp only [List.mem_append, List.mem_singleton, or_and_right, exists_or, exists_eq_left,
          hhalf', true_and, hn]
      rw [hlast, ← or_assoc, ← h.source_names, mem_namesIn, mem_namesIn, hread']
      by_cases hne : n' = n
      · simp [hne]
      · simp [hne]
    · rcases List.mem_append.1 ht with ht | ht
      · exact h.faults_of_half t ht hhalf
      · rw [List.mem_singleton.1 ht, ← h.upholds.faults]
        exact htwo

/-- **An allocation adds its request,** however many ids were tried before. -/
theorem Isolated.allocateWithin (h : Isolated w m₀ sources artifacts records tried m)
    {left count : Nat} {fault : FileTree.Fault} :
    (∀ request m', w.allocateWithin left count fault m = .ok request m' →
      Isolated w m₀ sources artifacts (records ++ [⟨request, .waiting⟩])
        (tried ++ w.tries left m) m') ∧
    ∀ cause m', w.allocateWithin left count fault m = .error cause m' →
      Isolated w m₀ sources artifacts records (tried ++ w.tries left m) m' := by
  induction left generalizing m tried count fault with
  | zero =>
    refine ⟨fun request m' hrun => ?_, fun cause m' hrun => ?_⟩
    · cases hrun
    · cases hrun
      rw [tries, List.append_nil]
      exact h
  | succ left ih =>
    rw [allocateWithin_succ, tries]
    rcases htry : w.tryNext m with ⟨request, m₁⟩ | ⟨e, m₁⟩
    · refine ⟨fun request m' heq => ?_, fun cause m' heq => ?_⟩
      · cases heq
        exact h.tryNext_eq_ok hsite htry
      · cases heq
    · have hnext := h.tryNext_eq_error hsite htry
      dsimp only
      by_cases hkind : e.kind = .alreadyExists
      · rw [if_pos hkind, if_pos hkind, List.append_cons]
        exact ih hnext
      · rw [if_neg hkind, if_neg hkind]
        refine ⟨fun request m' heq => ?_, fun cause m' heq => ?_⟩
        · cases heq
        · cases heq
          exact hnext

/-- A waiting request is fresh. -/
theorem Isolated.fresh {before after : List Record} {request : Request}
    (h : Isolated w m₀ sources artifacts (before ++ ⟨request, .waiting⟩ :: after) tried m) :
    request.Fresh m (request.name :: sources) (request.name :: artifacts) :=
  (h.holds ⟨request, .waiting⟩ (by simp)).fresh h.upholds.wellFormed hsite

/-- **A compilation leaves all other requests as they are.** -/
theorem Isolated.compile {before after : List Record} {request : Request}
    (h : Isolated w m₀ sources artifacts (before ++ ⟨request, .waiting⟩ :: after) tried m)
    (hm : Untouched (request.name :: sources) (request.name :: artifacts) m m')
    {standing : Standing}
    (hstanding : standing.Holds m' request (request.name :: sources) (request.name :: artifacts)) :
    Isolated w m₀ sources artifacts (before ++ ⟨request, standing⟩ :: after) tried m' := by
  have hself := h.holds ⟨request, .waiting⟩ (by simp)
  have hfresh := h.fresh hsite
  have hnames : names (before ++ ⟨request, standing⟩ :: after)
      = names (before ++ ⟨request, .waiting⟩ :: after) := by simp [names]
  have hupholds : Upholds m m' := ⟨hm.wellFormed, hm.extends hfresh, hm.directory, hm.faults⟩
  have hentry (n : Bytes) {dir : Location} (hdir : dir = sources ∨ dir = artifacts) :
      m'.tree.node? (n :: dir) = m.tree.node? (n :: dir) := by
    refine hm.outside _ (.inr (.inr ?_))
    have hne {src : Location} (hsrc : src = request.name :: sources ∨
        src = request.name :: artifacts) : ¬Below src (n :: dir) := by
      intro hbelow
      have hlen := length_lt_of_below hbelow
      have hdepth := hsite.length_eq
      rcases hsrc with rfl | rfl <;> rcases hdir with rfl | rfl <;> simp at hlen <;> omega
    exact ⟨hne (.inl rfl), hne (.inr rfl)⟩
  have hother (r : Record) (hr : r ∈ before ++ ⟨request, .waiting⟩ :: after)
      (hname : r.request.name ≠ request.name) : r.Holds w m' sources artifacts := by
    refine (h.holds r hr).mono hm.directory hm.faults
      (fun loc node hnode => hm.eq_some hfresh hnode) fun loc hloc => ?_
    -- what lies in a directory of one request lies in none of another
    refine hm.outside loc (.inr (.inr ⟨fun hbelow => ?_, fun hbelow => ?_⟩))
    · rcases hloc with hloc | hloc
      · have heq := eq_of_suffix_of_suffix hloc.1 hbelow.1 (by simp)
        exact hname (List.cons.inj heq).1
      · exact hsite.not_suffix _ _ hbelow.1 hloc.1
    · rcases hloc with hloc | hloc
      · exact hsite.not_suffix _ _ hloc.1 hbelow.1
      · have heq := eq_of_suffix_of_suffix hloc.1 hbelow.1 (by simp)
        exact hname (List.cons.inj heq).1
  refine ⟨h.upholds.trans hupholds, hnames ▸ h.nodup, fun n => ?_, fun n => ?_, h.faults_of_half,
    fun r hr => ?_⟩
  · rw [hnames, mem_namesIn, hentry n (.inr rfl), ← mem_namesIn]
    exact h.artifact_names n
  · rw [hnames, mem_namesIn, hentry n (.inl rfl), ← mem_namesIn]
    exact h.source_names n
  · have hnodup := h.nodup
    rw [names, List.map_append, List.map_cons, List.perm_middle.nodup_iff,
      List.nodup_cons] at hnodup
    have hapart (r : Record) (hr : r ∈ before ++ after) : r.request.name ≠ request.name :=
      fun heq => hnodup.1 (heq ▸ List.map_append ▸ List.mem_map_of_mem hr)
    rcases List.mem_append.1 hr with hr | hr
    · exact hother r (List.mem_append_left _ hr) (hapart r (List.mem_append_left _ hr))
    · rcases List.mem_cons.1 hr with rfl | hr
      · exact ⟨hself.request_eq, hupholds.find_directory hself.source,
          hupholds.find_directory hself.artifact, hstanding⟩
      · exact hother r (List.mem_append_right _ (List.mem_cons_of_mem _ hr))
          (hapart r (List.mem_append_right _ hr))

/-- **After every call the requests are isolated.** -/
theorem Ran.isolated (hran : Ran w m₀ records tried m) :
    Isolated w m₀ sources artifacts records tried m := by
  induction hran with
  | start => exact isolated_start hsite
  | refused _ hrun ih => exact (ih.allocateWithin hsite).2 _ _ hrun
  | allocated _ hrun ih => exact (ih.allocateWithin hsite).1 _ _ hrun
  | made _ hconfined hrun hcontent ih =>
    have hm := untouched_compile (ih.fresh hsite) hconfined
    rw [after_of_eq_ok hrun] at hm
    obtain ⟨rfl, -⟩ := Compiler.compile_eq_ok.1 hrun
    exact ih.compile hsite hm ⟨_, hcontent⟩
  | failed _ hconfined hrun hclear ih =>
    have hfresh := ih.fresh hsite
    have hm := untouched_compile hfresh hconfined
    rw [after_of_eq_error hrun] at hm
    refine ih.compile hsite hm ?_
    have hupholds := Compiler.upholds_build hfresh hconfined
    exact Compiler.namesIn_of_clearArtifacts hfresh hupholds hclear
  | uncleared _ hconfined hrun hclear ih =>
    have hfresh := ih.fresh hsite
    have hm := untouched_compile hfresh hconfined
    rw [after_of_eq_error hrun] at hm
    refine ih.compile hsite hm ?_
    by_contra hnot
    obtain ⟨hsound, hroom⟩ := not_or.1 hnot
    rw [hm.faults] at hsound
    obtain ⟨m₂, hok⟩ := Compiler.exists_clearArtifacts hfresh
      (Compiler.upholds_build hfresh hconfined) (fun k => by simpa using not_exists.1 hsound k)
      (not_lt.1 hroom)
    rw [hok] at hclear
    cases hclear

end Steps

end Workspace
end SnippetConsole
