/-
# How a request is allocated

An allocation tries one fresh id after the other (`tryNext`) until both directories of one can be
made:

| a try | tree afterwards | next |
| --- | --- | --- |
| makes both | two more directories | the request is answered |
| cannot make the first | as before | another id if something had its name already |
| cannot make the second | as before, if the first can be removed | the same |

What holds after some tries in vain (`Tried`) is kept by one more (`Tried.kept`). So whatever an
allocation answers, it is told by its last try: a request is new (`Allocated`), and a fault leaves
nothing (`Refused`).
-/

import SnippetConsole.Proofs.RequestScope

namespace SnippetConsole

namespace FileTree
namespace Tree

end Tree
end FileTree

namespace Workspace

open FileTree FileTree.Tree Machine
open FilePath (IsName)
open Compiler (rootWorkspace scratchMachine wellFormed_scratchMachine find_root_entry)

/-! ### A pair that is not made -/

section Pair

variable {s a : FilePath} {m m' : Machine} {fault : FileTree.Fault}

/-- If the first directory of a pair is made and the second one is not, the first one can be
removed. -/
def TakesBackPair (s a : FilePath) (m : Machine) : Prop :=
  ∀ m₁ m₂ fault, makeDirectory s m = .ok () m₁ → makeDirectory a m₁ = .error fault m₂ →
    ∃ m₃, removeDirectory s m₂ = .ok () m₃

/-- **A pair that is not made leaves the tree as it was,** or with the first directory if that is
not taken back. -/
theorem tree_of_makePair_eq_error (ht : m.tree.WellFormed) {p : FilePath} {n : Bytes}
    (hn : IsName n) (h : makePair (p.join n) a m = .error fault m') :
    m' = { m with tree := m'.tree, changes := m'.changes } ∧
      (m'.tree = m.tree ∨
        ∃ src, src ≠ [] ∧ m.tree.node? src = none ∧ m'.tree = m.tree.put src .directory) ∧
      (TakesBackPair (p.join n) a m → m'.tree = m.tree) := by
  rcases makePair_eq_error h with hfirst | ⟨m₁, m₂, hfirst, hsecond, hback⟩
  · obtain ⟨rfl, -⟩ := change_eq_error.1 hfirst
    exact ⟨rfl, .inl rfl, fun _ => rfl⟩
  · obtain ⟨-, t₁, hmake, hm₁⟩ := change_eq_ok.1 hfirst
    obtain ⟨x, d, hlocate, -, -, hfree, rfl⟩ := makeDirectory_eq_ok ht hmake
    obtain ⟨hm₂, -⟩ := change_eq_error.1 hsecond
    have hsrc := List.cons_ne_nil x d
    rcases hback with hback | ⟨cause, hback⟩
    · obtain ⟨-, t₃, hremove, rfl⟩ := change_eq_ok.1 hback
      rw [hm₂, hm₁] at hremove
      have hsame : t₃ = m.tree :=
        Except.ok.inj (hremove.symm.trans (removeDirectory_of_made ht hn hsrc hlocate hfree))
      exact ⟨by rw [hm₂, hm₁], .inl hsame, fun _ => hsame⟩
    · obtain ⟨rfl, -⟩ := change_eq_error.1 hback
      refine ⟨by rw [hm₂, hm₁], .inr ⟨_, hsrc, hfree, by rw [hm₂, hm₁]⟩, fun hremoves => ?_⟩
      obtain ⟨m₃, hok⟩ := hremoves _ _ _ hfirst hsecond
      rw [hback] at hok
      cases hok

end Pair

/-! ### One id after the other -/

/-- This many ids were tried in vain, as something had a name already. -/
inductive Tried (w : Workspace) (m : Machine) : Nat → Machine → Prop
  | start : Tried w m 0 m
  | again {n m₁ m₂ fault} (htried : Tried w m n m₁) (htry : w.tryNext m₁ = .error fault m₂)
    (hkind : fault.kind = .alreadyExists) : Tried w m (n + 1) m₂

/-- In all tries that an allocation can come to, a directory that was just made can be removed. -/
def TakesBack (w : Workspace) (m : Machine) : Prop :=
  ∀ n m₁, n < maxAttempts → Tried w m n m₁ →
    TakesBackPair (w.nextRequest m₁).sourceDirectory (w.nextRequest m₁).artifactDirectory
      (afterId m₁)

section Tries

variable {w : Workspace} {m m₁ m' : Machine} {request : Request} {fault : FileTree.Fault}
  {n : Nat}

/-- What some tries in vain leave of a machine: nothing that was there is gone, and if directories
that were just made can be removed, nothing new is there. -/
structure Kept (w : Workspace) (m : Machine) (n : Nat) (m' : Machine) : Prop where
  wellFormed : m'.tree.WellFormed
  node?_eq : ∀ loc node, m.tree.node? loc = some node → m'.tree.node? loc = some node
  rest : m' = { m with tree := m'.tree, changes := m'.changes, idsUsed := m.idsUsed + n }
  tree_eq : n ≤ maxAttempts → w.TakesBack m → m'.tree = m.tree

/-- **One more try in vain** keeps it, whatever its fault is. -/
theorem Kept.tryNext (hkept : Kept w m n m₁) (htried : Tried w m n m₁)
    (htry : w.tryNext m₁ = .error fault m') : Kept w m (n + 1) m' := by
  have hpair := tryNext_eq_error.1 htry
  obtain ⟨hrest, htree, hback⟩ :=
    tree_of_makePair_eq_error (m := afterId m₁) hkept.wellFormed (RequestId.isName_text _) hpair
  have hwell := (keeps_makePair _ _).error (m := afterId m₁) hkept.wellFormed hpair
  refine ⟨hwell, fun loc node hnode => ?_, ?_, fun hn hbacks => ?_⟩
  · have hold := hkept.node?_eq loc node hnode
    rcases htree with hsame | ⟨src, hsrc, hfree, hput⟩
    · rw [hsame]
      exact hold
    · have hne : loc ≠ src := by
        rintro rfl
        cases hfree.symm.trans hold
      rw [hput, node?_put _ hsrc, if_neg hne]
      exact hold
  · rw [hrest, afterId, hkept.rest, Nat.add_assoc]
  · exact (hback (hbacks n m₁ (by omega) htried)).trans (hkept.tree_eq (by omega) hbacks)

/-- **What was there is kept through all tries.** -/
theorem Tried.kept (ht : m.tree.WellFormed) (h : Tried w m n m₁) : Kept w m n m₁ := by
  induction h with
  | start => exact ⟨ht, fun _ _ hnode => hnode, rfl, fun _ _ => rfl⟩
  | again htried htry _ ih => exact ih.tryNext htried htry

theorem Kept.faults_eq (h : Kept w m n m₁) : m₁.faults = m.faults := by rw [h.rest]

theorem Kept.directory_eq (h : Kept w m n m₁) : m₁.directory = m.directory := by rw [h.rest]

theorem Kept.ids_eq (h : Kept w m n m₁) : m₁.ids m₁.idsUsed = m.ids (m.idsUsed + n) := by
  rw [h.rest]

theorem Kept.extends (h : Kept w m n m₁) : m₁.tree.Extends m.tree :=
  fun loc node hnode _ => h.node?_eq loc node hnode

theorem Kept.eq_none (h : Kept w m n m₁) {loc : Location} (hnone : m₁.tree.node? loc = none) :
    m.tree.node? loc = none := by
  refine Option.eq_none_iff_forall_ne_some.2 fun node hnode => ?_
  rw [h.node?_eq loc node hnode] at hnone
  cases hnone

end Tries

/-! ### What an allocation answers -/

/-- A request was allocated after this many ids in vain. Its directories are new, nothing of anyone
else is in them, and but for them nothing changed. Both are empty, but if the artifacts' path led
nowhere: it may be a link to where the source directory was made, and then the artifact directory
lies in that. -/
structure Allocated (w : Workspace) (m : Machine) (request : Request) (m' : Machine) (n : Nat)
    (src art : Location) : Prop where
  attempts : n < maxAttempts
  request_eq : request = w.requestOf (m.ids (m.idsUsed + n))
  source_new : m.tree.node? src = none
  artifact_new : m.tree.node? art = none
  fresh : request.Fresh m' src art
  artifact_empty : m'.namesAt request.artifactDirectory = .ok []
  source_empty : m'.namesAt request.sourceDirectory = .ok [] ∨
    m.isDirectory w.artifacts = false ∧
      m'.tree.find m'.directory true w.artifacts = .ok (src, .directory) ∧
      m'.namesAt request.sourceDirectory = .ok [request.name]
  tree_eq : w.TakesBack m → m'.tree = (m.tree.put src .directory).put art .directory
  rest : m' = { m with tree := m'.tree, changes := m'.changes, idsUsed := m.idsUsed + (n + 1) }
  ne_of_standing : ∀ other : Request, m.isDirectory other.sourceDirectory = true ∨
    m.isDirectory other.artifactDirectory = true → request ≠ other

/-- No request was allocated after this many ids in vain and one more. Nothing changed if a
directory that was just made can be removed. -/
structure Refused (w : Workspace) (m : Machine) (why : Fault) (m' : Machine) (n : Nat)
    (cause : FileTree.Fault) : Prop where
  attempts : n < maxAttempts
  fault_eq : why = .allocate (n + 1) cause
  exhausted : cause.kind = .alreadyExists → n + 1 = maxAttempts
  tree_eq : w.TakesBack m → m'.tree = m.tree
  rest : m' = { m with tree := m'.tree, changes := m'.changes, idsUsed := m.idsUsed + (n + 1) }

section Answers

variable {w : Workspace} {m m₁ m' : Machine} {request : Request} {n : Nat}

/-- What leads to a new directory led to none before. -/
theorem not_isDirectory_of_new {loc : Location} {p : FilePath} (hext : m'.tree.Extends m.tree)
    (hdir : m'.directory = m.directory) (hnew : m.tree.node? loc = none)
    (hfind : m'.tree.find m'.directory true p = .ok (loc, .directory)) :
    ¬m.isDirectory p = true := by
  intro hold
  obtain ⟨loc', hfind'⟩ := isDirectory_eq_true.1 hold
  obtain ⟨hlocate, hnode, -⟩ := find_eq_ok.1 hfind'
  rw [hdir, hext.find_directory hlocate (hext.directory hnode)] at hfind
  cases hfind
  cases hnew.symm.trans hnode

/-- **The first directory of a new pair is empty,** unless the second one was made in it, where its
parent's path leads. -/
theorem Request.Fresh.namesAt_source {src art : Location} (hfresh : request.Fresh m' src art)
    {t : Tree} (hext : m'.tree.Extends t) {a : FilePath} (ha : a ≠ [])
    (hplace : t.locate m'.directory false (a.join request.name) = .ok art) :
    m'.namesAt request.sourceDirectory = .ok [] ∨
      m'.tree.find m'.directory true a = .ok (src, .directory) ∧
        m'.namesAt request.sourceDirectory = .ok [request.name] := by
  obtain ⟨parent, hparent, rfl⟩ :=
    exists_find_of_locate_join (RequestId.isName_text request.id) ha hplace
  obtain ⟨hlocate, hnode, -⟩ := find_eq_ok.1 hparent
  have hfind := hext.find_directory hlocate (hext.directory hnode)
  by_cases heq : parent = src
  · subst heq
    have hmem (x : Bytes) : x ∈ m'.tree.namesIn parent ↔ x ∈ [request.name] := by
      rw [mem_namesIn, List.mem_singleton]
      constructor
      · rintro ⟨node, hx⟩
        by_contra hne
        rw [hfresh.source_free _ (below_cons x parent) fun h => hne (List.cons.inj h).1] at hx
        cases hx
      · rintro rfl
        exact ⟨_, (find_eq_ok.1 hfresh.artifact).2.1⟩
    have hnames : m'.tree.namesIn parent = [request.name] := List.perm_singleton.1
      ((List.perm_ext_iff_of_nodup (hfresh.wellFormed.nodup_namesIn parent)
        (List.pairwise_singleton _ _)).2 hmem)
    exact .inr ⟨hfind, namesAt_eq_ok.2 ⟨parent, hfresh.source, hnames.symm⟩⟩
  · have hnone (x : Bytes) : m'.tree.node? (x :: src) = none :=
      hfresh.source_free _ (below_cons x src) fun h => heq (List.cons.inj h).2.symm
    exact .inl (namesAt_eq_ok.2 ⟨src, hfresh.source, (namesIn_eq_nil_iff.2 hnone).symm⟩)

/-- A request that the last of some tries makes is new. -/
theorem Tried.allocated (ht : m.tree.WellFormed) (htried : Tried w m n m₁) (hn : n < maxAttempts)
    (htry : w.tryNext m₁ = .ok request m') : ∃ src art, Allocated w m request m' n src art := by
  have hkept := htried.kept ht
  obtain ⟨hrequest, hpair⟩ := tryNext_eq_ok.1 htry
  rw [← hrequest] at hpair
  obtain ⟨src, art, hlocate, hfree, ht₁, hsrc, hlocate', hfree', ht₂, hart, hm'⟩ :=
    makePair_eq_ok (m := afterId m₁) hkept.wellFormed hpair
  have hfresh : request.Fresh m' src art :=
    hm' ▸ fresh_of_free (m := afterId m₁) hkept.wellFormed hsrc hart hlocate hfree ht₁ hlocate'
      hfree' ht₂
  have hdir : m'.directory = m.directory := by rw [hm', ← hkept.directory_eq]; rfl
  have hart₁ : m₁.tree.node? art = none := by
    rw [← hfree', node?_put _ hsrc, if_neg hfresh.ne.symm]
    rfl
  have hext : (m₁.tree.put src .directory).Extends m.tree :=
    (extends_put _ hsrc hfree .directory).trans hkept.extends
  have hext' : m'.tree.Extends m.tree := by
    rw [hm']
    exact (extends_put _ hart hfree' .directory).trans hext
  have hnew := hkept.eq_none hfree
  have hnew' := hkept.eq_none hart₁
  refine ⟨src, art, hn, ?_, hnew, hnew', hfresh, ?_, ?_, fun hbacks => ?_, ?_,
    fun other hother => ?_⟩
  · rw [hrequest, nextRequest, hkept.ids_eq]
  · have hnone (x : Bytes) : m'.tree.node? (x :: art) = none :=
      hfresh.artifact_free _ (below_cons x art)
    exact namesAt_eq_ok.2 ⟨art, hfresh.artifact, (namesIn_eq_nil_iff.2 hnone).symm⟩
  · have hplace : (m₁.tree.put src .directory).locate m'.directory false
        (w.artifacts.join request.name) = .ok art := by
      rw [hdir, ← hkept.directory_eq]
      rw [hrequest] at hlocate' ⊢
      exact hlocate'
    refine (hfresh.namesAt_source (hm' ▸ extends_put _ hart hfree' .directory)
      (isName_artifactsName.join_ne_nil _) hplace).imp id fun ⟨hfind, hnames⟩ => ?_
    exact ⟨Bool.eq_false_iff.2 (not_isDirectory_of_new hext' hdir hnew hfind), hfind, hnames⟩
  · rw [hm', ← hkept.tree_eq hn.le hbacks]
    rfl
  · rw [hm', afterId, hkept.rest, Nat.add_assoc]
  · rintro rfl
    rcases hother with hother | hother
    · exact not_isDirectory_of_new hext' hdir hnew hfresh.source hother
    · exact not_isDirectory_of_new hext' hdir hnew' hfresh.artifact hother

/-- A fault that the last of some tries meets is answered. -/
theorem Tried.refused (ht : m.tree.WellFormed) (htried : Tried w m n m₁) (hn : n < maxAttempts)
    {cause : FileTree.Fault} (htry : w.tryNext m₁ = .error cause m')
    (hlast : cause.kind = .alreadyExists → n + 1 = maxAttempts) :
    Refused w m (.allocate (n + 1) cause) m' n cause := by
  have hkept := (htried.kept ht).tryNext htried htry
  exact ⟨hn, rfl, hlast, hkept.tree_eq hn, hkept.rest⟩

end Answers

section Crowded

end Crowded

end Workspace
end SnippetConsole
