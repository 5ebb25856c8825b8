/-
# What an allocation makes

An allocation tries one fresh id after the other (`tryNext`) until both directories of one can be
made (`allocateWithin_succ`).

An allocated request has two directories that were free before (`makePair_eq_ok`). Nothing lies
in them, except that the second one may lie in the first, if links lead there (`Fresh`). So the
paths of the request lead to them in every tree that has the directories and links of this one.

A pair that is not made is taken back, unless the first directory cannot be removed again
(`LeavesHalf`).
-/

import SnippetConsole.Proofs.Removal
import SnippetConsole.Proofs.RequestNames

namespace SnippetConsole
namespace Workspace

open FileTree FileTree.Tree Machine
open FilePath (IsName)

/-- The request that a workspace makes for an id. -/
def requestOf (w : Workspace) (id : RequestId) : Request :=
  ⟨id, w.sources.join (.ofString id.text), w.artifacts.join (.ofString id.text)⟩

/-- The name of the directories of a request. -/
def Request.name (request : Request) : Bytes := FilePath.ofString request.id.text

/-- Two directories that a request was given, with nothing of anyone else in them. -/
structure Request.Fresh (request : Request) (m : Machine) (src art : Location) : Prop where
  wellFormed : m.tree.WellFormed
  source : m.tree.find m.directory true request.sourceDirectory = .ok (src, .directory)
  artifact : m.tree.find m.directory true request.artifactDirectory = .ok (art, .directory)
  ne : src ≠ art
  source_free : ∀ loc, Below src loc → loc ≠ art → m.tree.node? loc = none
  artifact_free : ∀ loc, Below art loc → m.tree.node? loc = none

/-- In a fresh request all but the two directories themselves is free. -/
theorem Request.Fresh.eq_src_or_art {request : Request} {m : Machine} {src art : Location}
    (hfresh : request.Fresh m src art) {loc : Location} {node : Node}
    (hnode : m.tree.node? loc = some node) :
    loc = src ∨ loc = art ∨ ¬Below src loc ∧ ¬Below art loc := by
  by_cases hart : loc = art
  · exact .inr (.inl hart)
  · refine .inr (.inr ⟨fun hbelow => ?_, fun hbelow => ?_⟩)
    · rw [hfresh.source_free loc hbelow hart] at hnode
      cases hnode
    · rw [hfresh.artifact_free loc hbelow] at hnode
      cases hnode

/-- **Both directories of a pair were free.** -/
theorem makePair_eq_ok {m m' : Machine} (ht : m.tree.WellFormed) {s a : FilePath}
    (h : makePair s a m = .ok () m') :
    ∃ src art,
      m.tree.locate m.directory false s = .ok src ∧ m.tree.node? src = none ∧
      (m.tree.put src .directory).WellFormed ∧ src ≠ [] ∧
      (m.tree.put src .directory).locate m.directory false a = .ok art ∧
      (m.tree.put src .directory).node? art = none ∧
      ((m.tree.put src .directory).put art .directory).WellFormed ∧ art ≠ [] ∧
      m' = { m with
        tree := (m.tree.put src .directory).put art .directory, changes := m.changes + 2 } := by
  obtain ⟨_, m₁, hsource, h⟩ := bind_eq_ok.1 h
  obtain ⟨-, t₁, hmake, rfl⟩ := change_eq_ok.1 hsource
  have ht₁ := ht.makeDirectory hmake
  obtain ⟨n, d, hlocate, -, -, hfree, rfl⟩ := makeDirectory_eq_ok ht hmake
  obtain ⟨r, m₂, hattempt, h⟩ := bind_eq_ok.1 h
  rcases attempt_eq_ok.1 hattempt with ⟨_, rfl, hartifact⟩ | ⟨e, rfl, -⟩
  · obtain ⟨-, t₂, hmake, rfl⟩ := change_eq_ok.1 hartifact
    have ht₂ := ht₁.makeDirectory hmake
    obtain ⟨n', d', hlocate', -, -, hfree', rfl⟩ := makeDirectory_eq_ok ht₁ hmake
    cases h
    exact ⟨_, _, hlocate, hfree, ht₁, List.cons_ne_nil n d, hlocate', hfree', ht₂,
      List.cons_ne_nil n' d', rfl⟩
  · obtain ⟨_, _, -, h⟩ := bind_eq_ok.1 h
    cases h

/-- How a pair is not made: the first directory cannot be made, or the second one cannot, and the
first one is taken back or not. -/
theorem makePair_eq_error {s a : FilePath} {m m' : Machine} {fault : FileTree.Fault}
    (h : makePair s a m = .error fault m') :
    makeDirectory s m = .error fault m' ∨
      ∃ m₁ m₂, makeDirectory s m = .ok () m₁ ∧ makeDirectory a m₁ = .error fault m₂ ∧
        (removeDirectory s m₂ = .ok () m' ∨ ∃ cause, removeDirectory s m₂ = .error cause m') := by
  rcases bind_eq_error.1 h with hfirst | ⟨_, m₁, hfirst, h⟩
  · exact .inl hfirst
  · rcases bind_eq_error.1 h with h | ⟨r, m₂, hattempt, h⟩
    · exact absurd h attempt_ne_error
    rcases attempt_eq_ok.1 hattempt with ⟨_, rfl, -⟩ | ⟨cause, rfl, hsecond⟩
    · cases h
    rcases bind_eq_error.1 h with h | ⟨r, m₃, hattempt, h⟩
    · exact absurd h attempt_ne_error
    cases h
    refine .inr ⟨m₁, m₂, hfirst, hsecond, ?_⟩
    rcases attempt_eq_ok.1 hattempt with ⟨_, rfl, hback⟩ | ⟨cause, rfl, hback⟩
    · exact .inl hback
    · exact .inr ⟨cause, hback⟩

/-- **Half of a pair is left:** the first directory is made, the second one cannot be, and the first
one cannot be removed again. -/
def LeavesHalf (s a : FilePath) (m : Machine) : Prop :=
  ∃ m₁ fault m₂ cause m₃, makeDirectory s m = .ok () m₁ ∧ makeDirectory a m₁ = .error fault m₂ ∧
    removeDirectory s m₂ = .error cause m₃

/-- A pair that is made is not half of one. -/
theorem not_leavesHalf_of_makePair {s a : FilePath} {m m' : Machine}
    (h : makePair s a m = .ok () m') : ¬LeavesHalf s a m := by
  rintro ⟨m₁, fault, m₂, cause, m₃, hfirst, hsecond, -⟩
  obtain ⟨_, _, hfirst', h⟩ := bind_eq_ok.1 h
  cases hfirst.symm.trans hfirst'
  obtain ⟨_, _, hattempt, h⟩ := bind_eq_ok.1 h
  cases (attempt_of_error hsecond).symm.trans hattempt
  obtain ⟨_, _, -, h⟩ := bind_eq_ok.1 h
  cases h

/-- Two directories that were just made at free locations are fresh. -/
theorem fresh_of_free {m : Machine} (ht : m.tree.WellFormed) {request : Request}
    {src art : Location} (hsrc : src ≠ []) (hart : art ≠ [])
    (hlocate : m.tree.locate m.directory false request.sourceDirectory = .ok src)
    (hfree : m.tree.node? src = none) (ht₁ : (m.tree.put src .directory).WellFormed)
    (hlocate' : (m.tree.put src .directory).locate m.directory false request.artifactDirectory
      = .ok art)
    (hfree' : (m.tree.put src .directory).node? art = none)
    (ht₂ : ((m.tree.put src .directory).put art .directory).WellFormed) {k : Nat} :
    request.Fresh { m with
      tree := (m.tree.put src .directory).put art .directory, changes := k } src art := by
  have hne : src ≠ art := by
    rintro rfl
    rw [m.tree.node?_put hsrc, if_pos rfl] at hfree'
    cases hfree'
  have hext := extends_put (m.tree.put src .directory) hart hfree' .directory
  have hext₀ := extends_put m.tree hsrc hfree .directory
  have hsource : ((m.tree.put src .directory).put art .directory).node? src = some .directory := by
    rw [node?_put _ hart, if_neg hne, node?_put _ hsrc, if_pos rfl]
  have hartifact : ((m.tree.put src .directory).put art .directory).node? art
      = some .directory := by
    rw [node?_put _ hart, if_pos rfl]
  refine ⟨ht₂, (hext.trans hext₀).find_directory hlocate hsource,
    hext.find_directory hlocate' hartifact, hne, fun loc hloc hother => ?_, fun loc hloc => ?_⟩
  · rw [node?_put _ hart, if_neg hother, node?_put _ hsrc, if_neg hloc.2]
    exact ht.eq_none_of_below (by simp [hfree]) hloc
  · rw [node?_put _ hart, if_neg hloc.2]
    exact ht₁.eq_none_of_below (by simp [hfree']) hloc

/-- A pair that was made is fresh. -/
theorem fresh_of_makePair {m m' : Machine} (ht : m.tree.WellFormed) {request : Request}
    (h : makePair request.sourceDirectory request.artifactDirectory m = .ok () m') :
    ∃ src art, request.Fresh m' src art := by
  obtain ⟨src, art, hlocate, hfree, ht₁, hsrc, hlocate', hfree', ht₂, hart, rfl⟩ :=
    makePair_eq_ok ht h
  exact ⟨src, art, fresh_of_free ht hsrc hart hlocate hfree ht₁ hlocate' hfree' ht₂⟩

/-- Making a pair keeps a tree well-formed, also if it fails. -/
theorem keeps_makePair (s a : FilePath) :
    Keeps (fun m => m.tree.WellFormed) (makePair s a) := by
  have hmake (p : FilePath) : Keeps (fun m => m.tree.WellFormed) (makeDirectory p) :=
    keeps_change_tree fun _ _ _ ht h => ht.makeDirectory h
  refine (hmake s).bind fun _ => (hmake a).attempt.bind fun r => ?_
  cases r with
  | ok _ => exact keeps_pure _
  | error fault =>
    refine Keeps.bind (Keeps.attempt ?_) fun _ => keeps_throw fault
    exact keeps_change_tree fun _ _ _ ht h => ht.removeDirectory h

/-! ### One id after the other -/

/-- The request of the next id. -/
def nextRequest (w : Workspace) (m : Machine) : Request := w.requestOf (m.ids m.idsUsed)

/-- The machine when the next id is drawn. -/
def afterId (m : Machine) : Machine := { m with idsUsed := m.idsUsed + 1 }

/-- The next id is drawn and its two directories are made. -/
def tryNext (w : Workspace) : Act FileTree.Fault Request := do
  let id ← nextId
  makePair (w.requestOf id).sourceDirectory (w.requestOf id).artifactDirectory
  pure (w.requestOf id)

section Tries

variable {w : Workspace} {m m' : Machine} {request : Request} {fault : FileTree.Fault}

theorem tryNext_eq_ok : w.tryNext m = .ok request m' ↔ request = w.nextRequest m ∧
    makePair (w.nextRequest m).sourceDirectory (w.nextRequest m).artifactDirectory
      (afterId m) = .ok () m' := by
  constructor
  · intro h
    obtain ⟨id, m₁, hid, h⟩ := bind_eq_ok.1 h
    cases hid
    obtain ⟨_, m₂, hpair, h⟩ := bind_eq_ok.1 h
    cases h
    exact ⟨rfl, hpair⟩
  · rintro ⟨rfl, hpair⟩
    exact (bind_of_ok rfl).trans (bind_of_ok hpair)

theorem tryNext_eq_error : w.tryNext m = .error fault m' ↔
    makePair (w.nextRequest m).sourceDirectory (w.nextRequest m).artifactDirectory
      (afterId m) = .error fault m' := by
  constructor
  · intro h
    rcases bind_eq_error.1 h with hid | ⟨id, m₁, hid, h⟩
    · cases hid
    · cases hid
      rcases bind_eq_error.1 h with hpair | ⟨_, m₂, -, h⟩
      · exact hpair
      · cases h
  · intro hpair
    exact (bind_of_ok rfl).trans (bind_of_error hpair)

/-- An allocation goes on with the next id, or ends with this one. -/
theorem allocateWithin_succ (left tried : Nat) (last : FileTree.Fault) :
    w.allocateWithin (left + 1) tried last m =
      match w.tryNext m with
      | .ok request m' => .ok request m'
      | .error fault m' =>
        if fault.kind = .alreadyExists then w.allocateWithin left (tried + 1) fault m'
        else .error (.allocate (tried + 1) fault) m' := by
  have hid : (Machine.nextId : Act Fault RequestId) m = .ok (m.ids m.idsUsed) (afterId m) := rfl
  refine (bind_of_ok hid).trans ?_
  rcases hpair : makePair (w.nextRequest m).sourceDirectory (w.nextRequest m).artifactDirectory
    (afterId m) with ⟨_, m'⟩ | ⟨fault, m'⟩
  · rw [tryNext_eq_ok.2 ⟨rfl, hpair⟩]
    exact bind_of_ok (attempt_of_ok hpair)
  · rw [tryNext_eq_error.2 hpair]
    refine (bind_of_ok (attempt_of_error hpair)).trans ?_
    by_cases hkind : fault.kind = .alreadyExists
    · simp only [if_pos hkind]
    · simp only [if_neg hkind]
      rfl

end Tries

/-- The machines as they are when an allocation draws an id, at most this many of them. -/
def tries (w : Workspace) : (left : Nat) → Machine → List Machine
  | 0, _ => []
  | left + 1, m =>
    m ::
      match w.tryNext m with
      | .ok _ _ => []
      | .error fault m' => if fault.kind = .alreadyExists then tries w left m' else []

/-- The try on this machine leaves half of its pair. -/
def LeavesHalfAt (w : Workspace) (m : Machine) : Prop :=
  LeavesHalf (w.nextRequest m).sourceDirectory (w.nextRequest m).artifactDirectory (afterId m)

/-- **An allocated request is fresh,** however many ids were tried before. -/
theorem fresh_of_allocateWithin {w : Workspace} {left tried : Nat} {fault : FileTree.Fault}
    {m m' : Machine} (ht : m.tree.WellFormed) {request : Request}
    (h : w.allocateWithin left tried fault m = .ok request m') :
    ∃ src art, request.Fresh m' src art := by
  induction left generalizing m tried fault with
  | zero => cases h
  | succ left ih =>
    rw [allocateWithin_succ] at h
    rcases htry : w.tryNext m with ⟨r, m₁⟩ | ⟨e, m₁⟩
    · rw [htry] at h
      cases h
      obtain ⟨rfl, hpair⟩ := tryNext_eq_ok.1 htry
      exact fresh_of_makePair (m := afterId m) ht hpair
    · simp only [htry] at h
      by_cases hkind : e.kind = .alreadyExists
      · rw [if_pos hkind] at h
        exact ih ((keeps_makePair _ _).error (m := afterId m) ht (tryNext_eq_error.1 htry)) h
      · rw [if_neg hkind] at h
        cases h

theorem fresh_of_allocate {w : Workspace} {m m' : Machine} (ht : m.tree.WellFormed)
    {request : Request} (h : w.allocate m = .ok request m') :
    ∃ src art, request.Fresh m' src art := fresh_of_allocateWithin ht h

section Free

variable {m : Machine} (hsound : ∀ k, m.faults k = none) {sources artifacts : Location}
  (hne : sources ≠ artifacts) {s a : FilePath} {name : Bytes}
  (hsources : m.tree.find m.directory true s = .ok (sources, .directory))
  (hartifacts : m.tree.find m.directory true a = .ok (artifacts, .directory))
  (hfree : m.tree.node? (name :: sources) = none)
  (hfree' : m.tree.node? (name :: artifacts) = none)
  (hlen : (s.join name).length ≤ maxPathLength) (hlen' : (a.join name).length ≤ maxPathLength)

include hsound hne hsources hartifacts hfree hfree' hlen hlen'

/-- A pair can be made in two directories in which its name is free. -/
theorem makePair_of_free (hn : IsName name) :
    makePair (s.join name) (a.join name) m = .ok () { m with
      tree := (m.tree.put (name :: sources) .directory).put (name :: artifacts) .directory
      changes := m.changes + 2 } := by
  have hext := extends_put m.tree (List.cons_ne_nil name sources) hfree .directory
  obtain ⟨hlocate, hdir, -⟩ := find_eq_ok.1 hsources
  obtain ⟨hlocate', hdir', -⟩ := find_eq_ok.1 hartifacts
  have hsource := makeDirectory_of_free ((Extends.refl m.tree).locate_join hlocate hdir hn
    (requireWalkable_join hn (locate_eq_ok.1 hlocate).1 hlen) fun _ _ => rfl) hfree
  have hother : name :: artifacts ≠ name :: sources := fun heq => hne (List.cons.inj heq).2.symm
  have hstill : (m.tree.put (name :: sources) .directory).node? (name :: artifacts) = none := by
    rw [node?_put _ (List.cons_ne_nil name sources), if_neg hother]
    exact hfree'
  have hartifact := makeDirectory_of_free (hext.locate_join hlocate' (hext.directory hdir') hn
    (requireWalkable_join hn (locate_eq_ok.1 hlocate').1 hlen') fun _ _ => rfl) hstill
  have hfirst := change_of_sound (f := fun t dir => t.makeDirectory dir (s.join name))
    hsound hsource
  have hsecond := change_of_sound (m := { m with
      tree := m.tree.put (name :: sources) .directory, changes := m.changes + 1 })
    (f := fun t dir => t.makeDirectory dir (a.join name)) hsound hartifact
  exact (bind_of_ok hfirst).trans (bind_of_ok (attempt_of_ok hsecond))

/-- **The first id will do** if both directories of the workspace are there, nothing in them has its
name and no change fails for an outside reason. -/
theorem allocate_of_free {w : Workspace} (hs : w.sources = s) (ha : w.artifacts = a)
    (hname : FilePath.ofString (m.ids m.idsUsed).text = name) :
    w.allocate m = .ok ⟨m.ids m.idsUsed, s.join name, a.join name⟩ { m with
      tree := (m.tree.put (name :: sources) .directory).put (name :: artifacts) .directory
      changes := m.changes + 2
      idsUsed := m.idsUsed + 1 } := by
  have hpair := makePair_of_free (m := { m with idsUsed := m.idsUsed + 1 }) hsound hne hsources
    hartifacts hfree hfree' hlen hlen' (hname ▸ RequestId.isName_text _)
  have hid : (Machine.nextId : Act Fault RequestId) m
      = .ok (m.ids m.idsUsed) { m with idsUsed := m.idsUsed + 1 } := rfl
  refine (bind_of_ok hid).trans ?_
  rw [hname, hs, ha]
  exact bind_of_ok (attempt_of_ok hpair)

end Free

end Workspace
end SnippetConsole
