/-
# The directories of requests

A workspace that was made has two directories, for sources and for artifacts, at two locations that
are equally deep (`Site`). As long as no directory and no link goes that was there then, a request's
paths lead to the entries of its name in both (`makePair_join_eq_ok`).

A pair is made as a whole or not at all, but for one case: the second directory cannot be made for
an outside reason, and the first one cannot be taken back for another (`makePair_join_eq_error`). By
itself neither fails. Both paths are equally long, and what has just been made is empty. Then the
first directory stays under the name of the id that was tried.
-/

import SnippetConsole.Proofs.RequestScope

namespace SnippetConsole

namespace FilePath

/-- Joined to a name again, a joined name is followed by a slash. -/
theorem IsName.length_join_join {x n : Bytes} (hx : IsName x) (hn : IsName n) (p : FilePath) :
    ((p.join x).join n).length = (p.join x).length + 1 + n.length := by
  rcases hn.join_cases (p.join x) with ⟨hnil, -⟩ | ⟨q, hq, -⟩ | ⟨-, heq⟩
  · exact absurd hnil (hx.join_ne_nil p)
  · have hslash := hx.endsInSlash_join p
    rw [FileTree.Tree.endsInSlash, hq, List.getLast?_concat] at hslash
    simp at hslash
  · rw [heq, List.length_append, List.length_cons]
    omega

/-- A joined path is at least as long as its parts. -/
theorem IsName.le_length_join {n : Bytes} (hn : IsName n) (p : FilePath) :
    p.length + n.length ≤ (p.join n).length := by
  rcases hn.join_cases p with ⟨rfl, heq⟩ | ⟨q, rfl, heq⟩ | ⟨-, heq⟩
  · rw [heq, List.length_nil, Nat.zero_add]
  · rw [heq]
    simp only [List.length_append, List.length_cons, List.length_nil]
    omega
  · rw [heq, List.length_append, List.length_cons]
    omega

/-- Names of one length make paths of one length. -/
theorem IsName.length_join_eq {x y : Bytes} (hx : IsName x) (hy : IsName y)
    (hlen : x.length = y.length) (p : FilePath) : (p.join x).length = (p.join y).length := by
  unfold join
  rw [hx.isAbsolute_eq, hy.isAbsolute_eq]
  split
  · exact hlen
  · split
    · rw [List.length_append, List.length_append, hlen]
    · rw [List.length_append, List.length_append, List.length_cons, List.length_cons, hlen]

end FilePath

namespace Workspace

open FileTree FileTree.Tree Machine
open FilePath (IsName)
open Compiler (Upholds)

/-! ### Places of requests -/

/-- Two locations in a third one are the same if they are equally deep. -/
theorem eq_of_suffix_of_suffix {a b loc : Location} (ha : a <:+ loc) (hb : b <:+ loc)
    (hlen : a.length = b.length) : a = b :=
  (List.suffix_of_suffix_length_le ha hb hlen.le).eq_of_length hlen

/-- What lies below a location is deeper. -/
theorem length_lt_of_below {dir loc : Location} (h : Below dir loc) : dir.length < loc.length :=
  lt_of_le_of_ne h.1.length_le fun heq => h.2 (h.1.eq_of_length heq).symm

/-- The machine as it was left when the workspace was made, with the locations of the two empty
directories, of all sources and of all artifacts. -/
structure Site (w : Workspace) (m₀ : Machine) (sources artifacts : Location) : Prop where
  wellFormed : m₀.tree.WellFormed
  find_sources : m₀.tree.find m₀.directory true w.sources = .ok (sources, .directory)
  find_artifacts : m₀.tree.find m₀.directory true w.artifacts = .ok (artifacts, .directory)
  sources_empty : m₀.tree.namesIn sources = []
  artifacts_empty : m₀.tree.namesIn artifacts = []
  ne : sources ≠ artifacts
  length_eq : sources.length = artifacts.length
  join_length : ∀ n, IsName n → (w.sources.join n).length = (w.artifacts.join n).length

/-- A workspace that was made has both, in its root. -/
theorem site_of_initialise {p : FilePath} {w : Workspace} {m m₀ : Machine}
    (ht : m.tree.WellFormed) (h : initialise p m = .ok w m₀) :
    ∃ root, m.With (Made m.directory p root m.tree) m₀ ∧
      Site w m₀ (sourcesName :: root) (artifactsName :: root) := by
  obtain ⟨root, base, hground, hwalkable, htree, hmade⟩ := made_of_initialise_eq_ok ht h
  obtain ⟨rfl, -⟩ := initialise_eq_ok.1 h
  have hroot := hmade.tree.find
  rw [← hmade.directory_eq] at hroot
  have hentry {n : Bytes} (hn : IsName n) (hp : requireWalkable (p.join n) = .ok ())
      (hname : n = sourcesName ∨ n = artifactsName) :
      m₀.tree.find m₀.directory true (p.join n) = .ok (n :: root, .directory) ∧
        m₀.tree.namesIn (n :: root) = [] := by
    have hmarker : n ≠ markerName := by rcases hname with rfl | rfl <;> decide
    have hnode : m₀.tree.node? (n :: root) = some .directory := by
      rw [hmade.tree.inside _ (below_cons n root), freshNode?, if_neg (by simp [hmarker]),
        if_pos (by simpa using hname)]
    refine ⟨find_entry_directory (Extends.refl _) hroot hn hp hnode,
      List.eq_nil_iff_forall_not_mem.2 ?_⟩
    intro n' hn'
    obtain ⟨node, hnode'⟩ := mem_namesIn.1 hn'
    rw [hmade.tree.inside _ (below_of_suffix (List.suffix_cons n' _)), freshNode?] at hnode'
    simp at hnode'
  obtain ⟨hsources, hnoSources⟩ := hentry isName_sourcesName (hwalkable _ (by simp)) (.inl rfl)
  obtain ⟨hartifacts, hnoArtifacts⟩ :=
    hentry isName_artifactsName (hwalkable _ (by simp)) (.inr rfl)
  refine ⟨root, hmade, hmade.tree.wellFormed, hsources, hartifacts, hnoSources, hnoArtifacts, ?_,
    rfl, fun n hn => ?_⟩
  · have hne : sourcesName ≠ artifactsName := by decide
    simpa using hne
  · show ((p.join sourcesName).join n).length = ((p.join artifactsName).join n).length
    rw [isName_sourcesName.length_join_join hn, isName_artifactsName.length_join_join hn,
      isName_sourcesName.length_join_eq isName_artifactsName (by decide)]

section Site

variable {w : Workspace} {m₀ : Machine} {sources artifacts : Location}
  (hsite : Site w m₀ sources artifacts)

include hsite

theorem Site.not_suffix (n n' : Bytes) {loc : Location} (h : n :: sources <:+ loc) :
    ¬n' :: artifacts <:+ loc := by
  intro h'
  have heq := eq_of_suffix_of_suffix h h' (by simp [hsite.length_eq])
  exact hsite.ne (List.cons.inj heq).2

/-- An entry among the sources is none among the artifacts. -/
theorem Site.entry_ne (n n' : Bytes) : n :: sources ≠ n' :: artifacts :=
  fun heq => hsite.ne (List.cons.inj heq).2

/-- What lies in a directory of a request is deeper than the directories of requests. -/
theorem Site.ne_of_below {n n' : Bytes} {loc : Location}
    (h : Below (n :: sources) loc ∨ Below (n :: artifacts) loc) :
    loc ≠ n' :: sources ∧ loc ≠ n' :: artifacts := by
  have hlen := hsite.length_eq
  constructor
  · rintro rfl
    rcases h with h | h
    · have := length_lt_of_below h
      simp at this
    · have := length_lt_of_below h
      simp [hlen] at this
  · rintro rfl
    rcases h with h | h
    · have := length_lt_of_below h
      simp [hlen] at this
    · have := length_lt_of_below h
      simp at this

/-! ### Allocations -/

section Pair

variable {n : Bytes} (hn : IsName n) {m m' : Machine} (hm : Upholds m₀ m)

include hn hm

/-- **A pair that is made is new,** and both paths lead to it. -/
theorem makePair_join_eq_ok (h : makePair (w.sources.join n) (w.artifacts.join n) m = .ok () m') :
    m.tree.node? (n :: sources) = none ∧ m.tree.node? (n :: artifacts) = none ∧ Upholds m m' ∧
      (∀ loc, m'.tree.node? loc = if loc = n :: sources ∨ loc = n :: artifacts
        then some .directory else m.tree.node? loc) ∧
      m'.tree.find m'.directory true (w.sources.join n) = .ok (n :: sources, .directory) ∧
      m'.tree.find m'.directory true (w.artifacts.join n) = .ok (n :: artifacts, .directory) := by
  obtain ⟨src, art, hlocate, hfree, -, hsrc, hlocate', hfree', ht₂, hart, rfl⟩ :=
    makePair_eq_ok hm.wellFormed h
  have hput := extends_put m.tree hsrc hfree .directory
  have hput' := extends_put (m.tree.put src .directory) hart hfree' .directory
  have hsource := hm.directory ▸ hlocate
  have hartifact := hm.directory ▸ hlocate'
  obtain ⟨-, rfl⟩ := (locate_entry_eq_ok hm.extends' hsite.find_sources hn false
    fun _ _ => rfl).1 hsource
  obtain ⟨-, rfl⟩ := (locate_entry_eq_ok (hput.trans hm.extends') hsite.find_artifacts hn false
    fun _ _ => rfl).1 hartifact
  have hread (loc : Location) : ((m.tree.put (n :: sources) .directory).put (n :: artifacts)
        .directory).node? loc
      = if loc = n :: sources ∨ loc = n :: artifacts then some .directory
        else m.tree.node? loc := by
    rw [node?_put _ hart, node?_put _ hsrc]
    by_cases ha : loc = n :: artifacts
    · simp [ha]
    · simp [ha]
  have hread' := m.tree.node?_put hsrc .directory (n :: artifacts)
  rw [if_neg (hsite.entry_ne n n).symm, hfree'] at hread'
  refine ⟨hfree, hread'.symm, ⟨ht₂, hput'.trans hput, rfl, rfl⟩, hread, ?_, ?_⟩
  · exact (hput'.trans hput).find_directory hlocate ((hread _).trans (if_pos (.inl rfl)))
  · exact hput'.find_directory hlocate' ((hread _).trans (if_pos (.inr rfl)))

/-- **A pair that is not made leaves nothing, or half of it:** the first directory, if the change
that should make the second one and the change that should remove the first one both fail for an
outside reason. -/
theorem makePair_join_eq_error {fault : FileTree.Fault}
    (hpair : m.tree.node? (n :: sources) = none → m.tree.node? (n :: artifacts) = none)
    (h : makePair (w.sources.join n) (w.artifacts.join n) m = .error fault m') :
    m'.tree.WellFormed ∧ m'.directory = m.directory ∧ m'.faults = m.faults ∧
      (¬LeavesHalf (w.sources.join n) (w.artifacts.join n) m ∧
          (∀ loc, m'.tree.node? loc = m.tree.node? loc) ∨
        LeavesHalf (w.sources.join n) (w.artifacts.join n) m ∧
          (m.faults (m.changes + 1) ≠ none ∧ m.faults (m.changes + 2) ≠ none) ∧
          m.tree.node? (n :: sources) = none ∧
          ∀ loc, m'.tree.node? loc = if loc = n :: sources then some .directory
            else m.tree.node? loc) := by
  have hwell := (keeps_makePair _ _).error hm.wellFormed h
  have hsrc := List.cons_ne_nil n sources
  rcases makePair_eq_error h with hfirst | ⟨m₁, m₂, hfirst, hsecond, hback⟩
  · have hnone : ¬LeavesHalf (w.sources.join n) (w.artifacts.join n) m := by
      rintro ⟨_, _, _, _, _, hmade, -⟩
      cases hfirst.symm.trans hmade
    obtain ⟨rfl, -⟩ := change_eq_error.1 hfirst
    exact ⟨hwell, rfl, rfl, .inl ⟨hnone, fun _ => rfl⟩⟩
  · have hhalf : LeavesHalf (w.sources.join n) (w.artifacts.join n) m ↔
        ∃ cause m₃, removeDirectory (w.sources.join n) m₂ = .error cause m₃ := by
      constructor
      · rintro ⟨_, _, _, cause, m₃, hfirst', hsecond', hstays⟩
        cases hfirst.symm.trans hfirst'
        cases hsecond.symm.trans hsecond'
        exact ⟨cause, m₃, hstays⟩
      · rintro ⟨cause, m₃, hstays⟩
        exact ⟨m₁, fault, m₂, cause, m₃, hfirst, hsecond, hstays⟩
    obtain ⟨-, t₁, hmake, rfl⟩ := change_eq_ok.1 hfirst
    rw [hm.directory] at hmake
    obtain ⟨hwalkable, hfree, rfl⟩ :=
      (makeDirectory_entry_eq_ok hm.extends' hsite.find_sources hn).1 hmake
    have hput := extends_put m.tree hsrc hfree .directory
    have hread := m.tree.node?_put hsrc .directory
    obtain ⟨rfl, hwhy⟩ := change_eq_error.1 hsecond
    have hfault : m.faults (m.changes + 1) ≠ none := by
      intro hnone
      rcases hwhy with hfault | ⟨-, hfailed⟩
      · cases hfault.symm.trans hnone
      · -- it could have been made: its path is as long as the first one's, and nothing is there
        have hwalkable' : requireWalkable (w.artifacts.join n) = .ok () := by
          obtain ⟨hlocate, -⟩ := find_eq_ok.1 hsite.find_artifacts
          refine requireWalkable_join hn (locate_eq_ok.1 hlocate).1 ?_
          rw [← hsite.join_length n hn]
          exact (requireWalkable_eq_ok.1 hwalkable).2.2
        have hfree' : (m.tree.put (n :: sources) .directory).node? (n :: artifacts) = none := by
          rw [hread, if_neg (hsite.entry_ne n n).symm]
          exact hpair hfree
        have hcould := (makeDirectory_entry_eq_ok (hput.trans hm.extends') hsite.find_artifacts
          hn).2 ⟨hwalkable', hfree', rfl⟩
        rw [← hm.directory] at hcould
        exact absurd (hfailed.symm.trans hcould) (by simp)
    have hlocate := (locate_entry_eq_ok hm.extends' hsite.find_sources hn false
      fun _ _ => rfl).2 ⟨hwalkable, rfl⟩
    rw [← hm.directory] at hlocate
    have hcould := removeDirectory_of_made hm.wellFormed hn hsrc hlocate hfree
    rcases hback with hback | ⟨cause, hback⟩
    · -- the first one was taken back
      have hnone : ¬LeavesHalf (w.sources.join n) (w.artifacts.join n) m := by
        rw [hhalf]
        rintro ⟨cause, m₃, hstays⟩
        cases hback.symm.trans hstays
      obtain ⟨-, t₃, hremove, rfl⟩ := change_eq_ok.1 hback
      obtain rfl := Except.ok.inj (hcould.symm.trans hremove)
      exact ⟨hwell, rfl, rfl, .inl ⟨hnone, fun _ => rfl⟩⟩
    · have hsome := hhalf.2 ⟨cause, m', hback⟩
      obtain ⟨rfl, hwhy'⟩ := change_eq_error.1 hback
      have hfault' : m.faults (m.changes + 1 + 1) ≠ none := by
        intro hnone
        rcases hwhy' with hfault' | ⟨-, hfailed⟩
        · cases hfault'.symm.trans hnone
        · exact absurd (hfailed.symm.trans hcould) (by simp)
      exact ⟨hwell, rfl, rfl, .inr ⟨hsome, ⟨hfault, hfault'⟩, hfree, hread⟩⟩

/-- If they do, it stays. -/
theorem makePair_join_of_faults (hp : requireWalkable (w.sources.join n) = .ok ())
    (hfree : m.tree.node? (n :: sources) = none) {fault cause : FileTree.Fault}
    (hsound : m.faults m.changes = none) (hfault : m.faults (m.changes + 1) = some fault)
    (hcause : m.faults (m.changes + 1 + 1) = some cause) :
    ∃ m', makePair (w.sources.join n) (w.artifacts.join n) m = .error fault m' ∧ Upholds m m' ∧
      ∀ loc, m'.tree.node? loc = if loc = n :: sources then some .directory
        else m.tree.node? loc := by
  have hsrc := List.cons_ne_nil n sources
  have hmake := (makeDirectory_entry_eq_ok hm.extends' hsite.find_sources hn).2 ⟨hp, hfree, rfl⟩
  rw [← hm.directory] at hmake
  have hfirst : Machine.makeDirectory (w.sources.join n) m = .ok () { m with
      tree := m.tree.put (n :: sources) .directory, changes := m.changes + 1 } :=
    change_eq_ok.2 ⟨hsound, _, hmake, rfl⟩
  have hsecond : Machine.makeDirectory (w.artifacts.join n) { m with
        tree := m.tree.put (n :: sources) .directory, changes := m.changes + 1 }
      = .error fault { m with
        tree := m.tree.put (n :: sources) .directory, changes := m.changes + 1 + 1 } :=
    change_eq_error.2 ⟨rfl, .inl hfault⟩
  have hback : Machine.removeDirectory (w.sources.join n) { m with
        tree := m.tree.put (n :: sources) .directory, changes := m.changes + 1 + 1 }
      = .error cause { m with
        tree := m.tree.put (n :: sources) .directory, changes := m.changes + 1 + 1 + 1 } :=
    change_eq_error.2 ⟨rfl, .inl hcause⟩
  have hpair : makePair (w.sources.join n) (w.artifacts.join n) m = .error fault { m with
      tree := m.tree.put (n :: sources) .directory, changes := m.changes + 1 + 1 + 1 } := by
    refine (bind_of_ok hfirst).trans ((bind_of_ok (attempt_of_error hsecond)).trans ?_)
    exact (bind_of_ok (attempt_of_error hback)).trans rfl
  exact ⟨_, hpair, ⟨(keeps_makePair _ _).error hm.wellFormed hpair,
    extends_put _ hsrc hfree .directory, rfl, rfl⟩, m.tree.node?_put hsrc .directory⟩

end Pair
end Site

end Workspace
end SnippetConsole
