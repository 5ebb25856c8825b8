/-
# When making a workspace fails

Making a workspace may stop at any of its steps (`Failure`). Up to the wipe, and behind it, that
does no harm: nothing has changed, or the root is empty or holds the marker again. The wipe itself
takes the marker away like any other entry, when its turn comes in the root's listing. Stopped at an
entry behind the marker it leaves a root that holds something but not the marker
(`owned_after_failure_iff`), and such a root is refused from then on, also when nothing fails any
more.
-/

import SnippetConsole.Proofs.Initialisation

namespace SnippetConsole
namespace Machine

/-- The machine once no change fails for an outside reason any more. -/
def mended (m : Machine) : Machine := { m with faults := fun _ => none }

theorem mended_faults (m : Machine) (k : Nat) : m.mended.faults k = none := rfl

end Machine

namespace Workspace

open FileTree FileTree.Tree Machine
open FilePath (IsName)

variable {m m' : Machine} {p : FilePath} {root : Location} {fault : Fault}

/-! ### Where it stops -/

/-- A step at which making a workspace fails, with what has come of it by then. -/
inductive Failure (p : FilePath) (m : Machine) : Fault → Machine → Prop
  /-- The root, or a directory on the way to it, cannot be made. -/
  | root {cause : FileTree.Fault} {m' : Machine} (hmake : makeDirectories p m = .error cause m') :
      Failure p m (.initialise p cause) m'
  /-- What the root holds cannot be told. -/
  | unsure {cause : FileTree.Fault} {m₁ : Machine} (hmake : makeDirectories p m = .ok () m₁)
      (howned : isOwned p m₁ = .error cause) : Failure p m (.initialise p cause) m₁
  /-- The root is someone else's. -/
  | foreign {m₁ : Machine} (hmake : makeDirectories p m = .ok () m₁)
      (howned : isOwned p m₁ = .ok false) : Failure p m (.notOwned p) m₁
  /-- An entry of the root cannot be removed. -/
  | wipe {cause : FileTree.Fault} {m₁ m' : Machine} (hmake : makeDirectories p m = .ok () m₁)
      (howned : isOwned p m₁ = .ok true) (hempty : emptyDirectory p m₁ = .error cause m') :
      Failure p m (.initialise p cause) m'
  /-- The marker or one of the two directories cannot be made. -/
  | furnish {cause : FileTree.Fault} {m₁ m₂ m' : Machine} (hmake : makeDirectories p m = .ok () m₁)
      (howned : isOwned p m₁ = .ok true) (hempty : emptyDirectory p m₁ = .ok () m₂)
      (hfurnish : furnish p m₂ = .error cause m') : Failure p m (.initialise p cause) m'

/-- **Making a workspace fails at one of these steps.** -/
theorem failure_of_initialise (h : initialise p m = .error fault m') : Failure p m fault m' := by
  rw [initialise] at h
  rcases bind_eq_error.1 h with h | ⟨_, m₁, hmake, h⟩
  · obtain ⟨cause, rfl, hmake⟩ := withFault_eq_error_iff.1 h
    exact .root hmake
  have hmake := withFault_eq_ok.1 hmake
  rcases bind_eq_error.1 h with h | ⟨owned, _, howned, h⟩
  · obtain ⟨cause, rfl, hasks⟩ := withFault_eq_error_iff.1 h
    obtain ⟨howned, rfl⟩ := asks_eq_error.1 hasks
    exact .unsure hmake howned
  obtain ⟨howned, rfl⟩ := asks_eq_ok.1 (withFault_eq_ok.1 howned)
  cases owned with
  | false =>
    cases h
    exact .foreign hmake howned
  | true =>
    rcases bind_eq_error.1 h with h | ⟨_, m₂, hempty, h⟩
    · obtain ⟨cause, rfl, hempty⟩ := withFault_eq_error_iff.1 h
      exact .wipe hmake howned hempty
    have hempty := withFault_eq_ok.1 hempty
    rcases bind_eq_error.1 h with h | ⟨_, m₃, hwrite, h⟩
    · obtain ⟨cause, rfl, hwrite⟩ := withFault_eq_error_iff.1 h
      exact .furnish hmake howned hempty (bind_of_error hwrite)
    have hwrite := withFault_eq_ok.1 hwrite
    rcases bind_eq_error.1 h with h | ⟨_, m₄, hsources, h⟩
    · obtain ⟨cause, rfl, hsources⟩ := withFault_eq_error_iff.1 h
      exact .furnish hmake howned hempty ((bind_of_ok hwrite).trans (bind_of_error hsources))
    have hsources := withFault_eq_ok.1 hsources
    rcases bind_eq_error.1 h with h | ⟨_, m₅, -, h⟩
    · obtain ⟨cause, rfl, hartifacts⟩ := withFault_eq_error_iff.1 h
      exact .furnish hmake howned hempty
        ((bind_of_ok hwrite).trans ((bind_of_ok hsources).trans hartifacts))
    · cases h

/-- At each of them it does. -/
theorem Failure.initialise_eq (h : Failure p m fault m') : initialise p m = .error fault m' := by
  rw [initialise]
  cases h with
  | root hmake => exact bind_of_error (withFault_eq_error hmake)
  | unsure hmake howned =>
    refine (bind_of_ok (withFault_eq_ok.2 hmake)).trans ?_
    exact bind_of_error (withFault_eq_error (asks_eq_error.2 ⟨howned, rfl⟩))
  | foreign hmake howned =>
    refine (bind_of_ok (withFault_eq_ok.2 hmake)).trans ?_
    exact (bind_of_ok (withFault_eq_ok.2 (asks_eq_ok.2 ⟨howned, rfl⟩))).trans rfl
  | wipe hmake howned hempty =>
    refine (bind_of_ok (withFault_eq_ok.2 hmake)).trans ?_
    refine (bind_of_ok (withFault_eq_ok.2 (asks_eq_ok.2 ⟨howned, rfl⟩))).trans ?_
    exact bind_of_error (withFault_eq_error hempty)
  | furnish hmake howned hempty hfurnish =>
    refine (bind_of_ok (withFault_eq_ok.2 hmake)).trans ?_
    refine (bind_of_ok (withFault_eq_ok.2 (asks_eq_ok.2 ⟨howned, rfl⟩))).trans ?_
    refine (bind_of_ok (withFault_eq_ok.2 hempty)).trans ?_
    rcases bind_eq_error.1 hfurnish with hwrite | ⟨_, m₃, hwrite, hrest⟩
    · exact bind_of_error (withFault_eq_error hwrite)
    refine (bind_of_ok (withFault_eq_ok.2 hwrite)).trans ?_
    rcases bind_eq_error.1 hrest with hsources | ⟨_, m₄, hsources, hartifacts⟩
    · exact bind_of_error (withFault_eq_error hsources)
    refine (bind_of_ok (withFault_eq_ok.2 hsources)).trans ?_
    exact bind_of_error (withFault_eq_error hartifacts)

/-- **Furnishing that stops** has left the root as it was or put the marker into it, with or without
the directory for sources. -/
theorem furnish_eq_error (root : Location) {cause : FileTree.Fault}
    (h : furnish p m = .error cause m') :
    m.With (· = m.tree) m' ∨
      ∃ m₁, Machine.writeFile (p.join markerName) (.bytes []) m = .ok () m₁ ∧
        (Ground m.directory p root m.tree →
          m.With (fun t => t = marked root m.tree ∨ t = sourced root m.tree) m') := by
  rcases bind_eq_error.1 h with hfirst | ⟨_, m₁, hfirst, h⟩
  · obtain ⟨rfl, -⟩ := change_eq_error.1 hfirst
    exact .inl ⟨rfl, rfl⟩
  refine .inr ⟨m₁, hfirst, fun hground => ?_⟩
  obtain ⟨-, t₁, hwrite, rfl⟩ := change_eq_ok.1 hfirst
  obtain ⟨-, rfl⟩ := (writeFile_entry_eq_ok (Extends.refl m.tree) hground.find
    isName_markerName (hground.free _ (below_cons _ _))).1 hwrite
  rcases bind_eq_error.1 h with hsecond | ⟨_, m₂, hsecond, hthird⟩
  · obtain ⟨rfl, -⟩ := change_eq_error.1 hsecond
    exact ⟨.inl rfl, rfl⟩
  · obtain ⟨-, t₂, hmake, rfl⟩ := change_eq_ok.1 hsecond
    obtain ⟨-, -, rfl⟩ := (makeDirectory_entry_eq_ok (extends_marked hground) hground.find
      isName_sourcesName).1 hmake
    obtain ⟨rfl, -⟩ := change_eq_error.1 hthird
    exact ⟨.inr rfl, rfl⟩

/-! ### Whose the root is afterwards -/

/-- The same nodes have the same owner. -/
theorem Owned.of_same {t t' : Tree} (howned : Owned root t)
    (hsame : ∀ loc, t'.node? loc = t.node? loc) : Owned root t' := by
  rcases howned with ⟨content, hnode⟩ | hnames
  · exact .inl ⟨content, (hsame _).trans hnode⟩
  · refine .inr (List.eq_nil_iff_forall_not_mem.2 fun n hn => ?_)
    obtain ⟨node, hnode⟩ := mem_namesIn.1 hn
    rw [hsame] at hnode
    exact List.not_mem_nil (hnames ▸ mem_namesIn.2 ⟨node, hnode⟩)

/-- What is not empty and lacks the marker is not the console's. -/
theorem not_owned_of_unmarked {t : Tree} (hgone : t.node? (markerName :: root) = none)
    (hnames : t.namesIn root ≠ []) : ¬Owned root t := by
  rintro (⟨content, hnode⟩ | hempty)
  · rw [hgone] at hnode
    cases hnode
  · exact hnames hempty

/-- The wipe stops at an entry, after those were removed that the root lists in front of it. -/
structure WipeStops (p : FilePath) (root : Location) (front : List Bytes) (n : Bytes)
    (m m' : Machine) : Prop where
  listed : ∃ back, m.tree.namesIn root = front ++ n :: back
  stopped : ∃ cause m₁, (front.forM fun n' => removeAll (p.join n')) m = .ok () m₁ ∧
    removeAll (p.join n) m₁ = .error cause m'

namespace WipeStops

variable {front : List Bytes} {n : Bytes} (hstops : WipeStops p root front n m m')
  (ht : m.tree.WellFormed) (hroot : m.tree.find m.directory true p = .ok (root, .directory))

include hstops ht hroot

/-- **Stopped before it came to the marker,** it leaves the root the console's. -/
theorem owned (howned : Owned root m.tree) (hmarker : markerName ∉ front) :
    Owned root m'.tree := by
  obtain ⟨⟨back, hnames⟩, cause, m₁, hfront, hstop⟩ := hstops
  obtain ⟨-, hstays⟩ := entries_of_stop ht hroot hnames hfront hstop
  rcases howned with ⟨content, hnode⟩ | hempty
  · have hlisted : markerName ∈ m.tree.namesIn root := mem_namesIn.2 ⟨_, hnode⟩
    rw [hnames] at hlisted
    have hbehind := (List.mem_append.1 hlisted).resolve_left hmarker
    exact .inl ⟨content, (hstays _ hbehind).trans hnode⟩
  · rw [hempty] at hnames
    simp at hnames

/-- **Stopped behind the marker,** it leaves something without the marker. -/
theorem unmarked (hmarker : markerName ∈ front) :
    m'.tree.node? (markerName :: root) = none ∧ m'.tree.namesIn root ≠ [] := by
  obtain ⟨⟨back, hnames⟩, cause, m₁, hfront, hstop⟩ := hstops
  obtain ⟨hgone, hstays⟩ := entries_of_stop ht hroot hnames hfront hstop
  refine ⟨hgone _ hmarker, ?_⟩
  have hlisted : n ∈ m.tree.namesIn root := by simp [hnames]
  obtain ⟨node, hnode⟩ := mem_namesIn.1 hlisted
  exact List.ne_nil_of_mem
    (mem_namesIn.2 ⟨node, (hstays n List.mem_cons_self).trans hnode⟩)

end WipeStops

/-- **A root that is there stays as it is** while the way to it is made. -/
theorem rooted_after_makeDirectories (ht : m.tree.WellFormed)
    (hroot : m.tree.find m.directory true p = .ok (root, .directory))
    (hmake : m.after (makeDirectories p) = m') :
    m'.directory = m.directory ∧ m'.tree.WellFormed ∧
      m'.tree.find m'.directory true p = .ok (root, .directory) ∧
      ∀ loc, m'.tree.node? loc = m.tree.node? loc := by
  have hafter := after_makeDirectories ht p
  have hsame := node?_after_makeDirectories ht hroot
  rw [hmake] at hafter hsame
  obtain ⟨hlocate, hdir, -⟩ := find_eq_ok.1 hroot
  refine ⟨hafter.directory_eq, hafter.tree.wellFormed, ?_, hsame⟩
  rw [hafter.directory_eq]
  exact hafter.tree.extends_left.find_directory hlocate ((hsame root).trans hdir)

/-- What is left when a workspace could not be made at a root. -/
inductive Left (p : FilePath) (root : Location) (m m' : Machine) : Prop
  /-- All is as it was. -/
  | untouched (hthin : Thinned (Below root) m.tree m'.tree)
      (hsame : ∀ loc, m'.tree.node? loc = m.tree.node? loc)
  /-- Of the root's entries those are left that the wipe did not come to. -/
  | halfWiped {m₁ : Machine} {front : List Bytes} {n : Bytes}
      (hthin : Thinned (Below root) m.tree m'.tree) (hmake : makeDirectories p m = .ok () m₁)
      (hstops : WipeStops p root front n m₁ m')
  /-- The root is empty. -/
  | emptied (hthin : Thinned (Below root) m.tree m'.tree) (hnames : m'.tree.namesIn root = [])
  /-- The root has the marker, and maybe the directory for sources. -/
  | begun {base : Tree} (hground : Ground m.directory p root base)
      (htree : m'.tree = marked root base ∨ m'.tree = sourced root base)

/-- **Each step that fails leaves one of these.** -/
theorem left_of_failure (ht : m.tree.WellFormed)
    (hroot : m.tree.find m.directory true p = .ok (root, .directory)) (h : Failure p m fault m') :
    m'.directory = m.directory ∧ Left p root m m' := by
  have hthin {m₁ : Machine} (hmake : m.after (makeDirectories p) = m₁) :
      Thinned (Below root) m.tree m₁.tree := by
    obtain ⟨-, ht₁, -, hsame⟩ := rooted_after_makeDirectories ht hroot hmake
    exact ⟨ht₁, fun loc => .inl (hsame loc)⟩
  have hkept {m₁ : Machine} (hmake : m.after (makeDirectories p) = m₁) :
      m₁.directory = m.directory ∧ Left p root m m₁ := by
    obtain ⟨hdirectory, -, -, hsame⟩ := rooted_after_makeDirectories ht hroot hmake
    exact ⟨hdirectory, .untouched (hthin hmake) hsame⟩
  cases h with
  | root hmake => exact hkept (after_of_eq_error hmake)
  | unsure hmake _ => exact hkept (after_of_eq_ok hmake)
  | foreign hmake _ => exact hkept (after_of_eq_ok hmake)
  | wipe hmake _ hempty =>
    have hmake' := after_of_eq_ok hmake
    have hthin₁ := hthin hmake'
    obtain ⟨hdirectory, -, hroot₁, -⟩ := rooted_after_makeDirectories ht hroot hmake'
    have hafter := after_emptyDirectory hthin₁.wellFormed hroot₁
    rw [after_of_eq_error hempty] at hafter
    obtain ⟨front, n, back, m₂, hnames, hfront, hstop⟩ := (emptyDirectory_eq_error hroot₁).1 hempty
    exact ⟨hafter.directory_eq.trans hdirectory, .halfWiped (hthin₁.trans hafter.tree fun _ => id)
      hmake ⟨⟨back, hnames⟩, _, m₂, hfront, hstop⟩⟩
  | furnish hmake _ hempty hfurnish =>
    have hmake' := after_of_eq_ok hmake
    have hthin₁ := hthin hmake'
    obtain ⟨hdirectory, -, hroot₁, -⟩ := rooted_after_makeDirectories ht hroot hmake'
    have hafter := after_emptyDirectory hthin₁.wellFormed hroot₁
    rw [after_of_eq_ok hempty] at hafter
    have hdirectory₂ := hafter.directory_eq.trans hdirectory
    rcases furnish_eq_error root hfurnish with hstays | ⟨m₃, hmarker, hput⟩
    · have hnames := namesIn_of_emptyDirectory_eq_ok hthin₁.wellFormed hroot₁ hempty
      refine ⟨hstays.directory_eq.trans hdirectory₂, .emptied ?_ (hstays.tree ▸ hnames)⟩
      rw [hstays.tree]
      exact hthin₁.trans hafter.tree fun _ => id
    · have hground := ground_of_marker hthin₁.wellFormed hroot₁ hempty hmarker
      have hbegun := hput (hafter.directory_eq ▸ hground)
      exact ⟨hbegun.directory_eq.trans hdirectory₂, .begun (hdirectory ▸ hground) hbegun.tree⟩

namespace Left

/-- **The root stays the console's** if the wipe did not get past the marker. -/
theorem owned (h : Left p root m m') (ht : m.tree.WellFormed)
    (hroot : m.tree.find m.directory true p = .ok (root, .directory)) (howned : Owned root m.tree)
    (hwipe : ∀ m₁ front n, makeDirectories p m = .ok () m₁ → WipeStops p root front n m₁ m' →
      markerName ∉ front) : Owned root m'.tree := by
  cases h with
  | untouched _ hsame => exact howned.of_same hsame
  | @halfWiped m₁ front n _ hmake hstops =>
    obtain ⟨-, ht₁, hroot₁, hsame⟩ := rooted_after_makeDirectories ht hroot (after_of_eq_ok hmake)
    exact hstops.owned ht₁ hroot₁ (howned.of_same hsame) (hwipe m₁ front n hmake hstops)
  | emptied _ hnames => exact .inr hnames
  | @begun base _ htree =>
    have hnode : (marked root base).node? (markerName :: root) = some (.file (.bytes [])) := by
      simp [marked, node?_put _ (List.cons_ne_nil _ _)]
    refine .inl ⟨.bytes [], ?_⟩
    rcases htree with htree | htree
    · rw [htree, hnode]
    · have hne : markerName ≠ sourcesName := by decide
      rw [htree, sourced, node?_put _ (List.cons_ne_nil _ _), if_neg (by simp [hne]), hnode]

/-- The tree stays well-formed, and the path of the root leads to it as before. -/
theorem leadsTo (h : Left p root m m') (hleads : m.tree.LeadsTo m.directory p root) :
    m'.tree.WellFormed ∧ m'.tree.LeadsTo m.directory p root := by
  have hthinned (hthin : Thinned (Below root) m.tree m'.tree) :
      m'.tree.WellFormed ∧ m'.tree.LeadsTo m.directory p root :=
    ⟨hthin.wellFormed, fun t hrest => hleads t (hthin.pruned.trans hrest)⟩
  cases h with
  | untouched hthin _ => exact hthinned hthin
  | halfWiped hthin _ _ => exact hthinned hthin
  | emptied hthin _ => exact hthinned hthin
  | begun hground htree =>
    rcases htree with htree | htree
    · rw [htree]
      exact ⟨wellFormed_marked hground, hground.leadsTo (extends_marked hground)⟩
    · rw [htree]
      exact ⟨wellFormed_sourced hground, hground.leadsTo (extends_sourced hground)⟩

end Left

/-- **A failed initialisation takes the root away from the console just if the wipe stopped behind
the marker.** For a root that is the console's in a well-formed tree, and whatever step fails:

- The root is still the console's, empty or with the marker as a file, just if the wipe did not stop
  at an entry that the root lists behind the marker.
- If it is, and the path does not reach it through what it holds, then it can be made a workspace
  once no change fails for an outside reason any more, just if no path is too long for the system.
- If it is not, then by such a path it is refused even then. -/
theorem owned_after_failure_iff (ht : m.tree.WellFormed)
    (hroot : m.tree.find m.directory true p = .ok (root, .directory)) (howned : Owned root m.tree)
    (h : initialise p m = .error fault m') :
    (Owned root m'.tree ↔ ∀ m₁ front n, makeDirectories p m = .ok () m₁ →
      WipeStops p root front n m₁ m' → markerName ∉ front) ∧
    (m.tree.LeadsTo m.directory p root →
      (Owned root m'.tree → ((∃ w m₂, initialise p m'.mended = .ok w m₂) ↔
        Walkable p ∧ ∀ n ∈ m'.tree.namesIn root, (p.join n).length ≤ maxPathLength)) ∧
      (¬Owned root m'.tree → ∃ m₂, initialise p m'.mended = .error (.notOwned p) m₂)) := by
  obtain ⟨hdirectory, hleft⟩ := left_of_failure ht hroot (failure_of_initialise h)
  have hunmarked {m₁ : Machine} {front : List Bytes} {n : Bytes}
      (hmake : makeDirectories p m = .ok () m₁) (hstops : WipeStops p root front n m₁ m')
      (hmarker : markerName ∈ front) :
      m'.tree.node? (markerName :: root) = none ∧ m'.tree.namesIn root ≠ [] := by
    obtain ⟨-, ht₁, hroot₁, -⟩ := rooted_after_makeDirectories ht hroot (after_of_eq_ok hmake)
    exact hstops.unmarked ht₁ hroot₁ hmarker
  refine ⟨⟨fun howned' m₁ front n hmake hstops hmarker => ?_, hleft.owned ht hroot howned⟩,
    fun hleads => ⟨fun howned' => ?_, fun hnot => ?_⟩⟩
  · obtain ⟨hgone, hnames⟩ := hunmarked hmake hstops hmarker
    exact not_owned_of_unmarked hgone hnames howned'
  · obtain ⟨ht', hleads'⟩ := hleft.leadsTo hleads
    rw [← hdirectory] at hleads'
    exact exists_initialise_iff (m := m'.mended) ht' (mended_faults m') hleads' howned'
  · obtain ⟨ht', hleads'⟩ := hleft.leadsTo hleads
    rw [← hdirectory] at hleads'
    have hroot' := hleads' _ (.refl _ _)
    have hpast : ¬∀ m₁ front n, makeDirectories p m = .ok () m₁ →
        WipeStops p root front n m₁ m' → markerName ∉ front :=
      fun hwipe => hnot (hleft.owned ht hroot howned hwipe)
    push Not at hpast
    obtain ⟨m₁, front, n, hmake, hstops, hmarker⟩ := hpast
    obtain ⟨hgone, hnames⟩ := hunmarked hmake hstops hmarker
    exact ⟨_, initialise_of_foreign (m := m'.mended) (mended_faults m' _) hroot' hnames
      (not_holdsMarker_of_free (find_eq_ok.1 hroot').2.1 hgone)⟩

/-- An entry that is no directory is removed by one change. -/
theorem removeAll_entry (hroot : m.tree.find m.directory true p = .ok (root, .directory))
    {n : Bytes} (hn : IsName n) (hp : requireWalkable (p.join n) = .ok ()) {node : Node}
    (hnode : m.tree.node? (n :: root) = some node) (hne : node ≠ .directory) :
    removeAll (p.join n) m =
      match m.faults m.changes with
      | none => .ok () { m with tree := m.tree.erase (n :: root), changes := m.changes + 1 }
      | some e => .error e { m with changes := m.changes + 1 } := by
  have hslash := hn.endsInSlash_join p
  have hfind : m.tree.find m.directory false (p.join n) = .ok (n :: root, node) := by
    refine find_eq_ok.2 ⟨?_, hnode, fun hs => by simp [hslash] at hs⟩
    rw [hslash]
    exact (locate_entry_eq_ok (.refl _) hroot hn false fun _ _ => rfl).2 ⟨hp, rfl⟩
  have hremove : m.tree.removeFile m.directory (p.join n) = .ok (m.tree.erase (n :: root)) := by
    rw [Tree.removeFile, hfind]
    cases node with
    | directory => exact absurd rfl hne
    | file content => rfl
    | link path => rfl
  rw [removeAll_file hfind hne]
  rcases hfault : m.faults m.changes with _ | e
  · exact change_eq_ok.2 ⟨hfault, _, hremove, rfl⟩
  · exact change_eq_error.2 ⟨rfl, .inl hfault⟩

/-- A machine with the directories of the shared one, behind `changes` changes, on which change `k`
fails. -/
def stubbornMachine (k : Nat) (t : Tree) (changes : Nat) : Machine :=
  { sharedMachine with
    tree := t, changes := changes, faults := fun k' => if k' = k then some .denied else none }

/-- The tree once the marker is removed. -/
def unmarkedTree : Tree := sharedMachine.tree.erase [markerName, scratchName]

section Stubborn

variable (k : Nat) {t : Tree} (changes : Nat) (hdir : t.node? [scratchName] = some .directory)

include hdir

/-- The path of the workspace leads to it. -/
theorem find_scratch : (stubbornMachine k t changes).tree.find
    (stubbornMachine k t changes).directory true (rootEntry scratchName)
      = .ok ([scratchName], .directory) :=
  find_rootEntry (by decide) rfl hdir

/-- Removing an entry of the workspace takes one change. -/
theorem removeAll_scratch {n : Bytes} (hn : IsName n)
    (hp : requireWalkable ((rootEntry scratchName).join n) = .ok ()) {node : Node}
    (hnode : t.node? [n, scratchName] = some node) (hne : node ≠ .directory) :
    removeAll ((rootEntry scratchName).join n) (stubbornMachine k t changes) =
      if changes = k then .error .denied (stubbornMachine k t (changes + 1))
      else .ok () (stubbornMachine k (t.erase [n, scratchName]) (changes + 1)) := by
  rw [removeAll_entry (find_scratch k changes hdir) hn hp hnode hne, stubbornMachine]
  by_cases h : changes = k
  · simp [h, stubbornMachine]
  · simp [h, stubbornMachine]

end Stubborn

/-- A removal that fails makes the whole fail. -/
theorem initialise_stubbornMachine {k : Nat} (hk : k ≠ 0) {cause : FileTree.Fault}
    (h : emptyDirectory (rootEntry scratchName) (stubbornMachine k sharedMachine.tree 1)
      = .error cause m') :
    initialise (rootEntry scratchName) (stubbornMachine k sharedMachine.tree 0)
      = .error (.initialise (rootEntry scratchName) cause) m' := by
  have hmake := makeDirectories_of_directory (m := stubbornMachine k sharedMachine.tree 0)
    (if_neg hk.symm) (find_scratch k 0 rfl)
  have howned := isOwned_of_owned walkable_scratch
    (find_scratch k 1 (t := sharedMachine.tree) rfl) (.inl ⟨_, rfl⟩)
  exact Failure.initialise_eq (.wipe hmake howned h)

/-- **The marker goes first here:** if the removal behind it fails, the workspace is refused once
the cause is gone. -/
theorem initialisation_locks_out :
    sharedMachine.tree.WellFormed ∧ Owned [scratchName] sharedMachine.tree ∧
    sharedMachine.tree.LeadsTo [] (rootEntry scratchName) [scratchName] ∧
    ∃ m', initialise (rootEntry scratchName) (stubbornMachine 2 sharedMachine.tree 0)
        = .error (.initialise (rootEntry scratchName) .denied) m' ∧
      ¬Owned [scratchName] m'.tree ∧
      ∃ m₂, initialise (rootEntry scratchName) m'.mended
        = .error (.notOwned (rootEntry scratchName)) m₂ := by
  have hmarker := removeAll_scratch 2 1 (t := sharedMachine.tree) rfl isName_markerName
    (walkable_scratch _ List.mem_cons_self) rfl nofun
  have hlink := removeAll_scratch 2 2 (t := unmarkedTree) rfl (n := homeName) (by decide) rfl rfl
    nofun
  have hempty := (emptyDirectory_eq_error (find_scratch 2 1 (t := sharedMachine.tree) rfl)).2
    ⟨[markerName], homeName, [], _, by decide, bind_of_ok hmarker, hlink⟩
  have hnames : unmarkedTree.namesIn [scratchName] ≠ [] := by decide
  refine ⟨wellFormed_sharedMachine, .inl ⟨_, rfl⟩, ground_homeTree.leadsTo extends_sharedMachine,
    _, initialise_stubbornMachine (by decide) hempty, not_owned_of_unmarked rfl hnames, ?_⟩
  exact ⟨_, initialise_of_foreign (m := (stubbornMachine 2 unmarkedTree 3).mended) rfl
    (find_scratch 2 3 rfl) hnames (not_holdsMarker_of_free rfl rfl)⟩

/-- If the removal of the marker itself fails, the workspace is still the console's and can be made
once the cause is gone. -/
theorem owned_after_failure_stubbornMachine :
    ∃ m', initialise (rootEntry scratchName) (stubbornMachine 1 sharedMachine.tree 0)
        = .error (.initialise (rootEntry scratchName) .denied) m' ∧
      Owned [scratchName] m'.tree ∧
      ∃ w m₂, initialise (rootEntry scratchName) m'.mended = .ok w m₂ := by
  have hmarker := removeAll_scratch 1 1 (t := sharedMachine.tree) rfl isName_markerName
    (walkable_scratch _ List.mem_cons_self) rfl nofun
  have hempty := (emptyDirectory_eq_error (find_scratch 1 1 (t := sharedMachine.tree) rfl)).2
    ⟨[], markerName, [homeName], _, by decide, rfl, hmarker⟩
  have hfails := initialise_stubbornMachine (by decide) hempty
  have howned : Owned [scratchName] sharedMachine.tree := .inl ⟨_, rfl⟩
  refine ⟨_, hfails, howned, ?_⟩
  obtain ⟨-, hlater⟩ := owned_after_failure_iff (m := stubbornMachine 1 sharedMachine.tree 0)
    wellFormed_sharedMachine (find_scratch 1 0 rfl) howned hfails
  obtain ⟨hagain, -⟩ := hlater (ground_homeTree.leadsTo extends_sharedMachine)
  exact (hagain howned).2
    ⟨walkable_scratch, wellFormed_sharedMachine.length_join_le (by decide)⟩

end Workspace
end SnippetConsole
