/-
# What removing leaves

Removing takes nodes away and does nothing else. `Pruned` says which may be gone: from removing
what a path names, that node and what lies below it (`after_removeAll`); from emptying a
directory, what lies below the directory (`after_emptyDirectory`). So much holds also of a removal
that stops half-way, and whatever links there are. A removal that ends has removed it all
(`removeAll_eq_ok`, `emptyDirectory_eq_ok`).

On a machine where no change fails for an outside reason a directory can be emptied if each entry's
path is short enough and the way to the directory does not lead through what it holds
(`exists_emptyDirectory`): below a location the deepest nodes go first, so each has no entries when
its turn comes. With an entry whose path is too long it cannot (`length_le_of_emptyDirectory_eq_ok`).
-/

import SnippetConsole.Proofs.ActSteps
import SnippetConsole.Proofs.TreeChange

namespace SnippetConsole
namespace FileTree
namespace Tree

open FilePath (IsName)

/-- The location lies below a directory. -/
def Below (dir loc : Location) : Prop := dir <:+ loc ∧ loc ≠ dir

instance (dir loc : Location) : Decidable (Below dir loc) :=
  inferInstanceAs (Decidable (dir <:+ loc ∧ loc ≠ dir))

theorem below_cons (n : Bytes) (dir : Location) : Below dir (n :: dir) :=
  ⟨List.suffix_cons n dir, List.cons_ne_self n dir⟩

/-- What is at or below an entry is below the directory. -/
theorem below_of_suffix {n : Bytes} {dir loc : Location} (h : n :: dir <:+ loc) :
    Below dir loc := by
  refine ⟨(List.suffix_cons n dir).trans h, ?_⟩
  rintro rfl
  have hlen := h.length_le
  rw [List.length_cons] at hlen
  omega

theorem Below.ne_nil {dir loc : Location} (h : Below dir loc) : loc ≠ [] := by
  rintro rfl
  exact h.2 (List.suffix_nil.1 h.1).symm

/-- Nothing lies below what is no directory. -/
theorem WellFormed.eq_none_of_below {t : Tree} (ht : t.WellFormed) {dir loc : Location}
    (hdir : t.node? dir ≠ some .directory) (h : Below dir loc) : t.node? loc = none := by
  obtain ⟨⟨inner, rfl⟩, hne⟩ := h
  refine ht.node?_below_eq_none ?_ hdir
  rintro rfl
  exact hne rfl

/-- Nothing lies below a directory without entries. -/
theorem WellFormed.eq_none_of_namesIn {t : Tree} (ht : t.WellFormed) {dir loc : Location}
    (hempty : t.namesIn dir = []) (h : Below dir loc) : t.node? loc = none := by
  obtain ⟨⟨inner, rfl⟩, hne⟩ := h
  have hinner : inner ≠ [] := by
    rintro rfl
    exact hne rfl
  -- the entry of the directory through which the location leads
  obtain ⟨deeper, n, rfl⟩ := (List.eq_nil_or_concat inner).resolve_left hinner
  refine Option.eq_none_iff_forall_ne_some.2 fun node hnode => ?_
  rw [List.concat_eq_append, List.append_assoc, List.singleton_append] at hnode
  have hentry : ∃ node, t.node? (n :: dir) = some node := by
    by_cases hdeeper : deeper = []
    · rw [hdeeper] at hnode
      exact ⟨node, hnode⟩
    · exact ⟨.directory, ht.directory_of_below hdeeper hnode⟩
  exact List.not_mem_nil (hempty ▸ mem_namesIn.2 hentry)

/-- A path that leaves room for a name does so for every entry. -/
theorem WellFormed.length_join_le {t : Tree} (ht : t.WellFormed) {p : FilePath} {dir : Location}
    (hroom : p.length + 1 + maxNameLength ≤ maxPathLength) :
    ∀ n ∈ t.namesIn dir, (p.join n).length ≤ maxPathLength := by
  intro n hn
  obtain ⟨node, hnode⟩ := mem_namesIn.1 hn
  have hname := ht.isName hnode
  have hjoin := hname.length_join_le p
  have hlen := hname.length_le
  omega

/-- The second tree is the first one without some of the nodes that `S` allows to go. -/
def Pruned (S : Location → Prop) (t t' : Tree) : Prop :=
  ∀ loc, t'.node? loc = t.node? loc ∨ S loc ∧ t'.node? loc = none

namespace Pruned

variable {S : Location → Prop} {t t' : Tree}

theorem refl (S : Location → Prop) (t : Tree) : Pruned S t t := fun _ => .inl rfl

theorem trans {t'' : Tree} (h : Pruned S t t') (h' : Pruned S t' t'') : Pruned S t t'' := by
  intro loc
  rcases h' loc with heq | hgone
  · rw [heq]
    exact h loc
  · exact .inr hgone

theorem mono {S' : Location → Prop} (h : Pruned S t t') (hS : ∀ loc, S loc → S' loc) :
    Pruned S' t t' := fun loc => (h loc).imp_right fun ⟨hloc, hnone⟩ => ⟨hS loc hloc, hnone⟩

theorem erase {loc : Location} (hloc : loc ≠ []) (hS : S loc) : Pruned S t (t.erase loc) := by
  intro l
  rw [t.node?_erase hloc]
  by_cases h : l = loc
  · rw [if_pos h]
    exact .inr ⟨h ▸ hS, rfl⟩
  · rw [if_neg h]
    exact .inl rfl

/-- What is there was there. -/
theorem eq_some (h : Pruned S t t') {loc : Location} {node : Node}
    (hnode : t'.node? loc = some node) : t.node? loc = some node := by
  rcases h loc with heq | ⟨-, hnone⟩
  · rw [← heq]
    exact hnode
  · rw [hnone] at hnode
    cases hnode

/-- What was not there is not there. -/
theorem eq_none (h : Pruned S t t') {loc : Location} (hnone : t.node? loc = none) :
    t'.node? loc = none :=
  Option.eq_none_iff_forall_ne_some.2 fun _ hnode => by
    rw [h.eq_some hnode] at hnone
    cases hnone

theorem eq_of_not (h : Pruned S t t') {loc : Location} (hloc : ¬S loc) :
    t'.node? loc = t.node? loc := (h loc).resolve_right fun hgone => hloc hgone.1

/-- The tree that was there extends what is left. -/
theorem extends_left (h : Pruned S t t') : t.Extends t' := fun _ _ hnode _ => h.eq_some hnode

/-- What is left extends all that holds nothing of what may be gone. -/
theorem extends_right {base : Tree} (h : Pruned S t t') (hext : t.Extends base)
    (hfree : ∀ loc, S loc → base.node? loc = none) : t'.Extends base := by
  intro loc node hnode hfile
  by_cases hS : S loc
  · rw [hfree loc hS] at hnode
    cases hnode
  · rw [h.eq_of_not hS]
    exact hext loc node hnode hfile

end Pruned

/-- The second tree is well-formed and the first one pruned. -/
structure Thinned (S : Location → Prop) (t t' : Tree) : Prop where
  wellFormed : t'.WellFormed
  pruned : Pruned S t t'

theorem Thinned.trans {S S' : Location → Prop} {t t' t'' : Tree} (h : Thinned S t t')
    (h' : Thinned S' t' t'') (hS : ∀ loc, S' loc → S loc) : Thinned S t t'' :=
  ⟨h'.wellFormed, h.pruned.trans (h'.pruned.mono hS)⟩

end Tree
end FileTree

namespace Machine

open FileTree FileTree.Tree
open FilePath (IsName)

variable {m m' : Machine} {p : FilePath} {loc : Location}

theorem namesAt_eq_ok {names : List Bytes} :
    m.namesAt p = .ok names ↔
      ∃ loc, m.tree.find m.directory true p = .ok (loc, .directory) ∧
        names = m.tree.namesIn loc := by
  rw [namesAt, except_bind_eq_ok]
  constructor
  · rintro ⟨⟨loc, node⟩, hfind, h⟩
    cases node with
    | directory => cases h; exact ⟨loc, hfind, rfl⟩
    | file content => cases h
    | link path => cases h
  · rintro ⟨loc, hfind, rfl⟩
    exact ⟨_, hfind, rfl⟩

/-! ### What may be gone -/

/-- Removing a node leaves all but that node. -/
theorem keeps_removeNode {t₀ : Tree} {S : Location → Prop} (hS : S loc) :
    Keeps (m.With (Thinned S t₀)) (removeNode loc) := by
  refine keeps_change fun t t' ht h => ?_
  obtain ⟨hloc, hempty, rfl⟩ := removeEmpty_eq_ok.1 h
  exact ⟨ht.wellFormed.erase hloc hempty, ht.pruned.trans (.erase hloc hS)⟩

/-- What `removeAll` does once the path has been looked up. -/
theorem removeAll_directory (hfind : m.tree.find m.directory false p = .ok (loc, .directory)) :
    removeAll p m = ((m.tree.below loc).forM removeNode >>= fun _ => removeDirectory p) m := by
  rw [removeAll, asks_bind hfind]
  exact asks_bind rfl

theorem removeAll_file {node : Node} (hfind : m.tree.find m.directory false p = .ok (loc, node))
    (hnode : node ≠ .directory) : removeAll p m = removeFile p m := by
  rw [removeAll, asks_bind hfind]
  cases node with
  | directory => exact absurd rfl hnode
  | file content => rfl
  | link path => rfl

/-- Only a directory is the root. -/
theorem ne_nil_of_find {t : Tree} {dir : Location} {follow : Bool} {node : Node}
    (hfind : t.find dir follow p = .ok (loc, node)) (hnode : node ≠ .directory) : loc ≠ [] := by
  rintro rfl
  obtain ⟨-, hroot, -⟩ := find_eq_ok.1 hfind
  exact hnode (Option.some.inj (hroot.symm.trans t.node?_root))

/-- A path that still leads to a directory leads where it led. -/
theorem eq_of_pruned {S : Location → Prop} {t t' : Tree} {dir loc' : Location}
    (h : Pruned S t t') (hfind : t.find dir false p = .ok (loc, .directory))
    (hlocate : t'.locate dir false p = .ok loc') (hdir : t'.node? loc' = some .directory) :
    loc' = loc := by
  have hthere := h.extends_left.find_directory hlocate (h.eq_some hdir)
  obtain ⟨hlocate₀, hnode₀, -⟩ := find_eq_ok.1 hfind
  have hhere := (Extends.refl t).find_directory hlocate₀ hnode₀
  rw [hthere] at hhere
  exact (Prod.mk.inj (Except.ok.inj hhere)).1

/-- **Removing all that a path names touches nothing else,** also if it stops half-way. -/
theorem after_removeAll (ht : m.tree.WellFormed) {node : Node}
    (hfind : m.tree.find m.directory false p = .ok (loc, node)) :
    m.With (Thinned (loc <:+ ·) m.tree) (m.after (removeAll p)) := by
  have hstart : m.With (Thinned (loc <:+ ·) m.tree) m := .refl ⟨ht, .refl _ _⟩
  by_cases hnode : node = .directory
  · subst hnode
    have hkeeps : Keeps (m.With (Thinned (loc <:+ ·) m.tree))
        ((m.tree.below loc).forM removeNode >>= fun _ => removeDirectory p) := by
      refine .bind (keeps_forM fun l hl => keeps_removeNode (mem_below.1 hl).2.1) fun _ =>
        keeps_change fun t t' hthin h => ?_
      obtain ⟨loc', hlocate, hdir, hempty⟩ := removeDirectory_eq_ok h
      obtain rfl := eq_of_pruned hthin.pruned hfind hlocate hdir
      obtain ⟨hloc, hnames, rfl⟩ := removeEmpty_eq_ok.1 hempty
      exact ⟨hthin.wellFormed.erase hloc hnames,
        hthin.pruned.trans (.erase hloc (List.suffix_refl _))⟩
    rw [after, removeAll_directory hfind]
    exact hkeeps m hstart
  · have hloc := ne_nil_of_find hfind hnode
    have hstep : m.after (removeAll p) = m.after (removeFile p) := by
      rw [after, removeAll_file hfind hnode, after]
    rw [hstep]
    refine after_change ⟨ht, .refl _ _⟩ fun t hremove => ⟨ht.removeFile hremove, ?_⟩
    obtain ⟨loc', node', hfind', -, rfl⟩ := removeFile_eq_ok hremove
    rw [hfind] at hfind'
    cases hfind'
    exact .erase hloc (List.suffix_refl _)

/-- **A removal that ends has removed the node.** -/
theorem removeAll_eq_ok (ht : m.tree.WellFormed) (h : removeAll p m = .ok () m') :
    ∃ loc node, m.tree.find m.directory false p = .ok (loc, node) ∧
      m.With (Thinned (loc <:+ ·) m.tree) m' ∧ m'.tree.node? loc = none := by
  rcases hfind : m.tree.find m.directory false p with e | ⟨loc, node⟩
  · obtain ⟨_, _, hasks, -⟩ := bind_eq_ok.1 h
    rw [(asks_eq_ok.1 hasks).1] at hfind
    cases hfind
  · have hafter := after_removeAll ht hfind
    rw [after_of_eq_ok h] at hafter
    refine ⟨loc, node, rfl, hafter, ?_⟩
    by_cases hnode : node = .directory
    · subst hnode
      rw [removeAll_directory hfind] at h
      obtain ⟨_, m₁, hinner, houter⟩ := bind_eq_ok.1 h
      have hthin : m.With (Thinned (loc <:+ ·) m.tree) m₁ :=
        (keeps_forM fun l hl => keeps_removeNode (mem_below.1 hl).2.1).ok
          (.refl ⟨ht, .refl _ _⟩) hinner
      obtain ⟨-, t, hremove, rfl⟩ := change_eq_ok.1 houter
      rw [hthin.directory_eq] at hremove
      obtain ⟨loc', hlocate, hdir, hempty⟩ := removeDirectory_eq_ok hremove
      obtain rfl := eq_of_pruned hthin.tree.pruned hfind hlocate hdir
      obtain ⟨hloc, -, rfl⟩ := removeEmpty_eq_ok.1 hempty
      exact (m₁.tree.node?_erase hloc loc').trans (if_pos rfl)
    · rw [removeAll_file hfind hnode] at h
      obtain ⟨-, t, hremove, rfl⟩ := change_eq_ok.1 h
      obtain ⟨loc', node', hfind', hne, rfl⟩ := removeFile_eq_ok hremove
      rw [hfind] at hfind'
      cases hfind'
      exact (m.tree.node?_erase (ne_nil_of_find hfind hnode) loc).trans (if_pos rfl)

/-- **A removal that fails leaves the node,** whatever it took from below it. -/
theorem node?_of_removeAll_eq_error (ht : m.tree.WellFormed) {node : Node} {e : Fault}
    (hfind : m.tree.find m.directory false p = .ok (loc, node))
    (h : removeAll p m = .error e m') : m'.tree.node? loc = m.tree.node? loc := by
  by_cases hnode : node = .directory
  · subst hnode
    rw [removeAll_directory hfind] at h
    have hkeeps : Keeps (m.With (Thinned (Below loc) m.tree))
        ((m.tree.below loc).forM removeNode) :=
      keeps_forM fun l hl => keeps_removeNode (mem_below.1 hl).2
    have hstart : m.With (Thinned (Below loc) m.tree) m := .refl ⟨ht, .refl _ _⟩
    have hself : ¬Below loc loc := fun hbelow => hbelow.2 rfl
    rcases bind_eq_error.1 h with hinner | ⟨_, m₁, hinner, houter⟩
    · exact (hkeeps.error hstart hinner).tree.pruned.eq_of_not hself
    · obtain ⟨rfl, -⟩ := change_eq_error.1 houter
      exact (hkeeps.ok hstart hinner).tree.pruned.eq_of_not hself
  · rw [removeAll_file hfind hnode] at h
    obtain ⟨rfl, -⟩ := change_eq_error.1 h
    rfl

section Entries

variable {m₁ : Machine} (ht : m.tree.WellFormed)
  (hdir : m.tree.find m.directory true p = .ok (loc, .directory))

include hdir

/-- What the path of an entry leads to, after entries were removed. -/
theorem eq_entry_of_find {S : Location → Prop} (hm : m.With (Thinned S m.tree) m₁) {n : Bytes}
    (hn : IsName n) {l : Location} {node : Node}
    (h : m₁.tree.find m₁.directory false (p.join n) = .ok (l, node)) : l = n :: loc := by
  obtain ⟨hlocate, hnode, -⟩ := find_eq_ok.1 hdir
  rw [Bool.true_or] at hlocate
  rw [hm.directory_eq] at h
  have hpruned := hm.tree.pruned
  have hthere := hpruned.extends_left.find_of_find h
    (hpruned.eq_some (find_eq_ok.1 h).2.1)
  obtain ⟨hentry, -, -⟩ := find_eq_ok.1 hthere
  rw [hn.endsInSlash_join p, Bool.false_or] at hentry
  have hjoin := (Extends.refl m.tree).locate_join hlocate hnode hn (locate_eq_ok.1 hentry).1
    fun _ _ => rfl
  rw [hentry] at hjoin
  exact Except.ok.inj hjoin

/-- Removing an entry leaves all but the entry and what lies below it. -/
theorem after_removeEntry (hm : m.With (Thinned (Below loc) m.tree) m₁) {n : Bytes}
    (hn : IsName n) :
    m₁.With (Thinned (n :: loc <:+ ·) m₁.tree) (m₁.after (removeAll (p.join n))) := by
  rcases hfind : m₁.tree.find m₁.directory false (p.join n) with e | ⟨l, node⟩
  · have hstay : m₁.after (removeAll (p.join n)) = m₁ := by
      rw [after]
      rcases h : removeAll (p.join n) m₁ with ⟨_, m₂⟩ | ⟨e', m₂⟩
      · obtain ⟨_, _, hasks, -⟩ := bind_eq_ok.1 h
        rw [(asks_eq_ok.1 hasks).1] at hfind
        cases hfind
      · rcases bind_eq_error.1 h with hasks | ⟨_, _, hasks, -⟩
        · exact (asks_eq_error.1 hasks).2
        · rw [(asks_eq_ok.1 hasks).1] at hfind
          cases hfind
    rw [hstay]
    exact .refl ⟨hm.tree.wellFormed, .refl _ _⟩
  · obtain rfl := eq_entry_of_find hdir hm hn hfind
    exact after_removeAll hm.tree.wellFormed hfind

/-- Removing entries leaves all but what lies below the directory, of the tree at the start as of
any later one. -/
theorem keeps_removeEntries {names : List Bytes} (hnames : ∀ n ∈ names, IsName n) (t₀ : Tree) :
    Keeps (fun m₁ => m.With (Thinned (Below loc) m.tree) m₁ ∧ Pruned (Below loc) t₀ m₁.tree)
      (names.forM fun n => removeAll (p.join n)) := by
  refine keeps_forM fun n hn m₁ ⟨hm, hpruned⟩ => ?_
  have hentry := after_removeEntry hdir hm (hnames n hn)
  have hbelow := hentry.tree.pruned.mono fun _ => below_of_suffix
  exact ⟨(hm.trans hentry).mono fun h => hm.tree.trans h fun _ => below_of_suffix,
    hpruned.trans hbelow⟩

/-- Entries that were all removed are gone. -/
theorem removeEntries_eq_ok {names : List Bytes} (hnames : ∀ n ∈ names, IsName n)
    (hm : m.With (Thinned (Below loc) m.tree) m₁)
    (h : (names.forM fun n => removeAll (p.join n)) m₁ = .ok () m') :
    ∀ n ∈ names, m'.tree.node? (n :: loc) = none := by
  induction names generalizing m₁ with
  | nil => exact fun n hn => absurd hn List.not_mem_nil
  | cons n names ih =>
    obtain ⟨_, m₂, hremove, hrest⟩ := bind_eq_ok.1 h
    change removeAll (p.join n) m₁ = _ at hremove
    have hn := hnames n List.mem_cons_self
    have hothers := fun n hn => hnames n (List.mem_cons_of_mem _ hn)
    have hentry := after_removeEntry hdir hm hn
    rw [after_of_eq_ok hremove] at hentry
    have hm₂ := (hm.trans hentry).mono fun h => hm.tree.trans h fun _ => below_of_suffix
    refine List.forall_mem_cons.2 ⟨?_, ih hothers hm₂ hrest⟩
    obtain ⟨l, node, hfind, -, hgone⟩ := removeAll_eq_ok hm.tree.wellFormed hremove
    obtain rfl := eq_entry_of_find hdir hm hn hfind
    -- what is gone stays gone while the others are removed
    have hlater := (keeps_removeEntries hdir hothers m₂.tree).ok ⟨hm₂, .refl _ _⟩ hrest
    exact hlater.2.eq_none hgone

include ht

/-- **Emptying a directory touches nothing that does not lie below it,** also if it stops
half-way. -/
theorem after_emptyDirectory :
    m.With (Thinned (Below loc) m.tree) (m.after (emptyDirectory p)) := by
  rw [after, emptyDirectory, asks_bind (namesAt_eq_ok.2 ⟨loc, hdir, rfl⟩)]
  exact (keeps_removeEntries hdir ht.isName_of_mem m.tree m ⟨.refl ⟨ht, .refl _ _⟩, .refl _ _⟩).1

/-- **A directory that was emptied has no entries.** -/
theorem namesIn_of_emptyDirectory_eq_ok (h : emptyDirectory p m = .ok () m') :
    m'.tree.namesIn loc = [] := by
  have hafter := after_emptyDirectory ht hdir
  rw [after_of_eq_ok h] at hafter
  rw [emptyDirectory, asks_bind (namesAt_eq_ok.2 ⟨loc, hdir, rfl⟩)] at h
  have hgone := removeEntries_eq_ok hdir ht.isName_of_mem (.refl ⟨ht, .refl _ _⟩) h
  refine List.eq_nil_iff_forall_not_mem.2 fun n hn => ?_
  obtain ⟨node, hnode⟩ := mem_namesIn.1 hn
  have hwas := mem_namesIn.2 ⟨node, hafter.tree.pruned.eq_some hnode⟩
  rw [hgone n hwas] at hnode
  cases hnode

end Entries

/-- Only what has a path that is not refused can be removed. -/
theorem requireWalkable_of_removeAll_eq_ok (h : removeAll p m = .ok () m') :
    requireWalkable p = .ok () := by
  obtain ⟨⟨loc, node⟩, _, hasks, -⟩ := bind_eq_ok.1 h
  exact (locate_eq_ok.1 (find_eq_ok.1 (asks_eq_ok.1 hasks).1).1).1

theorem requireWalkable_of_removeEntries_eq_ok {names : List Bytes}
    (h : (names.forM fun n => removeAll (p.join n)) m = .ok () m') :
    ∀ n ∈ names, requireWalkable (p.join n) = .ok () := by
  induction names generalizing m with
  | nil => exact fun n hn => absurd hn List.not_mem_nil
  | cons n names ih =>
    obtain ⟨_, m₁, hremove, hrest⟩ := bind_eq_ok.1 h
    exact List.forall_mem_cons.2 ⟨requireWalkable_of_removeAll_eq_ok hremove, ih hrest⟩

/-- **A directory that was emptied had no entry with too long a path.** -/
theorem length_le_of_emptyDirectory_eq_ok
    (hdir : m.tree.find m.directory true p = .ok (loc, .directory))
    (h : emptyDirectory p m = .ok () m') :
    ∀ n ∈ m.tree.namesIn loc, (p.join n).length ≤ maxPathLength := by
  rw [emptyDirectory, asks_bind (namesAt_eq_ok.2 ⟨loc, hdir, rfl⟩)] at h
  intro n hn
  exact (requireWalkable_eq_ok.1 (requireWalkable_of_removeEntries_eq_ok h n hn)).2.2

/-- What has too long a path cannot be removed by it. -/
theorem after_removeAll_of_long (hlong : maxPathLength < p.length) : m.after (removeAll p) = m := by
  rcases h : removeAll p m with ⟨_, m'⟩ | ⟨e, m'⟩
  · exact absurd (requireWalkable_eq_ok.1 (requireWalkable_of_removeAll_eq_ok h)).2.2
      (Nat.not_le.2 hlong)
  · rw [after_of_eq_error h]
    rcases bind_eq_error.1 h with hasks | ⟨⟨loc, node⟩, _, hasks, -⟩
    · exact (asks_eq_error.1 hasks).2
    · have hfind := (asks_eq_ok.1 hasks).1
      exact absurd (requireWalkable_eq_ok.1 (locate_eq_ok.1 (find_eq_ok.1 hfind).1).1).2.2
        (Nat.not_le.2 hlong)

/-- An entry stays while others are removed, and also if its path is too long. -/
theorem keeps_entry (hdir : m.tree.find m.directory true p = .ok (loc, .directory))
    {names : List Bytes} (hnames : ∀ n ∈ names, IsName n) {n : Bytes}
    (hstays : n ∈ names → maxPathLength < (p.join n).length) :
    Keeps (fun m₁ => m.With (Thinned (Below loc) m.tree) m₁ ∧
      m₁.tree.node? (n :: loc) = m.tree.node? (n :: loc))
      (names.forM fun n' => removeAll (p.join n')) := by
  refine keeps_forM fun n' hn' m₁ ⟨hm, hsame⟩ => ?_
  by_cases hname : n' = n
  · rw [hname, after_removeAll_of_long (hstays (hname ▸ hn'))]
    exact ⟨hm, hsame⟩
  · have hentry := after_removeEntry hdir hm (hnames n' hn')
    have hother : ¬n' :: loc <:+ n :: loc := fun hsuffix =>
      hname (List.cons.inj (hsuffix.eq_of_length (by simp))).1
    exact ⟨(hm.trans hentry).mono fun h => hm.tree.trans h fun _ => below_of_suffix,
      (hentry.tree.pruned.eq_of_not hother).trans hsame⟩

/-- **An entry with too long a path stays** when its directory is emptied. -/
theorem node?_after_emptyDirectory_of_long (ht : m.tree.WellFormed)
    (hdir : m.tree.find m.directory true p = .ok (loc, .directory)) {n : Bytes}
    (hlong : maxPathLength < (p.join n).length) :
    (m.after (emptyDirectory p)).tree.node? (n :: loc) = m.tree.node? (n :: loc) := by
  rw [after, emptyDirectory, asks_bind (namesAt_eq_ok.2 ⟨loc, hdir, rfl⟩)]
  exact (keeps_entry hdir ht.isName_of_mem (fun _ => hlong) m ⟨.refl ⟨ht, .refl _ _⟩, rfl⟩).2

/-- **Where emptying a directory stops,** one entry cannot be removed after those before it were. -/
theorem emptyDirectory_eq_error {e : Fault}
    (hdir : m.tree.find m.directory true p = .ok (loc, .directory)) :
    emptyDirectory p m = .error e m' ↔ ∃ front n back m₁,
      m.tree.namesIn loc = front ++ n :: back ∧
      (front.forM fun n' => removeAll (p.join n')) m = .ok () m₁ ∧
      removeAll (p.join n) m₁ = .error e m' := by
  rw [emptyDirectory, asks_bind (namesAt_eq_ok.2 ⟨loc, hdir, rfl⟩)]
  exact forM_eq_error

/-- **Then those before it are gone,** and it is there with those behind it. -/
theorem entries_of_stop (ht : m.tree.WellFormed) {e : Fault} {m₁ : Machine}
    (hdir : m.tree.find m.directory true p = .ok (loc, .directory)) {front back : List Bytes}
    {n : Bytes} (hnames : m.tree.namesIn loc = front ++ n :: back)
    (hfront : (front.forM fun n' => removeAll (p.join n')) m = .ok () m₁)
    (hstop : removeAll (p.join n) m₁ = .error e m') :
    (∀ n' ∈ front, m'.tree.node? (n' :: loc) = none) ∧
      ∀ n' ∈ n :: back, m'.tree.node? (n' :: loc) = m.tree.node? (n' :: loc) := by
  have hall : ∀ n' ∈ m.tree.namesIn loc, IsName n' := ht.isName_of_mem
  have hnodup := ht.nodup_namesIn loc
  rw [hnames] at hall hnodup
  have hisName : ∀ n' ∈ front, IsName n' := fun n' hn' => hall n' (List.mem_append_left _ hn')
  have hn : IsName n := hall n (by simp)
  have hstart : m.With (Thinned (Below loc) m.tree) m := .refl ⟨ht, .refl _ _⟩
  have hm₁ := ((keeps_removeEntries hdir hisName m.tree).ok ⟨hstart, .refl _ _⟩ hfront).1
  have hgone := removeEntries_eq_ok hdir hisName hstart hfront
  have hentry := after_removeEntry hdir hm₁ hn
  rw [after_of_eq_error hstop] at hentry
  refine ⟨fun n' hn' => hentry.tree.pruned.eq_none (hgone n' hn'), fun n' hn' => ?_⟩
  have hnot : n' ∉ front := fun hmem => (List.nodup_append.1 hnodup).2.2 n' hmem n' hn' rfl
  have hkept := ((keeps_entry hdir hisName fun hmem => absurd hmem hnot).ok ⟨hstart, rfl⟩
    hfront).2
  refine Eq.trans ?_ hkept
  by_cases hname : n' = n
  · subst hname
    rcases hfind : m₁.tree.find m₁.directory false (p.join n') with fault | ⟨l, node⟩
    · rcases bind_eq_error.1 hstop with hasks | ⟨_, _, hasks, -⟩
      · rw [(asks_eq_error.1 hasks).2]
      · rw [(asks_eq_ok.1 hasks).1] at hfind
        cases hfind
    · obtain rfl := eq_entry_of_find hdir hm₁ hn hfind
      exact node?_of_removeAll_eq_error hm₁.tree.wellFormed hfind hstop
  · refine hentry.tree.pruned.eq_of_not fun hsuffix => ?_
    exact hname (List.cons.inj (hsuffix.eq_of_length (by simp))).1.symm

/-! ### Removals that end -/

/-- **The deepest first:** locations that hold all that lies below a directory, longer ones first,
are removed one after the other. -/
theorem exists_removeNodes (hsound : ∀ k, m.faults k = none) {locs : List Location}
    (hsorted : locs.Pairwise fun a b => b.length ≤ a.length) (hbelow : ∀ l ∈ locs, Below loc l)
    (hall : ∀ l node, Below loc l → m.tree.node? l = some node → l ∈ locs) :
    ∃ m', locs.forM removeNode m = .ok () m' ∧ m'.tree.namesIn loc = [] := by
  induction locs generalizing m with
  | nil =>
    refine ⟨m, rfl, List.eq_nil_iff_forall_not_mem.2 fun n hn => ?_⟩
    obtain ⟨node, hnode⟩ := mem_namesIn.1 hn
    exact List.not_mem_nil (hall _ _ (below_cons n loc) hnode)
  | cons l locs ih =>
    obtain ⟨hfirst, hsorted⟩ := List.pairwise_cons.1 hsorted
    have hl := hbelow l List.mem_cons_self
    have hempty : m.tree.namesIn l = [] := by
      refine List.eq_nil_iff_forall_not_mem.2 fun n hn => ?_
      obtain ⟨node, hnode⟩ := mem_namesIn.1 hn
      have hdeeper : Below loc (n :: l) := by
        refine ⟨hl.1.trans (List.suffix_cons n l), ?_⟩
        rintro rfl
        have hlen := hl.1.length_le
        rw [List.length_cons] at hlen
        omega
      rcases List.mem_cons.1 (hall _ _ hdeeper hnode) with heq | hmem
      · exact List.cons_ne_self n l heq
      · have hlen := hfirst _ hmem
        rw [List.length_cons] at hlen
        omega
    have hremove := change_of_sound (f := fun t _ => t.removeEmpty l) hsound
      (removeEmpty_eq_ok.2 ⟨hl.ne_nil, hempty, rfl⟩)
    obtain ⟨m', hrest, hnone⟩ := ih (m := { m with
        tree := m.tree.erase l, changes := m.changes + 1 }) hsound hsorted
      (fun l' hl' => hbelow l' (List.mem_cons_of_mem _ hl')) fun l' node hl' hnode => by
        rw [m.tree.node?_erase hl.ne_nil] at hnode
        split at hnode
        · cases hnode
        · rename_i hne
          exact (List.mem_cons.1 (hall l' node hl' hnode)).resolve_left hne
    exact ⟨m', bind_eq_ok.2 ⟨_, _, hremove, hrest⟩, hnone⟩

/-- What lies below a location, the deepest first. -/
theorem pairwise_below (t : Tree) (dir : Location) :
    (t.below dir).Pairwise fun a b => b.length ≤ a.length := by
  refine (List.pairwise_mergeSort (fun a b c hab hbc => ?_) (fun a b => ?_) _).imp fun h => by
    simpa using h
  · simp only [decide_eq_true_eq] at hab hbc ⊢
    omega
  · simp only [Bool.or_eq_true, decide_eq_true_eq]
    omega

/-- **A node can be removed with all it holds** if its path ends in its name and leads to it until
the end. -/
theorem exists_removeAll (hsound : ∀ k, m.faults k = none) {n : Bytes} (hn : IsName n) {node : Node}
    (hfind : m.tree.find m.directory false (p.join n) = .ok (n :: loc, node))
    (hway : ∀ t, Pruned (Below (n :: loc)) m.tree t →
      t.locate m.directory false (p.join n) = .ok (n :: loc)) :
    ∃ m', removeAll (p.join n) m = .ok () m' := by
  have hloc : n :: loc ≠ [] := List.cons_ne_nil n loc
  by_cases hnode : node = .directory
  · subst hnode
    rw [removeAll_directory hfind]
    obtain ⟨m₁, hinner, hempty⟩ := exists_removeNodes hsound
      (pairwise_below m.tree (n :: loc)) (fun l hl => (mem_below.1 hl).2)
      fun l x hl hx => mem_below.2 ⟨⟨x, hx⟩, hl⟩
    have hm₁ : m.With (Pruned (Below (n :: loc)) m.tree) m₁ := by
      refine Keeps.ok (keeps_forM fun l hl => ?_) (.refl (.refl _ _)) hinner
      refine keeps_change fun t t' ht h => ?_
      obtain ⟨hl', -, rfl⟩ := removeEmpty_eq_ok.1 h
      exact ht.trans (.erase hl' (mem_below.1 hl).2)
    have hdirectory : m₁.tree.node? (n :: loc) = some .directory := by
      rw [hm₁.tree.eq_of_not fun h => h.2 rfl]
      exact (find_eq_ok.1 hfind).2.1
    have hremove : m₁.tree.removeDirectory m₁.directory (p.join n)
        = .ok (m₁.tree.erase (n :: loc)) :=
      removeDirectory_of_empty hn (hm₁.directory_eq ▸ hway _ hm₁.tree) hdirectory hloc hempty
    exact ⟨_, bind_eq_ok.2 ⟨_, m₁, hinner,
      change_of_sound (f := fun t dir => t.removeDirectory dir (p.join n))
        (hm₁.faults_eq ▸ hsound) hremove⟩⟩
  · rw [removeAll_file hfind hnode]
    have hremove : m.tree.removeFile m.directory (p.join n) = .ok (m.tree.erase (n :: loc)) := by
      rw [Tree.removeFile, hfind]
      cases node with
      | directory => exact absurd rfl hnode
      | file content => rfl
      | link path => rfl
    exact ⟨_, change_of_sound (f := fun t dir => t.removeFile dir (p.join n)) hsound hremove⟩

section Emptying

variable (ht : m.tree.WellFormed) (hsound : ∀ k, m.faults k = none)
  (hway : ∀ t, Pruned (Below loc) m.tree t → t.find m.directory true p = .ok (loc, .directory))

include ht hsound hway

/-- An entry that is as it was can be removed, whatever other entries are gone. -/
theorem exists_removeEntry {m₁ : Machine} (hm : m.With (Thinned (Below loc) m.tree) m₁) {n : Bytes}
    {node : Node} (hnode : m₁.tree.node? (n :: loc) = some node)
    (hlen : (p.join n).length ≤ maxPathLength) :
    ∃ m₂, removeAll (p.join n) m₁ = .ok () m₂ := by
  have hn : IsName n := ht.isName (hm.tree.pruned.eq_some hnode)
  have hwalkable : requireWalkable (p.join n) = .ok () :=
    requireWalkable_join hn (locate_eq_ok.1 (find_eq_ok.1 (hway m.tree (.refl _ _))).1).1 hlen
  have hlead : ∀ t, Pruned (Below loc) m.tree t →
      t.locate m.directory false (p.join n) = .ok (n :: loc) := fun t hpruned => by
    obtain ⟨hlocate, hdirectory, -⟩ := find_eq_ok.1 (hway t hpruned)
    exact (Extends.refl t).locate_join hlocate hdirectory hn hwalkable fun _ _ => rfl
  have hfind : m₁.tree.find m₁.directory false (p.join n) = .ok (n :: loc, node) := by
    have hslash := hn.endsInSlash_join p
    refine find_eq_ok.2 ⟨?_, hnode, fun hs => by simp [hslash] at hs⟩
    rw [hslash, hm.directory_eq]
    exact hlead _ hm.tree.pruned
  refine exists_removeAll (hm.faults_eq ▸ hsound) hn hfind fun t hpruned => ?_
  rw [hm.directory_eq]
  exact hlead t (hm.tree.pruned.trans (hpruned.mono fun l hl => below_of_suffix hl.1))

/-- Entries that are as they were can be removed one after the other. -/
theorem exists_removeEntries {names : List Bytes} (hnodup : names.Nodup) {m₁ : Machine}
    (hm : m.With (Thinned (Below loc) m.tree) m₁)
    (hthere : ∀ n ∈ names, ∃ node, m₁.tree.node? (n :: loc) = some node)
    (hlen : ∀ n ∈ names, (p.join n).length ≤ maxPathLength) :
    ∃ m', (names.forM fun n => removeAll (p.join n)) m₁ = .ok () m' := by
  induction names generalizing m₁ with
  | nil => exact ⟨m₁, rfl⟩
  | cons n names ih =>
    obtain ⟨hfirst, hnodup⟩ := List.nodup_cons.1 hnodup
    obtain ⟨node, hnode⟩ := hthere n List.mem_cons_self
    obtain ⟨m₂, hremove⟩ := exists_removeEntry ht hsound hway hm hnode (hlen n List.mem_cons_self)
    have hafter := after_removeEntry (hway m.tree (.refl _ _)) hm
      (ht.isName (hm.tree.pruned.eq_some hnode))
    rw [after_of_eq_ok hremove] at hafter
    have hm₂ := (hm.trans hafter).mono fun h => hm.tree.trans h fun _ => below_of_suffix
    have hothers : ∀ n' ∈ names, ∃ node, m₂.tree.node? (n' :: loc) = some node := fun n' hn' => by
      have hne : ¬n :: loc <:+ n' :: loc := fun hsuffix => by
        obtain ⟨rfl, -⟩ := List.cons.inj (hsuffix.eq_of_length (by simp))
        exact hfirst hn'
      rw [hafter.tree.pruned.eq_of_not hne]
      exact hthere n' (List.mem_cons_of_mem _ hn')
    obtain ⟨m', hrest⟩ := ih hnodup hm₂ hothers fun n' hn' => hlen n' (List.mem_cons_of_mem _ hn')
    exact ⟨m', bind_eq_ok.2 ⟨_, m₂, hremove, hrest⟩⟩

/-- **A directory can be emptied** if no change fails for an outside reason, the path of each entry
is short enough, and the way to the directory does not lead through what it holds. -/
theorem exists_emptyDirectory
    (hlen : ∀ n ∈ m.tree.namesIn loc, (p.join n).length ≤ maxPathLength) :
    ∃ m', emptyDirectory p m = .ok () m' := by
  rw [emptyDirectory, asks_bind (namesAt_eq_ok.2 ⟨loc, hway m.tree (.refl _ _), rfl⟩)]
  exact exists_removeEntries ht hsound hway (ht.nodup_namesIn loc) (.refl ⟨ht, .refl _ _⟩)
    (fun n hn => mem_namesIn.1 hn) hlen

end Emptying

end Machine
end SnippetConsole
