/-
# Making a workspace

Making a workspace wipes only what it owns (`initialise_wipes_only_owned`). A root that holds
something but not the marker is left alone (`initialise_of_foreign`). A root that was made holds the
marker and two empty directories and nothing else, and outside it nothing has changed but for
directories made on the way to it (`made_of_initialise_eq_ok`): links found in the root are gone,
what they led to is not. A root that holds the marker as a file, or nothing, can be made
(`exists_initialise_iff`), and so can one that was made before, whatever lies in it now beside the
marker.

What carries all of this is the tree in which the root is empty already (`Ground`). The marker's
path led to its place there, so the path of the root does not lead through what the root holds, and
every tree that extends the ground has the root where it was.
-/

import SnippetConsole.Workspace
import SnippetConsole.Proofs.DirectoryMaking

namespace SnippetConsole
namespace FileTree
namespace Tree

open FilePath (IsName)

/-! ### Entries of a directory -/

section Entries

variable {t t' base : Tree} (hext : t.Extends base) {dir root : Location} {p : FilePath}
  (hroot : base.find dir true p = .ok (root, .directory)) {n : Bytes} (hn : IsName n)

include hext hroot hn

/-- The path of an entry leads to it, if it is not refused. -/
theorem locate_entry_eq_ok (follow : Bool) {loc : Location}
    (hlink : ∀ path, t.node? (n :: root) = some (.link path) → follow = false) :
    t.locate dir follow (p.join n) = .ok loc ↔
      requireWalkable (p.join n) = .ok () ∧ loc = n :: root := by
  obtain ⟨hlocate, hdir, -⟩ := find_eq_ok.1 hroot
  have hjoin (hp : requireWalkable (p.join n) = .ok ()) :
      t.locate dir follow (p.join n) = .ok (n :: root) :=
    hext.locate_join hlocate (hext.directory hdir) hn hp hlink
  constructor
  · intro h
    have hp := (locate_eq_ok.1 h).1
    rw [hjoin hp] at h
    exact ⟨hp, (Except.ok.inj h).symm⟩
  · rintro ⟨hp, rfl⟩
    exact hjoin hp

/-- The path of an entry that is a directory leads to it. -/
theorem find_entry_directory (hp : requireWalkable (p.join n) = .ok ())
    (hnode : t.node? (n :: root) = some .directory) :
    t.find dir true (p.join n) = .ok (n :: root, .directory) := by
  have hlocate := (locate_entry_eq_ok hext hroot hn false fun _ _ => rfl).2 ⟨hp, rfl⟩
  exact (Extends.refl t).find_directory hlocate hnode

theorem makeDirectory_entry_eq_ok :
    t.makeDirectory dir (p.join n) = .ok t' ↔
      requireWalkable (p.join n) = .ok () ∧ t.node? (n :: root) = none ∧
        t' = t.put (n :: root) .directory := by
  have hentry {loc : Location} : t.locate dir false (p.join n) = .ok loc ↔ _ :=
    locate_entry_eq_ok hext hroot hn false fun _ _ => rfl
  constructor
  · intro h
    obtain ⟨loc, hlocate, h⟩ := except_bind_eq_ok.1 h
    obtain ⟨hp, rfl⟩ := hentry.1 hlocate
    rcases hnode : t.node? (n :: root) with _ | node
    · rw [hnode] at h
      exact ⟨hp, rfl, (Except.ok.inj h).symm⟩
    · rw [hnode] at h
      cases h
  · rintro ⟨hp, hfree, rfl⟩
    exact makeDirectory_of_free (hentry.2 ⟨hp, rfl⟩) hfree

theorem writeFile_entry_eq_ok (hfree : t.node? (n :: root) = none) {content : Content} :
    t.writeFile dir (p.join n) content = .ok t' ↔
      requireWalkable (p.join n) = .ok () ∧ t' = t.put (n :: root) (.file content) := by
  have hentry {loc : Location} : t.locate dir true (p.join n) = .ok loc ↔ _ :=
    locate_entry_eq_ok hext hroot hn true fun path hlink => by rw [hfree] at hlink; cases hlink
  have hwrite (hp : requireWalkable (p.join n) = .ok ()) :
      t.writeFile dir (p.join n) content = .ok (t.put (n :: root) (.file content)) :=
    writeFile_of_free (hn.endsInSlash_join p) (hentry.2 ⟨hp, rfl⟩) hfree
  constructor
  · intro h
    have hp : requireWalkable (p.join n) = .ok () := by
      unfold writeFile at h
      rw [if_neg (by simp [hn.endsInSlash_join p])] at h
      obtain ⟨loc, hlocate, -⟩ := except_bind_eq_ok.1 h
      exact (hentry.1 hlocate).1
    rw [hwrite hp] at h
    exact ⟨hp, (Except.ok.inj h).symm⟩
  · rintro ⟨hp, rfl⟩
    exact hwrite hp

end Entries

/-- **Where a joined name leads somewhere, the path leads to a directory,** and the name is an entry
of that. -/
theorem exists_find_of_locate_join {t : Tree} {dir loc : Location} {p : FilePath} {n : Bytes}
    (hn : IsName n) (hp : p ≠ []) (h : t.locate dir false (p.join n) = .ok loc) :
    ∃ parent, t.find dir true p = .ok (parent, .directory) ∧ loc = n :: parent := by
  obtain ⟨parent, hroute, hparent⟩ := exists_walk_of_locate_join hn h (List.prefix_refl _)
  have hlocate : t.locate dir true p = .ok parent :=
    locate_eq_ok.2 ⟨requireWalkable_of_join hn hp (locate_eq_ok.1 h).1,
      hroute.walk_directory (.refl t) hparent⟩
  have hfind : t.find dir true p = .ok (parent, .directory) :=
    find_eq_ok.2 ⟨hlocate, hparent, fun _ => rfl⟩
  exact ⟨parent, hfind, ((locate_entry_eq_ok (.refl t) hfind hn false fun _ _ => rfl).1 h).2⟩

/-- The tree in which a root is empty: its path leads to it and nothing lies below. -/
structure Ground (dir : Location) (p : FilePath) (root : Location) (base : Tree) : Prop where
  wellFormed : base.WellFormed
  find : base.find dir true p = .ok (root, .directory)
  free : ∀ loc, Below root loc → base.node? loc = none

/-- The path leads to the root, and not through what the root holds: whatever of that is gone. -/
def LeadsTo (t : Tree) (dir : Location) (p : FilePath) (root : Location) : Prop :=
  ∀ t', Pruned (Below root) t t' → t'.find dir true p = .ok (root, .directory)

namespace Ground

variable {t t' base : Tree} {dir root : Location} {p : FilePath}

/-- A root stays where it is, whatever is put in it. -/
theorem find_of_extends (h : Ground dir p root base) (hext : t.Extends base) :
    t.find dir true p = .ok (root, .directory) := by
  obtain ⟨hlocate, hdir, -⟩ := find_eq_ok.1 h.find
  exact hext.find_directory hlocate (hext.directory hdir)

theorem leadsTo (h : Ground dir p root base) (hext : t.Extends base) : t.LeadsTo dir p root :=
  fun _ hpruned => h.find_of_extends (hpruned.extends_right hext h.free)

/-- **A root that was emptied is ground** if the path of an entry still leads somewhere: then none
of the way went. -/
theorem of_locate_join (hbase : base.WellFormed) (hext : t.Extends base)
    (hroot : t.find dir true p = .ok (root, .directory)) (hempty : base.namesIn root = [])
    {n : Bytes} (hn : IsName n) {follow : Bool} {loc : Location}
    (hlocate : base.locate dir follow (p.join n) = .ok loc) : Ground dir p root base := by
  obtain ⟨hlocate₀, -, -⟩ := find_eq_ok.1 hroot
  rw [Bool.true_or] at hlocate₀
  obtain ⟨hp, hwalk⟩ := locate_eq_ok.1 hlocate₀
  obtain ⟨hroute, hdir⟩ := route_of_locate_join hn hlocate hext (List.prefix_refl _) hwalk
  have hthere := hroute.walk_directory (Extends.refl base) hdir
  exact ⟨hbase, (Extends.refl base).find_directory (locate_eq_ok.2 ⟨hp, hthere⟩) hdir,
    fun loc => hbase.eq_none_of_namesIn hempty⟩

end Ground

/-- A name alone is looked up where it is seen from. -/
theorem locate_name (t : Tree) (dir : Location) (follow : Bool) {n : Bytes} (hn : IsName n) :
    t.locate dir follow n = t.walk follow maxLinks dir [n] := by
  have hlen := hn.length_le
  rw [maxNameLength] at hlen
  have hwalkable : requireWalkable n = .ok () :=
    requireWalkable_eq_ok.2 ⟨hn.ne_nil, hn.nul_notMem, by rw [maxPathLength]; omega⟩
  have hnames : FilePath.names n = [n] :=
    FilePath.names_of_slash_notMem hn.ne_nil hn.slash_notMem
  rw [locate, hwalkable, start, hn.isAbsolute_eq, hnames]
  rfl

/-- A file that the path of an entry leads to is found under its name, seen from the directory. -/
theorem find_name_of_find_join {t : Tree} {dir root loc : Location} {p : FilePath} {n : Bytes}
    {content : Content} (hroot : t.find dir true p = .ok (root, .directory)) (hn : IsName n)
    (h : t.find dir true (p.join n) = .ok (loc, .file content)) :
    t.find root true n = .ok (loc, .file content) := by
  obtain ⟨hlocate, hnode, -⟩ := find_eq_ok.1 h
  obtain ⟨hlocate', -, -⟩ := find_eq_ok.1 hroot
  rw [Bool.true_or] at hlocate hlocate'
  obtain ⟨-, hwalk⟩ := locate_eq_ok.1 hlocate
  rw [start, hn.isAbsolute_join, hn.names_join] at hwalk
  -- behind the root as many links may follow as the way to it left over
  obtain ⟨links, mid, hlinks, hfront, hback⟩ :=
    (route_of_walk hwalk).split (List.cons_ne_nil n [])
  have hmid : mid = root := by
    have hthere := hfront.walk_directory (Extends.refl t) hback.directory_of_cons
    exact Except.ok.inj (hthere.symm.trans (locate_eq_ok.1 hlocate').2)
  subst hmid
  obtain ⟨links', honward⟩ := (hback.mono hlinks).walk_append (Extends.refl t) true []
    (fun _ => .inr rfl) (.inr ⟨rfl, fun path hlink => by rw [hnode] at hlink; cases hlink⟩)
  rw [List.append_nil, walk_nil] at honward
  have hslash : endsInSlash n = false := by simpa [FilePath.join] using hn.endsInSlash_join []
  refine find_eq_ok.2 ⟨?_, hnode, by simp [hslash]⟩
  rw [Bool.true_or, locate_name t mid true hn]
  exact honward

end Tree
end FileTree

namespace Workspace

open FileTree FileTree.Tree Machine
open FilePath (IsName)

variable {m m' : Machine} {p : FilePath} {root : Location}

theorem isName_markerName : IsName markerName := by decide

theorem isName_sourcesName : IsName sourcesName := by decide

theorem isName_artifactsName : IsName artifactsName := by decide

/-! ### A furnished root -/

/-- What lies at a location below the root of a workspace that was just made: the marker, empty, and
the two directories. -/
def freshNode? (root loc : Location) : Option Node :=
  if loc = markerName :: root then some (.file (.bytes []))
  else if loc = sourcesName :: root ∨ loc = artifactsName :: root then some .directory
  else none

/-- It lies below the root. -/
theorem freshNode?_of_not_below {loc : Location} (h : ¬Below root loc) :
    freshNode? root loc = none := by
  have hne (n : Bytes) : loc ≠ n :: root := by
    rintro rfl
    exact h (below_cons n root)
  rw [freshNode?, if_neg (hne _), if_neg (not_or.2 ⟨hne _, hne _⟩)]

/-- A tree with the marker. -/
def marked (root : Location) (t : Tree) : Tree := t.put (markerName :: root) (.file (.bytes []))

/-- A tree with the marker and the directory for sources. -/
def sourced (root : Location) (t : Tree) : Tree :=
  (marked root t).put (sourcesName :: root) .directory

/-- A tree with all of it. -/
def furnished (root : Location) (t : Tree) : Tree :=
  (sourced root t).put (artifactsName :: root) .directory

theorem node?_furnished (root : Location) (t : Tree) (loc : Location) :
    (furnished root t).node? loc = (freshNode? root loc).or (t.node? loc) := by
  have hsources : sourcesName ≠ markerName := by decide
  have hartifacts : artifactsName ≠ markerName := by decide
  rw [furnished, node?_put _ (List.cons_ne_nil _ _), sourced, node?_put _ (List.cons_ne_nil _ _),
    marked, node?_put _ (List.cons_ne_nil _ _), freshNode?]
  by_cases hmarker : loc = markerName :: root
  · simp [hmarker, hsources.symm, hartifacts.symm]
  · by_cases hs : loc = sourcesName :: root
    · simp [hs, hsources]
    · by_cases ha : loc = artifactsName :: root
      · simp [ha, hartifacts]
      · simp [hmarker, hs, ha]

/-- The paths of what a workspace puts into its root are not refused. -/
def Walkable (p : FilePath) : Prop :=
  ∀ n ∈ [markerName, sourcesName, artifactsName], requireWalkable (p.join n) = .ok ()

section Furnish

variable {base : Tree} {dir : Location} (hground : Ground dir p root base)

include hground

theorem extends_marked : (marked root base).Extends base :=
  extends_put _ (List.cons_ne_nil _ _) (hground.free _ (below_cons _ _)) _

theorem node?_marked_sources : (marked root base).node? (sourcesName :: root) = none := by
  have hne : sourcesName ≠ markerName := by decide
  simp [marked, node?_put _ (List.cons_ne_nil _ _), hne, hground.free _ (below_cons _ _)]

theorem extends_sourced : (sourced root base).Extends base :=
  (extends_put _ (List.cons_ne_nil _ _) (node?_marked_sources hground) _).trans
    (extends_marked hground)

theorem node?_sourced_artifacts : (sourced root base).node? (artifactsName :: root) = none := by
  have hne : artifactsName ≠ sourcesName := by decide
  have hne' : artifactsName ≠ markerName := by decide
  simp [sourced, marked, node?_put _ (List.cons_ne_nil _ _), hne, hne',
    hground.free _ (below_cons _ _)]

/-- What is put into an empty root takes no directory and no link away. -/
theorem extends_furnished : (furnished root base).Extends base :=
  (extends_put _ (List.cons_ne_nil _ _) (node?_sourced_artifacts hground) _).trans
    (extends_sourced hground)

/-- It keeps the tree well-formed, piece by piece. -/
theorem wellFormed_marked : (marked root base).WellFormed :=
  hground.wellFormed.put (find_eq_ok.1 hground.find).2.1 isName_markerName
    (by simp [hground.free _ (below_cons _ _)]) (by simp)

theorem wellFormed_sourced : (sourced root base).WellFormed :=
  (wellFormed_marked hground).put
    ((extends_marked hground).directory (find_eq_ok.1 hground.find).2.1) isName_sourcesName
    (by simp [node?_marked_sources hground]) (by simp)

theorem wellFormed_furnished : (furnished root base).WellFormed :=
  (wellFormed_sourced hground).put
    ((extends_sourced hground).directory (find_eq_ok.1 hground.find).2.1) isName_artifactsName
    (by simp [node?_sourced_artifacts hground]) (by simp)

end Furnish

/-- What a workspace puts into its root, once that is empty. -/
def furnish (p : FilePath) : Act FileTree.Fault Unit := do
  Machine.writeFile (p.join markerName) (.bytes [])
  Machine.makeDirectory (p.join sourcesName)
  Machine.makeDirectory (p.join artifactsName)

/-- **An empty root is furnished** with all of it. -/
theorem furnish_eq_ok (hground : Ground m.directory p root m.tree)
    (h : furnish p m = .ok () m') :
    Walkable p ∧ m.With (· = furnished root m.tree) m' := by
  obtain ⟨_, m₁, hfirst, h⟩ := bind_eq_ok.1 h
  obtain ⟨_, m₂, hsecond, hthird⟩ := bind_eq_ok.1 h
  obtain ⟨-, t₁, hwrite, rfl⟩ := change_eq_ok.1 hfirst
  obtain ⟨hmarker, rfl⟩ := (writeFile_entry_eq_ok (Extends.refl m.tree) hground.find
    isName_markerName (hground.free _ (below_cons _ _))).1 hwrite
  obtain ⟨-, t₂, hmake, rfl⟩ := change_eq_ok.1 hsecond
  obtain ⟨hsources, -, rfl⟩ := (makeDirectory_entry_eq_ok (extends_marked hground) hground.find
    isName_sourcesName).1 hmake
  obtain ⟨-, t₃, hmake', rfl⟩ := change_eq_ok.1 hthird
  obtain ⟨hartifacts, -, rfl⟩ := (makeDirectory_entry_eq_ok (extends_sourced hground) hground.find
    isName_artifactsName).1 hmake'
  exact ⟨by simp [Walkable, hmarker, hsources, hartifacts], rfl, rfl⟩

/-- It can be furnished if no path is refused and none of the three changes fails for an outside
reason. -/
theorem furnish_of_walkable (hfault : ∀ k < 3, m.faults (m.changes + k) = none)
    (hground : Ground m.directory p root m.tree) (hwalkable : Walkable p) :
    furnish p m = .ok () { m with
      tree := furnished root m.tree, changes := m.changes + 1 + 1 + 1 } := by
  have hmarker := hwalkable markerName (by simp)
  have hsources := hwalkable sourcesName (by simp)
  have hartifacts := hwalkable artifactsName (by simp)
  have hwrite : m.tree.writeFile m.directory (p.join markerName) (.bytes [])
      = .ok (marked root m.tree) :=
    (writeFile_entry_eq_ok (Extends.refl m.tree) hground.find isName_markerName
      (hground.free _ (below_cons _ _))).2 ⟨hmarker, rfl⟩
  have hmake := (makeDirectory_entry_eq_ok (extends_marked hground) hground.find
    isName_sourcesName).2 ⟨hsources, node?_marked_sources hground, rfl⟩
  have hmake' := (makeDirectory_entry_eq_ok (extends_sourced hground) hground.find
    isName_artifactsName).2 ⟨hartifacts, node?_sourced_artifacts hground, rfl⟩
  have hfirst : Machine.writeFile (p.join markerName) (.bytes []) m
      = .ok () { m with tree := marked root m.tree, changes := m.changes + 1 } :=
    change_eq_ok.2 ⟨hfault 0 (by decide), _, hwrite, rfl⟩
  have hsecond : Machine.makeDirectory (p.join sourcesName)
      { m with tree := marked root m.tree, changes := m.changes + 1 }
      = .ok () { m with tree := sourced root m.tree, changes := m.changes + 1 + 1 } :=
    change_eq_ok.2 ⟨hfault 1 (by decide), _, hmake, rfl⟩
  have hthird : Machine.makeDirectory (p.join artifactsName)
      { m with tree := sourced root m.tree, changes := m.changes + 1 + 1 }
      = .ok () { m with tree := furnished root m.tree, changes := m.changes + 1 + 1 + 1 } :=
    change_eq_ok.2 ⟨hfault 2 (by decide), _, hmake', rfl⟩
  exact (bind_of_ok hfirst).trans ((bind_of_ok hsecond).trans hthird)

/-- On a machine without faults none does. -/
theorem furnish_of_sound (hsound : ∀ k, m.faults k = none)
    (hground : Ground m.directory p root m.tree) (hwalkable : Walkable p) :
    furnish p m = .ok () { m with
      tree := furnished root m.tree, changes := m.changes + 1 + 1 + 1 } :=
  furnish_of_walkable (fun _ _ => hsound _) hground hwalkable

/-! ### Initialising -/

/-- **How a workspace is made:** each step ends, and the root is one to empty. -/
theorem initialise_eq_ok {w : Workspace} :
    initialise p m = .ok w m' ↔
      w = ⟨p⟩ ∧ ∃ m₁ m₂, makeDirectories p m = .ok () m₁ ∧ isOwned p m₁ = .ok true ∧
        emptyDirectory p m₁ = .ok () m₂ ∧ furnish p m₂ = .ok () m' := by
  rw [initialise]
  constructor
  · intro h
    obtain ⟨_, m₁, hmake, h⟩ := bind_eq_ok.1 h
    obtain ⟨owned, _, howned, h⟩ := bind_eq_ok.1 h
    obtain ⟨howned, rfl⟩ := asks_eq_ok.1 (withFault_eq_ok.1 howned)
    cases owned with
    | false =>
      obtain ⟨_, _, hthrow, -⟩ := bind_eq_ok.1 h
      cases hthrow
    | true =>
      obtain ⟨_, m₂, hempty, h⟩ := bind_eq_ok.1 h
      obtain ⟨_, m₃, hwrite, h⟩ := bind_eq_ok.1 h
      obtain ⟨_, m₄, hsources, h⟩ := bind_eq_ok.1 h
      obtain ⟨_, m₅, hartifacts, h⟩ := bind_eq_ok.1 h
      cases h
      refine ⟨rfl, _, m₂, withFault_eq_ok.1 hmake, howned, withFault_eq_ok.1 hempty, ?_⟩
      refine bind_eq_ok.2 ⟨(), m₃, withFault_eq_ok.1 hwrite, ?_⟩
      exact bind_eq_ok.2 ⟨(), m₄, withFault_eq_ok.1 hsources, withFault_eq_ok.1 hartifacts⟩
  · rintro ⟨rfl, m₁, m₂, hmake, howned, hempty, hfurnish⟩
    obtain ⟨_, m₃, hwrite, hrest⟩ := bind_eq_ok.1 hfurnish
    obtain ⟨_, m₄, hsources, hartifacts⟩ := bind_eq_ok.1 hrest
    refine (bind_of_ok (withFault_eq_ok.2 hmake)).trans ?_
    refine (bind_of_ok (withFault_eq_ok.2 (asks_eq_ok.2 ⟨howned, rfl⟩))).trans ?_
    refine (bind_of_ok (withFault_eq_ok.2 hempty)).trans ?_
    refine (bind_of_ok (withFault_eq_ok.2 hwrite)).trans ?_
    refine (bind_of_ok (withFault_eq_ok.2 hsources)).trans ?_
    exact bind_of_ok (withFault_eq_ok.2 hartifacts)

/-! ### Roots of others -/

/-- The root holds the marker, as a file or as a link to one. -/
def HoldsMarker (root : Location) (t : Tree) : Prop :=
  ∃ loc content, t.find root true markerName = .ok (loc, .file content)

/-- It does not if nothing has the name. -/
theorem not_holdsMarker_of_free {t : Tree} (hdir : t.node? root = some .directory)
    (hfree : t.node? (markerName :: root) = none) : ¬HoldsMarker root t := by
  rintro ⟨loc, content, hfind⟩
  obtain ⟨hlocate, hnode, -⟩ := find_eq_ok.1 hfind
  rw [locate_name t root _ isName_markerName, walk_last hdir (.of_isName isName_markerName)
    fun path hlink => by rw [hfree] at hlink; cases hlink] at hlocate
  obtain rfl := Except.ok.inj hlocate
  rw [hfree] at hnode
  cases hnode

theorem isOwned_of_foreign (hroot : m.tree.find m.directory true p = .ok (root, .directory))
    (hnames : m.tree.namesIn root ≠ []) (hmarker : ¬HoldsMarker root m.tree) :
    isOwned p m = .ok false := by
  have hfile : ¬m.isFile (p.join markerName) = true := fun h => by
    obtain ⟨loc, content, hfind⟩ := isFile_eq_true.1 h
    exact hmarker ⟨loc, content, find_name_of_find_join hroot isName_markerName hfind⟩
  have hempty : (m.tree.namesIn root).isEmpty = false := by simpa using hnames
  rw [isOwned, if_neg hfile, namesAt_eq_ok.2 ⟨root, hroot, rfl⟩]
  show Except.ok (m.tree.namesIn root).isEmpty = _
  rw [hempty]

/-- **What is not the console's is left alone.** -/
theorem initialise_of_foreign (hfault : m.faults m.changes = none)
    (hroot : m.tree.find m.directory true p = .ok (root, .directory))
    (hnames : m.tree.namesIn root ≠ []) (hmarker : ¬HoldsMarker root m.tree) :
    initialise p m = .error (.notOwned p) { m with changes := m.changes + 1 } := by
  have howned : isOwned p { m with changes := m.changes + 1 } = .ok false :=
    isOwned_of_foreign hroot hnames hmarker
  rw [initialise]
  refine (bind_of_ok (withFault_eq_ok.2 (makeDirectories_of_directory hfault hroot))).trans ?_
  exact (bind_of_ok (withFault_eq_ok.2 (asks_eq_ok.2 ⟨howned, rfl⟩))).trans rfl

/-! ### Roots that were made -/

/-- What is left when a workspace was made at a root, which is the directory that the path led to if
it led to one: in it is what a workspace puts there and nothing else, and outside of it all is as
before but for new directories on the way to it. -/
structure Made (dir : Location) (p : FilePath) (root : Location) (t t' : Tree) : Prop where
  wellFormed : t'.WellFormed
  find : t'.find dir true p = .ok (root, .directory)
  found : ∀ loc, t.find dir true p = .ok (loc, .directory) → loc = root
  inside : ∀ loc, Below root loc → t'.node? loc = freshNode? root loc
  outside : ∀ loc, ¬Below root loc → t'.node? loc = t.node? loc ∨
    t.node? loc = none ∧ t'.node? loc = some .directory ∧ t'.OnWay dir p loc

/-- Links found in the root are gone. -/
theorem Made.ne_link {t t' : Tree} {dir loc : Location} (h : Made dir p root t t')
    (hloc : Below root loc) (path : FilePath) : t'.node? loc ≠ some (.link path) := by
  rw [h.inside loc hloc, freshNode?]
  split
  · simp
  · split
    · simp
    · simp

/-- What they led to is not, as far as it lies outside. -/
theorem Made.eq_some {t t' : Tree} {dir loc : Location} (h : Made dir p root t t')
    (hloc : ¬Below root loc) {node : Node} (hnode : t.node? loc = some node) :
    t'.node? loc = some node := by
  rcases h.outside loc hloc with heq | ⟨hnone, -⟩
  · rw [heq]
    exact hnode
  · rw [hnone] at hnode
    cases hnode

/-- **An emptied root is ground if the marker could be written:** its path leads to where it is. -/
theorem ground_of_marker {m₁ m₂ m₃ : Machine} (ht : m₁.tree.WellFormed)
    (hroot : m₁.tree.find m₁.directory true p = .ok (root, .directory))
    (hempty : emptyDirectory p m₁ = .ok () m₂)
    (hmarker : Machine.writeFile (p.join markerName) (.bytes []) m₂ = .ok () m₃) :
    Ground m₁.directory p root m₂.tree := by
  have hafter := after_emptyDirectory ht hroot
  rw [after_of_eq_ok hempty] at hafter
  have hnames := namesIn_of_emptyDirectory_eq_ok ht hroot hempty
  obtain ⟨-, t, hwrite, -⟩ := change_eq_ok.1 hmarker
  obtain ⟨_, _, hlocate, -⟩ := writeFile_eq_ok hafter.tree.wellFormed hwrite
  rw [hafter.directory_eq] at hlocate
  exact .of_locate_join hafter.tree.wellFormed hafter.tree.pruned.extends_left hroot hnames
    isName_markerName hlocate

/-- **So it is if it could be furnished.** -/
theorem ground_of_furnish {m₁ m₂ : Machine} (ht : m₁.tree.WellFormed)
    (hempty : emptyDirectory p m₁ = .ok () m₂) (hfurnish : furnish p m₂ = .ok () m') :
    ∃ root, Ground m₁.directory p root m₂.tree ∧ Pruned (Below root) m₁.tree m₂.tree ∧
      Walkable p ∧ m₁.With (· = furnished root m₂.tree) m' := by
  obtain ⟨names, _, hasks, -⟩ := bind_eq_ok.1 hempty
  obtain ⟨root, hroot, -⟩ := namesAt_eq_ok.1 (asks_eq_ok.1 hasks).1
  have hafter := after_emptyDirectory ht hroot
  rw [after_of_eq_ok hempty] at hafter
  obtain ⟨_, _, hmarker, -⟩ := bind_eq_ok.1 hfurnish
  have hground := ground_of_marker ht hroot hempty hmarker
  obtain ⟨hwalkable, hfurnished⟩ := furnish_eq_ok (hafter.directory_eq ▸ hground) hfurnish
  exact ⟨root, hground, hafter.tree.pruned, hwalkable, hafter.trans hfurnished⟩

/-- **What a workspace that was made has left,** and the ground on which it was made. -/
theorem made_of_initialise_eq_ok (ht : m.tree.WellFormed) {w : Workspace}
    (h : initialise p m = .ok w m') :
    ∃ root base, Ground m.directory p root base ∧ Walkable p ∧ m'.tree = furnished root base ∧
      m.With (Made m.directory p root m.tree) m' := by
  obtain ⟨-, m₁, m₂, hmake, -, hempty, hfurnish⟩ := initialise_eq_ok.1 h
  have hwide := after_makeDirectories ht p
  rw [after_of_eq_ok hmake] at hwide
  obtain ⟨root, hground, hpruned, hwalkable, hfurnished⟩ :=
    ground_of_furnish hwide.tree.wellFormed hempty hfurnish
  rw [hwide.directory_eq] at hground
  have htree := hfurnished.tree
  have hext := extends_furnished hground
  have hroot := hground.find_of_extends hpruned.extends_left
  refine ⟨root, m₂.tree, hground, hwalkable, htree, (hwide.trans hfurnished).mono fun _ => ?_⟩
  rw [htree]
  refine ⟨wellFormed_furnished hground, hground.find_of_extends hext, fun loc hfound => ?_,
    fun loc hloc => ?_, fun loc hloc => ?_⟩
  · obtain ⟨hlocate, hdir, -⟩ := find_eq_ok.1 hfound
    have hwas := hwide.tree.extends_left
    rw [hwas.find_directory hlocate (hwas.directory hdir)] at hroot
    exact (Prod.mk.inj (Except.ok.inj hroot)).1
  · rw [node?_furnished, hground.free loc hloc, Option.or_none]
  · rw [node?_furnished, freshNode?_of_not_below hloc, Option.none_or, hpruned.eq_of_not hloc]
    refine (hwide.tree.added loc).imp_right fun ⟨hnone, hdir, hway⟩ => ⟨hnone, hdir, ?_⟩
    have hlocate := (locate_entry_eq_ok (Extends.refl m₂.tree) hground.find isName_markerName
      false fun _ _ => rfl).2 ⟨hwalkable _ List.mem_cons_self, rfl⟩
    exact hway.of_locate_join isName_markerName hlocate hpruned.extends_left hext

/-! ### Roots that can be made -/

/-- The root is the console's to empty: it holds the marker as a file, or it holds nothing. -/
def Owned (root : Location) (t : Tree) : Prop :=
  (∃ content, t.node? (markerName :: root) = some (.file content)) ∨ t.namesIn root = []

theorem isOwned_of_owned (hwalkable : Walkable p)
    (hroot : m.tree.find m.directory true p = .ok (root, .directory)) (howned : Owned root m.tree) :
    isOwned p m = .ok true := by
  rw [isOwned]
  rcases howned with ⟨content, hnode⟩ | hnames
  · have hlocate := (locate_entry_eq_ok (Extends.refl m.tree) hroot isName_markerName true
      fun path hlink => by rw [hnode] at hlink; cases hlink).2
        ⟨hwalkable _ List.mem_cons_self, rfl⟩
    have hslash := isName_markerName.endsInSlash_join p
    exact if_pos (isFile_eq_true.2 ⟨_, content, find_eq_ok.2 ⟨hlocate, hnode, by simp [hslash]⟩⟩)
  · rw [namesAt_eq_ok.2 ⟨root, hroot, rfl⟩, hnames]
    exact ite_self _

/-- A root that is emptied is ground if the path does not lead through what it held. -/
theorem ground_of_emptyDirectory (hleads : m.tree.LeadsTo m.directory p root)
    (ht : m.tree.WellFormed) (hempty : emptyDirectory p m = .ok () m') :
    m.With (Ground m.directory p root) m' := by
  have hroot := hleads m.tree (.refl _ _)
  have hafter := after_emptyDirectory ht hroot
  rw [after_of_eq_ok hempty] at hafter
  have hnames := namesIn_of_emptyDirectory_eq_ok ht hroot hempty
  exact hafter.mono fun hthin => ⟨hthin.wellFormed, hleads _ hthin.pruned, fun loc =>
    hthin.wellFormed.eq_none_of_namesIn hnames⟩

/-- **A root of the console's can be made** on a machine without faults, just if no path is too
long: of what it holds, to remove it by, and of what is put there. -/
theorem exists_initialise_iff (ht : m.tree.WellFormed) (hsound : ∀ k, m.faults k = none)
    (hleads : m.tree.LeadsTo m.directory p root) (howned : Owned root m.tree) :
    (∃ w m', initialise p m = .ok w m') ↔
      Walkable p ∧ ∀ n ∈ m.tree.namesIn root, (p.join n).length ≤ maxPathLength := by
  -- making the root's directories only counts a change
  obtain ⟨m₁, hm₁, hmake⟩ : ∃ m₁ : Machine, m₁ = { m with changes := m.changes + 1 } ∧
      makeDirectories p m = .ok () m₁ :=
    ⟨_, rfl, makeDirectories_of_directory (hsound _) (hleads m.tree (.refl _ _))⟩
  have hdirectory : m₁.directory = m.directory := by rw [hm₁]
  have htree : m₁.tree = m.tree := by rw [hm₁]
  have hfaults : ∀ k, m₁.faults k = none := by
    rw [hm₁]
    exact hsound
  rw [← hdirectory, ← htree] at hleads
  rw [← htree] at ht howned ⊢
  have hroot := hleads m₁.tree (.refl _ _)
  constructor
  · rintro ⟨w, m', h⟩
    obtain ⟨-, _, m₂, hmake', -, hempty, hfurnish⟩ := initialise_eq_ok.1 h
    rw [hmake] at hmake'
    cases hmake'
    obtain ⟨-, -, -, hwalkable, -⟩ := ground_of_furnish ht hempty hfurnish
    exact ⟨hwalkable, length_le_of_emptyDirectory_eq_ok hroot hempty⟩
  · rintro ⟨hwalkable, hlen⟩
    obtain ⟨m₂, hempty⟩ := exists_emptyDirectory ht hfaults hleads hlen
    have hm₂ := ground_of_emptyDirectory hleads ht hempty
    have hfurnish := furnish_of_sound (hm₂.faults_eq ▸ hfaults) (hm₂.directory_eq ▸ hm₂.tree)
      hwalkable
    have howned' := isOwned_of_owned hwalkable hroot howned
    exact ⟨_, _, initialise_eq_ok.2 ⟨rfl, m₁, m₂, hmake, howned', hempty, hfurnish⟩⟩

/-- An empty root is made with four changes, the first of which finds that the root is there. -/
theorem initialise_of_ground (hfault : ∀ k < 4, m.faults (m.changes + k) = none)
    (hground : Ground m.directory p root m.tree) (hwalkable : Walkable p) :
    initialise p m = .ok ⟨p⟩ { m with
      tree := furnished root m.tree, changes := m.changes + 4 } := by
  have hnames : m.tree.namesIn root = [] := List.eq_nil_iff_forall_not_mem.2 fun n hn => by
    obtain ⟨node, hnode⟩ := mem_namesIn.1 hn
    rw [hground.free _ (below_cons n root)] at hnode
    cases hnode
  have hmake := makeDirectories_of_directory (hfault 0 (by decide)) hground.find
  obtain ⟨m₁, hm₁⟩ : ∃ m₁ : Machine, m₁ = { m with changes := m.changes + 1 } := ⟨_, rfl⟩
  have hground' : Ground m₁.directory p root m₁.tree := hm₁ ▸ hground
  rw [← hm₁] at hmake
  have howned := isOwned_of_owned hwalkable hground'.find (.inr (hm₁ ▸ hnames))
  have hempty : emptyDirectory p m₁ = .ok () m₁ := by
    rw [emptyDirectory, asks_bind (namesAt_eq_ok.2 ⟨root, hground'.find, rfl⟩), hm₁, hnames]
    rfl
  have hfurnish := furnish_of_walkable (m := m₁) (fun k hk => ?_) hground' hwalkable
  · refine initialise_eq_ok.2 ⟨rfl, m₁, m₁, hmake, howned, hempty, hfurnish.trans ?_⟩
    rw [hm₁]
  · rw [hm₁, Nat.add_assoc, Nat.add_comm 1 k]
    exact hfault (k + 1) (by omega)

/-- A machine on which meanwhile nothing has changed but below a root. -/
structure ChangedBelow (root : Location) (m m' : Machine) : Prop where
  directory_eq : m'.directory = m.directory
  wellFormed : m'.tree.WellFormed
  outside : ∀ loc, ¬Below root loc → m'.tree.node? loc = m.tree.node? loc

/-- It still extends the ground on which the root was made. -/
theorem ChangedBelow.extends {base : Tree} {dir : Location} (h : ChangedBelow root m m')
    (hground : Ground dir p root base) (hext : m.tree.Extends base) : m'.tree.Extends base := by
  intro loc node hnode hfile
  have hout : ¬Below root loc := fun hloc => by
    rw [hground.free loc hloc] at hnode
    cases hnode
  rw [h.outside loc hout]
  exact hext loc node hnode hfile

/-- **Making a workspace wipes only what it owns.** In a well-formed tree, for any path:

- A directory that holds something, but not the marker as a file or a link to one, is refused, and
  nothing changes.
- A directory that holds the marker as a file, or nothing, and that the path does not reach through
  what it holds, is made a workspace on a machine without faults, just if no path is too long for the
  system.
- If a workspace was made, its root holds the empty marker and the two empty directories and nothing
  else, and outside the root nothing has changed but for directories made on the way to it, whatever
  links the root held. From then on it can be made again on a machine without faults, whatever has
  changed below the root, as long as the marker is a file or the root is empty, just if no entry has
  a path too long to remove it by. -/
theorem initialise_wipes_only_owned (ht : m.tree.WellFormed) :
    (∀ root, (∀ k, m.faults k = none) →
      m.tree.find m.directory true p = .ok (root, .directory) → m.tree.namesIn root ≠ [] →
      ¬HoldsMarker root m.tree →
      ∃ m', initialise p m = .error (.notOwned p) m' ∧ m'.tree = m.tree) ∧
    (∀ root, (∀ k, m.faults k = none) → m.tree.LeadsTo m.directory p root →
      Owned root m.tree →
      ((∃ w m', initialise p m = .ok w m') ↔
        Walkable p ∧ ∀ n ∈ m.tree.namesIn root, (p.join n).length ≤ maxPathLength)) ∧
    ∀ w m', initialise p m = .ok w m' →
      w = ⟨p⟩ ∧ ∃ root, m.With (Made m.directory p root m.tree) m' ∧
        ∀ m₂, ChangedBelow root m' m₂ → (∀ k, m₂.faults k = none) → Owned root m₂.tree →
          ((∃ w' m₃, initialise p m₂ = .ok w' m₃) ↔
            ∀ n ∈ m₂.tree.namesIn root, (p.join n).length ≤ maxPathLength) := by
  refine ⟨fun root hsound hroot hnames hmarker => ?_, fun root hsound hleads howned => ?_,
    fun w m' h => ?_⟩
  · exact ⟨_, initialise_of_foreign (hsound _) hroot hnames hmarker, rfl⟩
  · exact exists_initialise_iff ht hsound hleads howned
  · obtain ⟨root, base, hground, hwalkable, htree, hmade⟩ := made_of_initialise_eq_ok ht h
    refine ⟨(initialise_eq_ok.1 h).1, root, hmade, fun m₂ hchanged hsound howned => ?_⟩
    have hext : m'.tree.Extends base := by
      rw [htree]
      exact extends_furnished hground
    have hdirectory : m₂.directory = m.directory :=
      hchanged.directory_eq.trans hmade.directory_eq
    have hleads : m₂.tree.LeadsTo m₂.directory p root := by
      rw [hdirectory]
      exact hground.leadsTo (hchanged.extends hground hext)
    have hagain := exists_initialise_iff hchanged.wellFormed hsound hleads howned
    exact hagain.trans ⟨fun hfits => hfits.2, fun hlen => ⟨hwalkable, hlen⟩⟩

/-- The name of a directory for a workspace. -/
def scratchName : FilePath := .ofString "w"

/-- The name of someone's directory. -/
def homeName : FilePath := .ofString "h"

/-- The name of someone's file in it. -/
def notesName : FilePath := .ofString "n"

/-- The path of an entry of the root. -/
def rootEntry (name : FilePath) : FilePath := FilePath.join [FilePath.slash] name

/-- A tree with both directories and the file. -/
def homeTree : Tree :=
  ((Tree.empty.put [scratchName] .directory).put [homeName] .directory).put [notesName, homeName]
    (.file (.bytes [1]))

/-- A machine on which the other directory also holds a marker and a link to someone's directory. -/
def sharedMachine : Machine :=
  .sound ((homeTree.put [markerName, scratchName] (.file (.bytes []))).put [homeName, scratchName]
    (.link (rootEntry homeName))) [] .empty (RequestId.timeOrdered 0)

theorem wellFormed_homeTree : homeTree.WellFormed :=
  ((wellFormed_empty.put (node?_root _) (by decide) (by decide) (by simp)).put (node?_root _)
    (by decide) (by decide) (by simp)).put rfl (by decide) (by decide) (by simp)

theorem wellFormed_sharedMachine : sharedMachine.tree.WellFormed :=
  (wellFormed_homeTree.put rfl (by decide) (by decide) (by simp)).put rfl (by decide) (by decide)
    fun path h => by
      cases h
      decide

/-- The path of an entry of the root leads to it. -/
theorem find_rootEntry {t : Tree} {name : FilePath} (hn : IsName name)
    (hp : requireWalkable (rootEntry name) = .ok ())
    (hnode : t.node? [name] = some .directory) :
    t.find [] true (rootEntry name) = .ok ([name], .directory) := by
  have hroot : t.find [] true [FilePath.slash] = .ok ([], .directory) :=
    find_eq_ok.2 ⟨locate_eq_ok.2 ⟨rfl, walk_nil⟩, node?_root _, fun _ => rfl⟩
  exact find_entry_directory (Extends.refl t) hroot hn hp hnode

/-- The directory for a workspace is ground before anything is in it. -/
theorem ground_homeTree : Ground [] (rootEntry scratchName) [scratchName] homeTree where
  wellFormed := wellFormed_homeTree
  find := find_rootEntry (by decide) rfl rfl
  free _ := wellFormed_homeTree.eq_none_of_namesIn (by decide)

theorem extends_sharedMachine : sharedMachine.tree.Extends homeTree :=
  (extends_put _ (List.cons_ne_nil _ _) rfl _).trans (extends_put _ (List.cons_ne_nil _ _) rfl _)

theorem walkable_scratch : Walkable (rootEntry scratchName) := by
  simp only [Walkable, List.forall_mem_cons]
  exact ⟨rfl, rfl, rfl, List.forall_mem_nil _⟩

/-- Someone's directory is refused; the other one is emptied, without the link and not through it,
and once more after that. -/
theorem initialise_sharedMachine :
    sharedMachine.tree.WellFormed ∧
    (∃ m', initialise (rootEntry homeName) sharedMachine
        = .error (.notOwned (rootEntry homeName)) m' ∧
      m'.tree = sharedMachine.tree) ∧
    ∃ w m', initialise (rootEntry scratchName) sharedMachine = .ok w m' ∧
      m'.tree.node? [homeName, scratchName] = none ∧
      m'.tree.node? [notesName, homeName] = some (.file (.bytes [1])) ∧
      ∃ w' m₃, initialise (rootEntry scratchName) m' = .ok w' m₃ := by
  have hwell := wellFormed_sharedMachine
  have hhome : sharedMachine.tree.find [] true (rootEntry homeName)
      = .ok ([homeName], .directory) := find_rootEntry (by decide) rfl rfl
  have hscratch : sharedMachine.tree.find [] true (rootEntry scratchName)
      = .ok ([scratchName], .directory) := find_rootEntry (by decide) rfl rfl
  refine ⟨hwell, ?_, ?_⟩
  · exact (initialise_wipes_only_owned hwell).1 [homeName] (fun _ => rfl) hhome (by decide)
      (not_holdsMarker_of_free rfl rfl)
  · obtain ⟨-, howned, hwhole⟩ := initialise_wipes_only_owned (p := rootEntry scratchName) hwell
    obtain ⟨w, m', h⟩ := (howned [scratchName] (fun _ => rfl)
      (ground_homeTree.leadsTo extends_sharedMachine) (.inl ⟨_, rfl⟩)).2
        ⟨walkable_scratch, hwell.length_join_le (by decide)⟩
    obtain ⟨-, root, hmade, hagain⟩ := hwhole w m' h
    obtain rfl := hmade.tree.found _ hscratch
    have hmarker := hmade.tree.inside _ (below_cons markerName _)
    refine ⟨w, m', h, hmade.tree.inside _ (below_cons homeName _),
      hmade.tree.eq_some (by decide) rfl, ?_⟩
    exact (hagain m' ⟨rfl, hmade.tree.wellFormed, fun _ _ => rfl⟩ (hmade.faults_eq ▸ fun _ => rfl)
      (.inl ⟨_, hmarker⟩)).2 (hmade.tree.wellFormed.length_join_le (by decide))

end Workspace

end SnippetConsole
