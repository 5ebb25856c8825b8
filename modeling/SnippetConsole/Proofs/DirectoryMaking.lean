/-
# What making directories adds

Making a directory with its parents adds directories and nothing else, each on the way of the path:
where an initial part of its names leads (`OnWay`, `after_makeDirectories`). For the names of a
parent begin the names of its path (`names_prefix_of_parent?`), and a route can be cut at any name
(`Route.split`).

Where there is a directory already, nothing changes (`makeDirectories_of_directory`).
-/

import SnippetConsole.Proofs.Removal
import Mathlib.Data.List.DropRight

namespace SnippetConsole

/-! ### Parents -/

namespace FilePath

/-- Pieces are cut off at the end. -/
theorem isPrefix_trimmed (absolute : Bool) (ps : List Bytes) : trimmed absolute ps <+: ps := by
  have hkept : ps.zipIdx.rdropWhile (fun x => isSilent absolute x.1 x.2) <+: ps.zipIdx :=
    List.rdropWhile_prefix _ _
  have hpieces := hkept.map Prod.fst
  rw [List.zipIdx_map_fst] at hpieces
  exact hpieces

/-- A slash in front adds no name. -/
theorem names_slash_cons (p : FilePath) : names (slash :: p) = names p := by
  rw [names, pieces, if_pos rfl]
  rfl

/-- The names of a path are among the pieces behind the slash it may start with. -/
theorem names_eq_filter (p : FilePath) :
    names p = (pieces (if p.isAbsolute then p.drop 1 else p)).filter (· ≠ []) := by
  by_cases h : p.isAbsolute = true
  · rw [if_pos h]
    cases p with
    | nil => rfl
    | cons b bs =>
      have hb : b = slash := by simpa [isAbsolute] using h
      rw [hb]
      exact names_slash_cons bs
  · rw [if_neg h]
    rfl

theorem names_ofPieces {ps : List Bytes} (h : ∀ q ∈ ps, slash ∉ q) :
    names (ofPieces ps) = ps.filter (· ≠ []) := by
  by_cases hne : ps = []
  · rw [hne]
    rfl
  · rw [names, pieces_ofPieces hne h]

/-- What a parent is made of: pieces that begin those of the path. -/
theorem parent?_eq_some {p q : FilePath} (h : p.parent? = some q) :
    ∃ ps, ps <+: pieces (if p.isAbsolute then p.drop 1 else p) ∧
      q = if p.isAbsolute then slash :: ofPieces ps else ofPieces ps := by
  rw [parent?] at h
  split at h
  · cases h
  · refine ⟨trimmed p.isAbsolute p.body.dropLast, ?_, (Option.some.inj h).symm⟩
    have hlast : p.body.dropLast <+: p.body := List.dropLast_prefix _
    exact (isPrefix_trimmed _ _).trans (hlast.trans (isPrefix_trimmed _ _))

/-- **The names of a parent begin the names of its path.** -/
theorem names_prefix_of_parent? {p q : FilePath} (h : p.parent? = some q) :
    q.names <+: p.names := by
  obtain ⟨ps, hps, rfl⟩ := parent?_eq_some h
  have hslash : ∀ r ∈ ps, slash ∉ r := fun r hr => slash_notMem_pieces _ r (hps.subset hr)
  have hnames : names (if p.isAbsolute then slash :: ofPieces ps else ofPieces ps)
      = ps.filter (· ≠ []) := by
    split
    · rw [names_slash_cons, names_ofPieces hslash]
    · exact names_ofPieces hslash
  rw [hnames, names_eq_filter]
  exact hps.filter _

/-- A parent starts where its path starts. -/
theorem isAbsolute_of_parent? {p q : FilePath} (h : p.parent? = some q) :
    q.isAbsolute = p.isAbsolute := by
  obtain ⟨ps, hps, rfl⟩ := parent?_eq_some h
  by_cases hp : p.isAbsolute = true
  · rw [if_pos hp, hp]
    rfl
  · rw [if_neg hp] at hps
    rw [if_neg hp, Bool.eq_false_iff.2 hp]
    rcases p with _ | ⟨b, bs⟩
    · rcases List.prefix_cons_iff.1 hps with rfl | ⟨rest, rfl, hrest⟩
      · rfl
      · rw [List.prefix_nil.1 hrest]
        rfl
    · -- the first piece begins with the first byte, which is no slash
      have hb : b ≠ slash := by simpa [isAbsolute] using hp
      obtain ⟨r, rs, hpieces⟩ : ∃ r rs, pieces (b :: bs) = (b :: r) :: rs := by
        rw [pieces, if_neg hb]
        rcases pieces bs with _ | ⟨r, rs⟩
        · exact ⟨[], [], rfl⟩
        · exact ⟨r, rs, rfl⟩
      rw [hpieces] at hps
      rcases List.prefix_cons_iff.1 hps with rfl | ⟨rest, rfl, -⟩
      · rfl
      · cases rest with
        | nil => simp [isAbsolute, ofPieces, List.intercalate, hb]
        | cons r' rest => simp [isAbsolute, ofPieces, List.intercalate_cons_cons, hb]

end FilePath
namespace FileTree
namespace Tree

open FilePath (IsName)

/-! ### Routes in parts -/

/-- More links allowed, the route stays. -/
theorem Route.mono {t : Tree} {follow : Bool} {links links' : Nat} {dir loc : Location}
    {names : List Bytes} (h : Route t follow links dir names loc) (hlinks : links ≤ links') :
    Route t follow links' dir names loc := by
  induction h generalizing links' with
  | done => exact .done
  | here hdir _ ih => exact .here hdir (ih hlinks)
  | up hdir _ ih => exact .up hdir (ih hlinks)
  | stop hdir hname hnode => exact .stop hdir hname hnode
  | enter hdir hname hnode hlink _ ih => exact .enter hdir hname hnode hlink (ih hlinks)
  | jump hdir hname hlink hfollow _ ih =>
    obtain ⟨more, rfl⟩ := Nat.exists_eq_add_of_lt (Nat.lt_of_succ_le hlinks)
    exact .jump hdir hname hlink hfollow (ih (by omega))

/-- **A route can be cut at any name.** -/
theorem Route.split {t : Tree} {follow : Bool} {links : Nat} {dir loc : Location}
    {front back : List Bytes} (h : Route t follow links dir (front ++ back) loc)
    (hback : back ≠ []) :
    ∃ links' mid, links' ≤ links ∧ Route t true links dir front mid ∧
      Route t follow links' mid back loc := by
  generalize hnames : front ++ back = names at h
  induction h generalizing front with
  | done => exact absurd (List.append_eq_nil_iff.1 hnames).2 hback
  | @here links dir rest loc hdir onward ih =>
    rcases front with _ | ⟨name, front⟩
    · obtain rfl : back = _ := hnames
      exact ⟨links, dir, le_rfl, .done, .here hdir onward⟩
    · obtain ⟨rfl, rfl⟩ := List.cons.inj hnames
      obtain ⟨links', mid, hle, hfront, hrest⟩ := ih rfl
      exact ⟨links', mid, hle, .here hdir hfront, hrest⟩
  | @up links dir rest loc hdir onward ih =>
    rcases front with _ | ⟨name, front⟩
    · obtain rfl : back = _ := hnames
      exact ⟨links, dir, le_rfl, .done, .up hdir onward⟩
    · obtain ⟨rfl, rfl⟩ := List.cons.inj hnames
      obtain ⟨links', mid, hle, hfront, hrest⟩ := ih rfl
      exact ⟨links', mid, hle, .up hdir hfront, hrest⟩
  | @stop links dir name hdir hname hnode =>
    rcases front with _ | ⟨name', front⟩
    · obtain rfl : back = _ := hnames
      exact ⟨links, dir, le_rfl, .done, .stop hdir hname hnode⟩
    · exact absurd (List.append_eq_nil_iff.1 (List.cons.inj hnames).2).2 hback
  | @enter links dir name rest loc node hdir hname hnode hlink onward ih =>
    rcases front with _ | ⟨name', front⟩
    · obtain rfl : back = _ := hnames
      exact ⟨links, dir, le_rfl, .done, .enter hdir hname hnode hlink onward⟩
    · obtain ⟨rfl, rfl⟩ := List.cons.inj hnames
      obtain ⟨links', mid, hle, hfront, hrest⟩ := ih rfl
      exact ⟨links', mid, hle, .enter hdir hname hnode hlink hfront, hrest⟩
  | @jump links dir name rest loc path hdir hname hlink hfollow onward ih =>
    rcases front with _ | ⟨name', front⟩
    · obtain rfl : back = _ := hnames
      exact ⟨links + 1, dir, le_rfl, .done, .jump hdir hname hlink hfollow onward⟩
    · obtain ⟨rfl, rfl⟩ := List.cons.inj hnames
      obtain ⟨links', mid, hle, hfront, hrest⟩ := ih (List.append_assoc _ _ _)
      exact ⟨links', mid, by omega, .jump hdir hname hlink (.inr rfl) hfront, hrest⟩

/-- A walk to what is a directory now leads there in every tree that extends the one it was made
in. -/
theorem Route.walk_directory {t base : Tree} (hext : t.Extends base) {follow : Bool} {links : Nat}
    {dir loc : Location} {names : List Bytes} (h : Route base follow links dir names loc)
    (hloc : t.node? loc = some .directory) : t.walk true links dir names = .ok loc := by
  obtain ⟨links', honward⟩ := h.walk_append hext true [] (fun _ => .inr rfl) (.inl hloc)
  rwa [List.append_nil, walk_nil] at honward

/-- A walk that gets to a directory gets to something also if it stops at a last link. -/
theorem Route.exists_walk {t : Tree} {links : Nat} {dir loc : Location} {names : List Bytes}
    (h : Route t true links dir names loc) (hloc : t.node? loc = some .directory) :
    ∃ loc' node, t.walk false links dir names = .ok loc' ∧ t.node? loc' = some node := by
  generalize hfollow : true = follow at h
  induction h with
  | done => exact ⟨_, _, walk_nil, hloc⟩
  | here hdir _ ih => rw [walk_here hdir]; exact ih hloc
  | up hdir _ ih => rw [walk_up hdir]; exact ih hloc
  | stop _ _ hnode =>
    rcases hnode with hnone | ⟨hstop, -⟩
    · rw [hnone] at hloc
      cases hloc
    · rw [← hfollow] at hstop
      cases hstop
  | enter hdir hname hnode hlink _ ih => rw [walk_enter hdir hname hnode hlink]; exact ih hloc
  | @jump links dir name rest loc path hdir hname hlink _ _ ih =>
    by_cases hrest : rest = []
    · subst hrest
      exact ⟨_, _, walk_last hdir hname fun _ _ => rfl, hlink⟩
    · rw [walk_jump hdir hname hlink (.inl hrest)]
      exact ih hloc

/-- The name of a directory is taken. -/
theorem exists_locate_of_find {t : Tree} {dir loc : Location} {p : FilePath}
    (h : t.find dir true p = .ok (loc, .directory)) :
    ∃ loc' node, t.locate dir false p = .ok loc' ∧ t.node? loc' = some node := by
  obtain ⟨hlocate, hloc, -⟩ := find_eq_ok.1 h
  rw [Bool.true_or] at hlocate
  obtain ⟨hp, hwalk⟩ := locate_eq_ok.1 hlocate
  obtain ⟨loc', node, hwalk', hnode⟩ := (route_of_walk hwalk).exists_walk hloc
  exact ⟨loc', node, locate_eq_ok.2 ⟨hp, hwalk'⟩, hnode⟩

/-- **The way of a path:** where an initial part of its names leads. -/
def OnWay (t : Tree) (dir : Location) (p : FilePath) (loc : Location) : Prop :=
  ∃ names, names <+: p.names ∧ t.walk true maxLinks (start dir p) names = .ok loc

/-- The way of a parent is part of that of the path. -/
theorem OnWay.of_parent? {t : Tree} {dir loc : Location} {p q : FilePath}
    (h : t.OnWay dir q loc) (hparent : p.parent? = some q) : t.OnWay dir p loc := by
  obtain ⟨names, hnames, hwalk⟩ := h
  have hstart : start dir q = start dir p := by
    rw [start, start, FilePath.isAbsolute_of_parent? hparent]
  exact ⟨names, hnames.trans (FilePath.names_prefix_of_parent? hparent), hstart ▸ hwalk⟩

/-- A directory on the way stays on it while directories and links stay. -/
theorem OnWay.extends {t base : Tree} (hext : t.Extends base) {dir loc : Location} {p : FilePath}
    (h : base.OnWay dir p loc) (hloc : t.node? loc = some .directory) : t.OnWay dir p loc := by
  obtain ⟨names, hnames, hwalk⟩ := h
  exact ⟨names, hnames, (route_of_walk hwalk).walk_directory hext hloc⟩

/-- **The way of a path joined to a name leads over directories,** in its own tree. -/
theorem exists_walk_of_locate_join {t : Tree} {dir loc : Location} {follow : Bool} {p : FilePath}
    {n : Bytes} (hn : IsName n) (h : t.locate dir follow (p.join n) = .ok loc)
    {names : List Bytes} (hnames : names <+: p.names) :
    ∃ mid, Route t true maxLinks (start dir p) names mid ∧ t.node? mid = some .directory := by
  obtain ⟨-, hwalk⟩ := locate_eq_ok.1 h
  obtain ⟨rest, hrest⟩ := hnames
  rw [start, hn.isAbsolute_join, hn.names_join, ← hrest, List.append_assoc] at hwalk
  obtain ⟨links', mid, -, hfront, hback⟩ := (route_of_walk hwalk).split (by simp)
  refine ⟨mid, hfront, ?_⟩
  rcases rest with _ | ⟨name, rest⟩
  · exact hback.directory_of_cons
  · exact hback.directory_of_cons

/-- So it does where a walk in a tree that extends this one goes. -/
theorem route_of_locate_join {t base : Tree} {dir loc l : Location} {follow : Bool} {p : FilePath}
    {n : Bytes} (hn : IsName n) (h : base.locate dir follow (p.join n) = .ok l)
    (hext : t.Extends base) {names : List Bytes} (hnames : names <+: p.names)
    (hwalk : t.walk true maxLinks (start dir p) names = .ok loc) :
    Route base true maxLinks (start dir p) names loc ∧ base.node? loc = some .directory := by
  obtain ⟨mid, hroute, hmid⟩ := exists_walk_of_locate_join hn h hnames
  have hthere := hroute.walk_directory hext (hext.directory hmid)
  rw [hwalk] at hthere
  obtain rfl := Except.ok.inj hthere
  exact ⟨hroute, hmid⟩

/-- The way of a path is the same in all trees that extend one in which the path joined to a name
leads somewhere. -/
theorem OnWay.of_locate_join {t t' base : Tree} {dir loc l : Location} {follow : Bool}
    {p : FilePath} {n : Bytes} (h : t.OnWay dir p loc) (hn : IsName n)
    (hlocate : base.locate dir follow (p.join n) = .ok l) (hext : t.Extends base)
    (hext' : t'.Extends base) : t'.OnWay dir p loc := by
  obtain ⟨names, hnames, hwalk⟩ := h
  obtain ⟨hroute, hdir⟩ := route_of_locate_join hn hlocate hext hnames hwalk
  exact ⟨names, hnames, hroute.walk_directory hext' (hext'.directory hdir)⟩

/-- The way of a path that leads to a directory has only directories. -/
theorem OnWay.directory_of_find {t t' : Tree} (hext : t'.Extends t) {dir root loc : Location}
    {p : FilePath} (hfind : t.find dir true p = .ok (root, .directory)) (h : t'.OnWay dir p loc) :
    t.node? loc = some .directory := by
  obtain ⟨names, ⟨rest, hrest⟩, hwalk⟩ := h
  obtain ⟨hlocate, hroot, -⟩ := find_eq_ok.1 hfind
  have hroute := route_of_walk (locate_eq_ok.1 hlocate).2
  rw [Bool.true_or] at hroute
  obtain ⟨mid, hfront, hmid⟩ : ∃ mid, Route t true maxLinks (start dir p) names mid ∧
      t.node? mid = some .directory := by
    rcases rest with _ | ⟨name, rest⟩
    · rw [List.append_nil] at hrest
      exact ⟨root, hrest ▸ hroute, hroot⟩
    · rw [← hrest] at hroute
      obtain ⟨links, mid, -, hfront, hback⟩ := hroute.split (List.cons_ne_nil name rest)
      exact ⟨mid, hfront, hback.directory_of_cons⟩
  have hthere := hfront.walk_directory hext (hext.directory hmid)
  rw [hwalk] at hthere
  obtain rfl := Except.ok.inj hthere
  exact hmid

/-! ### Added directories -/

/-- The second tree is well-formed and has what the first one has, and in free places on the way of
the path directories. -/
structure Widened (dir : Location) (p : FilePath) (t t' : Tree) : Prop where
  wellFormed : t'.WellFormed
  added : ∀ loc, t'.node? loc = t.node? loc ∨
    t.node? loc = none ∧ t'.node? loc = some .directory ∧ t'.OnWay dir p loc

namespace Widened

variable {dir : Location} {p : FilePath} {t t' : Tree}

theorem refl (ht : t.WellFormed) : Widened dir p t t := ⟨ht, fun _ => .inl rfl⟩

theorem extends_left (h : Widened dir p t t') : t'.Extends t := by
  intro loc node hnode _
  rcases h.added loc with heq | ⟨hnone, -, -⟩
  · rw [heq]
    exact hnode
  · rw [hnone] at hnode
    cases hnode

theorem trans {t'' : Tree} (h : Widened dir p t t') (h' : Widened dir p t' t'') :
    Widened dir p t t'' := by
  refine ⟨h'.wellFormed, fun loc => ?_⟩
  rcases h'.added loc with heq' | ⟨hnone', hdir', hway'⟩
  · rcases h.added loc with heq | ⟨hnone, hdir, hway⟩
    · exact .inl (heq'.trans heq)
    · have hstays := heq'.trans hdir
      exact .inr ⟨hnone, hstays, hway.extends h'.extends_left hstays⟩
  · rcases h.added loc with heq | ⟨-, hdir, -⟩
    · exact .inr ⟨heq ▸ hnone', hdir', hway'⟩
    · rw [hdir] at hnone'
      cases hnone'

theorem of_parent? {q : FilePath} (h : Widened dir q t t') (hparent : p.parent? = some q) :
    Widened dir p t t' :=
  ⟨h.wellFormed, fun loc => (h.added loc).imp_right fun ⟨hnone, hdir, hway⟩ =>
    ⟨hnone, hdir, hway.of_parent? hparent⟩⟩

/-- A new directory is on the way of its path. -/
theorem makeDirectory (ht : t.WellFormed) (h : t.makeDirectory dir p = .ok t') :
    Widened dir p t t' := by
  have hwell := ht.makeDirectory h
  obtain ⟨n, d, hlocate, -, -, hfree, rfl⟩ := makeDirectory_eq_ok ht h
  refine ⟨hwell, fun loc => ?_⟩
  have hread := t.node?_put (List.cons_ne_nil n d) .directory
  by_cases hloc : loc = n :: d
  · subst hloc
    have hnew : (t.put (n :: d) .directory).node? (n :: d) = some .directory := by
      rw [hread, if_pos rfl]
    have hext := t.extends_put (List.cons_ne_nil n d) hfree .directory
    have hwalk := (route_of_walk (locate_eq_ok.1 hlocate).2).walk_directory hext hnew
    exact .inr ⟨hfree, hnew, p.names, List.prefix_refl _, hwalk⟩
  · rw [hread, if_neg hloc]
    exact .inl rfl

end Widened
end Tree
end FileTree

namespace Machine

open FileTree FileTree.Tree

variable {m : Machine}

theorem keeps_makeDirectory {t₀ : Tree} (p : FilePath) :
    Keeps (m.With (Widened m.directory p t₀)) (makeDirectory p) :=
  keeps_change fun _ _ hwide h => hwide.trans (.makeDirectory hwide.wellFormed h)

theorem keeps_makeDirectoryIfAbsent {t₀ : Tree} (p : FilePath) :
    Keeps (m.With (Widened m.directory p t₀)) (makeDirectoryIfAbsent p) :=
  (keeps_makeDirectory p).attempt.bind fun result => by
    cases result with
    | ok _ => exact keeps_pure _
    | error fault => exact keeps_asks _

theorem keeps_makeDirectoriesWithin {t₀ : Tree} (fuel : Nat) (p : FilePath) :
    Keeps (m.With (Widened m.directory p t₀)) (makeDirectoriesWithin fuel p) := by
  induction fuel generalizing p t₀ m with
  | zero => exact keeps_pure _
  | succ fuel ih =>
    rw [makeDirectoriesWithin]
    split
    · exact keeps_pure _
    · refine (keeps_makeDirectory p).attempt.bind fun result => ?_
      cases result with
      | ok _ => exact keeps_pure _
      | error fault =>
        dsimp only
        split
        · rcases hparent : p.parent? with _ | parent
          · exact keeps_throw _
          · refine Keeps.bind (fun m₁ hm₁ => ?_) fun _ => keeps_makeDirectoryIfAbsent p
            -- what is made for the parent is on the way of the path as well
            have hinner := ih parent m₁ (.refl (.refl hm₁.tree.wellFormed))
            refine hm₁.trans (hinner.mono fun hwide => ?_)
            rw [hm₁.directory_eq] at hwide
            exact hm₁.tree.trans (hwide.of_parent? hparent)
        · exact keeps_asks _

/-- **Making a directory with its parents adds directories on the way of its path,** also if it
stops half-way. -/
theorem after_makeDirectories (ht : m.tree.WellFormed) (p : FilePath) :
    m.With (Widened m.directory p m.tree) (m.after (makeDirectories p)) :=
  keeps_makeDirectoriesWithin (p.length + 1) p m (.refl (.refl ht))

/-- **To a directory that is there no other is added,** even if a change fails. -/
theorem node?_after_makeDirectories (ht : m.tree.WellFormed) {p : FilePath} {root : Location}
    (hfind : m.tree.find m.directory true p = .ok (root, .directory)) (loc : Location) :
    (m.after (makeDirectories p)).tree.node? loc = m.tree.node? loc := by
  have hwide := (after_makeDirectories ht p).tree
  refine (hwide.added loc).resolve_right ?_
  rintro ⟨hnone, -, hway⟩
  rw [hway.directory_of_find hwide.extends_left hfind] at hnone
  cases hnone

/-- A directory that is there already is not made. -/
theorem makeDirectory_of_directory (hfault : m.faults m.changes = none) {p : FilePath}
    {loc : Location} (hfind : m.tree.find m.directory true p = .ok (loc, .directory)) :
    makeDirectory p m = .error .exists_ { m with changes := m.changes + 1 } := by
  obtain ⟨loc', node, hlocate, hnode⟩ := exists_locate_of_find hfind
  refine change_eq_error.2 ⟨rfl, .inr ⟨hfault, ?_⟩⟩
  show Tree.makeDirectory m.tree m.directory p = _
  rw [Tree.makeDirectory, hlocate]
  simp only [bind, Except.bind, hnode]

/-- **Where there is a directory already, nothing changes** but the count of changes, which has the
one that was tried. -/
theorem makeDirectories_of_directory (hfault : m.faults m.changes = none) {p : FilePath}
    {loc : Location} (hfind : m.tree.find m.directory true p = .ok (loc, .directory)) :
    makeDirectories p m = .ok () { m with changes := m.changes + 1 } := by
  have hp : p ≠ [] := (requireWalkable_eq_ok.1 (locate_eq_ok.1 (find_eq_ok.1 hfind).1).1).1
  have hkind : Fault.exists_.kind ≠ .notFound := by decide
  rw [makeDirectories, makeDirectoriesWithin, if_neg hp]
  refine (bind_of_ok (attempt_of_error (makeDirectory_of_directory hfault hfind))).trans ?_
  dsimp only
  rw [if_neg hkind]
  exact asks_eq_ok.2 ⟨if_pos (isDirectory_eq_true.2 ⟨loc, hfind⟩), rfl⟩

end Machine
end SnippetConsole
