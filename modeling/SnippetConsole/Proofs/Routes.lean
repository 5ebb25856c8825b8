/-
# Routes through a tree

A walk that succeeds has a route, step by step (`Route`): it stays, goes up, enters what is not
a link, jumps where a followed link points, or stops at the last name. It passes through
directories and links alone. So a tree with every directory and link of another one
(`Extends`) leads to where the other one leads, and goes on from there (`Route.walk_append`):
files may come and go, and so may all that the route has not come by.
-/

import SnippetConsole.Proofs.WellFormedTree

namespace SnippetConsole
namespace FileTree
namespace Tree

open FilePath (IsName)

/-! ### Steps of a walk -/

/-- A name that is looked up in the directory it stands in. -/
structure IsEntry (name : Bytes) : Prop where
  ne_here : name ≠ FilePath.here
  ne_up : name ≠ FilePath.up
  length_le : name.length ≤ maxNameLength

/-- A valid name is looked up. -/
theorem IsEntry.of_isName {n : Bytes} (hn : IsName n) : IsEntry n :=
  ⟨hn.ne_here, hn.ne_up, hn.length_le⟩

section Steps

variable {t : Tree} {follow : Bool} {links : Nat} {dir : Location} {name : Bytes}
  {rest : List Bytes}

@[simp] theorem walk_nil : t.walk follow links dir [] = .ok dir := by rw [walk]

theorem walk_here (hdir : t.node? dir = some .directory) :
    t.walk follow links dir (FilePath.here :: rest) = t.walk follow links dir rest := by
  rw [walk, if_neg (Classical.not_not.2 hdir), if_pos rfl]

theorem walk_up (hdir : t.node? dir = some .directory) :
    t.walk follow links dir (FilePath.up :: rest) = t.walk follow links dir.tail rest := by
  have hne : FilePath.up ≠ FilePath.here := by decide
  rw [walk, if_neg (Classical.not_not.2 hdir), if_neg hne, if_pos rfl]

/-- What is looked up decides how the walk goes on. -/
theorem walk_entry (hdir : t.node? dir = some .directory) (hname : IsEntry name) :
    t.walk follow links dir (name :: rest) =
      match t.node? (name :: dir) with
      | none => if rest.isEmpty then .ok (name :: dir) else .error .missing
      | some (.link target) =>
        if rest.isEmpty && !follow then .ok (name :: dir)
        else
          match links with
          | 0 => .error .linkLoop
          | links + 1 =>
            t.walk follow links (if target.isAbsolute then [] else dir) (target.names ++ rest)
      | some _ => t.walk follow links (name :: dir) rest := by
  rw [walk]
  refine (if_neg (Classical.not_not.2 hdir)).trans ?_
  refine (if_neg hname.ne_here).trans ?_
  refine (if_neg hname.ne_up).trans ?_
  exact if_neg (Nat.not_lt.2 hname.length_le)

theorem walk_enter (hdir : t.node? dir = some .directory) (hname : IsEntry name) {node : Node}
    (hnode : t.node? (name :: dir) = some node) (hlink : ∀ path, node ≠ .link path) :
    t.walk follow links dir (name :: rest) = t.walk follow links (name :: dir) rest := by
  rw [walk_entry hdir hname, hnode]
  cases node with
  | directory => rfl
  | file content => rfl
  | link path => exact absurd rfl (hlink path)

theorem walk_jump (hdir : t.node? dir = some .directory) (hname : IsEntry name) {path : FilePath}
    (hlink : t.node? (name :: dir) = some (.link path)) (hfollow : rest ≠ [] ∨ follow = true) :
    t.walk follow (links + 1) dir (name :: rest)
      = t.walk follow links (if path.isAbsolute then [] else dir) (path.names ++ rest) := by
  have hon : ¬(rest.isEmpty && !follow) = true := by
    rcases hfollow with h | h
    · simp [h]
    · simp [h]
  rw [walk_entry hdir hname, hlink]
  exact if_neg hon

/-- A last name need not exist, and a link there need not be followed. -/
theorem walk_last (hdir : t.node? dir = some .directory) (hname : IsEntry name)
    (hlink : ∀ path, t.node? (name :: dir) = some (.link path) → follow = false) :
    t.walk follow links dir [name] = .ok (name :: dir) := by
  rw [walk_entry hdir hname]
  rcases hnode : t.node? (name :: dir) with _ | node
  · rfl
  · cases node with
    | directory => exact walk_nil
    | file content => exact walk_nil
    | link path => rw [hlink path hnode]; rfl

/-- A walk goes on at an entry with a directory, or ends there if it follows no link. -/
theorem walk_over (hdir : t.node? dir = some .directory) (hname : IsEntry name)
    (hloc : t.node? (name :: dir) = some .directory
      ∨ rest = [] ∧ ∀ path, t.node? (name :: dir) = some (.link path) → follow = false) :
    t.walk follow links dir (name :: rest) = t.walk follow links (name :: dir) rest := by
  rcases hloc with hloc | ⟨rfl, hlink⟩
  · exact walk_enter hdir hname hloc (by simp)
  · exact (walk_last hdir hname hlink).trans walk_nil.symm

end Steps

/-! ### Routes -/

/-- How a walk from `dir` along `names` gets to `loc`, with at most `links` jumps. -/
inductive Route (t : Tree) (follow : Bool) : (links : Nat) → (dir : Location) →
    (names : List Bytes) → (loc : Location) → Prop
  | done {links dir} : Route t follow links dir [] dir
  | here {links dir rest loc} (hdir : t.node? dir = some .directory)
    (onward : Route t follow links dir rest loc) :
    Route t follow links dir (FilePath.here :: rest) loc
  | up {links dir rest loc} (hdir : t.node? dir = some .directory)
    (onward : Route t follow links dir.tail rest loc) :
    Route t follow links dir (FilePath.up :: rest) loc
  | stop {links dir name} (hdir : t.node? dir = some .directory) (hname : IsEntry name)
    (hnode : t.node? (name :: dir) = none
      ∨ follow = false ∧ ∃ path, t.node? (name :: dir) = some (.link path)) :
    Route t follow links dir [name] (name :: dir)
  | enter {links dir name rest loc node} (hdir : t.node? dir = some .directory)
    (hname : IsEntry name) (hnode : t.node? (name :: dir) = some node)
    (hlink : ∀ path, node ≠ .link path) (onward : Route t follow links (name :: dir) rest loc) :
    Route t follow links dir (name :: rest) loc
  | jump {links dir name rest loc path} (hdir : t.node? dir = some .directory)
    (hname : IsEntry name) (hlink : t.node? (name :: dir) = some (.link path))
    (hfollow : rest ≠ [] ∨ follow = true)
    (onward : Route t follow links (if path.isAbsolute then [] else dir) (path.names ++ rest)
      loc) :
    Route t follow (links + 1) dir (name :: rest) loc

/-- **A walk that succeeds has a route.** -/
theorem route_of_walk {t : Tree} {follow : Bool} {links : Nat} {dir : Location}
    {names : List Bytes} {loc : Location} (h : t.walk follow links dir names = .ok loc) :
    Route t follow links dir names loc := by
  fun_induction walk t follow links dir names with
  | case1 links dir =>
    cases h
    exact .done
  | case2 => cases h
  | case3 links dir rest hdir ih => exact .here (Classical.not_not.1 hdir) (ih h)
  | case4 links dir rest hdir hhere ih => exact .up (Classical.not_not.1 hdir) (ih h)
  | case5 => cases h
  | case6 links dir name rest hdir hhere hup hlen hnone hrest =>
    cases h
    obtain rfl := List.isEmpty_iff.1 hrest
    exact .stop (Classical.not_not.1 hdir) ⟨hhere, hup, Nat.not_lt.1 hlen⟩ (.inl hnone)
  | case7 => cases h
  | case8 links dir name rest hdir hhere hup hlen path hlink hstop =>
    cases h
    obtain ⟨hrest, hfollow⟩ := Bool.and_eq_true_iff.1 hstop
    obtain rfl := List.isEmpty_iff.1 hrest
    exact .stop (Classical.not_not.1 hdir) ⟨hhere, hup, Nat.not_lt.1 hlen⟩
      (.inr ⟨by simpa using hfollow, path, hlink⟩)
  | case9 => cases h
  | case10 dir name rest hdir hhere hup hlen path hlink hstop links ih =>
    have hfollow : rest ≠ [] ∨ follow = true := by
      by_cases hrest : rest = []
      · simpa [hrest] using hstop
      · exact .inl hrest
    exact .jump (Classical.not_not.1 hdir) ⟨hhere, hup, Nat.not_lt.1 hlen⟩ hlink hfollow (ih h)
  | case11 links dir name rest hdir hhere hup hlen node hlink hnode ih =>
    exact .enter (Classical.not_not.1 hdir) ⟨hhere, hup, Nat.not_lt.1 hlen⟩ hnode hlink (ih h)

/-- Names are looked up in directories. -/
theorem Route.directory_of_cons {t : Tree} {follow : Bool} {links : Nat} {dir loc : Location}
    {name : Bytes} {rest : List Bytes} (h : Route t follow links dir (name :: rest) loc) :
    t.node? dir = some .directory := by
  cases h with
  | here hdir => exact hdir
  | up hdir => exact hdir
  | stop hdir => exact hdir
  | enter hdir => exact hdir
  | jump hdir => exact hdir

/-- Without names a route stays. -/
theorem Route.eq_of_nil {t : Tree} {follow : Bool} {links : Nat} {dir loc : Location}
    (h : Route t follow links dir [] loc) : loc = dir := by
  cases h with
  | done => rfl

/-- **Where a route ends** in a well-formed tree: at a node which is no link, or at a valid name in
a directory that is free or has a link not to be followed. -/
theorem Route.ends {t : Tree} (ht : t.WellFormed) {follow : Bool} {links : Nat} {dir loc : Location}
    {names : List Bytes} (h : Route t follow links dir names loc)
    (hnames : ∀ n ∈ names, n ≠ [] ∧ FilePath.slash ∉ n ∧ (0 : UInt8) ∉ n)
    (hdir : names = [] → ∃ node, t.node? dir = some node ∧ ∀ path, node ≠ .link path) :
    (∃ node, t.node? loc = some node ∧ ∀ path, node ≠ .link path) ∨
    (∃ n d, loc = n :: d ∧ IsName n ∧ t.node? d = some .directory ∧
      (t.node? (n :: d) = none ∨
        follow = false ∧ ∃ path, t.node? (n :: d) = some (.link path))) := by
  have hisDirectory {d : Location} (h : t.node? d = some .directory) :
      ∃ node, t.node? d = some node ∧ ∀ path, node ≠ .link path := ⟨_, h, by simp⟩
  induction h with
  | done => exact .inl (hdir rfl)
  | here hd _ ih =>
    exact ih (fun n hn => hnames n (List.mem_cons_of_mem _ hn)) fun _ => hisDirectory hd
  | @up _ dir _ _ hd _ ih =>
    refine ih (fun n hn => hnames n (List.mem_cons_of_mem _ hn)) fun _ => hisDirectory ?_
    cases dir with
    | nil => exact hd
    | cons n dir => exact ht.parent hd
  | @stop _ dir name hd hname hnode =>
    obtain ⟨hne, hslash, hnul⟩ := hnames name List.mem_cons_self
    exact .inr ⟨name, dir, rfl,
      ⟨hne, hslash, hnul, hname.ne_here, hname.ne_up, hname.length_le⟩, hd, hnode⟩
  | enter _ _ hnode hlink _ ih =>
    exact ih (fun n hn => hnames n (List.mem_cons_of_mem _ hn)) fun _ => ⟨_, hnode, hlink⟩
  | @jump _ dir _ rest _ path hd _ hlink _ _ ih =>
    refine ih (fun n hn => ?_) fun _ => hisDirectory ?_
    · rcases List.mem_append.1 hn with hn | hn
      · obtain ⟨hne, hslash⟩ := FilePath.mem_names hn
        exact ⟨hne, hslash, FilePath.nul_notMem_names (ht.target hlink) n hn⟩
      · exact hnames n (List.mem_cons_of_mem _ hn)
    · split
      · exact t.node?_root
      · exact hd

/-! ### The same route in another tree -/

/-- The tree has every directory and every link of another one. -/
def Extends (t base : Tree) : Prop :=
  ∀ loc node, base.node? loc = some node → (∀ content, node ≠ .file content) →
    t.node? loc = some node

theorem Extends.refl (t : Tree) : t.Extends t := fun _ _ h _ => h

theorem Extends.trans {t u base : Tree} (h : t.Extends u) (hu : u.Extends base) :
    t.Extends base := fun loc node hnode hfile => h loc node (hu loc node hnode hfile) hfile

theorem Extends.directory {t base : Tree} (h : t.Extends base) {loc : Location}
    (hloc : base.node? loc = some .directory) : t.node? loc = some .directory :=
  h loc _ hloc (by simp)

theorem Extends.link {t base : Tree} (h : t.Extends base) {loc : Location} {path : FilePath}
    (hloc : base.node? loc = some (.link path)) : t.node? loc = some (.link path) :=
  h loc _ hloc (by simp)

/-- **A route leads to the same place** in a tree that extends its own, and the walk goes on
from there, if a directory is there now; or it ends there, if no link is followed. -/
theorem Route.walk_append {t base : Tree} (hext : t.Extends base) {follow : Bool} {links : Nat}
    {dir loc : Location} {names : List Bytes} (h : Route base follow links dir names loc)
    (follow' : Bool) (rest : List Bytes) (hfollow : follow = true → rest ≠ [] ∨ follow' = true)
    (hloc : t.node? loc = some .directory
      ∨ rest = [] ∧ ∀ path, t.node? loc = some (.link path) → follow' = false) :
    ∃ links', t.walk follow' links dir (names ++ rest) = t.walk follow' links' loc rest := by
  induction h with
  | done => exact ⟨_, rfl⟩
  | here hd _ ih =>
    obtain ⟨links', hwalk⟩ := ih hloc
    exact ⟨links', (walk_here (hext.directory hd)).trans hwalk⟩
  | up hd _ ih =>
    obtain ⟨links', hwalk⟩ := ih hloc
    exact ⟨links', (walk_up (hext.directory hd)).trans hwalk⟩
  | stop hd hname hnode => exact ⟨_, walk_over (hext.directory hd) hname hloc⟩
  | @enter links dir name rest' loc node hd hname hnode hlink onward ih =>
    cases node with
    | directory =>
      obtain ⟨links', hwalk⟩ := ih hloc
      exact ⟨links', (walk_enter (hext.directory hd) hname (hext.directory hnode) (by simp)).trans
        hwalk⟩
    | file content =>
      -- only a last name can be that of a file
      rcases rest' with _ | ⟨name', rest'⟩
      · obtain rfl := onward.eq_of_nil
        exact ⟨links, walk_over (hext.directory hd) hname hloc⟩
      · have hd' := onward.directory_of_cons
        rw [hnode] at hd'
        cases hd'
    | link path => exact absurd rfl (hlink path)
  | @jump links dir name rest' loc path hd hname hlink hfollow' _ ih =>
    obtain ⟨links', hwalk⟩ := ih hloc
    have hon : rest' ++ rest ≠ [] ∨ follow' = true := by
      rcases hfollow' with hrest | htrue
      · exact .inl (List.append_ne_nil_of_left_ne_nil hrest rest)
      · exact (hfollow htrue).imp_left (List.append_ne_nil_of_right_ne_nil rest')
    refine ⟨links', ?_⟩
    rw [List.cons_append, walk_jump (hext.directory hd) hname (hext.link hlink) hon,
      ← List.append_assoc]
    exact hwalk

end Tree
end FileTree
end SnippetConsole
