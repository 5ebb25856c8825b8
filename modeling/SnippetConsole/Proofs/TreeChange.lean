/-
# What a change does to a tree

Each change is inverted once: where its path leads and what it puts or erases there
(`makeDirectory_eq_ok`, `writeFile_eq_ok`, `removeFile_eq_ok`, `removeDirectory_eq_ok`). So each
keeps a tree well-formed, and none but a removal takes a directory or a link away.

A path leads where it led as long as the directories and links stay (`Extends.find_directory`),
and joined to a name it leads to the entry of that name (`Extends.locate_join`).
-/

import SnippetConsole.FileTree.Change
import SnippetConsole.Proofs.Routes

namespace SnippetConsole
namespace FileTree
namespace Tree

open FilePath (IsName)

/-! ### Results of steps that may fail -/

theorem except_bind_eq_ok {ε α β : Type} {x : Except ε α} {f : α → Except ε β} {b : β} :
    (x >>= f) = .ok b ↔ ∃ a, x = .ok a ∧ f a = .ok b := by
  cases x with
  | error e => simp [bind, Except.bind]
  | ok a => simp [bind, Except.bind]

/-! ### Where paths lead -/

/-- A path that is not refused. -/
theorem requireWalkable_eq_ok {p : FilePath} :
    requireWalkable p = .ok () ↔ p ≠ [] ∧ (0 : UInt8) ∉ p ∧ p.length ≤ maxPathLength := by
  rw [requireWalkable]
  by_cases hne : p = []
  · simp [hne]
  · by_cases hnul : (0 : UInt8) ∈ p
    · simp [hne, hnul]
    · by_cases hlen : maxPathLength < p.length
      · simp [hne, hnul, hlen]
      · simp [hne, hnul, hlen, Nat.not_lt.1 hlen]

/-- A walkable path joined to a name is walkable unless it gets too long. -/
theorem requireWalkable_join {p : FilePath} {n : Bytes} (hn : IsName n)
    (hp : requireWalkable p = .ok ()) (hlen : (p.join n).length ≤ maxPathLength) :
    requireWalkable (p.join n) = .ok () :=
  requireWalkable_eq_ok.2
    ⟨hn.join_ne_nil p, hn.nul_notMem_join p (requireWalkable_eq_ok.1 hp).2.1, hlen⟩

/-- If the whole is walkable, so is the path. -/
theorem requireWalkable_of_join {p : FilePath} {n : Bytes} (hn : IsName n) (hp : p ≠ [])
    (h : requireWalkable (p.join n) = .ok ()) : requireWalkable p = .ok () := by
  obtain ⟨-, hnul, hlen⟩ := requireWalkable_eq_ok.1 h
  have hbegins := hn.isPrefix_join p
  exact requireWalkable_eq_ok.2
    ⟨hp, fun hmem => hnul (hbegins.subset hmem), Nat.le_trans hbegins.length_le hlen⟩

theorem locate_eq_ok {t : Tree} {dir loc : Location} {follow : Bool} {p : FilePath} :
    t.locate dir follow p = .ok loc ↔
      requireWalkable p = .ok () ∧ t.walk follow maxLinks (start dir p) p.names = .ok loc := by
  rw [locate, except_bind_eq_ok]
  refine ⟨fun ⟨_, h, hwalk⟩ => ⟨h, hwalk⟩, fun ⟨h, hwalk⟩ => ⟨(), h, hwalk⟩⟩

theorem find_eq_ok {t : Tree} {dir loc : Location} {follow : Bool} {p : FilePath} {node : Node} :
    t.find dir follow p = .ok (loc, node) ↔
      t.locate dir (follow || endsInSlash p) p = .ok loc ∧ t.node? loc = some node ∧
        (endsInSlash p = true → node = .directory) := by
  rw [find, except_bind_eq_ok]
  constructor
  · rintro ⟨l, hlocate, h⟩
    rcases hnode : t.node? l with _ | x
    · rw [hnode] at h
      cases h
    · rw [hnode] at h
      cases x with
      | directory =>
        cases h
        exact ⟨hlocate, hnode, fun _ => rfl⟩
      | file content =>
        by_cases hslash : endsInSlash p = true
        · simp [hslash] at h
        · simp only [hslash, Bool.false_eq_true, if_false] at h
          cases h
          exact ⟨hlocate, hnode, fun hs => absurd hs hslash⟩
      | link path =>
        by_cases hslash : endsInSlash p = true
        · simp [hslash] at h
        · simp only [hslash, Bool.false_eq_true, if_false] at h
          cases h
          exact ⟨hlocate, hnode, fun hs => absurd hs hslash⟩
  · rintro ⟨hlocate, hnode, hslash⟩
    refine ⟨loc, hlocate, ?_⟩
    rw [hnode]
    cases node with
    | directory => rfl
    | file content =>
      have hno : ¬endsInSlash p = true := fun hs => by cases hslash hs
      exact if_neg hno
    | link path =>
      have hno : ¬endsInSlash p = true := fun hs => by cases hslash hs
      exact if_neg hno

/-- **Where a path ends** in a well-formed tree. -/
theorem locate_ends {t : Tree} (ht : t.WellFormed) {dir loc : Location} {follow : Bool}
    {p : FilePath} (h : t.locate dir follow p = .ok loc) :
    (∃ node, t.node? loc = some node ∧ ∀ path, node ≠ .link path) ∨
    (∃ n d, loc = n :: d ∧ IsName n ∧ t.node? d = some .directory ∧
      (t.node? (n :: d) = none ∨
        follow = false ∧ ∃ path, t.node? (n :: d) = some (.link path))) := by
  obtain ⟨hp, hwalk⟩ := locate_eq_ok.1 h
  obtain ⟨hne, hnul, -⟩ := requireWalkable_eq_ok.1 hp
  refine (route_of_walk hwalk).ends ht (fun n hn => ?_) fun hnames => ?_
  · obtain ⟨hn', hslash⟩ := FilePath.mem_names hn
    exact ⟨hn', hslash, FilePath.nul_notMem_names hnul n hn⟩
  · refine ⟨.directory, ?_, by simp⟩
    rw [start, if_pos (FilePath.isAbsolute_of_names_eq_nil hne hnames), node?_root]

section Extends

variable {t base : Tree} (hext : t.Extends base) {dir loc : Location} {follow : Bool} {p : FilePath}

include hext

/-- **A path leads to the directory it led to,** also if it was not there yet. -/
theorem Extends.find_directory (h : base.locate dir follow p = .ok loc)
    (hloc : t.node? loc = some .directory) : t.find dir true p = .ok (loc, .directory) := by
  obtain ⟨hp, hwalk⟩ := locate_eq_ok.1 h
  obtain ⟨links, honward⟩ := (route_of_walk hwalk).walk_append hext true []
    (fun _ => .inr rfl) (.inl hloc)
  rw [List.append_nil, walk_nil] at honward
  exact find_eq_ok.2 ⟨locate_eq_ok.2 ⟨hp, honward⟩, hloc, fun _ => rfl⟩

/-- A path leads to what it led to, if that is still there. -/
theorem Extends.find_of_find {node : Node} (h : base.find dir false p = .ok (loc, node))
    (hloc : t.node? loc = some node) : t.find dir false p = .ok (loc, node) := by
  obtain ⟨hlocate, -, hslash⟩ := find_eq_ok.1 h
  obtain ⟨hp, hwalk⟩ := locate_eq_ok.1 hlocate
  refine find_eq_ok.2 ⟨?_, hloc, hslash⟩
  by_cases hs : endsInSlash p = true
  · have hdir : t.node? loc = some .directory := hslash hs ▸ hloc
    rw [hs, Bool.or_true]
    exact (find_eq_ok.1 (hext.find_directory hlocate hdir)).1
  · obtain ⟨links, honward⟩ := (route_of_walk hwalk).walk_append hext false []
      (fun hf => absurd hf (by simpa using hs)) (.inr ⟨rfl, fun _ _ => rfl⟩)
    rw [List.append_nil, walk_nil] at honward
    rw [Bool.eq_false_iff.2 hs, Bool.or_false]
    exact locate_eq_ok.2 ⟨hp, honward⟩

/-- **A path leads to the file it led to,** also if it was not there yet. -/
theorem Extends.find_file (h : base.locate dir true p = .ok loc) (hslash : endsInSlash p = false)
    {content : Content} (hloc : t.node? loc = some (.file content)) :
    t.find dir true p = .ok (loc, .file content) := by
  obtain ⟨hp, hwalk⟩ := locate_eq_ok.1 h
  obtain ⟨links, honward⟩ := (route_of_walk hwalk).walk_append hext true [] (fun _ => .inr rfl)
    (.inr ⟨rfl, fun path hlink => by rw [hloc] at hlink; cases hlink⟩)
  rw [List.append_nil, walk_nil] at honward
  exact find_eq_ok.2 ⟨locate_eq_ok.2 ⟨hp, honward⟩, hloc, fun hs => by rw [hslash] at hs; cases hs⟩

/-- **Joined to a name, the path of a directory leads to its entry.** -/
theorem Extends.locate_join (h : base.locate dir follow p = .ok loc)
    (hloc : t.node? loc = some .directory) {n : Bytes} (hn : IsName n)
    (hp : requireWalkable (p.join n) = .ok ()) {follow' : Bool}
    (hlink : ∀ path, t.node? (n :: loc) = some (.link path) → follow' = false) :
    t.locate dir follow' (p.join n) = .ok (n :: loc) := by
  obtain ⟨links, honward⟩ := (route_of_walk (locate_eq_ok.1 h).2).walk_append hext
    follow' [n] (fun _ => .inl (List.cons_ne_nil n [])) (.inl hloc)
  refine locate_eq_ok.2 ⟨hp, ?_⟩
  rw [start, hn.isAbsolute_join, hn.names_join]
  exact honward.trans (walk_last hloc (.of_isName hn) hlink)

end Extends

/-! ### What changes do -/

section Changes

variable {t t' : Tree} {dir : Location} {p : FilePath}

/-- **A new directory has a valid name that was free.** -/
theorem makeDirectory_eq_ok (ht : t.WellFormed) (h : t.makeDirectory dir p = .ok t') :
    ∃ n d, t.locate dir false p = .ok (n :: d) ∧ IsName n ∧ t.node? d = some .directory ∧
      t.node? (n :: d) = none ∧ t' = t.put (n :: d) .directory := by
  obtain ⟨loc, hlocate, h⟩ := except_bind_eq_ok.1 h
  rcases hnode : t.node? loc with _ | node
  · rw [hnode] at h
    cases h
    rcases locate_ends ht hlocate with ⟨node, hsome, -⟩ | ⟨n, d, rfl, hn, hd, -⟩
    · rw [hnode] at hsome
      cases hsome
    · exact ⟨n, d, hlocate, hn, hd, hnode, rfl⟩
  · rw [hnode] at h
    cases h

theorem makeDirectory_of_free {loc : Location} (hlocate : t.locate dir false p = .ok loc)
    (hfree : t.node? loc = none) : t.makeDirectory dir p = .ok (t.put loc .directory) := by
  refine except_bind_eq_ok.2 ⟨loc, hlocate, ?_⟩
  rw [hfree]

/-- A file is written where nothing has the name. -/
theorem writeFile_of_free {loc : Location} {content : Content} (hslash : endsInSlash p = false)
    (hlocate : t.locate dir true p = .ok loc) (hfree : t.node? loc = none) :
    t.writeFile dir p content = .ok (t.put loc (.file content)) := by
  rw [writeFile, if_neg (by simp [hslash])]
  refine except_bind_eq_ok.2 ⟨loc, hlocate, ?_⟩
  rw [hfree]

/-- **A file is written at a valid name,** which is free or that of a file. -/
theorem writeFile_eq_ok (ht : t.WellFormed) {content : Content}
    (h : t.writeFile dir p content = .ok t') :
    ∃ n d, t.locate dir true p = .ok (n :: d) ∧ IsName n ∧ t.node? d = some .directory ∧
      (∀ node, t.node? (n :: d) = some node → ∃ old, node = .file old) ∧
      t' = t.put (n :: d) (.file content) := by
  unfold writeFile at h
  by_cases hslash : endsInSlash p = true
  · rw [if_pos hslash] at h
    obtain ⟨_, -, h⟩ := except_bind_eq_ok.1 h
    cases h
  · rw [if_neg hslash] at h
    obtain ⟨loc, hlocate, h⟩ := except_bind_eq_ok.1 h
    rcases locate_ends ht hlocate with ⟨node, hsome, hlink⟩ | ⟨n, d, rfl, hn, hd, hnone | hno⟩
    · cases node with
      | directory => rw [hsome] at h; cases h
      | link path => exact absurd rfl (hlink path)
      | file old =>
        rw [hsome] at h
        cases h
        rcases loc with _ | ⟨n, d⟩
        · rw [node?_root] at hsome
          cases hsome
        · refine ⟨n, d, hlocate, ht.isName hsome, ht.parent hsome, fun node hnode => ?_, rfl⟩
          rw [hsome] at hnode
          exact ⟨old, (Option.some.inj hnode).symm⟩
    · rw [hnone] at h
      cases h
      refine ⟨n, d, hlocate, hn, hd, fun node hnode => ?_, rfl⟩
      rw [hnone] at hnode
      cases hnode
    · cases hno.1

/-- A removed file or link was what the path named. -/
theorem removeFile_eq_ok (h : t.removeFile dir p = .ok t') :
    ∃ loc node, t.find dir false p = .ok (loc, node) ∧ node ≠ .directory ∧ t' = t.erase loc := by
  obtain ⟨⟨loc, node⟩, hfind, h⟩ := except_bind_eq_ok.1 h
  refine ⟨loc, node, hfind, ?_⟩
  cases node with
  | directory => cases h
  | file content => cases h; exact ⟨by simp, rfl⟩
  | link path => cases h; exact ⟨by simp, rfl⟩

theorem removeEmpty_eq_ok {loc : Location} :
    t.removeEmpty loc = .ok t' ↔ loc ≠ [] ∧ t.namesIn loc = [] ∧ t' = t.erase loc := by
  rw [removeEmpty]
  by_cases hloc : loc = []
  · simp [hloc]
  · by_cases hempty : t.namesIn loc = []
    · simp [hloc, hempty, eq_comm]
    · simp [hloc, hempty]

/-- A removed directory was what the path named, and had no entries. -/
theorem removeDirectory_eq_ok (h : t.removeDirectory dir p = .ok t') :
    ∃ loc, t.locate dir false p = .ok loc ∧ t.node? loc = some .directory ∧
      t.removeEmpty loc = .ok t' := by
  obtain ⟨loc, hlocate, h⟩ := except_bind_eq_ok.1 h
  by_cases hhere : p.names.getLast? = some FilePath.here
  · rw [if_pos hhere] at h
    cases h
  · by_cases hup : p.names.getLast? = some FilePath.up
    · rw [if_neg hhere, if_pos hup] at h
      cases h
    · rw [if_neg hhere, if_neg hup] at h
      rcases hnode : t.node? loc with _ | node
      · rw [hnode] at h
        cases h
      · rw [hnode] at h
        cases node with
        | directory => exact ⟨loc, hlocate, hnode, h⟩
        | file content => cases h
        | link path => cases h

/-- An empty directory is removed by a path that ends in its name. -/
theorem removeDirectory_of_empty {n : Bytes} (hn : IsName n) {loc : Location}
    (hlocate : t.locate dir false (p.join n) = .ok loc) (hdir : t.node? loc = some .directory)
    (hloc : loc ≠ []) (hempty : t.namesIn loc = []) :
    t.removeDirectory dir (p.join n) = .ok (t.erase loc) := by
  have hlast : (p.join n).names.getLast? = some n := by rw [hn.names_join]; simp
  rw [removeDirectory, hlocate]
  simp only [bind, Except.bind, hlast, Option.some.injEq, hn.ne_here, hn.ne_up, if_false, hdir]
  exact removeEmpty_eq_ok.2 ⟨hloc, hempty, rfl⟩

end Changes

/-! ### What changes keep -/

/-- A node at a free location takes nothing away. -/
theorem extends_put (t : Tree) {loc : Location} (hloc : loc ≠ []) (hfree : t.node? loc = none)
    (node : Node) : (t.put loc node).Extends t := by
  intro l old hold _
  have hne : l ≠ loc := by
    rintro rfl
    rw [hfree] at hold
    cases hold
  rw [t.node?_put hloc, if_neg hne]
  exact hold

section Keep

variable {t t' : Tree} (ht : t.WellFormed) {dir : Location} {p : FilePath}

include ht

theorem WellFormed.makeDirectory (h : t.makeDirectory dir p = .ok t') : t'.WellFormed := by
  obtain ⟨n, d, -, hn, hd, hfree, rfl⟩ := makeDirectory_eq_ok ht h
  exact ht.put hd hn (by simp [hfree]) (by simp)

theorem WellFormed.writeFile {content : Content} (h : t.writeFile dir p content = .ok t') :
    t'.WellFormed := by
  obtain ⟨n, d, -, hn, hd, hfile, rfl⟩ := writeFile_eq_ok ht h
  refine ht.put hd hn (fun hdir => ?_) (by simp)
  obtain ⟨old, heq⟩ := hfile _ hdir
  cases heq

theorem WellFormed.removeEmpty {loc : Location} (h : t.removeEmpty loc = .ok t') :
    t'.WellFormed := by
  obtain ⟨hloc, hempty, rfl⟩ := removeEmpty_eq_ok.1 h
  exact ht.erase hloc hempty

/-- Only a directory has entries. -/
theorem WellFormed.namesIn_eq_nil {loc : Location} (hloc : t.node? loc ≠ some .directory) :
    t.namesIn loc = [] := by
  refine List.eq_nil_iff_forall_not_mem.2 fun n hn => ?_
  obtain ⟨node, hnode⟩ := mem_namesIn.1 hn
  exact hloc (ht.parent hnode)

theorem WellFormed.removeFile (h : t.removeFile dir p = .ok t') : t'.WellFormed := by
  obtain ⟨loc, node, hfind, hne, rfl⟩ := removeFile_eq_ok h
  obtain ⟨-, hnode, -⟩ := find_eq_ok.1 hfind
  have hloc : t.node? loc ≠ some .directory := fun hdir =>
    hne (Option.some.inj (hnode.symm.trans hdir))
  refine ht.erase ?_ (ht.namesIn_eq_nil hloc)
  rintro rfl
  exact hloc t.node?_root

theorem WellFormed.removeDirectory (h : t.removeDirectory dir p = .ok t') : t'.WellFormed := by
  obtain ⟨loc, -, -, h⟩ := removeDirectory_eq_ok h
  exact ht.removeEmpty h

/-- A written file takes no directory and no link away. -/
theorem Extends.writeFile {base : Tree} (hext : t.Extends base) {content : Content}
    (h : t.writeFile dir p content = .ok t') : t'.Extends base := by
  obtain ⟨n, d, -, -, -, hold, rfl⟩ := writeFile_eq_ok ht h
  intro loc node hnode hfile
  have hloc := hext loc node hnode hfile
  have hne : loc ≠ n :: d := by
    rintro rfl
    obtain ⟨old, rfl⟩ := hold node hloc
    exact hfile old rfl
  rw [t.node?_put (List.cons_ne_nil n d), if_neg hne]
  exact hloc

/-- **A directory that was just made can be removed,** and the tree is what it was. -/
theorem removeDirectory_of_made {n : Bytes} (hn : IsName n) {loc : Location} (hloc : loc ≠ [])
    (hlocate : t.locate dir false (p.join n) = .ok loc) (hfree : t.node? loc = none) :
    (t.put loc .directory).removeDirectory dir (p.join n) = .ok t := by
  have hext := extends_put t hloc hfree .directory
  have hread := t.node?_put hloc .directory
  have hmade : (t.put loc .directory).node? loc = some .directory := (hread loc).trans (if_pos rfl)
  obtain ⟨hp, hwalk⟩ := locate_eq_ok.1 hlocate
  obtain ⟨links, honward⟩ := (route_of_walk hwalk).walk_append hext false []
    (fun hfollow => by cases hfollow) (.inl hmade)
  rw [List.append_nil, walk_nil] at honward
  have hempty : (t.put loc .directory).namesIn loc = [] := by
    refine namesIn_eq_nil_iff.2 fun n' => ?_
    -- what was free had no entries
    rw [hread, if_neg (List.cons_ne_self n' loc)]
    exact ht.node?_below_eq_none (List.cons_ne_nil n' []) (by simp [hfree])
  rw [removeDirectory_of_empty hn (locate_eq_ok.2 ⟨hp, honward⟩) hmade hloc hempty,
    erase_put hloc hfree]

/-- **A written file is found** where it was written. -/
theorem find_of_writeFile {content : Content} (h : t.writeFile dir p content = .ok t') :
    ∃ loc, t'.find dir true p = .ok (loc, .file content) := by
  obtain ⟨n, d, hlocate, -, -, -, rfl⟩ := writeFile_eq_ok ht h
  have hext : (t.put (n :: d) (.file content)).Extends t := (Extends.refl t).writeFile ht h
  have hnode : (t.put (n :: d) (.file content)).node? (n :: d) = some (.file content) := by
    rw [t.node?_put (List.cons_ne_nil n d), if_pos rfl]
  have hslash : ¬endsInSlash p = true := by
    intro hslash
    unfold Tree.writeFile at h
    rw [if_pos hslash] at h
    obtain ⟨_, -, h⟩ := except_bind_eq_ok.1 h
    cases h
  exact ⟨n :: d, hext.find_file hlocate (Bool.eq_false_iff.2 hslash) hnode⟩

end Keep

end Tree
end FileTree
end SnippetConsole
