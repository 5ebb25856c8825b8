/-
# Well-formed trees

In a well-formed tree every node but the root stands in a directory under a valid name, once,
and no link holds a path with NUL. So a directory's listing names just its entries
(`mem_namesIn`), what lies below a location lies below a directory (`directory_of_below`), and
putting a node where no directory is, or erasing one that has no entries, keeps the tree
well-formed.
-/

import SnippetConsole.Proofs.PathNames

namespace SnippetConsole
namespace FileTree

open FilePath (IsName)

/-- The locations with a node in a list. -/
def keys (es : List (Location × Node)) : List Location := es.map (·.1)

@[simp] theorem keys_cons (loc : Location) (node : Node) (es : List (Location × Node)) :
    keys ((loc, node) :: es) = loc :: keys es := rfl

/-- A location has a node if it is a key. -/
theorem exists_lookup_iff {es : List (Location × Node)} {loc : Location} :
    (∃ node, lookup loc es = some node) ↔ loc ∈ keys es := by
  induction es with
  | nil => simp [lookup, keys]
  | cons e es ih =>
    obtain ⟨l, node⟩ := e
    by_cases h : l = loc
    · simp [lookup, keys, h]
    · rw [lookup, if_neg h, ih]
      simp [keys, Ne.symm h]

/-- Putting a node adds no key but its own. -/
theorem keys_upsert (loc : Location) (node : Node) (es : List (Location × Node)) :
    keys (upsert loc node es) = if loc ∈ keys es then keys es else keys es ++ [loc] := by
  induction es with
  | nil => simp [upsert, keys]
  | cons e es ih =>
    obtain ⟨l, old⟩ := e
    by_cases h : l = loc
    · simp [upsert, h]
    · have hmem : loc ∈ l :: keys es ↔ loc ∈ keys es := by simp [Ne.symm h]
      rw [upsert, if_neg h, keys_cons, keys_cons, ih]
      by_cases hloc : loc ∈ keys es
      · rw [if_pos hloc, if_pos (hmem.2 hloc)]
      · rw [if_neg hloc, if_neg (mt hmem.1 hloc), List.cons_append]

/-- A node at a location that had none becomes the last one. -/
theorem upsert_of_notMem {es : List (Location × Node)} {loc : Location} (h : loc ∉ keys es)
    (node : Node) : upsert loc node es = es ++ [(loc, node)] := by
  induction es with
  | nil => rfl
  | cons e es ih =>
    obtain ⟨l, old⟩ := e
    obtain ⟨hne, hrest⟩ := not_or.1 (mt List.mem_cons.2 h)
    rw [upsert, if_neg (Ne.symm hne), ih hrest, List.cons_append]

/-- It keeps them apart. -/
theorem nodup_keys_upsert {es : List (Location × Node)} (h : (keys es).Nodup) (loc : Location)
    (node : Node) : (keys (upsert loc node es)).Nodup := by
  rw [keys_upsert]
  split
  · exact h
  · rename_i hnew
    exact List.nodup_append.2 ⟨h, List.pairwise_singleton _ _, fun a ha b hb hab =>
      hnew (List.mem_singleton.1 hb ▸ hab ▸ ha)⟩

namespace Tree

/-- A tree that a file system can have. -/
structure WellFormed (t : Tree) : Prop where
  nodup : (keys t.entries).Nodup
  parent : ∀ {n dir node}, t.node? (n :: dir) = some node → t.node? dir = some .directory
  isName : ∀ {n dir node}, t.node? (n :: dir) = some node → IsName n
  target : ∀ {loc path}, t.node? loc = some (.link path) → (0 : UInt8) ∉ path

/-! ### Listings -/

/-- **A directory lists its entries.** -/
theorem mem_namesIn {t : Tree} {dir : Location} {n : Bytes} :
    n ∈ t.namesIn dir ↔ ∃ node, t.node? (n :: dir) = some node := by
  rw [node?, if_neg (List.cons_ne_nil n dir), exists_lookup_iff, namesIn, keys,
    List.mem_filterMap, List.mem_map]
  constructor
  · rintro ⟨⟨loc, node⟩, hmem, h⟩
    rcases loc with _ | ⟨m, parent⟩
    · cases h
    · by_cases hp : parent = dir
      · obtain rfl := hp
        obtain rfl : m = n := by simpa using h
        exact ⟨_, hmem, rfl⟩
      · simp [hp] at h
  · rintro ⟨⟨loc, node⟩, hmem, rfl⟩
    exact ⟨_, hmem, by simp⟩

/-- Nothing is listed where nothing is. -/
theorem namesIn_eq_nil_iff {t : Tree} {dir : Location} :
    t.namesIn dir = [] ↔ ∀ n, t.node? (n :: dir) = none := by
  simp only [List.eq_nil_iff_forall_not_mem, mem_namesIn, not_exists,
    Option.eq_none_iff_forall_ne_some, ne_eq]

/-- An entry is listed once. -/
theorem WellFormed.nodup_namesIn {t : Tree} (ht : t.WellFormed) (dir : Location) :
    (t.namesIn dir).Nodup := by
  refine List.Pairwise.filterMap _ (fun e e' hne n hn n' hn' => ?_) (List.pairwise_map.1 ht.nodup)
  obtain ⟨_ | ⟨m, parent⟩, node⟩ := e
  · cases hn
  · obtain ⟨_ | ⟨m', parent'⟩, node'⟩ := e'
    · cases hn'
    · by_cases hp : parent = dir <;> by_cases hp' : parent' = dir
      · simp only [hp, hp', if_true, Option.some.injEq] at hn hn' hne
        rintro rfl
        exact hne (by rw [hn, hn'])
      · simp [hp'] at hn'
      · simp [hp] at hn
      · simp [hp] at hn

/-- An entry has a valid name. -/
theorem WellFormed.isName_of_mem {t : Tree} (ht : t.WellFormed) {dir : Location} :
    ∀ n ∈ t.namesIn dir, IsName n := fun _ hn => by
  obtain ⟨node, hnode⟩ := mem_namesIn.1 hn
  exact ht.isName hnode

/-- The locations below a directory are those of the nodes that lead through it. -/
theorem mem_below {t : Tree} {dir loc : Location} :
    loc ∈ t.below dir ↔ (∃ node, t.node? loc = some node) ∧ dir <:+ loc ∧ loc ≠ dir := by
  rw [below, List.mem_mergeSort, List.mem_filter, Bool.and_eq_true, List.isSuffixOf_iff_suffix,
    decide_eq_true_iff]
  refine and_congr_left fun ⟨hsuffix, hne⟩ => ?_
  have hloc : loc ≠ [] := by
    rintro rfl
    exact hne (List.suffix_nil.1 hsuffix).symm
  rw [node?, if_neg hloc, exists_lookup_iff, keys]

/-- What a node stands in is a directory, however far out. -/
theorem WellFormed.directory_of_below {t : Tree} (ht : t.WellFormed) {inner dir : Location}
    {node : Node} (hinner : inner ≠ []) (h : t.node? (inner ++ dir) = some node) :
    t.node? dir = some .directory := by
  induction inner generalizing node with
  | nil => exact absurd rfl hinner
  | cons n inner ih =>
    have hparent := ht.parent h
    rcases inner with _ | ⟨m, inner⟩
    · exact hparent
    · exact ih (List.cons_ne_nil m inner) hparent

/-- Nothing lies below a location that is no directory. -/
theorem WellFormed.node?_below_eq_none {t : Tree} (ht : t.WellFormed) {inner dir : Location}
    (hinner : inner ≠ []) (hdir : t.node? dir ≠ some .directory) :
    t.node? (inner ++ dir) = none :=
  Option.eq_none_iff_forall_ne_some.2 fun _ h => hdir (ht.directory_of_below hinner h)

/-! ### Changes -/

/-- **A node at a free location can be taken back,** and the tree is what it was. -/
theorem erase_put {t : Tree} {loc : Location} (hloc : loc ≠ []) (hfree : t.node? loc = none)
    (node : Node) : (t.put loc node).erase loc = t := by
  obtain ⟨es⟩ := t
  have hnew : loc ∉ keys es := fun hmem => by
    obtain ⟨old, hold⟩ := exists_lookup_iff.2 hmem
    rw [node?, if_neg hloc, hold] at hfree
    cases hfree
  have hkept : es.filter (·.1 ≠ loc) = es := by
    refine List.filter_eq_self.2 fun e he => decide_eq_true fun heq => ?_
    exact hnew (heq ▸ List.mem_map_of_mem he)
  rw [put, erase, upsert_of_notMem hnew, List.filter_append, hkept]
  simp

/-- The root alone is well-formed. -/
theorem wellFormed_empty : empty.WellFormed where
  nodup := List.nodup_nil
  parent h := by simp [empty, node?, lookup] at h
  isName h := by simp [empty, node?, lookup] at h
  target {loc path} h := by
    by_cases hloc : loc = []
    · simp [node?, hloc] at h
    · simp [empty, node?, lookup, hloc] at h

/-- **A new node keeps a tree well-formed** if it has a valid name in a directory and takes the
place of no directory. -/
theorem WellFormed.put {t : Tree} (ht : t.WellFormed) {n : Bytes} {dir : Location} {node : Node}
    (hdir : t.node? dir = some .directory) (hn : IsName n)
    (hfree : t.node? (n :: dir) ≠ some .directory)
    (htarget : ∀ path, node = .link path → (0 : UInt8) ∉ path) :
    (t.put (n :: dir) node).WellFormed := by
  have hread := t.node?_put (List.cons_ne_nil n dir) node
  refine ⟨nodup_keys_upsert ht.nodup _ _, fun {m d x} h => ?_, fun {m d x} h => ?_,
    fun {loc path} h => ?_⟩
  · -- the new node has nothing below it, so what is read at `d` is what was there
    have hold : t.node? d = some .directory := by
      rw [hread] at h
      split at h
      · rename_i heq
        obtain ⟨-, rfl⟩ := List.cons.inj heq
        exact hdir
      · exact ht.parent h
    have hne : d ≠ n :: dir := by
      rintro rfl
      exact hfree hold
    rw [hread, if_neg hne]
    exact hold
  · rw [hread] at h
    split at h
    · rename_i heq
      obtain ⟨rfl, -⟩ := List.cons.inj heq
      exact hn
    · exact ht.isName h
  · rw [hread] at h
    split at h
    · exact htarget path (Option.some.inj h)
    · exact ht.target h

/-- **A node without entries can be erased.** -/
theorem WellFormed.erase {t : Tree} (ht : t.WellFormed) {loc : Location} (hloc : loc ≠ [])
    (hempty : t.namesIn loc = []) : (t.erase loc).WellFormed := by
  have hread := t.node?_erase hloc
  have hkept {l : Location} {x : Node} (h : (t.erase loc).node? l = some x) :
      t.node? l = some x := by
    rw [hread] at h
    split at h
    · cases h
    · exact h
  refine ⟨List.Nodup.sublist (List.Sublist.map _ List.filter_sublist) ht.nodup,
    fun {m d x} h => ?_, fun h => ht.isName (hkept h), fun h => ht.target (hkept h)⟩
  have hne : d ≠ loc := by
    rintro rfl
    exact List.not_mem_nil (hempty ▸ mem_namesIn.2 ⟨x, hkept h⟩)
  rw [hread, if_neg hne]
  exact ht.parent (hkept h)

end Tree
end FileTree
end SnippetConsole
