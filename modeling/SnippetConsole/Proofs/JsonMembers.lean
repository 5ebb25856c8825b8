/-
# Objects by their keys

An object whose keys increase has each key once, so it is known by what stands at each key
(`Increasing.ext`). Writing a member keeps the order (`Increasing.insert`), and so do sorting and
merging. Each operation on objects is told key by key:

| operation | at a key |
| --- | --- |
| `ofMembers` | what the list has there, if its keys are all different (`get?_ofMembers`) |
| `mergeMembers` | `mergedAt` of what the two have there (`get?_mergeMembers`) |

`Value.Ordered` says that the keys increase in a value and in all that it holds; `Value.sorted` makes
it so (`ordered_sorted`).
-/

import SnippetConsole.Json.Merge
import SnippetConsole.Json.Printer
import Mathlib.Data.List.Basic
import Mathlib.Data.List.Nodup
import Mathlib.Data.String.Basic

namespace SnippetConsole
namespace Json

/-- The keys of members. -/
def keys (ms : Members) : List String := ms.map (·.1)

@[simp] theorem keys_nil : keys [] = [] := rfl

@[simp] theorem keys_cons (k : String) (v : Value) (ms : Members) :
    keys ((k, v) :: ms) = k :: keys ms := rfl

/-- The keys increase. -/
def Increasing (ms : Members) : Prop := (keys ms).Pairwise (· < ·)

theorem increasing_nil : Increasing [] := List.Pairwise.nil

theorem Increasing.nodup {ms : Members} (h : Increasing ms) : (keys ms).Nodup :=
  h.imp fun hlt => ne_of_lt hlt

/-! ### What stands at a key -/

theorem get?_cons (k : String) (v : Value) (ms : Members) (j : String) :
    get? j ((k, v) :: ms) = if j = k then some v else get? j ms := rfl

/-- Nothing stands at what is no key. -/
theorem get?_eq_none {ms : Members} {k : String} : get? k ms = none ↔ k ∉ keys ms := by
  induction ms with
  | nil => simp [get?]
  | cons m ms ih =>
    obtain ⟨k', v⟩ := m
    rw [get?_cons]
    by_cases h : k = k'
    · simp [h]
    · simp [h, ih]

/-- What stands at a key is a member. -/
theorem mem_of_get? {ms : Members} {k : String} {v : Value} (h : get? k ms = some v) :
    (k, v) ∈ ms := by
  induction ms with
  | nil => cases h
  | cons m ms ih =>
    obtain ⟨k', v'⟩ := m
    rw [get?_cons] at h
    by_cases hk : k = k'
    · rw [if_pos hk] at h
      obtain rfl := Option.some.inj h
      exact hk ▸ List.mem_cons_self
    · rw [if_neg hk] at h
      exact List.mem_cons_of_mem _ (ih h)

/-- A member stands at its key, if no other has the key. -/
theorem get?_of_mem {ms : Members} (h : (keys ms).Nodup) {m : String × Value} (hm : m ∈ ms) :
    get? m.1 ms = some m.2 := by
  induction ms with
  | nil => cases hm
  | cons m' ms ih =>
    obtain ⟨hnew, hrest⟩ := List.nodup_cons.1 h
    rcases List.mem_cons.1 hm with rfl | hm
    · exact if_pos rfl
    · have hne : m.1 ≠ m'.1 := fun heq => hnew (List.mem_map.2 ⟨m, hm, heq⟩)
      exact (if_neg hne).trans (ih hrest hm)

theorem mem_iff_get? {ms : Members} (h : (keys ms).Nodup) {m : String × Value} :
    m ∈ ms ↔ get? m.1 ms = some m.2 :=
  ⟨get?_of_mem h, mem_of_get?⟩

/-- **An object is known by what stands at each key.** -/
theorem Increasing.ext {ms ms' : Members} (h : Increasing ms) (h' : Increasing ms')
    (hread : ∀ k, get? k ms = get? k ms') : ms = ms' := by
  have hperm : ms.Perm ms' :=
    (List.perm_ext_iff_of_nodup (.of_map _ h.nodup) (.of_map _ h'.nodup)).2 fun m => by
      rw [mem_iff_get? h.nodup, mem_iff_get? h'.nodup, hread]
  exact hperm.eq_of_pairwise (fun _ _ _ _ hlt hgt => absurd (hlt.trans hgt) (lt_irrefl _))
    (List.pairwise_map.1 h) (List.pairwise_map.1 h')

/-! ### Writing members -/

/-- Writing a member adds no key but its own. -/
theorem mem_keys_insert {k : String} {v : Value} {ms : Members} {j : String} :
    j ∈ keys (insert k v ms) ↔ j = k ∨ j ∈ keys ms := by
  have hread := get?_insert k v ms j
  by_cases hj : j = k
  · rw [if_pos hj] at hread
    have hmem : j ∈ keys (insert k v ms) := by
      by_contra hnot
      rw [get?_eq_none.2 hnot] at hread
      cases hread
    simp [hj ▸ hmem, hj]
  · rw [if_neg hj] at hread
    rw [← not_iff_not, ← get?_eq_none, hread, get?_eq_none]
    simp [hj]

/-- **Writing a member keeps the keys increasing.** -/
theorem Increasing.insert {ms : Members} (h : Increasing ms) (k : String) (v : Value) :
    Increasing (insert k v ms) := by
  induction ms with
  | nil => exact List.pairwise_singleton _ _
  | cons m ms ih =>
    obtain ⟨k', v'⟩ := m
    obtain ⟨hfirst, hrest⟩ := List.pairwise_cons.1 h
    rw [Json.insert]
    by_cases hlt : k < k'
    · rw [if_pos hlt]
      refine List.pairwise_cons.2 ⟨fun j hj => ?_, h⟩
      rcases List.mem_cons.1 hj with rfl | hj
      · exact hlt
      · exact lt_trans hlt (hfirst j hj)
    · rw [if_neg hlt]
      by_cases heq : k = k'
      · subst heq
        rw [if_pos rfl]
        exact h
      · rw [if_neg heq]
        have hgt : k' < k := lt_of_le_of_ne (not_lt.1 hlt) (Ne.symm heq)
        refine List.pairwise_cons.2 ⟨fun j hj => ?_, ih hrest⟩
        rcases mem_keys_insert.1 hj with rfl | hj
        · exact hgt
        · exact hfirst j hj

theorem increasing_foldl_insert (ms : List (String × Value)) {acc : Members}
    (h : Increasing acc) : Increasing (ms.foldl (fun acc m => insert m.1 m.2 acc) acc) := by
  induction ms generalizing acc with
  | nil => exact h
  | cons m ms ih => exact ih (h.insert m.1 m.2)

/-- An object made of members has increasing keys. -/
theorem increasing_ofMembers (ms : List (String × Value)) : Increasing (ofMembers ms) :=
  increasing_foldl_insert ms increasing_nil

/-- Members with different keys are all found among what they were written to. -/
theorem get?_foldl_insert {ms : List (String × Value)} (h : (keys ms).Nodup) (acc : Members)
    (j : String) :
    get? j (ms.foldl (fun acc m => insert m.1 m.2 acc) acc) = (get? j ms).or (get? j acc) := by
  induction ms generalizing acc with
  | nil => rfl
  | cons m ms ih =>
    obtain ⟨k, v⟩ := m
    obtain ⟨hnew, hrest⟩ := List.nodup_cons.1 h
    rw [List.foldl_cons, ih hrest, get?_insert, get?_cons]
    by_cases hj : j = k
    · subst hj
      rw [if_pos rfl, if_pos rfl, get?_eq_none.2 hnew]
      rfl
    · rw [if_neg hj, if_neg hj]

/-- **An object has what its members say.** -/
theorem get?_ofMembers {ms : List (String × Value)} (h : (keys ms).Nodup) (j : String) :
    get? j (ofMembers ms) = get? j ms := by
  have hread := get?_foldl_insert h [] j
  rw [ofMembers, hread]
  exact Option.or_none

/-- A key of an object is the key of one of its members. -/
theorem mem_keys_ofMembers {ms : List (String × Value)} (h : (keys ms).Nodup) {j : String} :
    j ∈ keys (ofMembers ms) ↔ j ∈ keys ms := by
  rw [← not_iff_not, ← get?_eq_none, ← get?_eq_none, get?_ofMembers h]

/-! ### Merging -/

/-- What is no object and not null replaces what it is merged over. -/
theorem merge_of_ne_object {v : Value} (hnull : v ≠ .null) (h : ∀ ms, v ≠ .object ms)
    (base : Value) : merge base v = v := by
  cases v with
  | null => exact absurd rfl hnull
  | object ms => exact absurd rfl (h ms)
  | bool b => rw [merge] <;> simp
  | number n => rw [merge] <;> simp
  | string s => rw [merge] <;> simp
  | array vs => rw [merge] <;> simp

/-- So does an object if it is merged over something else. -/
theorem merge_object_of_ne_object {base : Value} (h : ∀ ms, base ≠ .object ms) (ms : Members) :
    merge base (.object ms) = .object ms := by
  cases base with
  | object ms => exact absurd rfl (h ms)
  | null => simp [merge]
  | bool b => simp [merge]
  | number n => simp [merge]
  | string s => simp [merge]
  | array vs => simp [merge]

/-- What a merged object has at a key, of what the base and the overlay have there. -/
def mergedAt : (base overlay : Option Value) → Option Value
  | base, none => base
  | some old, some v => some (merge old v)
  | none, some v => if v.isNull then none else some v

@[simp] theorem mergedAt_none (base : Option Value) : mergedAt base none = base := by
  cases base with
  | none => rfl
  | some old => rfl

/-- A member of the overlay changes the base at its key only. -/
theorem get?_mergeMember (base : Members) (k : String) (v : Value) (j : String) :
    get? j (match get? k base with
        | some old => insert k (merge old v) base
        | none => if v.isNull then base else insert k v base) =
      if j = k then mergedAt (get? k base) (some v) else get? j base := by
  rcases hbase : get? k base with _ | old
  · rw [mergedAt]
    by_cases hnull : v.isNull = true
    · rw [if_pos hnull, if_pos hnull]
      by_cases hj : j = k
      · rw [if_pos hj, hj, hbase]
      · rw [if_neg hj]
    · rw [if_neg hnull, if_neg hnull, get?_insert]
  · rw [mergedAt, get?_insert]

/-- **Merging is key by key.** -/
theorem get?_mergeMembers {overlay : Members} (h : (keys overlay).Nodup) (base : Members)
    (j : String) :
    get? j (mergeMembers base overlay) = mergedAt (get? j base) (get? j overlay) := by
  induction overlay generalizing base with
  | nil =>
    rw [mergeMembers]
    exact (mergedAt_none _).symm
  | cons m overlay ih =>
    obtain ⟨k, v⟩ := m
    obtain ⟨hnew, hrest⟩ := List.nodup_cons.1 h
    have hstep := get?_mergeMember base k v j
    have hmerge : get? j (mergeMembers base ((k, v) :: overlay)) =
        mergedAt (if j = k then mergedAt (get? k base) (some v) else get? j base)
          (get? j overlay) := by
      rw [← hstep, mergeMembers]
      rcases get? k base with _ | old
      · exact ih hrest _
      · exact ih hrest _
    rw [hmerge, get?_cons]
    by_cases hj : j = k
    · subst hj
      rw [if_pos rfl, if_pos rfl, get?_eq_none.2 hnew, mergedAt_none]
    · rw [if_neg hj, if_neg hj]

/-- Merging keeps the keys increasing. -/
theorem Increasing.mergeMembers {base : Members} (h : Increasing base) (overlay : Members) :
    Increasing (mergeMembers base overlay) := by
  induction overlay generalizing base with
  | nil =>
    rw [Json.mergeMembers]
    exact h
  | cons m overlay ih =>
    obtain ⟨k, v⟩ := m
    rw [Json.mergeMembers]
    rcases get? k base with _ | old
    · refine ih ?_
      by_cases hnull : v.isNull = true
      · rw [if_pos hnull]
        exact h
      · rw [if_neg hnull]
        exact h.insert k v
    · exact ih (h.insert k _)

/-! ### Ordered values -/

/-- In the value and in all that it holds the keys of objects increase. -/
inductive Value.Ordered : Value → Prop
  | null : Ordered .null
  | bool (b : Bool) : Ordered (.bool b)
  | number (n : Number) : Ordered (.number n)
  | string (s : String) : Ordered (.string s)
  | array {vs : List Value} (hitems : ∀ v ∈ vs, Ordered v) : Ordered (.array vs)
  | object {ms : Members} (hkeys : Increasing ms) (hmembers : ∀ m ∈ ms, Ordered m.2) :
    Ordered (.object ms)

/-- What stands at a key of an ordered object is ordered. -/
theorem Value.Ordered.of_get? {ms : Members} (h : (Value.object ms).Ordered) {k : String}
    {v : Value} (hv : get? k ms = some v) : v.Ordered := by
  cases h with
  | object hkeys hmembers => exact hmembers (k, v) (mem_of_get? hv)

theorem Value.Ordered.increasing {ms : Members} (h : (Value.object ms).Ordered) :
    Increasing ms := by
  cases h with
  | object hkeys hmembers => exact hkeys

theorem mem_insert {k : String} {v : Value} {ms : Members} {m : String × Value}
    (h : m ∈ insert k v ms) : m = (k, v) ∨ m ∈ ms := by
  induction ms with
  | nil => exact .inl (List.mem_singleton.1 h)
  | cons m' ms ih =>
    obtain ⟨k', v'⟩ := m'
    rw [insert] at h
    split at h
    · exact (List.mem_cons.1 h).imp_right id
    · split at h
      · exact (List.mem_cons.1 h).imp_right (List.mem_cons_of_mem _)
      · rcases List.mem_cons.1 h with rfl | h
        · exact .inr List.mem_cons_self
        · exact (ih h).imp_right (List.mem_cons_of_mem _)

theorem mem_ofMembers {ms : List (String × Value)} {m : String × Value}
    (h : m ∈ ofMembers ms) : m ∈ ms := by
  have hfold : ∀ (ms : List (String × Value)) (acc : Members),
      m ∈ ms.foldl (fun acc m => insert m.1 m.2 acc) acc → m ∈ ms ∨ m ∈ acc := by
    intro ms
    induction ms with
    | nil => exact fun acc h => .inr h
    | cons m' ms ih =>
      intro acc h
      rcases ih _ h with h | h
      · exact .inl (List.mem_cons_of_mem _ h)
      · rcases mem_insert h with rfl | h
        · exact .inl List.mem_cons_self
        · exact .inr h
  exact (hfold ms [] h).resolve_right List.not_mem_nil

theorem sortedItems_eq (vs : List Value) : sortedItems vs = vs.map Value.sorted := by
  induction vs with
  | nil => rfl
  | cons v vs ih => rw [sortedItems, ih, List.map_cons]

theorem sortedMembers_eq (ms : List (String × Value)) :
    sortedMembers ms = ms.map fun m => (m.1, m.2.sorted) := by
  induction ms with
  | nil => rfl
  | cons m ms ih =>
    obtain ⟨k, v⟩ := m
    rw [sortedMembers, ih, List.map_cons]

mutual

/-- **A sorted value is ordered.** -/
theorem Value.ordered_sorted : (v : Value) → v.sorted.Ordered
  | .null => .null
  | .bool b => .bool b
  | .number n => .number n
  | .string s => .string s
  | .array vs => .array (ordered_sortedItems vs)
  | .object ms =>
    .object (increasing_ofMembers _) fun m hm => ordered_sortedMembers ms m (mem_ofMembers hm)

theorem ordered_sortedItems : (vs : List Value) → ∀ v ∈ sortedItems vs, v.Ordered
  | [] => fun _ h => absurd h List.not_mem_nil
  | v :: vs => List.forall_mem_cons.2 ⟨v.ordered_sorted, ordered_sortedItems vs⟩

theorem ordered_sortedMembers :
    (ms : List (String × Value)) → ∀ m ∈ sortedMembers ms, m.2.Ordered
  | [] => fun _ h => absurd h List.not_mem_nil
  | (_, v) :: ms => List.forall_mem_cons.2 ⟨v.ordered_sorted, ordered_sortedMembers ms⟩

end

end Json
end SnippetConsole
