/-
# The laws of merging

A document is merged over another member by member, and so on inside of members (`mergedAt`). Where
objects stand at all strict prefixes of a path in both, nothing but what stands at its end counts
(`valueAt?_merge`):

| overlay at the path | base at the path | merged |
| --- | --- | --- |
| `null` or nothing | any | the base's |
| an object | an object | an object: all keys of the base, those of the overlay that are not `null` |
| any other | any | the overlay's, as it is |

Nulls mean something else at each place: `merge` keeps what was there for a null, drops a null at a
new key, and takes over nulls that are deeper in a new value. Merging the same overlay again finds
each of its nulls either over a value or over the null taken over before, and changes neither
(`merge_merge`); for what is taken over as it is this is merging it over itself (`merge_self`).

The laws hold of ordered values. What is read from a text is one (`ordered_document`), and merging
keeps it so (`Value.Ordered.merge`).
-/

import SnippetConsole.Json.Reader
import SnippetConsole.Proofs.JsonMembers
import SnippetConsole.Proofs.TreeChange

namespace SnippetConsole
namespace Json

open FileTree.Tree (except_bind_eq_ok)

/-! ### What is read -/

/-- What a reader answers with has a property. -/
def Yields (reader : Reader α) (holds : α → Prop) : Prop :=
  ∀ cs x rest, reader cs = .ok (x, rest) → holds x

/-- Items that are read have what their reader yields. -/
theorem yields_items {item : Reader α} {holds : α → Prop} (h : Yields item holds) (fuel : Nat)
    (first : Bool) : Yields (items item fuel first) fun xs => ∀ x ∈ xs, holds x := by
  induction fuel generalizing first with
  | zero => nofun
  | succ fuel ih =>
    intro cs xs rest hread
    obtain ⟨⟨more, cs₁⟩, -, hread⟩ := except_bind_eq_ok.1 hread
    cases more with
    | false =>
      cases hread
      exact fun _ h => absurd h List.not_mem_nil
    | true =>
      obtain ⟨⟨x, cs₂⟩, hitem, hread⟩ := except_bind_eq_ok.1 hread
      obtain ⟨⟨xs', cs₃⟩, hitems, hread⟩ := except_bind_eq_ok.1 hread
      cases hread
      exact List.forall_mem_cons.2 ⟨h _ _ _ hitem, ih false _ _ _ hitems⟩

/-- So have the values of members. -/
theorem yields_members {item : Reader α} {holds : α → Prop} (h : Yields item holds) (fuel : Nat)
    (first : Bool) : Yields (members item fuel first) fun ms => ∀ m ∈ ms, holds m.2 := by
  induction fuel generalizing first with
  | zero => nofun
  | succ fuel ih =>
    intro cs ms rest hread
    obtain ⟨⟨more, cs₁⟩, -, hread⟩ := except_bind_eq_ok.1 hread
    cases more with
    | false =>
      cases hread
      exact fun _ h => absurd h List.not_mem_nil
    | true =>
      obtain ⟨⟨key, cs₂⟩, -, hread⟩ := except_bind_eq_ok.1 hread
      obtain ⟨cs₃, -, hread⟩ := except_bind_eq_ok.1 hread
      obtain ⟨⟨x, cs₄⟩, hitem, hread⟩ := except_bind_eq_ok.1 hread
      obtain ⟨⟨ms', cs₅⟩, hmembers, hread⟩ := except_bind_eq_ok.1 hread
      cases hread
      exact List.forall_mem_cons.2 ⟨h _ _ _ hitem, ih false _ _ _ hmembers⟩

/-- A scalar has nothing to order. -/
theorem yields_scalar : Yields scalar Value.Ordered := by
  intro cs v rest hread
  unfold scalar at hread
  split at hread
  · cases hread
  · obtain ⟨_, -, hread⟩ := except_bind_eq_ok.1 hread
    cases hread
    exact .null
  · obtain ⟨_, -, hread⟩ := except_bind_eq_ok.1 hread
    cases hread
    exact .bool _
  · obtain ⟨_, -, hread⟩ := except_bind_eq_ok.1 hread
    cases hread
    exact .bool _
  · obtain ⟨_, -, hread⟩ := except_bind_eq_ok.1 hread
    cases hread
    exact .string _
  · obtain ⟨_, -, hread⟩ := except_bind_eq_ok.1 hread
    cases hread
    exact .number _
  · split at hread
    · obtain ⟨_, -, hread⟩ := except_bind_eq_ok.1 hread
      cases hread
      exact .number _
    · cases hread

/-- **A value that is read is ordered,** whatever the order of its members in the text. -/
theorem yields_value (depth : Nat) : Yields (value depth) Value.Ordered := by
  induction depth with
  | zero =>
    intro cs v rest hread
    unfold value at hread
    split at hread
    · cases hread
    · cases hread
    · exact yields_scalar _ _ _ hread
  | succ depth ih =>
    intro cs v rest hread
    unfold value at hread
    split at hread
    · obtain ⟨⟨vs, _⟩, hitems, hread⟩ := except_bind_eq_ok.1 hread
      cases hread
      exact .array (yields_items ih _ _ _ _ _ hitems)
    · obtain ⟨⟨ms, _⟩, hmembers, hread⟩ := except_bind_eq_ok.1 hread
      cases hread
      exact .object (increasing_ofMembers ms) fun m hm =>
        yields_members ih _ _ _ _ _ hmembers m (mem_ofMembers hm)
    · exact yields_scalar _ _ _ hread

/-- **What is read from a text is ordered.** -/
theorem ordered_document {text : String} {v : Value} (h : document text = .ok v) : v.Ordered := by
  obtain ⟨⟨v', rest⟩, hread, h⟩ := except_bind_eq_ok.1 h
  have hordered := yields_value _ _ _ _ hread
  dsimp only at h
  split at h
  · cases h
    exact hordered
  · cases h

/-! ### At the end of a path -/

namespace Value

/-- The value at a path of keys: none where a key is missing or stands in no object. -/
def valueAt? (v : Value) : (path : List String) → Option Value
  | [] => some v
  | k :: path =>
    match v with
    | .object ms => (get? k ms).bind fun child => child.valueAt? path
    | _ => none

/-- Objects stand at all strict prefixes of a path. -/
def ObjectsBefore (v : Value) (path : List String) : Prop :=
  ∀ front, front <+: path → front ≠ path → ∃ ms, v.valueAt? front = some (.object ms)

@[simp] theorem valueAt?_nil (v : Value) : v.valueAt? [] = some v := by
  rw [valueAt?]

theorem valueAt?_object (ms : Members) (k : String) (path : List String) :
    (object ms).valueAt? (k :: path) = (get? k ms).bind fun child => child.valueAt? path := by
  rw [valueAt?]

/-- **One key further:** the value is an object, and what stands at the key has objects before the
rest of the path; if there is no rest, nothing need stand there. -/
theorem objectsBefore_cons {v : Value} {k : String} {path : List String} :
    v.ObjectsBefore (k :: path) ↔
      ∃ ms, v = .object ms ∧
        (path = [] ∨ ∃ child, get? k ms = some child ∧ child.ObjectsBefore path) := by
  constructor
  · intro h
    obtain ⟨ms, hms⟩ := h [] List.nil_prefix (List.cons_ne_nil _ _).symm
    obtain rfl := Option.some.inj ((valueAt?_nil v).symm.trans hms)
    have hinside (front : List String) (hfront : front <+: path) (hne : front ≠ path) :
        ∃ ms', ((get? k ms).bind fun child => child.valueAt? front) = some (.object ms') := by
      rw [← valueAt?_object]
      exact h (k :: front) (List.cons_prefix_cons.2 ⟨rfl, hfront⟩) fun heq =>
        hne (List.cons.inj heq).2
    refine ⟨ms, rfl, or_iff_not_imp_left.2 fun hpath => ?_⟩
    obtain ⟨_, hfirst⟩ := hinside [] List.nil_prefix (Ne.symm hpath)
    obtain ⟨child, hchild, -⟩ := Option.bind_eq_some_iff.1 hfirst
    refine ⟨child, hchild, fun front hfront hne => ?_⟩
    have hfurther := hinside front hfront hne
    rwa [hchild] at hfurther
  · rintro ⟨ms, rfl, h⟩ front hfront hne
    cases front with
    | nil => exact ⟨ms, valueAt?_nil _⟩
    | cons j front =>
      obtain ⟨rfl, hshorter⟩ := List.cons_prefix_cons.1 hfront
      have hrest : front ≠ path := fun heq => hne (congrArg _ heq)
      rcases h with rfl | ⟨child, hchild, hbefore⟩
      · exact absurd (List.prefix_nil.1 hshorter) hrest
      · rw [valueAt?_object, hchild]
        exact hbefore front hshorter hrest

/-- What stands at a path of an ordered value is ordered. -/
theorem Ordered.of_valueAt? {v w : Value} (h : v.Ordered) {path : List String}
    (hw : v.valueAt? path = some w) : w.Ordered := by
  induction path generalizing v with
  | nil =>
    obtain rfl := Option.some.inj ((valueAt?_nil v).symm.trans hw)
    exact h
  | cons k path ih =>
    cases v with
    | object ms =>
      rw [valueAt?_object] at hw
      obtain ⟨child, hchild, hw⟩ := Option.bind_eq_some_iff.1 hw
      exact ih (h.of_get? hchild) hw
    | _ => cases hw

end Value

/-! ### Merging along a path -/

/-- A null keeps what was there. -/
theorem mergedAt_null (base : Option Value) : mergedAt base (some .null) = base := by
  cases base with
  | none => rfl
  | some old => exact congrArg some (merge_null old)

/-- What is not null and not an object over an object is taken over. -/
theorem mergedAt_of_not_objects {base : Option Value} {v : Value} (hnull : v ≠ .null)
    (hobjects : ¬∃ bs os, base = some (.object bs) ∧ v = .object os) :
    mergedAt base (some v) = some v := by
  cases base with
  | none => exact if_neg fun h => hnull (Value.isNull_iff.1 h)
  | some old =>
    refine congrArg some ?_
    by_cases hv : ∃ os, v = .object os
    · obtain ⟨os, rfl⟩ := hv
      exact merge_object_of_ne_object (fun bs hbs => hobjects ⟨bs, os, congrArg some hbs, rfl⟩) os
    · exact merge_of_ne_object hnull (fun os hos => hv ⟨os, hos⟩) old

/-- A merged object has the keys of the base and those of the overlay that are not null. -/
theorem mem_keys_mergeMembers {overlay : Members} (h : (keys overlay).Nodup) (base : Members)
    (k : String) :
    k ∈ keys (mergeMembers base overlay) ↔
      k ∈ keys base ∨ ∃ v, get? k overlay = some v ∧ v ≠ .null := by
  have hkey (ms : Members) : k ∈ keys ms ↔ ∃ v, get? k ms = some v := by
    rw [← Option.ne_none_iff_exists', ne_eq, get?_eq_none, not_not]
  rw [hkey, hkey, get?_mergeMembers h]
  rcases get? k overlay with _ | v
  · simp
  · rcases get? k base with _ | old
    · simp [mergedAt, ← Value.isNull_iff]
    · simp [mergedAt]

/-- **Merging follows paths:** what stands at the end of one is merged, and nothing else counts. -/
theorem valueAt?_merge {base overlay : Value} (hordered : overlay.Ordered) {path : List String}
    (hbase : base.ObjectsBefore path) (hoverlay : overlay.ObjectsBefore path) :
    (merge base overlay).valueAt? path
      = mergedAt (base.valueAt? path) (overlay.valueAt? path) := by
  induction path generalizing base overlay with
  | nil => simp only [Value.valueAt?_nil, mergedAt]
  | cons k path ih =>
    obtain ⟨bs, rfl, hbs⟩ := Value.objectsBefore_cons.1 hbase
    obtain ⟨os, rfl, hos⟩ := Value.objectsBefore_cons.1 hoverlay
    simp only [merge_object, Value.valueAt?_object, get?_mergeMembers hordered.increasing.nodup]
    -- the path ends at the key, or something stands there in both
    rcases hbs with rfl | ⟨b, hb, hbs⟩
    · simp
    · rcases hos with rfl | ⟨o, ho, hos⟩
      · simp
      · rw [hb, ho]
        exact ih (hordered.of_get? ho) hbs hos

/-- **The law of paths.** Let objects stand at all strict prefixes of a path, in the base and in the
overlay. If the overlay has null or nothing at its end, what was there stays, also if that is
nothing. If it has something else, and not both have an object there, that is taken over as it is.
If both have objects there, they become one object, with the keys of the base and those of the
overlay that are not null. -/
theorem merge_along_path {base overlay : Value} (hordered : overlay.Ordered)
    {path : List String} (hbase : base.ObjectsBefore path)
    (hoverlay : overlay.ObjectsBefore path) :
    (overlay.valueAt? path = none ∨ overlay.valueAt? path = some .null →
      (merge base overlay).valueAt? path = base.valueAt? path) ∧
    (∀ v, overlay.valueAt? path = some v → v ≠ .null →
      (¬∃ bs os, base.valueAt? path = some (.object bs) ∧ v = .object os) →
      (merge base overlay).valueAt? path = some v) ∧
    ∀ bs os, base.valueAt? path = some (.object bs) →
      overlay.valueAt? path = some (.object os) →
      ∃ ms, (merge base overlay).valueAt? path = some (.object ms) ∧
        ∀ k, k ∈ keys ms ↔ k ∈ keys bs ∨ ∃ v, get? k os = some v ∧ v ≠ .null := by
  have hmerged := valueAt?_merge hordered hbase hoverlay
  refine ⟨?kept, ?taken, ?joined⟩
  case kept =>
    rintro (hnothing | hnull)
    · rw [hmerged, hnothing, mergedAt_none]
    · rw [hmerged, hnull, mergedAt_null]
  case taken =>
    intro v hv hnull hobjects
    rw [hmerged, hv, mergedAt_of_not_objects hnull hobjects]
  case joined =>
    intro bs os hbs hos
    refine ⟨mergeMembers bs os, ?_,
      mem_keys_mergeMembers (hordered.of_valueAt? hos).increasing.nodup bs⟩
    rw [hmerged, hbs, hos, mergedAt, merge_object]

/-- Limits and a theme. -/
def baseDocument : Value := Value.sorted <| .object [
  ("limits", .object [("depth", .ofNat 3), ("width", .ofNat 80)]),
  ("theme", .string "dark")]

/-- Another depth and a further limit, and an object for the theme; nulls at an old key, at a new
one and inside of new values. -/
def overlayDocument : Value := Value.sorted <| .object [
  ("limits", .object [
    ("depth", .ofNat 4), ("height", .object [("least", .null)]), ("weight", .null),
    ("width", .null)]),
  ("theme", .object [("name", .null)])]

/-- The old width stays, the further limit and the theme are taken over with their nulls, and the
new null is left out. -/
theorem valueAt?_merge_overlayDocument :
    (merge baseDocument overlayDocument).valueAt? ["limits", "width"] = some (.ofNat 80) ∧
    (merge baseDocument overlayDocument).valueAt? ["limits", "height"]
      = some (.object [("least", .null)]) ∧
    (merge baseDocument overlayDocument).valueAt? ["theme"] = some (.object [("name", .null)]) ∧
    ∃ ms, (merge baseDocument overlayDocument).valueAt? ["limits"] = some (.object ms) ∧
      ∀ k, k ∈ keys ms ↔ k = "depth" ∨ k = "height" ∨ k = "width" := by
  have hordered : overlayDocument.Ordered := Value.ordered_sorted _
  have hone (k : String) : baseDocument.ObjectsBefore [k] ∧ overlayDocument.ObjectsBefore [k] :=
    ⟨Value.objectsBefore_cons.2 ⟨_, rfl, .inl rfl⟩, Value.objectsBefore_cons.2 ⟨_, rfl, .inl rfl⟩⟩
  have htwo (k : String) : baseDocument.ObjectsBefore ["limits", k] ∧
      overlayDocument.ObjectsBefore ["limits", k] :=
    ⟨Value.objectsBefore_cons.2
        ⟨_, rfl, .inr ⟨_, rfl, Value.objectsBefore_cons.2 ⟨_, rfl, .inl rfl⟩⟩⟩,
      Value.objectsBefore_cons.2
        ⟨_, rfl, .inr ⟨_, rfl, Value.objectsBefore_cons.2 ⟨_, rfl, .inl rfl⟩⟩⟩⟩
  have hwidth := (merge_along_path hordered (htwo "width").1 (htwo "width").2).1 (.inr rfl)
  have hheight := (merge_along_path hordered (htwo "height").1 (htwo "height").2).2.1 _ rfl nofun
    (fun ⟨_, _, hbs, _⟩ => nomatch hbs)
  have htheme := (merge_along_path hordered (hone "theme").1 (hone "theme").2).2.1 _ rfl nofun
    (fun ⟨_, _, hbs, _⟩ => nomatch hbs)
  obtain ⟨ms, hms, hkeys⟩ :=
    (merge_along_path hordered (hone "limits").1 (hone "limits").2).2.2
      [("depth", .ofNat 3), ("width", .ofNat 80)]
      [("depth", .ofNat 4), ("height", .object [("least", .null)]), ("weight", .null),
        ("width", .null)] rfl rfl
  refine ⟨hwidth, hheight, htheme, ms, hms, fun k => (hkeys k).trans ?_⟩
  simp only [keys_cons, keys_nil, List.mem_cons, List.not_mem_nil, or_false, get?_cons]
  by_cases hdepth : k = "depth"
  · simp [hdepth]
  · by_cases hheight : k = "height"
    · simp [hheight]
    · by_cases hweight : k = "weight"
      · simp [hweight]
      · by_cases hwidth : k = "width"
        · simp [hwidth]
        · simp [hdepth, hheight, hweight, hwidth, get?]

/-! ### Merging again -/

/-- **Induction inside of objects:** what holds of all values but objects, and of each object whose
members it holds of, holds of an ordered value. -/
theorem Value.Ordered.byObjects {motive : Value → Prop} {v : Value} (h : v.Ordered)
    (other : ∀ v, v.Ordered → (∀ ms, v ≠ .object ms) → motive v)
    (object : ∀ ms, (Value.object ms).Ordered → (∀ m ∈ ms, motive m.2) → motive (.object ms)) :
    motive v := by
  induction h with
  | null => exact other _ .null nofun
  | bool b => exact other _ (.bool b) nofun
  | number n => exact other _ (.number n) nofun
  | string s => exact other _ (.string s) nofun
  | array hitems => exact other _ (.array hitems) nofun
  | object hkeys hmembers ih => exact object _ (.object hkeys hmembers) ih

/-- What is no object keeps what was there, or replaces it. -/
theorem eq_null_or_merge_eq {v : Value} (h : ∀ ms, v ≠ .object ms) :
    v = .null ∨ ∀ base, merge base v = v :=
  or_iff_not_imp_left.2 fun hnull => merge_of_ne_object hnull h

/-- **Merging keeps values ordered.** -/
theorem Value.Ordered.merge {base overlay : Value} (hbase : base.Ordered)
    (hoverlay : overlay.Ordered) : (merge base overlay).Ordered := by
  refine hoverlay.byObjects (motive := fun v => ∀ base : Value, base.Ordered →
    (Json.merge base v).Ordered) ?other ?object base hbase
  case other =>
    intro v hordered hv base hbase
    rcases eq_null_or_merge_eq hv with rfl | hmerge
    · rwa [merge_null]
    · rwa [hmerge]
  case object =>
    intro os hos ih base hbase
    by_cases hobject : ∃ bs, base = .object bs
    · obtain ⟨bs, rfl⟩ := hobject
      have hkeys := hbase.increasing.mergeMembers os
      rw [merge_object]
      refine .object hkeys fun m hm => ?_
      have hread := get?_of_mem hkeys.nodup hm
      rw [get?_mergeMembers hos.increasing.nodup] at hread
      rcases hnew : get? m.1 os with _ | v
      · rw [hnew, mergedAt_none] at hread
        exact hbase.of_get? hread
      · rcases hold : get? m.1 bs with _ | old
        · rw [hnew, hold, mergedAt] at hread
          obtain ⟨-, hread⟩ := Option.ite_none_left_eq_some.1 hread
          exact Option.some.inj hread ▸ hos.of_get? hnew
        · rw [hnew, hold, mergedAt] at hread
          exact Option.some.inj hread ▸ ih _ (mem_of_get? hnew) old (hbase.of_get? hold)
    · rwa [merge_object_of_ne_object fun bs hbs => hobject ⟨bs, hbs⟩]

/-- **A value merged over itself** stays as it is, nulls included. -/
theorem merge_self {v : Value} (h : v.Ordered) : merge v v = v := by
  refine h.byObjects (motive := fun v => merge v v = v) ?other ?object
  case other =>
    intro v _ hv
    rcases eq_null_or_merge_eq hv with rfl | hmerge
    · exact merge_null _
    · exact hmerge v
  case object =>
    intro ms hms ih
    have hkeys := hms.increasing
    rw [merge_object]
    refine congrArg Value.object ((hkeys.mergeMembers ms).ext hkeys fun k => ?_)
    rw [get?_mergeMembers hkeys.nodup]
    rcases hv : get? k ms with _ | v
    · rfl
    · exact congrArg some (ih (k, v) (mem_of_get? hv))

/-- At a key the second time changes nothing, if it changes nothing below. -/
theorem mergedAt_mergedAt {base overlay : Option Value}
    (hself : ∀ v, overlay = some v → merge v v = v)
    (hagain : ∀ old v, base = some old → overlay = some v →
      merge (merge old v) v = merge old v) :
    mergedAt (mergedAt base overlay) overlay = mergedAt base overlay := by
  rcases overlay with _ | v
  · simp only [mergedAt_none]
  · rcases base with _ | old
    · by_cases hnull : v.isNull = true
      · simp only [mergedAt, if_pos hnull]
      · simp only [mergedAt, if_neg hnull, hself v rfl]
    · exact congrArg some (hagain old v rfl rfl)

/-- **An overlay merged again** changes nothing. -/
theorem merge_merge {base overlay : Value} (hbase : base.Ordered) (hoverlay : overlay.Ordered) :
    merge (merge base overlay) overlay = merge base overlay := by
  refine hoverlay.byObjects (motive := fun v => ∀ base : Value, base.Ordered →
    merge (merge base v) v = merge base v) ?other ?object base hbase
  case other =>
    intro v _ hv base _
    rcases eq_null_or_merge_eq hv with rfl | hmerge
    · exact merge_null _
    · rw [hmerge, hmerge]
  case object =>
    intro os hos ih base hbase
    by_cases hobject : ∃ bs, base = .object bs
    · obtain ⟨bs, rfl⟩ := hobject
      have hkeys := hbase.increasing.mergeMembers os
      rw [merge_object, merge_object]
      refine congrArg Value.object ((hkeys.mergeMembers os).ext hkeys fun k => ?_)
      simp only [get?_mergeMembers hos.increasing.nodup]
      refine mergedAt_mergedAt (fun v hv => merge_self (hos.of_get? hv)) fun old v hold hv => ?_
      exact ih (k, v) (mem_of_get? hv) old (hbase.of_get? hold)
    · -- the whole overlay was taken over
      rw [merge_object_of_ne_object fun bs hbs => hobject ⟨bs, hbs⟩]
      exact merge_self hos

/-- **Merging is idempotent:** an overlay merged a second time changes nothing, and neither does a
value merged over itself. -/
theorem merge_idempotent :
    (∀ base overlay : Value, base.Ordered → overlay.Ordered →
      merge (merge base overlay) overlay = merge base overlay) ∧
    ∀ v : Value, v.Ordered → merge v v = v :=
  ⟨fun _ _ hbase hoverlay => merge_merge hbase hoverlay, fun _ h => merge_self h⟩

/-- The second time the nulls that were taken over stay, and the theme is an object already. -/
theorem merge_overlayDocument_again :
    merge (merge baseDocument overlayDocument) overlayDocument
      = merge baseDocument overlayDocument ∧
    merge overlayDocument overlayDocument = overlayDocument := by
  have hbase : baseDocument.Ordered := Value.ordered_sorted _
  have hoverlay : overlayDocument.Ordered := Value.ordered_sorted _
  exact ⟨merge_idempotent.1 _ _ hbase hoverlay, merge_idempotent.2 _ hoverlay⟩

end Json
end SnippetConsole
