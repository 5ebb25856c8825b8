/-
# Two ways to the standard settings

What a document does not say is as in the standard settings. That can come about in two ways: the
document is merged over the standard one and the result is read, or it is read alone, each record
starting from its blank. Nulls keep the standard where documents are merged, and a record accepts
few of them; so before the document is read alone, the members of objects that are null are left out
(`Value.withoutNulls`).

Both ways agree (`Agrees`) for whatever refuses objects, if the standard value is no object
(`agrees_of_refusesObjects`), and for a record if they agree for each of its fields and the standard
document says of a field what the blank record has, or nothing (`agrees_record`). So they agree for each
section and for the settings (`agrees_standard`), whatever the document is.
-/

import SnippetConsole.Proofs.RecordFields
import SnippetConsole.Settings.Store

namespace SnippetConsole
namespace Json

variable {α β ρ : Type}

/-! ### Leaving nulls out -/

mutual

/-- The value without the members that are null, in objects within objects. -/
def Value.withoutNulls : Value → Value
  | .object ms => .object (membersWithoutNulls ms)
  | v => v

/-- The members that are not null, without the nulls in them. -/
def membersWithoutNulls : Members → Members
  | [] => []
  | (k, v) :: ms =>
    if v.isNull then membersWithoutNulls ms else (k, v.withoutNulls) :: membersWithoutNulls ms

end

theorem Value.withoutNulls_object (ms : Members) :
    (Value.object ms).withoutNulls = .object (membersWithoutNulls ms) := by
  rw [withoutNulls]

/-- Only objects have members to leave out. -/
theorem Value.withoutNulls_of_ne_object {v : Value} (h : ∀ ms, v ≠ .object ms) :
    v.withoutNulls = v := by
  cases v with
  | object ms => exact absurd rfl (h ms)
  | null => simp [withoutNulls]
  | bool b => simp [withoutNulls]
  | number n => simp [withoutNulls]
  | string s => simp [withoutNulls]
  | array vs => simp [withoutNulls]

theorem keys_membersWithoutNulls_sublist (ms : Members) :
    (keys (membersWithoutNulls ms)).Sublist (keys ms) := by
  induction ms with
  | nil => exact List.Sublist.slnil
  | cons m ms ih =>
    obtain ⟨k, v⟩ := m
    rw [membersWithoutNulls]
    by_cases hnull : v.isNull = true
    · rw [if_pos hnull]
      exact ih.cons k
    · rw [if_neg hnull]
      exact ih.cons_cons k

/-- What is left at a key. -/
theorem get?_membersWithoutNulls {ms : Members} (h : (keys ms).Nodup) (j : String) :
    get? j (membersWithoutNulls ms) =
      (get? j ms).bind fun v => if v.isNull then none else some v.withoutNulls := by
  induction ms with
  | nil => rfl
  | cons m ms ih =>
    obtain ⟨k, v⟩ := m
    obtain ⟨hnew, hrest⟩ := List.nodup_cons.1 h
    rw [membersWithoutNulls, get?_cons]
    by_cases hj : j = k
    · subst hj
      rw [if_pos rfl]
      by_cases hnull : v.isNull = true
      · have hgone : j ∉ keys (membersWithoutNulls ms) := fun hmem =>
          hnew ((keys_membersWithoutNulls_sublist ms).subset hmem)
        rw [if_pos hnull, get?_eq_none.2 hgone, Option.bind_some, if_pos hnull]
      · rw [if_neg hnull, get?_cons, if_pos rfl, Option.bind_some, if_neg hnull]
    · rw [if_neg hj]
      by_cases hnull : v.isNull = true
      · rw [if_pos hnull]
        exact ih hrest
      · rw [if_neg hnull, get?_cons, if_neg hj]
        exact ih hrest

/-! ### Agreement -/

/-- Merged over the base, a document reads as it does alone and without nulls. -/
def Agrees (d : Decoder α) (base : Value) : Prop :=
  ∀ v, v.Ordered → v ≠ .null → d.read? (merge base v) = d.read? v.withoutNulls

/-- No object is read. -/
def RefusesObjects (d : Decoder α) : Prop := ∀ ms, d.read? (.object ms) = none

theorem RefusesObjects.read?_withoutNulls {d : Decoder α} (h : RefusesObjects d) (v : Value) :
    d.read? v.withoutNulls = d.read? v := by
  by_cases hobject : ∃ ms, v = .object ms
  · obtain ⟨ms, rfl⟩ := hobject
    rw [Value.withoutNulls_object, h, h]
  · rw [Value.withoutNulls_of_ne_object fun ms hv => hobject ⟨ms, hv⟩]

/-- **What refuses objects agrees** over a base that is none. -/
theorem agrees_of_refusesObjects {d : Decoder α} (h : RefusesObjects d) {base : Value}
    (hbase : ∀ ms, base ≠ .object ms) : Agrees d base := by
  intro v _ hnull
  rw [h.read?_withoutNulls]
  by_cases hobject : ∃ ms, v = .object ms
  · obtain ⟨ms, rfl⟩ := hobject
    rw [merge_object_of_ne_object hbase]
  · rw [merge_of_ne_object hnull fun ms hv => hobject ⟨ms, hv⟩]

theorem refusesObjects_bool : RefusesObjects .bool := fun _ => rfl

theorem refusesObjects_string : RefusesObjects .string := fun _ => rfl

theorem refusesObjects_optionalString : RefusesObjects .optionalString := fun _ => rfl

theorem refusesObjects_word : RefusesObjects .word := fun _ => rfl

theorem refusesObjects_byte : RefusesObjects .byte := fun _ => rfl

theorem refusesObjects_list (d : Decoder α) : RefusesObjects (.list d) := fun _ => rfl

/-- The base says of a field what the record has, and they agree on it; or the base says nothing and
the field refuses objects. -/
inductive Field.Defaulted (base : Members) (r : ρ) : Field ρ → Prop
  | given {γ : Type} {key : String} {d : Decoder γ} {put : γ → ρ → ρ} {v : Value} {a : γ}
    (hbase : get? key base = some v) (hagrees : Agrees d v) (hread : d.read? v = some a)
    (hput : put a r = r) : Defaulted base r (.optional key d put)
  | absent {γ : Type} {key : String} {d : Decoder γ} {put : γ → ρ → ρ}
    (hbase : get? key base = none) (hrefuses : RefusesObjects d) :
    Defaulted base r (.optional key d put)

/-- A field that refuses objects, where what the base says of it is what the record has. -/
theorem Field.Defaulted.plain {base : Members} {r : ρ} {key : String} {d : Decoder α}
    {put : α → ρ → ρ} (hrefuses : RefusesObjects d)
    (hread : ((get? key base).bind d.read?).map (put · r) = some r) :
    Field.Defaulted base r (.optional key d put) := by
  obtain ⟨a, ha, hput⟩ := Option.map_eq_some_iff.1 hread
  obtain ⟨v, hv, hread⟩ := Option.bind_eq_some_iff.1 ha
  have hobject : ∀ ms, v ≠ .object ms := by
    rintro ms rfl
    rw [hrefuses ms] at hread
    cases hread
  exact .given hv (agrees_of_refusesObjects hrefuses hobject) hread hput

namespace Shape

theorem effect_optional (ms : Members) (key : String) (d : Decoder α) (put : α → ρ → ρ) :
    effect ms (.optional key d put) = (get? key ms).map fun v => (d.read? v).map put := by
  have hdecoder : (Field.optional key d put).decoder.read? = fun v => (d.read? v).map put :=
    funext fun v => Decoder.read?_map put d v
  rw [effect, hdecoder]
  rfl

/-- **Merged or without nulls, an overlay does the same to a field,** or it does nothing without
nulls and what the record has already when merged. -/
theorem effect_mergeMembers {base overlay : Members} (hoverlay : (Value.object overlay).Ordered)
    {r : ρ} {f : Field ρ} (hf : f.Defaulted base r) :
    effect (mergeMembers base overlay) f = effect (membersWithoutNulls overlay) f ∨
      effect (membersWithoutNulls overlay) f = none ∧
        ∃ p, effect (mergeMembers base overlay) f = some (some p) ∧ p r = r := by
  have hnodup := hoverlay.increasing.nodup
  cases hf with
  | @given γ key d put base₀ a hbase hagrees hread hput =>
    have hdefault : (d.read? base₀).map put = some (put a) := by rw [hread, Option.map_some]
    rw [effect_optional, effect_optional, get?_mergeMembers hnodup,
      get?_membersWithoutNulls hnodup, hbase]
    rcases hv : get? key overlay with _ | v
    · rw [mergedAt_none, Option.map_some, hdefault]
      exact .inr ⟨rfl, put a, rfl, hput⟩
    · rw [mergedAt, Option.map_some, Option.bind_some]
      by_cases hnull : v.isNull = true
      · obtain rfl := Value.isNull_iff.1 hnull
        rw [merge_null, if_pos hnull, hdefault]
        exact .inr ⟨rfl, put a, rfl, hput⟩
      · have hne : v ≠ .null := fun heq => hnull (Value.isNull_iff.2 heq)
        rw [if_neg hnull, Option.map_some, hagrees v (hoverlay.of_get? hv) hne]
        exact .inl rfl
  | @absent γ key d put hbase hrefuses =>
    rw [effect_optional, effect_optional, get?_mergeMembers hnodup,
      get?_membersWithoutNulls hnodup, hbase]
    rcases get? key overlay with _ | v
    · exact .inl rfl
    · rw [mergedAt, Option.bind_some]
      by_cases hnull : v.isNull = true
      · rw [if_pos hnull, if_pos hnull]
        exact .inl rfl
      · rw [if_neg hnull, if_neg hnull, Option.map_some, Option.map_some,
          hrefuses.read?_withoutNulls]
        exact .inl rfl

/-- **A record agrees over a base that defaults each of its fields.** -/
theorem agrees_record {S : Shape ρ} (hS : S.Independent) {base : Members}
    (hbase : Increasing base) (hfields : ∀ f ∈ S.fields, f.Defaulted base S.blank) :
    Agrees S.decoder (.object base) := by
  have hrequired : ∀ f ∈ S.fields, f.required = false := by
    intro f hf
    cases hfields f hf with
    | given => rfl
    | absent => rfl
  intro v hordered hnull
  by_cases hobject : ∃ ms, v = .object ms
  · obtain ⟨overlay, rfl⟩ := hobject
    have hmerged := (hbase.mergeMembers overlay).nodup
    have hleft := hordered.increasing.nodup.sublist (keys_membersWithoutNulls_sublist overlay)
    rw [merge_object, Value.withoutNulls_object,
      read?_object hS hmerged (missing?_eq_none hrequired _),
      read?_object hS hleft (missing?_eq_none hrequired _)]
    exact readFields_of_neutral hS.commutes fun f hf =>
      effect_mergeMembers hordered (hfields f hf)
  · have hv : ∀ ms, v ≠ .object ms := fun ms heq => hobject ⟨ms, heq⟩
    rw [merge_of_ne_object hnull hv, Value.withoutNulls_of_ne_object hv]

end Shape
end Json

namespace Settings

open Json (Agrees Field Shape Value)

/-! ### The sections -/

theorem Console.independent_shape : Console.shape.Independent where
  nodup := by decide
  commutes := by
    simp only [Console.shape, List.pairwise_cons]
    and_intros <;> simp [Field.optional, Field.commutes_map]

theorem Workspace.independent_shape : Workspace.shape.Independent where
  nodup := by decide
  commutes := List.pairwise_singleton _ _

theorem Toolchain.independent_shape : Toolchain.shape.Independent where
  nodup := by decide
  commutes := by
    simp only [Toolchain.shape, List.pairwise_cons]
    and_intros <;> simp [Field.optional, Field.commutes_map]

theorem Logging.independent_shape : Logging.shape.Independent where
  nodup := by decide
  commutes := List.pairwise_singleton _ _

theorem independent_shape : shape.Independent where
  nodup := by decide
  commutes := by
    simp only [shape, List.pairwise_cons]
    and_intros <;> simp [Field.optional, Field.commutes_map]

/-- **The console section agrees** over the standard one. -/
theorem Console.agrees_standard :
    Agrees Console.shape.decoder Console.standard.toValue.sorted := by
  refine Shape.agrees_record Console.independent_shape (Json.increasing_ofMembers _) ?_
  simp only [Console.shape, List.forall_mem_cons]
  refine ⟨?maxHistoryLength, ?formatString, ?showOnMessage, ?showOnWarning, ?showOnError,
    ?autoScrollToBottom, ?forwardTracing, ?logPanics, nofun⟩
  case maxHistoryLength => exact .plain Json.refusesObjects_word rfl
  case formatString => exact .plain Json.refusesObjects_string rfl
  all_goals exact .plain Json.refusesObjects_bool rfl

/-- **The workspace section agrees.** The standard one has no path. -/
theorem Workspace.agrees_standard :
    Agrees Workspace.shape.decoder Workspace.standard.toValue.sorted := by
  refine Shape.agrees_record Workspace.independent_shape (Json.increasing_ofMembers _) ?_
  simp only [Workspace.shape, List.forall_mem_cons]
  refine ⟨?path, nofun⟩
  case path => exact .absent rfl Json.refusesObjects_optionalString

/-- **The toolchain section agrees.** The standard one has no program. -/
theorem Toolchain.agrees_standard :
    Agrees Toolchain.shape.decoder Toolchain.standard.toValue.sorted := by
  refine Shape.agrees_record Toolchain.independent_shape (Json.increasing_ofMembers _) ?_
  simp only [Toolchain.shape, List.forall_mem_cons]
  refine ⟨?rustc, ?optLevel, ?extraArgs, ?references, ?libraryPaths, ?prelude, nofun⟩
  case rustc => exact .absent rfl Json.refusesObjects_optionalString
  case optLevel => exact .plain Json.refusesObjects_byte rfl
  all_goals exact .plain (Json.refusesObjects_list _) rfl

/-- **The logging section agrees.** -/
theorem Logging.agrees_standard :
    Agrees Logging.shape.decoder Logging.standard.toValue.sorted := by
  refine Shape.agrees_record Logging.independent_shape (Json.increasing_ofMembers _) ?_
  simp only [Logging.shape, List.forall_mem_cons]
  refine ⟨?level, nofun⟩
  case level => exact .plain Json.refusesObjects_string rfl

/-- **The settings agree** over the standard ones. -/
theorem agrees_standard : Agrees shape.decoder standardValue := by
  refine Shape.agrees_record independent_shape (Json.increasing_ofMembers _) ?_
  simp only [shape, List.forall_mem_cons]
  refine ⟨?version, ?console, ?workspace, ?toolchain, ?logging, nofun⟩
  case version => exact .plain Json.refusesObjects_string rfl
  case console => exact .given rfl Console.agrees_standard rfl rfl
  case workspace => exact .given rfl Workspace.agrees_standard rfl rfl
  case toolchain => exact .given rfl Toolchain.agrees_standard rfl rfl
  case logging => exact .given rfl Logging.agrees_standard rfl rfl

/-- **Two ways to the standard settings.** A document merged over the standard ones is read exactly if
the document alone is read without its nulls, and as the same settings. -/
theorem ofValue_merge_standardValue_iff {v : Value} (hordered : v.Ordered) (hnull : v ≠ .null)
    (s : Settings) :
    ofValue (Json.merge standardValue v) = .ok s ↔ ofValue v.withoutNulls = .ok s := by
  have hread := agrees_standard v hordered hnull
  unfold ofValue
  rw [← Json.Decoder.read?_eq_some, ← Json.Decoder.read?_eq_some, hread]

/-- A document with a null, an unknown member that holds a null, and a section that is a list. -/
def sparseDocument : Value :=
  Value.sorted <| .object [
    ("console", .object [("maxHistoryLength", .ofNat 5), ("formatString", .null)]),
    ("editor", .object [("theme", .null)]),
    ("logging", .array [.string "info"]),
    ("workspace", .null)]

/-- It sets two fields, in both ways. -/
theorem ofValue_sparseDocument :
    ofValue sparseDocument.withoutNulls = .ok { standard with
      console.maxHistoryLength := 5
      logging.level := "info" } ∧
    ofValue (Json.merge standardValue sparseDocument) = .ok { standard with
      console.maxHistoryLength := 5
      logging.level := "info" } := by
  have halone : ofValue sparseDocument.withoutNulls = .ok { standard with
      console.maxHistoryLength := 5
      logging.level := "info" } := rfl
  have hordered : sparseDocument.Ordered := Json.Value.ordered_sorted _
  have hnull : sparseDocument ≠ .null := nofun
  exact ⟨halone, (ofValue_merge_standardValue_iff hordered hnull _).2 halone⟩

end Settings
end SnippetConsole
