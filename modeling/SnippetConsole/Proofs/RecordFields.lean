/-
# Records field by field

An object is read member by member, in the order of its keys. If different fields change different
parts of the record (`Shape.Independent`), that comes to the same as going through the fields in
their declared order and looking each one up (`Shape.readFields`, `Shape.read?_object`). So only what
stands at the keys of fields counts (`readFields_congr`), and a member that says what holds anyway may
as well be left out (`readFields_of_neutral`).

`Decoder.read?` is what a decoder makes of a value, faults left aside.
-/

import SnippetConsole.Json.Decoder
import SnippetConsole.Proofs.JsonMembers

namespace SnippetConsole
namespace Json

variable {α β ρ : Type}

/-! ### What decoders read -/

/-- What a decoder makes of a value, if the value fits. -/
def Decoder.read? (d : Decoder α) (v : Value) : Option α := (d.ofValue v).toOption

namespace Decoder

theorem read?_eq_some {d : Decoder α} {v : Value} {a : α} :
    d.read? v = some a ↔ d.ofValue v = .ok a := by
  rw [read?]
  rcases d.ofValue v with fault | a'
  · simp [Except.toOption]
  · simp [Except.toOption]

theorem toOption_bind {ε : Type} {x : Except ε α} {f : α → Except ε β} :
    (x >>= f).toOption = x.toOption.bind fun a => (f a).toOption := by
  cases x with
  | error e => rfl
  | ok a => rfl

theorem read?_map (f : α → β) (d : Decoder α) (v : Value) :
    (d.map f).read? v = (d.read? v).map f := by
  show (d.ofValue v >>= fun a => Except.ok (f a)).toOption = _
  rw [toOption_bind, read?]
  rcases d.ofValue v with fault | a
  · rfl
  · rfl

/-- A list is read item by item. -/
theorem read?_list_map (d : Decoder α) {f : β → Value} {g : β → α}
    (h : ∀ b, d.read? (f b) = some (g b)) (bs : List β) :
    (Decoder.list d).read? (.array (bs.map f)) = some (bs.map g) := by
  have hitems : (bs.map f).mapM d.ofValue = .ok (bs.map g) := by
    induction bs with
    | nil => rfl
    | cons b bs ih =>
      have hb : d.ofValue (f b) = .ok (g b) := read?_eq_some.1 (h b)
      rw [List.map_cons, List.mapM_cons, hb, ih]
      rfl
  exact read?_eq_some.2 hitems

end Decoder

/-! ### Fields -/

namespace Field

/-- What the value of one field does to a record does not depend on whether the other was read
before. -/
def Commutes (f g : Field ρ) : Prop :=
  ∀ v w p q, f.decoder.read? v = some p → g.decoder.read? w = some q → ∀ r, p (q r) = q (p r)

/-- Fields whose changes commute. -/
theorem commutes_map {key key' : String} {required required' : Bool} {d : Decoder α}
    {d' : Decoder β} {put : α → ρ → ρ} {put' : β → ρ → ρ}
    (h : ∀ a b r, put a (put' b r) = put' b (put a r)) :
    Commutes ⟨key, required, d.map put⟩ ⟨key', required', d'.map put'⟩ := by
  intro v w p q hp hq r
  rw [Decoder.read?_map] at hp hq
  obtain ⟨a, -, rfl⟩ := Option.map_eq_some_iff.1 hp
  obtain ⟨b, -, rfl⟩ := Option.map_eq_some_iff.1 hq
  exact h a b r

end Field

namespace Shape

/-- The fields have different keys and change different parts of a record. -/
structure Independent (S : Shape ρ) : Prop where
  nodup : (S.fields.map (·.key)).Nodup
  commutes : S.fields.Pairwise Field.Commutes

/-- The record with each of the fields `fs` as the members have it, the first field first. -/
def readFields (ms : Members) : (fs : List (Field ρ)) → ρ → Option ρ
  | [], r => some r
  | f :: fs, r =>
    match get? f.key ms with
    | none => readFields ms fs r
    | some v => (f.decoder.read? v).bind fun p => readFields ms fs (p r)

/-- What stands at the key of a field, read: none if nothing does, else whether it fits and what it
does to a record. -/
def effect (ms : Members) (f : Field ρ) : Option (Option (ρ → ρ)) :=
  (get? f.key ms).map f.decoder.read?

theorem readFields_cons (ms : Members) (f : Field ρ) (fs : List (Field ρ)) (r : ρ) :
    readFields ms (f :: fs) r =
      match effect ms f with
      | none => readFields ms fs r
      | some read => read.bind fun p => readFields ms fs (p r) := by
  rw [readFields, effect]
  rcases get? f.key ms with _ | v
  · rfl
  · rfl

/-- **A member may be left out if it changes nothing.** Where the members differ from others, they
say what the record has already. -/
theorem readFields_of_neutral {ms ms' : Members} {fs : List (Field ρ)}
    (hcommutes : fs.Pairwise Field.Commutes) {r : ρ}
    (h : ∀ f ∈ fs, effect ms f = effect ms' f ∨
      effect ms' f = none ∧ ∃ p, effect ms f = some (some p) ∧ p r = r) :
    readFields ms fs r = readFields ms' fs r := by
  induction fs generalizing r with
  | nil => rfl
  | cons f fs ih =>
    obtain ⟨hfirst, hrest⟩ := List.pairwise_cons.1 hcommutes
    have hothers := fun g hg => h g (List.mem_cons_of_mem f hg)
    rw [readFields_cons, readFields_cons]
    rcases h f List.mem_cons_self with heq | ⟨hnone, p, hsome, hr⟩
    · rw [heq]
      rcases heffect : effect ms' f with _ | read
      · exact ih hrest hothers
      · rcases read with _ | p
        · rfl
        · refine ih hrest fun g hg => ?_
          rcases hothers g hg with hsame | ⟨hnone, q, hq, hr⟩
          · exact .inl hsame
          · -- what the first field does leaves the part of `g` alone
            refine .inr ⟨hnone, q, hq, ?_⟩
            obtain ⟨v, -, hv⟩ := Option.map_eq_some_iff.1 heffect
            obtain ⟨w, -, hw⟩ := Option.map_eq_some_iff.1 hq
            rw [← hfirst g hg v w p q hv hw r, hr]
    · rw [hnone, hsome]
      show readFields ms fs (p r) = _
      rw [hr]
      exact ih hrest hothers

/-- Only what stands at the keys of the fields counts. -/
theorem readFields_congr {ms ms' : Members} {fs : List (Field ρ)}
    (hcommutes : fs.Pairwise Field.Commutes) {r : ρ}
    (h : ∀ f ∈ fs, effect ms f = effect ms' f) : readFields ms fs r = readFields ms' fs r :=
  readFields_of_neutral hcommutes fun f hf => .inl (h f hf)

theorem effect_cons_of_ne {k : String} {f : Field ρ} (hk : f.key ≠ k) (v : Value) (ms : Members) :
    effect ((k, v) :: ms) f = effect ms f := by
  rw [effect, effect, get?_cons, if_neg hk]

/-- A first member can be read before all others. -/
theorem readFields_cons_member {fs : List (Field ρ)} (hcommutes : fs.Pairwise Field.Commutes)
    (hnodup : (fs.map (·.key)).Nodup) {f : Field ρ} (hf : f ∈ fs) {ms : Members}
    (hnew : get? f.key ms = none) (v : Value) (r : ρ) :
    readFields ((f.key, v) :: ms) fs r =
      (f.decoder.read? v).bind fun p => readFields ms fs (p r) := by
  induction fs generalizing r with
  | nil => exact absurd hf List.not_mem_nil
  | cons g fs ih =>
    obtain ⟨hfirst, hrest⟩ := List.pairwise_cons.1 hcommutes
    obtain ⟨hkey, hkeys⟩ := List.nodup_cons.1 hnodup
    rw [readFields_cons]
    rcases List.mem_cons.1 hf with rfl | hf
    · -- the member is that of the first field and of no other
      have hothers : ∀ g ∈ fs, effect ((f.key, v) :: ms) g = effect ms g := fun g hg =>
        effect_cons_of_ne (fun heq => hkey (List.mem_map.2 ⟨g, hg, heq⟩)) v ms
      have hhere : effect ((f.key, v) :: ms) f = some (f.decoder.read? v) := by
        rw [effect, get?_cons, if_pos rfl, Option.map_some]
      have hnone : effect ms f = none := by rw [effect, hnew, Option.map_none]
      rw [hhere]
      refine Option.bind_congr fun p _ => ?_
      have hskip : readFields ms (f :: fs) (p r) = readFields ms fs (p r) := by
        rw [readFields_cons, hnone]
      rw [hskip]
      exact readFields_congr hrest hothers
    · have hne : g.key ≠ f.key := fun heq => hkey (List.mem_map.2 ⟨f, hf, heq.symm⟩)
      rw [effect_cons_of_ne hne]
      have hsplit (r : ρ) : readFields ms (g :: fs) r =
          match effect ms g with
          | none => readFields ms fs r
          | some read => read.bind fun q => readFields ms fs (q r) := readFields_cons ms g fs r
      rcases heffect : effect ms g with _ | read
      · simp only [hsplit, heffect]
        exact ih hrest hkeys hf r
      · simp only [hsplit, heffect]
        rcases read with _ | q
        · exact (Option.bind_fun_none _).symm
        · obtain ⟨w, -, hw⟩ := Option.map_eq_some_iff.1 heffect
          refine (ih hrest hkeys hf (q r)).trans (Option.bind_congr fun p hp => ?_)
          have hswap : q (p r) = p (q r) := hfirst f hf w v q p hw hp r
          rw [Option.bind_some, hswap]

variable {S : Shape ρ}

theorem field?_eq_some {key : String} {f : Field ρ} (h : S.field? key = some f) :
    f ∈ S.fields ∧ f.key = key := by
  refine ⟨List.mem_of_find?_eq_some h, ?_⟩
  simpa using List.find?_some h

theorem field?_eq_none {key : String} (h : S.field? key = none) :
    ∀ f ∈ S.fields, f.key ≠ key := by
  intro f hf
  simpa using List.find?_eq_none.1 h f hf

/-- Members put into a record one after the other. -/
theorem toOption_foldlM_putMember (hS : S.Independent) {ms : Members} (hms : (keys ms).Nodup)
    (r : ρ) : (ms.foldlM S.putMember r).toOption = readFields ms S.fields r := by
  induction ms generalizing r with
  | nil =>
    have hnone : ∀ fs : List (Field ρ), readFields [] fs r = some r := by
      intro fs
      induction fs with
      | nil => rfl
      | cons f fs ih => exact ih
    exact (hnone S.fields).symm
  | cons m ms ih =>
    obtain ⟨k, v⟩ := m
    obtain ⟨hnew, hrest⟩ := List.nodup_cons.1 hms
    rw [List.foldlM_cons, Decoder.toOption_bind]
    rcases hfield : S.field? k with _ | f
    · have hput : S.putMember r (k, v) = .ok r := by simp only [putMember, hfield]
      rw [hput]
      refine (ih hrest r).trans (readFields_congr hS.commutes fun f hf => ?_)
      exact (effect_cons_of_ne (field?_eq_none hfield f hf) v ms).symm
    · obtain ⟨hf, rfl⟩ := field?_eq_some hfield
      have hput : (S.putMember r (f.key, v)).toOption
          = (f.decoder.read? v).map fun p => p r := by
        simp only [putMember, hfield]
        rw [Decoder.toOption_bind, Decoder.read?]
        rcases f.decoder.ofValue v with fault | p
        · rfl
        · rfl
      rw [hput, readFields_cons_member hS.commutes hS.nodup hf (get?_eq_none.2 hnew),
        Option.bind_map]
      exact Option.bind_congr fun p _ => ih hrest (p r)

/-- **An object is read field by field,** if no required field is missing. -/
theorem read?_object (hS : S.Independent) {ms : Members} (hms : (keys ms).Nodup)
    (hthere : S.missing? (keys ms) = none) :
    S.decoder.read? (.object ms) = readFields ms S.fields S.blank := by
  have hfold := toOption_foldlM_putMember hS hms S.blank
  show (S.ofObject ms).toOption = _
  have hkeys : S.missing? (ms.map (·.1)) = none := hthere
  rw [ofObject, Decoder.toOption_bind, hfold, hkeys]
  exact Option.bind_fun_some _

/-- A record without required fields lacks none. -/
theorem missing?_eq_none (h : ∀ f ∈ S.fields, f.required = false) (present : List String) :
    S.missing? present = none := by
  refine List.find?_eq_none.2 fun f hf => ?_
  simp [h f hf]

end Shape
end Json
end SnippetConsole
