/-
# Filling the slots of a template

A line of the log is made by five replacements, one after the other. Read as one pass, which fills
all slots from left to right and never looks at what it has put in, a template gives another text
(`Text.fill`). The two differ where a text that was put in takes part in a slot that is filled
later: it contains the slot, or completes it together with what stands around it. A text that never
does so is `Inert` for the slot, and that can be computed.

| filled | value | inert for later slots |
| ---: | --- | --- |
| 1 | severity | yes, for `caller` and for all others |
| 2 | caller | only if the caller is so for `count`, `time` and `message` |
| 3 | count | yes, it is digits |
| 4 | time | yes, it is digits and colons |
| 5 | message | there is no later slot |

So a line is always made by two passes, one for the severity and the caller and one for the count,
the time and the message (`Log.Entry.format_eq`). They are one pass for all templates just if the
caller is inert. A caller such as `\x7b\x7bcount\x7d\x7d` is not.
-/

import SnippetConsole.Log.Format
import SnippetConsole.Proofs.TextOccurrence
import Mathlib.Data.List.Nodup

namespace SnippetConsole
namespace Text

/-! ### One pass -/

/-- A slot and the text that goes into it. -/
structure Filling where
  slot : List Char
  value : List Char
  deriving DecidableEq, Repr

/-- The first of the fillings whose slot stands at the beginning of a text. -/
def filling? (fs : List Filling) (cs : List Char) : Option Filling :=
  fs.find? (·.slot.isPrefixOf cs)

/-- A text with its slots filled in one pass from left to right. What is put in is not looked at
again, and all else stays. -/
def fillChars (fs : List Filling) : List Char → List Char
  | [] => []
  | c :: cs =>
    match filling? fs (c :: cs) with
    | none => c :: fillChars fs cs
    | some f => f.value ++ fillChars fs (cs.drop (f.slot.length - 1))
termination_by cs => cs.length
decreasing_by
  · simp
  · simp only [List.length_drop, List.length_cons]; omega

/-- A template with the slots of a table filled in one pass. -/
def fill (table : List (String × String)) (template : String) : String :=
  String.ofList (fillChars (table.map fun p => ⟨p.1.toList, p.2.toList⟩) template.toList)

variable {fs early late : List Filling} {f g : Filling} {cs : List Char}

theorem filling?_eq_none : filling? fs cs = none ↔ ∀ f ∈ fs, ¬f.slot <+: cs := by
  rw [filling?, List.find?_eq_none]
  simp only [List.isPrefixOf_iff_prefix]

/-- A filling that is found is one of them, and its slot is there. -/
theorem filling?_eq_some (h : filling? fs cs = some f) : f ∈ fs ∧ f.slot <+: cs :=
  ⟨List.mem_of_find?_eq_some h, List.isPrefixOf_iff_prefix.1 (by simpa using List.find?_some h)⟩

theorem fillChars_of_none {c : Char} (h : filling? fs (c :: cs) = none) :
    fillChars fs (c :: cs) = c :: fillChars fs cs := by
  rw [fillChars, h]

theorem fillChars_of_some {c : Char} (h : filling? fs (c :: cs) = some f) :
    fillChars fs (c :: cs) = f.value ++ fillChars fs (cs.drop (f.slot.length - 1)) := by
  rw [fillChars, h]

/-- If no slot begins another, a slot that stands at the beginning is the one that is found. -/
theorem filling?_slot (hbegins : ∀ f ∈ fs, ∀ g ∈ fs, f.slot <+: g.slot → f = g) (hf : f ∈ fs)
    (cs : List Char) : filling? fs (f.slot ++ cs) = some f := by
  rcases hfound : filling? fs (f.slot ++ cs) with _ | g
  · exact absurd (List.prefix_append _ _) (filling?_eq_none.1 hfound f hf)
  · obtain ⟨hg, hstart⟩ := filling?_eq_some hfound
    rcases List.prefix_or_prefix_of_prefix hstart (List.prefix_append f.slot cs) with hgf | hfg
    · rw [hbegins g hg f hf hgf]
    · rw [hbegins f hf g hg hfg]

/-- That slot is filled. -/
theorem fillChars_slot (hslot : f.slot ≠ []) (h : filling? fs (f.slot ++ cs) = some f) :
    fillChars fs (f.slot ++ cs) = f.value ++ fillChars fs cs := by
  obtain ⟨d, slot, hcons⟩ := List.exists_cons_of_ne_nil hslot
  rw [hcons, List.cons_append] at h ⊢
  rw [fillChars_of_some h, hcons]
  simp

/-! ### Texts that take no part in a slot -/

/-- Between a beginning and an end of the slot, neither of them all of it, the text never makes the
slot. -/
def Inert (slot value : List Char) : Prop :=
  ∀ x y, x <+: slot → x ≠ slot → y <:+ slot → y ≠ slot → ¬slot <:+: x ++ value ++ y

/-- The beginnings and ends of a slot can be tried out. -/
instance (slot value : List Char) : Decidable (Inert slot value) :=
  decidable_of_iff
    (∀ x ∈ slot.inits, ∀ y ∈ slot.tails, x ≠ slot → y ≠ slot → ¬slot <:+: x ++ value ++ y) <| by
    simp only [List.mem_inits, List.mem_tails]
    exact ⟨fun h x y hx hx' hy hy' => h x hx y hy hx' hy',
      fun h x hx y hy hx' hy' => h x y hx hx' hy hy'⟩

variable {slot value : List Char}

/-- **No slot begins inside an inert text.** -/
theorem Inert.not_prefix_append (h : Inert slot value) (hslot : slot ≠ []) {r : List Char}
    (hr : r <:+ value) (hne : r ≠ []) (more : List Char) : ¬slot <+: r ++ more := by
  intro hstart
  obtain ⟨before, rfl⟩ := hr
  rcases prefix_append_cases hstart with hin | ⟨z, hz, rfl, -⟩
  · refine h [] [] List.nil_prefix hslot.symm List.nil_suffix hslot.symm ?_
    simpa using hin.isInfix.trans (List.suffix_append before r).isInfix
  · have hz' : z ≠ r ++ z := fun heq => hne (by simpa using heq)
    refine h [] z List.nil_prefix hslot.symm (List.suffix_append r z) hz' ?_
    exact ⟨before, [], by simp⟩

/-- **No slot reaches into an inert text** or over it. -/
theorem Inert.prefix_of_prefix_append (h : Inert slot value) {p more : List Char} (hp : p ≠ [])
    (hstart : slot <+: p ++ (value ++ more)) : slot <+: p := by
  rcases prefix_append_cases hstart with hin | ⟨r, hr, rfl, hrest⟩
  · exact hin
  · exfalso
    have hp' : p ≠ p ++ r := fun heq => hr (by simpa using heq)
    rcases prefix_append_cases hrest with hin | ⟨z, -, rfl, -⟩
    · refine h p [] (List.prefix_append p r) hp' List.nil_suffix (by simp [hp]) ?_
      rw [List.append_nil]
      exact ((List.prefix_append_right_inj p).2 hin).isInfix
    · have hz : z ≠ p ++ (value ++ z) := fun heq => hp <| by
        rw [← List.append_assoc] at heq
        exact (List.append_eq_nil_iff.1 (List.self_eq_append_left.1 heq)).1
      refine h p z (List.prefix_append _ _) hp' ?_ hz ?_
      · exact ⟨p ++ value, by simp⟩
      · exact ⟨[], [], by simp⟩

/-- Neither of two texts is part of the other, and no end of one is a beginning of the other. -/
def Unlinked (slot value : List Char) : Prop :=
  ¬value <:+: slot ∧ ¬slot <:+: value ∧ (∀ r ∈ slot.tails, r ≠ [] → ¬r <+: value) ∧
    ∀ r ∈ value.tails, r ≠ [] → ¬r <+: slot

instance (slot value : List Char) : Decidable (Unlinked slot value) :=
  inferInstanceAs (Decidable (_ ∧ _))

/-- **Texts that are not linked** make no slot in any surroundings. -/
theorem Unlinked.inert (h : Unlinked slot value) : Inert slot value := by
  obtain ⟨hvalue, hslot, hends, hbegins⟩ := h
  intro x y hx hx' hy hy' hin
  have hnotX : ¬slot <:+: x := fun h => hx' (hx.eq_of_length_le h.length_le)
  have hnotY : ¬slot <:+: y := fun h => hy' (hy.eq_of_length_le h.length_le)
  rcases List.infix_append_iff.1 hin with hin | hin | ⟨l, r, rfl, hl, hr⟩
  · rcases List.infix_append_iff.1 hin with hin | hin | ⟨l, r, rfl, hl, hr⟩
    · exact hnotX hin
    · exact hslot hin
    · rcases eq_or_ne r [] with rfl | hne
      · exact hnotX (by simpa using hl.isInfix)
      · exact hends r ((List.mem_tails _ _).2 (List.suffix_append l r)) hne hr
  · exact hnotY hin
  · rcases List.suffix_or_suffix_of_suffix hl (List.suffix_append x value) with hl | ⟨z, rfl⟩
    · rcases eq_or_ne l [] with rfl | hne
      · exact hnotY hr.isInfix
      · exact hbegins l ((List.mem_tails _ _).2 hl) hne (List.prefix_append l r)
    · exact hvalue ⟨z, r, rfl⟩

/-- A text without any character of the slot is not linked to it, unless it is empty. -/
theorem unlinked_of_disjoint (hslot : slot ≠ []) (hvalue : value ≠ [])
    (h : ∀ c ∈ value, c ∉ slot) : Unlinked slot value := by
  have hapart (r : List Char) (hne : r ≠ []) : r ⊆ value → ¬r ⊆ slot := fun hv hs =>
    h (r.head hne) (hv (List.head_mem hne)) (hs (List.head_mem hne))
  refine ⟨fun hin => hapart value hvalue (List.Subset.refl _) hin.subset,
    fun hin => hapart slot hslot hin.subset (List.Subset.refl _), fun r hr hne hv => ?_,
    fun r hr hne hs => ?_⟩
  · exact hapart r hne hv.subset ((List.mem_tails _ _).1 hr).subset
  · exact hapart r hne ((List.mem_tails _ _).1 hr).subset hs.subset

/-! ### Passes one after the other -/

/-- A text in which no slot begins goes through a pass as it is. -/
theorem fillChars_append_of_not_prefix {x : List Char}
    (h : ∀ r, r <:+ x → r ≠ [] → ∀ f ∈ fs, ¬f.slot <+: r ++ cs) :
    fillChars fs (x ++ cs) = x ++ fillChars fs cs := by
  induction x with
  | nil => rfl
  | cons c x ih =>
    have hnone : filling? fs (c :: (x ++ cs)) = none :=
      filling?_eq_none.2 (h (c :: x) (List.suffix_refl _) (List.cons_ne_nil c x))
    rw [List.cons_append, fillChars_of_none hnone,
      ih fun r hr => h r (hr.trans (List.suffix_cons c x))]
    rfl

/-- So does a text without any slot. -/
theorem fillChars_eq_self (h : ∀ f ∈ fs, ¬f.slot <:+: cs) : fillChars fs cs = cs := by
  have hall : fillChars fs (cs ++ []) = cs ++ fillChars fs [] :=
    fillChars_append_of_not_prefix fun r hr _ f hf hin =>
      h f hf ((List.append_nil r ▸ hin).isInfix.trans hr.isInfix)
  simpa [fillChars] using hall

/-- **And an inert text,** whatever comes behind it. -/
theorem fillChars_append_of_inert (hslots : ∀ f ∈ fs, f.slot ≠ [])
    (h : ∀ f ∈ fs, Inert f.slot value) (cs : List Char) :
    fillChars fs (value ++ cs) = value ++ fillChars fs cs :=
  fillChars_append_of_not_prefix fun _ hr hne f hf =>
    (h f hf).not_prefix_append (hslots f hf) hr hne cs

/-- **A pass with inert values completes no slot:** one that stands there after it stood there
before. -/
theorem prefix_of_prefix_fillChars (h : ∀ f ∈ fs, Inert slot f.value) {p : List Char} (hp : p ≠ [])
    (cs : List Char) (hstart : slot <+: p ++ fillChars fs cs) : slot <+: p ++ cs := by
  induction cs using fillChars.induct fs generalizing p with
  | case1 => simpa [fillChars] using hstart
  | case2 c cs hnone ih =>
    rw [fillChars_of_none hnone] at hstart
    have hmore := ih (p := p ++ [c]) (by simp) (by simpa using hstart)
    simpa using hmore
  | case3 c cs f hf ih =>
    rw [fillChars_of_some hf] at hstart
    have hin := (h f (filling?_eq_some hf).1).prefix_of_prefix_append hp hstart
    exact hin.trans (List.prefix_append p (c :: cs))

/-- **Two passes are one** if the slots of each do not interfere with those of the other, and no
value of the first is part of a slot of the second. -/
theorem fillChars_append (hslots : ∀ f ∈ early ++ late, f.slot ≠ [])
    (hbegins : ∀ f ∈ late, ∀ g ∈ late, f.slot <+: g.slot → f = g)
    (hapart : ∀ f ∈ early, ∀ g ∈ late, Inert f.slot g.slot)
    (hvalues : ∀ f ∈ early, ∀ g ∈ late, Inert g.slot f.value) (cs : List Char) :
    fillChars (early ++ late) cs = fillChars late (fillChars early cs) := by
  have hearly : ∀ f ∈ early, f.slot ≠ [] := fun f hf => hslots f (List.mem_append_left _ hf)
  have hlate : ∀ f ∈ late, f.slot ≠ [] := fun f hf => hslots f (List.mem_append_right _ hf)
  induction cs using fillChars.induct (early ++ late) with
  | case1 => simp [fillChars]
  | case2 c cs hnone ih =>
    have hboth := filling?_eq_none.1 hnone
    have hnoneEarly : filling? early (c :: cs) = none :=
      filling?_eq_none.2 fun f hf => hboth f (List.mem_append_left _ hf)
    -- what the first pass puts in behind `c` does not make a slot that begins with `c`
    have hnoneLate : filling? late (c :: fillChars early cs) = none :=
      filling?_eq_none.2 fun g hg hstart => hboth g (List.mem_append_right _ hg)
        (prefix_of_prefix_fillChars (fun f hf => hvalues f hf g hg) (List.cons_ne_nil c []) cs
          hstart)
    rw [fillChars_of_none hnone, fillChars_of_none hnoneEarly, fillChars_of_none hnoneLate, ih]
  | case3 c cs f hf ih =>
    obtain ⟨hmem, rest, hrest⟩ := filling?_eq_some hf
    have hdrop : cs.drop (f.slot.length - 1) = rest := by
      obtain ⟨d, slot, hcons⟩ := List.exists_cons_of_ne_nil (hslots f hmem)
      rw [hcons, List.cons_append, List.cons.injEq] at hrest
      rw [hcons, ← hrest.2]
      simp
    rw [hdrop] at ih
    rw [← hrest] at hf ⊢
    rw [fillChars_slot (hslots f hmem) hf, ih]
    rcases hfirst : filling? early (f.slot ++ rest) with _ | e
    · have hfound : filling? late (f.slot ++ rest) = some f := by
        rw [filling?, List.find?_append] at hf
        rw [filling?] at hfirst
        rwa [hfirst, Option.none_or] at hf
      have hflate := (filling?_eq_some hfound).1
      rw [fillChars_append_of_inert hearly (fun e he => hapart e he f hflate),
        fillChars_slot (hlate f hflate) (filling?_slot hbegins hflate _)]
    · have hsame : e = f := by
        rw [filling?, List.find?_append] at hf
        rw [filling?] at hfirst
        rw [hfirst, Option.some_or] at hf
        exact Option.some.inj hf
      subst hsame
      have hearlyMem := (filling?_eq_some hfirst).1
      rw [fillChars_slot (hslots e hmem) hfirst,
        fillChars_append_of_inert hlate fun g hg => hvalues e hearlyMem g hg]

/-- **A pass changes every text with a slot in it,** if no value begins as its slot does. -/
theorem not_infix_of_fillChars_eq_self
    (hvalues : ∀ f ∈ fs, f.slot ≠ [] ∧ f.value ≠ [] ∧ f.value.head? ≠ f.slot.head?)
    (h : fillChars fs cs = cs) : ∀ f ∈ fs, ¬f.slot <:+: cs := by
  induction cs with
  | nil =>
    intro f hf hin
    exact (hvalues f hf).1 (List.eq_nil_of_infix_nil hin)
  | cons c cs ih =>
    rcases hfound : filling? fs (c :: cs) with _ | g
    · rw [fillChars_of_none hfound, List.cons.injEq] at h
      intro f hf hin
      rcases List.infix_cons_iff.1 hin with hstart | hin
      · exact filling?_eq_none.1 hfound f hf hstart
      · exact ih h.2 f hf hin
    · obtain ⟨hg, rest, hrest⟩ := filling?_eq_some hfound
      obtain ⟨hslot, hvalue, hhead⟩ := hvalues g hg
      rw [fillChars_of_some hfound] at h
      have hvalueHead : g.value.head? = some c := by
        rw [← List.head?_append_of_ne_nil _ hvalue, h]
        rfl
      have hslotHead : g.slot.head? = some c := by
        rw [← List.head?_append_of_ne_nil _ hslot, hrest]
        rfl
      exact absurd (hvalueHead.trans hslotHead.symm) hhead

/-- **An inert text stays wherever it stands.** -/
theorem infix_fillChars_of_inert (hslots : ∀ f ∈ fs, f.slot ≠ [])
    (h : ∀ f ∈ fs, Inert f.slot value) (hin : value <:+: cs) : value <:+: fillChars fs cs := by
  have hfront (after : List Char) : value <:+: fillChars fs (value ++ after) := by
    rw [fillChars_append_of_inert hslots h]
    exact (List.prefix_append _ _).isInfix
  induction cs using fillChars.induct fs with
  | case1 => simpa [fillChars] using hin
  | case2 c cs hnone ih =>
    rcases List.infix_cons_iff.1 hin with ⟨after, hstart⟩ | hin
    · exact hstart ▸ hfront after
    · rw [fillChars_of_none hnone]
      exact (ih hin).trans (List.suffix_cons c _).isInfix
  | case3 c cs f hf ih =>
    obtain ⟨hmem, hslot⟩ := filling?_eq_some hf
    obtain ⟨before, after, hcs⟩ := hin
    rw [List.append_assoc] at hcs
    rcases eq_or_ne before [] with rfl | hne
    · exact hcs ▸ hfront after
    · -- the slot that is filled here ends before the text begins
      obtain ⟨rest, rfl⟩ := (h f hmem).prefix_of_prefix_append hne (hcs ▸ hslot)
      have hdrop : cs.drop (f.slot.length - 1) = rest ++ value ++ after := by
        obtain ⟨d, slot, hcons⟩ := List.exists_cons_of_ne_nil (hslots f hmem)
        simp only [hcons, List.cons_append, List.append_assoc, List.cons.injEq] at hcs
        simp [hcons, ← hcs.2]
      rw [fillChars_of_some hf]
      exact (ih ⟨rest, after, hdrop.symm⟩).trans (List.suffix_append _ _).isInfix

/-- **A pass for one slot** puts the value into every text with the slot in it. -/
theorem infix_fillChars_of_slot (hslot : f.slot ≠ []) (hin : f.slot <:+: cs) :
    f.value <:+: fillChars [f] cs := by
  induction cs with
  | nil => exact absurd (List.eq_nil_of_infix_nil hin) hslot
  | cons c cs ih =>
    rcases hfound : filling? [f] (c :: cs) with _ | g
    · rw [fillChars_of_none hfound]
      have hnot := filling?_eq_none.1 hfound f List.mem_cons_self
      have hlater := (List.infix_cons_iff.1 hin).resolve_left hnot
      exact (ih hlater).trans (List.suffix_cons c _).isInfix
    · obtain rfl := List.mem_singleton.1 (filling?_eq_some hfound).1
      rw [fillChars_of_some hfound]
      exact (List.prefix_append _ _).isInfix

/-- Replacing one slot everywhere is a pass for it. -/
theorem replaceChars_eq (c : Char) (slot value cs : List Char) :
    replaceChars c slot value cs = fillChars [⟨c :: slot, value⟩] cs := by
  induction cs using replaceChars.induct c slot with
  | case1 => simp [replaceChars, fillChars]
  | case2 d cs hp ih =>
    have hfound : filling? [⟨c :: slot, value⟩] (d :: cs) = some ⟨c :: slot, value⟩ :=
      List.find?_cons_of_pos hp
    rw [replaceChars, if_pos hp, fillChars_of_some hfound, ih]
    rfl
  | case3 d cs hp ih =>
    have hnone : filling? [⟨c :: slot, value⟩] (d :: cs) = none :=
      List.find?_cons_of_neg hp
    rw [replaceChars, if_neg hp, fillChars_of_none hnone, ih]

/-! ### Tables of texts -/

/-- A pass for one slot. -/
theorem replaceAll_eq_fill {slot : String} (hslot : slot ≠ "") (value template : String) :
    replaceAll slot value template = fill [(slot, value)] template := by
  have hne : slot.toList ≠ [] := fun h => hslot (String.toList_eq_nil_iff.1 h)
  obtain ⟨c, cs, hcons⟩ := List.exists_cons_of_ne_nil hne
  simp only [replaceAll, fill, hcons, replaceChars_eq, List.map_cons, List.map_nil]

/-- Tables whose passes, one after the other, are one. -/
structure Apart (early late : List (String × String)) : Prop where
  ne_empty : ∀ p ∈ early ++ late, p.1 ≠ ""
  begins : ∀ p ∈ late, ∀ q ∈ late, p.1.toList <+: q.1.toList → p = q
  slots : ∀ p ∈ early, ∀ q ∈ late, Inert p.1.toList q.1.toList
  values : ∀ p ∈ early, ∀ q ∈ late, Inert q.1.toList p.2.toList

/-- **Tables that are apart** are filled in one pass or in two. -/
theorem Apart.fill_append {early late : List (String × String)} (h : Apart early late)
    (template : String) : fill (early ++ late) template = fill late (fill early template) := by
  have hpasses (cs : List Char) :
      fillChars ((early ++ late).map fun p => ⟨p.1.toList, p.2.toList⟩) cs
        = fillChars (late.map fun p => ⟨p.1.toList, p.2.toList⟩)
            (fillChars (early.map fun p => ⟨p.1.toList, p.2.toList⟩) cs) := by
    rw [List.map_append]
    refine fillChars_append ?_ ?_ ?_ ?_ cs
    · rw [← List.map_append]
      simpa only [List.forall_mem_map, ne_eq, String.toList_eq_nil_iff] using h.ne_empty
    · simp only [List.forall_mem_map]
      exact fun p hp q hq hpq => by rw [h.begins p hp q hq hpq]
    · simpa only [List.forall_mem_map] using h.slots
    · simpa only [List.forall_mem_map] using h.values
  rw [fill, fill, fill, hpasses, String.toList_ofList]

end Text

/-! ### Lines of the log -/

namespace Log

open Text (Inert Apart Filling fill fillChars)

/-- What is filled in first: the severity and the caller. -/
def Entry.earlyTable (e : Entry) : List (String × String) :=
  [(slot "type", e.severity.name), (slot "caller", e.caller)]

/-- The slots that are filled after the caller. -/
def laterSlots : List String := [slot "count", slot "time", slot "message"]

/-- What is filled in then: the count, the time and the message. -/
def Entry.lateTable (e : Entry) : List (String × String) :=
  [(slot "count", toString e.count), (slot "time", e.time.clockText), (slot "message", e.text)]

/-- All that is filled in. -/
def Entry.table (e : Entry) : List (String × String) := e.earlyTable ++ e.lateTable

/-- All slots. -/
def allSlots : List String := [slot "type", slot "caller"] ++ laterSlots

theorem slot_ne_empty (name : String) : slot name ≠ "" := by
  intro hnil
  have hlength := congrArg String.length hnil
  simp [slot, String.length_append] at hlength

/-- No slot begins another one. -/
theorem eq_of_slot_begins :
    ∀ s ∈ allSlots, ∀ t ∈ allSlots, s.toList <+: t.toList → s = t := by decide

/-- Slots take no part in one another. -/
theorem unlinked_slots :
    ∀ s ∈ allSlots, ∀ t ∈ allSlots, s ≠ t → Text.Unlinked s.toList t.toList := by decide

/-- Nor does a severity take part in any. -/
theorem inert_severity (severity : Severity) :
    ∀ s ∈ allSlots, Inert s.toList severity.name.toList := by
  have hunlinked : ∀ name ∈ ["info", "warning", "error", "exception"], ∀ s ∈ allSlots,
      Text.Unlinked s.toList name.toList := by decide
  have hname : severity.name ∈ ["info", "warning", "error", "exception"] := by
    cases severity <;> decide
  exact fun s hs => (hunlinked severity.name hname s hs).inert

/-- Digits and colons are in no slot. -/
theorem inert_of_digits {value : String} (hne : value ≠ "")
    (h : ∀ c ∈ value.toList, c.isDigit = true ∨ c = ':') :
    ∀ s ∈ allSlots, Inert s.toList value.toList := by
  have hslots : ∀ s ∈ allSlots, s.toList ≠ [] ∧
      s.toList.all (fun c => !(c.isDigit || c == ':')) = true := by decide
  intro s hs
  obtain ⟨hslot, hnone⟩ := hslots s hs
  refine (Text.unlinked_of_disjoint hslot (mt String.toList_eq_nil_iff.1 hne) ?_).inert
  intro c hc hin
  have hnot := List.all_eq_true.1 hnone c hin
  rcases h c hc with hdigit | rfl
  · simp [hdigit] at hnot
  · simp at hnot

theorem isDigit_of_mem_toString {n : Nat} {c : Char} (hc : c ∈ (toString n).toList) :
    c.isDigit = true := by
  rw [Nat.toString_eq_ofList_toDigits, String.toList_ofList] at hc
  exact Nat.isDigit_of_mem_toDigits (by decide) (by decide) hc

/-- A count takes part in no slot. -/
theorem inert_count (n : Nat) : ∀ s ∈ allSlots, Inert s.toList (toString n).toList :=
  inert_of_digits Nat.repr_ne_empty fun _ hc => .inl (isDigit_of_mem_toString hc)

theorem isDigit_of_mem_twoDigits {n : Nat} {c : Char}
    (hc : c ∈ (Timestamp.twoDigits n).toList) : c.isDigit = true := by
  rw [Timestamp.twoDigits, String.toList_append, List.mem_append] at hc
  exact hc.elim isDigit_of_mem_toString isDigit_of_mem_toString

/-- Nor does a time. -/
theorem inert_time (t : Timestamp) : ∀ s ∈ allSlots, Inert s.toList t.clockText.toList := by
  refine inert_of_digits (fun hnil => ?_) fun c hc => ?_
  · have hlength := congrArg String.length hnil
    simp [Timestamp.clockText, String.length_append] at hlength
  · have hcolon : c ∈ ":".toList → c = ':' := by simp
    simp only [Timestamp.clockText, String.toList_append, List.mem_append] at hc
    rcases hc with (((hc | hc) | hc) | hc) | hc
    · exact .inl (isDigit_of_mem_twoDigits hc)
    · exact .inr (hcolon hc)
    · exact .inl (isDigit_of_mem_twoDigits hc)
    · exact .inr (hcolon hc)
    · exact .inl (isDigit_of_mem_twoDigits hc)

/-- A table of different slots, in the order in which they are filled. -/
def SlotTable (table : List (String × String)) : Prop := (table.map Prod.fst).Sublist allSlots

section SlotTable

variable {table : List (String × String)} {p q : String × String}

theorem SlotTable.mem_allSlots (h : SlotTable table) (hp : p ∈ table) : p.1 ∈ allSlots :=
  h.subset (List.mem_map_of_mem hp)

theorem SlotTable.ne_empty (h : SlotTable table) (hp : p ∈ table) : p.1 ≠ "" :=
  (by decide : ∀ s ∈ allSlots, s ≠ "") p.1 (h.mem_allSlots hp)

theorem SlotTable.nodup (h : SlotTable table) : (table.map Prod.fst).Nodup :=
  List.Nodup.sublist h (by decide)

/-- No slot of it begins another one. -/
theorem SlotTable.eq_of_begins (h : SlotTable table) (hp : p ∈ table) (hq : q ∈ table)
    (hpq : p.1.toList <+: q.1.toList) : p = q :=
  List.inj_on_of_nodup_map h.nodup hp hq
    (eq_of_slot_begins p.1 (h.mem_allSlots hp) q.1 (h.mem_allSlots hq) hpq)

/-- So the slot that stands there is filled. -/
theorem SlotTable.fillChars_slot (h : SlotTable table) (hp : p ∈ table) (cs : List Char) :
    fillChars (table.map fun p => ⟨p.1.toList, p.2.toList⟩) (p.1.toList ++ cs)
      = p.2.toList ++ fillChars (table.map fun p => ⟨p.1.toList, p.2.toList⟩) cs := by
  have hne : p.1.toList ≠ [] := mt String.toList_eq_nil_iff.1 (h.ne_empty hp)
  refine Text.fillChars_slot (f := ⟨p.1.toList, p.2.toList⟩) hne (Text.filling?_slot ?_ ?_ cs)
  · simp only [List.forall_mem_map]
    exact fun p hp q hq hpq => by rw [h.eq_of_begins hp hq hpq]
  · exact List.mem_map_of_mem hp

/-- A template that is one slot of it gives the value of the slot. -/
theorem SlotTable.fill_slot (h : SlotTable table) (hp : p ∈ table) : fill table p.1 = p.2 := by
  have hall := h.fillChars_slot hp []
  rw [List.append_nil, fillChars, List.append_nil] at hall
  rw [fill, hall, String.ofList_toList]

end SlotTable

/-- **A table of different slots** can be filled in two passes if the values of the first take part
in no slot of the second. -/
theorem SlotTable.apart {early late : List (String × String)} (h : SlotTable (early ++ late))
    (hvalues : ∀ p ∈ early, ∀ q ∈ late, Inert q.1.toList p.2.toList) : Apart early late where
  ne_empty _ hp := h.ne_empty hp
  begins p hp q hq hpq :=
    h.eq_of_begins (List.mem_append_right _ hp) (List.mem_append_right _ hq) hpq
  slots p hp q hq := by
    refine (unlinked_slots p.1 (h.mem_allSlots (List.mem_append_left _ hp)) q.1
      (h.mem_allSlots (List.mem_append_right _ hq)) fun hfst => ?_).inert
    have hnodup := h.nodup
    rw [List.map_append, List.nodup_append] at hnodup
    exact hnodup.2.2 p.1 (List.mem_map_of_mem hp) q.1 (List.mem_map_of_mem hq) hfst
  values := hvalues

/-- So it can if they take part in no slot at all. -/
theorem SlotTable.apart_of_inert {p : String × String} {late : List (String × String)}
    (h : SlotTable (p :: late)) (hvalue : ∀ s ∈ allSlots, Inert s.toList p.2.toList) :
    Apart [p] late := by
  have hone : SlotTable ([p] ++ late) := h
  exact hone.apart fun _ hq r hr =>
    List.mem_singleton.1 hq ▸ hvalue r.1 (h.mem_allSlots (List.mem_cons_of_mem p hr))

theorem Entry.slotTable_early (e : Entry) : SlotTable e.earlyTable := List.take_sublist 2 allSlots

theorem Entry.slotTable_late (e : Entry) : SlotTable e.lateTable := List.drop_sublist 2 allSlots

theorem Entry.slotTable (e : Entry) : SlotTable e.table := List.Sublist.refl allSlots

/-- **A line is made by two passes,** whatever the caller is. -/
theorem Entry.format_eq (template : String) (e : Entry) :
    e.format template = fill e.lateTable (fill e.earlyTable template) := by
  have hearly : Apart [(slot "type", e.severity.name)] [(slot "caller", e.caller)] :=
    e.slotTable_early.apart_of_inert (inert_severity e.severity)
  have hcount : Apart [(slot "count", toString e.count)]
      [(slot "time", e.time.clockText), (slot "message", e.text)] :=
    e.slotTable_late.apart_of_inert (inert_count e.count)
  have htime : Apart [(slot "time", e.time.clockText)] [(slot "message", e.text)] :=
    SlotTable.apart_of_inert (List.drop_sublist 3 allSlots) (inert_time e.time)
  have hone (name value template : String) :
      Text.replaceAll (slot name) value template = fill [(slot name, value)] template :=
    Text.replaceAll_eq_fill (slot_ne_empty name) value template
  rw [format, hone, hone, hone, hone, hone, ← hearly.fill_append, ← htime.fill_append,
    List.singleton_append, ← hcount.fill_append]
  rfl

/-- The slot of the message stays where it is while another one is filled. -/
theorem infix_replaceAll_of_ne (name : String) (hs : slot name ∈ allSlots)
    (hne : slot name ≠ slot "message") (value : String) {template : String}
    (h : (slot "message").toList <:+: template.toList) :
    (slot "message").toList <:+: (Text.replaceAll (slot name) value template).toList := by
  have hinert := (unlinked_slots (slot name) hs (slot "message") (by decide) hne).inert
  rw [Text.replaceAll_eq_fill (slot_ne_empty name), fill, String.toList_ofList]
  refine Text.infix_fillChars_of_inert (fun f hf => ?_) (fun f hf => ?_) h
  · obtain rfl := List.mem_singleton.1 hf
    exact mt String.toList_eq_nil_iff.1 (slot_ne_empty name)
  · obtain rfl := List.mem_singleton.1 hf
    exact hinert

/-- **A line has the text of its entry in it,** if the template has the slot for it. -/
theorem Entry.text_infix_format (e : Entry) {template : String}
    (h : (slot "message").toList <:+: template.toList) :
    e.text.toList <:+: (e.format template).toList := by
  have htype := infix_replaceAll_of_ne "type" (by decide) (by decide) e.severity.name h
  have hcaller := infix_replaceAll_of_ne "caller" (by decide) (by decide) e.caller htype
  have hcount := infix_replaceAll_of_ne "count" (by decide) (by decide) (toString e.count) hcaller
  have htime := infix_replaceAll_of_ne "time" (by decide) (by decide) e.time.clockText hcount
  have hslot : (slot "message").toList ≠ [] := mt String.toList_eq_nil_iff.1 (slot_ne_empty _)
  rw [format, Text.replaceAll_eq_fill (slot_ne_empty "message"), fill, String.toList_ofList]
  exact Text.infix_fillChars_of_slot (f := ⟨(slot "message").toList, e.text.toList⟩) hslot htime

/-! ### When one pass is enough -/

/-- With a caller that takes part in no later slot, both passes are one. -/
theorem Entry.format_of_inert {e : Entry} (h : ∀ s ∈ laterSlots, Inert s.toList e.caller.toList)
    (template : String) : e.format template = fill e.table template := by
  have hlater : ∀ s ∈ laterSlots, s ∈ allSlots := fun s hs => List.mem_append_right _ hs
  have hfst : e.lateTable.map Prod.fst = laterSlots := rfl
  have hapart : Apart e.earlyTable e.lateTable := e.slotTable.apart fun p hp q hq => by
    have hq : q.1 ∈ laterSlots := hfst ▸ List.mem_map_of_mem hq
    rcases List.mem_pair.1 hp with rfl | rfl
    · exact inert_severity e.severity q.1 (hlater q.1 hq)
    · exact h q.1 hq
  rw [Entry.format_eq, ← hapart.fill_append, table]

/-- No slot begins in a beginning of a later slot that stands before the slot of the caller. -/
theorem not_prefix_before_caller :
    ∀ s ∈ laterSlots, ∀ x ∈ s.toList.inits, x ≠ s.toList → ∀ r ∈ x.tails, r ≠ [] →
      ∀ t ∈ allSlots, ¬t.toList <+: r ++ (slot "caller").toList := by decide

/-- A proper end of a later slot has no slot in it. -/
theorem not_infix_end :
    ∀ s ∈ laterSlots, ∀ y ∈ s.toList.tails, y ≠ s.toList →
      ∀ t ∈ allSlots, ¬t.toList <:+: y := by decide

/-- **Around the slot of the caller,** a beginning and an end of a later slot stay as they are. -/
theorem SlotTable.fill_around_caller {table : List (String × String)} (h : SlotTable table)
    {caller : String} (hcaller : (slot "caller", caller) ∈ table) {s : String} (hs : s ∈ laterSlots)
    {x y : List Char} (hx : x <+: s.toList) (hx' : x ≠ s.toList) (hy : y <:+ s.toList)
    (hy' : y ≠ s.toList) :
    fill table (String.ofList (x ++ ((slot "caller").toList ++ y)))
      = String.ofList (x ++ caller.toList ++ y) := by
  have hlength : ∀ t ∈ allSlots, t.toList.length ≤ (slot "caller").toList.length + 1 := by
    decide
  have hcallerSlot := h.fillChars_slot hcaller y
  rw [fill, String.toList_ofList]
  refine congrArg String.ofList ?_
  generalize hfs : table.map (fun p => (⟨p.1.toList, p.2.toList⟩ : Filling)) = fs at hcallerSlot ⊢
  have hslots : ∀ f ∈ fs, ∃ t ∈ allSlots, f.slot = t.toList := by
    rw [← hfs, List.forall_mem_map]
    exact fun p hp => ⟨p.1, h.mem_allSlots hp, rfl⟩
  have hbefore : ∀ r, r <:+ x → r ≠ [] → ∀ f ∈ fs,
      ¬f.slot <+: r ++ ((slot "caller").toList ++ y) := by
    intro r hr hne f hf hstart
    obtain ⟨t, ht, hft⟩ := hslots f hf
    rw [hft, ← List.append_assoc] at hstart
    rcases Text.prefix_append_cases hstart with hin | ⟨z, hz, hlong, -⟩
    · exact not_prefix_before_caller s hs x (List.mem_inits _ _ |>.2 hx) hx' r
        (List.mem_tails _ _ |>.2 hr) hne t ht hin
    · -- no slot is long enough to reach over that of the caller
      have hlong := congrArg List.length hlong
      have hr := List.length_pos_of_ne_nil hne
      have hz := List.length_pos_of_ne_nil hz
      have ht := hlength t ht
      simp only [List.length_append] at hlong
      omega
  have hafter : ∀ f ∈ fs, ¬f.slot <:+: y := by
    intro f hf
    obtain ⟨t, ht, hft⟩ := hslots f hf
    rw [hft]
    exact not_infix_end s hs y (List.mem_tails _ _ |>.2 hy) hy' t ht
  calc fillChars fs (x ++ ((slot "caller").toList ++ y))
      = x ++ fillChars fs ((slot "caller").toList ++ y) :=
        Text.fillChars_append_of_not_prefix hbefore
    _ = x ++ (caller.toList ++ fillChars fs y) := congrArg (x ++ ·) hcallerSlot
    _ = x ++ caller.toList ++ y := by rw [Text.fillChars_eq_self hafter, List.append_assoc]

/-- An entry with a caller, whose other values do not begin as slots do. -/
def entryFrom (caller : String) : Entry := ⟨1, caller, "x", .info, 1, .epoch⟩

/-- The values of its second pass. -/
theorem head?_lateTable_entryFrom (caller : String) :
    ∀ f ∈ (entryFrom caller).lateTable.map fun p => (⟨p.1.toList, p.2.toList⟩ : Filling),
      f.slot ≠ [] ∧ f.value ≠ [] ∧ f.value.head? ≠ f.slot.head? := by
  have htable : (entryFrom caller).lateTable
      = [(slot "count", "1"), (slot "time", "00:00:00"), (slot "message", "x")] := by
    have hcount : toString 1 = "1" := by decide
    have htime : Timestamp.epoch.clockText = "00:00:00" := by decide
    rw [Entry.lateTable, entryFrom, hcount, htime]
  rw [htable]
  decide

/-- **A caller that takes part in a later slot** has a template in which it is filled once more. -/
theorem exists_format_ne {caller : String} {s : String} (hs : s ∈ laterSlots)
    (h : ¬Inert s.toList caller.toList) :
    ∃ (template : String) (e : Entry), e.caller = caller ∧
      e.format template ≠ fill e.table template := by
  simp only [Inert, not_forall, not_not] at h
  obtain ⟨x, y, hx, hx', hy, hy', hin⟩ := h
  have hearly := (entryFrom caller).slotTable_early
  have hall := (entryFrom caller).slotTable
  have hmem : (slot "caller", caller) ∈ (entryFrom caller).earlyTable :=
    List.mem_cons_of_mem _ List.mem_cons_self
  refine ⟨String.ofList (x ++ ((slot "caller").toList ++ y)), entryFrom caller, rfl, fun heq => ?_⟩
  rw [Entry.format_eq, hearly.fill_around_caller hmem hs hx hx' hy hy',
    hall.fill_around_caller (List.mem_append_left _ hmem) hs hx hx' hy hy', fill,
    String.toList_ofList] at heq
  -- the second pass would leave a text with a later slot in it
  have hnone := Text.not_infix_of_fillChars_eq_self (head?_lateTable_entryFrom caller)
    (String.ofList_injective heq)
  rw [List.forall_mem_map] at hnone
  obtain ⟨p, hp, rfl⟩ : ∃ p ∈ (entryFrom caller).lateTable, p.1 = s := List.mem_map.1 hs
  exact hnone p hp hin

/-- **A line is filled in twice.** For all templates and entries of a caller, one pass fills in the
severity and the caller, and a pass over what came out of it the count, the time and the message. No
value of the second pass is looked at again, nor is the severity. This is one pass over the template
for all slots, whatever the template and the rest of the entry, just if the caller takes part in no
slot of the second pass. -/
theorem format_fills_twice (caller : String) :
    (∀ (template : String) (e : Entry), e.caller = caller →
      e.format template = fill e.lateTable (fill e.earlyTable template)) ∧
    ((∀ (template : String) (e : Entry), e.caller = caller →
        e.format template = fill e.table template) ↔
      ∀ s ∈ laterSlots, Inert s.toList caller.toList) := by
  refine ⟨fun template e _ => Entry.format_eq template e, fun hall s hs => ?_, ?_⟩
  · by_contra hpart
    obtain ⟨template, e, hcaller, hne⟩ := exists_format_ne hs hpart
    exact hne (hall template e hcaller)
  · rintro h template e rfl
    exact Entry.format_of_inert h template

/-- A message from a caller that has the name of a slot. -/
def bracedCaller : Entry := ⟨1, slot "count", "hello", .info, 3, .epoch⟩

/-- **The slot of the caller need not show the caller:** in its place stands the count. -/
theorem format_bracedCaller :
    bracedCaller.format (slot "caller") = "3" ∧
      fill bracedCaller.table (slot "caller") = slot "count" := by
  have hmem : (slot "caller", slot "count") ∈ bracedCaller.earlyTable :=
    List.mem_cons_of_mem _ List.mem_cons_self
  have hmemLate : (slot "count", toString bracedCaller.count) ∈ bracedCaller.lateTable :=
    List.mem_cons_self
  have hearly := bracedCaller.slotTable_early.fill_slot hmem
  have hlate := bracedCaller.slotTable_late.fill_slot hmemLate
  have hall := bracedCaller.slotTable.fill_slot (List.mem_append_left _ hmem)
  have hcount : toString bracedCaller.count = "3" := by decide
  refine ⟨?_, hall⟩
  rw [Entry.format_eq, hearly, hlate, hcount]

end Log
end SnippetConsole
