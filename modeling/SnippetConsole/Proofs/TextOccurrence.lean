/-
# Where one text occurs in another

A character that is not in a text cuts the places where the text can occur: it occurs in
`x ++ d :: y` only in `x` or in `y` (`infix_append_cons_iff`). So a text without line feeds occurs
in joined lines only inside one of them (`infix_intercalate_iff`), and `splitAtFirst?` finds it
there as if the lines were looked at one by one (`splitAtFirst?_append_cons`).
-/

import SnippetConsole.Text.Substitution
import Mathlib.Data.List.Infix

namespace SnippetConsole
namespace Text

section Occurrence

variable {α : Type} {s x y : List α} {d : α}

/-- What begins with a text begins with its beginning, or goes on behind it. -/
theorem prefix_append_cases (h : s <+: x ++ y) : s <+: x ∨ ∃ r, r ≠ [] ∧ s = x ++ r ∧ r <+: y := by
  rcases List.prefix_or_prefix_of_prefix h (List.prefix_append x y) with hx | ⟨r, rfl⟩
  · exact .inl hx
  · rcases eq_or_ne r [] with rfl | hr
    · exact .inl (by simp)
    · exact .inr ⟨r, hr, rfl, (List.prefix_append_right_inj x).1 h⟩

/-- **A character that is not in a text** lies before or behind each of its occurrences. -/
theorem infix_append_cons_iff (hd : d ∉ s) : s <:+: x ++ d :: y ↔ s <:+: x ∨ s <:+: y := by
  constructor
  · intro h
    rcases List.infix_append_iff.1 h with hx | hy | ⟨l, r, rfl, hl, hr⟩
    · exact .inl hx
    · rcases List.infix_cons_iff.1 hy with hp | hy
      · -- a text that begins with `d` has `d` in it
        cases s with
        | nil => exact .inl List.nil_infix
        | cons c s =>
          obtain ⟨rfl, -⟩ := List.cons_prefix_cons.1 hp
          exact absurd List.mem_cons_self hd
      · exact .inr hy
    · cases r with
      | nil => exact .inl (by simpa using hl.isInfix)
      | cons c r =>
        obtain ⟨rfl, -⟩ := List.cons_prefix_cons.1 hr
        exact absurd (List.mem_append_right l List.mem_cons_self) hd
  · rintro (hx | hy)
    · exact hx.trans (List.infix_append' [] x (d :: y))
    · exact hy.trans ⟨x ++ [d], [], by simp⟩

/-- A text without `d` occurs in parts joined by `d` just if it occurs in a part. -/
theorem infix_intercalate_iff (hne : s ≠ []) (hd : d ∉ s) {parts : List (List α)} :
    s <:+: [d].intercalate parts ↔ ∃ part ∈ parts, s <:+: part := by
  induction parts with
  | nil => simp [hne]
  | cons part parts ih =>
    cases parts with
    | nil => simp
    | cons next parts =>
      rw [List.intercalate_cons_cons, List.append_assoc, List.singleton_append,
        infix_append_cons_iff hd, ih, ← List.exists_mem_cons_iff]

/-- A character other than `d` is in parts joined by `d` only if it is in a part. -/
theorem notMem_intercalate {c : α} (hc : c ≠ d) {parts : List (List α)}
    (h : ∀ part ∈ parts, c ∉ part) : c ∉ [d].intercalate parts := by
  have hsingle : ¬[c] <:+: [d].intercalate parts := by
    rw [infix_intercalate_iff (List.cons_ne_nil c []) (by simpa using hc.symm)]
    rintro ⟨part, hpart, hin⟩
    exact h part hpart (hin.subset List.mem_cons_self)
  intro hmem
  obtain ⟨before, after, heq⟩ := List.append_of_mem hmem
  exact hsingle ⟨before, after, by simp [heq]⟩

/-- An empty first part leaves its `d`. -/
theorem intercalate_nil_cons {parts : List (List α)} (hne : parts ≠ []) :
    [d].intercalate ([] :: parts) = d :: [d].intercalate parts := by
  cases parts with
  | nil => exact absurd rfl hne
  | cons part parts => rw [List.intercalate_cons_cons, List.nil_append, List.singleton_append]

/-- So does an empty last part. -/
theorem intercalate_concat_nil {parts : List (List α)} (hne : parts ≠ []) :
    [d].intercalate (parts ++ [[]]) = [d].intercalate parts ++ [d] := by
  induction parts with
  | nil => exact absurd rfl hne
  | cons part parts ih =>
    cases parts with
    | nil => simp
    | cons next parts =>
      have hrest := ih (List.cons_ne_nil next parts)
      simp only [List.cons_append] at hrest ⊢
      rw [List.intercalate_cons_cons, List.intercalate_cons_cons, hrest]
      simp

end Occurrence

/-! ### The first occurrence -/

variable {slot x before after : List Char}

/-- There is none just if the slot does not occur. -/
theorem splitAtFirst?_eq_none_iff : splitAtFirst? slot x = none ↔ ¬slot <:+: x := by
  induction x with
  | nil => simp [splitAtFirst?]
  | cons c x ih =>
    rw [splitAtFirst?, List.infix_cons_iff]
    split
    · rename_i hp
      simp [List.isPrefixOf_iff_prefix.1 hp]
    · rename_i hp
      rw [Option.map_eq_none_iff, ih, not_or]
      exact (and_iff_right fun h => hp (List.isPrefixOf_iff_prefix.2 h)).symm

/-- The first one stays the first one, whatever comes behind. -/
theorem splitAtFirst?_append (h : splitAtFirst? slot x = some (before, after)) (y : List Char) :
    splitAtFirst? slot (x ++ y) = some (before, after ++ y) := by
  induction x generalizing before with
  | nil =>
    rw [splitAtFirst?] at h
    split at h
    · rename_i hempty
      obtain rfl := List.isEmpty_iff.1 hempty
      obtain ⟨rfl, rfl⟩ := Prod.mk.inj (Option.some.inj h)
      cases y with
      | nil => rfl
      | cons c y => rfl
    · cases h
  | cons c x ih =>
    rw [splitAtFirst?] at h
    rw [List.cons_append, splitAtFirst?]
    split at h
    · rename_i hp
      obtain ⟨rest, hrest⟩ := List.isPrefixOf_iff_prefix.1 hp
      obtain ⟨rfl, rfl⟩ := Prod.mk.inj (Option.some.inj h)
      rw [← List.cons_append, ← hrest, List.append_assoc,
        if_pos (List.isPrefixOf_iff_prefix.2 (List.prefix_append _ _)), List.drop_left,
        List.drop_left]
    · rename_i hp
      obtain ⟨⟨b, a⟩, hs, heq⟩ := Option.map_eq_some_iff.1 h
      obtain ⟨rfl, rfl⟩ := Prod.mk.inj heq
      rw [if_neg, ih hs]
      · rfl
      · intro hlonger
        -- a slot that reaches beyond `x` has no first occurrence in `x`
        have hlength : slot.length ≤ (c :: x).length := by
          rw [eq_of_splitAtFirst? hs]
          simp only [List.length_cons, List.length_append]
          omega
        refine hp (List.isPrefixOf_iff_prefix.2 ?_)
        exact List.prefix_of_prefix_length_le (List.isPrefixOf_iff_prefix.1 hlonger)
          (List.prefix_append (c :: x) y) hlength

/-- **A part without the slot is passed over,** if a character that is not in the slot ends it. -/
theorem splitAtFirst?_append_cons {d : Char} (hd : d ∉ slot) (hx : ¬slot <:+: x)
    (y : List Char) :
    splitAtFirst? slot (x ++ d :: y)
      = (splitAtFirst? slot y).map fun (before, after) => (x ++ d :: before, after) := by
  induction x with
  | nil =>
    have hp : ¬slot.isPrefixOf (d :: y) = true := by
      intro hp
      cases slot with
      | nil => exact hx List.nil_infix
      | cons c slot =>
        obtain ⟨rfl, -⟩ := List.cons_prefix_cons.1 (List.isPrefixOf_iff_prefix.1 hp)
        exact hd List.mem_cons_self
    rw [List.nil_append, splitAtFirst?, if_neg hp]
    rfl
  | cons c x ih =>
    have hp : ¬slot.isPrefixOf (c :: (x ++ d :: y)) = true := by
      intro hp
      rcases prefix_append_cases (x := c :: x) (List.isPrefixOf_iff_prefix.1 hp) with
        hin | ⟨r, hr, rfl, hrest⟩
      · exact hx hin.isInfix
      · cases r with
        | nil => exact hr rfl
        | cons e r =>
          obtain ⟨rfl, -⟩ := List.cons_prefix_cons.1 hrest
          exact hd (List.mem_append_right _ List.mem_cons_self)
    rw [List.cons_append, splitAtFirst?, if_neg hp,
      ih fun h => hx (h.trans (List.suffix_cons c x).isInfix), Option.map_map]
    rfl

/-- **The slot itself is found** behind a text without one of its characters. -/
theorem splitAtFirst?_slot {d : Char} {p q : List Char} (hp : d ∉ p) (hx : d ∉ x)
    (rest : List Char) :
    splitAtFirst? (p ++ d :: q) (x ++ (p ++ d :: q ++ rest)) = some (x, rest) := by
  induction x with
  | nil =>
    have hstart : (p ++ d :: q).isPrefixOf (p ++ d :: q ++ rest) = true :=
      List.isPrefixOf_iff_prefix.2 (List.prefix_append _ _)
    rw [List.nil_append]
    cases hcs : p ++ d :: q ++ rest with
    | nil => simp at hcs
    | cons c cs => rw [splitAtFirst?, ← hcs, if_pos hstart, List.drop_left]
  | cons c x ih =>
    have hlater : ¬(p ++ d :: q).isPrefixOf (c :: (x ++ (p ++ d :: q ++ rest))) = true := by
      -- the first `d` of the slot would be further left than the first one there is
      intro hstart
      obtain ⟨tail, heq⟩ := List.isPrefixOf_iff_prefix.1 hstart
      have hleft : (p ++ d :: q ++ tail).idxOf d = p.length := by
        rw [List.append_assoc, List.idxOf_append_of_notMem hp, List.cons_append,
          List.idxOf_cons_self, Nat.add_zero]
      have hright : (c :: (x ++ (p ++ d :: q ++ rest))).idxOf d = (c :: x).length + p.length := by
        rw [← List.cons_append, List.idxOf_append_of_notMem hx, List.append_assoc,
          List.idxOf_append_of_notMem hp, List.cons_append, List.idxOf_cons_self, Nat.add_zero]
      rw [heq, hright, List.length_cons] at hleft
      omega
    have hrest := ih fun hmem => hx (List.mem_cons_of_mem c hmem)
    rw [List.cons_append, splitAtFirst?, if_neg hlater, hrest]
    rfl

/-- What is replaced is the first occurrence. -/
theorem replaceFirst_of_some {slot value s : String}
    (h : splitAtFirst? slot.toList s.toList = some (before, after)) :
    replaceFirst slot value s = String.ofList (before ++ value.toList ++ after) := by
  rw [replaceFirst, h]

end Text
end SnippetConsole
