/-
# Paths made of names

A file name has bytes, none of them a slash or NUL, is neither `.` nor `..` and is not too
long. A path joined to one has the names of the path and this one (`names_join`), starts where
the path starts, and asks for no directory.
-/

import SnippetConsole.FileTree.Walk

namespace SnippetConsole
namespace FilePath

/-- Bytes that may name an entry of a directory. -/
structure IsName (n : Bytes) : Prop where
  ne_nil : n ≠ []
  slash_notMem : slash ∉ n
  nul_notMem : (0 : UInt8) ∉ n
  ne_here : n ≠ here
  ne_up : n ≠ up
  length_le : n.length ≤ FileTree.maxNameLength

instance (n : Bytes) : Decidable (IsName n) :=
  decidable_of_iff (n ≠ [] ∧ slash ∉ n ∧ (0 : UInt8) ∉ n ∧ n ≠ here ∧ n ≠ up
      ∧ n.length ≤ FileTree.maxNameLength)
    ⟨fun ⟨h₁, h₂, h₃, h₄, h₅, h₆⟩ => ⟨h₁, h₂, h₃, h₄, h₅, h₆⟩,
      fun ⟨h₁, h₂, h₃, h₄, h₅, h₆⟩ => ⟨h₁, h₂, h₃, h₄, h₅, h₆⟩⟩

/-- A slash between two paths cuts them apart. -/
theorem pieces_append_slash_append (p q : FilePath) :
    pieces (p ++ slash :: q) = pieces p ++ pieces q := by
  induction p with
  | nil => simp [pieces]
  | cons b bs ih =>
    rw [List.cons_append]
    by_cases hb : b = slash
    · simp [pieces, hb, ih]
    · rcases hp : pieces bs with _ | ⟨r, rs⟩
      · exact absurd hp (pieces_ne_nil bs)
      · simp [pieces, hb, ih, hp]

/-- So do their names. -/
theorem names_append_slash_append (p q : FilePath) :
    names (p ++ slash :: q) = names p ++ names q := by
  rw [names, names, names, pieces_append_slash_append, List.filter_append]

/-- Bytes without a slash are one name. -/
theorem names_of_slash_notMem {n : Bytes} (hne : n ≠ []) (h : slash ∉ n) : names n = [n] := by
  simp [names, pieces_of_slash_notMem h, hne]

/-- What the names of a path are like. -/
theorem mem_names {p : FilePath} {n : Bytes} (h : n ∈ names p) :
    n ≠ [] ∧ slash ∉ n := by
  obtain ⟨hmem, hne⟩ := List.mem_filter.1 h
  exact ⟨by simpa using hne, slash_notMem_pieces p n hmem⟩

/-- Every byte of a piece is one of the path. -/
theorem mem_of_mem_pieces {p : FilePath} {q : Bytes} (hq : q ∈ pieces p) {b : UInt8}
    (hb : b ∈ q) : b ∈ p := by
  induction p generalizing q with
  | nil =>
    obtain rfl := List.mem_singleton.1 hq
    exact hb
  | cons c bs ih =>
    rw [pieces] at hq
    by_cases hc : c = slash
    · rw [if_pos hc] at hq
      rcases List.mem_cons.1 hq with rfl | hq
      · exact absurd hb List.not_mem_nil
      · exact List.mem_cons_of_mem _ (ih hq hb)
    · rw [if_neg hc] at hq
      rcases hp : pieces bs with _ | ⟨r, rs⟩
      · exact absurd hp (pieces_ne_nil bs)
      · rw [hp] at hq ih
        rcases List.mem_cons.1 hq with rfl | hq
        · rcases List.mem_cons.1 hb with rfl | hb
          · exact List.mem_cons_self
          · exact List.mem_cons_of_mem _ (ih List.mem_cons_self hb)
        · exact List.mem_cons_of_mem _ (ih (List.mem_cons_of_mem _ hq) hb)

/-- A path without NUL has no name with one. -/
theorem nul_notMem_names {p : FilePath} (hp : (0 : UInt8) ∉ p) :
    ∀ n ∈ names p, (0 : UInt8) ∉ n := fun _ hn h0 =>
  hp (mem_of_mem_pieces (List.mem_filter.1 hn).1 h0)

/-- A path without names is empty or starts with a slash. -/
theorem isAbsolute_of_names_eq_nil {p : FilePath} (hne : p ≠ []) (h : names p = []) :
    p.isAbsolute = true := by
  rcases p with _ | ⟨b, bs⟩
  · exact absurd rfl hne
  · by_cases hb : b = slash
    · simp [isAbsolute, hb]
    · rcases hp : pieces bs with _ | ⟨r, rs⟩
      · exact absurd hp (pieces_ne_nil bs)
      · simp [names, pieces, hb, hp] at h

section Joined

variable {n : Bytes} (hne : n ≠ []) (hslash : slash ∉ n) (p : FilePath)

include hslash

theorem isAbsolute_of_slash_notMem : isAbsolute n = false := by
  rcases n with _ | ⟨b, bs⟩
  · rfl
  · have hb : b ≠ slash := fun h => hslash (h ▸ List.mem_cons_self)
    simp [isAbsolute, hb]

/-- What a path joined to bytes without a slash looks like. -/
theorem join_cases :
    (p = [] ∧ p.join n = n) ∨
    (∃ q, p = q ++ [slash] ∧ p.join n = q ++ slash :: n) ∨
    (p ≠ [] ∧ p.join n = p ++ slash :: n) := by
  have habsolute := isAbsolute_of_slash_notMem hslash
  by_cases hp : p = []
  · exact .inl ⟨hp, by simp [join, hp]⟩
  · by_cases hlast : p.getLast? = some slash
    · obtain ⟨q, rfl⟩ := List.getLast?_eq_some_iff.1 hlast
      exact .inr (.inl ⟨q, rfl, by simp [join, habsolute]⟩)
    · exact .inr (.inr ⟨hp, by simp [join, habsolute, hp, hlast]⟩)

/-- They do not change where the path starts. -/
theorem isAbsolute_join_of_slash_notMem : (p.join n).isAbsolute = p.isAbsolute := by
  rcases join_cases hslash p with ⟨rfl, h⟩ | ⟨q, rfl, h⟩ | ⟨hp, h⟩
  · rw [h, isAbsolute_of_slash_notMem hslash]
    rfl
  · rw [h]
    cases q with
    | nil => rfl
    | cons b bs => rfl
  · rw [h]
    cases p with
    | nil => exact absurd rfl hp
    | cons b bs => rfl

include hne

/-- They are the last name, if there are any. -/
theorem names_join_of_slash_notMem : names (p.join n) = names p ++ [n] := by
  have hone : names n = [n] := names_of_slash_notMem hne hslash
  have hnone : names [] = [] := by simp [names, pieces]
  rcases join_cases hslash p with ⟨rfl, h⟩ | ⟨q, rfl, h⟩ | ⟨-, h⟩
  · rw [h, hone, hnone, List.nil_append]
  · rw [h, names_append_slash_append, hone, names_append_slash_append, hnone, List.append_nil]
  · rw [h, names_append_slash_append, hone]

end Joined

namespace IsName

variable {n : Bytes} (hn : IsName n) (p : FilePath)

include hn

theorem isAbsolute_eq : isAbsolute n = false := isAbsolute_of_slash_notMem hn.slash_notMem

/-- What a path joined to a name looks like. -/
theorem join_cases :
    (p = [] ∧ p.join n = n) ∨
    (∃ q, p = q ++ [slash] ∧ p.join n = q ++ slash :: n) ∨
    (p ≠ [] ∧ p.join n = p ++ slash :: n) := FilePath.join_cases hn.slash_notMem p

/-- **A joined name comes last.** -/
theorem names_join : names (p.join n) = names p ++ [n] :=
  names_join_of_slash_notMem hn.ne_nil hn.slash_notMem p

/-- A joined name does not change where the path starts. -/
theorem isAbsolute_join : (p.join n).isAbsolute = p.isAbsolute :=
  isAbsolute_join_of_slash_notMem hn.slash_notMem p

/-- A joined path begins with the path. -/
theorem isPrefix_join : p <+: p.join n := by
  rcases hn.join_cases p with ⟨rfl, h⟩ | ⟨q, rfl, h⟩ | ⟨-, h⟩
  · exact List.nil_prefix
  · exact ⟨n, by simp [h]⟩
  · exact ⟨slash :: n, h.symm⟩

theorem join_ne_nil : p.join n ≠ [] := by
  rcases hn.join_cases p with ⟨rfl, h⟩ | ⟨q, rfl, h⟩ | ⟨-, h⟩
  · rw [h]
    exact hn.ne_nil
  · simp [h]
  · simp [h]

/-- The last byte of a joined name is the last byte of the name. -/
theorem getLast?_join : (p.join n).getLast? = n.getLast? := by
  obtain ⟨b, hb⟩ := Option.isSome_iff_exists.1 (List.getLast?_isSome.2 hn.ne_nil)
  rcases hn.join_cases p with ⟨rfl, h⟩ | ⟨q, rfl, h⟩ | ⟨-, h⟩
  · rw [h]
  · simp [h, List.getLast?_append, List.getLast?_cons, hb]
  · simp [h, List.getLast?_append, List.getLast?_cons, hb]

/-- It does not ask for a directory. -/
theorem endsInSlash_join : FileTree.Tree.endsInSlash (p.join n) = false := by
  rw [FileTree.Tree.endsInSlash, hn.getLast?_join p, decide_eq_false_iff_not]
  exact fun h => hn.slash_notMem (List.mem_of_getLast? h)

theorem nul_notMem_join (hp : (0 : UInt8) ∉ p) : (0 : UInt8) ∉ p.join n := by
  have hslash : (0 : UInt8) ≠ slash := by decide
  rcases hn.join_cases p with ⟨rfl, h⟩ | ⟨q, rfl, h⟩ | ⟨-, h⟩
  · rw [h]
    exact hn.nul_notMem
  · simpa [h, hslash, hn.nul_notMem] using fun hq => hp (List.mem_append_left _ hq)
  · simpa [h, hslash, hn.nul_notMem] using hp

/-- It adds at most itself and a slash. -/
theorem length_join_le : (p.join n).length ≤ p.length + 1 + n.length := by
  rcases hn.join_cases p with ⟨rfl, h⟩ | ⟨q, rfl, h⟩ | ⟨-, h⟩
  · rw [h]
    omega
  · rw [h, List.length_append, List.length_append, List.length_cons, List.length_singleton]
    omega
  · rw [h, List.length_append, List.length_cons]
    omega

end IsName
end FilePath
end SnippetConsole
