/-
# The name a path ends in

A path ends in a name if that is one of its pieces between slashes, neither empty nor `.` nor
`..`, and all pieces behind it are empty or `.` (`EndsIn`). So `dir/x.rs`, `../x.rs` and
`/x.rs/./` all end in `x.rs`, and the empty path, `/`, `.` and `x.rs/..` end in no name. Just
the name that a path ends in is its final name (`fileName?_eq_some_iff`): what is trimmed from
the pieces is cut off from behind, one by one (`trimmed_concat`).
-/

import Mathlib.Data.List.Induction
import SnippetConsole.FilePath

namespace SnippetConsole
namespace FilePath

/-- A path ends in a name: behind it stand slashes and `.` at most. -/
structure EndsIn (p : FilePath) (n : Bytes) : Prop where
  ne_nil : n ≠ []
  ne_here : n ≠ here
  ne_up : n ≠ up
  split : ∃ front back, p.pieces = front ++ n :: back ∧ ∀ q ∈ back, q = [] ∨ q = here

/-- **Trimming looks at the last piece first.** -/
theorem trimmed_concat (absolute : Bool) (ps : List Bytes) (p : Bytes) :
    trimmed absolute (ps ++ [p])
      = if isSilent absolute p ps.length then trimmed absolute ps else ps ++ [p] := by
  have hrev : (ps ++ [p]).zipIdx.reverse = (p, ps.length) :: ps.zipIdx.reverse := by
    rw [List.zipIdx_append, List.reverse_append]
    simp
  rw [trimmed, trimmed, hrev, List.dropWhile_cons]
  by_cases hsilent : isSilent absolute p ps.length = true
  · simp only [hsilent, if_true]
  · simp only [hsilent, Bool.false_eq_true, if_false, ← hrev, List.reverse_reverse]
    exact List.zipIdx_map_fst 0 _

/-- Behind the start of a path a piece is silent if it is empty or `.`. -/
theorem isSilent_of_pos {absolute : Bool} {p : Bytes} {index : Nat} (h : 0 < index) :
    isSilent absolute p index = true ↔ p = [] ∨ p = here := by
  simp [isSilent, h]

/-- What is trimmed ends in the last piece that is not silent. -/
theorem getLast?_trimmed_eq_some {absolute : Bool} {ps : List Bytes} {p : Bytes} :
    (trimmed absolute ps).getLast? = some p ↔ ∃ front back, ps = front ++ p :: back ∧
      isSilent absolute p front.length = false ∧ ∀ q ∈ back, q = [] ∨ q = here := by
  constructor
  · intro h
    induction ps using List.reverseRecOn with
    | nil => cases h
    | append_singleton ps q ih =>
      rw [trimmed_concat] at h
      by_cases hsilent : isSilent absolute q ps.length = true
      · rw [if_pos hsilent] at h
        obtain ⟨front, back, rfl, hp, hback⟩ := ih h
        have hpos : 0 < (front ++ p :: back).length :=
          List.length_pos_of_mem (List.mem_append_right _ List.mem_cons_self)
        have hq : q = [] ∨ q = here := (isSilent_of_pos hpos).1 hsilent
        refine ⟨front, back ++ [q], by simp, hp, ?_⟩
        simpa [or_imp, forall_and] using ⟨hback, hq⟩
      · rw [if_neg hsilent, List.getLast?_concat] at h
        obtain rfl := Option.some.inj h
        exact ⟨ps, [], rfl, Bool.eq_false_iff.2 hsilent, by simp⟩
  · rintro ⟨front, back, rfl, hp, hback⟩
    induction back using List.reverseRecOn with
    | nil =>
      rw [trimmed_concat, if_neg (Bool.eq_false_iff.1 hp)]
      exact List.getLast?_concat
    | append_singleton back q ih =>
      have hpos : 0 < (front ++ p :: back).length :=
        List.length_pos_of_mem (List.mem_append_right _ List.mem_cons_self)
      have hsilent : isSilent absolute q (front ++ p :: back).length = true :=
        (isSilent_of_pos hpos).2 (hback q (by simp))
      rw [← List.cons_append, ← List.append_assoc, trimmed_concat, if_pos hsilent]
      exact ih fun r hr => hback r (List.mem_append_left _ hr)

/-- A final name is the last piece that says something, if that is not made of dots. -/
theorem fileName?_eq_some_iff_getLast? {p : FilePath} {n : Bytes} :
    fileName? p = some n ↔ p.body.getLast? = some n ∧ n ≠ here ∧ n ≠ up := by
  rw [fileName?]
  rcases p.body.getLast? with _ | q
  · simp
  · grind

/-- The slash that a path may start with only puts an empty piece in front. -/
theorem exists_pieces_eq_append (p : FilePath) :
    ∃ lead, p.pieces = lead ++ pieces (if p.isAbsolute then p.drop 1 else p) ∧
      ∀ q ∈ lead, q = [] := by
  by_cases h : p.isAbsolute = true
  · obtain ⟨bs, rfl⟩ : ∃ bs, p = slash :: bs := by
      rcases p with _ | ⟨b, bs⟩
      · cases h
      · exact ⟨bs, by simpa [isAbsolute] using h⟩
    exact ⟨[[]], by simp [h, pieces], by simp⟩
  · exact ⟨[], by simp [h], by simp⟩

/-- **The final name of a path is the name it ends in.** -/
theorem fileName?_eq_some_iff {p : FilePath} {n : Bytes} : fileName? p = some n ↔ p.EndsIn n := by
  obtain ⟨lead, hlead, hempty⟩ := p.exists_pieces_eq_append
  rw [fileName?_eq_some_iff_getLast?, body, getLast?_trimmed_eq_some]
  constructor
  · rintro ⟨⟨front, back, hsplit, hloud, hback⟩, hhere, hup⟩
    refine ⟨?_, hhere, hup, lead ++ front, back, ?_, hback⟩
    · rintro rfl
      simp [isSilent] at hloud
    · rw [hlead, hsplit, List.append_assoc]
  · rintro ⟨hne, hhere, hup, front, back, hsplit, hback⟩
    have hloud (index : Nat) : isSilent p.isAbsolute n index = false := by
      simp [isSilent, hne, hhere]
    refine ⟨?_, hhere, hup⟩
    rw [hlead] at hsplit
    -- the name is no part of the lead, as that is empty
    obtain ⟨front', -, hfront⟩ | ⟨back', hback', hrest⟩ := List.append_eq_append_iff.1 hsplit
    · exact ⟨front', back, hfront, hloud _, hback⟩
    · rcases back' with _ | ⟨q, back'⟩
      · exact ⟨[], back, hrest.symm, hloud _, hback⟩
      · obtain ⟨rfl, -⟩ := List.cons.inj hrest
        exact absurd (hempty n (by simp [hback'])) hne

/-- A path without a final name ends in none. -/
theorem fileName?_eq_none_iff {p : FilePath} : fileName? p = none ↔ ∀ n, ¬p.EndsIn n := by
  simp only [Option.eq_none_iff_forall_ne_some, ne_eq, fileName?_eq_some_iff]

/-- A path ends in one name. -/
theorem EndsIn.unique {p : FilePath} {n n' : Bytes} (h : p.EndsIn n) (h' : p.EndsIn n') : n = n' :=
  Option.some.inj ((fileName?_eq_some_iff.2 h).symm.trans (fileName?_eq_some_iff.2 h'))

instance (p : FilePath) (n : Bytes) : Decidable (p.EndsIn n) :=
  decidable_of_iff _ fileName?_eq_some_iff

/-- Slashes and `.` at the end do not count, `..` does. -/
example : (ofString "/nested/x.rs/./").EndsIn (ofString "x.rs")
    ∧ fileName? (ofString "nested/..") = none := by decide

end FilePath
end SnippetConsole
