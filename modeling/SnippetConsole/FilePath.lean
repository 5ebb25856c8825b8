/-
# Paths

A path is a list of bytes, cut by slashes into pieces. Empty pieces and pieces `.` say
nothing, except a `.` at the very start of a relative path. The last piece that says
something is the file name, unless it is `.` or `..`; what stands before it is the parent.
A path that starts with a slash is absolute and replaces what it is joined to.
-/

import SnippetConsole.Text.Utf8

namespace SnippetConsole

/-- A path, as bytes. -/
abbrev FilePath := Bytes

namespace FilePath

/-- The byte of `/`. -/
def slash : UInt8 := 47

/-- The piece `.`, which stays where it is. -/
def here : Bytes := [46]

/-- The piece `..`, which goes one directory up. -/
def up : Bytes := [46, 46]

/-- The path that a text spells. -/
def ofString (s : String) : FilePath := Text.encode s

/-- The text of a path for people, ill-formed parts replaced. -/
def display (p : FilePath) : String := Text.lossy p

/-- Whether the path starts at the root. -/
def isAbsolute (p : FilePath) : Bool := p.head? = some slash

/-- The pieces between slashes, empty ones included. -/
def pieces : FilePath → List Bytes
  | [] => [[]]
  | b :: bs =>
    if b = slash then [] :: pieces bs
    else
      match pieces bs with
      | [] => [[b]]
      | p :: ps => (b :: p) :: ps

/-- The path of pieces with a slash between each two. -/
def ofPieces (ps : List Bytes) : FilePath := List.intercalate [slash] ps

theorem pieces_ne_nil (p : FilePath) : pieces p ≠ [] := by
  cases p with
  | nil => simp [pieces]
  | cons b bs =>
    simp only [pieces]
    split
    · simp
    · split <;> simp

/-- **No piece holds a slash.** -/
theorem slash_notMem_pieces (p : FilePath) : ∀ q ∈ pieces p, slash ∉ q := by
  induction p with
  | nil => simp [pieces]
  | cons b bs ih =>
    simp only [pieces]
    by_cases h : b = slash
    · simpa [h] using ih
    · simp only [h, if_false]
      cases hp : pieces bs with
      | nil => exact absurd hp (pieces_ne_nil bs)
      | cons q qs =>
        rw [hp] at ih
        simp only [List.mem_cons, forall_eq_or_imp, not_or] at ih ⊢
        exact ⟨⟨Ne.symm h, ih.1⟩, ih.2⟩

/-- Bytes without a slash are one piece. -/
theorem pieces_of_slash_notMem {p : FilePath} (h : slash ∉ p) : pieces p = [p] := by
  induction p with
  | nil => simp [pieces]
  | cons b bs ih =>
    simp only [List.mem_cons, not_or] at h
    simp [pieces, Ne.symm h.1, ih h.2]

/-- A slash ends a piece. -/
theorem pieces_append_slash {p : FilePath} (q : FilePath) (h : slash ∉ p) :
    pieces (p ++ slash :: q) = p :: pieces q := by
  induction p with
  | nil => simp [pieces]
  | cons b bs ih =>
    simp only [List.mem_cons, not_or] at h
    simp [pieces, Ne.symm h.1, ih h.2]

/-- **Pieces put together are cut apart again.** -/
theorem pieces_ofPieces {ps : List Bytes} (hne : ps ≠ []) (h : ∀ q ∈ ps, slash ∉ q) :
    pieces (ofPieces ps) = ps := by
  induction ps with
  | nil => exact absurd rfl hne
  | cons p ps ih =>
    cases ps with
    | nil => simpa [ofPieces] using pieces_of_slash_notMem (h p (by simp))
    | cons q qs =>
      have hp : slash ∉ p := h p (by simp)
      have hrest := ih (by simp) fun r hr => h r (List.mem_cons_of_mem _ hr)
      have hcut : ofPieces (p :: q :: qs) = p ++ slash :: ofPieces (q :: qs) := by
        simp [ofPieces, List.intercalate_cons_cons]
      rw [hcut, pieces_append_slash _ hp, hrest]

/-- The names that lead from the start of the path to its end. -/
def names (p : FilePath) : List Bytes := (pieces p).filter (· ≠ [])

/-- Whether a piece says nothing: it is empty, or it is `.` and not the start of a relative
path. -/
def isSilent (absolute : Bool) (piece : Bytes) (index : Nat) : Bool :=
  piece = [] || (piece = here && (absolute || 0 < index))

/-- The pieces up to the last one that says something. -/
def trimmed (absolute : Bool) (ps : List Bytes) : List Bytes :=
  ((ps.zipIdx.reverse.dropWhile fun (p, i) => isSilent absolute p i).reverse).map (·.1)

/-- The pieces of a path behind the slash it may start with, up to the last that says
something. -/
def body (p : FilePath) : List Bytes :=
  trimmed p.isAbsolute (pieces (if p.isAbsolute then p.drop 1 else p))

/-- The final name, if the path ends in one. -/
def fileName? (p : FilePath) : Option Bytes :=
  match p.body.getLast? with
  | none => none
  | some q => if q = here ∨ q = up then none else some q

/-- The path without its last piece; a path without pieces has no parent. -/
def parent? (p : FilePath) : Option FilePath :=
  if p.body.isEmpty then none
  else
    let rest := ofPieces (trimmed p.isAbsolute p.body.dropLast)
    some (if p.isAbsolute then slash :: rest else rest)

/-- `q` seen from `p`. -/
def join (p q : FilePath) : FilePath :=
  if q.isAbsolute ∨ p = [] then q
  else if p.getLast? = some slash then p ++ q
  else p ++ slash :: q

/-- The path with another file name, which is added if it has none. -/
def withFileName (p : FilePath) (name : Bytes) : FilePath :=
  match p.fileName? with
  | none => p.join name
  | some _ => (p.parent?.getD []).join name

end FilePath
end SnippetConsole
