/-
# File trees

A tree of directories, files and symbolic links is the list of its nodes, each with its
*location*: the names that lead to it from the root, innermost first. So the parent of
`n :: dir` is `dir`, and everything below a location has it as a suffix. The root itself
is always a directory.

A file holds bytes, a loadable unit, or a program that can be run.
-/

import SnippetConsole.FilePath
import SnippetConsole.FileTree.Fault
import SnippetConsole.Loadable.Library

namespace SnippetConsole
namespace FileTree

/-- Where a node is: names from the innermost outwards. -/
abbrev Location := List Bytes

/-- What a program puts where it is told to. -/
inductive Artifact where
  | nothing
  | directory
  | bytes (content : Bytes)
  | library (library : Loadable.Library)
  deriving DecidableEq, Repr

/-- How a program ends. -/
inductive Ending where
  | status (code : Int)
  | signal (number : Nat)
  deriving DecidableEq, Repr

/-- A program: what it writes to its two outputs, whether it also lists its arguments on the
second one, what it puts at the path behind `-o`, and how it ends. -/
structure Program where
  stdout : Bytes
  stderr : Bytes
  listsArguments : Bool
  artifact : Artifact
  ending : Ending
  deriving DecidableEq, Repr

/-- The content of a file. -/
inductive Content where
  | bytes (content : Bytes)
  | library (library : Loadable.Library)
  | program (program : Program) (executable : Bool)
  deriving DecidableEq, Repr

/-- What is at a location. -/
inductive Node where
  | directory
  | file (content : Content)
  | link (target : FilePath)
  deriving DecidableEq, Repr

/-- The node that a list of nodes has at a location; the first one counts. -/
def lookup (loc : Location) : List (Location × Node) → Option Node
  | [] => none
  | (l, node) :: rest => if l = loc then some node else lookup loc rest

/-- The list with a node at a location, in place of the one there or as the last. -/
def upsert (loc : Location) (node : Node) : List (Location × Node) → List (Location × Node)
  | [] => [(loc, node)]
  | (l, old) :: rest => if l = loc then (l, node) :: rest else (l, old) :: upsert loc node rest

theorem lookup_upsert (loc : Location) (node : Node) (es : List (Location × Node))
    (other : Location) :
    lookup other (upsert loc node es) = if other = loc then some node else lookup other es := by
  induction es with
  | nil =>
    by_cases h : other = loc
    · simp [upsert, lookup, h]
    · simp [upsert, lookup, h, Ne.symm h]
  | cons e es ih =>
    obtain ⟨l, old⟩ := e
    by_cases hl : l = loc
    · by_cases h : other = loc
      · simp [upsert, lookup, hl, h]
      · simp [upsert, lookup, hl, h, Ne.symm h]
    · by_cases h : l = other
      · subst h; simp [upsert, lookup, hl]
      · simp [upsert, lookup, hl, h, ih]

theorem lookup_filter_ne (loc : Location) (es : List (Location × Node)) (other : Location) :
    lookup other (es.filter (·.1 ≠ loc)) = if other = loc then none else lookup other es := by
  induction es with
  | nil => simp [lookup]
  | cons e es ih =>
    obtain ⟨l, node⟩ := e
    by_cases hl : l = loc
    · subst hl
      by_cases h : other = l
      · simpa [h] using ih
      · simpa [h, lookup, Ne.symm h] using ih
    · by_cases h : l = other
      · subst h; simp [lookup, hl]
      · simpa [hl, lookup, h] using ih

/-- A file tree. -/
structure Tree where
  entries : List (Location × Node)
  deriving DecidableEq, Repr

namespace Tree

/-- The tree of the root alone. -/
def empty : Tree := ⟨[]⟩

/-- The node at a location. -/
def node? (t : Tree) (loc : Location) : Option Node :=
  if loc = [] then some .directory else lookup loc t.entries

/-- The tree with a node at a location, in place of what was there. -/
def put (t : Tree) (loc : Location) (node : Node) : Tree := ⟨upsert loc node t.entries⟩

/-- The tree without the node at a location. -/
def erase (t : Tree) (loc : Location) : Tree := ⟨t.entries.filter (·.1 ≠ loc)⟩

/-- The names in the directory at a location, in the order in which they were made. -/
def namesIn (t : Tree) (dir : Location) : List Bytes :=
  t.entries.filterMap fun (loc, _) =>
    match loc with
    | [] => none
    | n :: parent => if parent = dir then some n else none

/-- The locations of the nodes below a location, the deepest first. -/
def below (t : Tree) (dir : Location) : List Location :=
  ((t.entries.map (·.1)).filter fun loc => dir.isSuffixOf loc && loc ≠ dir).mergeSort
    fun a b => b.length ≤ a.length

@[simp] theorem node?_root (t : Tree) : t.node? [] = some .directory := by simp [node?]

/-- **Reading after putting:** the location has the new node, all others keep theirs. -/
theorem node?_put (t : Tree) {loc : Location} (h : loc ≠ []) (node : Node) (other : Location) :
    (t.put loc node).node? other = if other = loc then some node else t.node? other := by
  by_cases ho : other = []
  · subst ho; simp [Ne.symm h]
  · simp [node?, put, ho, lookup_upsert]

/-- **Reading after erasing:** the location is empty, all others keep their nodes. -/
theorem node?_erase (t : Tree) {loc : Location} (h : loc ≠ []) (other : Location) :
    (t.erase loc).node? other = if other = loc then none else t.node? other := by
  by_cases ho : other = []
  · subst ho; simp [Ne.symm h]
  · simp only [node?, erase, ho, if_false]
    exact lookup_filter_ne loc t.entries other

end Tree
end FileTree
end SnippetConsole
