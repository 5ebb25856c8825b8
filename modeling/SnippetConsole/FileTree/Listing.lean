/-
# Listing what lies below a directory

`Tree.listing` names everything below a location, each by its path from there: a directory
before what it holds, and names in the order of their bytes. That is the order of the paths as
lists of names, so one sort gives it. Directories are marked with a slash, links with `@`.
-/

import SnippetConsole.FileTree.Walk

namespace SnippetConsole
namespace FileTree
namespace Tree

/-- The mark behind the name of a node in a listing. -/
def listingMark : Node → Bytes
  | .directory => [FilePath.slash]
  | .link _ => [64]
  | .file _ => []

/-- The names that lead from a location to one below it, outermost first. -/
def namesFrom (dir loc : Location) : List Bytes := (loc.take (loc.length - dir.length)).reverse

/-- Everything below a location, in order. -/
def listing (t : Tree) (dir : Location) : List Bytes :=
  ((t.below dir).mergeSort fun a b => compare (namesFrom dir a) (namesFrom dir b) != .gt).map fun loc =>
    List.intercalate [FilePath.slash] (namesFrom dir loc)
      ++ ((t.node? loc).map listingMark).getD []

/-- **Names from a directory lead back:** outermost last, in front of it, they are the location. -/
theorem reverse_namesFrom_append {dir loc : Location} (h : dir <:+ loc) :
    (namesFrom dir loc).reverse ++ dir = loc := by
  obtain ⟨inner, rfl⟩ := h
  simp [namesFrom]

end Tree
end FileTree
end SnippetConsole
