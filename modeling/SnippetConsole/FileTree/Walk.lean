/-
# Where a path leads

A path is walked name by name from the root or from the current directory. `.` stays, `..`
goes up, a link is replaced by the path it holds, at most forty times; whether a link at the
very end is followed is the caller's choice, but a slash behind it always asks for what it
leads to. Every name but the last has to lead to a directory; the last need not exist, so
that it can be created. A name of more than 255 bytes and a path of more than 4095 are too
long.
-/

import SnippetConsole.FileTree.Basic

namespace SnippetConsole
namespace FileTree

/-- How many links one path may lead through. -/
def maxLinks : Nat := 40

/-- The longest name, in bytes. -/
def maxNameLength : Nat := 255

/-- The longest path, in bytes. -/
def maxPathLength : Nat := 4095

namespace Tree

/-- The location that `names` lead to from the directory `dir`, through at most `links`
links. A link at the end is followed if `follow`. -/
def walk (t : Tree) (follow : Bool) : (links : Nat) → (dir : Location) → (names : List Bytes) →
    Except Fault Location
  | _, dir, [] => .ok dir
  | links, dir, name :: rest =>
    if t.node? dir ≠ some .directory then .error .notDirectory
    else if name = FilePath.here then walk t follow links dir rest
    else if name = FilePath.up then walk t follow links dir.tail rest
    else if maxNameLength < name.length then .error .nameTooLong
    else
      match t.node? (name :: dir) with
      | none => if rest.isEmpty then .ok (name :: dir) else .error .missing
      | some (.link target) =>
        if rest.isEmpty && !follow then .ok (name :: dir)
        else
          match links with
          | 0 => .error .linkLoop
          | links + 1 =>
            walk t follow links (if target.isAbsolute then [] else dir) (target.names ++ rest)
      | some _ => walk t follow links (name :: dir) rest
termination_by links _ names => (links, names.length)

/-- Refuses a path that cannot be walked at all. -/
def requireWalkable (p : FilePath) : Except Fault Unit :=
  if p = [] then .error .missing
  else if (0 : UInt8) ∈ p then .error .nulInPath
  else if maxPathLength < p.length then .error .nameTooLong
  else .ok ()

/-- Where the walk of a path starts, seen from the directory `dir`. -/
def start (dir : Location) (p : FilePath) : Location := if p.isAbsolute then [] else dir

/-- The location that a path denotes, seen from the directory `dir`. Its parent is a
directory; the location itself need not be taken. -/
def locate (t : Tree) (dir : Location) (follow : Bool) (p : FilePath) : Except Fault Location := do
  requireWalkable p
  t.walk follow maxLinks (start dir p) p.names

/-- The directory in which the last name of a path stands, whatever that name is. -/
def locateHolder (t : Tree) (dir : Location) (p : FilePath) : Except Fault Location := do
  requireWalkable p
  t.walk true maxLinks (start dir p) (p.names.dropLast ++ [FilePath.here])

/-- Whether a path ends in a slash and so asks for a directory. -/
def endsInSlash (p : FilePath) : Bool := p.getLast? = some FilePath.slash

/-- The location and the node that a path leads to. -/
def find (t : Tree) (dir : Location) (follow : Bool) (p : FilePath) :
    Except Fault (Location × Node) := do
  let loc ← t.locate dir (follow || endsInSlash p) p
  match t.node? loc with
  | none => .error .missing
  | some .directory => .ok (loc, .directory)
  | some node =>
    if endsInSlash p then .error .notDirectory else .ok (loc, node)

/-- Nothing is found at the empty path. -/
theorem find_nil (t : Tree) (dir : Location) (follow : Bool) :
    t.find dir follow [] = .error .missing := rfl

end Tree
end FileTree
end SnippetConsole
