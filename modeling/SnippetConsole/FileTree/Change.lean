/-
# Changes of a file tree

Each change is one step that happens as a whole or not at all: making a directory or a link,
writing a file, removing a file, a link or an empty directory. A path is seen from the
directory `dir`.
-/

import SnippetConsole.FileTree.Walk

namespace SnippetConsole
namespace FileTree
namespace Tree

/-- A new directory, where nothing has the name yet. -/
def makeDirectory (t : Tree) (dir : Location) (p : FilePath) : Except Fault Tree := do
  let loc ← t.locate dir false p
  match t.node? loc with
  | some _ => .error .exists_
  | none => .ok (t.put loc .directory)

/-- A new link, where nothing has the name yet. -/
def makeLink (t : Tree) (dir : Location) (p target : FilePath) : Except Fault Tree := do
  if target = [] then .error .missing
  else if (0 : UInt8) ∈ target then .error .nulInPath
  else
    let loc ← t.locate dir false p
    match t.node? loc with
    | some _ => .error .exists_
    | none => if endsInSlash p then .error .missing else .ok (t.put loc (.link target))

/-- A file with this content, in place of the one there; what a link leads to is written. A
slash at the end asks for a directory, which is no place for a file. -/
def writeFile (t : Tree) (dir : Location) (p : FilePath) (content : Content) :
    Except Fault Tree := do
  if endsInSlash p then
    let _ ← t.locateHolder dir p
    .error .isDirectory
  else
    let loc ← t.locate dir true p
    match t.node? loc with
    | some .directory => .error .isDirectory
    | _ => .ok (t.put loc (.file content))

/-- Without the file or link that the path names. -/
def removeFile (t : Tree) (dir : Location) (p : FilePath) : Except Fault Tree := do
  match ← t.find dir false p with
  | (_, .directory) => .error .isDirectory
  | (loc, _) => .ok (t.erase loc)

/-- Without the directory at a location, which has no entries. -/
def removeEmpty (t : Tree) (loc : Location) : Except Fault Tree :=
  if loc = [] then .error .invalid
  else if (t.namesIn loc).isEmpty then .ok (t.erase loc)
  else .error .notEmpty

/-- Without the directory that the path names, which has no entries. The path has to end in the
directory's own name: `.` and `..` are no entries to remove, and a link is not followed. -/
def removeDirectory (t : Tree) (dir : Location) (p : FilePath) : Except Fault Tree := do
  let loc ← t.locate dir false p
  if p.names.getLast? = some FilePath.here then .error .invalid
  else if p.names.getLast? = some FilePath.up then .error .notEmpty
  else
    match t.node? loc with
    | some .directory => t.removeEmpty loc
    | some _ => .error .notDirectory
    | none => .error .missing

end Tree
end FileTree
end SnippetConsole
