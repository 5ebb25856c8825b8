/-
# Files on a machine

Actions that are made of several changes: a directory with the parents it lacks
(`makeDirectories`), a directory with all it holds removed (`removeAll`), a directory emptied
but kept (`emptyDirectory`). They stop at the first change that fails; what was changed before
stays changed. Links found on the way are removed, never followed.
-/

import SnippetConsole.Machine.Basic

namespace SnippetConsole
namespace Machine

open FileTree

/-- Makes a directory. -/
def makeDirectory (p : FilePath) : Act Fault Unit := change fun t dir => t.makeDirectory dir p

/-- Makes a link. -/
def makeLink (p target : FilePath) : Act Fault Unit := change fun t dir => t.makeLink dir p target

/-- Writes a file. -/
def writeFile (p : FilePath) (content : Content) : Act Fault Unit :=
  change fun t dir => t.writeFile dir p content

/-- Removes a file or a link. -/
def removeFile (p : FilePath) : Act Fault Unit := change fun t dir => t.removeFile dir p

/-- Removes an empty directory. -/
def removeDirectory (p : FilePath) : Act Fault Unit := change fun t dir => t.removeDirectory dir p

/-- Makes a directory that may be there already. -/
def makeDirectoryIfAbsent (p : FilePath) : Act Fault Unit := do
  match ← attempt (makeDirectory p) with
  | .ok _ => pure ()
  | .error fault => asks fun m => if m.isDirectory p then .ok () else .error fault

/-- Makes a directory and the parents it lacks, at most `fuel` of them. -/
def makeDirectoriesWithin : (fuel : Nat) → FilePath → Act Fault Unit
  | 0, _ => pure ()
  | fuel + 1, p =>
    if p = [] then pure ()
    else do
      match ← attempt (makeDirectory p) with
      | .ok _ => pure ()
      | .error fault =>
        if fault.kind = .notFound then
          match p.parent? with
          | none => throw (.custom .other "failed to create whole tree")
          | some parent => do
            makeDirectoriesWithin fuel parent
            makeDirectoryIfAbsent p
        else asks fun m => if m.isDirectory p then .ok () else .error fault

/-- Makes a directory and the parents it lacks. A path has fewer parents than bytes. -/
def makeDirectories (p : FilePath) : Act Fault Unit := makeDirectoriesWithin (p.length + 1) p

/-- Writes a file, after the directories that it lacks. -/
def placeFile (p : FilePath) (content : Content) : Act Fault Unit := do
  makeDirectories (p.parent?.getD [])
  writeFile p content

/-- Removes the node at a location, which has no entries. -/
def removeNode (loc : Location) : Act Fault Unit := change fun t _ => t.removeEmpty loc

/-- Removes the file, the link or the directory with all it holds that a path names. -/
def removeAll (p : FilePath) : Act Fault Unit := do
  let (loc, node) ← asks fun m => m.tree.find m.directory false p
  match node with
  | .directory => do
    let inner ← asks fun m => .ok (m.tree.below loc)
    inner.forM removeNode
    removeDirectory p
  | _ => removeFile p

/-- Removes all that a directory holds. -/
def emptyDirectory (dir : FilePath) : Act Fault Unit := do
  let names ← asks fun m => m.namesAt dir
  names.forM fun name => removeAll (dir.join name)

end Machine
end SnippetConsole
