/-
# No action spoils the tree

Each change of the file tree leaves it well-formed, and an action is put together of changes,
questions and attempts. So whatever an action of the console comes to, the tree is well-formed
afterwards if it was before (`KeepsTree`): making a workspace, allocating a request, compiling a
unit with a program as the toolchain, and saving settings.
-/

import SnippetConsole.Execution.Native
import SnippetConsole.Proofs.Allocation
import SnippetConsole.Settings.Store

namespace SnippetConsole

/-! ### Files -/

namespace Machine

open FileTree

/-- Whatever the action comes to, the tree is well-formed afterwards if it was before. -/
abbrev KeepsTree (act : Act ε α) : Prop := Keeps (fun m => m.tree.WellFormed) act

theorem keepsTree_makeDirectory (p : FilePath) : KeepsTree (makeDirectory p) :=
  keeps_change_tree fun _ _ _ ht h => ht.makeDirectory h

theorem keepsTree_writeFile (p : FilePath) (content : Content) : KeepsTree (writeFile p content) :=
  keeps_change_tree fun _ _ _ ht h => ht.writeFile h

theorem keepsTree_removeFile (p : FilePath) : KeepsTree (removeFile p) :=
  keeps_change_tree fun _ _ _ ht h => ht.removeFile h

theorem keepsTree_removeDirectory (p : FilePath) : KeepsTree (removeDirectory p) :=
  keeps_change_tree fun _ _ _ ht h => ht.removeDirectory h

theorem keepsTree_removeNode (loc : Location) : KeepsTree (removeNode loc) :=
  keeps_change_tree fun _ _ _ ht h => ht.removeEmpty h

theorem keepsTree_makeDirectories (p : FilePath) : KeepsTree (makeDirectories p) :=
  keeps_makeDirectories keepsTree_makeDirectory p

theorem keepsTree_removeAll (p : FilePath) : KeepsTree (removeAll p) := by
  refine (keeps_asks _).bind fun ⟨loc, node⟩ => ?_
  cases node with
  | directory =>
    exact (keeps_asks _).bind fun inner =>
      (keeps_forM fun below _ => keepsTree_removeNode below).bind fun _ =>
        keepsTree_removeDirectory p
  | file content => exact keepsTree_removeFile p
  | link path => exact keepsTree_removeFile p

theorem keepsTree_emptyDirectory (dir : FilePath) : KeepsTree (emptyDirectory dir) :=
  (keeps_asks _).bind fun _ => keeps_forM fun _ _ => keepsTree_removeAll _

end Machine

open Machine

/-! ### Workspaces -/

namespace Workspace

/-- **Making a workspace** keeps the tree well-formed, wherever it stops. -/
theorem keepsTree_initialise (root : FilePath) : KeepsTree (initialise root) := by
  refine (keepsTree_makeDirectories root).withFault.bind fun _ => ?_
  refine (keeps_asks _).withFault.bind fun owned => ?_
  have hfurnish : KeepsTree (do
      withFault (Fault.initialise root) (emptyDirectory root)
      withFault (Fault.initialise root) (writeFile (root.join markerName) (.bytes []))
      withFault (Fault.initialise root) (makeDirectory (Workspace.mk root).sources)
      withFault (Fault.initialise root) (makeDirectory (Workspace.mk root).artifacts)
      pure (Workspace.mk root)) :=
    (keepsTree_emptyDirectory root).withFault.bind fun _ =>
      (keepsTree_writeFile _ _).withFault.bind fun _ =>
      (keepsTree_makeDirectory _).withFault.bind fun _ =>
      (keepsTree_makeDirectory _).withFault.bind fun _ => keeps_pure _
  cases owned with
  | false => exact (keeps_throw _).bind fun _ => hfurnish
  | true => exact hfurnish

/-- **Allocating a request** keeps the tree well-formed, however many ids are tried. -/
theorem keepsTree_allocate (w : Workspace) : KeepsTree w.allocate := by
  have hwithin (left tried : Nat) (fault : FileTree.Fault) :
      KeepsTree (w.allocateWithin left tried fault) := by
    induction left generalizing tried fault with
    | zero => exact keeps_throw _
    | succ left ih =>
      have hid : KeepsTree (nextId : Act Fault RequestId) := fun _ ht => ht
      refine hid.bind fun id => (keeps_makePair _ _).attempt.bind fun result => ?_
      cases result with
      | ok _ => exact keeps_pure _
      | error fault =>
        dsimp only
        split
        · exact ih _ _
        · exact keeps_throw _
  exact hwithin _ _ _

end Workspace

/-! ### Compiling and saving -/

namespace Compile

theorem Toolchain.keepsTree_place (artifact : FileTree.Artifact) (p : FilePath) :
    KeepsTree (place artifact p) := by
  cases artifact with
  | nothing => exact keeps_pure _
  | directory => exact keepsTree_makeDirectory p
  | bytes content => exact keepsTree_writeFile p _
  | library library => exact keepsTree_writeFile p _

/-- A program run as a toolchain does nothing to the tree but place its artifact. -/
theorem Toolchain.keepsTree_program (p : FilePath) (invocation : Invocation) :
    KeepsTree (program p invocation) := by
  unfold program
  dsimp only
  split
  · exact (keeps_throw _).bind fun _ => (keeps_asks _).bind fun found =>
      (keepsTree_place _ _).attempt.bind fun _ => keeps_pure _
  · exact (keeps_asks _).bind fun found =>
      (keepsTree_place _ _).attempt.bind fun _ => keeps_pure _

end Compile

namespace Compiler

open Compile

variable {c : Compiler} (hc : ∀ invocation, KeepsTree (c.toolchain invocation))

include hc

theorem keepsTree_build (unit : Snippet.SourceUnit) (request : Workspace.Request) :
    KeepsTree (c.build unit request) := by
  refine (keeps_asks _).bind fun checked => ?_
  refine (keeps_forM fun _ _ => keepsTree_writeFile _ _).withFault.bind fun _ => ?_
  have hnote (arguments : List Bytes) : KeepsTree (noteRun arguments : Act Fault Unit) :=
    fun _ ht => ht
  refine (hnote _).bind fun _ => (hc _).withFault.bind fun output => ?_
  split
  · exact (keeps_throw _).bind fun _ => keeps_asks _
  · exact keeps_asks _

/-- **Compiling** keeps the tree well-formed if the toolchain does, also if the artifacts are
cleared. -/
theorem keepsTree_compile (unit : Snippet.SourceUnit) (request : Workspace.Request) :
    KeepsTree (c.compile unit request) := by
  refine (keepsTree_build hc unit request).attempt.bind fun result => ?_
  cases result with
  | ok path => exact keeps_pure _
  | error fault =>
    exact (keepsTree_emptyDirectory _).attempt.bind fun _ => keeps_throw _

end Compiler

/-- **Saving settings** keeps the tree well-formed, saved or not. -/
theorem Settings.keepsTree_save (s : Settings) (path : FilePath) : KeepsTree (s.save path) := by
  have hwrite : KeepsTree (withFault (Settings.Fault.file path)
      (writeFile path (.bytes (Text.encode s.fileText)))) := (keepsTree_writeFile _ _).withFault
  unfold save
  rcases path.parent? with _ | parent
  · exact hwrite
  · exact (keepsTree_makeDirectories parent).withFault.bind fun _ => hwrite

/-- **Building a unit** in a fresh request keeps the tree well-formed. -/
theorem Execution.Native.keepsTree_build (w : Workspace) {c : Compiler}
    (hc : ∀ invocation, KeepsTree (c.toolchain invocation)) (unit : Snippet.SourceUnit) :
    KeepsTree (build w c unit) :=
  w.keepsTree_allocate.withFault.bind fun request => (c.keepsTree_compile hc unit request).withFault

end SnippetConsole
