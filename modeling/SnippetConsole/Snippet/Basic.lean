/-
# Snippets as units

A unit is a list of named source files, the first of which is its root. A template makes a
unit of a command: one file, the frame with the prelude at the first mark for it and then the
command at the first mark for it.
-/

import SnippetConsole.Settings.Basic
import SnippetConsole.Snippet.Frame
import SnippetConsole.Text.Substitution

namespace SnippetConsole
namespace Snippet

/-- A source file. Only the final part of its name is used where it is written. -/
structure SourceFile where
  name : String
  text : String
  deriving DecidableEq, Repr

/-- Files compiled together; the first is the root. -/
structure SourceUnit where
  files : List SourceFile
  deriving DecidableEq, Repr

/-- A template with the lines of its prelude. -/
structure Template where
  prelude : List String
  deriving DecidableEq, Repr

/-- The template with the standard prelude. -/
def Template.standard : Template := ⟨Settings.standardPrelude⟩

/-- The template with the prelude of the settings. -/
def Template.ofSettings (t : Settings.Toolchain) : Template := ⟨t.prelude⟩

/-- The root file of a command. -/
def Template.render (t : Template) (command : String) : String :=
  frame
    |> Text.replaceFirst preludeMarker (String.intercalate "\n" t.prelude)
    |> Text.replaceFirst bodyMarker command

/-- The name of the root file of a command. -/
def rootName : String := "command_line.rs"

/-- The unit of a command. -/
def Template.wrap (t : Template) (command : String) : SourceUnit :=
  ⟨[⟨rootName, t.render command⟩]⟩

end Snippet
end SnippetConsole
