/-
# Lines of the log

A template has slots for the severity, the caller, the count, the time of the first arrival
and the text. The slots are filled one kind after the other, the text last, so slots
inside a text are never filled, while one inside a caller is filled by a later kind.
-/

import SnippetConsole.Log.Entry
import SnippetConsole.Text.Substitution

namespace SnippetConsole
namespace Log

/-- The slot with a name: the name between two pairs of braces. -/
def slot (name : String) : String := "\x7b\x7b" ++ name ++ "\x7d\x7d"

/-- The line of an entry in a template. -/
def Entry.format (template : String) (e : Entry) : String :=
  template
    |> Text.replaceAll (slot "type") e.severity.name
    |> Text.replaceAll (slot "caller") e.caller
    |> Text.replaceAll (slot "count") (toString e.count)
    |> Text.replaceAll (slot "time") e.time.clockText
    |> Text.replaceAll (slot "message") e.text

end Log
end SnippetConsole
