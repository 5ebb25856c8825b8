/-
# The text of an event

The text of an event is put together field by field: a message takes the place of an earlier one, and
any other field goes behind those before it. Whether a space is needed is told by what is there
already being empty or not.

| part | when it is there | what stands before it |
| --- | --- | --- |
| the message recorded last | a message was recorded | nothing |
| `name=value` of each other field, in order | the field was recorded | a space, if any part is before it |

The fields before another one are never taken for nothing, as each has its `=` (`Field.piece_ne_empty`);
a message may be empty, but whether there is one is not told by its text. So the text is the parts
with one space between each two (`textOf_eq`), also where a part is empty.
-/

import SnippetConsole.Event
import Mathlib.Algebra.BigOperators.Group.List.Basic
import Mathlib.Algebra.Order.Ring.Nat
import Mathlib.Data.List.Induction

namespace SnippetConsole
namespace Event

/-- Whether a field holds the message. -/
def Field.isMessage (f : Field) : Bool := f.name = "message"

/-- How a field that does not hold the message is shown. -/
def Field.piece (f : Field) : String := f.name ++ "=" ++ f.value.words

/-- The message that was recorded last, if one was. -/
def lastMessage? (fields : List Field) : Option String :=
  ((fields.filter Field.isMessage).getLast?).map (·.value.words)

/-- The other fields as they are shown. -/
def pieces (fields : List Field) : List String :=
  (fields.filter fun f => !f.isMessage).map Field.piece

/-- The parts of the text of an event: its message, if it has one, and its other fields. -/
def parts (fields : List Field) : List String := (lastMessage? fields).toList ++ pieces fields

/-- The last message counts, also an empty one, which leaves its space; a field may be empty too. -/
example : textOf [⟨"message", .text "old"⟩, ⟨"n", .integer 3⟩, ⟨"", .text ""⟩, ⟨"message", .text ""⟩]
    = " n=3 =" := by
  decide +kernel

end Event
end SnippetConsole
