/-
# Events of an application

An application reports events: a level, a target that names their source, and fields. Those
that are accepted become messages of the log. An event is accepted if its level is not more
verbose than the bridge's and its target starts with none of the ignored beginnings; the
console's own targets are ignored from the start.

The text of an event is its message followed by its other fields, each as `name=value`,
with a space between each two; a message field given more than once counts by its last value.
-/

import SnippetConsole.Decimal.Layout
import SnippetConsole.Decimal.Spelling
import SnippetConsole.Log.Basic
import SnippetConsole.Text.Quoted

namespace SnippetConsole
namespace Event

/-- A number in a field: finite, infinite or none. -/
inductive Real where
  | finite (x : Decimal.Binary64)
  | infinite (negative : Bool)
  | notANumber
  deriving DecidableEq, Repr

/-- The value of a field. -/
inductive FieldValue where
  | text (s : String)
  | quoted (s : String)
  | integer (n : Int)
  | truth (b : Bool)
  | real (x : Real)
  deriving DecidableEq, Repr

/-- Numbers in fields: positional from `10 ^ -4` up to `10 ^ 16`, else with a power of ten. -/
def realLayout : Decimal.Layout := ⟨-4, 16, false⟩

/-- The words for a number. -/
def Real.words : Real → String
  | finite x => x.render realLayout
  | infinite negative => if negative then "-inf" else "inf"
  | notANumber => "NaN"

/-- The number that a text spells: a decimal, `inf`, `infinity` or `nan`, the case of letters
ignored, behind at most one sign. -/
def Real.ofText? (text : String) : Option Real :=
  let (negative, cs) := Decimal.sign text.toList
  let word := String.ofList (cs.map Char.toLower)
  if word = "inf" ∨ word = "infinity" then some (infinite negative)
  else if word = "nan" then some notANumber
  else
    (Decimal.decimal? cs).map fun (n, count, power) =>
      match Decimal.Binary64.ofDecimal? negative n count power with
      | some x => finite x
      | none => infinite negative

/-- The words for a value. -/
def FieldValue.words : FieldValue → String
  | text s => s
  | quoted s => Text.quoted s
  | integer n => toString n
  | truth b => if b then "true" else "false"
  | real x => x.words

/-- A recorded field. -/
structure Field where
  name : String
  value : FieldValue
  deriving DecidableEq, Repr

/-- The name of the field that holds the message. -/
def messageName : String := "message"

/-- What has been read of the fields of an event. -/
structure Reading where
  message : Option String
  fields : String
  deriving DecidableEq, Repr

/-- The reading with one more field. -/
def Reading.add (r : Reading) (f : Field) : Reading :=
  if f.name = messageName then { r with message := some f.value.words }
  else
    let piece := f.name ++ "=" ++ f.value.words
    { r with fields := if r.fields = "" then piece else r.fields ++ " " ++ piece }

/-- The text of what was read. -/
def Reading.text (r : Reading) : String :=
  match r.message with
  | none => r.fields
  | some message => if r.fields = "" then message else message ++ " " ++ r.fields

/-- The text of an event with these fields. -/
def textOf (fields : List Field) : String := (fields.foldl Reading.add ⟨none, ""⟩).text

end Event

/-- An event of an application. -/
structure Event where
  level : Level
  target : String
  fields : List Event.Field
  deriving DecidableEq, Repr

namespace Event

/-- Which events reach the log. -/
structure Bridge where
  level : Level
  ignored : List String
  deriving DecidableEq, Repr

namespace Bridge

/-- The bridge for informational and more serious events of others than the console. -/
def standard : Bridge := ⟨.info, ["livecode_"]⟩

/-- The bridge for events up to another level. -/
def withLevel (b : Bridge) (level : Level) : Bridge := { b with level := level }

/-- The bridge without the events whose target starts with `beginning`. -/
def ignoring (b : Bridge) (beginning : String) : Bridge :=
  { b with ignored := b.ignored ++ [beginning] }

/-- The bridge for events of every target. -/
def forwardingAll (b : Bridge) : Bridge := { b with ignored := [] }

/-- Whether an event reaches the log. -/
def accepts (b : Bridge) (e : Event) : Bool :=
  e.level.rank ≤ b.level.rank
    && !b.ignored.any fun beginning => beginning.toList.isPrefixOf e.target.toList

end Bridge

/-- The message that an event becomes. -/
def toMessage (e : Event) : Log.Message :=
  ⟨.named e.target, textOf e.fields, Severity.ofLevel e.level⟩

/-- The log after an event. -/
def Bridge.receive (b : Bridge) (log : Log) (e : Event) : Log :=
  if b.accepts e then log.write e.toMessage else log

end Event
end SnippetConsole
