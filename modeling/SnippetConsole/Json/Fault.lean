/-
# What can be wrong with a JSON text or value

A fault of syntax is a place where the text leaves the grammar; a fault of data is a value
that is not what the reader of a record asked for. A fault found in a text carries the
number of bytes that had not been read when it was seen: with the text at hand that is a
line and a column (`position`), and without the text it needs no counting.
-/

import SnippetConsole.Json.Basic
import SnippetConsole.Decimal.Layout
import SnippetConsole.Text.Quoted
import SnippetConsole.Text.Utf8

namespace SnippetConsole
namespace Json

/-- Why a text is not JSON. -/
inductive SyntaxFault where
  | endInValue
  | endInList
  | endInObject
  | endInString
  | expectedColon
  | expectedListCommaOrEnd
  | expectedObjectCommaOrEnd
  | expectedWord
  | expectedValue
  | invalidEscape
  | invalidNumber
  | numberOutOfRange
  | controlCharacter
  | keyMustBeString
  | loneSurrogate
  | trailingComma
  | trailingCharacters
  | endOfEscape
  | tooDeep
  deriving DecidableEq, Repr

/-- The words for a fault of syntax. -/
def SyntaxFault.message : SyntaxFault → String
  | endInValue => "EOF while parsing a value"
  | endInList => "EOF while parsing a list"
  | endInObject => "EOF while parsing an object"
  | endInString => "EOF while parsing a string"
  | expectedColon => "expected `:`"
  | expectedListCommaOrEnd => "expected `,` or `]`"
  | expectedObjectCommaOrEnd => "expected `,` or `\x7d`"
  | expectedWord => "expected ident"
  | expectedValue => "expected value"
  | invalidEscape => "invalid escape"
  | invalidNumber => "invalid number"
  | numberOutOfRange => "number out of range"
  | controlCharacter => "control character (\\u0000-\\u001F) found while parsing a string"
  | keyMustBeString => "key must be a string"
  | loneSurrogate => "lone leading surrogate in hex escape"
  | trailingComma => "trailing comma"
  | trailingCharacters => "trailing characters"
  | endOfEscape => "unexpected end of hex escape"
  | tooDeep => "recursion limit exceeded"

/-- What was found where something else was wanted. -/
inductive Found where
  | null
  | bool (b : Bool)
  | number (n : Number)
  | string (s : String)
  | sequence
  | map
  deriving DecidableEq, Repr

/-- What a value is found to be. -/
def Value.found : Value → Found
  | .null => .null
  | .bool b => .bool b
  | .number n => .number n
  | .string s => .string s
  | .array _ => .sequence
  | .object _ => .map

/-- Doubles in faults: positional from `10 ^ -5` up to `10 ^ 16`, else with a signed power. -/
def realLayout : Decimal.Layout := ⟨-5, 16, true⟩

/-- The words for what was found. -/
def Found.message : Found → String
  | null => "null"
  | bool b => "boolean `" ++ (if b then "true" else "false") ++ "`"
  | number (.integer n) => "integer `" ++ toString n ++ "`"
  | number (.real x) => "floating point `" ++ x.render realLayout ++ "`"
  | string s => "string " ++ Text.quoted s
  | sequence => "sequence"
  | map => "map"

/-- Why a value does not fit what was asked for. -/
inductive DataFault where
  | wrongType (found : Found) (want : String)
  | wrongValue (found : Found) (want : String)
  | missingField (key : String)
  | duplicateField (key : String)
  | wrongLength (length : Nat) (want : String)
  | unknownVariant (name : String) (known : List String)
  deriving DecidableEq, Repr

/-- The words for a fault of data. -/
def DataFault.message : DataFault → String
  | wrongType found want => "invalid type: " ++ found.message ++ ", expected " ++ want
  | wrongValue found want => "invalid value: " ++ found.message ++ ", expected " ++ want
  | missingField key => "missing field `" ++ key ++ "`"
  | duplicateField key => "duplicate field `" ++ key ++ "`"
  | wrongLength n want => "invalid length " ++ toString n ++ ", expected " ++ want
  | unknownVariant name known =>
    "unknown variant `" ++ name ++ "`, expected one of "
      ++ String.intercalate ", " (known.map fun k => "`" ++ k ++ "`")

/-- The cause of a fault. -/
inductive Cause where
  | grammar (fault : SyntaxFault)
  | data (fault : DataFault)
  deriving DecidableEq, Repr

/-- The words for a cause. -/
def Cause.message : Cause → String
  | grammar f => f.message
  | data f => f.message

/-- A fault found in a text, with the number of bytes then unread. -/
structure Fault where
  cause : Cause
  unread : Nat
  deriving DecidableEq, Repr

/-- Number of bytes in the UTF-8 form of `cs`. -/
def byteCount : List Char → Nat
  | [] => 0
  | c :: cs => c.utf8Size + byteCount cs

/-- A fault of syntax with `rest` unread. -/
def Fault.here (fault : SyntaxFault) (rest : List Char) : Fault :=
  ⟨.grammar fault, byteCount rest⟩

/-- A fault of syntax at the next byte of `rest`, which counts as read. -/
def Fault.ahead (fault : SyntaxFault) (rest : List Char) : Fault :=
  ⟨.grammar fault, byteCount rest - 1⟩

/-- A fault of data with `rest` unread. -/
def Fault.ofData (fault : DataFault) (rest : List Char) : Fault :=
  ⟨.data fault, byteCount rest⟩

/-- Line and column after `bytes`: lines count from 1, a line feed starts column 0. -/
def position (bytes : Bytes) : Nat × Nat :=
  bytes.foldl (fun (line, column) (b : UInt8) => if b = 10 then (line + 1, 0) else (line, column + 1))
    (1, 0)

/-- The words for a fault of `text`: the cause, and the line and column where it was seen. -/
def Fault.message (text : String) (fault : Fault) : String :=
  let bytes := Text.encode text
  let (line, column) := position (bytes.take (bytes.length - fault.unread))
  fault.cause.message ++ " at line " ++ toString line ++ " column " ++ toString column

end Json
end SnippetConsole
