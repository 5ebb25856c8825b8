/-
# Writing JSON

Two forms, with the same tokens in the same order. The compact one (`compact`) has no blanks.
The pretty one (`pretty`) puts each item and member on a line of its own, indented by two
spaces a level, with a space after the colon, and writes empty lists and objects as a pair
of brackets. Members are written in the order in which they stand; `Value.sorted` is the value
that reading gives back.

In a string, the quote, the backslash and the control characters below U+0020 are escaped, with
a letter where JSON has one.
-/

import SnippetConsole.Json.Reader
import SnippetConsole.Text.Hexadecimal

namespace SnippetConsole
namespace Json

/-- How one character is written in a string. -/
def escapedChar (c : Char) : List Char :=
  if c = '"' then ['\\', '"']
  else if c = '\\' then ['\\', '\\']
  else if c = '\x08' then ['\\', 'b']
  else if c = '\x0C' then ['\\', 'f']
  else if c = '\n' then ['\\', 'n']
  else if c = '\r' then ['\\', 'r']
  else if c = '\t' then ['\\', 't']
  else if c.toNat < 0x20 then
    ['\\', 'u'] ++ Text.hexPadded 4 c.toNat
  else [c]

/-- A string with its quotes. -/
def quotedString (s : String) : List Char := '"' :: s.toList.flatMap escapedChar ++ ['"']

/-- Doubles in a document: positional from `10 ^ -5` up to `10 ^ 16`, else with a signed
power. -/
def numberText : Number → List Char
  | .integer n => (toString n).toList
  | .real x => (x.render realLayout).toList

/-- A truth value as a word. -/
def boolText (b : Bool) : List Char := if b then ['t', 'r', 'u', 'e'] else ['f', 'a', 'l', 's', 'e']

/-- A line feed and `level` indentations. -/
def newLine (level : Nat) : List Char := '\n' :: List.replicate (2 * level) ' '

/-- Pieces between brackets, with a comma between each two. -/
def bracketed (opening closing : Char) (pieces : List (List Char)) : List Char :=
  opening :: List.intercalate [','] pieces ++ [closing]

/-- Pieces between brackets, each on a line of its own one level below `level`. -/
def bracketedLines (opening closing : Char) (level : Nat) (pieces : List (List Char)) :
    List Char :=
  if pieces.isEmpty then [opening, closing]
  else
    opening :: List.intercalate [','] (pieces.map (newLine (level + 1) ++ ·))
      ++ newLine level ++ [closing]

mutual

/-- The pretty form of a value at a level. -/
def prettyChars (level : Nat) : Value → List Char
  | .null => ['n', 'u', 'l', 'l']
  | .bool b => boolText b
  | .number n => numberText n
  | .string s => quotedString s
  | .array vs => bracketedLines '[' ']' level (prettyItems (level + 1) vs)
  | .object ms => bracketedLines '\x7b' '\x7d' level (prettyMembers (level + 1) ms)

/-- The pretty forms of list items. -/
def prettyItems (level : Nat) : List Value → List (List Char)
  | [] => []
  | v :: vs => prettyChars level v :: prettyItems level vs

/-- The pretty forms of members. -/
def prettyMembers (level : Nat) : List (String × Value) → List (List Char)
  | [] => []
  | (k, v) :: ms => (quotedString k ++ [':', ' '] ++ prettyChars level v) :: prettyMembers level ms

end

/-- The pretty form of a value. -/
def pretty (v : Value) : String := String.ofList (prettyChars 0 v)

mutual

/-- The compact form of a value. -/
def compactChars : Value → List Char
  | .null => ['n', 'u', 'l', 'l']
  | .bool b => boolText b
  | .number n => numberText n
  | .string s => quotedString s
  | .array vs => bracketed '[' ']' (compactItems vs)
  | .object ms => bracketed '\x7b' '\x7d' (compactMembers ms)

/-- The compact forms of list items. -/
def compactItems : List Value → List (List Char)
  | [] => []
  | v :: vs => compactChars v :: compactItems vs

/-- The compact forms of members. -/
def compactMembers : List (String × Value) → List (List Char)
  | [] => []
  | (k, v) :: ms => (quotedString k ++ ':' :: compactChars v) :: compactMembers ms

end

/-- The compact form of a value. -/
def compact (v : Value) : String := String.ofList (compactChars v)

mutual

/-- The value with the members of each object in the order of their keys. -/
def Value.sorted : Value → Value
  | .array vs => .array (sortedItems vs)
  | .object ms => .object (ofMembers (sortedMembers ms))
  | v => v

/-- List items, each sorted. -/
def sortedItems : List Value → List Value
  | [] => []
  | v :: vs => v.sorted :: sortedItems vs

/-- Members with their values sorted. -/
def sortedMembers : List (String × Value) → List (String × Value)
  | [] => []
  | (k, v) :: ms => (k, v.sorted) :: sortedMembers ms

end

end Json
end SnippetConsole
