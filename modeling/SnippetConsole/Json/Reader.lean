/-
# Reading a JSON text

`nextItem` and `nextKey` decide what follows inside brackets, and `items` and `members`
read a whole list or object with a reader for what is inside; so one pair of readers serves
untyped values here and records elsewhere. `value` reads any value with at most `depth`
brackets around each other, `document` a whole text. Texts nested deeper than 127 are
refused.
-/

import SnippetConsole.Json.Lexeme

namespace SnippetConsole
namespace Json

/-- Whether an item follows in a list, of which `first` says that none was read yet. What is
left starts at the item or at the closing bracket. -/
def nextItem (first : Bool) : Reader Bool := fun cs =>
  match skipBlanks cs with
  | [] => .error (.here .endInList [])
  | ']' :: rest => .ok (false, ']' :: rest)
  | c :: rest =>
    if first then .ok (true, c :: rest)
    else if c = ',' then
      match skipBlanks rest with
      | [] => .error (.here .endInValue [])
      | ']' :: rest => .error (.ahead .trailingComma (']' :: rest))
      | rest => .ok (true, rest)
    else .error (.ahead .expectedListCommaOrEnd (c :: rest))

/-- Whether a key follows in an object, of which `first` says that none was read yet. What is
left starts behind the opening quote of the key or at the closing bracket. -/
def nextKey (first : Bool) : Reader Bool := fun cs =>
  match skipBlanks cs with
  | [] => .error (.here .endInObject [])
  | '\x7d' :: rest => .ok (false, '\x7d' :: rest)
  | c :: rest =>
    if first then
      if c = '"' then .ok (true, rest) else .error (.ahead .keyMustBeString (c :: rest))
    else if c = ',' then
      match skipBlanks rest with
      | [] => .error (.here .endInValue [])
      | '"' :: rest => .ok (true, rest)
      | '\x7d' :: rest => .error (.ahead .trailingComma ('\x7d' :: rest))
      | rest => .error (.ahead .keyMustBeString rest)
    else .error (.ahead .expectedObjectCommaOrEnd (c :: rest))

/-- The characters after the colon that separates a key from its value. -/
def afterColon (cs : List Char) : Except Fault (List Char) :=
  match skipBlanks cs with
  | [] => .error (.here .endInObject [])
  | ':' :: rest => .ok rest
  | rest => .error (.ahead .expectedColon rest)

/-- The items of a list up to its closing bracket, which is read too. `fuel` bounds their
number. -/
def items (item : Reader α) : (fuel : Nat) → (first : Bool) → Reader (List α)
  | 0, _ => fun cs => .error (.here .endInList cs)
  | fuel + 1, first => fun cs => do
    let (more, cs) ← nextItem first cs
    if more then
      let (x, cs) ← item cs
      let (xs, cs) ← items item fuel false cs
      .ok (x :: xs, cs)
    else .ok ([], cs.drop 1)

/-- The members of an object up to its closing bracket, which is read too. `fuel` bounds
their number. -/
def members (item : Reader α) : (fuel : Nat) → (first : Bool) → Reader (List (String × α))
  | 0, _ => fun cs => .error (.here .endInObject cs)
  | fuel + 1, first => fun cs => do
    let (more, cs) ← nextKey first cs
    if more then
      let (key, cs) ← string cs
      let cs ← afterColon cs
      let (x, cs) ← item cs
      let (xs, cs) ← members item fuel false cs
      .ok ((key, x) :: xs, cs)
    else .ok ([], cs.drop 1)

/-- A value that is no list and no object. -/
def scalar : Reader Value := fun cs =>
  match cs with
  | [] => .error (.here .endInValue [])
  | 'n' :: rest => do .ok (.null, ← afterWord ['u', 'l', 'l'] rest)
  | 't' :: rest => do .ok (.bool true, ← afterWord ['r', 'u', 'e'] rest)
  | 'f' :: rest => do .ok (.bool false, ← afterWord ['a', 'l', 's', 'e'] rest)
  | '"' :: rest => do
    let (s, rest) ← string rest
    .ok (.string s, rest)
  | '-' :: rest => do
    let (n, rest) ← number true rest
    .ok (.number n, rest)
  | c :: rest =>
    if Decimal.isDigit c then do
      let (n, rest) ← number false (c :: rest)
      .ok (.number n, rest)
    else .error (.ahead .expectedValue (c :: rest))

/-- A value with at most `depth` brackets around each other. -/
def value : (depth : Nat) → Reader Value
  | 0 => fun cs =>
    match skipBlanks cs with
    | '[' :: rest => .error (.ahead .tooDeep ('[' :: rest))
    | '\x7b' :: rest => .error (.ahead .tooDeep ('\x7b' :: rest))
    | cs => scalar cs
  | depth + 1 => fun cs =>
    match skipBlanks cs with
    | '[' :: rest => do
      let (xs, rest) ← items (value depth) cs.length true rest
      .ok (.array xs, rest)
    | '\x7b' :: rest => do
      let (ms, rest) ← members (value depth) cs.length true rest
      .ok (.object (ofMembers ms), rest)
    | cs => scalar cs

/-- The greatest number of brackets around each other. -/
def maxDepth : Nat := 127

/-- What a reader makes of a whole text, after which only blanks may follow. -/
def wholly (reader : Reader α) (cs : List Char) : Except Fault α := do
  let (x, rest) ← reader cs
  match skipBlanks rest with
  | [] => .ok x
  | rest => .error (.ahead .trailingCharacters rest)

/-- The value of a text. -/
def document (text : String) : Except Fault Value := wholly (value maxDepth) text.toList

end Json
end SnippetConsole
