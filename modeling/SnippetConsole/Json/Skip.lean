/-
# Passing over a value

A record ignores the members that it has no field for. Their values only have to be
well-formed; nothing is made of them, so they may be nested to any depth, their numbers may
be of any size and halves of unit pairs may stand alone.
-/

import SnippetConsole.Json.Reader

namespace SnippetConsole
namespace Json

/-- The rest after a string, its opening quote already read. -/
def skipString : List Char → Except Fault (List Char)
  | [] => .error (.here .endInString [])
  | '"' :: rest => .ok rest
  | '\\' :: [] => .error (.here .endInString [])
  | '\\' :: 'u' :: cs =>
    match cs with
    | a :: b :: c :: d :: rest =>
      match hexUnit? a b c d with
      | none => .error (unitFault cs)
      | some _ => skipString rest
    | _ => .error (unitFault cs)
  | '\\' :: e :: rest =>
    match shortEscape? e with
    | none => .error (.ahead .invalidEscape (e :: rest))
    | some _ => skipString rest
  | c :: rest =>
    if c.toNat < 0x20 then .error (.here .controlCharacter (c :: rest))
    else skipString rest

/-- The rest after the stated power of a number, its letter already read. -/
def skipPower (cs : List Char) : Except Fault (List Char) :=
  let cs :=
    match cs with
    | '+' :: cs => cs
    | '-' :: cs => cs
    | cs => cs
  let (ds, rest) := Decimal.digits cs
  if ds.isEmpty then .error (.ahead .invalidNumber rest) else .ok rest

/-- The rest after what may follow the digits of a number. -/
def skipAfterDigits : List Char → Except Fault (List Char)
  | 'e' :: rest => skipPower rest
  | 'E' :: rest => skipPower rest
  | rest => .ok rest

/-- The rest after a number, its minus already read. -/
def skipNumber (cs : List Char) : Except Fault (List Char) :=
  let (ds, rest) := Decimal.digits cs
  match ds with
  | [] => .error (.ahead .invalidNumber rest)
  | '0' :: _ :: _ => .error (.ahead .invalidNumber (ds.drop 1 ++ rest))
  | _ =>
    match rest with
    | '.' :: rest =>
      let (ds, rest) := Decimal.digits rest
      if ds.isEmpty then .error (.ahead .invalidNumber rest) else skipAfterDigits rest
    | rest => skipAfterDigits rest

/-- The rest after a value that is no list and no object. -/
def skipScalar : List Char → Except Fault (List Char)
  | [] => .error (.here .endInValue [])
  | 'n' :: rest => afterWord ['u', 'l', 'l'] rest
  | 't' :: rest => afterWord ['r', 'u', 'e'] rest
  | 'f' :: rest => afterWord ['a', 'l', 's', 'e'] rest
  | '"' :: rest => skipString rest
  | '-' :: rest => skipNumber rest
  | c :: rest =>
    if Decimal.isDigit c then skipNumber (c :: rest) else .error (.ahead .expectedValue (c :: rest))

/-- The rest after a key and its colon. -/
def skipKey (cs : List Char) : Except Fault (List Char) :=
  match skipBlanks cs with
  | [] => .error (.here .endInObject [])
  | '"' :: rest => do afterColon (← skipString rest)
  | rest => .error (.ahead .keyMustBeString rest)

/-- The rest after the items of a list and its closing bracket. -/
def skipItems (item : List Char → Except Fault (List Char)) :
    (fuel : Nat) → (first : Bool) → List Char → Except Fault (List Char)
  | 0, _, cs => .error (.here .endInList cs)
  | fuel + 1, first, cs =>
    match skipBlanks cs with
    | [] => .error (.here .endInList [])
    | ']' :: rest => .ok rest
    | c :: rest => do
      if first then skipItems item fuel false (← item (c :: rest))
      else if c = ',' then skipItems item fuel false (← item rest)
      else .error (.ahead .expectedListCommaOrEnd (c :: rest))

/-- The rest after the members of an object and its closing bracket. -/
def skipMembers (item : List Char → Except Fault (List Char)) :
    (fuel : Nat) → (first : Bool) → List Char → Except Fault (List Char)
  | 0, _, cs => .error (.here .endInObject cs)
  | fuel + 1, first, cs =>
    match skipBlanks cs with
    | [] => .error (.here .endInObject [])
    | '\x7d' :: rest => .ok rest
    | c :: rest => do
      if first then skipMembers item fuel false (← item (← skipKey (c :: rest)))
      else if c = ',' then skipMembers item fuel false (← item (← skipKey rest))
      else .error (.ahead .expectedObjectCommaOrEnd (c :: rest))

/-- The rest after a value with at most `depth` brackets around each other. -/
def skipWithin : (depth : Nat) → List Char → Except Fault (List Char)
  | 0, cs => skipScalar (skipBlanks cs)
  | depth + 1, cs =>
    match skipBlanks cs with
    | '[' :: rest => skipItems (skipWithin depth) cs.length true rest
    | '\x7b' :: rest => skipMembers (skipWithin depth) cs.length true rest
    | cs => skipScalar cs

/-- The rest after a value. A text cannot be nested deeper than it is long. -/
def skipValue (cs : List Char) : Except Fault (List Char) := skipWithin cs.length cs

end Json
end SnippetConsole
