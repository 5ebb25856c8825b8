/-
# Reading typed data

A decoder makes a typed value in two ways that agree on what fits: from a JSON value
(`ofValue`), where a fault has no place, and straight from a text (`ofText`), where syntax
and data are checked together and each fault has a place.

A record (`Shape`) is given as an object or as a list of its fields in their declared order.
Fields that are absent keep their default, except that a required one is a fault; members
without a field are passed over. A field is a key and a way to put what it reads into the
record, so all fields of a record form one list.

Places of faults in a text: a scalar of the wrong kind counts through its end, a list or
object of the wrong kind up to its opening bracket, a missing field through the closing
bracket, a repeated one through its key and the blanks after it.
-/

import SnippetConsole.Json.Skip

namespace SnippetConsole
namespace Json

/-- A way to make an `α` from a JSON value and from a JSON text. -/
structure Decoder (α : Type) where
  ofValue : Value → Except DataFault α
  ofText : Reader α

/-- The fault of a text that starts with something else than what is wanted. -/
def mismatch (want : String) (cs : List Char) : Fault :=
  match cs with
  | '[' :: _ => .ofData (.wrongType .sequence want) cs
  | '\x7b' :: _ => .ofData (.wrongType .map want) cs
  | _ =>
    match scalar cs with
    | .error fault => fault
    | .ok (v, rest) => .ofData (.wrongType v.found want) rest

namespace Decoder

/-- A decoder followed by a function. -/
def map (f : α → β) (d : Decoder α) : Decoder β where
  ofValue v := do .ok (f (← d.ofValue v))
  ofText cs := do
    let (x, rest) ← d.ofText cs
    .ok (f x, rest)

/-- The value of a whole text. -/
def document (d : Decoder α) (text : String) : Except Fault α := wholly d.ofText text.toList

/-- `true` or `false`. -/
def bool : Decoder Bool where
  ofValue
    | .bool b => .ok b
    | v => .error (.wrongType v.found "a boolean")
  ofText cs :=
    match skipBlanks cs with
    | 't' :: rest => do .ok (true, ← afterWord ['r', 'u', 'e'] rest)
    | 'f' :: rest => do .ok (false, ← afterWord ['a', 'l', 's', 'e'] rest)
    | cs => .error (mismatch "a boolean" cs)

/-- A string. -/
def string : Decoder String where
  ofValue
    | .string s => .ok s
    | v => .error (.wrongType v.found "a string")
  ofText cs :=
    match skipBlanks cs with
    | '"' :: rest => Json.string rest
    | cs => .error (mismatch "a string" cs)

/-- A string, or `null` for none. -/
def optionalString : Decoder (Option String) where
  ofValue
    | .null => .ok none
    | v => do .ok (some (← string.ofValue v))
  ofText cs :=
    match skipBlanks cs with
    | 'n' :: rest => do .ok (none, ← afterWord ['u', 'l', 'l'] rest)
    | cs => do
      let (s, rest) ← string.ofText cs
      .ok (some s, rest)

/-- The natural below `bound` that a number states. -/
def naturalOf (bound : Nat) (want : String) : Number → Except DataFault Nat
  | .integer n =>
    if 0 ≤ n ∧ n < bound then .ok n.toNat
    else .error (.wrongValue (.number (.integer n)) want)
  | .real x => .error (.wrongType (.number (.real x)) want)

/-- A natural below `bound`. -/
def natural (bound : Nat) (want : String) : Decoder Nat where
  ofValue
    | .number n => naturalOf bound want n
    | v => .error (.wrongType v.found want)
  ofText cs :=
    match skipBlanks cs with
    | [] => .error (mismatch want [])
    | c :: rest =>
      if c = '-' ∨ Decimal.isDigit c then do
        let (n, rest) ← if c = '-' then number true rest else number false (c :: rest)
        match naturalOf bound want n with
        | .ok k => .ok (k, rest)
        | .error fault => .error (.ofData fault rest)
      else .error (mismatch want (c :: rest))

/-- A natural of 64 bits. -/
def word : Decoder UInt64 := (natural UInt64.size "usize").map UInt64.ofNat

/-- A natural of 8 bits. -/
def byte : Decoder UInt8 := (natural UInt8.size "u8").map UInt8.ofNat

/-- A list. -/
def list (d : Decoder α) : Decoder (List α) where
  ofValue
    | .array vs => vs.mapM d.ofValue
    | v => .error (.wrongType v.found "a sequence")
  ofText cs :=
    match skipBlanks cs with
    | '[' :: rest => items d.ofText cs.length true rest
    | cs => .error (mismatch "a sequence" cs)

/-- The value that a name of a choice stands for. -/
def named (choices : List (String × α)) (name : String) : Except DataFault α :=
  match choices.find? (·.1 = name) with
  | some c => .ok c.2
  | none => .error (.unknownVariant name (choices.map (·.1)))

/-- The value that a name in a text, read up to `rest`, stands for. -/
def namedText (choices : List (String × α)) (want : String) : Reader α := fun cs =>
  match skipBlanks cs with
  | '"' :: rest => do
    let (name, rest) ← Json.string rest
    match named choices name with
    | .ok x => .ok (x, rest)
    | .error fault => .error (.ofData fault rest)
  | cs => .error (mismatch want cs)

/-- One of several names, alone or as the only key of an object with the value `null`. -/
def choice (choices : List (String × α)) : Decoder α where
  ofValue
    | .string name => named choices name
    | .object [(name, content)] => do
      let x ← named choices name
      if content.isNull then .ok x else .error (.wrongType content.found "unit")
    | .object _ => .error (.wrongValue .map "map with a single key")
    | v => .error (.wrongType v.found "string or map")
  ofText cs :=
    match skipBlanks cs with
    | [] => .error (.here .endInValue [])
    | '"' :: rest => namedText choices "variant identifier" ('"' :: rest)
    | '\x7b' :: rest => do
      let (x, rest) ← namedText choices "variant identifier" rest
      let rest ← afterColon rest
      let rest ←
        match skipBlanks rest with
        | 'n' :: rest => afterWord ['u', 'l', 'l'] rest
        | cs => .error (mismatch "unit" cs)
      match skipBlanks rest with
      | [] => .error (.here .endInObject [])
      | '\x7d' :: rest => .ok (x, rest)
      | rest => .error (.here .expectedValue rest)
    | cs => .error (.ahead .expectedValue cs)

end Decoder

/-- A field of a record `ρ`: its key, and how what stands there changes the record. -/
structure Field (ρ : Type) where
  key : String
  required : Bool
  decoder : Decoder (ρ → ρ)

/-- A field that keeps its default if it is absent. -/
def Field.optional (key : String) (d : Decoder α) (put : α → ρ → ρ) : Field ρ :=
  ⟨key, false, d.map put⟩

/-- A field that has to be present. -/
def Field.mandatory (key : String) (d : Decoder α) (put : α → ρ → ρ) : Field ρ :=
  ⟨key, true, d.map put⟩

/-- A record: its name, its fields in their declared order, and the record of defaults. -/
structure Shape (ρ : Type) where
  name : String
  fields : List (Field ρ)
  blank : ρ

namespace Shape

/-- What a record is called where something else is found. -/
def want (s : Shape ρ) : String := "struct " ++ s.name

/-- The fault of a list that ends before the required field number `n`. -/
def tooShort (s : Shape ρ) (n : Nat) : DataFault :=
  .wrongLength n (s.want ++ " with " ++ toString s.fields.length ++ " elements")

/-- The field with key `key`. -/
def field? (s : Shape ρ) (key : String) : Option (Field ρ) := s.fields.find? (·.key = key)

/-- The first required field whose key is not among `keys`. -/
def missing? (s : Shape ρ) (keys : List String) : Option (Field ρ) :=
  s.fields.find? fun f => f.required && !keys.contains f.key

/-- One member of an object put into the record. -/
def putMember (s : Shape ρ) (r : ρ) (m : String × Value) : Except DataFault ρ :=
  match s.field? m.1 with
  | none => .ok r
  | some f => do .ok ((← f.decoder.ofValue m.2) r)

/-- The record of an object. -/
def ofObject (s : Shape ρ) (ms : Members) : Except DataFault ρ := do
  let r ← ms.foldlM s.putMember s.blank
  match s.missing? (ms.map (·.1)) with
  | some f => .error (.missingField f.key)
  | none => .ok r

/-- List items put into the fields `fs`, of which the first is number `n`; items beyond the
last field are left over. -/
def putItems (s : Shape ρ) : (n : Nat) → (fs : List (Field ρ)) → List Value → ρ →
    Except DataFault ρ
  | _, [], _, r => .ok r
  | n, f :: fs, [], r =>
    if f.required then .error (s.tooShort n) else putItems s (n + 1) fs [] r
  | n, f :: fs, v :: vs, r => do putItems s (n + 1) fs vs ((← f.decoder.ofValue v) r)

/-- The record of a list. -/
def ofArray (s : Shape ρ) (vs : List Value) : Except DataFault ρ := do
  let r ← s.putItems 0 s.fields vs s.blank
  if s.fields.length < vs.length then
    .error (.wrongLength vs.length "fewer elements in array")
  else .ok r

/-- The rest after the blanks of `cs` and the bracket `close`, if that is next. -/
def pastBracket (close : Char) (cs : List Char) : List Char :=
  match skipBlanks cs with
  | [] => []
  | c :: rest => if c = close then rest else c :: rest

/-- The record of the members of a text, `seen` the keys of the fields read before. -/
def membersText (s : Shape ρ) : (fuel : Nat) → (first : Bool) → (seen : List String) → ρ →
    Reader ρ
  | 0, _, _, _ => fun cs => .error (.here .endInObject cs)
  | fuel + 1, first, seen, r => fun cs => do
    let (more, cs) ← nextKey first cs
    if more then
      let (key, cs) ← Json.string cs
      match s.field? key with
      | none => membersText s fuel false seen r (← skipValue (← afterColon cs))
      | some f =>
        if seen.contains key then
          .error (.ofData (.duplicateField key) (pastBracket '\x7d' cs))
        else
          let (put, cs) ← f.decoder.ofText (← afterColon cs)
          membersText s fuel false (key :: seen) (put r) cs
    else
      match s.missing? seen with
      | some f => .error (.ofData (.missingField f.key) (cs.drop 1))
      | none => .ok (r, cs.drop 1)

/-- The rest after a list whose items are all read. -/
def endOfItems (cs : List Char) : Except Fault (List Char) :=
  match skipBlanks cs with
  | [] => .error (.here .endInList [])
  | ']' :: rest => .ok rest
  | ',' :: rest =>
    match skipBlanks rest with
    | ']' :: rest => .error (.ahead .trailingComma (']' :: rest))
    | rest => .error (.ahead .trailingCharacters rest)
  | rest => .error (.ahead .trailingCharacters rest)

/-- The record of the list items of a text, `fs` the fields not read yet, of which the first
is number `n`. -/
def itemsText (s : Shape ρ) : (n : Nat) → (fs : List (Field ρ)) → ρ → Reader ρ
  | _, [], r => fun cs => do .ok (r, ← endOfItems cs)
  | n, f :: fs, r => fun cs => do
    let (more, cs) ← nextItem (n = 0) cs
    if more then
      let (put, cs) ← f.decoder.ofText cs
      itemsText s (n + 1) fs (put r) cs
    else if f.required then .error (.ofData (s.tooShort n) (pastBracket ']' cs))
    else itemsText s (n + 1) fs r cs

/-- The decoder of a record. -/
def decoder (s : Shape ρ) : Decoder ρ where
  ofValue
    | .object ms => s.ofObject ms
    | .array vs => s.ofArray vs
    | v => .error (.wrongType v.found s.want)
  ofText cs :=
    match skipBlanks cs with
    | '\x7b' :: rest => s.membersText cs.length true [] s.blank rest
    | '[' :: rest => s.itemsText 0 s.fields s.blank rest
    | cs => .error (mismatch s.want cs)

end Shape
end Json
end SnippetConsole
