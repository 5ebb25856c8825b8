/-
# Taking a value apart

Lenient access to the parts of a value: a member that an object lacks is `null`, and a value of
the wrong kind counts as the empty one of the kind that is asked for (the empty text, zero,
false, no items). What has to be refused is read with a decoder instead.

`mapStrings` changes every text in a value, keys included, and nothing else; `strings` lists
them in the order in which they are written.
-/

import SnippetConsole.Json.Basic

namespace SnippetConsole
namespace Json
namespace Value

/-- The text that a value is. -/
def asString? : Value → Option String
  | .string s => some s
  | _ => none

/-- The text that a value is, else the empty one. -/
def asString (v : Value) : String := v.asString?.getD ""

/-- The integer that a value is, else zero. -/
def asInt : Value → Int
  | .number (.integer n) => n
  | _ => 0

/-- The natural number that a value is, else zero. -/
def asNat (v : Value) : Nat := v.asInt.toNat

/-- The truth value that a value is, else false. -/
def asBool : Value → Bool
  | .bool b => b
  | _ => false

/-- The items of a list, else none. -/
def asItems : Value → List Value
  | .array vs => vs
  | _ => []

/-- The item at an index of a list, `null` if there is none. -/
def item (v : Value) (i : Nat) : Value := v.asItems[i]?.getD .null

/-- The members of an object, else none. -/
def asMembers : Value → Members
  | .object ms => ms
  | _ => []

/-- The member at a key, `null` if there is none. -/
def member (v : Value) (k : String) : Value := (Json.get? k v.asMembers).getD .null

/-- Whether there is a member other than `null` at a key. -/
def has (v : Value) (k : String) : Bool := !(v.member k).isNull

/-- The text at a key. -/
def text (v : Value) (k : String) : String := (v.member k).asString

/-- The natural number at a key. -/
def nat (v : Value) (k : String) : Nat := (v.member k).asNat

/-- The natural number at a key, or another one where the member is missing. -/
def natOr (v : Value) (k : String) (n : Nat) : Nat := if v.has k then v.nat k else n

/-- The truth value at a key. -/
def flag (v : Value) (k : String) : Bool := (v.member k).asBool

/-- The truth value at a key, or another one where the member is missing. -/
def flagOr (v : Value) (k : String) (b : Bool) : Bool := if v.has k then v.flag k else b

/-- The items at a key. -/
def items (v : Value) (k : String) : List Value := (v.member k).asItems

/-- The texts among the items at a key, the empty one for an item of another kind. -/
def texts (v : Value) (k : String) : List String := (v.items k).map asString

/-- A member that an object has is found. -/
theorem member_object (ms : Members) (k : String) :
    (Value.object ms).member k = (Json.get? k ms).getD .null := rfl

mutual

/-- The value with `f` applied to each text and key. Of two keys that become one the later
counts. -/
def mapStrings (f : String → String) : Value → Value
  | .string s => .string (f s)
  | .array vs => .array (mapItems f vs)
  | .object ms => .object (ofMembers (mapMembers f ms))
  | .null => .null
  | .bool b => .bool b
  | .number n => .number n

/-- The items with `f` applied to their texts. -/
def mapItems (f : String → String) : List Value → List Value
  | [] => []
  | v :: vs => mapStrings f v :: mapItems f vs

/-- The members with `f` applied to their keys and texts. -/
def mapMembers (f : String → String) : Members → Members
  | [] => []
  | (k, v) :: ms => (f k, mapStrings f v) :: mapMembers f ms

end

mutual

/-- The texts and keys of a value, as they are written from left to right. -/
def strings : Value → List String
  | .string s => [s]
  | .array vs => itemStrings vs
  | .object ms => memberStrings ms
  | _ => []

/-- The texts of items. -/
def itemStrings : List Value → List String
  | [] => []
  | v :: vs => strings v ++ itemStrings vs

/-- The keys and texts of members. -/
def memberStrings : Members → List String
  | [] => []
  | (k, v) :: ms => k :: strings v ++ memberStrings ms

end

end Value
end Json
end SnippetConsole
