/-
# The pieces of a JSON text

Readers of blanks, words, strings and numbers. Each takes the characters that are left
and answers its piece with what is left then, or the fault. Blanks are the space, tab,
line feed and carriage return.

A number is an integer if it has neither point nor power and fits in 64 bits (with a
minus, in 64 bits with a sign; a negative zero does not). Any other is a double: its first
digits as far as they fit in 64 bits, rounded, times or divided by a rounded power of ten;
later digits only count for the power.
-/

import SnippetConsole.Decimal.Spelling
import SnippetConsole.Json.Fault
import SnippetConsole.Text.Hexadecimal

namespace SnippetConsole
namespace Json

open Decimal (digits digitValue)

/-- A reader takes characters and answers a result with the characters it left. -/
abbrev Reader (α : Type) := List Char → Except Fault (α × List Char)

/-- Whether `c` may stand between the pieces of a text. -/
def isBlank (c : Char) : Bool := c = ' ' || c = '\n' || c = '\t' || c = '\r'

/-- `cs` from its first character that is not blank. -/
def skipBlanks (cs : List Char) : List Char := cs.dropWhile isBlank

/-- The characters after `word`, which `cs` has to start with. -/
def afterWord : (word : List Char) → List Char → Except Fault (List Char)
  | [], cs => .ok cs
  | _ :: _, [] => .error (.here .endInValue [])
  | w :: word, c :: cs =>
    if c = w then afterWord word cs else .error (.ahead .expectedWord (c :: cs))

/-! ### Strings -/

/-- The number of four hexadecimal digits. -/
def hexUnit? (a b c d : Char) : Option Nat := do
  let a ← Text.hexValue? a
  let b ← Text.hexValue? b
  let c ← Text.hexValue? c
  let d ← Text.hexValue? d
  pure (((a * 16 + b) * 16 + c) * 16 + d)

/-- Four bytes that are no hexadecimal unit, or fewer than four. -/
def unitFault (cs : List Char) : Fault :=
  if byteCount cs < 4 then .here .endInString []
  else ⟨.grammar .invalidEscape, byteCount cs - 4⟩

/-- Whether `n` is the first half of a pair of units. -/
def isLeading (n : Nat) : Bool := 0xD800 ≤ n && n ≤ 0xDBFF

/-- Whether `n` is the second half of a pair of units. -/
def isTrailing (n : Nat) : Bool := 0xDC00 ≤ n && n ≤ 0xDFFF

/-- The character of a pair of units. -/
def pairedChar (lead trail : Nat) : Char :=
  Char.ofNat (0x10000 + (lead - 0xD800) * 0x400 + (trail - 0xDC00))

/-- The character that stands behind a backslash for another one. -/
def shortEscape? : Char → Option Char
  | '"' => some '"'
  | '\\' => some '\\'
  | '/' => some '/'
  | 'b' => some '\x08'
  | 'f' => some '\x0C'
  | 'n' => some '\n'
  | 'r' => some '\r'
  | 't' => some '\t'
  | _ => none

/-- The fault of what follows a leading unit in place of a trailing one. -/
def pairFault : List Char → Fault
  | [] => .here .endInString []
  | '\\' :: [] => .here .endInString []
  | '\\' :: cs => .ahead .endOfEscape cs
  | cs => .ahead .endOfEscape cs

/-- The characters of a string up to its closing quote, the opening one already read. -/
def stringBody : Reader (List Char)
  | [] => .error (.here .endInString [])
  | '"' :: rest => .ok ([], rest)
  | '\\' :: [] => .error (.here .endInString [])
  | '\\' :: 'u' :: cs =>
    match cs with
    | a :: b :: c :: d :: rest =>
      match hexUnit? a b c d with
      | none => .error (unitFault cs)
      | some n =>
        if isTrailing n then .error (.here .loneSurrogate rest)
        else if isLeading n then
          match rest with
          | '\\' :: 'u' :: ds =>
            match ds with
            | a :: b :: c :: d :: rest =>
              match hexUnit? a b c d with
              | none => .error (unitFault ds)
              | some m =>
                if isTrailing m then do
                  let (text, rest) ← stringBody rest
                  .ok (pairedChar n m :: text, rest)
                else .error (.here .loneSurrogate rest)
            | _ => .error (unitFault ds)
          | _ => .error (pairFault rest)
        else do
          let (text, rest) ← stringBody rest
          .ok (Char.ofNat n :: text, rest)
    | _ => .error (unitFault cs)
  | '\\' :: e :: rest =>
    match shortEscape? e with
    | none => .error (.ahead .invalidEscape (e :: rest))
    | some c => do
      let (text, rest) ← stringBody rest
      .ok (c :: text, rest)
  | c :: rest =>
    if c.toNat < 0x20 then .error (.here .controlCharacter rest)
    else do
      let (text, rest) ← stringBody rest
      .ok (c :: text, rest)

/-- A string, its opening quote already read. -/
def string : Reader String := fun cs => do
  let (text, rest) ← stringBody cs
  .ok (String.ofList text, rest)

/-! ### Numbers -/

/-- `acc` followed by the digits `ds` as far as the number stays at most `limit`, and how
many digits are left over. -/
def clip (limit : Nat) : (acc : Nat) → (ds : List Char) → Nat × Nat
  | acc, [] => (acc, 0)
  | acc, d :: ds =>
    let n := acc * 10 + digitValue d
    if n ≤ limit then clip limit n ds else (acc, ds.length + 1)

/-- The largest natural of 64 bits. -/
def maxWord : Nat := UInt64.size - 1

/-- The largest power of ten that a number may state. -/
def maxPower : Nat := 1 <<< 31 - 1

/-- `10 ^ n` as a double, for `n` up to 308. -/
def powerOfTen (n : Nat) : Decimal.Binary64 :=
  (Decimal.Binary64.ofRatio? false (Nat.pow 10 n) 1).getD (.zero false)

/-- `x` times `10 ^ power`; beyond `10 ^ -308` in steps of that size, at most `fuel` of
them. -/
def scale? : (fuel : Nat) → Decimal.Binary64 → (power : Int) → Option Decimal.Binary64
  | 0, x, _ => some x
  | fuel + 1, x, power =>
    if power.natAbs ≤ 308 then
      if 0 ≤ power then x.mul? (powerOfTen power.natAbs)
      else x.div? (powerOfTen power.natAbs)
    else if x.mantissa = 0 then some x
    else if 0 ≤ power then none
    else
      match x.div? (powerOfTen 308) with
      | some y => scale? fuel y (power + 308)
      | none => none

/-- The double `± significand · 10 ^ power`, if it is not too large. A few steps of
`10 ^ -308` bring any 64-bit natural to zero. -/
def real? (negative : Bool) (significand : Nat) (power : Int) : Option Decimal.Binary64 := do
  let x ← Decimal.Binary64.ofRatio? false significand 1
  let y ← scale? 8 x power
  pure { y with negative := negative }

/-- The number with this significand and power, read up to `rest`. -/
def realNumber (negative : Bool) (significand : Nat) (power : Int) : Reader Number := fun rest =>
  match real? negative significand power with
  | some x => .ok (.real x, rest)
  | none => .error (.here .numberOutOfRange rest)

/-- The stated power of a number, its letter already read. -/
def statedPower (negative : Bool) (significand : Nat) (power : Int) : Reader Number := fun cs =>
  let (up, cs) : Bool × List Char :=
    match cs with
    | '+' :: cs => (true, cs)
    | '-' :: cs => (false, cs)
    | cs => (true, cs)
  let (ds, rest) := digits cs
  match ds, rest with
  | [], [] => .error (.here .endInValue [])
  | [], _ => .error (.ahead .invalidNumber rest)
  | _, _ =>
    let (stated, left) := clip maxPower 0 ds
    if left = 0 then
      realNumber negative significand (if up then power + stated else power - stated) rest
    else if significand ≠ 0 ∧ up then
      .error (.here .numberOutOfRange (ds.drop (ds.length - (left - 1)) ++ rest))
    else .ok (.real (.zero negative), rest)

/-- What may follow the digits of a number: a power, or its end. -/
def afterDigits (negative : Bool) (significand : Nat) (power : Int) : Reader Number
  | 'e' :: rest => statedPower negative significand power rest
  | 'E' :: rest => statedPower negative significand power rest
  | rest => realNumber negative significand power rest

/-- The digits behind the point, which is already read. -/
def fraction (negative : Bool) (significand : Nat) (power : Int) : Reader Number := fun cs =>
  let (ds, rest) := digits cs
  match ds, rest with
  | [], [] => .error (.here .endInValue [])
  | [], _ => .error (.ahead .invalidNumber rest)
  | _, _ =>
    let (n, left) := clip maxWord significand ds
    afterDigits negative n (power - ((ds.length - left : Nat) : Int)) rest

/-- A number of an integer part alone. -/
def wholeNumber (negative : Bool) (n : Nat) : Number :=
  if !negative then .integer n
  else if n = 0 ∨ 1 <<< 63 < n then
    .real { ((Decimal.Binary64.ofRatio? false n 1).getD (.zero true)) with negative := true }
  else .integer (-(n : Int))

/-- A number, its minus already read. -/
def number (negative : Bool) : Reader Number := fun cs =>
  let (ds, rest) := digits cs
  match ds, rest with
  | [], [] => .error (.here .endInValue [])
  | [], _ => .error (.ahead .invalidNumber rest)
  | '0' :: _ :: _, _ => .error (.ahead .invalidNumber (ds.drop 1 ++ rest))
  | _, _ =>
    let (n, left) := clip maxWord 0 ds
    match rest with
    | '.' :: rest => fraction negative n left rest
    | _ =>
      if left = 0 then
        match rest with
        | 'e' :: _ => afterDigits negative n 0 rest
        | 'E' :: _ => afterDigits negative n 0 rest
        | _ => .ok (wholeNumber negative n, rest)
      else afterDigits negative n left rest

end Json
end SnippetConsole
