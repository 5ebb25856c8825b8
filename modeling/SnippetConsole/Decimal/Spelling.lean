/-
# Reading decimals

The number that a run of decimal digits spells (`valueOf`), the same in 64 bits, where it may
not fit (`word?`), and the double nearest to a decimal with a fraction and a power of ten
(`Binary64.ofDecimal?`). A decimal is

| part | |
| --- | --- |
| digits | at least one, before or behind the point |
| `.` | at most one |
| `e` or `E` with an integer | the power of ten, if any |
-/

import SnippetConsole.Decimal.Binary64

namespace SnippetConsole
namespace Decimal

/-- Whether `c` is a decimal digit. -/
def isDigit (c : Char) : Bool := '0' ≤ c && c ≤ '9'

/-- The value of a decimal digit. -/
def digitValue (c : Char) : Nat := c.toNat - 48

/-- The digits `cs` starts with, and the rest. -/
def digits (cs : List Char) : List Char × List Char := (cs.takeWhile isDigit, cs.dropWhile isDigit)

/-- The number that digits spell. -/
def valueOf (ds : List Char) : Nat := ds.foldl (fun n d => n * 10 + digitValue d) 0

/-- A digit at the end counts once, all before it ten times. -/
theorem valueOf_append_singleton (ds : List Char) (d : Char) :
    valueOf (ds ++ [d]) = valueOf ds * 10 + digitValue d := by
  simp [valueOf]

/-- `a * b`, if it fits in 64 bits. -/
def product? (a b : UInt64) : Option UInt64 :=
  if BitVec.umulOverflow a.toBitVec b.toBitVec then none else some (a * b)

/-- `a + b`, if it fits in 64 bits. -/
def sum? (a b : UInt64) : Option UInt64 :=
  if BitVec.uaddOverflow a.toBitVec b.toBitVec then none else some (a + b)

/-- The word `w` with one more digit behind it: ten times the word and the digit, if `d` is a
digit and neither step leaves 64 bits. -/
def withDigit? (w : UInt64) (d : Char) : Option UInt64 :=
  if isDigit d then (product? w 10).bind (sum? · (UInt64.ofNat (digitValue d))) else none

/-- The word of 64 bits that digits spell, at least one, read digit by digit. -/
def word? : List Char → Option UInt64
  | [] => none
  | d :: ds => (d :: ds).foldlM withDigit? 0

/-- The sign that `cs` starts with, if any, and the rest: whether it is a minus. -/
def sign : List Char → Bool × List Char
  | '+' :: cs => (false, cs)
  | '-' :: cs => (true, cs)
  | cs => (false, cs)

/-- The integer that `cs` is. -/
def integer? (cs : List Char) : Option Int :=
  let (negative, ds) := sign cs
  if !ds.isEmpty && ds.all isDigit then
    some (if negative then -(valueOf ds : Int) else (valueOf ds : Int))
  else none

/-- The power of ten that `cs` states, nothing stating the power zero. -/
def power? : List Char → Option Int
  | [] => some 0
  | 'e' :: cs => integer? cs
  | 'E' :: cs => integer? cs
  | _ => none

/-- A decimal without a sign: its digits as a number, how many there are, and its power. -/
def decimal? (cs : List Char) : Option (Nat × Nat × Int) :=
  let (whole, rest) := digits cs
  let (parts, rest) : List Char × List Char :=
    match rest with
    | '.' :: rest => digits rest
    | rest => ([], rest)
  let ds := whole ++ parts
  if ds.isEmpty then none
  else (power? rest).map fun power => (valueOf ds, ds.length, power - parts.length)

/-- Powers of ten beyond which every double is zero or too large. -/
def powerBound : Int := 400

/-- The double nearest to `± n · 10 ^ power`, where `n` has `count` digits, if it is not too
large. -/
def Binary64.ofDecimal? (negative : Bool) (n count : Nat) (power : Int) : Option Binary64 :=
  if n = 0 ∨ power + count < -powerBound then some (zero negative)
  else if powerBound < power then none
  else ofRatio? negative (n * Nat.pow 10 power.toNat) (Nat.pow 10 (-power).toNat)

end Decimal
end SnippetConsole
