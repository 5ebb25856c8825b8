/-
# The fewest digits that read back

Every double is the number that a whole interval of reals rounds to: half a gap to each
side, the ends included iff the mantissa is even. Its shortest decimal form is the
decimal in that interval with the fewest digits, the nearest one if there are several.
On the grid of `k` significant digits only the two neighbours of the number itself have
to be looked at: if any point of the grid lies in the interval, one of them does. Seventeen
digits always suffice.
-/

import SnippetConsole.Decimal.Binary64

namespace SnippetConsole
namespace Decimal

/-- A decimal number `digits · 10 ^ exponent` without a sign. -/
structure Scientific where
  digits : Nat
  exponent : Int
  deriving DecidableEq, Repr

/-- `n` decimal digits, most significant first. -/
def digitsOf (n : Nat) : List Char := Nat.toDigits 10 n

/-- The power `p` of ten with `10 ^ (p - 1) ≤ num / den < 10 ^ p`. -/
def magnitude (num den : Nat) : Int :=
  if den ≤ num then (digitsOf (num / den)).length
  else
    let k := (digitsOf (den / num)).length - 1
    if num * Nat.pow 10 k = den then 1 - (k : Int) else -(k : Int)

/-- `n` without its trailing zeros, each moved into the exponent; at most `fuel` of them. -/
def stripZeros : Nat → Scientific → Scientific
  | 0, x => x
  | fuel + 1, x =>
    if x.digits ≠ 0 ∧ x.digits % 10 = 0 then stripZeros fuel ⟨x.digits / 10, x.exponent + 1⟩
    else x

namespace Binary64

/-- The interval of reals that round to `x`, with `x` in the middle: low end, number and
high end over one denominator. -/
def interval (x : Binary64) : Nat × Nat × Nat × Nat :=
  let up := 1 <<< (x.exponent - 2).toNat
  let below := if x.mantissa = 1 <<< 52 ∧ -1074 < x.exponent then 1 else 2
  ((4 * x.mantissa - below) * up, 4 * x.mantissa * up, (4 * x.mantissa + 2) * up,
    1 <<< (2 - x.exponent).toNat)

/-- Whether `c / d` rounds to `x`. -/
def covers (x : Binary64) (c d : Nat) : Bool :=
  let (lo, _, hi, den) := x.interval
  if x.mantissa % 2 = 0 then lo * d ≤ c * den && c * den ≤ hi * d
  else lo * d < c * den && c * den < hi * d

/-- The decimal of `k` significant digits that is nearest to `x` among those that round
to `x`. -/
def onGrid? (x : Binary64) (k : Nat) : Option Scientific :=
  let (_, v, _, den) := x.interval
  let e := magnitude v den - k
  let up := Nat.pow 10 e.toNat
  let down := Nat.pow 10 (-e).toNat
  let q := v * down / (den * up)
  let below := x.covers (q * up) down
  let above := x.covers ((q + 1) * up) down
  let nearer := 2 * (v * down - q * up * den) ≤ up * den
  if below && (!above || nearer) then some ⟨q, e⟩
  else if above then some ⟨q + 1, e⟩
  else none

/-- The shortest decimal that rounds to `x`. -/
def shortest (x : Binary64) : Scientific :=
  if x.mantissa = 0 then ⟨0, 0⟩
  else
    match (List.range 17).findSome? fun k => x.onGrid? (k + 1) with
    | some s => stripZeros 20 s
    | none => ⟨x.mantissa, x.exponent⟩

end Binary64
end Decimal
end SnippetConsole
