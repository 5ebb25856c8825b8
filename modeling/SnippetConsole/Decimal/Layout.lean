/-
# Writing a double

A double is written with its shortest digits (`Binary64.shortest`): positionally, with at
least one digit after the point, or with one digit before the point and a power of ten.
A `Layout` says where the positional form ends and whether a power without a minus has a
plus.
-/

import SnippetConsole.Decimal.Shortest

namespace SnippetConsole
namespace Decimal

/-- Sizes from `10 ^ least` up to, not including, `10 ^ bound` are written positionally. -/
structure Layout where
  least : Int
  bound : Int
  plus : Bool

/-- The text of a decimal in positional form. -/
def positional (ds : List Char) (exponent : Int) : List Char :=
  let point : Int := ds.length + exponent
  if 0 ≤ exponent then ds ++ List.replicate exponent.toNat '0' ++ ['.', '0']
  else if 0 < point then ds.take point.toNat ++ '.' :: ds.drop point.toNat
  else ['0', '.'] ++ List.replicate (-point).toNat '0' ++ ds

/-- The text of a decimal with one digit before the point and the power of ten. -/
def scientific (ds : List Char) (power : Int) (plus : Bool) : List Char :=
  ds.take 1 ++ (if ds.length ≤ 1 then [] else '.' :: ds.drop 1) ++ ['e']
    ++ (if power < 0 then ['-'] else if plus then ['+'] else []) ++ digitsOf power.natAbs

/-- The text of `x` in a layout. -/
def Binary64.render (layout : Layout) (x : Binary64) : String :=
  let s := x.shortest
  let ds := digitsOf s.digits
  let power : Int := ds.length + s.exponent - 1
  let body :=
    if s.digits = 0 then ['0', '.', '0']
    else if layout.least ≤ power ∧ power < layout.bound then positional ds s.exponent
    else scientific ds power layout.plus
  String.ofList ((if x.negative then ['-'] else []) ++ body)

end Decimal
end SnippetConsole
