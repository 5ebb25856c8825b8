/-
# Request ids

A request id is 128 bits, written as `tmp_` and 32 hexadecimal digits, so it is a valid file
name of fixed length. Ids made in time order (`timeOrdered`) start with the milliseconds since
1970 and a version digit 7, so later ones are greater, also as texts.
-/

import SnippetConsole.Text.Hexadecimal

namespace SnippetConsole

/-- The id of one request. -/
structure RequestId where
  bits : Nat
  bits_lt : bits < 1 <<< 128
  deriving DecidableEq, Repr

namespace RequestId

/-- What every id starts with. -/
def mark : String := "tmp_"

/-- Number of digits in an id. -/
def digitCount : Nat := 32

/-- The id as text. -/
def text (id : RequestId) : String := mark ++ String.ofList (Text.hexPadded digitCount id.bits)

/-- The bits of an id made at a time in milliseconds, the number `serial` of its time: 48 bits
of time, the version 7, 12 bits of the serial number, the variant 2, and its last 62 bits. -/
def timeOrderedBits (milliseconds serial : Nat) : Nat :=
  ((((milliseconds % 1 <<< 48) <<< 4 + 7) <<< 12 + serial >>> 62 % 1 <<< 12) <<< 2 + 2) <<< 62
    + serial % 1 <<< 62

theorem timeOrderedBits_lt (milliseconds serial : Nat) :
    timeOrderedBits milliseconds serial < 1 <<< 128 := by
  unfold timeOrderedBits
  have h1 : milliseconds % 1 <<< 48 < 1 <<< 48 := Nat.mod_lt _ (by decide)
  have h2 : serial >>> 62 % 1 <<< 12 < 1 <<< 12 := Nat.mod_lt _ (by decide)
  have h3 : serial % 1 <<< 62 < 1 <<< 62 := Nat.mod_lt _ (by decide)
  omega

/-- The id made at a time in milliseconds, the number `serial` of its time. -/
def timeOrdered (milliseconds serial : Nat) : RequestId :=
  ⟨timeOrderedBits milliseconds serial, timeOrderedBits_lt milliseconds serial⟩

/-- **Later ids of one time are greater.** -/
theorem timeOrderedBits_lt_of_lt {milliseconds s t : Nat} (h : s < t) (ht : t < 1 <<< 74) :
    timeOrderedBits milliseconds s < timeOrderedBits milliseconds t := by
  simp only [timeOrderedBits, Nat.reduceShiftLeft, Nat.shiftRight_eq_div_pow] at ht ⊢
  omega

end RequestId
end SnippetConsole
