/-
# JSON values

Numbers are integers or doubles; a reader makes integers of what fits in 64 bits. The
members of an object are kept in increasing order of their keys, each key once
(`insert` keeps this), so equal objects are equal values.
-/

import SnippetConsole.Decimal.Binary64

namespace SnippetConsole
namespace Json

/-- A number: an integer, or a double that was not written as a small enough one. -/
inductive Number where
  | integer (n : Int)
  | real (x : Decimal.Binary64)
  deriving DecidableEq, Repr

/-- A JSON value. -/
inductive Value where
  | null
  | bool (b : Bool)
  | number (n : Number)
  | string (s : String)
  | array (items : List Value)
  | object (members : List (String × Value))
  deriving Repr

/-- Members of an object, in increasing order of keys. -/
abbrev Members := List (String × Value)

/-- Whether the value is `null`. -/
def Value.isNull : Value → Bool
  | .null => true
  | _ => false

theorem Value.isNull_iff {v : Value} : v.isNull = true ↔ v = .null := by
  cases v <;> simp [Value.isNull]

/-- The integer `n` as a value. -/
def Value.ofNat (n : Nat) : Value := .number (.integer n)

/-- The value at key `k`. -/
def get? (k : String) : Members → Option Value
  | [] => none
  | (k', v) :: ms => if k = k' then some v else get? k ms

/-- The members with `v` at key `k`, in place of what was there. -/
def insert (k : String) (v : Value) : Members → Members
  | [] => [(k, v)]
  | (k', v') :: ms =>
    if k < k' then (k, v) :: (k', v') :: ms
    else if k = k' then (k, v) :: ms
    else (k', v') :: insert k v ms

/-- The object of the given members; of two with one key the later counts. -/
def ofMembers (ms : List (String × Value)) : Members :=
  ms.foldl (fun acc m => insert m.1 m.2 acc) []

/-- **Reading after writing:** the written key has the new value, all others keep theirs. -/
theorem get?_insert (k : String) (v : Value) (ms : Members) (j : String) :
    get? j (insert k v ms) = if j = k then some v else get? j ms := by
  induction ms with
  | nil => simp [insert, get?]
  | cons m ms ih =>
    obtain ⟨k', v'⟩ := m
    simp only [insert]
    split
    · simp [get?]
    · split
      · rename_i hk
        subst hk
        simp only [get?]
        split <;> rfl
      · rename_i hk
        simp only [get?, ih]
        by_cases h1 : j = k'
        · have : j ≠ k := fun h => hk (h ▸ h1)
          simp [h1, Ne.symm hk]
        · simp [h1]

end Json
end SnippetConsole
