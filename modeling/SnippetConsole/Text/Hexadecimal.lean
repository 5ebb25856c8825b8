/-
# Hexadecimal digits

Digits are written in lower case and read in either (`hexValue?_hexDigit`). A number is written
with a fixed count of digits (`hexPadded`), leading zeros included; a byte has two of them
and reads back from them (`hexBytes_hexPadded_append`).
-/

namespace SnippetConsole
namespace Text

/-- The digit of a number below 16. -/
def hexDigit (n : Nat) : Char := if n < 10 then Char.ofNat (48 + n) else Char.ofNat (87 + n)

/-- The last `count` digits of `n`. -/
def hexPadded : (count : Nat) → (n : Nat) → List Char
  | 0, _ => []
  | count + 1, n => hexPadded count (n / 16) ++ [hexDigit (n % 16)]

theorem length_hexPadded (count n : Nat) : (hexPadded count n).length = count := by
  induction count generalizing n with
  | zero => rfl
  | succ count ih => simp [hexPadded, ih]

/-- Whether `c` is a digit as written here. -/
def isHexDigit (c : Char) : Bool := ('0' ≤ c && c ≤ '9') || ('a' ≤ c && c ≤ 'f')

theorem isHexDigit_hexDigit {n : Nat} (h : n < 16) : isHexDigit (hexDigit n) = true := by
  have : ∀ m : Fin 16, isHexDigit (hexDigit m.val) = true := by decide
  exact this ⟨n, h⟩

/-- **Only digits are written.** -/
theorem isHexDigit_of_mem_hexPadded {count n : Nat} {c : Char} (h : c ∈ hexPadded count n) :
    isHexDigit c = true := by
  induction count generalizing n with
  | zero => simp [hexPadded] at h
  | succ count ih =>
    simp only [hexPadded, List.mem_append, List.mem_singleton] at h
    rcases h with h | rfl
    · exact ih h
    · exact isHexDigit_hexDigit (Nat.mod_lt _ (by decide))

/-- The value of a digit of either case. -/
def hexValue? (c : Char) : Option Nat :=
  if '0' ≤ c ∧ c ≤ '9' then some (c.toNat - 48)
  else if 'a' ≤ c ∧ c ≤ 'f' then some (c.toNat - 87)
  else if 'A' ≤ c ∧ c ≤ 'F' then some (c.toNat - 55)
  else none

/-- **A written digit reads back.** -/
theorem hexValue?_hexDigit {n : Nat} (h : n < 16) : hexValue? (hexDigit n) = some n := by
  have : ∀ m : Fin 16, hexValue? (hexDigit m.val) = some m.val := by decide
  exact this ⟨n, h⟩

/-- The bytes of a text of pairs of digits, as far as it has them. -/
def hexBytes : List Char → List UInt8
  | high :: low :: rest =>
    match hexValue? high, hexValue? low with
    | some h, some l => UInt8.ofNat (16 * h + l) :: hexBytes rest
    | _, _ => []
  | _ => []

/-- **A byte in two digits reads back,** and reading goes on behind them. -/
theorem hexBytes_hexPadded_append (b : UInt8) (rest : List Char) :
    hexBytes (hexPadded 2 b.toNat ++ rest) = b :: hexBytes rest := by
  have hb : b.toNat < 256 := b.toNat_lt
  have hhigh := hexValue?_hexDigit (n := b.toNat / 16 % 16) (Nat.mod_lt _ (by decide))
  have hlow := hexValue?_hexDigit (n := b.toNat % 16) (Nat.mod_lt _ (by decide))
  have hsum : 16 * (b.toNat / 16 % 16) + b.toNat % 16 = b.toNat := by omega
  simp [hexPadded, hexBytes, hhigh, hlow, hsum]

end Text
end SnippetConsole
