/-
# UTF-8: bytes and text

A file, a path and what a loaded unit hands over are bytes; what is shown is text.
Bytes are read strictly (`decode?`, files) or leniently (`lossy`, all else that is
shown). The lenient reading follows the table of well-formed sequences:

| lead byte | bytes that follow | first of them |
| --- | ---: | --- |
| `00`–`7F` | 0 | |
| `C2`–`DF` | 1 | `80`–`BF` |
| `E0` | 2 | `A0`–`BF` |
| `E1`–`EC`, `EE`, `EF` | 2 | `80`–`BF` |
| `ED` | 2 | `80`–`9F` |
| `F0` | 3 | `90`–`BF` |
| `F1`–`F3` | 3 | `80`–`BF` |
| `F4` | 3 | `80`–`8F` |

Every other byte starts no sequence. A part that leaves the table is cut where it
leaves it and becomes one U+FFFD.
-/

namespace SnippetConsole

/-- Uninterpreted bytes: file contents, paths, text from outside. -/
abbrev Bytes := List UInt8

namespace Text

/-- The UTF-8 form of a text. -/
def encode (s : String) : Bytes := s.toByteArray.data.toList

/-- The text whose UTF-8 form is `b`, if there is one. -/
def decode? (b : Bytes) : Option String := String.fromUTF8? ⟨b.toArray⟩

/-- **What was encoded is read back.** -/
theorem decode?_encode (s : String) : decode? (encode s) = some s :=
  dif_pos s.isValidUTF8

/-- Bytes are read as a text just if they are its form. -/
theorem decode?_eq_some_iff {b : Bytes} {s : String} : decode? b = some s ↔ b = encode s := by
  constructor
  · intro h
    unfold decode? String.fromUTF8? at h
    split at h
    · obtain rfl := Option.some.inj h
      rfl
    · cases h
  · rintro rfl
    exact decode?_encode s

/-- Only the empty text has an empty form. -/
theorem encode_eq_nil_iff {s : String} : encode s = [] ↔ s = "" := by
  constructor
  · intro h
    have := decode?_encode s
    rw [h, show decode? [] = some "" from decode?_encode ""] at this
    exact (Option.some.inj this).symm
  · rintro rfl; rfl

/-- **Different texts have different forms.** -/
theorem encode_inj {s t : String} (h : encode s = encode t) : s = t := by
  have := decode?_encode s
  rw [h, decode?_encode] at this
  exact (Option.some.inj this).symm

/-- Number of bytes that follow lead byte `b`, and the range of the first of them. -/
def followers? (b : UInt8) : Option (Nat × UInt8 × UInt8) :=
  if b < 0x80 then some (0, 0, 0)
  else if b < 0xC2 then none
  else if b < 0xE0 then some (1, 0x80, 0xBF)
  else if b = 0xE0 then some (2, 0xA0, 0xBF)
  else if b = 0xED then some (2, 0x80, 0x9F)
  else if b < 0xF0 then some (2, 0x80, 0xBF)
  else if b = 0xF0 then some (3, 0x90, 0xBF)
  else if b < 0xF4 then some (3, 0x80, 0xBF)
  else if b = 0xF4 then some (3, 0x80, 0x8F)
  else none

/-- Six payload bits of each byte that follows, below the bits `acc` read before. -/
def payload (acc : Nat) (bs : Bytes) : Nat :=
  bs.foldl (fun n b => n * 64 + (b.toNat % 64)) acc

/-- How many of the next bytes, at most `n`, continue a sequence whose next byte lies
between `lo` and `hi`. -/
def continuing : Nat → UInt8 → UInt8 → Bytes → Nat
  | 0, _, _, _ => 0
  | _ + 1, _, _, [] => 0
  | n + 1, lo, hi, b :: bs =>
    if lo ≤ b ∧ b ≤ hi then continuing n 0x80 0xBF bs + 1 else 0

/-- The character that starts with lead byte `b`, or U+FFFD, and how many bytes after
`b` belong to it. -/
def firstChar (b : UInt8) (rest : Bytes) : Char × Nat :=
  match followers? b with
  | none => ('\uFFFD', 0)
  | some (n, lo, hi) =>
    let k := continuing n lo hi rest
    if k = n then
      (Char.ofNat (payload (b.toNat % (if n = 0 then 128 else 1 <<< (6 - n))) (rest.take n)), n)
    else ('\uFFFD', k)

/-- The characters of `bytes`, each ill-formed part as one U+FFFD. -/
def lossyChars : Bytes → List Char
  | [] => []
  | b :: rest =>
    let (c, used) := firstChar b rest
    c :: lossyChars (rest.drop used)
termination_by bytes => bytes.length
decreasing_by simp only [List.length_drop, List.length_cons]; omega

/-- The text of `bytes`, each ill-formed part as one U+FFFD. -/
def lossy (bytes : Bytes) : String := String.ofList (lossyChars bytes)

end Text
end SnippetConsole
