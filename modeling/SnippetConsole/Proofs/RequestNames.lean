/-
# Names made from request ids

A request id as text has 36 bytes: its mark and 32 digits, none of them a slash or NUL
(`length_encode_hexPadded`, `mem_encode_hexPadded`). So it is a valid name of a directory
(`isName_text`), and with an ending that of a loadable unit (`isName_libraryName`).
-/

import SnippetConsole.Proofs.PathNames
import SnippetConsole.Workspace

namespace SnippetConsole
namespace Text

/-- The form of two texts is that of the first and then that of the second. -/
theorem encode_append (s t : String) : encode (s ++ t) = encode s ++ encode t := by
  simp [encode]

/-- The form of a text is that of its characters. -/
theorem encode_ofList (cs : List Char) :
    encode (String.ofList cs) = cs.flatMap String.utf8EncodeChar := by
  simp [encode, List.utf8Encode]

/-- A digit is one byte, and that is no slash and not NUL. -/
theorem utf8EncodeChar_hexDigit {n : Nat} (h : n < 16) :
    ∃ b, String.utf8EncodeChar (hexDigit n) = [b] ∧ b ≠ FilePath.slash ∧ b ≠ 0 := by
  have hall : ∀ m : Fin 16, String.utf8EncodeChar (hexDigit m.val) = [(hexDigit m.val).val.toUInt8]
      ∧ (hexDigit m.val).val.toUInt8 ≠ FilePath.slash ∧ (hexDigit m.val).val.toUInt8 ≠ 0 := by
    decide
  exact ⟨_, hall ⟨n, h⟩⟩

/-- **As many bytes as digits.** -/
theorem length_encode_hexPadded (count n : Nat) :
    (encode (String.ofList (hexPadded count n))).length = count := by
  rw [encode_ofList]
  induction count generalizing n with
  | zero => rfl
  | succ count ih =>
    obtain ⟨b, hb, -⟩ := utf8EncodeChar_hexDigit (Nat.mod_lt n (by decide : 0 < 16))
    rw [hexPadded, List.flatMap_append, List.length_append, ih, List.flatMap_singleton, hb]
    rfl

/-- None of them a slash or NUL. -/
theorem mem_encode_hexPadded {count n : Nat} {b : UInt8}
    (h : b ∈ encode (String.ofList (hexPadded count n))) : b ≠ FilePath.slash ∧ b ≠ 0 := by
  rw [encode_ofList] at h
  induction count generalizing n with
  | zero => exact absurd h List.not_mem_nil
  | succ count ih =>
    rw [hexPadded, List.flatMap_append, List.flatMap_singleton] at h
    rcases List.mem_append.1 h with h | h
    · exact ih h
    · obtain ⟨b', hb', hgood⟩ := utf8EncodeChar_hexDigit (Nat.mod_lt n (by decide : 0 < 16))
      rw [hb'] at h
      obtain rfl := List.mem_singleton.1 h
      exact hgood

end Text

namespace FilePath

/-- Three bytes or more are a name if none of them is a slash or NUL and they are not too many. -/
theorem isName_of_length {n : Bytes} (hmin : 3 ≤ n.length)
    (hmax : n.length ≤ FileTree.maxNameLength) (hslash : slash ∉ n) (hnul : (0 : UInt8) ∉ n) :
    IsName n where
  ne_nil := by
    rintro rfl
    exact absurd hmin (by decide)
  slash_notMem := hslash
  nul_notMem := hnul
  ne_here := by
    rintro rfl
    exact absurd hmin (by decide)
  ne_up := by
    rintro rfl
    exact absurd hmin (by decide)
  length_le := hmax

end FilePath

namespace RequestId

open FilePath (IsName)

variable (id : RequestId)

/-- A byte of an id with an ending is one of the mark, a digit or one of the ending. -/
theorem notMem_encode_text_append {ending : String} {b : UInt8}
    (hmark : b ∉ ([116, 109, 112, 95] : Bytes)) (hdigit : b = FilePath.slash ∨ b = 0)
    (hending : b ∉ Text.encode ending) : b ∉ Text.encode (id.text ++ ending) := by
  have heq : Text.encode mark = [116, 109, 112, 95] := by decide
  rw [text, Text.encode_append, Text.encode_append, heq]
  intro h
  rcases List.mem_append.1 h with h | h
  · rcases List.mem_append.1 h with h | h
    · exact hmark h
    · obtain ⟨hslash, hnul⟩ := Text.mem_encode_hexPadded h
      exact hdigit.elim hslash hnul
  · exact hending h

/-- An id has as many bytes as its mark and its digits. -/
theorem length_text : (FilePath.ofString id.text).length = 36 := by
  have hmark : (Text.encode mark).length = 4 := by decide
  rw [FilePath.ofString, text, Text.encode_append, List.length_append, hmark,
    Text.length_encode_hexPadded, digitCount]

/-- An id with an ending is a name. -/
theorem isName_text_append (ending : String) (hlen : (Text.encode ending).length ≤ 219)
    (hslash : FilePath.slash ∉ Text.encode ending) (hnul : (0 : UInt8) ∉ Text.encode ending) :
    IsName (FilePath.ofString (id.text ++ ending)) := by
  have hall : (Text.encode (id.text ++ ending)).length = 36 + (Text.encode ending).length := by
    rw [Text.encode_append, List.length_append, ← FilePath.ofString, id.length_text]
  refine FilePath.isName_of_length ?_ ?_
    (id.notMem_encode_text_append (by decide) (.inl rfl) hslash)
    (id.notMem_encode_text_append (by decide) (.inr rfl) hnul)
  · rw [FilePath.ofString, hall]
    omega
  · rw [FilePath.ofString, hall, FileTree.maxNameLength]
    omega

/-- **An id names a directory.** -/
theorem isName_text : IsName (FilePath.ofString id.text) := by
  have h := id.isName_text_append "" (by decide) (by decide) (by decide)
  rwa [String.append_empty] at h

/-- **An id names a loadable unit.** -/
theorem isName_libraryName : IsName (Workspace.libraryName id) :=
  id.isName_text_append ".so" (by decide) (by decide) (by decide)

end RequestId
end SnippetConsole
