/-
# White space

A character is *blank* if it has the Unicode property `White_Space`: tab to carriage
return, the space, U+0085, U+00A0, U+1680, U+2000 to U+200A, U+2028, U+2029, U+202F,
U+205F and U+3000. Trimming removes blank characters from the ends of a text
(`trim`); a text of blank characters only is blank (`isBlankText`).
-/

namespace SnippetConsole
namespace Text

/-- Whether `c` is white space. -/
def isBlank (c : Char) : Bool :=
  let n := c.toNat
  (0x09 ≤ n && n ≤ 0x0D) || n = 0x20 || n = 0x85 || n = 0xA0 || n = 0x1680
    || (0x2000 ≤ n && n ≤ 0x200A) || n = 0x2028 || n = 0x2029 || n = 0x202F
    || n = 0x205F || n = 0x3000

/-- White space of ASCII is blank. -/
theorem isBlank_of_isWhitespace {c : Char} (h : c.isWhitespace = true) :
    isBlank c = true := by
  simp only [Char.isWhitespace, Bool.or_eq_true, decide_eq_true_eq] at h
  rcases h with ((rfl | rfl) | rfl) | rfl <;> decide

/-- `cs` without the characters at its end that satisfy `p`. -/
def dropWhileEnd (p : Char → Bool) (cs : List Char) : List Char :=
  (cs.reverse.dropWhile p).reverse

/-- What is left after cutting the end satisfies no `p` there. -/
theorem dropWhileEnd_append_singleton {p : Char → Bool} {cs : List Char} {c : Char}
    (h : p c = false) : dropWhileEnd p (cs ++ [c]) = cs ++ [c] := by
  simp [dropWhileEnd, h]

/-- Characters that satisfy `p` are passed over. -/
theorem dropWhile_append_of_forall {p : Char → Bool} {cs ds : List Char}
    (h : ∀ d ∈ ds, p d = true) : (ds ++ cs).dropWhile p = cs.dropWhile p := by
  induction ds with
  | nil => rfl
  | cons d ds ih => simp_all

/-- Characters at the end that satisfy `p` make no difference. -/
theorem dropWhileEnd_append_of_forall {p : Char → Bool} {cs ds : List Char}
    (h : ∀ d ∈ ds, p d = true) : dropWhileEnd p (cs ++ ds) = dropWhileEnd p cs := by
  rw [dropWhileEnd, List.reverse_append, dropWhile_append_of_forall, dropWhileEnd]
  simpa using h

/-- The characters of a text without blank ones at either end. -/
def trimChars (cs : List Char) : List Char := dropWhileEnd isBlank (cs.dropWhile isBlank)

/-- `s` without blank characters at either end. -/
def trim (s : String) : String := String.ofList (trimChars s.toList)

/-- Whether `s` holds blank characters only. -/
def isBlankText (s : String) : Bool := s.toList.all isBlank

end Text
end SnippetConsole
