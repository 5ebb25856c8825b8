/-
# Quoted text

A quoted text stands between double quotes, each character in its shortest safe form:

| character | written |
| --- | --- |
| `"` and `\` | behind a backslash |
| NUL, tab, line feed, carriage return | `\0`, `\t`, `\n`, `\r` |
| any other that does not show by itself | its number in hexadecimal, as `\u` with braces |
| all else, the apostrophe too | as it is |
-/

import SnippetConsole.Text.Visible

namespace SnippetConsole
namespace Text

/-- The hexadecimal digits of `n`, most significant first, without leading zeros. -/
def hexDigits (n : Nat) : List Char := Nat.toDigits 16 n

/-- How one character is written between quotes. -/
def quotedChar (c : Char) : List Char :=
  if c = '"' then ['\\', '"']
  else if c = '\\' then ['\\', '\\']
  else if c = '\n' then ['\\', 'n']
  else if c = '\t' then ['\\', 't']
  else if c = '\r' then ['\\', 'r']
  else if c = '\x00' then ['\\', '0']
  else if isVisible c then [c]
  else ['\\', 'u', '\x7b'] ++ hexDigits c.toNat ++ ['\x7d']

/-- The quoted form of `s`. -/
def quoted (s : String) : String :=
  String.ofList ('"' :: s.toList.flatMap quotedChar ++ ['"'])

end Text
end SnippetConsole
