/-
# Settings from the environment

| variable | field | accepted |
| --- | --- | --- |
| `LIVECODE_WORKSPACE` | workspace path | any text |
| `LIVECODE_RUSTC` | compiler program | any text |
| `LIVECODE_MAX_HISTORY` | entries kept | an integer from 1 to 1000000 |
| `LIVECODE_SHOW_ON_ERROR` | reveal on errors | a word for true or false |
| `LIVECODE_LOG_LEVEL` | diagnostics filter | any text |

A variable that is unset, empty, not UTF-8 or not accepted changes nothing.
-/

import SnippetConsole.Decimal.Spelling
import SnippetConsole.Environment
import SnippetConsole.Settings.Basic
import SnippetConsole.Text.Blank

namespace SnippetConsole
namespace Settings

/-- Words for true, in lower case. -/
def trueWords : List String := ["true", "1", "yes", "on"]

/-- Words for false, in lower case. -/
def falseWords : List String := ["false", "0", "no", "off"]

/-- The truth value of a word, blanks around it and the case of its ASCII letters ignored. -/
def truthOfWord? (text : String) : Option Bool :=
  let word := String.ofList ((Text.trim text).toList.map Char.toLower)
  if trueWords.contains word then some true
  else if falseWords.contains word then some false
  else none

/-- The word of 64 bits that a text spells: digits, at least one, after at most one plus. -/
def spelledWord? (cs : List Char) : Option UInt64 :=
  match cs with
  | '+' :: ds => Decimal.word? ds
  | ds => Decimal.word? ds

/-- The number of a text, blanks around it ignored, if it fits in 64 bits and lies between
`least` and `greatest`. -/
def numberInRange? (text : String) (least greatest : Nat) : Option Nat :=
  match spelledWord? (Text.trimChars text.toList) with
  | none => none
  | some w => if least ≤ w.toNat ∧ w.toNat ≤ greatest then some w.toNat else none

/-- The least number of entries that the environment may ask for. -/
def leastOverride : Nat := 1

/-- The greatest number of entries that the environment may ask for. -/
def greatestOverride : Nat := 1000000

/-- The settings with a field put where the environment has an accepted value for it. -/
def overrideField (value : Option α) (put : α → Settings → Settings) (s : Settings) : Settings :=
  match value with
  | none => s
  | some a => put a s

/-- The settings with what the environment says. -/
def withOverrides (env : Environment) (s : Settings) : Settings :=
  s |> overrideField (env.given? "LIVECODE_WORKSPACE")
      (fun path s => { s with workspace.path := some path })
    |> overrideField (env.given? "LIVECODE_RUSTC")
      (fun program s => { s with toolchain.program := some program })
    |> overrideField
      ((env.given? "LIVECODE_MAX_HISTORY").bind
        (numberInRange? · leastOverride greatestOverride))
      (fun n s => { s with console.maxHistoryLength := UInt64.ofNat n })
    |> overrideField ((env.given? "LIVECODE_SHOW_ON_ERROR").bind truthOfWord?)
      (fun shown s => { s with console.showOnError := shown })
    |> overrideField (env.given? "LIVECODE_LOG_LEVEL")
      (fun level s => { s with logging.level := level })

end Settings
end SnippetConsole
