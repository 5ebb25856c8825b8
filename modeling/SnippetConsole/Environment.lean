/-
# Environment variables

A variable has a name and bytes for its value. Most readers want text: a value that is not
UTF-8 then counts as unset (`text?`), and where an empty value means "not given", as unset
too (`given?`).
-/

import SnippetConsole.Text.Utf8

namespace SnippetConsole

/-- Variables with their values; of two with one name the first counts. -/
structure Environment where
  entries : List (String × Bytes)
  deriving DecidableEq, Repr

namespace Environment

/-- No variables. -/
def empty : Environment := ⟨[]⟩

/-- The value of a variable. -/
def get? (env : Environment) (name : String) : Option Bytes :=
  (env.entries.find? (·.1 = name)).map (·.2)

/-- The environment without a variable. -/
def unset (env : Environment) (name : String) : Environment :=
  ⟨env.entries.filter (·.1 ≠ name)⟩

/-- The environment with a variable set. -/
def set (env : Environment) (name : String) (value : Bytes) : Environment :=
  ⟨(name, value) :: env.entries⟩

/-- The value of a variable as text. -/
def text? (env : Environment) (name : String) : Option String :=
  (env.get? name).bind Text.decode?

/-- The value of a variable as text, if it is not empty. -/
def given? (env : Environment) (name : String) : Option String :=
  (env.text? name).filter (· ≠ "")

/-- **Reading after setting:** the variable has its new value, all others keep theirs. -/
theorem get?_set (env : Environment) (name : String) (value : Bytes) (other : String) :
    (env.set name value).get? other = if other = name then some value else env.get? other := by
  by_cases h : other = name
  · simp [get?, set, h]
  · simp [get?, set, h, Ne.symm h]

/-- A variable that was removed is unset. -/
theorem get?_unset_self (env : Environment) (name : String) :
    (env.unset name).get? name = none := by
  simp [get?, unset]

end Environment
end SnippetConsole
