/-
# Inputs of the console

A line that ends in a backslash goes on with the next one; the lines joined so, without their
backslashes and with line feeds between them, are a snippet. A line of its own whose first
character that is not blank is a colon is a command; any other is a snippet as it stands. Carriage
returns and line feeds at the end of a line do not belong to it.
-/

import SnippetConsole.Text.Blank

namespace SnippetConsole
namespace CommandLine

/-- One complete input. -/
inductive Input where
  | snippet (code : String)
  | keep (code : String)
  | clear
  | history
  | again
  | reset
  | save
  | help
  | quit
  | unknown (name : String)
  deriving DecidableEq, Repr

/-- The command with a name and what follows it. -/
def Input.ofCommand (name rest : String) : Input :=
  if name = "q" ∨ name = "quit" ∨ name = "exit" then quit
  else if name = "clear" then clear
  else if name = "history" then history
  else if name = "again" then again
  else if name = "reset" then reset
  else if name = "save" then save
  else if name = "help" ∨ name = "?" then help
  else if name = "keep" then keep rest
  else unknown name

/-- The input of one line. -/
def Input.ofLine (line : String) : Input :=
  match Text.trimChars line.toList with
  | ':' :: command =>
    let name := command.takeWhile fun c => !Text.isBlank c
    let rest := command.dropWhile fun c => !Text.isBlank c
    ofCommand (String.ofList name) (String.ofList (Text.trimChars (rest.drop 1)))
  | _ => snippet line

/-- Whether `c` ends a line. -/
def isLineEnd (c : Char) : Bool := c = '\r' || c = '\n'

/-- A line without its ending. -/
def withoutEnding (line : String) : List Char := Text.dropWhileEnd isLineEnd line.toList

/-- Lines on their way to an input: the text of those that went on so far. -/
structure Assembler where
  pending : Option String
  deriving DecidableEq, Repr

namespace Assembler

/-- No line is waiting. -/
def new : Assembler := ⟨none⟩

/-- Whether the next line goes on from an earlier one. -/
def isContinuing (a : Assembler) : Bool := a.pending.isSome

/-- The input that a raw line completes, if it does, and the assembler afterwards. -/
def push (a : Assembler) (line : String) : Option Input × Assembler :=
  let cs := withoutEnding line
  if cs.getLast? = some '\\' then
    (none, ⟨some (a.pending.getD "" ++ String.ofList cs.dropLast ++ "\n")⟩)
  else
    match a.pending with
    | some text => (some (.snippet (text ++ String.ofList cs)), new)
    | none => (some (.ofLine (String.ofList cs)), new)

/-- The input that the end of all lines completes, if lines are waiting. -/
def finish (a : Assembler) : Option Input × Assembler := (a.pending.map .snippet, new)

end Assembler

/-- What `:help` shows. -/
def helpText : String := String.intercalate "\n" [
  "Type Rust statements; they run inside the live process.",
  "  log::message(..) / log::warning(..) / log::error(..) / console!(..)",
  "End a line with \\ to continue on the next line.",
  "Commands:",
  "  :keep <code>  run without adding to history",
  "  :again        run the previous command again",
  "  :history      list previous commands",
  "  :clear        clear the log",
  "  :reset        restore default log settings",
  "  :save         write settings to the settings file",
  "  :help         show this text",
  "  :quit         exit"]

end CommandLine
end SnippetConsole
