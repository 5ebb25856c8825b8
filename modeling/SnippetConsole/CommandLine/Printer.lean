/-
# Printing new entries

A printer remembers the id and count of the entry it printed last. It prints each entry once,
and the last one again whenever its count has grown; older entries cannot grow. A line shows
the count if it is above one.
-/

import SnippetConsole.Log.Basic
import SnippetConsole.Log.Format

namespace SnippetConsole
namespace CommandLine

/-- A printer with its template. -/
structure Printer where
  template : String
  lastId : Nat
  lastCount : Nat
  deriving DecidableEq, Repr

namespace Printer

/-- A printer that has printed nothing. -/
def new (template : String) : Printer := ⟨template, 0, 0⟩

/-- The printer with another template for what it prints from now on. -/
def setTemplate (p : Printer) (template : String) : Printer := { p with template := template }

/-- The line of an entry. -/
def line (p : Printer) (e : Log.Entry) : String :=
  let text := e.format p.template
  if 1 < e.count then text ++ " (x" ++ toString e.count ++ ")" else text

/-- Whether an entry is new, or was printed last and has grown since. -/
def isDue (p : Printer) (e : Log.Entry) : Bool :=
  p.lastId < e.id || (e.id = p.lastId && p.lastCount < e.count)

/-- The printer after it printed an entry. -/
def after (p : Printer) (e : Log.Entry) : Printer :=
  { p with lastId := e.id, lastCount := e.count }

/-- The lines of the due ones among entries in order, and the printer afterwards. -/
def print (p : Printer) : List Log.Entry → List String × Printer
  | [] => ([], p)
  | e :: es =>
    if p.isDue e then
      let (lines, q) := print (p.after e) es
      (p.line e :: lines, q)
    else print p es

/-- The lines that a log has for the printer, and the printer afterwards. -/
def pending (p : Printer) (log : Log) : List String × Printer :=
  p.print (log.since (p.lastId - 1))

/-- Lines as text, each with its line feed. -/
def linesText (lines : List String) : String := String.join (lines.map (· ++ "\n"))

/-- The text that a log has for the printer, and the printer afterwards. -/
def flush (p : Printer) (log : Log) : String × Printer :=
  let (lines, q) := p.pending log
  (linesText lines, q)

end Printer
end CommandLine
end SnippetConsole
