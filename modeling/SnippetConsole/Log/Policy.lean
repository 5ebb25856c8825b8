/-
# What a log keeps and asks its view for

A policy bounds the number of entries and says which new entries ask the view to show the
log, and whether they ask it to scroll. Errors and exceptions share one switch.
-/

import SnippetConsole.Settings.Basic
import SnippetConsole.Severity

namespace SnippetConsole
namespace Log

/-- The policy of a log. -/
structure Policy where
  maxEntries : Nat
  revealOnInfo : Bool
  revealOnWarning : Bool
  revealOnError : Bool
  autoScroll : Bool
  deriving DecidableEq, Repr

namespace Policy

/-- Whether a new entry of this severity asks to show the log. -/
def reveals (p : Policy) : Severity → Bool
  | .info => p.revealOnInfo
  | .warning => p.revealOnWarning
  | .error => p.revealOnError
  | .exception => p.revealOnError

/-- The policy that settings describe; it keeps at least one entry. -/
def ofSettings (c : Settings.Console) : Policy where
  maxEntries := max c.maxHistoryLength.toNat 1
  revealOnInfo := c.showOnMessage
  revealOnWarning := c.showOnWarning
  revealOnError := c.showOnError
  autoScroll := c.autoScrollToBottom

/-- The policy of the standard settings. -/
def standard : Policy := ofSettings .standard

/-- The policy with room for at least one entry. -/
def clamped (p : Policy) : Policy := { p with maxEntries := max p.maxEntries 1 }

theorem one_le_clamped (p : Policy) : 1 ≤ p.clamped.maxEntries := Nat.le_max_right _ _

end Policy
end Log
end SnippetConsole
