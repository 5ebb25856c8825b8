import SnippetConsole.Event
import SnippetConsole.FileTree.Listing
import SnippetConsole.Json.Access
import SnippetConsole.Json.Printer
import SnippetConsole.Main
import SnippetConsole.Panic
import SnippetConsole.Proofs.JsonMembers
import SnippetConsole.Proofs.LogOrder
import SnippetConsole.Proofs.LogRunLength
import SnippetConsole.Proofs.PrinterRecord
import SnippetConsole.Proofs.Submission
import SnippetConsole.Proofs.PathNames
import SnippetConsole.Proofs.WellFormedTree
import SnippetConsole.Proofs.ActSteps
import SnippetConsole.Proofs.Routes
import SnippetConsole.Proofs.TreeChange
import SnippetConsole.Proofs.Removal
import SnippetConsole.Proofs.Allocation
import SnippetConsole.Proofs.Compilation
import SnippetConsole.Proofs.RequestNames
import SnippetConsole.Proofs.RecordFields
import SnippetConsole.Proofs.SettingsDefaults
import SnippetConsole.Proofs.JsonRoundTrip
import SnippetConsole.Proofs.SettingsRoundTrip
import SnippetConsole.Proofs.SessionHistory
import SnippetConsole.Proofs.DirectoryMaking
import SnippetConsole.Proofs.Initialisation
import SnippetConsole.Proofs.FailedInitialisation
import SnippetConsole.Proofs.InputGroups
import SnippetConsole.Proofs.SubmissionEntries
import SnippetConsole.Proofs.FinalNames
import SnippetConsole.Proofs.RequestScope
import SnippetConsole.Proofs.SourceDelivery
import SnippetConsole.Proofs.RequestPairs
import SnippetConsole.Proofs.RequestRuns
import SnippetConsole.Proofs.RequestIsolation
import SnippetConsole.Proofs.RequestAttempts
import SnippetConsole.Proofs.ViewSignals
import SnippetConsole.Proofs.EventFilter
import SnippetConsole.Proofs.PanicRecord
import SnippetConsole.Proofs.TreeKeeping
import SnippetConsole.Proofs.SettingsInForce
import SnippetConsole.Proofs.HistorySlots
import SnippetConsole.Proofs.ExitStatus
import SnippetConsole.Proofs.TextOccurrence
import SnippetConsole.Proofs.SlotFilling
import SnippetConsole.Proofs.CommandPlace
import SnippetConsole.Proofs.HookCalls
import SnippetConsole.Proofs.FirstEntry
import SnippetConsole.Proofs.MergeLaws
import SnippetConsole.Proofs.AppendedEntry
import SnippetConsole.Proofs.LogReset
import SnippetConsole.Proofs.TypedText
import SnippetConsole.Proofs.EventText
import SnippetConsole.Proofs.KeptSnippets
import SnippetConsole.Proofs.SpelledValues
import SnippetConsole.Proofs.EnvironmentOverrides
