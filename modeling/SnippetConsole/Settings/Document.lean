/-
# Settings as a document

Each section is a record in JSON, its fields in the declared order under names in camel
case. Reading starts from the standard section; writing leaves out an optional text that is
not set. Only a reference has fields that must be there.
-/

import SnippetConsole.Json.Decoder
import SnippetConsole.Json.Printer
import SnippetConsole.Settings.Basic

namespace SnippetConsole
namespace Settings

open Json (Decoder Field Shape Value)

/-- The record of a reference. -/
def Reference.shape : Shape Reference where
  name := "ReferenceSettings"
  blank := ⟨"", ""⟩
  fields := [
    .mandatory "name" .string fun s r => { r with name := s },
    .mandatory "path" .string fun s r => { r with path := s }]

/-- The record of the console section. -/
def Console.shape : Shape Console where
  name := "ConsoleSettings"
  blank := .standard
  fields := [
    .optional "maxHistoryLength" .word fun n c => { c with maxHistoryLength := n },
    .optional "formatString" .string fun s c => { c with formatString := s },
    .optional "showOnMessage" .bool fun b c => { c with showOnMessage := b },
    .optional "showOnWarning" .bool fun b c => { c with showOnWarning := b },
    .optional "showOnError" .bool fun b c => { c with showOnError := b },
    .optional "autoScrollToBottom" .bool fun b c => { c with autoScrollToBottom := b },
    .optional "forwardTracing" .bool fun b c => { c with forwardTracing := b },
    .optional "logPanics" .bool fun b c => { c with logPanics := b }]

/-- The record of the workspace section. -/
def Workspace.shape : Shape Workspace where
  name := "WorkspaceSettings"
  blank := .standard
  fields := [.optional "path" .optionalString fun s w => { w with path := s }]

/-- The record of the toolchain section. -/
def Toolchain.shape : Shape Toolchain where
  name := "ToolchainSettings"
  blank := .standard
  fields := [
    .optional "rustc" .optionalString fun s t => { t with program := s },
    .optional "optLevel" .byte fun n t => { t with optLevel := n },
    .optional "extraArgs" (.list .string) fun ss t => { t with extraArgs := ss },
    .optional "references" (.list Reference.shape.decoder) fun rs t => { t with references := rs },
    .optional "libraryPaths" (.list .string) fun ss t => { t with libraryPaths := ss },
    .optional "prelude" (.list .string) fun ss t => { t with prelude := ss }]

/-- The record of the logging section. -/
def Logging.shape : Shape Logging where
  name := "LoggingSettings"
  blank := .standard
  fields := [.optional "level" .string fun s l => { l with level := s }]

/-- The record of all settings. -/
def shape : Shape Settings where
  name := "LivecodeSettings"
  blank := .standard
  fields := [
    .optional "version" .string fun s t => { t with version := s },
    .optional "console" Console.shape.decoder fun c t => { t with console := c },
    .optional "workspace" Workspace.shape.decoder fun w t => { t with workspace := w },
    .optional "toolchain" Toolchain.shape.decoder fun c t => { t with toolchain := c },
    .optional "logging" Logging.shape.decoder fun l t => { t with logging := l }]

/-- A list of texts as a value. -/
def textList (ss : List String) : Value := .array (ss.map .string)

/-- An optional text as a member, left out if it is not set. -/
def optionalMember (key : String) : Option String → List (String × Value)
  | none => []
  | some s => [(key, .string s)]

/-- A reference as a written record. -/
def Reference.toValue (r : Reference) : Value :=
  .object [("name", .string r.name), ("path", .string r.path)]

/-- The console section as a written record. -/
def Console.toValue (c : Console) : Value :=
  .object [
    ("maxHistoryLength", .ofNat c.maxHistoryLength.toNat),
    ("formatString", .string c.formatString),
    ("showOnMessage", .bool c.showOnMessage),
    ("showOnWarning", .bool c.showOnWarning),
    ("showOnError", .bool c.showOnError),
    ("autoScrollToBottom", .bool c.autoScrollToBottom),
    ("forwardTracing", .bool c.forwardTracing),
    ("logPanics", .bool c.logPanics)]

/-- The workspace section as a written record. -/
def Workspace.toValue (w : Workspace) : Value := .object (optionalMember "path" w.path)

/-- The toolchain section as a written record. -/
def Toolchain.toValue (t : Toolchain) : Value :=
  .object (optionalMember "rustc" t.program ++ [
    ("optLevel", .ofNat t.optLevel.toNat),
    ("extraArgs", textList t.extraArgs),
    ("references", .array (t.references.map Reference.toValue)),
    ("libraryPaths", textList t.libraryPaths),
    ("prelude", textList t.prelude)])

/-- The logging section as a written record. -/
def Logging.toValue (l : Logging) : Value := .object [("level", .string l.level)]

/-- Settings as a written record. -/
def toValue (s : Settings) : Value :=
  .object [
    ("version", .string s.version),
    ("console", s.console.toValue),
    ("workspace", s.workspace.toValue),
    ("toolchain", s.toolchain.toValue),
    ("logging", s.logging.toValue)]

/-- The text of a settings file. -/
def fileText (s : Settings) : String := Json.pretty s.toValue

end Settings
end SnippetConsole
