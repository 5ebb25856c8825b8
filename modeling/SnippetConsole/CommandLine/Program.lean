/-
# The program

The program reads its options, loads the settings, makes the console, and then runs either one
snippet or a session over its input. What stops it before that is told on standard error: what
was being done, then the causes, numbered if there is more than one.

| exit status | when |
| ---: | --- |
| 0 | the session is over, the snippet did not fail, or help or version was shown |
| 1 | it could not start, its input was not text, or the snippet failed |
| 2 | the arguments are wrong |
-/

import SnippetConsole.CommandLine.Options
import SnippetConsole.CommandLine.Session
import SnippetConsole.Execution.Native

namespace SnippetConsole
namespace CommandLine

/-- What a run of the program leaves behind. -/
structure Report where
  stdout : String
  stderr : String
  status : Nat
  machine : Machine

/-- A cause with its lines indented. -/
def causeText (first further cause : String) : String :=
  first ++ Text.replaceAll "\n" ("\n" ++ further) cause

/-- What is told of an error with its causes. -/
def errorText (context : String) (causes : List String) : String :=
  let told :=
    match causes with
    | [] => ""
    | [cause] => "\n\nCaused by:\n" ++ causeText "    " "    " cause
    | causes =>
      "\n\nCaused by:" ++ String.join (causes.zipIdx.map fun (cause, i) =>
        "\n" ++ causeText ("    " ++ toString i ++ ": ") "       " cause)
  "Error: " ++ context ++ told ++ "\n"

/-- The causes of settings that could not be loaded. -/
def settingsCauses (fault : Settings.Fault) : List String := fault.message :: fault.source?.toList

/-- The causes of a workspace that could not be made. -/
def workspaceCauses (fault : Workspace.Fault) : List String := fault.message :: fault.source?.toList

/-- The settings file: the given one, or the user's. -/
def settingsFile (o : Options) (m : Machine) : FilePath :=
  o.settings.getD (Settings.defaultPath m)

/-- The settings with what the options say. -/
def withOptions (o : Options) (s : Settings) : Settings :=
  s |> Settings.overrideField o.workspace
      (fun path s => { s with workspace.path := some (FilePath.display path) })
    |> Settings.overrideField o.program (fun program s => { s with toolchain.program := some program })
    |> Settings.overrideField o.logLevel (fun level s => { s with logging.level := level })

/-- Settings saved on the machine of a native executor. -/
def saveNatively (s : Settings) (path : FilePath) (native : Execution.Native) :
    Except Settings.Fault PUnit × Execution.Native :=
  match s.save path native.machine with
  | .ok _ m => (.ok (), { native with machine := m })
  | .error fault m => (.error fault, { native with machine := m })

/-- The console that settings describe over an executor. Its log first has the policy of the
settings and then gets it once more. -/
def consoleOf (s : Settings) (native : Execution.Native) (clock : Clock) :
    Console Execution.Native :=
  let log := Log.new (.ofSettings s.console) clock
  .new (log.setPolicy (.ofSettings s.console)) (.ofSettings s.toolchain) Execution.Native.execute
    native

/-- A session with settings over a native executor. -/
def sessionOf (s : Settings) (file : FilePath) (native : Execution.Native) (clock : Clock) :
    Session Execution.Native where
  console := consoleOf s native clock
  printer := .new s.console.formatString
  settings := s
  settingsFile := file
  store := saveNatively

/-- Runs the program with these options. -/
def runOptions (o : Options) (stdin : Bytes) (clock : Clock) (m : Machine) : Report :=
  let file := settingsFile o m
  match Settings.load file m with
  | .error fault =>
    ⟨"", errorText ("Failed to load settings from " ++ file.display) (settingsCauses fault), 1, m⟩
  | .ok settings =>
    let settings := withOptions o settings
    match Execution.Native.ofSettings settings m with
    | .error fault m =>
      ⟨"", errorText "Failed to initialize the console workspace" (workspaceCauses fault), 1, m⟩
    | .ok native _ =>
      let session := sessionOf settings file native clock
      match o.eval with
      | some code =>
        let (text, failed, session) := session.evaluate code
        ⟨text, "", if failed then 1 else 0, session.console.state.machine⟩
      | none =>
        match session.run .new "" (Session.rawLines stdin) with
        | (text, .over, session) => ⟨text, "", 0, session.console.state.machine⟩
        | (text, .notText, session) =>
          ⟨text, errorText FileTree.Fault.notText.message [], 1, session.console.state.machine⟩

/-- Runs the program with these arguments. -/
def run (arguments : List Bytes) (stdin : Bytes) (clock : Clock) (m : Machine) : Report :=
  match Options.ofArguments arguments with
  | .ok options => runOptions options stdin clock m
  | .error .help => ⟨usageText, "", 0, m⟩
  | .error .version => ⟨versionText, "", 0, m⟩
  | .error .wrong => ⟨"", "error: wrong arguments\n\n" ++ usageText, 2, m⟩

end CommandLine
end SnippetConsole
