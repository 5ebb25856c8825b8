/-
# Options of the program

| option | value | |
| --- | --- | --- |
| `--settings` | path | the settings file |
| `--workspace` | path | the root of the workspace |
| `--rustc` | text | the compiler program |
| `--log-level` | text | the diagnostics filter |
| `-e`, `--eval` | text | one snippet to run |
| `-h`, `--help` | | shows the options |
| `-V`, `--version` | | shows the version |

A value follows behind an equals sign, or as the next argument unless that starts with a
dash and has more; the short option also takes it directly. An option is given at most once, a
path is not empty, and there are no other arguments. The arguments are read from left to
right, and the first that asks for help or the version, or that is wrong, decides.
-/

import SnippetConsole.Text.Utf8

namespace SnippetConsole
namespace CommandLine

/-- What the arguments ask for. -/
structure Options where
  settings : Option Bytes
  workspace : Option Bytes
  program : Option String
  logLevel : Option String
  eval : Option String
  deriving DecidableEq, Repr

/-- Nothing asked for. -/
def Options.empty : Options := ⟨none, none, none, none, none⟩

/-- Why arguments do not give options. -/
inductive Stop where
  | help
  | version
  | wrong
  deriving DecidableEq, Repr

/-- An option with a value. -/
inductive Key where
  | settings
  | workspace
  | program
  | logLevel
  | eval
  deriving DecidableEq, Repr

/-- What an argument is, apart from its value. -/
inductive Flag where
  | valued (key : Key)
  | help
  | version
  deriving DecidableEq, Repr

/-- The flag of a long name. -/
def longFlag? (name : String) : Option Flag :=
  if name = "settings" then some (.valued .settings)
  else if name = "workspace" then some (.valued .workspace)
  else if name = "rustc" then some (.valued .program)
  else if name = "log-level" then some (.valued .logLevel)
  else if name = "eval" then some (.valued .eval)
  else if name = "help" then some .help
  else if name = "version" then some .version
  else none

namespace Options

/-- A value as a path, which is not empty. -/
def path (value : Bytes) : Except Stop Bytes := if value = [] then .error .wrong else .ok value

/-- A value as text. -/
def text (value : Bytes) : Except Stop String :=
  match Text.decode? value with
  | some text => .ok text
  | .none => .error .wrong

/-- A value put where there is none yet. -/
def once (old : Option α) (value : Except Stop α) : Except Stop (Option α) :=
  if old.isSome then .error .wrong else value.map some

/-- The options with the value of one of them. -/
def put (o : Options) (key : Key) (value : Bytes) : Except Stop Options :=
  match key with
  | .settings => do .ok { o with settings := ← once o.settings (path value) }
  | .workspace => do .ok { o with workspace := ← once o.workspace (path value) }
  | .program => do .ok { o with program := ← once o.program (text value) }
  | .logLevel => do .ok { o with logLevel := ← once o.logLevel (text value) }
  | .eval => do .ok { o with eval := ← once o.eval (text value) }

/-- The byte of `-`. -/
def dash : UInt8 := 45

/-- The byte of `=`. -/
def equals : UInt8 := 61

/-- Whether an argument may be the value of the option before it. -/
def isValue (argument : Bytes) : Bool := argument.head? ≠ some dash || argument = [dash]

/-- The name and the value of a long option; the value stands behind an equals sign. -/
def splitLong (body : Bytes) : Bytes × Option Bytes :=
  match body.dropWhile (· ≠ equals) with
  | [] => (body, .none)
  | _ :: value => (body.takeWhile (· ≠ equals), some value)

/-- What one argument is, if it is right so far: a flag with the value it brings. -/
inductive Piece where
  | flag (flag : Flag) (value : Option Bytes)
  | endOfOptions
  | wrong
  deriving DecidableEq, Repr

/-- The piece that an argument starting with one dash is. -/
def shortPiece : Bytes → Piece
  | 101 :: [] => .flag (.valued .eval) .none
  | 101 :: 61 :: value => .flag (.valued .eval) (some value)
  | 101 :: value => .flag (.valued .eval) (some value)
  | 104 :: _ => .flag .help .none
  | 86 :: _ => .flag .version .none
  | _ => .wrong

/-- The piece that a long option without its dashes is. -/
def longPiece (body : Bytes) : Piece :=
  let (name, value) := splitLong body
  match (Text.decode? name).bind longFlag? with
  | .none => .wrong
  | some flag => .flag flag value

/-- The piece that an argument is. -/
def piece : Bytes → Piece
  | 45 :: 45 :: [] => .endOfOptions
  | 45 :: 45 :: body => longPiece body
  | 45 :: b :: bs => shortPiece (b :: bs)
  | _ => .wrong

/-- The options with those that arguments give. -/
def read (o : Options) : List Bytes → Except Stop Options
  | [] => .ok o
  | argument :: rest =>
    match piece argument with
    | .wrong => .error .wrong
    | .endOfOptions => if rest.isEmpty then .ok o else .error .wrong
    | .flag .help .none => .error .help
    | .flag .version .none => .error .version
    | .flag .help (some _) => .error .wrong
    | .flag .version (some _) => .error .wrong
    | .flag (.valued key) (some value) => do read (← o.put key value) rest
    | .flag (.valued key) .none =>
      match rest with
      | [] => .error .wrong
      | value :: rest => do
        if isValue value then read (← o.put key value) rest else .error .wrong

/-- The options that arguments give. -/
def ofArguments (arguments : List Bytes) : Except Stop Options := read .empty arguments

end Options

/-- What `--version` shows. -/
def versionText : String := "livecode 0.1.0\n"

/-- One line about an option, the texts in two columns. -/
def optionLine (option about : String) : String :=
  option ++ String.ofList (List.replicate (29 - option.length) ' ') ++ "  " ++ about ++ "\n"

/-- What `--help` shows. -/
def usageText : String :=
  "Compile and run Rust snippets in-process\n\nUsage: livecode [OPTIONS]\n\nOptions:\n"
    ++ optionLine "      --settings <SETTINGS>"
      "Settings file (defaults to `~/.livecode/settings.json`)"
    ++ optionLine "      --workspace <WORKSPACE>"
      ("Scratch workspace root. Must be empty or a previous livecode workspace; it is wiped "
        ++ "on startup")
    ++ optionLine "      --rustc <RUSTC>" "Compiler program"
    ++ optionLine "      --log-level <LOG_LEVEL>"
      "Stderr log filter (overrides settings; `RUST_LOG` wins over both)"
    ++ optionLine "  -e, --eval <EVAL>"
      "Run one snippet, print the log and exit. Exits with status 1 if the snippet failed"
    ++ optionLine "  -h, --help" "Print help"
    ++ optionLine "  -V, --version" "Print version"

end CommandLine
end SnippetConsole
