import SessionShell.Config
import SessionShell.Run.Loop
import SessionShell.Text.Lines

namespace SessionShell

open Text.Utf8 (Bytes)

namespace Program

def nameAndVersion : String := "nested-shell 0.1.0"

def helpText : String := nameAndVersion ++ "
Interactive command interpreter with nested sessions

USAGE:
    nested-shell [OPTIONS]

OPTIONS:
    -c, --config <FILE>     Path to configuration file (JSON)
    -p, --prompt <TEXT>     Prompt for new shells [default: \">> \"]
    -m, --modules <DIR>     Directory of command manifests (<name>.json)
    -l, --log-level <LVL>   Log filter (error, warn, info, debug, trace)
    -d, --debug             Enable debug logging
    -h, --help              Print help
    -V, --version           Print version

ENVIRONMENT VARIABLES:
    NESTED_SHELL_PROMPT     Prompt (overrides config)
    NESTED_SHELL_MODULES    Manifest directory (overrides config)
    NESTED_SHELL_LOG_LEVEL  Log filter (overrides config)
    RUST_LOG                Alternative log filter setting

Logs are written to stderr.

EXAMPLES:
    # Start with defaults
    nested-shell

    # Load extra commands from a directory
    nested-shell -m ~/.config/nested-shell/modules

    # Trace command resolution
    nested-shell --debug
"

structure Result where
  exitCode : Nat
  output : String
  errors : List String
deriving DecidableEq, Repr

/-- What the program does once its options and its configuration are read. -/
inductive Plan
  | help
  | version
  | session (config : Config)

inductive StartError
  | options (e : OptionError)
  | config (e : ConfigError)

def StartError.lines : StartError → List String
  | options e => ["error: " ++ e.message, "Try 'nested-shell --help' for more information."]
  | config e => ["error: " ++ e.message]

def plan (argv : List Bytes) (env : Environment) (files : Files) : Except StartError Plan := do
  let o ← (Options.parse argv).mapError .options
  if o.help then return .help
  else if o.version then return .version
  else return .session (← (Config.load files env o).mapError .config)

/-- Prompts and lines as they share the output: a line ends in a newline, a prompt does not. -/
def eventText : Event → String
  | .prompt _ text _ => text
  | .write line => line ++ "\n"
  | _ => ""

/-- All that a session and its children wrote. -/
def outputText (w : World) : String := String.join (w.events.map eventText)

def script (stream : Bytes) : List Entry :=
  (Text.lines stream).map fun line => { outcome := .line line }

/-- The exit code and the error lines at the end of the top-most session. -/
def ending : Outcome SessionId → Nat × List String
  | .ok _ => (0, [])
  | .failed e => (1, ["error: " ++ e.message])
  | .aborted => (1, [])

def runSession (c : Config) (files : Files) (reads : List Entry) (now : Instant) :
    Outcome SessionId × World :=
  (World.start (.start now) reads fun _ => []).openTop (c.shell files)

/-- Runs the program on the reads that standard input yields, from the given time on. -/
def run (argv : List Bytes) (env : Environment) (files : Files) (reads : List Entry)
    (now : Instant) : Result :=
  match plan argv env files with
  | .error e => ⟨2, "", e.lines⟩
  | .ok .help => ⟨0, helpText ++ "\n", []⟩
  | .ok .version => ⟨0, nameAndVersion ++ "\n", []⟩
  | .ok (.session c) =>
    let (outcome, w) := runSession c files reads now
    let (code, errors) := ending outcome
    ⟨code, outputText w, errors⟩

end Program
end SessionShell
