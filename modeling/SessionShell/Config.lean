import SessionShell.Json.Record
import SessionShell.Options
import SessionShell.Run.Lifecycle

namespace SessionShell

open Text.Utf8 (Bytes)

structure Config where
  prompt : String := defaultPrompt
  builtin : Bool := true
  modulesDir : Option String := none
  logFilter : String := "nested_shell=warn"
deriving DecidableEq, Repr

inductive ConfigError
  | unreadable (e : FileError)
  | malformed (reason : String)
deriving DecidableEq, Repr

def ConfigError.message : ConfigError → String
  | unreadable e => "failed to read config file: " ++ e.message
  | malformed reason => "failed to parse config file: " ++ reason

/-- The variables of the environment, as bytes. -/
structure Environment where
  get : String → Option Bytes

/-- The value of a variable; one that is no text counts as unset. -/
def Environment.text? (env : Environment) (name : String) : Option String :=
  (env.get name).bind Text.Utf8.decode?

namespace Config

/-- A section of the document, which reads some of the settings and leaves the others. -/
def sectionField (name record : String) (fields : List (Json.Field Config)) :
    Json.Field Config where
  name := name
  read c := Json.Schema.read ⟨record, c, fields⟩

def promptField : Json.Field Config where
  name := "prompt"
  read c text := do
    let (s, rest) ← Json.string "a string" text
    return ({ c with prompt := s }, rest)

def builtinField : Json.Field Config where
  name := "builtin"
  read c text := do
    let (b, rest) ← Json.boolean text
    return ({ c with builtin := b }, rest)

def dirField : Json.Field Config where
  name := "dir"
  read c text := do
    let (dir, rest) ← Json.string? "path string" text
    return ({ c with modulesDir := dir }, rest)

def levelField : Json.Field Config where
  name := "level"
  read c text := do
    let (s, rest) ← Json.string "a string" text
    return ({ c with logFilter := s }, rest)

def schema : Json.Schema Config where
  name := "Config"
  blank := {}
  fields := [
    sectionField "shell" "ShellSection" [promptField],
    sectionField "modules" "ModulesSection" [builtinField, dirField],
    sectionField "logging" "LoggingSection" [levelField]]

def ofFile (files : Files) (path : String) : Except ConfigError Config :=
  match files.readText path with
  | .error e => .error (.unreadable e)
  | .ok text => (schema.parse text).mapError .malformed

/-- Overrides by the environment. An empty directory is no override, an empty prompt is one. -/
def withEnvironment (c : Config) (env : Environment) : Config where
  prompt := (env.text? "NESTED_SHELL_PROMPT").getD c.prompt
  builtin := c.builtin
  modulesDir := ((env.text? "NESTED_SHELL_MODULES").filter (!·.isEmpty)).or c.modulesDir
  logFilter := ((env.text? "NESTED_SHELL_LOG_LEVEL").or (env.text? "RUST_LOG")).getD c.logFilter

def debugFilter : String := "nested_shell=debug"

def withOptions (c : Config) (o : Options) : Config where
  prompt := o.prompt.getD c.prompt
  builtin := c.builtin
  modulesDir := o.modules.or c.modulesDir
  logFilter := if o.debug then debugFilter else o.logLevel.getD c.logFilter

def load (files : Files) (env : Environment) (o : Options) : Except ConfigError Config := do
  let c ← match o.config with
    | some path => ofFile files path
    | none => .ok {}
  return (c.withEnvironment env).withOptions o

/-- The modules of the shell itself, if they are enabled, and then those of the directory, if one is
set. -/
def providers (c : Config) (files : Files) : List Provider :=
  (if c.builtin then [Catalog.builtin.provider] else []) ++
    (c.modulesDir.map fun dir => ManifestDirectory.provider files ⟨dir⟩).toList

def shell (c : Config) (files : Files) : Shell where
  resolver := { providers := c.providers files }
  prompt := c.prompt

end Config
end SessionShell
