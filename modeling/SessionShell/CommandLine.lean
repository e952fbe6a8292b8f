import SessionShell.CommandLine.Words
import SessionShell.CommandLine.Flag

namespace SessionShell

open CommandLine

structure Arguments where
  positional : List String
  flags : Flags
deriving DecidableEq

namespace Arguments

def empty : Arguments := ⟨[], ∅⟩

def isEmpty (a : Arguments) : Bool := a.positional.isEmpty && a.flags.isEmpty

def flag? (a : Arguments) (name : String) : Option FlagValue := (a.flags.find? name).map (·.2)

def isSet (a : Arguments) (name : String) : Bool := a.flag? name = some (.switch true)

def addPositional (a : Arguments) (word : String) : Arguments :=
  { a with positional := a.positional ++ [word] }

def addSettings (a : Arguments) (settings : List Setting) : Arguments :=
  { a with flags := settings.foldl Keyed.insert a.flags }

/-- Takes words up to a bare `--` as flags or positional arguments, and all after it as positional
ones. -/
def addWords (a : Arguments) : List String → Arguments
  | [] => a
  | word :: rest =>
    if word = "--" then { a with positional := a.positional ++ rest }
    else
      match settings? word.toList with
      | some settings => (a.addSettings settings).addWords rest
      | none => (a.addPositional word).addWords rest

def ofWords (words : List String) : Arguments := empty.addWords words

end Arguments

structure CommandLine where
  /-- Empty if the line names no command. -/
  command : String
  arguments : Arguments
deriving DecidableEq

namespace CommandLine

def isEmpty (l : CommandLine) : Bool := l.command.isEmpty

/-- The first positional word is the command, wherever the flags stand. -/
def ofArguments (a : Arguments) : CommandLine :=
  match a.positional with
  | [] => ⟨"", a⟩
  | command :: rest => ⟨command, { a with positional := rest }⟩

def parse (line : String) : CommandLine :=
  ofArguments (Arguments.ofWords (words (Text.trim line.toList)))

end CommandLine
end SessionShell
