import SessionShell.CommandLine
import SessionShell.Command.Template
import SessionShell.Session.Instant

namespace SessionShell

inductive ModuleError
  | invalidArguments (reason : String)
  | failed (reason : String)
deriving DecidableEq, Repr

def ModuleError.message : ModuleError → String
  | invalidArguments reason => "invalid arguments: " ++ reason
  | failed reason => reason

structure ModuleOutput where
  lines : List String
  failure : Option ModuleError
deriving DecidableEq, Repr

/-- What a module does is given by the time and its arguments alone: one that keeps a state of its
own between two commands is left out. -/
structure Module where
  description : String
  run : (now : Instant) → Arguments → ModuleOutput

namespace Module

def echo : Module where
  description := "print the arguments"
  run _ a := ⟨[" ".intercalate a.positional], none⟩

/-- Writes the time, and takes no argument. -/
def date : Module where
  description := "print the current date and time"
  run now a :=
    match a.positional with
    | [] => ⟨[now.text], none⟩
    | extra :: _ => ⟨[], some (.invalidArguments ("unexpected argument '" ++ extra ++ "'"))⟩

/-- Writes every line of a template with the arguments put in. -/
def template (description : String) (lines : List String) : Module where
  description := description
  run _ a := ⟨lines.map fun line => Template.expandText line a.positional, none⟩

/-- Writes the same lines whatever its arguments, and then ends in the given way. -/
def fixed (description : String) (output : ModuleOutput) : Module where
  description := description
  run _ _ := output

end Module
end SessionShell
