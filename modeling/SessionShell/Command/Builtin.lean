namespace SessionShell

inductive Builtin
  | help
  | exit
  | getCommand
  | hi
  | shell
  | info
  | prompt
deriving DecidableEq, Repr

namespace Builtin

def all : List Builtin := [.help, .exit, .getCommand, .hi, .shell, .info, .prompt]

def name : Builtin → String
  | help => "help"
  | exit => "exit"
  | getCommand => "get-command"
  | hi => "hi"
  | shell => "shell"
  | info => "info"
  | prompt => "prompt"

def description : Builtin → String
  | help => "list the built-in commands"
  | exit => "leave this shell"
  | getCommand => "show how each given name resolves"
  | hi => "say hi"
  | shell => "start a child shell"
  | info => "show this shell's attributes, or another's by id"
  | prompt => "set the prompt; no argument restores the default"

def ofName? (s : String) : Option Builtin := all.find? (·.name = s)

def paddedName (b : Builtin) : String :=
  b.name ++ String.ofList (List.replicate (12 - b.name.length) ' ')

def helpLines : List String :=
  (all.zipIdx 1).map fun (b, i) => Nat.repr i ++ ". " ++ b.paddedName ++ " " ++ b.description

end Builtin
end SessionShell
