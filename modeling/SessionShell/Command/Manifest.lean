import SessionShell.Json.Record
import SessionShell.Command.Module

namespace SessionShell

structure Manifest where
  description : String
  lines : List String
deriving DecidableEq, Repr

namespace Manifest

def schema : Json.Schema Manifest where
  name := "Manifest"
  blank := ⟨"", []⟩
  fields := [
    { name := "description"
      read := fun m text => do
        let (s, rest) ← Json.string "a string" text
        return ({ m with description := s }, rest) },
    { name := "lines"
      required := true
      read := fun m text => do
        let (ls, rest) ← Json.list (Json.string "a string") text
        return ({ m with lines := ls }, rest) }]

def parse (text : String) : Except String Manifest := schema.parse text

def toModule (m : Manifest) : Module := .template m.description m.lines

end Manifest
end SessionShell
