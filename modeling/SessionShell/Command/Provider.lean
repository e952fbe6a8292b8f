import SessionShell.Command.Manifest
import SessionShell.Files

namespace SessionShell

inductive LoadError
  | absent
  | failed (reason : String)
deriving DecidableEq, Repr

def LoadError.message : LoadError → String
  | absent => "module not found"
  | failed reason => reason

/-- What is answered for each name. It is the same throughout a run: providers that change their
answer between two commands are left out. -/
structure Provider where
  load : String → Except LoadError Module

/-- A module by name, or the reason why it does not come up. -/
abbrev CatalogEntry := String × Except String Module

/-- Modules in ascending order of their names. -/
abbrev Catalog := Keyed (Prod.fst : CatalogEntry → String)

namespace Catalog

def add (c : Catalog) (name : String) (module : Except String Module) : Catalog :=
  c.insert (name, module)

def builtin : Catalog := (∅ : Catalog).insert ("echo", .ok .echo) |>.insert ("date", .ok .date)

def load (c : Catalog) (name : String) : Except LoadError Module :=
  match c.find? name with
  | none => .error .absent
  | some (_, .ok m) => .ok m
  | some (_, .error reason) => .error (.failed reason)

def provider (c : Catalog) : Provider := ⟨c.load⟩

end Catalog

structure ManifestDirectory where
  dir : String
deriving DecidableEq

namespace ManifestDirectory

/-- Whether a name can be the name of a manifest: it is not hidden and leads to no other directory.
-/
def isPlain (name : String) : Bool :=
  !name.isEmpty && name.toList.head? ≠ some '.' &&
    !name.toList.any fun c => c = '/' || c = '\\' || c = '\x00'

def path (d : ManifestDirectory) (name : String) : String := Files.join d.dir (name ++ ".json")

def load (files : Files) (d : ManifestDirectory) (name : String) : Except LoadError Module :=
  if !isPlain name then .error .absent
  else
    match files.readText (d.path name) with
    | .error .notFound => .error .absent
    | .error e => .error (.failed ("cannot read " ++ d.path name ++ ": " ++ e.message))
    | .ok text =>
      match Manifest.parse text with
      | .ok m => .ok m.toModule
      | .error reason => .error (.failed ("malformed manifest " ++ d.path name ++ ": " ++ reason))

def provider (files : Files) (d : ManifestDirectory) : Provider := ⟨d.load files⟩

end ManifestDirectory

def loadFirst : List Provider → String → Except LoadError Module
  | [], _ => .error .absent
  | p :: ps, name =>
    match p.load name with
    | .error .absent => loadFirst ps name
    | answer => answer

end SessionShell
