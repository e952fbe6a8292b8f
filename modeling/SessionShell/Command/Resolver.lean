import SessionShell.Command.Builtin
import SessionShell.Command.Provider

namespace SessionShell

inductive CommandKind
  | internal
  | core
  | external
  | unresolved
deriving DecidableEq, Repr

def CommandKind.label : CommandKind → String
  | internal => "internal"
  | core => "core"
  | external => "external"
  | unresolved => "not found"

inductive Handler
  | builtin (b : Builtin)
  | module (m : Module)

/-- What a name resolves to, by tier. -/
inductive Resolution
  | builtin (b : Builtin)
  | core (m : Module)
  | external (m : Module)
  | unresolved

namespace Resolution

def kind : Resolution → CommandKind
  | builtin _ => .internal
  | core _ => .core
  | external _ => .external
  | unresolved => .unresolved

def handler? : Resolution → Option Handler
  | builtin b => some (.builtin b)
  | core m => some (.module m)
  | external m => some (.module m)
  | unresolved => none

end Resolution

structure Resolver where
  providers : List Provider
  external : String → Option Module := fun _ => none

namespace Resolver

def builtin : Resolver := { providers := [Catalog.builtin.provider] }

def asksProviders (name : String) : Bool := !name.isEmpty && (Builtin.ofName? name).isNone

/-- Resolves a name. The error is the reason why a module that exists cannot be loaded. -/
def resolve (r : Resolver) (name : String) : Except String Resolution :=
  if name.isEmpty then .ok .unresolved
  else
    match Builtin.ofName? name with
    | some b => .ok (.builtin b)
    | none =>
      match loadFirst r.providers name with
      | .ok m => .ok (.core m)
      | .error (.failed reason) => .error reason
      | .error .absent => .ok ((r.external name).elim .unresolved .external)

end Resolver
end SessionShell
