import SessionShell.Command.Resolver
import SessionShell.Run.World

namespace SessionShell

/-- How commands resolve, and the prompt of new sessions. -/
structure Shell where
  resolver : Resolver
  prompt : String := defaultPrompt

namespace Manager

/-- Registers a new session under the first free identifier of `spare + 1` candidates. -/
def enroll (shell : Shell) (started : Instant) (parent : Option SessionId) :
    (spare : Nat) → Manager → Except ShellError Session × Manager
  | spare, m =>
    let (id, ids) := m.ids.draw started
    let m := { m with ids }
    let s : Session := ⟨id, started, shell.prompt, parent, none⟩
    match m.registry.register s, spare with
    | .ok registry, _ => (.ok s, { m with registry })
    | .error e, 0 => (.error e, m)
    | .error _, spare + 1 => enroll shell started parent spare m

end Manager

/-- Makes `child` the live child of `parent`, unless the parent is gone or has another. -/
def Registry.link (r : Registry) (parent child : SessionId) : Except ShellError Registry :=
  match r.find? parent with
  | none => .error (.sessionNotFound parent)
  | some p =>
    match p.child with
    | some other => .error (.childAlreadyLive parent other)
    | none => .ok (r.change parent { child := some (some child) })

namespace World

/-- The identifiers tried for one session. -/
def maxCandidates : Nat := 8

def create (shell : Shell) (parent : Option SessionId) (w : World) :
    Except ShellError Session × World :=
  match w.toManager.enroll shell w.now parent (maxCandidates - 1) with
  | (.error e, m) => (.error e, { w with toManager := m })
  | (.ok s, m) => (.ok s, ({ w with toManager := m }.record (.created s)).writeAll s.birthNotice)

/-- Removes a session, if it is registered, as `f` says for its record. -/
def remove? (f : Registry → Session → Registry) (id : SessionId) (w : World) : Option World :=
  (w.registry.find? id).map fun s => (w.setRegistry (f w.registry s)).record (.removed s w.registry)

/-- Removes a session and the link to it. -/
def retire? (id : SessionId) (w : World) : Option World := w.remove? Registry.withdraw id

def retire (id : SessionId) (w : World) : World := (w.retire? id).getD w

/-- Removes a session to which no link was made. -/
def discard (id : SessionId) (w : World) : World := (w.remove? (fun r s => r.erase s.id) id).getD w

def createChild (shell : Shell) (parent : SessionId) (w : World) :
    Except ShellError Session × World :=
  match w.registry.find? parent with
  | none => (.error (.sessionNotFound parent), w)
  | some p =>
    match p.child with
    | some child => (.error (.childAlreadyLive parent child), w)
    | none =>
      match w.create shell (some parent) with
      | (.error e, w) => (.error e, w)
      | (.ok child, w) =>
        match w.registry.link parent child.id with
        | .ok registry => (.ok child, w.setRegistry registry)
        | .error e => (.error e, w.discard child.id)

/-- Removes sessions, each after those behind it in the list, and writes their death notices. The
answer says whether the first of them was still registered. -/
def teardownAll : List Session → World → Bool × World
  | [], w => (false, w)
  | s :: deeper, w =>
    let w := (teardownAll deeper w).2
    match w.retire? s.id with
    | none => (false, w)
    | some w => (true, w.writeAll s.deathNotice)

def teardown (id : SessionId) (w : World) : Bool × World := teardownAll (w.registry.lineage id) w

end World
end SessionShell
