import SessionShell.Keyed
import SessionShell.Session

namespace SessionShell

abbrev Registry := Keyed Session.id

namespace Registry

/-- Adds a session, unless its identifier is taken. -/
def register (r : Registry) (s : Session) : Except ShellError Registry :=
  if r.contains s.id then .error (.duplicateId s.id) else .ok (r.insert s)

def change (r : Registry) (id : SessionId) (c : Session.Change) : Registry :=
  r.modify id (·.change c) (Session.id_change c)

/-- Changes a record and returns it as it then is. -/
def update (r : Registry) (id : SessionId) (c : Session.Change) :
    Except ShellError (Session × Registry) :=
  match r.find? id with
  | some s => .ok (s.change c, r.change id c)
  | none => .error (.sessionNotFound id)

/-- Clears a child link if it leads from `parent` to `child`. -/
def unlink (r : Registry) (parent child : SessionId) : Registry :=
  if (r.find? parent).bind Session.child = some child then r.change parent { child := some none }
  else r

/-- Removes a session and clears the link that leads to it from its parent. -/
def withdraw (r : Registry) (s : Session) : Registry :=
  let rest : Registry := r.erase s.id
  s.parent.elim rest fun parent => rest.unlink parent s.id

/-- The sessions that child links lead to, from `id` on, up to `n` of them. -/
def descent (r : Registry) : Nat → SessionId → List Session
  | 0, _ => []
  | n + 1, id =>
    match r.find? id with
    | none => []
    | some s => s :: (s.child.elim [] (r.descent n))

/-- A session and those below it. Where links form no cycle, the size of the registry bounds their
number. -/
def lineage (r : Registry) (id : SessionId) : List Session := r.descent r.size id

end Registry
end SessionShell
