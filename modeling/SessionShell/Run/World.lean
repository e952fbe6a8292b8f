import SessionShell.Run.Request
import SessionShell.Session.Notice

namespace SessionShell

/-- The state that outlives an operation. -/
structure Manager where
  registry : Registry
  ids : IdSource
  now : Instant
deriving DecidableEq

def Manager.start (now : Instant) : Manager := ⟨∅, .initial, now⟩

/-- A step of another party. -/
inductive Outside
  | clock (t : Instant)
  | request (q : Request)
deriving DecidableEq

inductive ReadOutcome
  | line (text : String)
  | endOfInput
  | failed (reason : String)
  /-- The reader gives up, and with it all sessions that wait for it. -/
  | aborted
deriving DecidableEq

/-- What one read meets: the steps of other parties before it, and its outcome. -/
structure Entry where
  before : List Outside := []
  outcome : ReadOutcome
deriving DecidableEq

inductive Event
  /-- A session shows its prompt and reads; with the registry of that moment. -/
  | prompt (session : SessionId) (text : String) (registry : Registry)
  /-- What the session reads then. -/
  | input (session : SessionId) (outcome : ReadOutcome)
  | write (line : String)
  /-- Another party is answered. -/
  | reply (q : Request) (r : Reply)
  | created (s : Session)
  /-- A session is removed; with the registry from which it is. -/
  | removed (s : Session) (registry : Registry)
deriving DecidableEq

structure World extends Manager where
  /-- The reads to come; after them every read meets the end of input. -/
  script : List Entry
  /-- What other parties do while line `n` is written, counting from 1. -/
  onWrite : Nat → List Outside
  written : Nat
  /-- What happened, the latest first. -/
  log : List Event

namespace World

def start (m : Manager) (script : List Entry) (onWrite : Nat → List Outside) : World :=
  { m with script, onWrite, written := 0, log := [] }

def events (w : World) : List Event := w.log.reverse

def record (w : World) (e : Event) : World := { w with log := e :: w.log }

def setRegistry (w : World) (r : Registry) : World := { w with registry := r }

def outside (w : World) : Outside → World
  | .clock t => { w with now := t }
  | .request q =>
    let (r, registry) := q.answer w.registry
    (w.setRegistry registry).record (.reply q r)

def write (w : World) (line : String) : World :=
  let w := { w.record (.write line) with written := w.written + 1 }
  (w.onWrite w.written).foldl outside w

def writeAll (w : World) (lines : List String) : World := lines.foldl write w

/-- Shows the prompt of a session and reads a line for it. -/
def read (w : World) (session : SessionId) (prompt : String) : ReadOutcome × World :=
  let w := w.record (.prompt session prompt w.registry)
  let (outcome, w) : ReadOutcome × World := match w.script with
    | [] => (.endOfInput, w)
    | e :: rest => (e.outcome, e.before.foldl outside { w with script := rest })
  (outcome, w.record (.input session outcome))

end World
end SessionShell
