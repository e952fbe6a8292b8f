import SessionShell.Run.Loop

namespace SessionShell

inductive Operation
  | create (parent : Option SessionId)
  | createChild (parent : SessionId)
  | teardown (id : SessionId)
  | openTop
  | spawnChild (parent : SessionId)
deriving DecidableEq

inductive Answer
  | session (s : Session)
  | ended (id : SessionId)
  | removed (b : Bool)
deriving DecidableEq

namespace Operation

private def created : Except ShellError Session × World → Outcome Answer × World
  | (.ok s, w) => (.ok (.session s), w)
  | (.error e, w) => (.failed e, w)

private def driven : Outcome SessionId × World → Outcome Answer × World
  | (.ok id, w) => (.ok (.ended id), w)
  | (.failed e, w) => (.failed e, w)
  | (.aborted, w) => (.aborted, w)

def performIn (shell : Shell) (w : World) : Operation → Outcome Answer × World
  | create parent => created (w.create shell parent)
  | createChild parent => created (w.createChild shell parent)
  | teardown id =>
    let (removed, w) := w.teardown id
    (.ok (.removed removed), w)
  | openTop => driven (w.openTop shell)
  | spawnChild parent => driven (w.spawnChild shell parent)

def perform (shell : Shell) (op : Operation) (script : List Entry) (onWrite : Nat → List Outside)
    (m : Manager) : Outcome Answer × World :=
  op.performIn shell (World.start m script onWrite)

end Operation
end SessionShell
