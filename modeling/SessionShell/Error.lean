import SessionShell.Session.Id
import SessionShell.Session.LoopState

namespace SessionShell

inductive ShellError
  /-- No tier claims the command. -/
  | commandNotFound (name : String)
  /-- A module exists for the command but cannot be loaded. -/
  | loadFailure (name reason : String)
  | commandFailed (name reason : String)
  | duplicateId (id : SessionId)
  | sessionNotFound (id : SessionId)
  | childAlreadyLive (parent child : SessionId)
  | invalidId (text : String)
  | invalidStep (source target : LoopState)
  | input (reason : String)
deriving DecidableEq

def ShellError.message : ShellError → String
  | commandNotFound name => "invalid command `" ++ name ++ "`"
  | loadFailure name reason => "unhandled error while loading `" ++ name ++ "`: " ++ reason
  | commandFailed name reason => "command `" ++ name ++ "` failed: " ++ reason
  | duplicateId id => "duplicate session identifier: " ++ id.text
  | sessionNotFound id => "session not found: " ++ id.text
  | childAlreadyLive parent child =>
    "session " ++ parent.text ++ " already has a live child " ++ child.text
  | invalidId text => "invalid session identifier: " ++ text
  | invalidStep source target =>
    "invalid state transition from " ++ source.name ++ " to " ++ target.name
  | input reason => "I/O error: " ++ reason

def LoopState.step (s target : LoopState) : Except ShellError LoopState :=
  if s.canStep target then .ok target else .error (.invalidStep s target)

def SessionId.ofText (s : String) : Except ShellError SessionId :=
  match ofText? s with
  | some id => .ok id
  | none => .error (.invalidId s)

end SessionShell
