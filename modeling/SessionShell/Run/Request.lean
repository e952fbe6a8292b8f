import SessionShell.Session.Registry

namespace SessionShell

inductive Request
  | register (s : Session)
  | deregister (id : SessionId)
  | lookup (id : SessionId)
  | contains (id : SessionId)
  | count
  | list
  | update (id : SessionId) (c : Session.Change)
  /-- A request that names a session by a text which is no identifier. -/
  | misnamed (text : String)
  /-- A request that cannot be understood for want of a part. -/
  | malformed (missing : String)
deriving DecidableEq

inductive Reply
  | done
  | session (s : Option Session)
  | truth (b : Bool)
  | count (n : Nat)
  | ids (ids : List SessionId)
  | prompt (p : String)
  | refused (e : ShellError)
  | malformed (missing : String)
deriving DecidableEq

def Request.answer (r : Registry) : Request → Reply × Registry
  | register s =>
    match r.register s with
    | .ok r => (.done, r)
    | .error e => (.refused e, r)
  | deregister id => (.session (r.find? id), r.erase id)
  | lookup id => (.session (r.find? id), r)
  | contains id => (.truth (r.contains id), r)
  | count => (.count r.size, r)
  | list => (.ids r.keys, r)
  | update id c =>
    match r.update id c with
    | .ok (s, r) => (.prompt s.prompt, r)
    | .error e => (.refused e, r)
  | misnamed text => (.refused (.invalidId text), r)
  | malformed missing => (.malformed missing, r)

end SessionShell
