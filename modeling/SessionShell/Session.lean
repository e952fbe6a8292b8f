import SessionShell.Error

namespace SessionShell

def defaultPrompt : String := ">> "

structure Session where
  id : SessionId
  started : Instant
  prompt : String
  parent : Option SessionId
  child : Option SessionId
deriving DecidableEq

namespace Session

def isTopMost (s : Session) : Bool := s.parent.isNone

/-- What a change of a record sets; nothing where it is left as it is. -/
structure Change where
  prompt : Option String := none
  parent : Option (Option SessionId) := none
  child : Option (Option SessionId) := none
deriving DecidableEq

def change (s : Session) (c : Change) : Session :=
  { s with
    prompt := c.prompt.getD s.prompt
    parent := c.parent.getD s.parent
    child := c.child.getD s.child }

theorem id_change (c : Change) (s : Session) : (s.change c).id = s.id := rfl

end Session
end SessionShell
