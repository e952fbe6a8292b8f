import SessionShell.Session

namespace SessionShell.Session

def rule : String := "*****"

def birthNotice (s : Session) : List String :=
  [rule, "Shell (" ++ s.id.text ++ ") started on " ++ s.started.text] ++
    (if s.isTopMost then ["This is the top-most shell"] else []) ++ [rule]

theorem birthNotice_eq (s : Session) :
    s.birthNotice = ["*****", "Shell (" ++ s.id.text ++ ") started on " ++ s.started.text] ++
      (if s.parent = none then ["This is the top-most shell"] else []) ++ ["*****"] := by
  unfold birthNotice isTopMost
  cases s.parent <;> rfl

def deathNotice (s : Session) : List String :=
  let whither := match s.parent with
    | some parent => "Returning to parent shell (" ++ parent.text ++ ")"
    | none => "This was the top-most shell"
  [rule, "Shell (" ++ s.id.text ++ ") exiting...", whither, rule]

theorem deathNotice_eq (s : Session) :
    s.deathNotice = ["*****", "Shell (" ++ s.id.text ++ ") exiting...",
      s.parent.elim "This was the top-most shell" fun parent =>
        "Returning to parent shell (" ++ parent.text ++ ")", "*****"] := by
  unfold deathNotice
  cases s.parent <;> rfl

def linkText (link : Option SessionId) : String := link.elim "none" SessionId.text

def describe (s : Session) : List String :=
  ["id:      " ++ s.id.text,
   "started: " ++ s.started.text,
   "parent:  " ++ linkText s.parent,
   "child:   " ++ linkText s.child]

end SessionShell.Session
