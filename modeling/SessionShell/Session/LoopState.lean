namespace SessionShell

inductive LoopState
  | prompting
  | reading
  | resolving
  | executing
  | terminating
deriving DecidableEq, Repr

namespace LoopState

def initial : LoopState := .prompting

instance : Inhabited LoopState := ⟨initial⟩

def all : List LoopState := [.prompting, .reading, .resolving, .executing, .terminating]

def name : LoopState → String
  | prompting => "Prompting"
  | reading => "Reading"
  | resolving => "Resolving"
  | executing => "Executing"
  | terminating => "Terminating"

def ofName? (s : String) : Option LoopState := all.find? (·.name = s)

def canStep : LoopState → LoopState → Bool
  | prompting, reading => true
  | reading, resolving => true
  | reading, terminating => true
  | resolving, prompting => true
  | resolving, executing => true
  | executing, prompting => true
  | executing, terminating => true
  | _, _ => false

def isTerminal (s : LoopState) : Bool := s = terminating

end LoopState
end SessionShell
