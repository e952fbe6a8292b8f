import SessionShell.Run.Lifecycle

/-!
The loop of a session: show the prompt, read a line, resolve its command, execute it. A failing
command is reported and the loop goes on; only a failing read ends it with an error. The command
`shell` runs the loop of a child on the same world before the next prompt.
-/

namespace SessionShell

inductive Outcome (α : Type)
  | ok (a : α)
  | failed (e : ShellError)
  /-- Given up without any notice. -/
  | aborted

/-- Runs a child of the given session until it ends. -/
abbrev Spawn := SessionId → World → Outcome SessionId × World

/-- Whether a command ends the session that it runs in. -/
inductive Flow
  | stay
  | leave
deriving DecidableEq

def resolutionReport (shell : Shell) (name : String) : String :=
  match shell.resolver.resolve name with
  | .ok r => name ++ ": " ++ r.kind.label
  | .error reason => name ++ ": load error (" ++ reason ++ ")"

def getCommandLines (shell : Shell) (a : Arguments) : List String :=
  if a.positional.isEmpty then ["get-command: expected at least one command name"]
  else a.positional.map (resolutionReport shell)

/-- The lines about the session that the first argument names, or about `own`. -/
def infoLines (registry : Registry) (own : SessionId) (a : Arguments) : List String :=
  let describe (id : SessionId) : List String :=
    match registry.find? id with
    | some s => s.describe
    | none => ["session " ++ id.text ++ " not found"]
  match a.positional with
  | [] => describe own
  | text :: _ =>
    match SessionId.ofText text with
    | .ok id => describe id
    | .error e => [Builtin.info.name ++ ": " ++ e.message]

/-- The prompt made of the arguments: the default one of none, else they end in a blank. -/
def newPrompt (shell : Shell) (a : Arguments) : String :=
  let text := " ".intercalate a.positional
  if text.isEmpty then shell.prompt
  else if text.toList.getLast?.any Text.isBlank then text
  else text ++ " "

def runBuiltin (shell : Shell) (spawn : Spawn) (own : SessionId) (a : Arguments) (w : World) :
    Builtin → Outcome Flow × World
  | .help => (.ok .stay, w.writeAll Builtin.helpLines)
  | .exit => (.ok .leave, w)
  | .getCommand => (.ok .stay, w.writeAll (getCommandLines shell a))
  | .hi => (.ok .stay, w.write "hi")
  | .shell =>
    match spawn own w with
    | (.ok _, w) => (.ok .stay, w)
    | (.failed e, w) => (.failed e, w)
    | (.aborted, w) => (.aborted, w)
  | .info => (.ok .stay, w.writeAll (infoLines w.registry own a))
  | .prompt =>
    match w.registry.update own { prompt := some (newPrompt shell a) } with
    | .ok (_, registry) => (.ok .stay, w.setRegistry registry)
    | .error e => (.failed e, w)

def runModule (name : String) (m : Module) (a : Arguments) (w : World) : Outcome Flow × World :=
  let output := m.run w.now a
  let w := w.writeAll output.lines
  match output.failure with
  | none => (.ok .stay, w)
  | some e => (.failed (.commandFailed name e.message), w)

structure Command where
  name : String
  handler : Handler
  arguments : Arguments

/-- Executes a command and reports its failure, which does not end the session. -/
def Command.execute (shell : Shell) (spawn : Spawn) (own : SessionId) (c : Command) (w : World) :
    Outcome Flow × World :=
  let result := match c.handler with
    | .builtin b => runBuiltin shell spawn own c.arguments w b
    | .module m => runModule c.name m c.arguments w
  match result with
  | (.failed e, w) => (.ok .stay, w.write e.message)
  | result => result

structure Loop where
  state : LoopState := .initial
  prompt : String := ""
  line : String := ""
  pending : Option Command := none

namespace Loop

/-- Resolves the command of a line: what is to be executed, or the line to write about it, if any.
-/
def lookUp (shell : Shell) (line : String) : Except (Option String) Command :=
  let l := CommandLine.parse line
  if l.isEmpty then .error none
  else
    match shell.resolver.resolve l.command with
    | .error reason => .error (some (ShellError.loadFailure l.command reason).message)
    | .ok r =>
      match r.handler? with
      | some h => .ok ⟨l.command, h, l.arguments⟩
      | none => .error (some (ShellError.commandNotFound l.command).message)

/-- The prompt of a session; one that is no longer registered shows that of new sessions. -/
def currentPrompt (shell : Shell) (own : SessionId) (registry : Registry) : String :=
  ((registry.find? own).map Session.prompt).getD shell.prompt

/-- What the loop does in its state, and the state that it is to be in then; nothing once it has
ended. -/
def turn (shell : Shell) (spawn : Spawn) (own : SessionId) (l : Loop) (w : World) :
    Outcome (Option (LoopState × Loop)) × World :=
  match l.state with
  | .prompting => (.ok (some (.reading, { l with prompt := currentPrompt shell own w.registry })), w)
  | .reading =>
    match w.read own l.prompt with
    | (.line text, w) => (.ok (some (.resolving, { l with line := text })), w)
    | (.endOfInput, w) => (.ok (some (.terminating, l)), w)
    | (.failed reason, w) => (.failed (.input reason), w)
    | (.aborted, w) => (.aborted, w)
  | .resolving =>
    match lookUp shell l.line with
    | .ok c => (.ok (some (.executing, { l with pending := some c })), w)
    | .error message => (.ok (some (.prompting, l)), w.writeAll message.toList)
  | .executing =>
    match l.pending with
    | none => (.ok (some (.prompting, l)), w)
    | some c =>
      let l := { l with pending := none }
      match c.execute shell spawn own w with
      | (.ok .stay, w) => (.ok (some (.prompting, l)), w)
      | (.ok .leave, w) => (.ok (some (.terminating, l)), w)
      | (.failed e, w) => (.failed e, w)
      | (.aborted, w) => (.aborted, w)
  | .terminating => (.ok none, w)

end Loop

namespace World

/-- Drives a registered session by `run`. However the run ends, the session is gone then; one that
is given up leaves without a notice. -/
def drive (run : SessionId → World → Outcome Unit × World) (id : SessionId) (w : World) :
    Outcome SessionId × World :=
  match run id w with
  | (.ok _, w) => (.ok id, (w.teardown id).2)
  | (.failed e, w) => (.failed e, (w.teardown id).2)
  | (.aborted, w) => (.aborted, w.retire id)

def openBy (shell : Shell) (run : SessionId → World → Outcome Unit × World) (w : World) :
    Outcome SessionId × World :=
  match w.create shell none with
  | (.error e, w) => (.failed e, w)
  | (.ok s, w) => w.drive run s.id

def spawnBy (shell : Shell) (run : SessionId → World → Outcome Unit × World) : Spawn :=
  fun parent w =>
  match w.createChild shell parent with
  | (.error e, w) => (.failed e, w)
  | (.ok s, w) => w.drive run s.id

/-- Runs a loop for `n` turns at most, its children for as many as are left; one that needs more is
given up. -/
def loop (shell : Shell) : (n : Nat) → SessionId → Loop → World → Outcome Unit × World
  | 0, _, _, w => (.aborted, w)
  | n + 1, own, l, w =>
    match l.turn shell (spawnBy shell fun id => loop shell n id {}) own w with
    | (.ok none, w) => (.ok (), w)
    | (.ok (some (next, l)), w) =>
      match l.state.step next with
      | .ok state => loop shell n own { l with state } w
      | .error e => (.failed e, w)
    | (.failed e, w) => (.failed e, w)
    | (.aborted, w) => (.aborted, w)

/-- Turns that suffice for a session: four for every line, and three more to meet the end of input.
-/
def turns (w : World) : Nat := 4 * w.script.length + 3

def run (shell : Shell) (id : SessionId) (w : World) : Outcome Unit × World :=
  loop shell w.turns id {} w

def openTop (shell : Shell) (w : World) : Outcome SessionId × World := openBy shell (run shell) w

def spawnChild (shell : Shell) (parent : SessionId) (w : World) : Outcome SessionId × World :=
  spawnBy shell (run shell) parent w

end World
end SessionShell
