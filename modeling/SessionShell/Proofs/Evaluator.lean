import SessionShell.Proofs.Run.Quiet

/-!
The dialogue of sessions as a recursive evaluation. There is no registry and no loop state: a
session knows the others that there are, its prompt is a value of its own, and a child is evaluated
on what is left of the input before its parent goes on.
-/

namespace SessionShell

inductive Display
  | prompt (session : SessionId) (text : String)
  | line (text : String)
deriving DecidableEq

/-- What is still to be read and what has been displayed, the latest first, with the clock and the
identifiers to come. -/
structure Tape where
  ids : IdSource
  now : Instant
  unread : List Entry
  /-- How time passes while line `n` is written, counting from 1. -/
  onWrite : Nat → List Outside
  written : Nat
  shown : List Display

namespace Tape

def say (t : Tape) (line : String) : Tape :=
  { t with
    now := t.now.after (t.onWrite (t.written + 1))
    written := t.written + 1
    shown := .line line :: t.shown }

def sayAll (t : Tape) (lines : List String) : Tape := lines.foldl say t

/-- Shows a prompt and reads; after the last entry every read meets the end of input. -/
def ask (t : Tape) (session : SessionId) (prompt : String) : ReadOutcome × Tape :=
  let t := { t with shown := .prompt session prompt :: t.shown }
  match t.unread with
  | [] => (.endOfInput, t)
  | e :: rest => (e.outcome, { t with unread := rest, now := t.now.after e.before })

end Tape

/-- The sessions that there are, by their identifiers. Nothing looks at their prompts. -/
abbrev Known := SessionId → Option Session

/-- The sessions that there are once a new one is, linked from its parent. -/
def Known.link (known : Known) (c : Session) : Known := fun id =>
  if c.id = id then some c
  else if c.parent = some id then (known id).map ({ · with child := some c.id })
  else known id

/-- What a line makes a session do. -/
inductive Deed
  | say (lines : List String)
  | leave
  | prompt (text : String)
  | shell

namespace Deed

def ofInfo (known : Known) (own : SessionId) (a : Arguments) : List String :=
  let describe (id : SessionId) : List String :=
    ((known id).map Session.describe).getD ["session " ++ id.text ++ " not found"]
  match a.positional with
  | [] => describe own
  | text :: _ =>
    match SessionId.ofText text with
    | .ok id => describe id
    | .error e => [Builtin.info.name ++ ": " ++ e.message]

def ofBuiltin (shell : Shell) (known : Known) (own : SessionId) (a : Arguments) : Builtin → Deed
  | .help => .say Builtin.helpLines
  | .exit => .leave
  | .getCommand => .say (getCommandLines shell a)
  | .hi => .say ["hi"]
  | .shell => .shell
  | .info => .say (ofInfo known own a)
  | .prompt => .prompt (newPrompt shell a)

/-- What is written about a module that failed. -/
def failureLine (name : String) : ModuleError → String
  | .failed reason => "command `" ++ name ++ "` failed: " ++ reason
  | .invalidArguments reason =>
    "command `" ++ name ++ "` failed: " ++ ("invalid arguments: " ++ reason)

/-- A module writes its lines, and then why it failed if it did. -/
def ofModule (name : String) (output : ModuleOutput) : Deed :=
  .say (output.lines ++ (output.failure.map (failureLine name)).toList)

/-- A line without a command does nothing. -/
def ofLine (shell : Shell) (known : Known) (own : SessionId) (now : Instant) (line : String) :
    Deed :=
  let l := CommandLine.parse line
  if l.command.isEmpty then .say []
  else
    match shell.resolver.resolve l.command with
    | .error reason => .say ["unhandled error while loading `" ++ l.command ++ "`: " ++ reason]
    | .ok .unresolved => .say ["invalid command `" ++ l.command ++ "`"]
    | .ok (.builtin b) => ofBuiltin shell known own l.arguments b
    | .ok (.core m) => ofModule l.command (m.run now l.arguments)
    | .ok (.external m) => ofModule l.command (m.run now l.arguments)

end Deed

namespace Tape

/-- Tells that a session has started. -/
def announce (t : Tape) (s : Session) : Tape :=
  t.sayAll (["*****", "Shell (" ++ s.id.text ++ ") started on " ++ s.started.text] ++
    (if s.parent = none then ["This is the top-most shell"] else []) ++ ["*****"])

/-- Tells that a session has ended, and which one goes on. -/
def dismiss (t : Tape) (s : Session) : Tape :=
  t.sayAll ["*****", "Shell (" ++ s.id.text ++ ") exiting...",
    s.parent.elim "This was the top-most shell" fun parent =>
      "Returning to parent shell (" ++ parent.text ++ ")", "*****"]

/-- What is left when a session has been evaluated: one that is given up goes without a notice. -/
def close (s : Session) : Outcome Unit × Tape → Outcome SessionId × Tape
  | (.ok _, t) => (.ok s.id, t.dismiss s)
  | (.failed e, t) => (.failed e, t.dismiss s)
  | (.aborted, t) => (.aborted, t)

/-- Creates a session under a free identifier and evaluates it between its notices. -/
def session (shell : Shell) (evaluate : Known → SessionId → Tape → Outcome Unit × Tape)
    (known : Known) (parent : Option SessionId) (t : Tape) : Outcome SessionId × Tape :=
  match IdSource.firstFree (fun id => (known id).isSome) t.now (World.maxCandidates - 1) t.ids with
  | (.error id, ids) => (.failed (.duplicateId id), { t with ids })
  | (.ok id, ids) =>
    let s := shell.newborn id t.now parent
    close s (evaluate (known.link s) id ({ t with ids }.announce s))

/-- What comes of a session with the given prompt. -/
abbrev Evaluation := Known → SessionId → (prompt : String) → Tape → Outcome Unit × Tape

/-- Does what a line says, and goes on with the rest of the input if the session stays. A child
begins with the prompt of new sessions; one that is given up takes its parent with it. -/
def follow (shell : Shell) (rest : Evaluation) (known : Known) (own : SessionId) (prompt : String)
    (t : Tape) : Deed → Outcome Unit × Tape
  | .say lines => rest known own prompt (t.sayAll lines)
  | .leave => (.ok (), t)
  | .prompt text => rest known own text t
  | .shell =>
    match t.session shell (fun known c => rest known c shell.prompt) known (some own) with
    | (.ok _, t) => rest known own prompt t
    | (.failed e, t) => rest known own prompt (t.say e.message)
    | (.aborted, t) => (.aborted, t)

def round (shell : Shell) (rest : Evaluation) : Evaluation := fun known own prompt t =>
  match t.ask own prompt with
  | (.line text, t) =>
    t.follow shell rest known own prompt (Deed.ofLine shell known own t.now text)
  | (.endOfInput, t) => (.ok (), t)
  | (.failed reason, t) => (.failed (.input reason), t)
  | (.aborted, t) => (.aborted, t)

/-- Evaluates a session on `n` unread entries at most, behind which is the end of input. -/
def evaluateUpTo (shell : Shell) : Nat → Evaluation
  | 0 => fun _ own prompt t => (.ok (), (t.ask own prompt).2)
  | n + 1 => round shell (evaluateUpTo shell n)

def evaluate (shell : Shell) : Evaluation := fun known own prompt t =>
  evaluateUpTo shell t.unread.length known own prompt t

def openTop (shell : Shell) (known : Known) (t : Tape) : Outcome SessionId × Tape :=
  t.session shell (fun known own => evaluate shell known own shell.prompt) known none

section

variable {shell : Shell} {known : Known} {own : SessionId} {prompt : String} {t : Tape}
  {parent : Option SessionId} {n : Nat} {rest rest' : Evaluation}

@[simp] theorem unread_sayAll (t : Tape) (lines : List String) :
    (t.sayAll lines).unread = t.unread := by
  induction lines generalizing t with
  | nil => rfl
  | cons line lines ih => exact ih (t.say line)

theorem unread_announce (t : Tape) (s : Session) : (t.announce s).unread = t.unread :=
  unread_sayAll t _

theorem unread_ask (t : Tape) (own : SessionId) (prompt : String) :
    (t.ask own prompt).2.unread = t.unread.tail := by
  unfold ask
  cases t.unread <;> rfl

theorem ask_of_nil (h : t.unread = []) (own : SessionId) (prompt : String) :
    t.ask own prompt = (.endOfInput, (t.ask own prompt).2) := by simp [ask, h]

theorem unread_of_ask_line {text : String} {t' : Tape} (h : t.ask own prompt = (.line text, t')) :
    t'.unread.length < t.unread.length := by
  have hunread : t'.unread = t.unread.tail := by rw [← unread_ask t own prompt, h]
  have hne : t.unread ≠ [] := by
    intro hnil
    rw [ask_of_nil hnil] at h
    cases h
  have hpos : 0 < t.unread.length := List.length_pos_iff.2 hne
  rw [hunread, List.length_tail]
  omega

theorem unread_close (s : Session) (result : Outcome Unit × Tape) :
    (close s result).2.unread = result.2.unread := by
  rcases result with ⟨_ | _ | _, t⟩
  · exact unread_sayAll t _
  · exact unread_sayAll t _
  · rfl

theorem unread_session_le {ev : Known → SessionId → Tape → Outcome Unit × Tape}
    (h : ∀ known own t, (ev known own t).2.unread.length ≤ t.unread.length) (shell : Shell)
    (known : Known) (parent : Option SessionId) (t : Tape) :
    (t.session shell ev known parent).2.unread.length ≤ t.unread.length := by
  unfold session
  split
  · exact Nat.le_refl _
  · rw [unread_close]
    apply (h _ _ _).trans
    rw [unread_announce]

theorem session_congr {ev ev' : Known → SessionId → Tape → Outcome Unit × Tape}
    (h : ∀ known own t', t'.unread.length ≤ t.unread.length → ev known own t' = ev' known own t')
    (shell : Shell) (known : Known) (parent : Option SessionId) :
    t.session shell ev known parent = t.session shell ev' known parent := by
  unfold session
  split
  · rfl
  · exact congrArg (close _) (h _ _ _ (by rw [unread_announce]))

/-- Whether an evaluation puts nothing back into the input. -/
def Consumes (rest : Evaluation) : Prop :=
  ∀ known own prompt t, (rest known own prompt t).2.unread.length ≤ t.unread.length

theorem Consumes.follow (h : Consumes rest) (shell : Shell) (known : Known) (own : SessionId)
    (prompt : String) (t : Tape) (d : Deed) :
    (t.follow shell rest known own prompt d).2.unread.length ≤ t.unread.length := by
  cases d with
  | say lines => exact (h ..).trans (by rw [unread_sayAll])
  | leave => exact Nat.le_refl _
  | prompt text => exact h ..
  | shell =>
    have hc := unread_session_le (fun known c t => h known c shell.prompt t) shell known
      (some own) t
    unfold Tape.follow
    dsimp only
    split <;> rename_i hs <;> rw [hs] at hc
    · exact (h ..).trans hc
    · exact (h ..).trans hc
    · exact hc

theorem Consumes.round (h : Consumes rest) (shell : Shell) : Consumes (round shell rest) := by
  intro known own prompt t
  have hask := unread_ask t own prompt
  have htail : t.unread.tail.length ≤ t.unread.length := by
    rw [List.length_tail]
    omega
  unfold Tape.round
  rcases ha : t.ask own prompt with ⟨text | _ | _ | _, t'⟩ <;> rw [ha] at hask <;>
    dsimp only at hask ⊢
  · exact (h.follow ..).trans (hask ▸ htail)
  · exact hask ▸ htail
  · exact hask ▸ htail
  · exact hask ▸ htail

theorem consumes_evaluateUpTo (shell : Shell) (n : Nat) : Consumes (evaluateUpTo shell n) := by
  induction n with
  | zero =>
    intro known own prompt t
    show (t.ask own prompt).2.unread.length ≤ _
    rw [unread_ask, List.length_tail]
    omega
  | succ n ih => exact ih.round shell

theorem consumes_evaluate (shell : Shell) : Consumes (evaluate shell) :=
  fun _ _ _ _ => consumes_evaluateUpTo shell _ _ _ _ _

theorem follow_congr (hconsumes : Consumes rest')
    (h : ∀ known own prompt t', t'.unread.length ≤ t.unread.length →
      rest known own prompt t' = rest' known own prompt t') (d : Deed) :
    t.follow shell rest known own prompt d = t.follow shell rest' known own prompt d := by
  cases d with
  | say lines => exact h _ _ _ _ (by rw [unread_sayAll])
  | leave => rfl
  | prompt text => exact h _ _ _ _ (Nat.le_refl _)
  | shell =>
    -- what the child leaves is within the bound for the parent, too
    have hc := unread_session_le (fun known c t => hconsumes known c shell.prompt t) shell known
      (some own) t
    unfold follow
    dsimp only
    rw [session_congr fun known c => h known c shell.prompt]
    split <;> rename_i hs <;> rw [hs] at hc
    · exact h _ _ _ _ hc
    · exact h _ _ _ _ hc

theorem round_congr (hconsumes : Consumes rest')
    (h : ∀ known own prompt t', t'.unread.length < t.unread.length →
      rest known own prompt t' = rest' known own prompt t') :
    round shell rest known own prompt t = round shell rest' known own prompt t := by
  unfold round
  rcases ha : t.ask own prompt with ⟨text | _ | _ | _, t'⟩
  · have hlt := unread_of_ask_line ha
    exact follow_congr hconsumes (fun known own prompt t'' ht => h _ _ _ _ (ht.trans_lt hlt)) _
  · rfl
  · rfl
  · rfl

theorem evaluateUpTo_succ (h : t.unread.length ≤ n) :
    evaluateUpTo shell n known own prompt t = evaluateUpTo shell (n + 1) known own prompt t := by
  induction n generalizing known own prompt t with
  | zero =>
    have hnil : t.unread = [] := List.length_eq_zero_iff.1 (Nat.le_zero.1 h)
    show (.ok (), (t.ask own prompt).2) = round shell (evaluateUpTo shell 0) known own prompt t
    unfold round
    rw [ask_of_nil hnil]
  | succ n ih =>
    exact round_congr (consumes_evaluateUpTo shell (n + 1)) fun known own prompt t' ht =>
      ih (by omega)

theorem evaluateUpTo_eq (h : t.unread.length ≤ n) :
    evaluateUpTo shell n known own prompt t = evaluate shell known own prompt t := by
  induction n, h using Nat.le_induction with
  | base => rfl
  | succ n hn ih => rw [← evaluateUpTo_succ hn, ih]

theorem evaluate_eq (shell : Shell) (known : Known) (own : SessionId) (prompt : String) (t : Tape) :
    evaluate shell known own prompt t = round shell (evaluate shell) known own prompt t := by
  rw [← evaluateUpTo_eq (Nat.le_succ t.unread.length)]
  exact round_congr (consumes_evaluate shell) fun known own prompt t' ht =>
    evaluateUpTo_eq (Nat.le_of_lt ht)

end

end Tape
end SessionShell
