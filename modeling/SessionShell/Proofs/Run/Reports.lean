import SessionShell.Proofs.CommandLine.Printer
import SessionShell.Proofs.Resolution
import SessionShell.Proofs.Run.Course
import SessionShell.Proofs.Run.Quiet

namespace SessionShell

namespace World

/-- The steps that other parties take while the next `n` lines are written. -/
def during (w : World) (n : Nat) : List Outside := (List.range' (w.written + 1) n).flatMap w.onWrite

/-- From one world to another nothing happens but that lines are written, while other parties take
their steps. -/
structure Wrote (w : World) (lines : List String) (w' : World) : Prop where
  lines_eq : w'.lines = w.lines ++ lines
  /-- Only other parties act on the registry. -/
  registry_eq : w'.registry = w.registry.after (w.during lines.length)
  ids_eq : w'.ids = w.ids
  script_eq : w'.script = w.script
  onWrite_eq : w'.onWrite = w.onWrite
  written_eq : w'.written = w.written + lines.length
  events : ∃ new, w'.log = new ++ w.log ∧ ∀ e ∈ new, e.isReply ∨ e.written?.isSome

theorem Wrote.refl (w : World) : w.Wrote [] w :=
  ⟨by simp, rfl, rfl, rfl, rfl, rfl, [], rfl, by simp⟩

theorem Wrote.trans {w w₁ w₂ : World} {lines lines₁ : List String} (h : w.Wrote lines w₁)
    (h₁ : w₁.Wrote lines₁ w₂) : w.Wrote (lines ++ lines₁) w₂ where
  lines_eq := by rw [h₁.lines_eq, h.lines_eq, List.append_assoc]
  registry_eq := by
    have hduring : w.during (lines ++ lines₁).length =
        w.during lines.length ++ w₁.during lines₁.length := by
      simp only [during, h.written_eq, h.onWrite_eq, List.length_append, ← List.flatMap_append]
      rw [Nat.add_right_comm, List.range'_append_1]
    rw [h₁.registry_eq, h.registry_eq, hduring]
    exact List.foldl_append.symm
  ids_eq := h₁.ids_eq.trans h.ids_eq
  script_eq := h₁.script_eq.trans h.script_eq
  onWrite_eq := h₁.onWrite_eq.trans h.onWrite_eq
  written_eq := by rw [h₁.written_eq, h.written_eq, List.length_append, Nat.add_assoc]
  events := by
    obtain ⟨new, hlog, hnew⟩ := h.events
    obtain ⟨new₁, hlog₁, hnew₁⟩ := h₁.events
    exact ⟨new₁ ++ new, by rw [hlog₁, hlog, List.append_assoc],
      List.forall_mem_append.2 ⟨hnew₁, hnew⟩⟩

theorem wrote_write (w : World) (line : String) : w.Wrote [line] (w.write line) := by
  obtain ⟨replies, hreplies, hwrite⟩ :=
    outsides_eq (w.onWrite (w.written + 1)) { w.record (.write line) with written := w.written + 1 }
  refine ⟨w.lines_write line, ?_, ?_, ?_, ?_, ?_, replies ++ [.write line], ?_, fun e he => ?_⟩
  case refine_7 =>
    rcases List.mem_append.1 he with he | he
    · exact .inl (hreplies e he)
    · rw [List.mem_singleton.1 he]
      exact .inr rfl
  all_goals rw [write_eq, hwrite]
  · simp [during, record]
  · rfl
  · rfl
  · rfl
  · rfl
  · simp [record]

theorem wrote_writeAll (w : World) (lines : List String) : w.Wrote lines (w.writeAll lines) := by
  induction lines generalizing w with
  | nil => exact .refl w
  | cons line lines ih => exact (w.wrote_write line).trans (ih (w.write line))

end World

/-- What the execution of a command does, and whether its session goes on. -/
inductive Command.Does (shell : Shell) (spawn : Spawn) (own : SessionId) (w : World) :
    Command → Outcome Flow → World → Prop
  /-- The lines of a module are written, and then why it failed if it did. -/
  | module {name : String} {m : Module} {a : Arguments} {w' : World}
    (h : w.Wrote ((m.run w.now a).lines ++
      ((m.run w.now a).failure.map (Deed.failureLine name)).toList) w') :
    Does shell spawn own w ⟨name, .module m, a⟩ (.ok .stay) w'
  | help {name : String} {a : Arguments} {w' : World} (h : w.Wrote Builtin.helpLines w') :
    Does shell spawn own w ⟨name, .builtin .help, a⟩ (.ok .stay) w'
  | exit {name : String} {a : Arguments} :
    Does shell spawn own w ⟨name, .builtin .exit, a⟩ (.ok .leave) w
  | getCommand {name : String} {a : Arguments} {w' : World}
    (h : w.Wrote (getCommandLines shell a) w') :
    Does shell spawn own w ⟨name, .builtin .getCommand, a⟩ (.ok .stay) w'
  | hi {name : String} {a : Arguments} {w' : World} (h : w.Wrote ["hi"] w') :
    Does shell spawn own w ⟨name, .builtin .hi, a⟩ (.ok .stay) w'
  | shell {name : String} {a : Arguments} {id : SessionId} {w' : World}
    (h : spawn own w = (.ok id, w')) :
    Does shell spawn own w ⟨name, .builtin .shell, a⟩ (.ok .stay) w'
  /-- No child comes of it, or the child fails. -/
  | childless {name : String} {a : Arguments} {e : ShellError} {w₁ w' : World}
    (h : spawn own w = (.failed e, w₁)) (hw : w₁.Wrote [e.message] w') :
    Does shell spawn own w ⟨name, .builtin .shell, a⟩ (.ok .stay) w'
  | aborted {name : String} {a : Arguments} {w' : World} (h : spawn own w = (.aborted, w')) :
    Does shell spawn own w ⟨name, .builtin .shell, a⟩ .aborted w'
  | info {name : String} {a : Arguments} {w' : World}
    (h : w.Wrote (infoLines w.registry own a) w') :
    Does shell spawn own w ⟨name, .builtin .info, a⟩ (.ok .stay) w'
  | prompt {name : String} {a : Arguments} {s : Session} (hs : w.registry.find? own = some s) :
    Does shell spawn own w ⟨name, .builtin .prompt, a⟩ (.ok .stay)
      (w.setRegistry (w.registry.change own { prompt := some (newPrompt shell a) }))
  /-- The session itself is gone. -/
  | promptless {name : String} {a : Arguments} {w' : World} (hs : w.registry.find? own = none)
    (h : w.Wrote ["session not found: " ++ own.text] w') :
    Does shell spawn own w ⟨name, .builtin .prompt, a⟩ (.ok .stay) w'

theorem Command.does_execute (shell : Shell) (spawn : Spawn) (own : SessionId) (c : Command)
    (w : World) :
    c.Does shell spawn own w (c.execute shell spawn own w).1 (c.execute shell spawn own w).2 := by
  obtain ⟨name, h, a⟩ := c
  cases h with
  | module m =>
    rw [execute_module]
    exact .module (w.wrote_writeAll _)
  | builtin b =>
    rw [execute_builtin]
    cases b with
    | help => exact .help (w.wrote_writeAll _)
    | exit => exact .exit
    | getCommand => exact .getCommand (w.wrote_writeAll _)
    | hi => exact .hi (w.wrote_write _)
    | shell =>
      simp only [Deed.ofBuiltin, Deed.perform]
      rcases hspawn : spawn own w with ⟨_ | _ | _, w'⟩
      · exact .shell hspawn
      · exact .childless hspawn (w'.wrote_write _)
      · exact .aborted hspawn
    | info =>
      simp only [Deed.ofBuiltin, ← Registry.infoLines_eq]
      exact .info (w.wrote_writeAll _)
    | prompt =>
      simp only [Deed.ofBuiltin, Deed.perform]
      cases hs : w.registry.find? own with
      | some s =>
        rw [World.rename_of_find? hs]
        exact .prompt hs
      | none =>
        rw [World.rename_of_missing hs]
        exact .promptless hs (w.wrote_write _)

/-- A provider of modules that are changed by `f`. -/
def Provider.withModules (f : Module → Module) (p : Provider) : Provider :=
  ⟨fun name => (p.load name).map f⟩

/-- The same names are known, but the modules under them are changed by `f`. -/
def Resolver.withModules (f : Module → Module) (r : Resolver) : Resolver :=
  ⟨r.providers.map (Provider.withModules f), fun name => (r.external name).map f⟩

def Shell.withModules (f : Module → Module) (shell : Shell) : Shell :=
  { shell with resolver := shell.resolver.withModules f }

/-- What a tier has under a name. -/
def Resolver.Provides (r : Resolver) (name : String) : Resolution → Prop
  | .builtin b => b.name = name
  | .core m => loadFirst r.providers name = .ok m
  | .external m => loadFirst r.providers name = .error .absent ∧ r.external name = some m
  | .unresolved => loadFirst r.providers name = .error .absent ∧ r.external name = none

/-- What is told about a name that resolves so. -/
def told : Except String Resolution → String
  | .ok r => r.kind.label
  | .error reason => "load error (" ++ reason ++ ")"

section

variable {shell : Shell} {r : Resolver} {name reason : String} {answer : Except String Resolution}

theorem resolutionReport_eq (shell : Shell) (name : String) :
    resolutionReport shell name = name ++ ": " ++ told (shell.resolver.resolve name) := by
  have hcolon : ": load error (" = ": " ++ "load error (" := by decide
  unfold resolutionReport told
  cases shell.resolver.resolve name <;> simp only [hcolon, String.append_assoc]

theorem CommandKind.label_injective : Function.Injective label := by
  intro k k' h
  cases k <;> cases k' <;> first | rfl | exact absurd h (by decide)

theorem CommandKind.label_ne_failure (k : CommandKind) (reason : String) :
    k.label ≠ "load error (" ++ reason ++ ")" := by
  intro h
  have hhead := congrArg (fun s => s.toList.head?) h
  cases k <;> simp [label] at hhead

theorem told_eq_label_iff {k : CommandKind} :
    told answer = k.label ↔ ∃ found, answer = .ok found ∧ found.kind = k := by
  cases answer with
  | ok found => simp [told, CommandKind.label_injective.eq_iff]
  | error reason => simp [told, (CommandKind.label_ne_failure k reason).symm]

theorem told_eq_failure_iff :
    told answer = "load error (" ++ reason ++ ")" ↔ answer = .error reason := by
  cases answer with
  | ok found => simp [told, CommandKind.label_ne_failure]
  | error reason' => simp [told, String.append_left_inj, String.append_right_inj]

theorem report_eq_kind_iff {k : CommandKind} {text : String} (htext : text = ": " ++ k.label) :
    resolutionReport shell name = name ++ text ↔
      ∃ found, shell.resolver.resolve name = .ok found ∧ found.kind = k := by
  rw [resolutionReport_eq, htext, String.append_assoc, String.append_right_inj,
    String.append_right_inj, told_eq_label_iff]

theorem report_eq_failure_iff :
    resolutionReport shell name = name ++ ": load error (" ++ reason ++ ")" ↔
      shell.resolver.resolve name = .error reason := by
  have hcolon : ": load error (" = ": " ++ "load error (" := by decide
  rw [resolutionReport_eq, hcolon, ← told_eq_failure_iff]
  simp only [String.append_assoc, String.append_right_inj]

theorem head?_append {s t : String} {c : Char} (h : s.toList.head? = some c) :
    (s ++ t).toList.head? = some c := by
  rw [String.toList_append, List.head?_append, h, Option.some_or]

theorem ShellError.loadFailure_ne_notFound (name reason : String) :
    (ShellError.loadFailure name reason).message ≠ (ShellError.commandNotFound name).message := by
  intro h
  have hload : (ShellError.loadFailure name reason).message.toList.head? = some 'u' :=
    head?_append (head?_append (head?_append rfl))
  have hunknown : (ShellError.commandNotFound name).message.toList.head? = some 'i' :=
    head?_append (head?_append rfl)
  rw [h, hunknown] at hload
  cases hload

theorem ShellError.loadFailure_inj {name reason reason' : String} :
    (ShellError.loadFailure name reason).message = (ShellError.loadFailure name reason').message ↔
      reason = reason' := String.append_right_inj _

theorem loadFirst_withModules (f : Module → Module) (ps : List Provider) (name : String) :
    loadFirst (ps.map (Provider.withModules f)) name = (loadFirst ps name).map f := by
  induction ps with
  | nil => rfl
  | cons p ps ih =>
    rw [List.map_cons, loadFirst, loadFirst]
    simp only [Provider.withModules]
    rcases p.load name with (_ | reason) | m
    · exact ih
    · rfl
    · rfl

theorem report_withModules (f : Module → Module) (shell : Shell) (name : String) :
    resolutionReport (shell.withModules f) name = resolutionReport shell name := by
  rw [resolutionReport_eq, resolutionReport_eq]
  congr 1
  simp only [Shell.withModules, Resolver.withModules, Resolver.resolve, loadFirst_withModules]
  split
  · rfl
  cases Builtin.ofName? name with
  | some b => rfl
  | none =>
    dsimp only
    rcases loadFirst shell.resolver.providers name with (_ | reason) | m
    · simp only [Except.map]
      cases shell.resolver.external name <;> rfl
    · rfl
    · rfl

/-- What a name resolves to is what its tier has under it; an outer tier has a say only where no
provider knows the name. -/
theorem Resolver.provides_of_resolve {found : Resolution} (hname : name ≠ "")
    (h : r.resolve name = .ok found) : r.Provides name found := by
  rw [resolve, if_neg (by simpa using hname)] at h
  cases hb : Builtin.ofName? name with
  | some b =>
    rw [hb] at h
    cases h
    exact Builtin.ofName?_eq_some.1 hb
  | none =>
    rw [hb] at h
    dsimp only at h
    rcases hload : loadFirst r.providers name with (_ | reason) | m <;> rw [hload] at h
    · cases hexternal : r.external name with
      | none =>
        rw [hexternal] at h
        cases h
        exact ⟨hload, hexternal⟩
      | some m =>
        rw [hexternal] at h
        cases h
        exact ⟨hload, hexternal⟩
    · cases h
    · cases h
      exact hload

end

namespace Loop

/-- A session answers the line that it has read with a message, at once. -/
def Answers (shell : Shell) (spawn : Spawn) (own : SessionId) (l : Loop) (w : World)
    (message : String) : Prop :=
  l.next shell spawn own w = (.ok { l with state := .prompting }, w.write message)

/-- How a loop goes on when its command has been executed. -/
def after (l : Loop) : Outcome Flow → Except (Outcome Unit) Loop
  | .ok .stay => .ok { l with state := .prompting, pending := none }
  | .ok .leave => .ok { l with state := .terminating, pending := none }
  | .failed e => .error (.failed e)
  | .aborted => .error .aborted

/-- A session goes on to execute a command by a handler, as the line that it has read says, and does
what the handler is there for. -/
def Runs (shell : Shell) (spawn : Spawn) (own : SessionId) (l : Loop) (w : World) (h : Handler) :
    Prop :=
  let line := CommandLine.parse l.line
  let c : Command := ⟨line.command, h, line.arguments⟩
  ∃ l' o w', l.next shell spawn own w = (.ok l', w) ∧ l'.state = .executing ∧
    l'.pending = some c ∧ c.Does shell spawn own w o w' ∧
    l'.next shell spawn own w = (l'.after o, w')

variable {shell : Shell} {spawn : Spawn} {own : SessionId} {l : Loop} {w : World}

theorem lookUp_of_named {line : String} (h : (CommandLine.parse line).command ≠ "") :
    lookUp shell line =
      match shell.resolver.resolve (CommandLine.parse line).command with
      | .error reason =>
        .error (some (ShellError.loadFailure (CommandLine.parse line).command reason).message)
      | .ok r =>
        match r.handler? with
        | some h => .ok ⟨(CommandLine.parse line).command, h, (CommandLine.parse line).arguments⟩
        | none => .error (some (ShellError.commandNotFound (CommandLine.parse line).command).message)
    := by
  have hnamed : ¬(CommandLine.parse line).isEmpty := by simpa [CommandLine.isEmpty] using h
  unfold lookUp
  refine (if_neg hnamed).trans ?_
  rcases shell.resolver.resolve (CommandLine.parse line).command with reason | found
  · rfl
  · cases found <;> rfl

theorem answers_iff (hl : l.state = .resolving) {message : String} :
    l.Answers shell spawn own w message ↔ lookUp shell l.line = .error (some message) := by
  rw [Answers, next_resolving hl]
  rcases lookUp shell l.line with reply | c
  · constructor
    · intro h
      have hlines := congrArg (fun result => result.2.lines) h
      simp only [World.lines_writeAll, World.lines_write, List.append_cancel_left_eq,
        Option.toList_eq_singleton_iff] at hlines
      rw [hlines]
    · intro h
      cases h
      rfl
  · constructor
    · intro h
      cases congrArg (fun result => result.1.toOption.map Loop.state) h
    · intro h
      cases h

theorem runs_iff (hl : l.state = .resolving) {h : Handler} :
    l.Runs shell spawn own w h ↔
      lookUp shell l.line = .ok ⟨(CommandLine.parse l.line).command, h,
        (CommandLine.parse l.line).arguments⟩ := by
  rw [Runs, next_resolving hl]
  rcases lookUp shell l.line with reply | c
  · constructor
    · rintro ⟨l', o, w', hnext, hstate, -⟩
      cases (Prod.mk.inj hnext).1
      cases hstate
    · intro h
      cases h
  · constructor
    · rintro ⟨l', o, w', hnext, -, hpending, -⟩
      cases hnext
      rw [Option.some.inj hpending]
    · intro h
      cases h
      refine ⟨_, _, _, rfl, rfl, rfl, Command.does_execute shell spawn own _ w, ?_⟩
      rw [next_executing rfl rfl]
      rcases Command.execute shell spawn own _ w with ⟨(_ | _) | _ | _, w'⟩ <;> rfl

theorem answers_notFound_iff (hl : l.state = .resolving)
    (hname : (CommandLine.parse l.line).command ≠ "") :
    l.Answers shell spawn own w ("invalid command `" ++ (CommandLine.parse l.line).command ++ "`") ↔
      shell.resolver.resolve (CommandLine.parse l.line).command = .ok .unresolved := by
  show l.Answers shell spawn own w (ShellError.commandNotFound _).message ↔ _
  rw [answers_iff hl, lookUp_of_named hname]
  rcases shell.resolver.resolve (CommandLine.parse l.line).command with reason | found
  · simp [ShellError.loadFailure_ne_notFound]
  · cases found <;> simp [Resolution.handler?]

theorem answers_loadFailure_iff (hl : l.state = .resolving)
    (hname : (CommandLine.parse l.line).command ≠ "") {reason : String} :
    l.Answers shell spawn own w ("unhandled error while loading `" ++
        (CommandLine.parse l.line).command ++ "`: " ++ reason) ↔
      shell.resolver.resolve (CommandLine.parse l.line).command = .error reason := by
  show l.Answers shell spawn own w (ShellError.loadFailure _ reason).message ↔ _
  rw [answers_iff hl, lookUp_of_named hname]
  rcases shell.resolver.resolve (CommandLine.parse l.line).command with reason' | found
  · simp [ShellError.loadFailure_inj]
  · cases found <;> simp [Resolution.handler?, (ShellError.loadFailure_ne_notFound _ _).symm]

theorem runs_iff_handler (hl : l.state = .resolving)
    (hname : (CommandLine.parse l.line).command ≠ "") {h : Handler} :
    l.Runs shell spawn own w h ↔ ∃ found, found.handler? = some h ∧
      shell.resolver.resolve (CommandLine.parse l.line).command = .ok found := by
  rw [runs_iff hl, lookUp_of_named hname]
  rcases shell.resolver.resolve (CommandLine.parse l.line).command with reason | found
  · simp
  · cases hfound : found.handler? <;> simp [hfound]

section

variable (hl : l.state = .resolving) (hname : (CommandLine.parse l.line).command ≠ "")

include hl hname

theorem report_internal_iff :
    resolutionReport shell (CommandLine.parse l.line).command =
        (CommandLine.parse l.line).command ++ ": internal" ↔
      ∃ b, b.name = (CommandLine.parse l.line).command ∧
        l.Runs shell spawn own w (.builtin b) := by
  rw [report_eq_kind_iff (k := .internal) (by decide)]
  constructor
  · rintro ⟨found, hresolve, hkind⟩
    cases found with
    | builtin b =>
      exact ⟨b, Resolver.provides_of_resolve hname hresolve,
        (runs_iff_handler hl hname).2 ⟨_, rfl, hresolve⟩⟩
    | core | external | unresolved => cases hkind
  · rintro ⟨b, -, hruns⟩
    obtain ⟨found, hhandler, hresolve⟩ := (runs_iff_handler hl hname).1 hruns
    cases found with
    | builtin => exact ⟨_, hresolve, rfl⟩
    | core | external | unresolved => cases hhandler

theorem report_core_iff :
    resolutionReport shell (CommandLine.parse l.line).command =
        (CommandLine.parse l.line).command ++ ": core" ↔
      ∃ m, loadFirst shell.resolver.providers (CommandLine.parse l.line).command = .ok m ∧
        l.Runs shell spawn own w (.module m) := by
  rw [report_eq_kind_iff (k := .core) (by decide)]
  constructor
  · rintro ⟨found, hresolve, hkind⟩
    cases found with
    | core m =>
      exact ⟨m, Resolver.provides_of_resolve hname hresolve,
        (runs_iff_handler hl hname).2 ⟨_, rfl, hresolve⟩⟩
    | builtin | external | unresolved => cases hkind
  · rintro ⟨m, hload, hruns⟩
    obtain ⟨found, hhandler, hresolve⟩ := (runs_iff_handler hl hname).1 hruns
    have hprovides := Resolver.provides_of_resolve hname hresolve
    cases found with
    | core => exact ⟨_, hresolve, rfl⟩
    | external => cases hload.symm.trans hprovides.1
    | builtin | unresolved => cases hhandler

theorem report_external_iff :
    resolutionReport shell (CommandLine.parse l.line).command =
        (CommandLine.parse l.line).command ++ ": external" ↔
      ∃ m, loadFirst shell.resolver.providers (CommandLine.parse l.line).command = .error .absent ∧
        shell.resolver.external (CommandLine.parse l.line).command = some m ∧
        l.Runs shell spawn own w (.module m) := by
  rw [report_eq_kind_iff (k := .external) (by decide)]
  constructor
  · rintro ⟨found, hresolve, hkind⟩
    cases found with
    | external m =>
      obtain ⟨hload, hexternal⟩ := Resolver.provides_of_resolve hname hresolve
      exact ⟨m, hload, hexternal, (runs_iff_handler hl hname).2 ⟨_, rfl, hresolve⟩⟩
    | builtin | core | unresolved => cases hkind
  · rintro ⟨m, hload, -, hruns⟩
    obtain ⟨found, hhandler, hresolve⟩ := (runs_iff_handler hl hname).1 hruns
    have hprovides := Resolver.provides_of_resolve hname hresolve
    cases found with
    | external => exact ⟨_, hresolve, rfl⟩
    | core => cases hload.symm.trans hprovides
    | builtin | unresolved => cases hhandler

end

theorem execute_getCommand (shell : Shell) (spawn : Spawn) (own : SessionId) (w : World)
    {c : Command} (hc : c.handler = .builtin .getCommand) (hnames : c.arguments.positional ≠ []) :
    c.execute shell spawn own w =
      (.ok .stay, w.writeAll (c.arguments.positional.map (resolutionReport shell))) := by
  have hempty : c.arguments.positional.isEmpty = false := by simpa using hnames
  simp only [Command.execute, hc, runBuiltin, getCommandLines, hempty]
  rfl

/-- For every shell, session and world. The command `get-command` writes one line for each name and
does nothing else, whatever the modules and a child would do. A line tells how its name is found:
exactly as a session does that reads a line with this command, however it is quoted. -/
theorem report_iff_next (shell : Shell) (spawn : Spawn) (own : SessionId) (w : World) :
    (∀ c : Command, c.handler = .builtin .getCommand → c.arguments.positional ≠ [] →
      ∃ w', c.execute shell spawn own w = (.ok .stay, w') ∧
        w.Wrote (c.arguments.positional.map (resolutionReport shell)) w' ∧
        ∀ f spawn', c.execute (shell.withModules f) spawn' own w = (.ok .stay, w')) ∧
    (∀ (l : Loop) (n : String), l.state = .resolving → n ≠ "" →
      (CommandLine.parse l.line).command = n →
      (resolutionReport shell n = n ++ ": not found" ↔
        l.Answers shell spawn own w ("invalid command `" ++ n ++ "`")) ∧
      (∀ reason, resolutionReport shell n = n ++ ": load error (" ++ reason ++ ")" ↔
        l.Answers shell spawn own w ("unhandled error while loading `" ++ n ++ "`: " ++ reason)) ∧
      (resolutionReport shell n = n ++ ": internal" ↔
        ∃ b, b.name = n ∧ l.Runs shell spawn own w (.builtin b)) ∧
      (resolutionReport shell n = n ++ ": core" ↔
        ∃ m, loadFirst shell.resolver.providers n = .ok m ∧
          l.Runs shell spawn own w (.module m)) ∧
      (resolutionReport shell n = n ++ ": external" ↔
        ∃ m, loadFirst shell.resolver.providers n = .error .absent ∧
          shell.resolver.external n = some m ∧ l.Runs shell spawn own w (.module m))) ∧
    ∀ n words, CommandLine.parse (CommandLine.print [] (n :: words)) = ⟨n, ⟨words, ∅⟩⟩ := by
  refine ⟨fun c hc hnames => ⟨_, ?_, w.wrote_writeAll _, fun f spawn' => ?_⟩,
    fun l n hl hname hn => ?_, fun n words => ?_⟩
  · exact execute_getCommand shell spawn own w hc hnames
  · rw [execute_getCommand _ spawn' own w hc hnames, funext (report_withModules f shell)]
  · subst hn
    refine ⟨?_, fun reason => ?_, report_internal_iff hl hname, report_core_iff hl hname,
      report_external_iff hl hname⟩
    · rw [answers_notFound_iff hl hname, report_eq_kind_iff (k := .unresolved) (by decide)]
      constructor
      · rintro ⟨found, hresolve, hkind⟩
        cases found with
        | unresolved => exact hresolve
        | builtin | core | external => cases hkind
      · exact fun hresolve => ⟨_, hresolve, rfl⟩
    · rw [answers_loadFailure_iff hl hname, report_eq_failure_iff]
  · rw [CommandLine.parse, CommandLine.words_print, Arguments.ofWords, List.map_nil,
      List.nil_append, CommandLine.addWords_dashes]
    rfl

/-- A name with a quote in it, under which only those outside know a command, and a name that nobody
knows. -/
theorem report_of_quoted_name :
    let shell : Shell :=
      { resolver := { Resolver.builtin with external := fun n => [("it's", .echo)].lookup n } }
    let w := World.start (.start ⟨0⟩) [] fun _ => []
    let c : Command := ⟨"get-command", .builtin .getCommand, ⟨["it's", "nope"], ∅⟩⟩
    let l : Loop := { state := .resolving, line := "-- 'it'\\''s' 'a' 'b  c'" }
    (∃ w', c.execute shell (World.spawnChild shell) ⟨0, 1⟩ w = (.ok .stay, w') ∧
      w'.lines = ["it's: external", "nope: not found"] ∧ w'.registry = ∅) ∧
    ∃ l' l'' w', l.next shell (World.spawnChild shell) ⟨0, 1⟩ w = (.ok l', w) ∧
      l'.next shell (World.spawnChild shell) ⟨0, 1⟩ w = (.ok l'', w') ∧ l''.state = .prompting ∧
      w'.lines = ["a b  c"] ∧ w'.registry = ∅ := by
  intro shell w c l
  obtain ⟨hwrites, hagrees, hprint⟩ :=
    report_iff_next shell (World.spawnChild shell) ⟨0, 1⟩ w
  obtain ⟨w', hexecute, hwrote, -⟩ := hwrites c rfl (List.cons_ne_nil _ _)
  refine ⟨⟨w', hexecute, ?_, hwrote.registry_eq⟩, ?_⟩
  · rw [hwrote.lines_eq]
    decide +kernel
  · have hline : CommandLine.print [] ["it's", "a", "b  c"] = l.line := by decide +kernel
    have hparse : CommandLine.parse l.line = ⟨"it's", ⟨["a", "b  c"], ∅⟩⟩ := by rw [← hline, hprint]
    obtain ⟨-, -, -, -, hexternal⟩ := hagrees l "it's" rfl (by decide) (by rw [hparse])
    obtain ⟨m, -, hm, l', o, w', hnext, -, -, hdoes, hafter⟩ := hexternal.1 (by decide +kernel)
    cases hm
    rw [hparse] at hdoes
    cases hdoes with
    | module hwrote => exact ⟨l', _, w', hnext, hafter, rfl, hwrote.lines_eq, hwrote.registry_eq⟩

end Loop

end SessionShell
