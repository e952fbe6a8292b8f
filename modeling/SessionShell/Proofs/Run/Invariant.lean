import SessionShell.Proofs.Run.Lifecycle
import SessionShell.Run.Operation

/-!
Invariants of a run. The sessions that are running form a stack, innermost first: a session that
starts a child waits below it. A property of the stack and the world that reads, writes, changes of
a prompt, and the start and the end of a child keep is kept by whole runs, however deep they nest.
-/

namespace SessionShell

/-- Whether an event is the reading or the writing of a session. -/
def Event.isTerminal : Event → Bool
  | prompt .. => true
  | input .. => true
  | write _ => true
  | _ => false

/-- Whether an event is the reading or the writing of a session while the registry is `r`. -/
def Event.IsTerminalAt (r : Registry) : Event → Prop
  | prompt _ _ shown => shown = r
  | input .. => True
  | write _ => True
  | _ => False

theorem Event.IsTerminalAt.isTerminal {r : Registry} {e : Event} (h : e.IsTerminalAt r) :
    e.isTerminal := by
  cases e with
  | prompt | input | write => rfl
  | reply | created | removed => cases h

/-- Whether in an event a session comes or goes. -/
def Event.isTurnover : Event → Bool
  | created _ => true
  | removed .. => true
  | _ => false

theorem World.writeAll_of_write {J : World → Prop} (h : ∀ w line, J w → J (w.write line))
    {w : World} (lines : List String) (hw : J w) : J (w.writeAll lines) := by
  induction lines generalizing w with
  | nil => exact hw
  | cons line lines ih => exact ih (h w line hw)

/-- Sessions are torn down by retiring one after the other and announcing it. -/
theorem World.teardownAll_of_retire {J : World → Prop}
    (hwrite : ∀ w line, J w → J (w.write line)) (hretire : ∀ w id, J w → J (w.retire id))
    {w : World} (sessions : List Session) (hw : J w) : J (teardownAll sessions w).2 := by
  induction sessions with
  | nil => exact hw
  | cons s deeper ih =>
    have hretired := hretire _ s.id ih
    rcases teardownAll_cons s deeper w with e | e <;> rw [e]
    · exact hretired
    · exact writeAll_of_write hwrite _ hretired

/-- Whether all steps of other parties are such as `P` says. -/
def World.Only (P : Outside → Prop) (w : World) : Prop :=
  (∀ e ∈ w.script, ∀ o ∈ e.before, P o) ∧ ∀ n, ∀ o ∈ w.onWrite n, P o

/-- A property of the world that reading and writing keep, together with all that other parties do
meanwhile. -/
structure TerminalInvariant (J : World → Prop) : Prop where
  write {w : World} (line : String) : J w → J (w.write line)
  read {w : World} (own : SessionId) (prompt : String) : J w → J (w.read own prompt).2

namespace TerminalInvariant

variable {J : World → Prop} {w : World}

theorem writeAll (h : TerminalInvariant J) (lines : List String) (hw : J w) :
    J (w.writeAll lines) :=
  World.writeAll_of_write (fun _ line => h.write line) lines hw

/-- Reading and writing keep what each of their elementary changes keeps, where of the steps of other
parties those count that the world holds. -/
theorem of_allowed {P : Outside → Prop} (hallowed : ∀ w, J w → w.Only P)
    (hrecord : ∀ w e, e.IsTerminalAt w.registry → J w → J (w.record e))
    (houtside : ∀ w o, P o → J w → J (w.outside o))
    (hcount : ∀ w, J w → J { w with written := w.written + 1 })
    (hnext : ∀ w e rest, w.script = e :: rest → J w → J { w with script := rest }) :
    TerminalInvariant J := by
  have outsides (os : List Outside) (hos : ∀ o ∈ os, P o) (w : World) (hw : J w) :
      J (os.foldl World.outside w) := by
    induction os generalizing w with
    | nil => exact hw
    | cons o os ih =>
      obtain ⟨ho, hos⟩ := List.forall_mem_cons.1 hos
      exact ih hos _ (houtside w o ho hw)
  refine ⟨fun {w} line hw => ?_, fun {w} own prompt hw => ?_⟩
  · have hwrite : J { w.record (.write line) with written := w.written + 1 } :=
      hcount _ (hrecord w _ trivial hw)
    rw [World.write_eq]
    exact outsides _ ((hallowed w hw).2 _) _ hwrite
  · have hprompt : J (w.record (.prompt own prompt w.registry)) := hrecord w _ rfl hw
    rcases hs : w.script with _ | ⟨entry, rest⟩
    · rw [World.read_of_nil hs]
      exact hrecord _ _ trivial hprompt
    · have hbefore : ∀ o ∈ entry.before, P o := (hallowed w hw).1 entry (by simp [hs])
      rw [World.read_of_cons hs]
      exact hrecord _ _ trivial (outsides _ hbefore _ (hnext (w.record _) _ _ hs hprompt))

theorem of_steps (hrecord : ∀ w e, e.isTerminal → J w → J (w.record e))
    (houtside : ∀ w o, J w → J (w.outside o))
    (hcount : ∀ w, J w → J { w with written := w.written + 1 })
    (hnext : ∀ w e rest, w.script = e :: rest → J w → J { w with script := rest }) :
    TerminalInvariant J :=
  of_allowed (fun _ _ => ⟨fun _ _ _ _ => trivial, fun _ _ _ => trivial⟩)
    (fun w _ he => hrecord w _ he.isTerminal) (fun w o _ => houtside w o) hcount hnext

end TerminalInvariant

/-- A property of the world that writing and each change of the manager keep. -/
structure WorldInvariant (J : World → Prop) : Prop where
  write {w : World} (line : String) : J w → J (w.write line)
  manager {w : World} (m : Manager) : J w → J { w with toManager := m }
  record {w : World} {e : Event} (he : e.isTurnover) : J w → J (w.record e)

namespace WorldInvariant

variable {J : World → Prop} {w : World}

theorem writeAll (h : WorldInvariant J) (lines : List String) (hw : J w) :
    J (w.writeAll lines) :=
  World.writeAll_of_write (fun _ line => h.write line) lines hw

theorem setRegistry (h : WorldInvariant J) (r : Registry) (hw : J w) : J (w.setRegistry r) :=
  h.manager { w.toManager with registry := r } hw

theorem retire (h : WorldInvariant J) (id : SessionId) (hw : J w) : J (w.retire id) := by
  cases hf : w.registry.find? id with
  | none => rwa [World.retire_of_missing hf]
  | some s =>
    rw [World.retire_of_find? hf]
    exact h.record rfl (h.setRegistry _ hw)

theorem discard (h : WorldInvariant J) (id : SessionId) (hw : J w) : J (w.discard id) := by
  cases hf : w.registry.find? id with
  | none => rwa [World.discard_of_missing hf]
  | some s =>
    rw [World.discard_of_find? hf]
    exact h.record rfl (h.setRegistry _ hw)

theorem teardownAll (h : WorldInvariant J) (sessions : List Session) (hw : J w) :
    J (World.teardownAll sessions w).2 :=
  World.teardownAll_of_retire (fun _ line => h.write line) (fun _ id => h.retire id) sessions hw

theorem teardown (h : WorldInvariant J) (id : SessionId) (hw : J w) : J (w.teardown id).2 :=
  h.teardownAll _ hw

theorem create (h : WorldInvariant J) (shell : Shell) (parent : Option SessionId) (hw : J w) :
    J (w.create shell parent).2 := by
  rcases hc : w.create shell parent with ⟨e | s, w'⟩
  · obtain ⟨ids, -, rfl, -⟩ := World.create_error hc
    exact h.manager { w.toManager with ids } hw
  · obtain ⟨ids, -, -, -, rfl⟩ := World.create_ok hc
    have henter : J (w.enter s ids) := h.record rfl (h.manager ⟨_, ids, w.now⟩ hw)
    exact h.writeAll _ henter

theorem createChild (h : WorldInvariant J) (shell : Shell) (p : SessionId) (hw : J w) :
    J (w.createChild shell p).2 := by
  have hcreate := h.create shell (some p) hw
  rcases hc : w.createChild shell p with ⟨e | c, w'⟩
  · obtain rfl | ⟨-, -, -, hnew⟩ | ⟨-, c, w₁, -, -, hnew, -, rfl⟩ := World.createChild_error hc
    · exact hw
    · rwa [hnew] at hcreate
    · rw [hnew] at hcreate
      exact h.discard _ hcreate
  · obtain ⟨-, -, w₁, -, -, hnew, -, -, rfl⟩ := World.createChild_ok hc
    rw [hnew] at hcreate
    exact h.setRegistry _ hcreate

end WorldInvariant

theorem World.log_subset_outsides (w : World) (os : List Outside) :
    w.log ⊆ (os.foldl outside w).log := by
  induction os generalizing w with
  | nil => exact List.Subset.refl _
  | cons o os ih =>
    have hstep : w.log ⊆ (w.outside o).log := by
      cases o with
      | clock t => exact List.Subset.refl _
      | request q => exact List.subset_cons_self _ _
    exact List.Subset.trans hstep (ih (w.outside o))

theorem terminalInvariant_subset_log (log : List Event) : TerminalInvariant fun w => log ⊆ w.log :=
  .of_steps (fun _ _ _ h => List.subset_cons_of_subset _ h)
    (fun w o h => List.Subset.trans h (w.log_subset_outsides [o])) (fun _ h => h) fun _ _ _ _ h => h

theorem worldInvariant_subset_log (log : List Event) : WorldInvariant fun w => log ⊆ w.log where
  write := (terminalInvariant_subset_log log).write
  manager _ h := h
  record _ h := List.subset_cons_of_subset _ h

theorem World.log_subset_writeAll (w : World) (lines : List String) :
    w.log ⊆ (w.writeAll lines).log :=
  (worldInvariant_subset_log w.log).writeAll lines (List.Subset.refl _)

/-- Whether an operation runs a session, and does not only make or remove one. -/
def Operation.isRun : Operation → Bool
  | openTop => true
  | spawnChild _ => true
  | _ => false

theorem Operation.performIn_create (shell : Shell) (parent : Option SessionId) (w : World) :
    ((create parent).performIn shell w).2 = (w.create shell parent).2 := by
  rcases h : w.create shell parent with ⟨_ | _, w'⟩ <;> rw [performIn, h] <;> rfl

theorem Operation.performIn_createChild (shell : Shell) (parent : SessionId) (w : World) :
    ((createChild parent).performIn shell w).2 = (w.createChild shell parent).2 := by
  rcases h : w.createChild shell parent with ⟨_ | _, w'⟩ <;> rw [performIn, h] <;> rfl

theorem Operation.performIn_openTop (shell : Shell) (w : World) :
    (openTop.performIn shell w).2 = (w.openTop shell).2 := by
  rcases h : w.openTop shell with ⟨_ | _ | _, w'⟩ <;> rw [performIn, h] <;> rfl

theorem Operation.performIn_spawnChild (shell : Shell) (parent : SessionId) (w : World) :
    ((spawnChild parent).performIn shell w).2 = (w.spawnChild shell parent).2 := by
  rcases h : w.spawnChild shell parent with ⟨_ | _ | _, w'⟩ <;> rw [performIn, h] <;> rfl

/-- What single steps keep, in a run of the given shell. -/
structure RunInvariant (shell : Shell) (I : List SessionId → World → Prop) : Prop where
  write {stack : List SessionId} {w : World} (line : String) : I stack w → I stack (w.write line)
  read {own : SessionId} {stack : List SessionId} {w : World} (prompt : String) :
    I (own :: stack) w → I (own :: stack) (w.read own prompt).2
  setPrompt {own : SessionId} {stack : List SessionId} {w : World} {p : String} {s : Session}
    {r : Registry} (hr : w.registry.update own { prompt := some p } = .ok (s, r)) :
    I (own :: stack) w → I (own :: stack) (w.setRegistry r)
  child {own : SessionId} {stack : List SessionId} {w w' : World} {c : Session}
    (hc : w.createChild shell own = (.ok c, w')) :
    I (own :: stack) w → I (c.id :: own :: stack) w'
  noChild {own : SessionId} {stack : List SessionId} {w w' : World} {e : ShellError}
    (he : w.createChild shell own = (.error e, w')) : I (own :: stack) w → I (own :: stack) w'
  teardown {own : SessionId} {stack : List SessionId} {w : World} :
    I (own :: stack) w → I stack (w.teardown own).2
  retire {own : SessionId} {stack : List SessionId} {w : World} :
    I (own :: stack) w → I stack (w.retire own)

theorem WorldInvariant.run {J : World → Prop} (h : WorldInvariant J)
    (hread : ∀ w own prompt, J w → J (w.read own prompt).2) (shell : Shell) :
    RunInvariant shell fun _ => J where
  write line := h.write line
  read prompt := hread _ _ prompt
  setPrompt _ := h.setRegistry _
  child {own _ w _ _} hc hw := by
    have hchild := h.createChild shell own hw
    rwa [hc] at hchild
  noChild {own _ w _ _} he hw := by
    have hchild := h.createChild shell own hw
    rwa [he] at hchild
  teardown := h.teardown _
  retire := h.retire _

namespace RunInvariant

variable {shell : Shell} {I : List SessionId → World → Prop} {own : SessionId}
  {stack : List SessionId} {w : World}

theorem writeAll (h : RunInvariant shell I) (lines : List String) (hw : I stack w) :
    I stack (w.writeAll lines) :=
  World.writeAll_of_write (fun _ line => h.write line) lines hw

theorem runModule (h : RunInvariant shell I) (name : String) (m : Module) (a : Arguments)
    (hw : I stack w) : I stack (runModule name m a w).2 := by
  unfold SessionShell.runModule
  have hlines := h.writeAll (m.run w.now a).lines hw
  dsimp only
  cases (m.run w.now a).failure with
  | none => exact hlines
  | some e => exact hlines

theorem runBuiltin (h : RunInvariant shell I) {spawn : Spawn}
    (hspawn : ∀ w, I (own :: stack) w → I (own :: stack) (spawn own w).2) (a : Arguments)
    (b : Builtin) (hw : I (own :: stack) w) :
    I (own :: stack) (runBuiltin shell spawn own a w b).2 := by
  cases b with
  | help => exact h.writeAll _ hw
  | exit => exact hw
  | getCommand => exact h.writeAll _ hw
  | hi => exact h.write _ hw
  | shell =>
    have := hspawn w hw
    simp only [SessionShell.runBuiltin]
    rcases hs : spawn own w with ⟨_ | _ | _, w'⟩ <;> simpa only [hs] using this
  | info => exact h.writeAll _ hw
  | prompt =>
    simp only [SessionShell.runBuiltin]
    split
    · rename_i hr
      exact h.setPrompt hr hw
    · exact hw

theorem execute (h : RunInvariant shell I) {spawn : Spawn}
    (hspawn : ∀ w, I (own :: stack) w → I (own :: stack) (spawn own w).2) (c : Command)
    (hw : I (own :: stack) w) : I (own :: stack) (c.execute shell spawn own w).2 := by
  unfold Command.execute
  cases c.handler with
  | builtin b =>
    have hrun := h.runBuiltin hspawn c.arguments b hw
    dsimp only
    rcases hr : SessionShell.runBuiltin shell spawn own c.arguments w b with ⟨_ | e | _, w'⟩ <;>
      rw [hr] at hrun
    · exact hrun
    · exact h.write e.message hrun
    · exact hrun
  | module m =>
    have hrun := h.runModule c.name m c.arguments hw
    dsimp only
    rcases hr : SessionShell.runModule c.name m c.arguments w with ⟨_ | e | _, w'⟩ <;>
      rw [hr] at hrun
    · exact hrun
    · exact h.write e.message hrun
    · exact hrun

theorem turn (h : RunInvariant shell I) {spawn : Spawn}
    (hspawn : ∀ w, I (own :: stack) w → I (own :: stack) (spawn own w).2) (l : Loop)
    (hw : I (own :: stack) w) : I (own :: stack) (l.turn shell spawn own w).2 := by
  unfold Loop.turn
  cases l.state with
  | prompting => exact hw
  | reading =>
    have := h.read l.prompt hw
    rcases hr : w.read own l.prompt with ⟨_ | _ | _ | _, w'⟩ <;> simpa only [hr] using this
  | resolving =>
    cases Loop.lookUp shell l.line with
    | ok c => exact hw
    | error message => exact h.writeAll _ hw
  | executing =>
    cases l.pending with
    | none => exact hw
    | some c =>
      have := h.execute hspawn c hw
      dsimp only
      rcases hr : c.execute shell spawn own w with ⟨(_ | _) | _ | _, w'⟩ <;>
        simpa only [hr] using this
  | terminating => exact hw

theorem drive (h : RunInvariant shell I) {run : SessionId → World → Outcome Unit × World}
    (hrun : I (own :: stack) (run own w).2) : I stack (w.drive run own).2 := by
  unfold World.drive
  rcases hr : run own w with ⟨_ | _ | _, w'⟩ <;> rw [hr] at hrun
  · exact h.teardown hrun
  · exact h.teardown hrun
  · exact h.retire hrun

theorem spawnBy (h : RunInvariant shell I) {run : SessionId → World → Outcome Unit × World}
    (hrun : ∀ c w, I (c :: own :: stack) w → I (c :: own :: stack) (run c w).2)
    (hw : I (own :: stack) w) : I (own :: stack) (World.spawnBy shell run own w).2 := by
  unfold World.spawnBy
  rcases hc : w.createChild shell own with ⟨_ | c, w'⟩
  · exact h.noChild hc hw
  · exact h.drive (hrun _ _ (h.child hc hw))

/-- A loop keeps the invariant for its own session and all that wait below it. -/
theorem loop (h : RunInvariant shell I) (n : Nat) (l : Loop) (hw : I (own :: stack) w) :
    I (own :: stack) (World.loop shell n own l w).2 := by
  -- a child has fewer turns than the session that starts it
  induction n generalizing own stack l w with
  | zero => exact hw
  | succ n ih =>
    have hspawn : ∀ w, I (own :: stack) w →
        I (own :: stack) (World.spawnBy shell (fun id => World.loop shell n id {}) own w).2 :=
      fun w hw => h.spawnBy (fun c w hc => ih {} hc) hw
    have hturn := h.turn hspawn l hw
    rw [World.loop]
    split <;> rename_i ht <;> rw [ht] at hturn
    · exact hturn
    · split
      · exact ih _ hturn
      · exact hturn
    · exact hturn
    · exact hturn

theorem run (h : RunInvariant shell I) (hw : I (own :: stack) w) :
    I (own :: stack) (World.run shell own w).2 := h.loop _ _ hw

theorem openTop (h : RunInvariant shell I)
    (hfail : ∀ e w', w.create shell none = (.error e, w') → I stack w')
    (hnew : ∀ s w', w.create shell none = (.ok s, w') → I (s.id :: stack) w') :
    I stack (w.openTop shell).2 := by
  unfold World.openTop World.openBy
  rcases hc : w.create shell none with ⟨e | s, w'⟩
  · exact hfail e w' hc
  · exact h.drive (h.run (hnew s w' hc))

theorem spawnChild (h : RunInvariant shell I) {parent : SessionId}
    (hfail : ∀ e w', w.createChild shell parent = (.error e, w') → I stack w')
    (hnew : ∀ c w', w.createChild shell parent = (.ok c, w') → I (c.id :: stack) w') :
    I stack (w.spawnChild shell parent).2 := by
  unfold World.spawnChild World.spawnBy
  rcases hc : w.createChild shell parent with ⟨e | c, w'⟩
  · exact hfail e w' hc
  · exact h.drive (h.run (hnew c w' hc))

/-- What runs keep whoever runs, and creating a session keeps, all operations keep. -/
theorem operation {J : World → Prop} (h : RunInvariant shell fun _ => J)
    (hcreate : ∀ parent, J (w.create shell parent).2) (op : Operation) (hw : J w) :
    J (op.performIn shell w).2 := by
  have hnew (parent : Option SessionId) {o : Except ShellError Session} {w' : World}
      (hc : w.create shell parent = (o, w')) : J w' := by
    have hw' := hcreate parent
    rwa [hc] at hw'
  have hchild (p : SessionId) {o : Except ShellError Session} {w' : World}
      (hc : w.createChild shell p = (o, w')) : J w' := by
    cases o with
    | error e => exact @noChild _ _ h p [] _ _ _ hc hw
    | ok c => exact @child _ _ h p [] _ _ _ hc hw
  cases op with
  | create parent =>
    rw [Operation.performIn_create]
    exact hnew parent rfl
  | createChild p =>
    rw [Operation.performIn_createChild]
    exact hchild p rfl
  | teardown id => exact @teardown _ _ h id [] _ hw
  | openTop =>
    rw [Operation.performIn_openTop]
    exact @openTop _ _ [] _ h (fun _ _ => hnew none) fun _ _ => hnew none
  | spawnChild p =>
    rw [Operation.performIn_spawnChild]
    exact @spawnChild _ _ [] _ h p (fun _ _ => hchild p) fun _ _ => hchild p

end RunInvariant

end SessionShell
