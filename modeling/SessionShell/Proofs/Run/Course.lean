import SessionShell.Proofs.Evaluator
import SessionShell.Proofs.Mirror
import SessionShell.Proofs.Run.Rounds

namespace SessionShell

namespace World

def ask (shell : Shell) (own : SessionId) (w : World) : ReadOutcome × World :=
  w.read own (Loop.currentPrompt shell own w.registry)

/-- What a line makes a session do. -/
def deed (shell : Shell) (own : SessionId) (line : String) (w : World) : Deed :=
  .ofLine shell w.registry.find? own w.now line

/-- Changes the prompt of a session, or tells that the session is gone. -/
def rename (own : SessionId) (text : String) (w : World) : World :=
  match w.registry.update own { prompt := some text } with
  | .ok (_, registry) => w.setRegistry registry
  | .error e => w.write e.message

theorem rename_of_find? {own : SessionId} {w : World} {s : Session}
    (h : w.registry.find? own = some s) (text : String) :
    w.rename own text = w.setRegistry (w.registry.change own { prompt := some text }) := by
  simp [rename, Registry.update_of_find? _ h]

theorem rename_of_missing {own : SessionId} {w : World} (h : w.registry.find? own = none)
    (text : String) : w.rename own text = w.write (ShellError.sessionNotFound own).message := by
  simp [rename, Registry.update_of_missing _ h]

@[simp] theorem script_outsides (w : World) (os : List Outside) :
    (os.foldl outside w).script = w.script := by
  induction os generalizing w with
  | nil => rfl
  | cons o os ih =>
    rw [List.foldl_cons, ih]
    cases o <;> rfl

theorem worldInvariant_script_le (n : Nat) : WorldInvariant fun w => w.script.length ≤ n where
  write {w} line h := by
    rw [write_eq, script_outsides]
    exact h
  manager _ h := h
  record _ h := h

theorem script_of_ask_line {shell : Shell} {own : SessionId} {w w₁ : World} {text : String}
    (h : w.ask shell own = (.line text, w₁)) : w₁.script.length < w.script.length := by
  unfold ask at h
  rcases hs : w.script with _ | ⟨entry, rest⟩
  · rw [read_of_nil hs] at h
    cases h
  · rw [read_of_cons hs] at h
    obtain ⟨-, rfl⟩ := Prod.mk.inj h
    simp [record]

theorem head?_log_of_ask {shell : Shell} {own : SessionId} {w w₁ : World} {r : ReadOutcome}
    (h : w.ask shell own = (r, w₁)) : w₁.log.head? = some (.input own r) := by
  obtain ⟨rfl, rfl⟩ := Prod.mk.inj h
  rfl

theorem script_read_le (w : World) (own : SessionId) (prompt : String) :
    (w.read own prompt).2.script.length ≤ w.script.length := by
  rcases hs : w.script with _ | ⟨entry, rest⟩
  · simp [read_of_nil hs, record, hs]
  · simp [read_of_cons hs, record]

theorem script_loop_le (shell : Shell) (k : Nat) (own : SessionId) (l : Loop) {n : Nat} {w : World}
    (h : w.script.length ≤ n) : (World.loop shell k own l w).2.script.length ≤ n := by
  have hrun : RunInvariant shell fun _ w => w.script.length ≤ n :=
    (worldInvariant_script_le n).run (fun w own prompt => (script_read_le w own prompt).trans) shell
  exact @RunInvariant.loop shell _ own [] w hrun k l h

theorem script_rename_le {n : Nat} {w : World} (own : SessionId) (text : String)
    (h : w.script.length ≤ n) : (w.rename own text).script.length ≤ n := by
  unfold rename
  split
  · exact h
  · exact (worldInvariant_script_le n).write _ h

end World

/-- How a loop carries out a deed. -/
def Deed.perform (spawn : Spawn) (own : SessionId) (w : World) : Deed → Outcome Flow × World
  | .say lines => (.ok .stay, w.writeAll lines)
  | .leave => (.ok .leave, w)
  | .prompt text => (.ok .stay, w.rename own text)
  | .shell =>
    match spawn own w with
    | (.ok _, w) => (.ok .stay, w)
    | (.failed e, w) => (.ok .stay, w.write e.message)
    | (.aborted, w) => (.aborted, w)

/-- How a read ends the loop of its session, if it does. -/
def ReadOutcome.verdict? : ReadOutcome → Option (Outcome Unit)
  | line _ => none
  | endOfInput => some (.ok ())
  | failed reason => some (.failed (.input reason))
  | aborted => some .aborted

/-- What the end of a child makes its parent write. -/
def Outcome.report {α : Type} : Outcome α → List String
  | ok _ => []
  | failed e => [e.message]
  | aborted => []

/-- A session takes its course from one world to another and ends with an outcome. -/
inductive Course (shell : Shell) : SessionId → World → Outcome Unit → World → Prop
  | stopped {own : SessionId} {w w' : World} {r : ReadOutcome} {o : Outcome Unit}
    (hask : w.ask shell own = (r, w')) (ho : r.verdict? = some o) : Course shell own w o w'
  | left {own : SessionId} {w w' : World} {text : String}
    (hask : w.ask shell own = (.line text, w')) (hdeed : w'.deed shell own text = .leave) :
    Course shell own w (.ok ()) w'
  | said {own : SessionId} {w w₁ w' : World} {o : Outcome Unit} {text : String}
    {lines : List String} (hask : w.ask shell own = (.line text, w₁))
    (hdeed : w₁.deed shell own text = .say lines) :
    Course shell own (w₁.writeAll lines) o w' → Course shell own w o w'
  | renamed {own : SessionId} {w w₁ w' : World} {o : Outcome Unit} {text prompt : String}
    (hask : w.ask shell own = (.line text, w₁)) (hdeed : w₁.deed shell own text = .prompt prompt) :
    Course shell own (w₁.rename own prompt) o w' → Course shell own w o w'
  /-- No child comes of it. -/
  | refused {own : SessionId} {w w₁ w₂ w' : World} {o : Outcome Unit} {text : String}
    {e : ShellError} (hask : w.ask shell own = (.line text, w₁))
    (hdeed : w₁.deed shell own text = .shell)
    (he : w₁.createChild shell own = (.error e, w₂)) :
    Course shell own (w₂.write e.message) o w' → Course shell own w o w'
  /-- A child has ended. -/
  | resumed {own : SessionId} {w w₁ w₂ w₃ w' : World} {o oc : Outcome Unit} {text : String}
    {c : Session} (hask : w.ask shell own = (.line text, w₁))
    (hdeed : w₁.deed shell own text = .shell)
    (hc : w₁.createChild shell own = (.ok c, w₂)) :
    Course shell c.id w₂ oc w₃ → oc ≠ .aborted →
    Course shell own ((w₃.teardown c.id).2.writeAll oc.report) o w' → Course shell own w o w'
  /-- A child has been given up, and the session goes with it. -/
  | forsaken {own : SessionId} {w w₁ w₂ w' : World} {text : String} {c : Session}
    (hask : w.ask shell own = (.line text, w₁)) (hdeed : w₁.deed shell own text = .shell)
    (hc : w₁.createChild shell own = (.ok c, w₂)) :
    Course shell c.id w₂ .aborted w' → Course shell own w .aborted (w'.retire c.id)

section

variable {shell : Shell} {own : SessionId} {w w₁ : World} {l : Loop} {n k : Nat}

theorem execute_builtin (shell : Shell) (spawn : Spawn) (own : SessionId) (name : String)
    (b : Builtin) (a : Arguments) (w : World) :
    Command.execute shell spawn own ⟨name, .builtin b, a⟩ w =
      (Deed.ofBuiltin shell w.registry.find? own a b).perform spawn own w := by
  cases b with
  | help | exit | getCommand | hi => rfl
  | shell =>
    simp only [Command.execute, runBuiltin, Deed.ofBuiltin, Deed.perform]
    rcases spawn own w with ⟨_ | _ | _, w'⟩ <;> rfl
  | info =>
    simp only [Command.execute, runBuiltin, Deed.ofBuiltin, Deed.perform]
    rw [Registry.infoLines_eq]
  | prompt =>
    simp only [Command.execute, runBuiltin, Deed.ofBuiltin, Deed.perform, World.rename]
    cases w.registry.update own { prompt := some (newPrompt shell a) } <;> rfl

theorem failureLine_eq (name : String) (e : ModuleError) :
    Deed.failureLine name e = (ShellError.commandFailed name e.message).message := by
  cases e <;> rfl

theorem execute_module (shell : Shell) (spawn : Spawn) (own : SessionId) (name : String)
    (m : Module) (a : Arguments) (w : World) :
    Command.execute shell spawn own ⟨name, .module m, a⟩ w =
      (Deed.ofModule name (m.run w.now a)).perform spawn own w := by
  simp only [Command.execute, runModule, Deed.ofModule, Deed.perform]
  cases (m.run w.now a).failure with
  | none => simp
  | some e => simp [World.writeAll, failureLine_eq]

theorem lookUp_cases (shell : Shell) (spawn : Spawn) (own : SessionId) (line : String) (w : World) :
    (∃ message : Option String, Loop.lookUp shell line = .error message ∧
      w.deed shell own line = .say message.toList) ∨
    ∃ c, Loop.lookUp shell line = .ok c ∧
      c.execute shell spawn own w = (w.deed shell own line).perform spawn own w := by
  unfold Loop.lookUp World.deed Deed.ofLine
  dsimp only
  by_cases hempty : (CommandLine.parse line).command.isEmpty
  · exact .inl ⟨none, by simp [CommandLine.isEmpty, hempty], by simp [hempty]⟩
  · simp only [CommandLine.isEmpty, hempty]
    rcases hr : shell.resolver.resolve (CommandLine.parse line).command with reason | r
    · exact .inl ⟨_, rfl, rfl⟩
    · cases r with
      | builtin b => exact .inr ⟨_, rfl, execute_builtin shell spawn own _ b _ w⟩
      | core m => exact .inr ⟨_, rfl, execute_module shell spawn own _ m _ w⟩
      | external m => exact .inr ⟨_, rfl, execute_module shell spawn own _ m _ w⟩
      | unresolved => exact .inl ⟨_, rfl, rfl⟩

/-- The loops on at most `n` unread entries take their courses, given turns enough. -/
def LoopsRun (shell : Shell) (n : Nat) : Prop :=
  ∀ {turns : Nat} {own : SessionId} {l : Loop} {w : World}, l.state = .prompting →
    w.script.length ≤ n → 4 * n + 3 ≤ turns →
    Course shell own w (World.loop shell turns own l w).1 (World.loop shell turns own l w).2

theorem LoopsRun.follow {c : Command} {text : String} (h : LoopsRun shell n)
    (hl : l.state = .executing) (hpending : l.pending = some c) (hn : w₁.script.length ≤ n)
    (hk : 4 * n + 3 ≤ k) (hask : w.ask shell own = (.line text, w₁))
    (hexecute : c.execute shell (World.spawnBy shell fun id => World.loop shell k id {}) own w₁ =
      (w₁.deed shell own text).perform (World.spawnBy shell fun id => World.loop shell k id {})
        own w₁) :
    Course shell own w (World.loop shell (k + 1) own l w₁).1
      (World.loop shell (k + 1) own l w₁).2 := by
  rw [World.loop_executing hl hpending, hexecute]
  cases hdeed : w₁.deed shell own text with
  | say lines =>
    have hscript := (World.worldInvariant_script_le n).writeAll lines hn
    exact .said hask hdeed (h rfl hscript hk)
  | leave =>
    obtain ⟨i, rfl⟩ : ∃ i, k = i + 1 := ⟨k - 1, by omega⟩
    simp only [Deed.perform]
    rw [World.loop_terminating rfl]
    exact .left hask hdeed
  | prompt prompt =>
    have hscript := World.script_rename_le own prompt hn
    exact .renamed hask hdeed (h rfl hscript hk)
  | shell =>
    simp only [Deed.perform, World.spawnBy]
    have hscript := (World.worldInvariant_script_le n).createChild shell own hn
    rcases hc : w₁.createChild shell own with ⟨e | c, w₂⟩ <;> rw [hc] at hscript <;>
      dsimp only at hscript ⊢
    · have hscript := (World.worldInvariant_script_le n).write e.message hscript
      exact .refused hask hdeed hc (h rfl hscript hk)
    · have hchild : Course shell c.id w₂ (World.loop shell k c.id {} w₂).1
          (World.loop shell k c.id {} w₂).2 := h rfl hscript hk
      have hloop := World.script_loop_le shell k c.id {} hscript
      -- only a child that is given up takes its parent with it
      unfold World.drive
      dsimp only
      rcases hrun : World.loop shell k c.id {} w₂ with ⟨_ | e | _, w₃⟩ <;>
        rw [hrun] at hchild hloop <;> dsimp only at hchild hloop ⊢
      · have hscript := (World.worldInvariant_script_le n).teardown c.id hloop
        exact .resumed hask hdeed hc hchild nofun (h rfl hscript hk)
      · have hscript := (World.worldInvariant_script_le n).write e.message
          ((World.worldInvariant_script_le n).teardown c.id hloop)
        exact .resumed hask hdeed hc hchild nofun (h rfl hscript hk)
      · exact .forsaken hask hdeed hc hchild

/-- A loop shows its prompt and reads; what it makes of a line remains to be shown. -/
theorem course_of_reading (hl : l.state = .prompting)
    (hline : ∀ text w₁ l₁, w.ask shell own = (.line text, w₁) → l₁.state = .resolving →
      l₁.line = text → Course shell own w (World.loop shell (k + 1) own l₁ w₁).1
        (World.loop shell (k + 1) own l₁ w₁).2) :
    Course shell own w (World.loop shell (k + 3) own l w).1
      (World.loop shell (k + 3) own l w).2 := by
  rw [World.loop_prompting hl, World.loop_reading rfl]
  dsimp only
  rcases hr : w.read own (Loop.currentPrompt shell own w.registry) with
    ⟨text | _ | reason | _, w₁⟩ <;> dsimp only
  · exact hline text w₁ _ hr rfl rfl
  · rw [World.loop_terminating rfl]
    exact .stopped hr rfl
  · exact .stopped hr rfl
  · exact .stopped hr rfl

theorem loopsRun (shell : Shell) (n : Nat) : LoopsRun shell n := by
  -- a line leaves one unread entry fewer to the session and to the child that it may start
  induction n with
  | zero =>
    intro turns own l w hl hn hturns
    obtain ⟨k, rfl⟩ : ∃ k, turns = k + 3 := ⟨turns - 3, by omega⟩
    apply course_of_reading hl
    intro text w₁ l₁ hask
    have hlt := World.script_of_ask_line hask
    omega
  | succ n ih =>
    intro turns own l w hl hn hturns
    -- a line takes four turns: to prompt, read, resolve and execute
    obtain ⟨k, rfl⟩ : ∃ k, turns = k + 4 := ⟨turns - 4, by omega⟩
    have hk : 4 * n + 3 ≤ k := by omega
    apply course_of_reading hl
    intro text w₁ l₁ hask hl₁ htext
    have hlt := World.script_of_ask_line hask
    have hn₁ : w₁.script.length ≤ n := by omega
    rw [World.loop_resolving hl₁, htext]
    rcases lookUp_cases shell (World.spawnBy shell fun id => World.loop shell k id {}) own text w₁
      with ⟨message, hm, hdeed⟩ | ⟨c, hc, hexecute⟩
    · rw [hm]
      have hscript := (World.worldInvariant_script_le n).writeAll message.toList hn₁
      exact .said hask hdeed (ih rfl hscript (by omega))
    · rw [hc]
      exact ih.follow rfl rfl hn₁ hk hask hexecute

end

theorem World.course_of_run (shell : Shell) (own : SessionId) (w : World) :
    Course shell own w (w.run shell own).1 (w.run shell own).2 :=
  loopsRun shell w.script.length rfl (Nat.le_refl _) (Nat.le_refl _)

theorem Course.unique {shell : Shell} {own : SessionId} {w w' v : World} {o p : Outcome Unit}
    (h : Course shell own w o w') (h' : Course shell own w p v) : o = p ∧ w' = v := by
  -- both courses read the same, do the same deed and try the same child, so that every other way
  -- to begin is excluded; only whether the child was given up is known by its own course
  induction h generalizing p v with
  | stopped hask ho =>
    cases h' with
    | stopped hask' ho' =>
      cases hask.symm.trans hask'
      exact ⟨Option.some.inj (ho.symm.trans ho'), rfl⟩
    | left hask' | said hask' | renamed hask' | refused hask' | resumed hask' | forsaken hask' =>
      cases hask.symm.trans hask'
      cases ho
  | left hask hdeed =>
    cases h' with
    | stopped hask' ho' =>
      cases hask.symm.trans hask'
      cases ho'
    | left hask' =>
      cases hask.symm.trans hask'
      exact ⟨rfl, rfl⟩
    | said hask' hdeed' | renamed hask' hdeed' | refused hask' hdeed' | resumed hask' hdeed'
    | forsaken hask' hdeed' =>
      cases hask.symm.trans hask'
      cases hdeed.symm.trans hdeed'
  | said hask hdeed _ ih =>
    cases h' with
    | stopped hask' ho' =>
      cases hask.symm.trans hask'
      cases ho'
    | said hask' hdeed' hrest' =>
      cases hask.symm.trans hask'
      cases hdeed.symm.trans hdeed'
      exact ih hrest'
    | left hask' hdeed' | renamed hask' hdeed' | refused hask' hdeed' | resumed hask' hdeed'
    | forsaken hask' hdeed' =>
      cases hask.symm.trans hask'
      cases hdeed.symm.trans hdeed'
  | renamed hask hdeed _ ih =>
    cases h' with
    | stopped hask' ho' =>
      cases hask.symm.trans hask'
      cases ho'
    | renamed hask' hdeed' hrest' =>
      cases hask.symm.trans hask'
      cases hdeed.symm.trans hdeed'
      exact ih hrest'
    | left hask' hdeed' | said hask' hdeed' | refused hask' hdeed' | resumed hask' hdeed'
    | forsaken hask' hdeed' =>
      cases hask.symm.trans hask'
      cases hdeed.symm.trans hdeed'
  | refused hask hdeed he _ ih =>
    cases h' with
    | stopped hask' ho' =>
      cases hask.symm.trans hask'
      cases ho'
    | refused hask' _ he' hrest' =>
      cases hask.symm.trans hask'
      cases he.symm.trans he'
      exact ih hrest'
    | left hask' hdeed' | said hask' hdeed' | renamed hask' hdeed' =>
      cases hask.symm.trans hask'
      cases hdeed.symm.trans hdeed'
    | resumed hask' _ hc' | forsaken hask' _ hc' =>
      cases hask.symm.trans hask'
      cases he.symm.trans hc'
  | resumed hask hdeed hc _ hoc _ ihc ih =>
    cases h' with
    | stopped hask' ho' =>
      cases hask.symm.trans hask'
      cases ho'
    | resumed hask' _ hc' hchild' _ hrest' =>
      cases hask.symm.trans hask'
      cases hc.symm.trans hc'
      obtain ⟨rfl, rfl⟩ := ihc hchild'
      exact ih hrest'
    | left hask' hdeed' | said hask' hdeed' | renamed hask' hdeed' =>
      cases hask.symm.trans hask'
      cases hdeed.symm.trans hdeed'
    | refused hask' _ he' =>
      cases hask.symm.trans hask'
      cases hc.symm.trans he'
    | forsaken hask' _ hc' hchild' =>
      cases hask.symm.trans hask'
      cases hc.symm.trans hc'
      exact absurd (ihc hchild').1 hoc
  | forsaken hask hdeed hc _ ihc =>
    cases h' with
    | stopped hask' ho' =>
      cases hask.symm.trans hask'
      cases ho'
    | forsaken hask' _ hc' hchild' =>
      cases hask.symm.trans hask'
      cases hc.symm.trans hc'
      obtain ⟨-, rfl⟩ := ihc hchild'
      exact ⟨rfl, rfl⟩
    | left hask' hdeed' | said hask' hdeed' | renamed hask' hdeed' =>
      cases hask.symm.trans hask'
      cases hdeed.symm.trans hdeed'
    | refused hask' _ he' =>
      cases hask.symm.trans hask'
      cases hc.symm.trans he'
    | resumed hask' _ hc' hchild' hoc' =>
      cases hask.symm.trans hask'
      cases hc.symm.trans hc'
      exact absurd (ihc hchild').1.symm hoc'

theorem World.run_of_course {shell : Shell} {own : SessionId} {w w' : World} {o : Outcome Unit}
    (h : Course shell own w o w') : w.run shell own = (o, w') := by
  obtain ⟨ho, hw⟩ := (w.course_of_run shell own).unique h
  exact Prod.ext ho hw

theorem World.loop_eq_run {shell : Shell} {own : SessionId} {w : World} {turns : Nat}
    (h : 4 * w.script.length + 3 ≤ turns) : World.loop shell turns own {} w = w.run shell own :=
  (run_of_course (loopsRun shell w.script.length rfl (Nat.le_refl _) h)).symm

end SessionShell
