import Mathlib.Logic.Relation
import SessionShell.Proofs.Run.Course

namespace SessionShell

/-- The state in which a loop goes on after a command. -/
def Flow.state : Flow → LoopState
  | stay => .prompting
  | leave => .terminating

namespace Loop

variable {shell : Shell} {spawn : Spawn} {own : SessionId} {l : Loop} {w w' w₁ w₂ : World}
  {text : String}

/-- A turn leads a loop from one state and world to others. -/
def Goes (shell : Shell) (own : SessionId) (p q : Loop × World) : Prop :=
  p.1.next shell (World.spawnChild shell) own p.2 = (.ok q.1, q.2)

/-- The loop of a session that starts in `w` gets to a state, and to the world of then. -/
def Reaches (shell : Shell) (own : SessionId) (w : World) (p : Loop × World) : Prop :=
  Relation.ReflTransGen (Goes shell own) ({}, w) p

theorem goes_rightUnique (shell : Shell) (own : SessionId) :
    Relator.RightUnique (Goes shell own) := by
  intro p q q' h h'
  obtain ⟨hl, hw⟩ := Prod.mk.inj (h.symm.trans h')
  exact Prod.ext (Except.ok.inj hl) hw

theorem eq_of_ended {p q : Loop × World} {o : Outcome Unit}
    (hp : p.1.next shell (World.spawnChild shell) own p.2 = (.error o, w'))
    (h : Relation.ReflTransGen (Goes shell own) p q) : q = p := by
  rcases h.cases_head with rfl | ⟨p', hgoes, -⟩
  · rfl
  · cases hp.symm.trans hgoes

theorem execute_ne_failed {c : Command} {e : ShellError} :
    c.execute shell spawn own w ≠ (.failed e, w') := by
  unfold Command.execute
  dsimp only
  split
  · nofun
  · rename_i hne
    exact hne e w'

theorem reading_of_failed {e : ShellError}
    (h : l.next shell spawn own w = (.error (.failed e), w')) :
    l.state = .reading ∧ ∃ reason, w.read own l.prompt = (.failed reason, w') ∧
      e = .input reason := by
  cases hl : l.state with
  | prompting => cases (next_prompting hl w).symm.trans h
  | reading =>
    rw [next_reading hl] at h
    rcases hr : w.read own l.prompt with ⟨text | _ | reason | _, w₁⟩ <;> rw [hr] at h <;>
      cases h
    exact ⟨rfl, reason, rfl, rfl⟩
  | resolving =>
    rw [next_resolving hl] at h
    cases hr : lookUp shell l.line <;> rw [hr] at h <;> cases h
  | executing =>
    cases hc : l.pending with
    | none => cases (next_idle hl hc w).symm.trans h
    | some c =>
      rw [next_executing hl hc] at h
      rcases hr : c.execute shell spawn own w with ⟨(_ | _) | e' | _, w₁⟩ <;> rw [hr] at h <;>
        cases h
      exact absurd hr execute_ne_failed
  | terminating => cases (next_terminating hl w).symm.trans h

theorem pending_of_goes {p q : Loop × World} (h : Goes shell own p q)
    (hq : q.1.state = .executing) : q.1.pending.isSome := by
  obtain ⟨l, w⟩ := p
  obtain ⟨l', w'⟩ := q
  unfold Goes at h
  dsimp only at h hq ⊢
  -- the state of execution is entered from that of resolution only
  cases hl : l.state with
  | prompting =>
    cases (next_prompting hl w).symm.trans h
    cases hq
  | reading =>
    rw [next_reading hl] at h
    rcases hr : w.read own l.prompt with ⟨text | _ | reason | _, w₁⟩ <;> rw [hr] at h <;>
      cases h <;> cases hq
  | resolving =>
    rw [next_resolving hl] at h
    cases hr : lookUp shell l.line <;> rw [hr] at h <;> cases h
    · cases hq
    · rfl
  | executing =>
    cases hc : l.pending with
    | none =>
      cases (next_idle hl hc w).symm.trans h
      cases hq
    | some c =>
      rw [next_executing hl hc] at h
      rcases hr : c.execute shell (World.spawnChild shell) own w with ⟨(_ | _) | e' | _, w₁⟩ <;>
        rw [hr] at h <;> cases h <;> cases hq
  | terminating => cases (next_terminating hl w).symm.trans h

theorem Reaches.pending {p : Loop × World} (h : Reaches shell own w p)
    (hp : p.1.state = .executing) : p.1.pending.isSome := by
  rcases h.cases_tail with rfl | ⟨q, -, hgoes⟩
  · cases hp
  · exact pending_of_goes hgoes hp

/-- A loop that has read a line answers it at once, or gets to execute its command. -/
theorem line_cases (hl : l.state = .reading) (hread : w.read own l.prompt = (.line text, w₁)) :
    (∃ (message : Option String) (l' : Loop), w₁.deed shell own text = .say message.toList ∧
      l'.state = .prompting ∧
      Relation.ReflTransGen (Goes shell own) (l, w) (l', w₁.writeAll message.toList)) ∨
    ∃ (c : Command) (l' : Loop), l'.state = .executing ∧ l'.pending = some c ∧
      Relation.ReflTransGen (Goes shell own) (l, w) (l', w₁) ∧
      c.execute shell (World.spawnChild shell) own w₁ =
        (w₁.deed shell own text).perform (World.spawnChild shell) own w₁ := by
  have hline : Goes shell own (l, w) ({ l with state := .resolving, line := text }, w₁) := by
    rw [Goes, next_reading hl, hread]
  rcases lookUp_cases shell (World.spawnChild shell) own text w₁ with
    ⟨message, hm, hdeed⟩ | ⟨c, hc, hexecute⟩
  · have hanswer : Goes shell own ({ l with state := .resolving, line := text }, w₁)
        ({ l with state := .prompting, line := text }, w₁.writeAll message.toList) := by
      rw [Goes, next_resolving rfl, hm]
    exact .inl ⟨message, _, hdeed, rfl, .tail (.single hline) hanswer⟩
  · have hresolve : Goes shell own ({ l with state := .resolving, line := text }, w₁)
        ({ l with state := .executing, line := text, pending := some c }, w₁) := by
      rw [Goes, next_resolving rfl, hc]
    exact .inr ⟨c, _, rfl, rfl, .tail (.single hline) hresolve, hexecute⟩

theorem reaches_of_line {flow : Flow} (hl : l.state = .reading)
    (hread : w.read own l.prompt = (.line text, w₁))
    (hperform : (w₁.deed shell own text).perform (World.spawnChild shell) own w₁ = (.ok flow, w₂)) :
    ∃ l' : Loop, l'.state = flow.state ∧
      Relation.ReflTransGen (Goes shell own) (l, w) (l', w₂) := by
  rcases @line_cases shell own l w w₁ text hl hread with
    ⟨message, l', hdeed, hl', hgoes⟩ | ⟨c, l', hl', hpending, hgoes, hexecute⟩
  · rw [hdeed] at hperform
    cases hperform
    exact ⟨l', hl', hgoes⟩
  · rw [hperform] at hexecute
    have hflow : Goes shell own (l', w₁) ({ l' with state := flow.state, pending := none }, w₂) := by
      rw [Goes, next_executing hl' hpending, hexecute]
      cases flow <;> rfl
    exact ⟨_, rfl, .tail hgoes hflow⟩

theorem aborted_of_line (hl : l.state = .reading)
    (hread : w.read own l.prompt = (.line text, w₁))
    (hperform : (w₁.deed shell own text).perform (World.spawnChild shell) own w₁ = (.aborted, w₂)) :
    ∃ l' : Loop, Relation.ReflTransGen (Goes shell own) (l, w) (l', w₁) ∧
      l'.next shell (World.spawnChild shell) own w₁ = (.error .aborted, w₂) := by
  rcases @line_cases shell own l w w₁ text hl hread with
    ⟨message, l', hdeed, -, -⟩ | ⟨c, l', hl', hpending, hgoes, hexecute⟩
  · rw [hdeed] at hperform
    cases hperform
  · rw [hperform] at hexecute
    refine ⟨l', hgoes, ?_⟩
    rw [next_executing hl' hpending, hexecute]

theorem goes_of_prompting (hl : l.state = .prompting) (w : World) :
    ∃ l₁ : Loop, l₁.state = .reading ∧ Goes shell own (l, w) (l₁, w) ∧
      w.read own l₁.prompt = w.ask shell own :=
  ⟨_, rfl, next_prompting hl w, rfl⟩

theorem reaches_of_deed {flow : Flow} {d : Deed} (hl : l.state = .prompting)
    (hask : w.ask shell own = (.line text, w₁)) (hdeed : w₁.deed shell own text = d)
    (hperform : d.perform (World.spawnChild shell) own w₁ = (.ok flow, w₂)) :
    ∃ l' : Loop, l'.state = flow.state ∧
      Relation.ReflTransGen (Goes shell own) (l, w) (l', w₂) := by
  obtain ⟨l₁, hl₁, hgoes, hread⟩ := @goes_of_prompting shell own l hl w
  obtain ⟨l₂, hl₂, hgoes₂⟩ := reaches_of_line hl₁ (hread.trans hask) (hdeed ▸ hperform)
  exact ⟨l₂, hl₂, .head hgoes hgoes₂⟩

end Loop

namespace World

variable {shell : Shell} {own : SessionId} {w w₁ w₂ : World} {c : Session} {e : ShellError}

theorem perform_shell_of_refused (h : w.createChild shell own = (.error e, w₁)) :
    Deed.shell.perform (spawnChild shell) own w = (.ok .stay, w₁.write e.message) := by
  simp only [Deed.perform, spawnChild, spawnBy, h]

theorem perform_shell_of_ended {oc : Outcome Unit} (hc : w.createChild shell own = (.ok c, w₁))
    (hrun : w₁.run shell c.id = (oc, w₂)) (hoc : oc ≠ .aborted) :
    Deed.shell.perform (spawnChild shell) own w =
      (.ok .stay, (w₂.teardown c.id).2.writeAll oc.report) := by
  simp only [Deed.perform, spawnChild, spawnBy, hc, drive, hrun]
  cases oc with
  | ok | failed => rfl
  | aborted => exact absurd rfl hoc

theorem perform_shell_of_aborted (hc : w.createChild shell own = (.ok c, w₁))
    (hrun : w₁.run shell c.id = (.aborted, w₂)) :
    Deed.shell.perform (spawnChild shell) own w = (.aborted, w₂.retire c.id) := by
  simp only [Deed.perform, spawnChild, spawnBy, hc, drive, hrun]

end World

/-- The loop of a session goes along its course, and ends where it ends. -/
theorem Course.reaches {shell : Shell} {own : SessionId} {w w' : World} {o : Outcome Unit}
    (h : Course shell own w o w') {l : Loop} (hl : l.state = .prompting) :
    ∃ p, Relation.ReflTransGen (Loop.Goes shell own) (l, w) p ∧
      p.1.next shell (World.spawnChild shell) own p.2 = (.error o, w') := by
  induction h generalizing l with
  | @stopped own w w' r o hask ho =>
    obtain ⟨l₁, hl₁, hgoes, hread⟩ := @Loop.goes_of_prompting shell own l hl w
    rw [hask] at hread
    cases r with
    | line text => cases ho
    | endOfInput =>
      cases ho
      have hended : Loop.Goes shell own (l₁, w) ({ l₁ with state := .terminating }, w') := by
        rw [Loop.Goes, Loop.next_reading hl₁, hread]
      exact ⟨_, .tail (.single hgoes) hended, Loop.next_terminating rfl w'⟩
    | failed | aborted =>
      cases ho
      refine ⟨_, .single hgoes, ?_⟩
      rw [Loop.next_reading hl₁, hread]
  | @left own w w' text hask hdeed =>
    obtain ⟨l₁, hl₁, hgoes⟩ := Loop.reaches_of_deed hl hask hdeed rfl
    exact ⟨_, hgoes, Loop.next_terminating hl₁ w'⟩
  | said hask hdeed _ ih =>
    obtain ⟨l₁, hl₁, hgoes⟩ := Loop.reaches_of_deed hl hask hdeed rfl
    obtain ⟨p, hp, hend⟩ := ih hl₁
    exact ⟨p, hgoes.trans hp, hend⟩
  | renamed hask hdeed _ ih =>
    obtain ⟨l₁, hl₁, hgoes⟩ := Loop.reaches_of_deed hl hask hdeed rfl
    obtain ⟨p, hp, hend⟩ := ih hl₁
    exact ⟨p, hgoes.trans hp, hend⟩
  | refused hask hdeed he _ ih =>
    have hperform := World.perform_shell_of_refused he
    obtain ⟨l₁, hl₁, hgoes⟩ := Loop.reaches_of_deed hl hask hdeed hperform
    obtain ⟨p, hp, hend⟩ := ih hl₁
    exact ⟨p, hgoes.trans hp, hend⟩
  | resumed hask hdeed hc hchild hoc _ _ ih =>
    have hperform := World.perform_shell_of_ended hc (World.run_of_course hchild) hoc
    obtain ⟨l₁, hl₁, hgoes⟩ := Loop.reaches_of_deed hl hask hdeed hperform
    obtain ⟨p, hp, hend⟩ := ih hl₁
    exact ⟨p, hgoes.trans hp, hend⟩
  | @forsaken own w w₁ w₂ w' text c hask hdeed hc hchild _ =>
    have hperform := World.perform_shell_of_aborted hc (World.run_of_course hchild)
    obtain ⟨l₁, hl₁, hgoes, hread⟩ := @Loop.goes_of_prompting shell own l hl w
    obtain ⟨l₂, hgoes₂, hend⟩ := Loop.aborted_of_line hl₁ (hread.trans hask) (hdeed ▸ hperform)
    exact ⟨_, .head hgoes hgoes₂, hend⟩

theorem World.run_iff_reaches {shell : Shell} {own : SessionId} {w w' : World} {o : Outcome Unit} :
    w.run shell own = (o, w') ↔ ∃ p, Loop.Reaches shell own w p ∧
      p.1.next shell (spawnChild shell) own p.2 = (.error o, w') := by
  obtain ⟨q, hq, hqend⟩ := (w.course_of_run shell own).reaches (l := {}) rfl
  constructor
  · rintro h
    rw [h] at hqend
    exact ⟨q, hq, hqend⟩
  · rintro ⟨p, hp, hpend⟩
    have hpq : p = q := by
      rcases Relation.ReflTransGen.total_of_right_unique (Loop.goes_rightUnique shell own) hp hq with
        h | h
      · exact (Loop.eq_of_ended hpend h).symm
      · exact Loop.eq_of_ended hqend h
    rw [hpq, hqend] at hpend
    obtain ⟨ho, hw⟩ := Prod.mk.inj hpend
    exact Prod.ext (Except.error.inj ho) hw

/-- What can go wrong with a line: a message about it is due, in the world that it leaves. -/
inductive Fault (shell : Shell) (own : SessionId) (text : String) (w : World) : String → World → Prop
  | unknown (hname : (CommandLine.parse text).command.isEmpty = false)
    (hr : shell.resolver.resolve (CommandLine.parse text).command = .ok .unresolved) :
    Fault shell own text w
      (ShellError.commandNotFound (CommandLine.parse text).command).message w
  | unloadable {reason : String} (hname : (CommandLine.parse text).command.isEmpty = false)
    (hr : shell.resolver.resolve (CommandLine.parse text).command = .error reason) :
    Fault shell own text w
      (ShellError.loadFailure (CommandLine.parse text).command reason).message w
  /-- A module fails after it has written its lines. -/
  | failed {r : Resolution} {m : Module} {e : ModuleError}
    (hname : (CommandLine.parse text).command.isEmpty = false)
    (hr : shell.resolver.resolve (CommandLine.parse text).command = .ok r)
    (hm : r.handler? = some (.module m))
    (he : (m.run w.now (CommandLine.parse text).arguments).failure = some e) :
    Fault shell own text w
      (ShellError.commandFailed (CommandLine.parse text).command e.message).message
      (w.writeAll (m.run w.now (CommandLine.parse text).arguments).lines)
  /-- The session itself is gone when its prompt is to be changed. -/
  | vanished (hname : (CommandLine.parse text).command.isEmpty = false)
    (hr : shell.resolver.resolve (CommandLine.parse text).command = .ok (.builtin .prompt))
    (hown : w.registry.find? own = none) :
    Fault shell own text w (ShellError.sessionNotFound own).message w
  /-- The session itself is gone when it is to be described. -/
  | unseen (hname : (CommandLine.parse text).command.isEmpty = false)
    (hr : shell.resolver.resolve (CommandLine.parse text).command = .ok (.builtin .info))
    (hself : (CommandLine.parse text).arguments.positional = [])
    (hown : w.registry.find? own = none) :
    Fault shell own text w ("session " ++ own.text ++ " not found") w
  /-- No child is created. -/
  | refused {e : ShellError} {w' : World}
    (hname : (CommandLine.parse text).command.isEmpty = false)
    (hr : shell.resolver.resolve (CommandLine.parse text).command = .ok (.builtin .shell))
    (he : w.createChild shell own = (.error e, w')) : Fault shell own text w e.message w'
  /-- A child fails, and is torn down. -/
  | childFailed {c : Session} {e : ShellError} {w₁ w₂ : World}
    (hname : (CommandLine.parse text).command.isEmpty = false)
    (hr : shell.resolver.resolve (CommandLine.parse text).command = .ok (.builtin .shell))
    (hc : w.createChild shell own = (.ok c, w₁)) (he : w₁.run shell c.id = (.failed e, w₂)) :
    Fault shell own text w e.message (w₂.teardown c.id).2

theorem Fault.perform {shell : Shell} {own : SessionId} {text message : String} {w w' : World}
    (h : Fault shell own text w message w') :
    (w.deed shell own text).perform (World.spawnChild shell) own w =
      (.ok .stay, w'.write message) := by
  cases h with
  | unknown hname hr | unloadable hname hr =>
    simp only [World.deed, Deed.ofLine, hname, hr]
    rfl
  | @failed r m e hname hr hm he =>
    have hdeed : w.deed shell own text =
        .ofModule (CommandLine.parse text).command
          (m.run w.now (CommandLine.parse text).arguments) := by
      cases r with
      | builtin | unresolved => cases hm
      | core | external =>
        cases hm
        simp [World.deed, Deed.ofLine, hname, hr]
    simp [hdeed, Deed.ofModule, he, Deed.perform, World.writeAll, failureLine_eq]
  | vanished hname hr hown =>
    simp [World.deed, Deed.ofLine, hname, hr, Deed.ofBuiltin, Deed.perform,
      World.rename_of_missing hown]
  | unseen hname hr hself hown =>
    simp [World.deed, Deed.ofLine, hname, hr, Deed.ofBuiltin, Deed.ofInfo, hself, hown,
      Deed.perform, World.writeAll]
  | refused hname hr he =>
    have hdeed : w.deed shell own text = .shell := by
      simp [World.deed, Deed.ofLine, hname, hr, Deed.ofBuiltin]
    rw [hdeed, World.perform_shell_of_refused he]
  | childFailed hname hr hc he =>
    have hdeed : w.deed shell own text = .shell := by
      simp [World.deed, Deed.ofLine, hname, hr, Deed.ofBuiltin]
    rw [hdeed, World.perform_shell_of_ended hc he (by simp)]
    rfl

/-- A run fails if and only if a read of its own session does, with what that failed with, and its
loop executes nothing but what it has resolved. Whatever else goes wrong with a line is written, and
the loop reads again. -/
theorem World.run_failed_iff (shell : Shell) (own : SessionId) (w : World) :
    (∀ e, (w.run shell own).1 = .failed e ↔ ∃ p reason, Loop.Reaches shell own w p ∧
      p.1.state = .reading ∧ (p.2.read own p.1.prompt).1 = .failed reason ∧ e = .input reason) ∧
    ∀ p, Loop.Reaches shell own w p →
      (p.1.state = .executing → p.1.pending.isSome) ∧
      (∀ source target, (p.1.next shell (spawnChild shell) own p.2).1 ≠
        .error (.failed (.invalidStep source target))) ∧
      ∀ text w₁ message w₂, p.1.state = .reading →
        p.2.read own p.1.prompt = (.line text, w₁) → Fault shell own text w₁ message w₂ →
        ∃ l : Loop, Loop.Reaches shell own w (l, w₂.write message) ∧ l.state = .reading := by
  refine ⟨fun e => ⟨fun h => ?_, ?_⟩, fun p hp => ⟨hp.pending, fun source target h => ?_, ?_⟩⟩
  · have hrun : w.run shell own = (.failed e, (w.run shell own).2) := Prod.ext h rfl
    obtain ⟨p, hp, hend⟩ := run_iff_reaches.1 hrun
    obtain ⟨hl, reason, hread, he⟩ := Loop.reading_of_failed hend
    exact ⟨p, reason, hp, hl, by rw [hread], he⟩
  · rintro ⟨p, reason, hp, hl, hread, rfl⟩
    have hend : p.1.next shell (spawnChild shell) own p.2 =
        (.error (.failed (.input reason)), (p.2.read own p.1.prompt).2) := by
      rw [Loop.next_reading hl]
      rcases hr : p.2.read own p.1.prompt with ⟨r, w'⟩
      rw [hr] at hread
      cases hread
      rfl
    rw [run_iff_reaches.2 ⟨p, hp, hend⟩]
  · obtain ⟨-, reason, -, he⟩ := Loop.reading_of_failed (Prod.ext h rfl)
    cases he
  · intro text w₁ message w₂ hl hread hfault
    obtain ⟨l₁, hl₁, hgoes⟩ := Loop.reaches_of_line hl hread hfault.perform
    exact ⟨_, .tail (hp.trans hgoes) (Loop.next_prompting hl₁ _), rfl⟩

-- a child fails to read, and its parent meets the end of the input after it
example :
    let w := ((World.start (.start ⟨0⟩) [⟨[], .line "shell"⟩, ⟨[], .failed "gone"⟩]
      fun _ => []).openTop .bare).2
    [.input ⟨0, 2⟩ (.failed "gone"), .write "I/O error: gone", .input ⟨0, 1⟩ .endOfInput].Sublist
      w.events := by
  decide +kernel

end SessionShell
