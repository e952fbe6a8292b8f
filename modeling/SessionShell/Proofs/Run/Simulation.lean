import SessionShell.Proofs.Run.Course

namespace SessionShell

/-- What an event puts on the terminal. -/
def Event.display? : Event → Option Display
  | prompt session text _ => some (.prompt session text)
  | write line => some (.line line)
  | _ => none

namespace World

variable {w w' : World} {shell : Shell}

/-- What an evaluation sees of a world. -/
def tape (w : World) : Tape where
  ids := w.ids
  now := w.now
  unread := w.script
  onWrite := w.onWrite
  written := w.written
  shown := w.log.filterMap Event.display?

theorem Quiet.tape_write (h : w.Quiet) (line : String) : (w.write line).tape = w.tape.say line := by
  obtain ⟨replies, hreplies, e⟩ := h.write_eq line
  rw [e]
  simp [tape, Tape.say, List.filterMap_append, Event.display?,
    filterMap_replies (f := Event.display?) (fun _ _ => rfl) hreplies]

theorem Quiet.tape_writeAll (h : w.Quiet) (lines : List String) :
    (w.writeAll lines).tape = w.tape.sayAll lines := by
  induction lines generalizing w with
  | nil => rfl
  | cons line lines ih =>
    have hw : (w.write line).Quiet := (Still.write ⟨h, rfl, rfl⟩ line).quiet
    have hrest := ih hw
    rw [h.tape_write] at hrest
    exact hrest

theorem Quiet.tape_birthNotice (h : w.Quiet) (s : Session) :
    (w.writeAll s.birthNotice).tape = w.tape.announce s := by
  rw [h.tape_writeAll, Session.birthNotice_eq]
  rfl

theorem Quiet.tape_deathNotice (h : w.Quiet) (s : Session) :
    (w.writeAll s.deathNotice).tape = w.tape.dismiss s := by
  rw [h.tape_writeAll, Session.deathNotice_eq]
  rfl

theorem Quiet.tape_read (h : w.Quiet) (own : SessionId) (prompt : String) :
    w.tape.ask own prompt = ((w.read own prompt).1, (w.read own prompt).2.tape) := by
  cases hs : w.script with
  | nil =>
    rw [read_of_nil hs]
    simp [tape, Tape.ask, hs, World.record, List.filterMap_cons, Event.display?]
  | cons entry rest =>
    obtain ⟨replies, hreplies, e⟩ := h.read_eq hs own prompt
    rw [e]
    simp [tape, Tape.ask, hs, List.filterMap_append, List.filterMap_cons, Event.display?,
      filterMap_replies (f := Event.display?) (fun _ _ => rfl) hreplies]

theorem Quiet.script_writeAll (h : w.Quiet) (lines : List String) :
    (w.writeAll lines).script = w.script :=
  (congrArg Tape.unread (h.tape_writeAll lines)).trans (Tape.unread_sayAll w.tape lines)

@[simp] theorem tape_now (w : World) : w.tape.now = w.now := rfl

@[simp] theorem tape_ids (w : World) : w.tape.ids = w.ids := rfl

theorem tape_setRegistry (w : World) (r : Registry) : (w.setRegistry r).tape = w.tape := rfl

end World

/-- A run in a quiet world ends as an evaluation does, with a registry of which `R` holds. -/
structure Agrees {α : Type} (R : Registry → Prop) (got : Outcome α × World)
    (want : Outcome α × Tape) : Prop where
  outcome : got.1 = want.1
  tape : got.2.tape = want.2
  quiet : got.2.Quiet
  registry : R got.2.registry

/-- How a loop carries out what a line makes its session do. -/
def Deed.carryOut (spawn : Spawn) (own : SessionId) (w : World) : Deed → Outcome Flow × World
  | .say lines => (.ok .stay, w.writeAll lines)
  | .leave => (.ok .leave, w)
  | .prompt text => (.ok .stay, w.setRegistry (w.registry.change own { prompt := some text }))
  | .shell =>
    match spawn own w with
    | (.ok _, w) => (.ok .stay, w)
    | (.failed e, w) => (.ok .stay, w.write e.message)
    | (.aborted, w) => (.aborted, w)

section

variable {shell : Shell} {w w' : World} {r : Registry} {c : Session} {known : Known}
  {own : SessionId} {prompt : String}

/-- A session that has been run is withdrawn as if its prompt had never changed. -/
theorem retire_reprompted (hq : w.Quiet) (hc : r.find? c.id = some c)
    (hw : r.Reprompted c.id w.registry) :
    (w.retire c.id).Quiet ∧ (w.retire c.id).registry = r.withdraw c ∧
      (w.retire c.id).tape = w.tape := by
  obtain ⟨p, hp⟩ := hw
  have hfind : w.registry.find? c.id = some (c.change { prompt := p }) :=
    hp ▸ Registry.find?_change_self hc _
  obtain ⟨hquiet, hregistry, -⟩ := World.Still.retire ⟨hq, rfl, rfl⟩ hfind
  refine ⟨hquiet, ?_, ?_⟩
  · rw [hregistry, hp, Registry.withdraw_change]
  · rw [World.retire_of_find? hfind]
    rfl

theorem teardown_reprompted (hc : r.find? c.id = some c) (hchild : c.child = none)
    (hw : r.Reprompted c.id w.registry) :
    (w.teardown c.id).2 = (w.retire c.id).writeAll c.deathNotice := by
  obtain ⟨p, hp⟩ := hw
  have hfind : w.registry.find? c.id = some (c.change { prompt := p }) :=
    hp ▸ Registry.find?_change_self hc _
  rw [World.teardown_of_childless hfind hchild]
  rfl

theorem drive_agrees {run : SessionId → World → Outcome Unit × World}
    {want : Outcome Unit × Tape} (hc : r.find? c.id = some c) (hchild : c.child = none)
    (h : Agrees (r.Reprompted c.id) (run c.id w) want) :
    Agrees (· = r.withdraw c) (w.drive run c.id) (Tape.close c want) := by
  obtain ⟨o, t⟩ := want
  obtain ⟨houtcome, htape, hquiet, hregistry⟩ := h
  rcases hrun : run c.id w with ⟨o', w'⟩
  rw [hrun] at houtcome htape hquiet hregistry
  cases houtcome
  cases htape
  obtain ⟨hretired, hwithdrawn, hsame⟩ := retire_reprompted hquiet hc hregistry
  have hnotice := World.Still.writeAll ⟨hretired, hwithdrawn, rfl⟩ c.deathNotice
  have hshown := hretired.tape_deathNotice c
  rw [hsame] at hshown
  unfold World.drive
  rw [hrun]
  cases o with
  | ok =>
    dsimp only
    rw [teardown_reprompted hc hchild hregistry]
    exact ⟨rfl, hshown, hnotice.quiet, hnotice.registry⟩
  | failed e =>
    dsimp only
    rw [teardown_reprompted hc hchild hregistry]
    exact ⟨rfl, hshown, hnotice.quiet, hnotice.registry⟩
  | aborted => exact ⟨rfl, hsame, hretired, hwithdrawn⟩

/-- The runs of sessions on at most `n` unread entries that evaluations agree with. -/
def Evaluates (shell : Shell) (n : Nat) (run : SessionId → World → Outcome Unit × World)
    (ev : Known → SessionId → Tape → Outcome Unit × Tape) : Prop :=
  ∀ known own w, w.Quiet → w.registry.Mirrors known own shell.prompt → w.script.length ≤ n →
    Agrees (w.registry.Reprompted own) (run own w) (ev known own w.tape)

/-- After its birth notice a session has been added to the registry; nothing else has changed. -/
theorem enter_quiet (hq : w.Quiet) (c : Session) (ids : IdSource) :
    ((w.enter c ids).writeAll c.birthNotice).Quiet ∧
      ((w.enter c ids).writeAll c.birthNotice).registry = w.registry.insert c ∧
      ((w.enter c ids).writeAll c.birthNotice).tape =
        Tape.announce { w.tape with ids } c ∧
      ((w.enter c ids).writeAll c.birthNotice).script = w.script := by
  have henter : (w.enter c ids).Quiet := hq
  have hstill := World.Still.writeAll ⟨henter, rfl, rfl⟩ c.birthNotice
  exact ⟨hstill.quiet, hstill.registry, henter.tape_birthNotice c, henter.script_writeAll _⟩

theorem find?_of_firstFree {spare : Nat} {t : Instant} {ids ids' : IdSource} {id : SessionId}
    (h : IdSource.firstFree r.contains t spare ids = (.ok id, ids')) : r.find? id = none := by
  have hfree := ((IdSource.firstFree_spec h).2 id rfl).1
  rw [Keyed.contains_eq] at hfree
  exact Option.isNone_iff_eq_none.1 (Option.isSome_eq_false_iff.1 hfree)

/-- A new session agrees with its evaluation if it is registered and, once withdrawn, leaves `r`. -/
theorem newborn_agrees {n : Nat} {run : SessionId → World → Outcome Unit × World}
    {ev : Known → SessionId → Tape → Outcome Unit × Tape} (hrun : Evaluates shell n run ev)
    (hq : w.Quiet) (hn : w.script.length ≤ n) (hc : w.registry.find? c.id = some c)
    (hchild : c.child = none) (hprompt : c.prompt = shell.prompt) (hk : w.registry.Holds known)
    (hr : w.registry.withdraw c = r) :
    Agrees (· = r) (w.drive run c.id) (Tape.close c (ev known c.id w.tape)) := by
  subst hr
  exact drive_agrees hc hchild (hrun known c.id w hq ⟨⟨c, hc, hprompt, hchild⟩, hk⟩ hn)

theorem openBy_agrees {n : Nat} {run : SessionId → World → Outcome Unit × World}
    {ev : Known → SessionId → Tape → Outcome Unit × Tape} (hrun : Evaluates shell n run ev)
    (hq : w.Quiet) (hk : w.registry.Holds known) (hn : w.script.length ≤ n) :
    Agrees (· = w.registry) (w.openBy shell run) (w.tape.session shell ev known none) := by
  unfold World.openBy Tape.session
  rw [World.create_eq, ← hk.contains_eq, World.tape_now, World.tape_ids]
  rcases hf : IdSource.firstFree w.registry.contains w.now (World.maxCandidates - 1) w.ids with
    ⟨id | id, ids⟩
  · exact ⟨rfl, rfl, hq, rfl⟩
  · have hfree : w.registry.find? id = none := find?_of_firstFree hf
    obtain ⟨hq₁, hr₁, ht₁, hscript⟩ := enter_quiet hq (shell.newborn id w.now none) ids
    have hfind : Keyed.find? (w.registry.insert (shell.newborn id w.now none)) id =
        some (shell.newborn id w.now none) := by
      rw [Keyed.find?_insert]
      exact if_pos rfl
    have hagrees := newborn_agrees (c := shell.newborn id w.now none) hrun hq₁
      (hscript.symm ▸ hn) (hr₁ ▸ hfind) rfl rfl (hr₁ ▸ hk.insert rfl)
      (hr₁ ▸ Registry.withdraw_insert hfree rfl)
    rw [ht₁] at hagrees
    exact hagrees

theorem spawnBy_agrees {n : Nat} {run : SessionId → World → Outcome Unit × World}
    {ev : Known → SessionId → Tape → Outcome Unit × Tape} (hrun : Evaluates shell n run ev)
    (hq : w.Quiet) (hm : w.registry.Mirrors known own prompt) (hn : w.script.length ≤ n) :
    Agrees (· = w.registry) (World.spawnBy shell run own w)
      (w.tape.session shell ev known (some own)) := by
  obtain ⟨⟨s, hs, -, hchild⟩, hk⟩ := hm
  unfold World.spawnBy Tape.session
  rw [World.Still.createChild_eq ⟨hq, rfl, rfl⟩ hs hchild, World.create_eq, ← hk.contains_eq,
    World.tape_now, World.tape_ids]
  rcases hf : IdSource.firstFree w.registry.contains w.now (World.maxCandidates - 1) w.ids with
    ⟨id | id, ids⟩
  · exact ⟨rfl, rfl, hq, rfl⟩
  · have hfree : w.registry.find? id = none := find?_of_firstFree hf
    have hne : id ≠ own := Keyed.ne_of_missing hfree hs
    obtain ⟨hq₁, -, ht₁, hscript⟩ := enter_quiet hq (shell.newborn id w.now (some own)) ids
    have hfind : (w.registry.adopt own (shell.newborn id w.now (some own))).find? id =
        some (shell.newborn id w.now (some own)) := by
      rw [Registry.find?_adopt, if_neg hne.symm]
      exact if_pos rfl
    have hlinked : (((w.enter (shell.newborn id w.now (some own)) ids).writeAll _).setRegistry
        (w.registry.adopt own (shell.newborn id w.now (some own)))).script.length ≤ n :=
      hscript ▸ hn
    have hagrees := newborn_agrees (c := shell.newborn id w.now (some own)) hrun
      (World.Still.setRegistry ⟨hq₁, rfl, rfl⟩ (w.registry.adopt own _)).quiet hlinked hfind rfl rfl
      (hk.adopt rfl hne) (Registry.withdraw_adopt hfree rfl hs hchild)
    rw [World.tape_setRegistry, ht₁] at hagrees
    exact hagrees

theorem Deed.perform_eq (hm : w.registry.Mirrors known own prompt) (spawn : Spawn) (d : Deed) :
    d.perform spawn own w = d.carryOut spawn own w := by
  obtain ⟨⟨s, hs, -⟩, -⟩ := hm
  cases d with
  | say lines | leave | shell => rfl
  | prompt text =>
    simp only [perform, carryOut]
    rw [World.rename_of_find? hs]

theorem Registry.Holds.deed_eq (shell : Shell) (hk : w.registry.Holds known) (line : String) :
    w.deed shell own line = Deed.ofLine shell known own w.now line := by
  unfold World.deed Deed.ofLine
  dsimp only
  split
  · rfl
  · cases shell.resolver.resolve (CommandLine.parse line).command with
    | error reason => rfl
    | ok r =>
      cases r with
      | core m | external m | unresolved => rfl
      | builtin b =>
        cases b with
        | help | exit | getCommand | hi | shell | prompt => rfl
        | info =>
          simp only [Deed.ofBuiltin]
          rw [← Registry.infoLines_eq, hk.infoLines_eq]

theorem lookUp_spec (shell : Shell) (hm : w.registry.Mirrors known own prompt) (line : String)
    (spawn : Spawn) :
    (∃ message : Option String, Loop.lookUp shell line = .error message ∧
      Deed.ofLine shell known own w.now line = .say message.toList) ∨
    ∃ c, Loop.lookUp shell line = .ok c ∧ c.execute shell spawn own w =
      (Deed.ofLine shell known own w.now line).carryOut spawn own w := by
  rw [← hm.holds.deed_eq shell line, ← Deed.perform_eq hm]
  exact lookUp_cases shell spawn own line w

/-- The loops on at most `n` unread entries agree with the evaluation, given turns enough. -/
def LoopsAgree (shell : Shell) (n : Nat) : Prop :=
  ∀ {turns : Nat} {own : SessionId} {l : Loop} {w : World} {known : Known} {prompt : String},
    l.state = .prompting → w.Quiet → w.registry.Mirrors known own prompt → w.script.length ≤ n →
    4 * n + 3 ≤ turns → Agrees (w.registry.Reprompted own) (World.loop shell turns own l w)
      (Tape.evaluate shell known own prompt w.tape)

namespace LoopsAgree

variable {n j : Nat} {l : Loop}

theorem evaluates (h : LoopsAgree shell n) (hj : 4 * n + 3 ≤ j) :
    Evaluates shell n (fun id => World.loop shell j id {}) fun known own =>
      Tape.evaluate shell known own shell.prompt :=
  fun _ _ _ hq hm hn => h rfl hq hm hn hj

/-- From a world that differs from `w` in the prompt of the session at most, the loop goes on as the
evaluation does. -/
theorem resume (h : LoopsAgree shell n) (hl : l.state = .prompting) {w₁ : World} (hq : w₁.Quiet)
    (hm : w₁.registry.Mirrors known own prompt) (hn : w₁.script.length ≤ n) (hj : 4 * n + 3 ≤ j)
    (hr : w.registry.Reprompted own w₁.registry) :
    Agrees (w.registry.Reprompted own) (World.loop shell j own l w₁)
      (Tape.evaluate shell known own prompt w₁.tape) := by
  obtain ⟨houtcome, htape, hquiet, hregistry⟩ := h hl hq hm hn hj
  exact ⟨houtcome, htape, hquiet, hr.trans hregistry⟩

theorem say (h : LoopsAgree shell n) (hl : l.state = .prompting) (hq : w.Quiet)
    (hm : w.registry.Mirrors known own prompt) (hn : w.script.length ≤ n) (hj : 4 * n + 3 ≤ j)
    (lines : List String) :
    Agrees (w.registry.Reprompted own) (World.loop shell j own l (w.writeAll lines))
      (Tape.evaluate shell known own prompt (w.tape.sayAll lines)) := by
  obtain ⟨hquiet, hregistry, -⟩ := World.Still.writeAll ⟨hq, rfl, rfl⟩ lines
  rw [← hq.tape_writeAll]
  exact h.resume hl hquiet (hregistry ▸ hm) (hq.script_writeAll lines ▸ hn) hj
    (hregistry ▸ .refl _ _)

/-- Executing a command agrees with what the evaluation makes follow from its line. -/
theorem follow (h : LoopsAgree shell n) {c : Command} {d : Deed} (hl : l.state = .executing)
    (hc : l.pending = some c) (hq : w.Quiet) (hm : w.registry.Mirrors known own prompt)
    (hn : w.script.length ≤ n) (hj : 4 * n + 3 ≤ j)
    (hd : c.execute shell (World.spawnBy shell fun id => World.loop shell j id {}) own w =
      d.carryOut (World.spawnBy shell fun id => World.loop shell j id {}) own w) :
    Agrees (w.registry.Reprompted own) (World.loop shell (j + 1) own l w)
      (w.tape.follow shell (Tape.evaluate shell) known own prompt d) := by
  rw [World.loop_executing hl hc, hd]
  cases d with
  | say lines => exact h.say rfl hq hm hn hj lines
  | leave =>
    obtain ⟨i, rfl⟩ : ∃ i, j = i + 1 := ⟨j - 1, by omega⟩
    show Agrees _ (World.loop shell (i + 1) own _ w) _
    rw [World.loop_terminating rfl]
    exact ⟨rfl, rfl, hq, .refl _ _⟩
  | prompt text =>
    have hr : w.registry.Reprompted own (w.registry.change own { prompt := some text }) := ⟨_, rfl⟩
    obtain ⟨⟨s, hs, -, hchild⟩, hk⟩ := hm
    have hown : (w.registry.change own { prompt := some text }).find? own =
        some (s.change { prompt := some text }) := Registry.find?_change_self hs _
    have hset : (w.setRegistry (w.registry.change own { prompt := some text })).Quiet := hq
    exact h.resume rfl hset ⟨⟨_, hown, rfl, hchild⟩, hk.reprompted hr⟩ hn hj hr
  | shell =>
    -- the child leaves the registry as it found it, and no more entries to read
    have hspawn := spawnBy_agrees (h.evaluates hj) hq hm hn
    have hleft := Tape.unread_session_le
      (fun known c t => Tape.consumes_evaluate shell known c shell.prompt t) shell known (some own)
      w.tape
    simp only [Deed.carryOut, Tape.follow]
    rcases hs : World.spawnBy shell (fun id => World.loop shell j id {}) own w with ⟨o, w'⟩
    rw [hs] at hspawn
    obtain ⟨houtcome, htape, hquiet, hregistry⟩ := hspawn
    have hsession : w.tape.session shell
        (fun known c => Tape.evaluate shell known c shell.prompt) known (some own) =
          (o, w'.tape) := Prod.ext houtcome.symm htape.symm
    rw [hsession] at hleft ⊢
    have hn' : w'.script.length ≤ n := hleft.trans hn
    have hm' : w'.registry.Mirrors known own prompt := hregistry ▸ hm
    cases o with
    | ok id => exact h.resume rfl hquiet hm' hn' hj (hregistry ▸ .refl _ _)
    | failed e =>
      have hsay := h.say (l := { l with state := .prompting, pending := none }) rfl hquiet hm'
        hn' hj [e.message]
      rw [hregistry] at hsay
      exact hsay
    | aborted => exact ⟨rfl, rfl, hquiet, hregistry ▸ .refl _ _⟩

end LoopsAgree

/-- A loop shows its prompt and reads; what it makes of a line remains to be shown. -/
theorem loop_agrees {k : Nat} {l : Loop} (hl : l.state = .prompting) (hq : w.Quiet)
    (hm : w.registry.Mirrors known own prompt)
    (hline : ∀ text w₁ l₁, w.read own prompt = (.line text, w₁) → l₁.state = .resolving →
      l₁.line = text → Agrees (w.registry.Reprompted own) (World.loop shell (k + 1) own l₁ w₁)
        (w₁.tape.follow shell (Tape.evaluate shell) known own prompt
          (Deed.ofLine shell known own w₁.now text))) :
    Agrees (w.registry.Reprompted own) (World.loop shell (k + 3) own l w)
      (Tape.evaluate shell known own prompt w.tape) := by
  obtain ⟨⟨s, hs, hprompt, -⟩, -⟩ := hm
  have hshown : Loop.currentPrompt shell own w.registry = prompt := by
    simp [Loop.currentPrompt, hs, hprompt]
  obtain ⟨hquiet, hregistry, -⟩ := World.Still.read ⟨hq, rfl, rfl⟩ own prompt
  rw [World.loop_prompting hl, hshown, World.loop_reading rfl, Tape.evaluate_eq]
  unfold Tape.round
  rw [hq.tape_read]
  dsimp only
  rcases hr : w.read own prompt with ⟨text | _ | reason | _, w₁⟩ <;>
    rw [hr] at hquiet hregistry <;> dsimp only at hquiet hregistry ⊢
  · exact hline text w₁ _ hr rfl rfl
  · rw [World.loop_terminating rfl]
    exact ⟨rfl, rfl, hquiet, hregistry ▸ .refl _ _⟩
  · exact ⟨rfl, rfl, hquiet, hregistry ▸ .refl _ _⟩
  · exact ⟨rfl, rfl, hquiet, hregistry ▸ .refl _ _⟩

theorem loops_agree (shell : Shell) (n : Nat) : LoopsAgree shell n := by
  -- a line leaves one unread entry fewer to the loop and to the child that it may start
  induction n with
  | zero =>
    intro turns own l w known prompt hl hq hm hn hturns
    obtain ⟨k, rfl⟩ : ∃ k, turns = k + 3 := ⟨turns - 3, by omega⟩
    apply loop_agrees hl hq hm
    intro text w₁ l₁ hr
    rw [World.read_of_nil (List.length_eq_zero_iff.1 (Nat.le_zero.1 hn))] at hr
    cases hr
  | succ n ih =>
    intro turns own l w known prompt hl hq hm hn hturns
    -- a line takes four turns: to prompt, read, resolve and execute
    obtain ⟨j, rfl⟩ : ∃ j, turns = j + 4 := ⟨turns - 4, by omega⟩
    have hj : 4 * n + 3 ≤ j := by omega
    apply loop_agrees hl hq hm
    intro text w₁ l₁ hr hl₁ htext
    have hask := hq.tape_read own prompt
    obtain ⟨hquiet, hregistry, -⟩ := World.Still.read ⟨hq, rfl, rfl⟩ own prompt
    rw [hr] at hask hquiet hregistry
    dsimp only at hask hquiet hregistry
    have hn₁ : w₁.script.length < w.script.length := Tape.unread_of_ask_line hask
    have hm₁ : w₁.registry.Mirrors known own prompt := hregistry ▸ hm
    rw [← hregistry, World.loop_resolving hl₁, htext]
    rcases lookUp_spec shell hm₁ text
      (World.spawnBy shell fun id => World.loop shell j id {}) with ⟨message, hm, hd⟩ | ⟨c, hc, hd⟩
    · rw [hm, hd]
      exact ih.say rfl hquiet hm₁ (by omega) (by omega) _
    · rw [hc]
      exact ih.follow rfl rfl hquiet hm₁ (by omega) hj hd

end

/-- A top-most session and all below it end as their evaluation does, after the same prompts and
lines, and with the same entries left unread. -/
theorem World.openTop_agrees (shell : Shell) (m : Manager) (script : List Entry)
    (onWrite : Nat → List Outside) (hquiet : SessionShell.Quiet script onWrite) :
    let w := World.start m script onWrite
    let evaluated := w.tape.openTop shell m.registry.find?
    (w.openTop shell).1 = evaluated.1 ∧ (w.openTop shell).2.tape = evaluated.2 := by
  intro w evaluated
  have hrun : Evaluates shell script.length (World.run shell) fun known own =>
      Tape.evaluate shell known own shell.prompt :=
    fun known own w hq hm _ => loops_agree shell w.script.length rfl hq hm (Nat.le_refl _)
      (Nat.le_refl _)
  have hagrees : Agrees (· = w.registry) (w.openTop shell) evaluated :=
    openBy_agrees hrun hquiet (fun _ => rfl) (Nat.le_refl _)
  exact ⟨hagrees.outcome, hagrees.tape⟩

/-- Each session keeps its own prompt while the other one has its turn. A name that nobody knows, a
module that fails after its line, and one that cannot be loaded are reported to the child; the read
that fails in another child is reported to the parent. -/
theorem dialogue_of_nested_sessions :
    let shell : Shell := { resolver := {
      providers := [⟨fun n => .error (if n = "torn" then .failed "no end" else .absent)⟩]
      external := fun n => [("half", .fixed "" ⟨["one"], some (.failed "no two")⟩)].lookup n } }
    let script : List Entry := (["prompt a", "shell", "prompt b", "nope x", "half", "torn", "",
      "exit now", "shell"].map fun text => ⟨[], .line text⟩) ++ [⟨[], .failed "lost"⟩]
    let w := World.start (.start ⟨0⟩) script fun _ => []
    let first := Display.prompt ⟨0, 1⟩
    let second := Display.prompt ⟨0, 2⟩
    (w.openTop shell).2.tape.shown.reverse =
      [.line "*****", .line "Shell (sh-0-1) started on 1970-01-01 00:00:00",
       .line "This is the top-most shell", .line "*****", first ">> ", first "a ",
       .line "*****", .line "Shell (sh-0-2) started on 1970-01-01 00:00:00", .line "*****",
       second ">> ",
       second "b ", .line "invalid command `nope`",
       second "b ", .line "one", .line "command `half` failed: no two",
       second "b ", .line "unhandled error while loading `torn`: no end",
       second "b ",
       second "b ", .line "*****", .line "Shell (sh-0-2) exiting...",
       .line "Returning to parent shell (sh-0-1)", .line "*****",
       first "a ", .line "*****", .line "Shell (sh-0-3) started on 1970-01-01 00:00:00",
       .line "*****", .prompt ⟨0, 3⟩ ">> ", .line "*****", .line "Shell (sh-0-3) exiting...",
       .line "Returning to parent shell (sh-0-1)", .line "*****", .line "I/O error: lost",
       first "a ", .line "*****", .line "Shell (sh-0-1) exiting...",
       .line "This was the top-most shell", .line "*****"] := by
  intro shell script w first second
  have hquiet : SessionShell.Quiet script fun _ => [] := by simp [SessionShell.Quiet, script]
  rw [(World.openTop_agrees shell (.start ⟨0⟩) script (fun _ => []) hquiet).2]
  decide +kernel

end SessionShell
