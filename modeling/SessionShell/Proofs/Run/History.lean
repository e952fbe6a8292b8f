import SessionShell.Proofs.Run.Quiet
import SessionShell.Proofs.Run.Stack

namespace SessionShell

/-- Whether an operation creates a session under a parent that does not learn of it. -/
def Operation.isDetached : Operation → Bool
  | create parent => parent.isSome
  | _ => false

/-- The states in which the operations of a history leave a manager, whatever the shell, the input,
and the passing of time. -/
inductive Manager.History (allowed : Operation → Prop) : Manager → Prop
  | start (ids : IdSource) (now : Instant) : History allowed ⟨∅, ids, now⟩
  | wait {m : Manager} (t : Instant) : m.History allowed → History allowed { m with now := t }
  | perform {m : Manager} (shell : Shell) {op : Operation} {script : List Entry}
    {onWrite : Nat → List Outside} (hop : allowed op) (hquiet : Quiet script onWrite) :
    m.History allowed → History allowed (op.perform shell script onWrite m).2.toManager

/-- The registries met in a history, between operations and at each read during one. -/
inductive Registry.Met (allowed : Operation → Prop) : Registry → Prop
  | between {m : Manager} : m.History allowed → Met allowed m.registry
  | reading {m : Manager} {shell : Shell} {op : Operation} {script : List Entry}
    {onWrite : Nat → List Outside} {own : SessionId} {text : String} {r : Registry}
    (hop : allowed op) (hquiet : Quiet script onWrite)
    (hread : .prompt own text r ∈ (op.perform shell script onWrite m).2.events) :
    m.History allowed → Met allowed r

/-- A run with a stack of sessions in a quiet world, with links in order now and at all reads. -/
structure Running (orphans : Prop) (outer : Option SessionId) (stack : List SessionId) (w : World) :
    Prop where
  quiet : w.Quiet
  orderly : w.registry.Orderly orphans
  shown : ∀ r ∈ w.shown, r.Orderly orphans
  nodup : stack.Nodup
  stands : w.registry.Stands outer none stack

namespace Running

variable {orphans : Prop} {outer : Option SessionId} {stack : List SessionId} {own : SessionId}
  {w w' : World} {shell : Shell} {s c : Session} {e : ShellError}

theorem still (h : Running orphans outer stack w) : w.Still w.registry w.shown :=
  ⟨h.quiet, rfl, rfl⟩

theorem of_still (h : Running orphans outer stack w) {r : Registry} {stack' : List SessionId}
    (hw : w'.Still r w.shown) (hr : r.Orderly orphans)
    (hstack : r.Stands outer none stack' ∧ stack'.Nodup) : Running orphans outer stack' w' := by
  obtain ⟨hquiet, rfl, hshown⟩ := hw
  exact ⟨hquiet, hr, hshown ▸ h.shown, hstack.2, hstack.1⟩

theorem same (h : Running orphans outer stack w) (hw : w'.Still w.registry w.shown) :
    Running orphans outer stack w' :=
  h.of_still hw h.orderly ⟨h.stands, h.nodup⟩

theorem read (h : Running orphans outer stack w) (own : SessionId) (prompt : String) :
    Running orphans outer stack (w.read own prompt).2 := by
  obtain ⟨hquiet, hr, hshown⟩ := h.still.read own prompt
  refine ⟨hquiet, hr ▸ h.orderly, fun r hmem => ?_, h.nodup, hr ▸ h.stands⟩
  rw [hshown] at hmem
  rcases List.mem_cons.1 hmem with rfl | hmem
  · exact h.orderly
  · exact h.shown r hmem

theorem setPrompt {p : String} {r : Registry} (h : Running orphans outer (own :: stack) w)
    (hr : w.registry.update own { prompt := some p } = .ok (s, r)) :
    Running orphans outer (own :: stack) (w.setRegistry r) := by
  obtain ⟨t, -, rfl⟩ := Registry.update_ok hr
  refine h.of_still (h.still.setRegistry _) (.prompt own p h.orderly) ⟨h.stands.congr ?_, h.nodup⟩
  intro id _ s hs
  rw [Registry.find?_change, hs]
  split
  · exact ⟨_, rfl, rfl, rfl⟩
  · exact ⟨s, rfl, rfl, rfl⟩

theorem child (h : Running orphans outer (own :: stack) w)
    (hc : w.createChild shell own = (.ok c, w')) :
    Running orphans outer (c.id :: own :: stack) w' := by
  obtain ⟨hw, hfree, hchild, hparent, s, hs, hsc⟩ := h.still.createChild_ok hc
  exact h.of_still hw (.adopt hfree hchild hparent hs hsc h.orderly)
    (h.stands.adopt h.nodup hfree hchild hparent)

theorem retire (h : Running orphans outer (own :: stack) w) :
    Running orphans outer stack (w.retire own) := by
  obtain ⟨⟨s, hs, hchild, -⟩, -⟩ := h.stands
  exact h.of_still (h.still.retire hs) (.withdraw hs hchild h.orderly)
    ⟨h.stands.withdraw h.nodup hs, (List.nodup_cons.1 h.nodup).2⟩

theorem teardown (h : Running orphans outer (own :: stack) w) :
    Running orphans outer stack (w.teardown own).2 := by
  obtain ⟨⟨s, hs, hchild, -⟩, -⟩ := h.stands
  rw [World.teardown_of_childless hs hchild]
  exact h.retire.same (h.retire.still.writeAll _)

theorem run (orphans : Prop) (outer : Option SessionId) (shell : Shell) :
    RunInvariant shell (Running orphans outer) where
  write line h := h.same (h.still.write line)
  read prompt h := h.read _ prompt
  setPrompt hr h := h.setPrompt hr
  child hc h := h.child hc
  noChild he h := h.same (h.still.createChild_error he)
  teardown := teardown
  retire := retire

theorem create {parent : Option SessionId} (h : Running orphans none [] w)
    (hparent : parent = none ∨ orphans) (hc : w.create shell parent = (.ok s, w')) :
    Running orphans none [] w' := by
  obtain ⟨hw, hfree, hchild, hp⟩ := h.still.create_ok hc
  exact h.of_still hw (.birth hfree hchild (hp ▸ hparent) h.orderly) ⟨trivial, List.nodup_nil⟩

theorem top (h : Running orphans none [] w) (hc : w.create shell none = (.ok s, w')) :
    Running orphans none [s.id] w' := by
  obtain ⟨hw, hfree, hchild, hparent⟩ := h.still.create_ok hc
  refine h.of_still hw (.birth hfree hchild (.inl hparent) h.orderly) ⟨⟨⟨s, ?_, hchild, hparent⟩,
    trivial⟩, List.nodup_singleton _⟩
  rw [Keyed.find?_insert, if_pos rfl]

/-- The session below a run is the bottom of its stack, if the run can begin at all. -/
theorem spawnChild (h : Running orphans none [] w) (p : SessionId) :
    Running orphans none [] (w.spawnChild shell p).2 := by
  rcases hc : w.createChild shell p with ⟨e | c, w'⟩
  · have hsame : w.spawnChild shell p = (.failed e, w') := by
      rw [World.spawnChild, World.spawnBy, hc]
    rw [hsame]
    exact h.same (h.still.createChild_error hc)
  · obtain ⟨hw, hfree, hchild, hparent, s, hs, hsc⟩ := h.still.createChild_ok hc
    -- the run is one that `p` has started, whether or not it is running itself
    have hbelow : Running orphans s.parent [p] w :=
      ⟨h.quiet, h.orderly, h.shown, List.nodup_singleton _, ⟨s, hs, hsc, rfl⟩, trivial⟩
    have hdone := (run orphans s.parent shell).spawnChild
      (fun _ _ he => hbelow.same (hbelow.still.createChild_error he)) fun _ _ hc => hbelow.child hc
    exact ⟨hdone.quiet, hdone.orderly, hdone.shown, List.nodup_nil, trivial⟩

theorem operation (shell : Shell) {op : Operation} (hop : op.isDetached → orphans)
    (h : Running orphans none [] w) : Running orphans none [] (op.performIn shell w).2 := by
  cases op with
  | create parent =>
    rw [Operation.performIn_create]
    rcases hc : w.create shell parent with ⟨e | s, w'⟩
    · exact h.same (h.still.create_error hc)
    · refine h.create ?_ hc
      cases parent with
      | none => exact .inl rfl
      | some p => exact .inr (hop rfl)
  | createChild p =>
    rw [Operation.performIn_createChild]
    rcases hc : w.createChild shell p with ⟨e | c, w'⟩
    · exact h.same (h.still.createChild_error hc)
    · obtain ⟨hw, hfree, hchild, hparent, s, hs, hsc⟩ := h.still.createChild_ok hc
      exact h.of_still hw (.adopt hfree hchild hparent hs hsc h.orderly) ⟨trivial, List.nodup_nil⟩
  | teardown id =>
    exact h.of_still (h.still.teardown id) (h.orderly.sweep_lineage id) ⟨trivial, List.nodup_nil⟩
  | openTop =>
    rw [Operation.performIn_openTop]
    exact (run orphans none shell).openTop (fun _ _ he => h.same (h.still.create_error he))
      fun _ _ hc => h.top hc
  | spawnChild p =>
    rw [Operation.performIn_spawnChild]
    exact h.spawnChild p

theorem start {m : Manager} {script : List Entry} {onWrite : Nat → List Outside}
    (hquiet : Quiet script onWrite) (hm : m.registry.Orderly orphans) :
    Running orphans none [] (World.start m script onWrite) :=
  { quiet := hquiet, orderly := hm, shown := nofun, nodup := List.nodup_nil, stands := trivial }

end Running

section

variable {allowed : Operation → Prop} {orphans : Prop} {m : Manager} {r : Registry}

theorem Manager.History.orderly (hallowed : ∀ op, allowed op → op.isDetached → orphans)
    (h : m.History allowed) : m.registry.Orderly orphans := by
  induction h with
  | start ids now => exact .empty
  | wait t _ ih => exact ih
  | perform shell hop hquiet _ ih =>
    exact ((Running.start hquiet ih).operation shell (hallowed _ hop)).orderly

theorem Registry.Met.orderly (hallowed : ∀ op, allowed op → op.isDetached → orphans)
    (h : r.Met allowed) : r.Orderly orphans := by
  cases h with
  | between hm => exact hm.orderly hallowed
  | @reading m shell op script onWrite own text _ hop hquiet hread hm =>
    have hrun := (Running.start hquiet (hm.orderly hallowed)).operation shell (hallowed _ hop)
    apply hrun.shown
    exact List.mem_filterMap.2 ⟨_, List.mem_reverse.1 hread, rfl⟩

end

/-- Child links are mutual, whatever parents sessions are created with. If none is created under a
parent that does not learn of it, parent links are mutual too, and sessions form chains. -/
theorem Registry.links_of_met (r : Registry) :
    (r.Met (fun _ => True) → r.Mutual) ∧
    (r.Met (fun op => op.isDetached = false) →
      r.Rooted ∧ r.InChains ∧
      ∀ s ∈ r.toList, ∀ t ∈ r.toList, s.parent.isSome → s.parent = t.parent → s = t) := by
  constructor
  · intro h
    have horderly : r.Orderly True := h.orderly fun _ _ _ => trivial
    exact horderly.mutual_links
  · intro h
    have horderly : r.Orderly False := h.orderly fun op hop hdetached => by simp [hop] at hdetached
    refine ⟨horderly.rooted, horderly.inChains, fun s hs t ht hparent heq => ?_⟩
    exact horderly.rooted.eq_of_parent hs ht hparent heq

/-- Two sessions, one the child of the other, at the read of the child. -/
theorem links_at_nested_read :
    let parent : Session := ⟨⟨0, 1⟩, ⟨0⟩, defaultPrompt, none, some ⟨0, 2⟩⟩
    let child : Session := ⟨⟨0, 2⟩, ⟨0⟩, defaultPrompt, some ⟨0, 1⟩, none⟩
    let r : Registry := Keyed.insert (Keyed.insert ∅ parent) child
    r.Mutual ∧ r.Rooted ∧ r.InChains := by
  intro parent child r
  have hm : Manager.History (fun op => op.isDetached = false) (.start ⟨0⟩) := .start _ _
  have hquiet : Quiet [⟨[], .line "shell"⟩] fun _ => [] := by simp [Quiet]
  have hread : .prompt ⟨0, 2⟩ defaultPrompt r ∈ (Operation.openTop.perform .bare
      [⟨[], .line "shell"⟩] (fun _ => []) (.start ⟨0⟩)).2.events := by
    decide +kernel
  have hchains := (Registry.links_of_met r).2 (.reading rfl hquiet hread hm)
  have hmutual := (Registry.links_of_met r).1 (.reading trivial hquiet hread (.start _ _))
  exact ⟨hmutual, hchains.1, hchains.2.1⟩

end SessionShell
