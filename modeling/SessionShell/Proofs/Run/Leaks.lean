import SessionShell.Proofs.Run.Invariant

namespace SessionShell

/-- Whether in an event another party registers a session under an identifier. -/
def Event.registers (id : SessionId) : Event → Bool
  | reply (.register s) .done => s.id = id
  | _ => false

theorem Request.missing_answer {q : Request} {r : Registry} {id : SessionId}
    (h : r.find? id = none) (hq : Event.registers id (.reply q (q.answer r).1) = false) :
    (q.answer r).2.find? id = none := by
  rw [find?_answer, h]
  -- only a registration brings a record back, and that would be on record
  cases q with
  | register t =>
    by_cases ht : t.id = id
    · rw [reply_register (ht ▸ h)] at hq
      simp [Event.registers, ht] at hq
    · simp [on, ht]
  | deregister | update | lookup | contains | count | list | misnamed | malformed => simp [on]

/-- All that a run has created is gone, but for the sessions on its stack. -/
def Accounted (stack : List SessionId) (w : World) : Prop :=
  ∀ s, .created s ∈ w.log → (∀ e ∈ w.log, e.registers s.id = false) → s.id ∉ stack →
    w.registry.find? s.id = none

namespace Accounted

variable {stack : List SessionId} {w w' : World} {shell : Shell}

theorem start (m : Manager) (script : List Entry) (onWrite : Nat → List Outside) :
    Accounted [] (World.start m script onWrite) := by
  intro s hs
  cases hs

theorem of_shrunk (h : Accounted stack w) (hsub : w.log ⊆ w'.log)
    (hlog : ∀ s, .created s ∈ w'.log → .created s ∈ w.log)
    (hreg : ∀ id, w.registry.find? id = none → w'.registry.find? id = none) :
    Accounted stack w' := by
  intro s hs hothers hstack
  apply hreg
  exact h s (hlog s hs) (fun e he => hothers e (hsub he)) hstack

theorem record (h : Accounted stack w) {e : Event} (he : ∀ s, e ≠ .created s) :
    Accounted stack (w.record e) := by
  refine h.of_shrunk (List.subset_cons_self e w.log) (fun s hs => ?_) fun _ hid => hid
  exact (List.mem_cons.1 hs).resolve_left (Ne.symm (he s))

theorem outside (h : Accounted stack w) (o : Outside) : Accounted stack (w.outside o) := by
  cases o with
  | clock t => exact h
  | request q =>
    intro s hs hothers hstack
    have hcreated : .created s ∈ w.log := by
      rcases List.mem_cons.1 hs with he | hs
      · cases he
      · exact hs
    have hnone := h s hcreated (fun e he => hothers e (List.mem_cons_of_mem _ he)) hstack
    exact Request.missing_answer hnone (hothers _ List.mem_cons_self)

theorem terminal (stack : List SessionId) : TerminalInvariant (Accounted stack) :=
  .of_steps (fun _ _ he h => h.record fun s e => by simp [e, Event.isTerminal] at he)
    (fun _ o h => h.outside o) (fun _ h => h) fun _ _ _ _ h => h

theorem setRegistry (h : Accounted stack w) {r : Registry}
    (hr : ∀ id, w.registry.find? id = none → r.find? id = none) :
    Accounted stack (w.setRegistry r) :=
  h.of_shrunk (List.Subset.refl _) (fun _ hs => hs) hr

theorem retire (h : Accounted stack w) (id : SessionId) : Accounted stack (w.retire id) := by
  cases hf : w.registry.find? id with
  | none => rwa [World.retire_of_missing hf]
  | some s =>
    rw [World.retire_of_find? hf]
    refine (h.setRegistry fun k hk => ?_).record (by simp)
    simp [Registry.find?_withdraw, hk]

theorem pop {own : SessionId} (h : Accounted (own :: stack) w)
    (hgone : w.registry.find? own = none) : Accounted stack w := by
  intro s hs hothers hstack
  by_cases hown : s.id = own
  · rw [hown]
    exact hgone
  · exact h s hs hothers (by simp [hown, hstack])

theorem discard {own : SessionId} (h : Accounted (own :: stack) w) :
    Accounted stack (w.discard own) := by
  cases hf : w.registry.find? own with
  | none =>
    rw [World.discard_of_missing hf]
    exact h.pop hf
  | some s =>
    rw [World.discard_of_find? hf]
    have hr : ∀ k, w.registry.find? k = none → Keyed.find? (w.registry.erase s.id) k = none := by
      intro k hk
      simp [Keyed.find?_erase, hk]
    refine ((h.setRegistry hr).record (e := .removed s w.registry) (by simp)).pop ?_
    show Keyed.find? (w.registry.erase s.id) own = none
    rw [Keyed.find?_erase, if_pos (Keyed.key_of_find? hf)]

theorem teardownAll (sessions : List Session) (h : Accounted stack w) :
    Accounted stack (World.teardownAll sessions w).2 :=
  World.teardownAll_of_retire (fun _ line h => (terminal stack).write line h)
    (fun _ id h => h.retire id) sessions h

/-- Tearing the innermost session down removes it, whatever becomes of those linked below it. -/
theorem teardown {own : SessionId} (h : Accounted (own :: stack) w) :
    Accounted stack (w.teardown own).2 := by
  unfold World.teardown
  cases hf : w.registry.find? own with
  | none =>
    rw [Registry.lineage_of_missing hf]
    exact h.pop hf
  | some s =>
    obtain ⟨deeper, hl⟩ := Registry.lineage_of_find? hf
    have hkey : s.id = own := Keyed.key_of_find? hf
    -- the session itself is retired after all those below it
    have hpop := ((h.teardownAll deeper).retire own).pop (World.find?_retire _ _)
    rw [hl]
    rcases World.teardownAll_cons s deeper w with e | e <;> rw [e, hkey]
    · exact hpop
    · exact (terminal stack).writeAll _ hpop

theorem create {parent : Option SessionId} {s : Session} (h : Accounted stack w)
    (hc : w.create shell parent = (.ok s, w')) : Accounted (s.id :: stack) w' := by
  obtain ⟨ids, -, -, -, rfl⟩ := World.create_ok hc
  refine (terminal _).writeAll _ ?_
  intro t ht hothers hstack
  -- the new session is on the stack, so that `t` is an earlier one
  have hne : s.id ≠ t.id := fun e => hstack (by simp [e])
  have hcreated : .created t ∈ w.log := by
    rcases List.mem_cons.1 ht with e | ht
    · cases e
      exact absurd rfl hne
    · exact ht
  show (w.registry.insert s).find? t.id = none
  rw [Keyed.find?_insert, if_neg hne]
  exact h t hcreated (fun e he => hothers e (List.mem_cons_of_mem _ he))
    fun hmem => hstack (List.mem_cons_of_mem _ hmem)

theorem create_error {parent : Option SessionId} {e : ShellError} (h : Accounted stack w)
    (hc : w.create shell parent = (.error e, w')) : Accounted stack w' := by
  obtain ⟨ids, -, rfl, -⟩ := World.create_error hc
  exact h

theorem createChild {parent : SessionId} {c : Session} (h : Accounted stack w)
    (hc : w.createChild shell parent = (.ok c, w')) : Accounted (c.id :: stack) w' := by
  obtain ⟨p, q, w₁, -, -, hnew, -, -, rfl⟩ := World.createChild_ok hc
  refine (h.create hnew).setRegistry fun id hid => ?_
  simp [Registry.find?_change, hid]

theorem createChild_error {parent : SessionId} {e : ShellError} (h : Accounted stack w)
    (he : w.createChild shell parent = (.error e, w')) : Accounted stack w' := by
  obtain rfl | ⟨p, -, -, hc⟩ | ⟨p, c, w₁, -, -, hc, -, rfl⟩ := World.createChild_error he
  · exact h
  · exact h.create_error hc
  · exact (h.create hc).discard

theorem run (shell : Shell) : RunInvariant shell Accounted where
  write line := (terminal _).write line
  read prompt := (terminal _).read _ prompt
  setPrompt hr h := by
    obtain ⟨t, -, rfl⟩ := Registry.update_ok hr
    exact h.setRegistry fun id hid => by simp [Registry.find?_change, hid]
  child hc h := h.createChild hc
  noChild he h := h.createChild_error he
  teardown := teardown
  retire h := (h.retire _).pop (World.find?_retire _ _)

theorem operation (shell : Shell) {op : Operation} (hop : op.isRun) (h : Accounted stack w) :
    Accounted stack (op.performIn shell w).2 := by
  cases op with
  | create | createChild | teardown => cases hop
  | openTop =>
    rw [Operation.performIn_openTop]
    exact (run shell).openTop (fun _ _ hc => h.create_error hc) fun _ _ hc => h.create hc
  | spawnChild parent =>
    rw [Operation.performIn_spawnChild]
    exact (run shell).spawnChild (fun _ _ hc => h.createChild_error hc)
      fun _ _ hc => h.createChild hc

end Accounted

/-- When a run ends, in whatever way, none of the sessions that it has created is registered, unless
another party has registered its identifier. -/
theorem Operation.no_session_left (shell : Shell) (op : Operation) (hop : op.isRun)
    (script : List Entry) (onWrite : Nat → List Outside) (m : Manager) (s : Session)
    (hcreated : .created s ∈ (op.perform shell script onWrite m).2.events)
    (hothers : ∀ e ∈ (op.perform shell script onWrite m).2.events, e.registers s.id = false) :
    (op.perform shell script onWrite m).2.registry.find? s.id = none :=
  (Accounted.start m script onWrite).operation shell hop s (List.mem_reverse.1 hcreated)
    (fun e he => hothers e (List.mem_reverse.2 he)) List.not_mem_nil

/-- The input is given up in a child while another party cuts it off from its parent. -/
theorem no_session_left_when_cut_off :
    let cut : List Outside := [.request (.update ⟨0, 1⟩ { child := some none }),
      .request (.update ⟨0, 2⟩ { parent := some none })]
    let w := (Operation.openTop.perform .bare [⟨[], .line "shell"⟩, ⟨cut, .aborted⟩] (fun _ => [])
      (.start ⟨0⟩)).2
    .created ⟨⟨0, 2⟩, ⟨0⟩, defaultPrompt, some ⟨0, 1⟩, none⟩ ∈ w.events ∧
      w.registry.find? ⟨0, 2⟩ = none := by
  intro cut w
  have hcreated : .created ⟨⟨0, 2⟩, ⟨0⟩, defaultPrompt, some ⟨0, 1⟩, none⟩ ∈ w.events := by
    decide +kernel
  have hothers : ∀ e ∈ w.events, e.registers ⟨0, 2⟩ = false := by decide +kernel
  exact ⟨hcreated, Operation.no_session_left .bare .openTop rfl _ _ _ _ hcreated hothers⟩

end SessionShell
