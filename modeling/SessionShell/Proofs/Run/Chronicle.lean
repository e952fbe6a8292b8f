import SessionShell.Proofs.Run.Turnover

namespace SessionShell

/-- The session that is created in an event. -/
def Event.born? : Event → Option Session
  | created s => some s
  | _ => none

/-- The sessions created in the course of some events, in order. -/
def births (events : List Event) : List Session := events.filterMap Event.born?

@[simp] theorem births_append (events new : List Event) :
    births (events ++ new) = births events ++ births new := List.filterMap_append ..

theorem births_removed (s : Session) (r : Registry) (events : List Event) :
    births (.removed s r :: events) = births events := rfl

theorem Event.born?_of_isTerminal {e : Event} (he : e.isTerminal) : e.born? = none := by
  cases e with
  | prompt | input | write => rfl
  | reply | created | removed => cases he

theorem births_record (w : World) {e : Event} (he : e.born? = none) :
    births (w.record e).events = births w.events := by
  simp [births, World.events, World.record, he]

theorem births_outside (w : World) (o : Outside) :
    births (w.outside o).events = births w.events := by
  cases o with
  | clock t => rfl
  | request q => exact births_record _ rfl

theorem births_enter (s : Session) (ids : IdSource) (w : World) :
    births (w.enter s ids).events = births w.events ++ [s] := by
  simp [births, World.events, World.enter, World.record, Event.born?]

theorem RemovalInvariant.of_births (F : List Session → IdSource → Prop) :
    RemovalInvariant fun w => F (births w.events) w.ids where
  toTerminalInvariant := by
    refine .of_steps (fun w e he h => ?_) (fun w o h => ?_) (fun _ h => h) fun _ _ _ _ h => h
    · rw [births_record w (Event.born?_of_isTerminal he)]
      exact h
    · rw [births_outside]
      cases o <;> exact h
  setRegistry _ h := h
  removed s r h := by
    rw [births_record _ rfl]
    exact h

/-- All that happens from the state `m` of a manager on, up to another one. It performs operations,
whatever comes of them, and between them other parties take steps; all their steps are allowed
ones. -/
inductive Manager.Chronicle (allowed : Outside → Prop) (m : Manager) : List Event → Manager → Prop
  | begun : Chronicle allowed m [] m
  | meanwhile {events : List Event} {m' : Manager} {o : Outside} (ho : allowed o) :
    m.Chronicle allowed events m' →
    Chronicle allowed m (events ++ ((World.start m' [] fun _ => []).outside o).events)
      ((World.start m' [] fun _ => []).outside o).toManager
  | perform {events : List Event} {m' : Manager} (shell : Shell) (op : Operation)
    {script : List Entry} {onWrite : Nat → List Outside}
    (honly : (World.start m' script onWrite).Only allowed) :
    m.Chronicle allowed events m' →
    Chronicle allowed m (events ++ (op.perform shell script onWrite m').2.events)
      (op.perform shell script onWrite m').2.toManager

/-- The sessions `ss` bear, in order, identifiers drawn after the first `first` and among the first
`n`. -/
inductive Issued (first : Nat) : (n : Nat) → (ss : List Session) → Prop
  | begun : Issued first first []
  | draw {n n' : Nat} {ss : List Session} (hn : n < n') : Issued first n ss → Issued first n' ss
  | issue {n n' : Nat} {ss : List Session} {s : Session} (hn : n < n')
    (hs : s.id = ⟨s.started.stamp, UInt32.ofNat n'⟩) : Issued first n ss →
    Issued first n' (ss ++ [s])

namespace Issued

variable {first n : Nat} {ss : List Session} {s : Session}

theorem le (h : Issued first n ss) : first ≤ n := by
  induction h with
  | begun => exact Nat.le_refl _
  | draw hn _ ih => omega
  | issue hn _ _ ih => omega

theorem number (h : Issued first n ss) (hs : s ∈ ss) :
    ∃ k, first < k ∧ k ≤ n ∧ s.id = ⟨s.started.stamp, UInt32.ofNat k⟩ := by
  induction h with
  | begun => cases hs
  | draw hn _ ih =>
    obtain ⟨k, hfirst, hk, hid⟩ := ih hs
    exact ⟨k, hfirst, by omega, hid⟩
  | @issue n n' ss t hn ht h ih =>
    rcases List.mem_append.1 hs with hs | hs
    · obtain ⟨k, hfirst, hk, hid⟩ := ih hs
      exact ⟨k, hfirst, by omega, hid⟩
    · obtain rfl := List.mem_singleton.1 hs
      have hle := h.le
      exact ⟨n', by omega, Nat.le_refl _, ht⟩

theorem seq_ne {k k' : Nat} (hk : k < k') (hlt : k' < k + UInt32.size) :
    UInt32.ofNat k ≠ UInt32.ofNat k' := by
  intro heq
  have hmod : k % UInt32.size = k' % UInt32.size := congrArg UInt32.toNat heq
  simp only [UInt32.size] at hmod hlt
  omega

theorem nodup (h : Issued first n ss) (hn : n ≤ first + UInt32.size) :
    (ss.map Session.id).Nodup := by
  induction h with
  | begun => exact List.nodup_nil
  | draw hlt _ ih => exact ih (by omega)
  | @issue n n' ss s hlt hs h ih =>
    rw [List.map_append, List.nodup_append]
    refine ⟨ih (by omega), by simp, ?_⟩
    intro id hid id' hid' heq
    obtain ⟨t, ht, rfl⟩ := List.mem_map.1 hid
    obtain ⟨k, hfirst, hk, hid⟩ := h.number ht
    -- stamps may repeat and go back, so that only the sequence numbers tell the two apart
    rw [List.mem_singleton.1 hid', hid, hs] at heq
    exact seq_ne (show k < n' by omega) (by omega) (congrArg SessionId.seq heq)

theorem turnover (shell : Shell) (first : Nat) (past : List Session) :
    TurnoverInvariant shell fun w => Issued first w.ids.drawn (past ++ births w.events) where
  toRemovalInvariant := .of_births fun bs ids => Issued first ids.drawn (past ++ bs)
  draw hids h := h.draw hids
  enter {w ids s parent} hids hs h := by
    have hid : s.id = ⟨s.started.stamp, UInt32.ofNat ids.drawn⟩ := by
      rw [hs]
      rfl
    rw [births_enter, ← List.append_assoc]
    exact h.issue hids hid

end Issued

namespace Manager.Chronicle

variable {allowed : Outside → Prop} {m m' : Manager} {events : List Event}

theorem issued (h : m.Chronicle allowed events m') :
    Issued m.ids.drawn m'.ids.drawn (births events) := by
  induction h with
  | begun => exact .begun
  | @meanwhile events m' o _ _ ih =>
    rw [births_append, births_outside]
    have hids : ((World.start m' [] fun _ => []).outside o).ids = m'.ids := by cases o <;> rfl
    rw [hids]
    exact (List.append_nil (births events)).symm ▸ ih
  | @perform events m' shell op script onWrite _ _ ih =>
    rw [births_append]
    have hstart : Issued m.ids.drawn m'.ids.drawn (births events ++ []) := by
      rwa [List.append_nil]
    exact (Issued.turnover shell m.ids.drawn (births events)).operation op
      (w := World.start m' script onWrite) hstart

/-- While fewer than `2 ^ 32` identifiers are drawn, no two sessions are issued under one. -/
theorem ids_never_reused (h : m.Chronicle allowed events m')
    (hdrawn : m'.ids.drawn < m.ids.drawn + UInt32.size) :
    ((births events).map Session.id).Nodup ∧
    ∀ before s r after, events = before ++ .removed s r :: after →
      s.id ∈ (births before).map Session.id → s.id ∉ (births after).map Session.id := by
  have hnodup := h.issued.nodup (Nat.le_of_lt hdrawn)
  refine ⟨hnodup, ?_⟩
  rintro before s r after rfl hbefore hafter
  rw [births_append, births_removed, List.map_append, List.nodup_append] at hnodup
  exact hnodup.2.2 s.id hbefore s.id hafter rfl

end Manager.Chronicle

/-- A session is torn down, the clock goes back before 1970, a run is aborted, and another party
takes the next candidate. -/
theorem ids_distinct_after_setback :
    let m : Manager := .start ⟨5⟩
    let created := (Operation.create none).perform .bare [] (fun _ => []) m
    let removed := (Operation.teardown ⟨5, 1⟩).perform .bare [] (fun _ => [.clock ⟨-1⟩])
      created.2.toManager
    let aborted := Operation.openTop.perform .bare [⟨[], .aborted⟩] (fun _ => [])
      removed.2.toManager
    let taken := (World.start aborted.2.toManager [] fun _ => []).outside
      (.request (.register ⟨⟨0, 3⟩, ⟨0⟩, defaultPrompt, none, none⟩))
    let last := (Operation.create none).perform .bare [] (fun _ => []) taken.toManager
    let events := created.2.events ++ removed.2.events ++ aborted.2.events ++ taken.events ++
      last.2.events
    m.Chronicle (fun _ => True) events last.2.toManager ∧
      (births events).map Session.id = [⟨5, 1⟩, ⟨0, 2⟩, ⟨0, 4⟩] ∧
      ((births events).map Session.id).Nodup ∧
      ∃ before s r after, events = before ++ .removed s r :: after ∧
        s.id ∈ (births before).map Session.id ∧ s.id ∉ (births after).map Session.id := by
  intro m created removed aborted taken last events
  have honly (m : Manager) (script : List Entry) (onWrite : Nat → List Outside) :
      (World.start m script onWrite).Only fun _ => True :=
    ⟨fun _ _ _ _ => trivial, fun _ _ _ => trivial⟩
  have hcreated : m.Chronicle (fun _ => True) created.2.events created.2.toManager :=
    .perform .bare (.create none) (honly _ _ _) .begun
  have hremoved := hcreated.perform .bare (.teardown ⟨5, 1⟩) (honly _ [] fun _ => [.clock ⟨-1⟩])
  have haborted := hremoved.perform .bare .openTop (honly _ [⟨[], .aborted⟩] fun _ => [])
  have htaken := haborted.meanwhile
    (o := .request (.register ⟨⟨0, 3⟩, ⟨0⟩, defaultPrompt, none, none⟩)) trivial
  have hlast : m.Chronicle (fun _ => True) events last.2.toManager :=
    htaken.perform .bare (.create none) (honly _ [] fun _ => [])
  obtain ⟨hnodup, hremoval⟩ := hlast.ids_never_reused (by decide +kernel)
  let s : Session := ⟨⟨5, 1⟩, ⟨5⟩, defaultPrompt, none, none⟩
  have hsplit : events = created.2.events ++ .removed s created.2.registry ::
      (events.drop (created.2.events.length + 1)) := by
    decide +kernel
  have hbefore : s.id ∈ (births created.2.events).map Session.id := by decide +kernel
  exact ⟨hlast, by decide +kernel, hnodup, _, _, _, _, hsplit, hbefore,
    hremoval _ _ _ _ hsplit hbefore⟩

end SessionShell
