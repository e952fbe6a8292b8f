import SessionShell.Proofs.Run.Invariant

namespace SessionShell

/-- Whether a request leaves a session alone: it neither acts on its record nor stores a link to it.
-/
def Request.Avoids (id : SessionId) : Request → Prop
  | register s => s.id ≠ id ∧ s.parent ≠ some id ∧ s.child ≠ some id
  | deregister i => i ≠ id
  | update i c => i ≠ id ∧ c.parent ≠ some (some id) ∧ c.child ≠ some (some id)
  | _ => True

namespace Request

variable {q : Request} {id : SessionId}

instance (id : SessionId) : (q : Request) → Decidable (q.Avoids id)
  | register s => inferInstanceAs (Decidable (s.id ≠ id ∧ s.parent ≠ some id ∧ s.child ≠ some id))
  | deregister i => inferInstanceAs (Decidable (i ≠ id))
  | update i c =>
    inferInstanceAs (Decidable (i ≠ id ∧ c.parent ≠ some (some id) ∧ c.child ≠ some (some id)))
  | lookup _ | contains _ | count | list | misnamed _ | malformed _ => isTrue trivial

theorem Avoids.spares (h : q.Avoids id) : q.Spares id := by
  cases q with
  | register s => exact h.1
  | deregister i => exact h
  | update i c => exact h.1
  | lookup | contains | count | list | misnamed | malformed => trivial

theorem forget_change {c : SessionId} {ch : Session.Change} (h : ch.child ≠ some (some c))
    (s : Session) : (s.change ch).forget c = (s.forget c).change ch := by
  cases hch : ch.child with
  | none =>
    by_cases hs : s.child = some c
    · rw [Session.forget_of_child hs, Session.forget_of_child (by simp [Session.change, hch, hs])]
      simp [Session.change, hch]
    · rw [Session.forget_of_child_ne hs,
        Session.forget_of_child_ne (by simpa [Session.change, hch] using hs)]
  | some d =>
    have hd : (s.change ch).child ≠ some c := by
      intro e
      exact h (by rw [hch, ← e]; simp [Session.change, hch])
    rw [Session.forget_of_child_ne hd]
    by_cases hs : s.child = some c
    · simp [Session.forget_of_child hs, Session.change, hch]
    · simp [Session.forget_of_child_ne hs]

/-- A request that avoids a session does not see whether another is linked to it. -/
theorem on_forget {c : SessionId} (h : q.Avoids c) (id : SessionId) (o : Option Session) :
    (q.on id o).map (·.forget c) = q.on id (o.map (·.forget c)) := by
  cases q with
  | register s =>
    by_cases hid : s.id = id
    · cases o with
      | none => simp [on, hid, Session.forget_of_child_ne h.2.2]
      | some t => simp [on, hid]
    · simp [on, hid]
  | deregister i => by_cases hid : i = id <;> simp [on, hid]
  | update i ch =>
    by_cases hid : i = id
    · simp [on, hid, Function.comp_def, forget_change h.2.2]
    · simp [on, hid]
  | lookup | contains | count | list | misnamed | malformed => rfl

/-- A request that avoids a session acts on the others as if it were not there. -/
theorem erase_answer (h : q.Avoids id) (r : Registry) :
    (Keyed.erase (q.answer r).2 id : Registry) = (q.answer (r.erase id)).2 := by
  apply Keyed.ext_find?
  intro k
  rw [Keyed.find?_erase, find?_answer, find?_answer, Keyed.find?_erase]
  by_cases hk : id = k
  · subst hk
    simp [on_of_spares h.spares]
  · simp [hk]

end Request

namespace World

/-- What follows from an event for one who only reads and writes along. -/
def follow (w : World) : Event → World
  | .prompt own text _ => (w.read own text).2
  | .write line => w.write line
  | _ => w

/-- The world as other parties alone make it during the reads and writes of a run. -/
def bystander (w : World) (events : List Event) : World := events.foldl follow w

variable {v w : World}

theorem events_record (w : World) (e : Event) : (w.record e).events = w.events ++ [e] := by
  simp [events, record]

@[simp] theorem bystander_record (v w : World) (e : Event) :
    v.bystander (w.record e).events = (v.bystander w.events).follow e := by
  rw [events_record, bystander, List.foldl_append]
  rfl

@[simp] theorem bystander_outside (v w : World) (o : Outside) :
    v.bystander (w.outside o).events = v.bystander w.events := by
  cases o with
  | clock t => rfl
  | request q => exact bystander_record v (w.setRegistry (q.answer w.registry).2) _

@[simp] theorem bystander_outsides (v w : World) (os : List Outside) :
    v.bystander (os.foldl outside w).events = v.bystander w.events := by
  induction os generalizing w with
  | nil => rfl
  | cons o os ih => rw [List.foldl_cons, ih, bystander_outside]

@[simp] theorem bystander_write (v w : World) (line : String) :
    v.bystander (w.write line).events = (v.bystander w.events).write line := by
  unfold write
  rw [bystander_outsides]
  exact bystander_record v w (.write line)

@[simp] theorem bystander_writeAll (v w : World) (lines : List String) :
    v.bystander (w.writeAll lines).events = (v.bystander w.events).writeAll lines := by
  induction lines generalizing w with
  | nil => rfl
  | cons line lines ih =>
    show v.bystander ((w.write line).writeAll lines).events = _
    rw [ih, bystander_write]
    rfl

@[simp] theorem bystander_read (v w : World) (own : SessionId) (prompt : String) :
    v.bystander (w.read own prompt).2.events = ((v.bystander w.events).read own prompt).2 := by
  rcases hs : w.script with _ | ⟨entry, rest⟩
  · rw [read_of_nil hs]
    simp [follow]
  · rw [read_of_cons hs]
    simp only [bystander_record, bystander_outsides, follow]
    exact bystander_record v w (.prompt own prompt w.registry)

end World

/-- Whether an event is no request that fails to avoid the session created in another event. -/
def Event.Avoids : Event → Event → Prop
  | reply q _, created s => q.Avoids s.id
  | _, _ => True

instance (e f : Event) : Decidable (e.Avoids f) := by
  unfold Event.Avoids
  split <;> infer_instance

/-- Whether other parties avoid the sessions that are created, before and after they are. -/
def World.Discreet (w : World) : Prop := ∀ e ∈ w.log, ∀ f ∈ w.log, e.Avoids f

instance (w : World) : Decidable w.Discreet :=
  inferInstanceAs (Decidable (∀ e ∈ w.log, ∀ f ∈ w.log, e.Avoids f))

theorem World.Discreet.mono {w w' : World} (h : w'.Discreet) (hlog : w.log ⊆ w'.log) :
    w.Discreet := fun e he f hf => h e (hlog he) f (hlog hf)

theorem World.Discreet.avoids {w : World} (h : w.Discreet) {q : Request} {reply : Reply}
    {s : Session} (hq : .reply q reply ∈ w.log) (hs : .created s ∈ w.log) : q.Avoids s.id :=
  h _ hq _ hs

/-- Two worlds with the same terminal and clock, whose registries are related. -/
structure Alongside (R : Registry → Registry → Prop) (w v : World) : Prop where
  script : v.script = w.script
  onWrite : v.onWrite = w.onWrite
  written : v.written = w.written
  now : v.now = w.now
  registry : R w.registry v.registry

/-- The requests answered in a world keep a relation of registries. -/
def World.Respects (w : World) (R : Registry → Registry → Prop) : Prop :=
  ∀ q reply, .reply q reply ∈ w.log → ∀ r a, R r a → R (q.answer r).2 (q.answer a).2

namespace Alongside

variable {R : Registry → Registry → Prop} {w v : World}

theorem congr {w' v' : World} (h : Alongside R w v) (hw : w'.toManager = w.toManager)
    (hv : v'.toManager = v.toManager) (hscript : v'.script = w'.script)
    (honWrite : v'.onWrite = w'.onWrite) (hwritten : v'.written = w'.written) :
    Alongside R w' v' where
  script := hscript
  onWrite := honWrite
  written := hwritten
  now := by rw [hw, hv, h.now]
  registry := by rw [hw, hv]; exact h.registry

theorem setRegistry {R' : Registry → Registry → Prop} (h : Alongside R w v) {r : Registry}
    (hr : R w.registry v.registry → R' r v.registry) : Alongside R' (w.setRegistry r) v :=
  ⟨h.script, h.onWrite, h.written, h.now, hr h.registry⟩

theorem outside (h : Alongside R w v) (o : Outside) (hr : (w.outside o).Respects R) :
    Alongside R (w.outside o) (v.outside o) := by
  cases o with
  | clock t => exact ⟨h.script, h.onWrite, h.written, rfl, h.registry⟩
  | request q =>
    refine ⟨h.script, h.onWrite, h.written, h.now, ?_⟩
    exact hr q _ (List.mem_cons_self ..) _ _ h.registry

theorem outsides (h : Alongside R w v) (os : List Outside)
    (hr : (os.foldl World.outside w).Respects R) :
    Alongside R (os.foldl World.outside w) (os.foldl World.outside v) := by
  induction os generalizing w v with
  | nil => exact h
  | cons o os ih =>
    have hlog : (w.outside o).log ⊆ (os.foldl World.outside (w.outside o)).log :=
      World.log_subset_outsides ..
    exact ih (h.outside o fun q reply hmem => hr q reply (hlog hmem)) hr

theorem write (h : Alongside R w v) (line : String) (hr : (w.write line).Respects R) :
    Alongside R (w.write line) (v.write line) := by
  have hcount : Alongside R { w.record (.write line) with written := w.written + 1 }
      { v.record (.write line) with written := v.written + 1 } :=
    ⟨h.script, h.onWrite, congrArg (· + 1) h.written, h.now, h.registry⟩
  have hsteps : v.onWrite (v.written + 1) = w.onWrite (w.written + 1) := by
    rw [h.onWrite, h.written]
  rw [World.write_eq] at hr ⊢
  rw [World.write_eq v, hsteps]
  exact hcount.outsides _ hr

theorem writeAll (h : Alongside R w v) (lines : List String) (hr : (w.writeAll lines).Respects R) :
    Alongside R (w.writeAll lines) (v.writeAll lines) := by
  induction lines generalizing w v with
  | nil => exact h
  | cons line lines ih =>
    have hlog : (w.write line).log ⊆ ((w.write line).writeAll lines).log :=
      World.log_subset_writeAll ..
    exact ih (h.write line fun q reply hmem => hr q reply (hlog hmem)) hr

theorem read (h : Alongside R w v) (own : SessionId) (prompt : String)
    (hr : (w.read own prompt).2.Respects R) :
    Alongside R (w.read own prompt).2 (v.read own prompt).2 := by
  rcases hs : w.script with _ | ⟨entry, rest⟩
  · rw [World.read_of_nil hs, World.read_of_nil (h.script.trans hs)]
    exact h.congr rfl rfl h.script h.onWrite h.written
  · rw [World.read_of_cons hs] at hr ⊢
    rw [World.read_of_cons (h.script.trans hs)]
    have hnext : Alongside R
        { w.record (.prompt own prompt w.registry) with script := rest }
        { v.record (.prompt own prompt v.registry) with script := rest } :=
      ⟨rfl, h.onWrite, h.written, h.now, h.registry⟩
    have hsteps := hnext.outsides entry.before fun q reply hmem =>
      hr q reply (List.mem_cons_of_mem _ hmem)
    exact hsteps.congr rfl rfl hsteps.script hsteps.onWrite hsteps.written

end Alongside
end SessionShell
