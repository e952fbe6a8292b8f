import SessionShell.Proofs.Run.Adoption
import SessionShell.Proofs.Run.Course

namespace SessionShell

/-- Whether a step of another party does not act on the record under an identifier. -/
def Outside.Spares (id : SessionId) : Outside → Prop
  | clock _ => True
  | request q => q.Spares id

instance Outside.decidableSpares (id : SessionId) : (o : Outside) → Decidable (o.Spares id)
  | .clock _ => isTrue trivial
  | .request q => inferInstanceAs (Decidable (q.Spares id))

theorem Registry.find?_after {id : SessionId} {os : List Outside} (hos : ∀ o ∈ os, o.Spares id)
    (r : Registry) : (r.after os).find? id = r.find? id := by
  induction os generalizing r with
  | nil => rfl
  | cons o os ih =>
    obtain ⟨ho, hrest⟩ := List.forall_mem_cons.1 hos
    cases o with
    | clock t => exact ih hrest r
    | request q =>
      have hq : q.Spares id := ho
      show (Registry.after (q.answer r).2 os).find? id = _
      rw [ih hrest, Request.find?_answer, Request.on_of_spares hq]

/-- Reading and writing leave the records as they are that other parties spare. -/
theorem terminalInvariant_records (spared : SessionId → Prop) (f : SessionId → Option Session) :
    TerminalInvariant fun w => (∀ id, spared id → w.Only (·.Spares id)) ∧
      ∀ id, spared id → w.registry.find? id = f id := by
  refine .of_allowed (P := fun o => ∀ id, spared id → o.Spares id) (fun w h => ?_)
    (fun _ _ _ h => h) (fun w o ho h => ?_) (fun _ h => h) fun w e rest hs h => ?_
  · exact ⟨fun e he o ho id hid => (h.1 id hid).1 e he o ho,
      fun n o ho id hid => (h.1 id hid).2 n o ho⟩
  · refine ⟨?_, fun id hid => ?_⟩
    · cases o <;> exact h.1
    · have hstep : (w.outside o).registry = w.registry.after [o] := by cases o <;> rfl
      rw [hstep, Registry.find?_after (by simpa using ho id hid), h.2 id hid]
  · exact ⟨fun id hid => ⟨fun e he => (h.1 id hid).1 e (by simp [hs, he]), (h.1 id hid).2⟩, h.2⟩

/-- The sessions of a run stand in the registry, and other parties spare them. -/
structure Afoot (spared : SessionId → Prop) (stack : List SessionId) (w : World) : Prop where
  members : ∀ id ∈ stack, spared id
  only : ∀ id, spared id → w.Only (·.Spares id)
  nodup : stack.Nodup
  stands : w.registry.Stands none none stack

namespace Afoot

variable {shell : Shell} {spared : SessionId → Prop} {stack : List SessionId} {own : SessionId}
  {w w₁ : World} {c : Session} {e : ShellError}

theorem terminal (spared : SessionId → Prop) (stack : List SessionId) :
    TerminalInvariant (Afoot spared stack) := by
  have hkept {w v : World} (h : Afoot spared stack w)
      (hv : (∀ id, spared id → v.Only (·.Spares id)) ∧
        ∀ id, spared id → v.registry.find? id = w.registry.find? id) : Afoot spared stack v :=
    ⟨h.members, hv.1, h.nodup, h.stands.congr_find? fun id hid => hv.2 id (h.members id hid)⟩
  have hrecords (w : World) := terminalInvariant_records spared w.registry.find?
  exact ⟨fun {w} line h => hkept h ((hrecords w).write line ⟨h.only, fun _ _ => rfl⟩),
    fun {w} own prompt h => hkept h ((hrecords w).read own prompt ⟨h.only, fun _ _ => rfl⟩)⟩

theorem find?_own (h : Afoot spared (own :: stack) w) :
    ∃ s, w.registry.find? own = some s ∧ s.child = none := by
  obtain ⟨⟨s, hs, hchild, -⟩, -⟩ := h.stands
  exact ⟨s, hs, hchild⟩

theorem ask {r : ReadOutcome} (h : Afoot spared (own :: stack) w)
    (hask : w.ask shell own = (r, w₁)) : Afoot spared (own :: stack) w₁ := by
  obtain ⟨-, rfl⟩ := Prod.mk.inj hask
  exact (terminal spared _).read _ _ h

theorem rename (h : Afoot spared (own :: stack) w) (text : String) :
    Afoot spared (own :: stack) (w.rename own text) := by
  obtain ⟨s, hs, -⟩ := h.find?_own
  rw [World.rename_of_find? hs]
  refine ⟨h.members, h.only, h.nodup, h.stands.congr fun id _ s hs => ?_⟩
  show ∃ t, (w.registry.change own _).find? id = some t ∧ _
  rw [Registry.find?_change, hs]
  split
  · exact ⟨_, rfl, rfl, rfl⟩
  · exact ⟨s, rfl, rfl, rfl⟩

/-- When a session has been created those spared are as they were, but for the new one. -/
theorem find?_create {parent : Option SessionId} (h : Afoot spared stack w)
    (hc : w.create shell parent = (.ok c, w₁)) :
    w.registry.find? c.id = none ∧ (∀ id, spared id → w₁.Only (·.Spares id)) ∧
      ∀ id, spared id → w₁.registry.find? id = Keyed.find? (w.registry.insert c) id := by
  obtain ⟨ids, -, hfree, -, rfl⟩ := World.create_ok hc
  have hrecords := terminalInvariant_records spared (Keyed.find? (w.registry.insert c))
  exact ⟨hfree, hrecords.writeAll (w := w.enter c ids) c.birthNotice ⟨h.only, fun _ _ => rfl⟩⟩

theorem createChild_eq (h : Afoot spared (own :: stack) w) :
    w.createChild shell own =
      match w.create shell (some own) with
      | (.ok c, w₁) =>
        (.ok c, w₁.setRegistry (w₁.registry.change own { child := some (some c.id) }))
      | (.error e, w₁) => (.error e, w₁) := by
  obtain ⟨s, hs, hchild⟩ := h.find?_own
  rcases hc : w.create shell (some own) with ⟨e | c, w₁⟩
  · exact World.createChild_of_error hs hchild hc
  · obtain ⟨hfree, -, hrecords⟩ := h.find?_create hc
    have hown : w₁.registry.find? own = some s := by
      rw [hrecords own (h.members own (List.mem_cons_self ..)), Keyed.find?_insert,
        if_neg (Keyed.ne_of_missing hfree hs), hs]
    rw [World.createChild_of_create hs hchild hc, Registry.link_of_childless hown hchild]

theorem createChild (h : Afoot spared (own :: stack) w)
    (hc : w.createChild shell own = (.ok c, w₁)) (hspared : spared c.id) :
    Afoot spared (c.id :: own :: stack) w₁ := by
  obtain ⟨-, -, w₁, -, -, hnew, -, -, rfl⟩ := World.createChild_ok hc
  obtain ⟨hchild, hparent⟩ := World.links_of_create hnew
  obtain ⟨hfree, honly, hrecords⟩ := h.find?_create hnew
  obtain ⟨hstands, hnodup⟩ := h.stands.adopt h.nodup hfree hchild hparent
  have hmembers := List.forall_mem_cons.2 ⟨hspared, h.members⟩
  refine ⟨hmembers, honly, hnodup, hstands.congr_find? fun id hid => ?_⟩
  show (w₁.registry.change own _).find? id = _
  rw [Registry.adopt, Registry.find?_change, Registry.find?_change, hrecords id (hmembers id hid)]

theorem createChild_error (h : Afoot spared (own :: stack) w)
    (he : w.createChild shell own = (.error e, w₁)) : Afoot spared (own :: stack) w₁ := by
  rw [h.createChild_eq] at he
  rcases hc : w.create shell (some own) with ⟨e' | c, w₂⟩ <;> rw [hc] at he <;> cases he
  obtain ⟨ids, -, rfl, -⟩ := World.create_error hc
  exact ⟨h.members, h.only, h.nodup, h.stands⟩

theorem retire (h : Afoot spared (own :: stack) w) : Afoot spared stack (w.retire own) := by
  obtain ⟨s, hs, -⟩ := h.find?_own
  rw [World.retire_of_find? hs]
  exact ⟨(List.forall_mem_cons.1 h.members).2, h.only, (List.nodup_cons.1 h.nodup).2,
    h.stands.withdraw h.nodup hs⟩

theorem teardown_eq (h : Afoot spared (own :: stack) w) :
    ∃ s, w.registry.find? own = some s ∧
      (w.teardown own).2 = (w.retire own).writeAll s.deathNotice := by
  obtain ⟨s, hs, hchild⟩ := h.find?_own
  exact ⟨s, hs, World.teardown_of_childless hs hchild⟩

theorem teardown (h : Afoot spared (own :: stack) w) : Afoot spared stack (w.teardown own).2 := by
  obtain ⟨s, -, e⟩ := h.teardown_eq
  rw [e]
  exact (terminal spared stack).writeAll _ h.retire

theorem top {s : Session} (honly : ∀ id, spared id → w.Only (·.Spares id))
    (hc : w.create shell none = (.ok s, w₁)) (hspared : spared s.id) : Afoot spared [s.id] w₁ := by
  have hnone : Afoot spared [] w := ⟨by simp, honly, List.nodup_nil, trivial⟩
  obtain ⟨-, honly₁, hrecords⟩ := hnone.find?_create hc
  obtain ⟨hchild, hparent⟩ := World.links_of_create hc
  have hs : w₁.registry.find? s.id = some s := by
    rw [hrecords s.id hspared, Keyed.find?_insert, if_pos rfl]
  exact ⟨by simpa using hspared, honly₁, List.nodup_singleton _,
    ⟨s, hs, hchild, hparent⟩, trivial⟩

end Afoot

end SessionShell
