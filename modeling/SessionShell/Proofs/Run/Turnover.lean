import SessionShell.Proofs.Run.Invariant

namespace SessionShell

/-- A property of the world that is kept as long as nobody is registered. -/
structure RemovalInvariant (J : World → Prop) : Prop extends TerminalInvariant J where
  /-- Nobody is registered who was not before. -/
  setRegistry {w : World} {r : Registry}
    (hr : ∀ id, w.registry.find? id = none → r.find? id = none) : J w → J (w.setRegistry r)
  removed {w : World} (s : Session) (r : Registry) : J w → J (w.record (.removed s r))

namespace RemovalInvariant

variable {J : World → Prop} {w : World}

theorem change (h : RemovalInvariant J) (id : SessionId) (c : Session.Change) (hw : J w) :
    J (w.setRegistry (w.registry.change id c)) := by
  apply h.setRegistry _ hw
  intro k hk
  simp [Registry.find?_change, hk]

theorem retire (h : RemovalInvariant J) (id : SessionId) (hw : J w) : J (w.retire id) := by
  cases hf : w.registry.find? id with
  | none => rwa [World.retire_of_missing hf]
  | some s =>
    rw [World.retire_of_find? hf]
    apply h.removed
    apply h.setRegistry _ hw
    intro k hk
    simp [Registry.find?_withdraw, hk]

theorem discard (h : RemovalInvariant J) (id : SessionId) (hw : J w) : J (w.discard id) := by
  cases hf : w.registry.find? id with
  | none => rwa [World.discard_of_missing hf]
  | some s =>
    rw [World.discard_of_find? hf]
    apply h.removed
    apply h.setRegistry _ hw
    intro k hk
    simp [Keyed.find?_erase, hk]

theorem teardown (h : RemovalInvariant J) (id : SessionId) (hw : J w) : J (w.teardown id).2 :=
  World.teardownAll_of_retire (fun _ line => h.write line) (fun _ id => h.retire id) _ hw

end RemovalInvariant

/-- A property of the world that the elementary changes of the operations keep. -/
structure TurnoverInvariant (shell : Shell) (J : World → Prop) : Prop extends
    RemovalInvariant J where
  draw {w : World} {ids : IdSource} (hids : w.ids.drawn < ids.drawn) : J w → J { w with ids }
  enter {w : World} {ids : IdSource} {s : Session} {parent : Option SessionId}
    (hids : w.ids.drawn < ids.drawn)
    (hs : s = shell.newborn ⟨w.now.stamp, UInt32.ofNat ids.drawn⟩ w.now parent) :
    J w → J (w.enter s ids)

namespace TurnoverInvariant

variable {shell : Shell} {J : World → Prop} {w : World}

theorem create (h : TurnoverInvariant shell J) (parent : Option SessionId) (hw : J w) :
    J (w.create shell parent).2 := by
  rcases hc : w.create shell parent with ⟨e | s, w'⟩
  · obtain ⟨ids, hids, rfl, -⟩ := World.create_error hc
    exact h.draw hids hw
  · obtain ⟨ids, hids, -, hs, rfl⟩ := World.create_ok hc
    exact h.writeAll _ (h.enter hids hs hw)

theorem createChild (h : TurnoverInvariant shell J) (p : SessionId) (hw : J w) :
    J (w.createChild shell p).2 := by
  have hcreate := h.create (some p) hw
  rcases hc : w.createChild shell p with ⟨e | c, w'⟩
  · -- refused at once, without a free candidate, or for want of a link to the parent
    obtain rfl | ⟨-, -, -, hnew⟩ | ⟨-, c, w₁, -, -, hnew, -, rfl⟩ := World.createChild_error hc
    · exact hw
    · rwa [hnew] at hcreate
    · rw [hnew] at hcreate
      exact h.discard _ hcreate
  · obtain ⟨-, -, w₁, -, -, hnew, -, -, rfl⟩ := World.createChild_ok hc
    rw [hnew] at hcreate
    exact h.change _ _ hcreate

theorem run (h : TurnoverInvariant shell J) : RunInvariant shell fun _ => J where
  write line := h.write line
  read prompt := h.read _ prompt
  setPrompt hr hw := by
    obtain ⟨t, -, rfl⟩ := Registry.update_ok hr
    exact h.change _ _ hw
  child {own _ _ _ _} hc hw := by
    have hchild := h.createChild own hw
    rwa [hc] at hchild
  noChild {own _ _ _ _} he hw := by
    have hchild := h.createChild own hw
    rwa [he] at hchild
  teardown := h.teardown _
  retire := h.retire _

theorem operation (h : TurnoverInvariant shell J) (op : Operation) (hw : J w) :
    J (op.performIn shell w).2 :=
  h.run.operation (fun parent => h.create parent hw) op hw

end TurnoverInvariant
end SessionShell
