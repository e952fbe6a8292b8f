import SessionShell.Proofs.Lookup
import SessionShell.Run.Request

namespace SessionShell

/-- The record without its link, if that leads to `child`. -/
def Session.forget (child : SessionId) (s : Session) : Session :=
  if s.child = some child then { s with child := none } else s

namespace Session

@[simp] theorem parent_forget (c : SessionId) (s : Session) : (s.forget c).parent = s.parent := by
  unfold forget; split <;> rfl

theorem forget_of_child_ne {c : SessionId} {s : Session} (h : s.child ≠ some c) :
    s.forget c = s := if_neg h

theorem forget_of_child {c : SessionId} {s : Session} (h : s.child = some c) :
    s.forget c = { s with child := none } := if_pos h

end Session

namespace Registry

variable {r r' : Registry} {s : Session} {id : SessionId}

theorem register_of_free (h : r.find? s.id = none) : r.register s = .ok (r.insert s) := by
  simp [register, Keyed.contains_eq, h]

theorem register_of_taken (h : r.find? s.id ≠ none) :
    r.register s = .error (.duplicateId s.id) := by
  simp [register, Keyed.contains_eq, Option.isSome_iff_ne_none.2 h]

theorem find?_change (r : Registry) (id : SessionId) (c : Session.Change) (k : SessionId) :
    (r.change id c).find? k = if id = k then (r.find? k).map (·.change c) else r.find? k :=
  Keyed.find?_modify ..

theorem find?_change_self (h : r.find? id = some s) (c : Session.Change) :
    (r.change id c).find? id = some (s.change c) := by
  rw [find?_change, if_pos rfl, h]
  rfl

theorem update_of_find? (c : Session.Change) (h : r.find? id = some s) :
    r.update id c = .ok (s.change c, r.change id c) := by simp [update, h]

theorem update_of_missing (c : Session.Change) (h : r.find? id = none) :
    r.update id c = .error (.sessionNotFound id) := by simp [update, h]

theorem update_ok {c : Session.Change} (h : r.update id c = .ok (s, r')) :
    ∃ t, r.find? id = some t ∧ r' = r.change id c := by
  cases ht : r.find? id with
  | none => simp [update_of_missing c ht] at h
  | some t =>
    rw [update_of_find? c ht] at h
    cases h
    exact ⟨t, rfl, rfl⟩

theorem find?_unlink (r : Registry) (parent child k : SessionId) :
    (r.unlink parent child).find? k =
      if parent = k then (r.find? k).map (·.forget child) else r.find? k := by
  unfold unlink
  split
  · rename_i h
    obtain ⟨p, hp, hc⟩ := Option.bind_eq_some_iff.1 h
    rw [find?_change]
    by_cases hk : parent = k
    · subst hk
      simp [hp, Session.forget_of_child hc, Session.change]
    · simp [hk]
  · rename_i h
    by_cases hk : parent = k
    · subst hk
      cases hp : r.find? parent with
      | none => simp
      | some p => simp [Session.forget_of_child_ne (s := p) (by simpa [hp] using h)]
    · simp [hk]

theorem find?_withdraw (r : Registry) (s : Session) (k : SessionId) :
    (r.withdraw s).find? k =
      if s.id = k then none
      else if s.parent = some k then (r.find? k).map (·.forget s.id)
      else r.find? k := by
  unfold withdraw
  cases hp : s.parent with
  | none => simp [Keyed.find?_erase]
  | some p =>
    by_cases hk : p = k
    · simp [find?_unlink, Keyed.find?_erase, hk]
      split <;> simp
    · simp [find?_unlink, Keyed.find?_erase, hk]

theorem lineage_of_missing (h : r.find? id = none) : r.lineage id = [] := by
  unfold lineage
  cases r.size with
  | zero => rfl
  | succ n => simp [descent, h]

theorem lineage_of_find? (h : r.find? id = some s) : ∃ deeper, r.lineage id = s :: deeper := by
  have hsize : 0 < r.size := List.length_pos_of_mem (Keyed.mem_of_find? h)
  unfold lineage
  obtain ⟨n, hn⟩ : ∃ n, r.size = n + 1 := ⟨r.size - 1, by omega⟩
  rw [hn, descent, h]
  exact ⟨_, rfl⟩

theorem lineage_of_childless (h : r.find? id = some s) (hc : s.child = none) :
    r.lineage id = [s] := by
  have hsize : 0 < r.size := List.length_pos_of_mem (Keyed.mem_of_find? h)
  unfold lineage
  obtain ⟨n, hn⟩ : ∃ n, r.size = n + 1 := ⟨r.size - 1, by omega⟩
  rw [hn, descent]
  simp [h, hc]

end Registry

namespace Request

/-- What a request makes of the record, if there is one, under an identifier. -/
def on (id : SessionId) : Request → Option Session → Option Session
  | register s, o => if s.id = id then o.or (some s) else o
  | deregister i, o => if i = id then none else o
  | update i c, o => if i = id then o.map (·.change c) else o
  | _, o => o

theorem find?_answer (q : Request) (r : Registry) (id : SessionId) :
    (q.answer r).2.find? id = q.on id (r.find? id) := by
  cases q with
  | register s =>
    cases h : r.find? s.id with
    | none =>
      simp only [answer, Registry.register_of_free h, on, Keyed.find?_insert]
      by_cases hid : s.id = id
      · subst hid
        simp [h]
      · simp [hid]
    | some t =>
      have htaken : r.find? s.id ≠ none := by simp [h]
      simp only [answer, Registry.register_of_taken htaken, on]
      by_cases hid : s.id = id
      · subst hid
        simp [h]
      · simp [hid]
  | deregister i => exact Keyed.find?_erase r i id
  | update i c =>
    cases h : r.find? i with
    | none =>
      simp only [answer, Registry.update_of_missing c h, on]
      by_cases hid : i = id
      · subst hid
        simp [h]
      · simp [hid]
    | some s =>
      simp only [answer, Registry.update_of_find? c h, on]
      exact Registry.find?_change r i c id
  | lookup | contains | count | list | misnamed | malformed => rfl

/-- Whether a request does not act on the record under an identifier. -/
def Spares (id : SessionId) : Request → Prop
  | register s => s.id ≠ id
  | deregister i => i ≠ id
  | update i _ => i ≠ id
  | _ => True

instance (id : SessionId) : (q : Request) → Decidable (q.Spares id)
  | register s => inferInstanceAs (Decidable (s.id ≠ id))
  | deregister i => inferInstanceAs (Decidable (i ≠ id))
  | update i _ => inferInstanceAs (Decidable (i ≠ id))
  | lookup _ | contains _ | count | list | misnamed _ | malformed _ => isTrue trivial

theorem on_of_spares {q : Request} {id : SessionId} (h : q.Spares id) (o : Option Session) :
    q.on id o = o := by
  cases q with
  | register s => simp [on, show s.id ≠ id from h]
  | deregister i => simp [on, show i ≠ id from h]
  | update i c => simp [on, show i ≠ id from h]
  | lookup | contains | count | list | misnamed | malformed => rfl

theorem reply_register {r : Registry} {s : Session} (h : r.find? s.id = none) :
    ((register s).answer r).1 = .done := by simp [answer, Registry.register_of_free h]

end Request
end SessionShell
