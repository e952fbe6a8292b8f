import SessionShell.Proofs.Registry
import SessionShell.Run.Loop

namespace SessionShell

namespace IdSource

/-- The first of `spare + 1` candidates that is not taken, or else the last of them. -/
def firstFree (taken : SessionId → Bool) (t : Instant) :
    (spare : Nat) → IdSource → Except SessionId SessionId × IdSource
  | 0, ids => (if taken (ids.draw t).1 then .error (ids.draw t).1 else .ok (ids.draw t).1,
      (ids.draw t).2)
  | spare + 1, ids =>
    if taken (ids.draw t).1 then firstFree taken t spare (ids.draw t).2
    else (.ok (ids.draw t).1, (ids.draw t).2)

variable {taken : SessionId → Bool} {t : Instant} {spare : Nat} {ids : IdSource}

theorem firstFree_spec {o : Except SessionId SessionId} {ids' : IdSource}
    (h : firstFree taken t spare ids = (o, ids')) :
    ids.drawn < ids'.drawn ∧
      ∀ id, o = .ok id → taken id = false ∧ id = ⟨t.stamp, UInt32.ofNat ids'.drawn⟩ := by
  induction spare generalizing ids with
  | zero =>
    cases h
    refine ⟨Nat.lt_succ_self _, fun id hid => ?_⟩
    by_cases htaken : taken (ids.draw t).1
    · simp [htaken] at hid
    · simp only [htaken] at hid
      cases hid
      exact ⟨by simpa using htaken, rfl⟩
  | succ spare ih =>
    rw [firstFree] at h
    by_cases htaken : taken (ids.draw t).1
    · obtain ⟨hlt, hok⟩ := ih (by simpa [htaken] using h)
      exact ⟨Nat.lt_of_succ_lt hlt, hok⟩
    · simp only [htaken] at h
      cases h
      refine ⟨Nat.lt_succ_self _, fun id hid => ?_⟩
      cases hid
      exact ⟨by simpa using htaken, rfl⟩

end IdSource

def Shell.bare : Shell := { resolver := { providers := [] } }

/-- The record of a session that has just been created. -/
def Shell.newborn (shell : Shell) (id : SessionId) (started : Instant)
    (parent : Option SessionId) : Session := ⟨id, started, shell.prompt, parent, none⟩

theorem Manager.enroll_eq (shell : Shell) (t : Instant) (parent : Option SessionId) (spare : Nat)
    (m : Manager) :
    m.enroll shell t parent spare =
      match IdSource.firstFree m.registry.contains t spare m.ids with
      | (.ok id, ids) =>
        (.ok (shell.newborn id t parent),
          { m with registry := m.registry.insert (shell.newborn id t parent), ids })
      | (.error id, ids) => (.error (.duplicateId id), { m with ids }) := by
  induction spare generalizing m with
  | zero =>
    rw [enroll, IdSource.firstFree]
    by_cases h : m.registry.contains (m.ids.draw t).1 <;> simp [Registry.register, Shell.newborn, h]
  | succ spare ih =>
    rw [enroll, IdSource.firstFree]
    by_cases h : m.registry.contains (m.ids.draw t).1
    · simp [Registry.register, h, ih]
    · simp [Registry.register, Shell.newborn, h]

namespace World

variable {shell : Shell} {w w' : World} {parent : Option SessionId} {id : SessionId}
  {s c : Session} {e : ShellError}

theorem write_eq (w : World) (line : String) :
    w.write line = (w.onWrite (w.written + 1)).foldl outside
      { w.record (.write line) with written := w.written + 1 } := rfl

theorem read_of_nil (h : w.script = []) (own : SessionId) (prompt : String) :
    w.read own prompt = (.endOfInput,
      (w.record (.prompt own prompt w.registry)).record (.input own .endOfInput)) := by
  simp [read, record, h]

theorem read_of_cons {entry : Entry} {rest : List Entry} (h : w.script = entry :: rest)
    (own : SessionId) (prompt : String) :
    w.read own prompt = (entry.outcome,
      (entry.before.foldl outside
        { w.record (.prompt own prompt w.registry) with script := rest }).record
          (.input own entry.outcome)) := by
  simp [read, record, h]

/-- The world in which a session has been registered, before its birth notice. -/
def enter (s : Session) (ids : IdSource) (w : World) : World :=
  { w with registry := w.registry.insert s, ids }.record (.created s)

theorem create_eq (shell : Shell) (parent : Option SessionId) (w : World) :
    w.create shell parent =
      match IdSource.firstFree w.registry.contains w.now (maxCandidates - 1) w.ids with
      | (.ok id, ids) =>
        let s := shell.newborn id w.now parent
        (.ok s, (w.enter s ids).writeAll s.birthNotice)
      | (.error id, ids) => (.error (.duplicateId id), { w with ids }) := by
  rw [create, Manager.enroll_eq]
  rcases IdSource.firstFree w.registry.contains w.now (maxCandidates - 1) w.ids with
    ⟨_ | id, ids⟩ <;> rfl

theorem create_ok (h : w.create shell parent = (.ok s, w')) :
    ∃ ids : IdSource, w.ids.drawn < ids.drawn ∧ w.registry.find? s.id = none ∧
      s = shell.newborn ⟨w.now.stamp, UInt32.ofNat ids.drawn⟩ w.now parent ∧
      w' = (w.enter s ids).writeAll s.birthNotice := by
  rw [create_eq] at h
  rcases hf : IdSource.firstFree w.registry.contains w.now (maxCandidates - 1) w.ids with
    ⟨_ | id, ids⟩ <;> simp only [hf] at h <;> cases h
  obtain ⟨hlt, hok⟩ := IdSource.firstFree_spec hf
  obtain ⟨hfree, rfl⟩ := hok id rfl
  refine ⟨ids, hlt, ?_, rfl, rfl⟩
  rw [Keyed.contains_eq] at hfree
  exact Option.isNone_iff_eq_none.1 (Option.isSome_eq_false_iff.1 hfree)

theorem links_of_create (h : w.create shell parent = (.ok s, w')) :
    s.child = none ∧ s.parent = parent := by
  obtain ⟨ids, -, -, rfl, -⟩ := create_ok h
  exact ⟨rfl, rfl⟩

theorem create_error (h : w.create shell parent = (.error e, w')) :
    ∃ ids : IdSource, w.ids.drawn < ids.drawn ∧ w' = { w with ids } ∧
      ∃ id, e = .duplicateId id := by
  rw [create_eq] at h
  rcases hf : IdSource.firstFree w.registry.contains w.now (maxCandidates - 1) w.ids with
    ⟨id | _, ids⟩ <;> simp only [hf] at h <;> cases h
  exact ⟨ids, (IdSource.firstFree_spec hf).1, rfl, id, rfl⟩

/-- A child is linked if its parent is there without a child, before and after the birth notice. -/
theorem createChild_ok {parent : SessionId} (h : w.createChild shell parent = (.ok c, w')) :
    ∃ p q w₁, w.registry.find? parent = some p ∧ p.child = none ∧
      w.create shell (some parent) = (.ok c, w₁) ∧
      w₁.registry.find? parent = some q ∧ q.child = none ∧
      w' = w₁.setRegistry (w₁.registry.change parent { child := some (some c.id) }) := by
  simp only [createChild, Registry.link] at h
  split at h
  · cases h
  · rename_i p hp
    split at h
    · cases h
    · rename_i hpc
      split at h
      · cases h
      · rename_i c' w₁ hc
        split at h
        · rename_i r hr
          split at hr
          · cases hr
          · rename_i q hq
            split at hr <;> cases hr
            rename_i hqc
            cases h
            exact ⟨p, q, w₁, hp, hpc, hc, hq, hqc, rfl⟩
        · cases h

/-- Why no child comes of a parent: it is refused at once, no identifier is free, or the parent is
found gone or with a child after the birth notice, and then the new session is discarded. -/
theorem createChild_error {parent : SessionId} (h : w.createChild shell parent = (.error e, w')) :
    w' = w ∨
    (∃ p, w.registry.find? parent = some p ∧ p.child = none ∧
      w.create shell (some parent) = (.error e, w')) ∨
    ∃ p c w₁, w.registry.find? parent = some p ∧ p.child = none ∧
      w.create shell (some parent) = (.ok c, w₁) ∧
      (∀ q, w₁.registry.find? parent = some q → q.child ≠ none) ∧ w' = w₁.discard c.id := by
  simp only [createChild, Registry.link] at h
  split at h
  · cases h
    exact .inl rfl
  · rename_i p hp
    split at h
    · cases h
      exact .inl rfl
    · rename_i hpc
      split at h
      · rename_i hc
        cases h
        exact .inr (.inl ⟨p, hp, hpc, hc⟩)
      · rename_i c w₁ hc
        refine .inr (.inr ⟨p, c, w₁, hp, hpc, hc, ?_⟩)
        -- the parent is looked at again, after the birth notice
        split at h
        · cases h
        · rename_i hr
          cases h
          refine ⟨fun q hq hqc => ?_, rfl⟩
          simp [hq, hqc] at hr

theorem retire?_of_find? (h : w.registry.find? id = some s) :
    w.retire? id =
      some ((w.setRegistry (w.registry.withdraw s)).record (.removed s w.registry)) := by
  simp [retire?, remove?, h]

theorem retire?_of_missing (h : w.registry.find? id = none) : w.retire? id = none := by
  simp [retire?, remove?, h]

theorem retire_of_find? (h : w.registry.find? id = some s) :
    w.retire id = (w.setRegistry (w.registry.withdraw s)).record (.removed s w.registry) := by
  simp [retire, retire?_of_find? h]

theorem retire_of_missing (h : w.registry.find? id = none) : w.retire id = w := by
  simp [retire, retire?_of_missing h]

theorem find?_retire (w : World) (id : SessionId) : (w.retire id).registry.find? id = none := by
  cases hf : w.registry.find? id with
  | none => rwa [retire_of_missing hf]
  | some s =>
    rw [retire_of_find? hf]
    show (w.registry.withdraw s).find? id = none
    rw [Registry.find?_withdraw, if_pos (Keyed.key_of_find? hf)]

theorem discard_of_find? (h : w.registry.find? id = some s) :
    w.discard id = (w.setRegistry (w.registry.erase s.id)).record (.removed s w.registry) := by
  simp [discard, remove?, h]

theorem discard_of_missing (h : w.registry.find? id = none) : w.discard id = w := by
  simp [discard, remove?, h]

theorem teardownAll_cons_of_find? {t : Session} {deeper : List Session}
    (h : (teardownAll deeper w).2.registry.find? s.id = some t) :
    (teardownAll (s :: deeper) w).2 =
      ((teardownAll deeper w).2.retire s.id).writeAll s.deathNotice := by
  simp [teardownAll, retire?_of_find? h, retire_of_find? h]

theorem teardownAll_cons_of_missing {deeper : List Session}
    (h : (teardownAll deeper w).2.registry.find? s.id = none) :
    (teardownAll (s :: deeper) w).2 = (teardownAll deeper w).2 := by
  simp [teardownAll, retire?_of_missing h]

/-- A session is retired after all behind it, and announced if it was still there. -/
theorem teardownAll_cons (s : Session) (deeper : List Session) (w : World) :
    (teardownAll (s :: deeper) w).2 = (teardownAll deeper w).2.retire s.id ∨
    (teardownAll (s :: deeper) w).2 =
      ((teardownAll deeper w).2.retire s.id).writeAll s.deathNotice := by
  cases h : (teardownAll deeper w).2.registry.find? s.id with
  | none => exact .inl (by rw [teardownAll_cons_of_missing h, retire_of_missing h])
  | some t => exact .inr (teardownAll_cons_of_find? h)

theorem teardown_of_childless (hs : w.registry.find? id = some s) (hc : s.child = none) :
    (w.teardown id).2 = (w.retire id).writeAll s.deathNotice := by
  have hid : s.id = id := Keyed.key_of_find? hs
  rw [teardown, Registry.lineage_of_childless hs hc]
  simp [teardownAll, hid, retire?_of_find? hs, retire_of_find? hs]

end World
end SessionShell
