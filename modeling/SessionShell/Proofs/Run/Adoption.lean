import SessionShell.Proofs.Run.Frame

namespace SessionShell

namespace Registry

variable {r : Registry} {p k : SessionId} {s : Session}

theorem link_of_missing (h : r.find? p = none) (c : SessionId) :
    r.link p c = .error (.sessionNotFound p) := by simp [link, h]

theorem link_of_child (h : r.child? p = some k) (c : SessionId) :
    r.link p c = .error (.childAlreadyLive p k) := by
  obtain ⟨s, hs, hsc⟩ := child?_eq_some.1 h
  simp [link, hs, hsc]

theorem link_of_childless (hs : r.find? p = some s) (hsc : s.child = none) (c : SessionId) :
    r.link p c = .ok (r.change p { child := some (some c) }) := by simp [link, hs, hsc]

theorem child?_cases (r : Registry) (p : SessionId) :
    r.find? p = none ∨ (∃ k, r.child? p = some k) ∨ ∃ s, r.find? p = some s ∧ s.child = none := by
  cases hs : r.find? p with
  | none => exact .inl rfl
  | some s =>
    cases hsc : s.child with
    | none => exact .inr (.inr ⟨s, rfl, hsc⟩)
    | some k => exact .inr (.inl ⟨k, child?_eq_some.2 ⟨s, hs, hsc⟩⟩)

end Registry

namespace World

variable {shell : Shell} {w w₁ : World} {p k : SessionId} {s c : Session} {e : ShellError}

theorem createChild_of_missing (h : w.registry.find? p = none) :
    w.createChild shell p = (.error (.sessionNotFound p), w) := by simp [createChild, h]

theorem createChild_of_child (h : w.registry.child? p = some k) :
    w.createChild shell p = (.error (.childAlreadyLive p k), w) := by
  obtain ⟨s, hs, hsc⟩ := Registry.child?_eq_some.1 h
  simp [createChild, hs, hsc]

theorem createChild_of_error (hs : w.registry.find? p = some s) (hsc : s.child = none)
    (he : w.create shell (some p) = (.error e, w₁)) :
    w.createChild shell p = (.error e, w₁) := by simp [createChild, hs, hsc, he]

theorem createChild_of_create (hs : w.registry.find? p = some s) (hsc : s.child = none)
    (hc : w.create shell (some p) = (.ok c, w₁)) :
    w.createChild shell p =
      match w₁.registry.link p c.id with
      | .ok r => (.ok c, w₁.setRegistry r)
      | .error e => (.error e, w₁.discard c.id) := by
  cases hl : w₁.registry.link p c.id <;> simp [createChild, hs, hsc, hc, hl]

end World

/-- What has come of creating a child of `parent` in the registry `r`, of which others alone would
have made `a`: an answer and a registry. -/
structure Adoption (parent : SessionId) (r a : Registry) (o : Except ShellError Session)
    (r' : Registry) : Prop where
  adopted : ∀ c, o = .ok c → c.parent = some parent ∧ c.child = none ∧ r.find? c.id = none ∧
    a.find? c.id = none ∧ (∃ p, a.find? parent = some p ∧ p.child = none) ∧
      r' = a.adopt parent c
  undone : ∀ e, o = .error e → r' = a
  missing : ∀ q, o = .error (.sessionNotFound q) ↔
    q = parent ∧ (r.find? parent = none ∨ a.find? parent = none)
  taken : ∀ q k, o = .error (.childAlreadyLive q k) ↔
    q = parent ∧ (r.child? parent = some k ∨ a.child? parent = some k)

namespace Adoption

variable {parent k id : SessionId} {r a : Registry} {p q c : Session}

theorem of_missing (h : r.find? parent = none ∨ a.find? parent = none)
    (hr : r.child? parent = none) (ha : a.child? parent = none) :
    Adoption parent r a (.error (.sessionNotFound parent)) a where
  adopted := nofun
  undone _ _ := rfl
  missing q := by
    simp only [Except.error.injEq, ShellError.sessionNotFound.injEq, h, and_true]
    exact eq_comm
  taken q k := by simp [hr, ha]

theorem of_child (h : r.child? parent = some k ∨ a.child? parent = some k)
    (hr : r.find? parent ≠ none) (ha : a.find? parent ≠ none)
    (hrk : ∀ j, r.child? parent = some j → j = k) (hak : ∀ j, a.child? parent = some j → j = k) :
    Adoption parent r a (.error (.childAlreadyLive parent k)) a where
  adopted := nofun
  undone _ _ := rfl
  missing q := by simp [hr, ha]
  taken q j := by
    simp only [Except.error.injEq, ShellError.childAlreadyLive.injEq]
    constructor
    · rintro ⟨rfl, rfl⟩
      exact ⟨rfl, h⟩
    · rintro ⟨rfl, hj | hj⟩
      · exact ⟨rfl, (hrk j hj).symm⟩
      · exact ⟨rfl, (hak j hj).symm⟩

theorem of_duplicate (hp : r.find? parent = some p) (hpc : p.child = none) :
    Adoption parent r r (.error (.duplicateId id)) r where
  adopted := nofun
  undone _ _ := rfl
  missing q := by simp [hp]
  taken q k := by simp [Registry.child?_of_find? hp, hpc]

theorem of_childless (hp : r.find? parent = some p) (hpc : p.child = none)
    (hq : a.find? parent = some q) (hqc : q.child = none) (hchild : c.child = none)
    (hparent : c.parent = some parent) (hr : r.find? c.id = none) (ha : a.find? c.id = none) :
    Adoption parent r a (.ok c) (a.adopt parent c) where
  adopted := by
    rintro _ ⟨⟩
    exact ⟨hparent, hchild, hr, ha, ⟨q, hq, hqc⟩, rfl⟩
  undone := nofun
  missing q := by simp [hp, hq]
  taken q k := by simp [Registry.child?_of_find? hp, Registry.child?_of_find? hq, hpc, hqc]

end Adoption

/-- A new session that awaits its link is all that there is besides what others have made. -/
theorem Awaiting.eq_insert {outer : Option SessionId} {c : Session} {r a : Registry}
    (h : Awaiting outer [] c r a) : r = Keyed.insert a c ∧ a.find? c.id = none := by
  obtain rfl := Apart.nil_iff.1 h.apart
  exact ⟨(Keyed.insert_erase h.present).symm, Awaiting.free r c⟩

namespace World

variable {shell : Shell} {m : Manager} {v w w' w₁ : World} {parent : SessionId} {p c : Session}
  {o : Except ShellError Session}

@[simp] theorem bystander_discard (v w : World) (id : SessionId) :
    v.bystander (w.discard id).events = v.bystander w.events := by
  cases hs : w.registry.find? id with
  | none => rw [discard_of_missing hs]
  | some s =>
    rw [discard_of_find? hs, bystander_record]
    rfl

/-- After the birth notice the new session is linked or discarded, as others have left its parent. -/
theorem adoption_of_create (hv : Secluded v (some parent) [] w)
    (hp : w.registry.find? parent = some p) (hpc : p.child = none)
    (hc : w.create shell (some parent) = (.ok c, w₁)) (h : w.createChild shell parent = (o, w'))
    (hd : w'.Discreet) :
    Adoption parent w.registry (v.bystander w'.events).registry o w'.registry ∧
      .created c ∈ w'.log := by
  obtain ⟨hchild, hparent⟩ := links_of_create hc
  obtain ⟨ids, -, hfree, -⟩ := create_ok hc
  have hne : c.id ≠ parent := Keyed.ne_of_missing hfree hp
  have hundone (e : ShellError) (he : o = .error e) :
      w'.registry = (v.bystander w'.events).registry :=
    Apart.nil_iff.1 ((hv.createChild_error (he ▸ h)).beside hd).registry
  rw [createChild_of_create hp hpc hc] at h
  have hlog : w₁.log ⊆ w'.log := by
    cases hl : w₁.registry.link parent c.id <;> rw [hl] at h <;> cases h
    · exact (worldInvariant_subset_log _).discard c.id (List.Subset.refl _)
    · exact List.Subset.refl _
  obtain ⟨hr, hfree'⟩ := (hv.create hc (hd.mono hlog)).registry.eq_insert
  have hfind : w₁.registry.find? parent = (v.bystander w₁.events).registry.find? parent := by
    rw [hr, Keyed.find?_insert, if_neg hne]
  have hlink : w₁.registry.child? parent = (v.bystander w₁.events).registry.child? parent := by
    rw [Registry.child?, hfind, Registry.child?]
  have hpw : w.registry.child? parent = none := by rw [Registry.child?_of_find? hp, hpc]
  refine ⟨?_, hlog (Secluded.log_subset_create hc).2⟩
  -- the parent as it is after the birth notice decides
  rcases (v.bystander w₁.events).registry.child?_cases parent with hq | ⟨k, hk⟩ | ⟨q, hq, hqc⟩
  · rw [Registry.link_of_missing (hfind.trans hq)] at h
    cases h
    rw [hundone _ rfl, bystander_discard]
    exact .of_missing (.inr hq) hpw (Registry.child?_of_missing hq)
  · rw [Registry.link_of_child (hlink.trans hk)] at h
    cases h
    obtain ⟨q, hq, -⟩ := Registry.child?_eq_some.1 hk
    rw [hundone _ rfl, bystander_discard]
    refine .of_child (.inr hk) (by simp [hp]) (by simp [hq]) (fun j hj => ?_) fun j hj => ?_
    · cases hpw.symm.trans hj
    · exact Option.some.inj (hj.symm.trans hk)
  · rw [Registry.link_of_childless (hfind.trans hq) hqc] at h
    cases h
    have hadopt : w₁.registry.change parent { child := some (some c.id) } =
        (v.bystander w₁.events).registry.adopt parent c := by rw [hr, Registry.adopt]
    show Adoption _ _ (v.bystander w₁.events).registry _
      (w₁.registry.change parent { child := some (some c.id) })
    rw [hadopt]
    exact .of_childless hp hpc hq hqc hchild hparent hfree hfree'

theorem adoption_of_eq {script : List Entry} {onWrite : Nat → List Outside}
    (h : (World.start m script onWrite).createChild shell parent = (o, w')) (hd : w'.Discreet) :
    Adoption parent m.registry ((World.start m script onWrite).bystander w'.events).registry o
      w'.registry ∧ ((∀ s, .created s ∉ w'.log) → w'.log = []) := by
  rcases m.registry.child?_cases parent with hp | ⟨k, hk⟩ | ⟨p, hp, hpc⟩
  · cases (createChild_of_missing (w := World.start m script onWrite) hp).symm.trans h
    have hchild := Registry.child?_of_missing hp
    exact ⟨.of_missing (.inl hp) hchild hchild, fun _ => rfl⟩
  · cases (createChild_of_child (w := World.start m script onWrite) hk).symm.trans h
    obtain ⟨p, hp, -⟩ := Registry.child?_eq_some.1 hk
    have hunique : ∀ j, m.registry.child? parent = some j → j = k :=
      fun j hj => Option.some.inj (hj.symm.trans hk)
    have hregistered : m.registry.find? parent ≠ none := by simp [hp]
    exact ⟨.of_child (.inl hk) hregistered hregistered hunique hunique, fun _ => rfl⟩
  · rcases hc : (World.start m script onWrite).create shell (some parent) with ⟨e | c, w₁⟩
    · cases (createChild_of_error hp hpc hc).symm.trans h
      obtain ⟨ids, -, rfl, id, rfl⟩ := create_error hc
      exact ⟨.of_duplicate hp hpc, fun _ => rfl⟩
    · obtain ⟨hadoption, hcreated⟩ := adoption_of_create (.start m script onWrite _) hp hpc hc h hd
      exact ⟨hadoption, fun hnone => absurd hcreated (hnone c)⟩

/-- Creating a child either registers and links it, beside what other parties have made of the
registry meanwhile, or leaves nothing there but that. If it gets no session registered, nothing is
written. -/
theorem adoption_of_createChild (shell : Shell) (parent : SessionId) (m : Manager)
    (script : List Entry) (onWrite : Nat → List Outside)
    (hdiscreet : ((World.start m script onWrite).createChild shell parent).2.Discreet) :
    let start := World.start m script onWrite
    let w := (start.createChild shell parent).2
    Adoption parent m.registry (start.bystander w.events).registry
      (start.createChild shell parent).1 w.registry ∧
    ((∀ s, .created s ∉ w.log) → w.log = []) :=
  adoption_of_eq rfl hdiscreet

/-- While the birth notice of its child is written, a session is linked to another. -/
theorem adoption_refused_meanwhile :
    let parent : Session := ⟨⟨0, 9⟩, ⟨0⟩, defaultPrompt, none, none⟩
    let m : Manager := ⟨Keyed.insert ∅ parent, ⟨9⟩, ⟨0⟩⟩
    let onWrite (n : Nat) : List Outside :=
      if n = 1 then [.request (.update ⟨0, 9⟩ { child := some (some ⟨0, 3⟩) })] else []
    let start := World.start m [] onWrite
    (start.createChild .bare ⟨0, 9⟩).1 = .error (.childAlreadyLive ⟨0, 9⟩ ⟨0, 3⟩) ∧
      (start.createChild .bare ⟨0, 9⟩).2.registry =
        Keyed.insert ∅ { parent with child := some ⟨0, 3⟩ } := by
  intro parent m onWrite start
  have hdiscreet : (start.createChild .bare ⟨0, 9⟩).2.Discreet := by decide +kernel
  obtain ⟨hadoption, -⟩ := adoption_of_createChild .bare ⟨0, 9⟩ m [] onWrite hdiscreet
  have hanswer := (hadoption.taken ⟨0, 9⟩ ⟨0, 3⟩).2 ⟨rfl, .inr (by decide +kernel)⟩
  exact ⟨hanswer, (hadoption.undone _ hanswer).trans (by decide +kernel)⟩

end World
end SessionShell
