import SessionShell.Proofs.Run.Bystander
import SessionShell.Proofs.Run.Stack

namespace SessionShell

/-- The record outside a run without the link that the run may have made from it: from `outer` to
the session at the bottom of the stack. -/
def unlent (outer : Option SessionId) (stack : List SessionId) (id : SessionId)
    (o : Option Session) : Option Session :=
  match stack.getLast? with
  | some bottom => if outer = some id then o.map (·.forget bottom) else o
  | none => o

section unlent

variable {outer : Option SessionId} {stack : List SessionId} {id : SessionId}

@[simp] theorem unlent_nil (o : Option Session) : unlent outer [] id o = o := rfl

@[simp] theorem unlent_none : unlent outer stack id none = none := by
  unfold unlent
  cases stack.getLast? <;> simp

theorem unlent_of_ne (h : outer ≠ some id) (o : Option Session) :
    unlent outer stack id o = o := by
  unfold unlent
  cases stack.getLast? <;> simp [h]

theorem unlent_outer {bottom : SessionId} (hlast : stack.getLast? = some bottom)
    (o : Option Session) : unlent (some id) stack id o = o.map (·.forget bottom) := by
  simp [unlent, hlast]

theorem unlent_cons_cons (own below : SessionId) (o : Option Session) :
    unlent outer (own :: below :: stack) id o = unlent outer (below :: stack) id o := by
  simp [unlent]

theorem on_unlent {q : Request} (hq : ∀ i ∈ stack, q.Avoids i) (o : Option Session) :
    unlent outer stack id (q.on id o) = q.on id (unlent outer stack id o) := by
  unfold unlent
  cases hlast : stack.getLast? with
  | none => rfl
  | some bottom =>
    dsimp only
    split
    · exact Request.on_forget (hq bottom (List.mem_of_getLast? hlast)) id o
    · rfl

end unlent

/-- A registry in which a run has its stack, beside one of those who know nothing of the run. -/
structure Apart (outer : Option SessionId) (stack : List SessionId) (r a : Registry) : Prop where
  nodup : stack.Nodup
  stands : r.Stands outer none stack
  absent : ∀ id ∈ stack, a.find? id = none
  others : ∀ id ∉ stack, unlent outer stack id (r.find? id) = a.find? id

namespace Apart

variable {outer : Option SessionId} {stack : List SessionId} {own p : SessionId} {s c : Session}
  {r a : Registry}

theorem nil_iff : Apart outer [] r a ↔ r = a := by
  constructor
  · exact fun h => Keyed.ext_find? fun id => h.others id List.not_mem_nil
  · rintro rfl
    exact ⟨List.nodup_nil, trivial, fun id hid => absurd hid List.not_mem_nil, fun _ _ => rfl⟩

theorem answer (h : Apart outer stack r a) {q : Request} (hq : ∀ id ∈ stack, q.Avoids id) :
    Apart outer stack (q.answer r).2 (q.answer a).2 := by
  have hfind : ∀ id ∈ stack, (q.answer r).2.find? id = r.find? id := by
    intro id hid
    rw [Request.find?_answer, Request.on_of_spares (hq id hid).spares]
  refine ⟨h.nodup, h.stands.congr_find? hfind, fun id hid => ?_, fun id hid => ?_⟩
  · rw [Request.find?_answer, Request.on_of_spares (hq id hid).spares, h.absent id hid]
  · rw [Request.find?_answer, Request.find?_answer, ← h.others id hid, on_unlent hq]

/-- What changes no link of the running sessions, and nothing else, keeps a run apart. -/
theorem congr {r' : Registry} (h : Apart outer stack r a)
    (hstack : ∀ id ∈ stack, ∀ s, r.find? id = some s →
      ∃ t, r'.find? id = some t ∧ t.child = s.child ∧ t.parent = s.parent)
    (hothers : ∀ id ∉ stack, r'.find? id = r.find? id) : Apart outer stack r' a :=
  ⟨h.nodup, h.stands.congr hstack, h.absent,
    fun id hid => by rw [hothers id hid]; exact h.others id hid⟩

theorem setPrompt (h : Apart outer (own :: stack) r a) (p : Option String) :
    Apart outer (own :: stack) (r.change own { prompt := p }) a := by
  refine h.congr (fun id _ s hs => ?_) fun id hid => ?_
  · rw [Registry.find?_change, hs]
    split
    · exact ⟨_, rfl, rfl, rfl⟩
    · exact ⟨s, rfl, rfl, rfl⟩
  · rw [Registry.find?_change, if_neg]
    rintro rfl
    exact hid (List.mem_cons_self ..)

theorem withdraw (h : Apart outer (own :: stack) r a) (hs : r.find? own = some s) :
    Apart outer stack (r.withdraw s) a := by
  have hid : s.id = own := Keyed.key_of_find? hs
  have hnodup := List.nodup_cons.1 h.nodup
  refine ⟨hnodup.2, h.stands.withdraw h.nodup hs, fun id hid => h.absent id (by simp [hid]), ?_⟩
  intro id hmem
  rw [Registry.find?_withdraw, hid]
  by_cases hown : own = id
  · subst hown
    simp [h.absent]
  · obtain ⟨⟨t, ht, -, hparent⟩, -⟩ := h.stands
    cases hs.symm.trans ht
    have hothers := h.others id (by simp [Ne.symm hown, hmem])
    rw [if_neg hown, ← hothers]
    cases stack with
    | nil =>
      -- the last session of the stack goes, and with it the link from outside
      have hparent : s.parent = outer := hparent
      rw [unlent_nil, hparent]
      by_cases houter : outer = some id
      · rw [if_pos houter, houter, unlent_outer (List.getLast?_singleton ..)]
      · rw [if_neg houter, unlent_of_ne houter]
    | cons below stack =>
      have hparent : s.parent = some below := hparent
      have hne : below ≠ id := fun e => hmem (by simp [e])
      simp [hparent, hne, unlent_cons_cons]

theorem top (hfree : r.find? c.id = none) (hchild : c.child = none) (hparent : c.parent = none) :
    Apart none [c.id] (r.insert c) r := by
  have hc : Keyed.find? (r.insert c) c.id = some c := by rw [Keyed.find?_insert, if_pos rfl]
  refine ⟨List.nodup_singleton _, ⟨⟨c, hc, hchild, hparent⟩, trivial⟩, ?_, ?_⟩
  · intro id hid
    rw [List.mem_singleton.1 hid, hfree]
  · intro id hid
    have hne : c.id ≠ id := fun e => hid (by simp [e])
    rw [unlent_of_ne (by simp), Keyed.find?_insert, if_neg hne]

theorem lend (hfree : r.find? c.id = none) (hchild : c.child = none) (hparent : c.parent = some p)
    (hp : r.find? p = some s) (hs : s.child = none) : Apart (some p) [c.id] (r.adopt p c) r := by
  have hcp : c.id ≠ p := Keyed.ne_of_missing hfree hp
  have hc : (r.adopt p c).find? c.id = some c := by
    rw [Registry.find?_adopt, if_neg hcp.symm, if_pos rfl]
  refine ⟨List.nodup_singleton _, ⟨⟨c, hc, hchild, hparent⟩, trivial⟩, ?_, ?_⟩
  · intro id hid
    rw [List.mem_singleton.1 hid, hfree]
  · intro id hid
    have hne : c.id ≠ id := fun e => hid (by simp [e])
    rw [Registry.find?_adopt, if_neg hne]
    by_cases hpid : p = id
    · subst hpid
      rw [if_pos rfl, unlent_outer (List.getLast?_singleton ..), hp]
      simp [Session.change, Session.forget, ← hs]
    · rw [if_neg hpid, unlent_of_ne (by simpa using hpid)]

theorem adopt (h : Apart outer (own :: stack) r a) (hfree : r.find? c.id = none)
    (hchild : c.child = none) (hparent : c.parent = some own) :
    Apart outer (c.id :: own :: stack) (r.adopt own c) a := by
  obtain ⟨hstands, hnodup⟩ := h.stands.adopt h.nodup hfree hchild hparent
  have hc : c.id ∉ own :: stack := (List.nodup_cons.1 hnodup).1
  refine ⟨hnodup, hstands, ?_, ?_⟩
  · intro id hid
    rcases List.mem_cons.1 hid with rfl | hid
    · rw [← h.others c.id hc, hfree, unlent_none]
    · exact h.absent id hid
  · intro id hid
    have hne : c.id ≠ id := fun e => hid (by simp [e])
    have hmem : id ∉ own :: stack := fun hmem => hid (List.mem_cons_of_mem _ hmem)
    have hown : own ≠ id := fun e => hmem (by simp [e])
    rw [Registry.find?_adopt, if_neg hown, if_neg hne, unlent_cons_cons, h.others id hmem]

end Apart

/-- A run whose newest session is registered but not linked yet. -/
structure Awaiting (outer : Option SessionId) (stack : List SessionId) (c : Session)
    (r a : Registry) : Prop where
  apart : Apart outer stack (r.erase c.id) a
  present : r.find? c.id = some c

namespace Awaiting

variable {outer : Option SessionId} {stack : List SessionId} {own p : SessionId} {s c : Session}
  {r a : Registry}

theorem insert (h : Apart outer stack r a) (hfree : r.find? c.id = none) :
    Awaiting outer stack c (r.insert c) a := by
  have herase : (Keyed.erase (r.insert c) c.id : Registry) = r := Keyed.erase_insert hfree
  exact ⟨by rwa [herase], by rw [Keyed.find?_insert, if_pos rfl]⟩

theorem answer (h : Awaiting outer stack c r a) {q : Request} (hq : ∀ id ∈ stack, q.Avoids id)
    (hc : q.Avoids c.id) : Awaiting outer stack c (q.answer r).2 (q.answer a).2 := by
  refine ⟨Request.erase_answer hc r ▸ h.apart.answer hq, ?_⟩
  rw [Request.find?_answer, Request.on_of_spares hc.spares, h.present]

theorem free (r : Registry) (c : Session) : Keyed.find? (r.erase c.id : Registry) c.id = none := by
  rw [Keyed.find?_erase, if_pos rfl]

theorem adopt_erase (h : Awaiting outer stack c r a) (p : SessionId) :
    Registry.adopt (r.erase c.id) p c = r.change p { child := some (some c.id) } := by
  unfold Registry.adopt
  rw [Keyed.insert_erase h.present]

theorem top (h : Awaiting outer [] c r a) (hchild : c.child = none) (hparent : c.parent = none) :
    Apart none [c.id] r a := by
  obtain rfl := Apart.nil_iff.1 h.apart
  have htop := Apart.top (free r c) hchild hparent
  rwa [Keyed.insert_erase h.present] at htop

theorem lend (h : Awaiting outer [] c r a) (hchild : c.child = none) (hparent : c.parent = some p)
    (hp : r.find? p = some s) (hs : s.child = none) (hne : c.id ≠ p) :
    Apart (some p) [c.id] (r.change p { child := some (some c.id) }) a := by
  obtain rfl := Apart.nil_iff.1 h.apart
  have hp' : Keyed.find? (r.erase c.id : Registry) p = some s := by
    rw [Keyed.find?_erase, if_neg hne, hp]
  rw [← h.adopt_erase]
  exact Apart.lend (free r c) hchild hparent hp' hs

theorem link (h : Awaiting outer (own :: stack) c r a) (hchild : c.child = none)
    (hparent : c.parent = some own) :
    Apart outer (c.id :: own :: stack) (r.change own { child := some (some c.id) }) a := by
  rw [← h.adopt_erase]
  exact h.apart.adopt (free r c) hchild hparent

end Awaiting

/-- A run with a stack of its own sessions is apart from the bystander of the world `v`, if other
parties avoid what it creates. -/
structure Secluded (v : World) (outer : Option SessionId) (stack : List SessionId) (w : World) :
    Prop where
  created : ∀ id ∈ stack, ∃ s, .created s ∈ w.log ∧ s.id = id
  beside : w.Discreet → Alongside (Apart outer stack) w (v.bystander w.events)

namespace Secluded

variable {v w w' : World} {outer : Option SessionId} {stack : List SessionId} {own : SessionId}
  {shell : Shell} {c : Session} {e : ShellError}

theorem respects (hd : w.Discreet) (hs : ∀ id ∈ stack, ∃ s, .created s ∈ w.log ∧ s.id = id) :
    w.Respects (Apart outer stack) := by
  intro q reply hq r a h
  refine h.answer fun id hid => ?_
  obtain ⟨s, hs, rfl⟩ := hs id hid
  exact hd.avoids hq hs

theorem created_mono (h : Secluded v outer stack w) (hlog : w.log ⊆ w'.log) :
    ∀ id ∈ stack, ∃ s, .created s ∈ w'.log ∧ s.id = id := by
  intro id hid
  obtain ⟨s, hs, hsid⟩ := h.created id hid
  exact ⟨s, hlog hs, hsid⟩

theorem writeAll (h : Secluded v outer stack w) (lines : List String) :
    Secluded v outer stack (w.writeAll lines) := by
  have hlog : w.log ⊆ (w.writeAll lines).log := w.log_subset_writeAll lines
  have hcreated := h.created_mono hlog
  refine ⟨hcreated, fun hd => ?_⟩
  rw [World.bystander_writeAll]
  exact (h.beside (hd.mono hlog)).writeAll lines (respects hd hcreated)

theorem read (h : Secluded v outer stack w) (own : SessionId) (prompt : String) :
    Secluded v outer stack (w.read own prompt).2 := by
  have hlog : w.log ⊆ (w.read own prompt).2.log :=
    (terminalInvariant_subset_log _).read own prompt (List.Subset.refl _)
  have hcreated := h.created_mono hlog
  refine ⟨hcreated, fun hd => ?_⟩
  rw [World.bystander_read]
  exact (h.beside (hd.mono hlog)).read own prompt (respects hd hcreated)

theorem log_subset_create {parent : Option SessionId} (hc : w.create shell parent = (.ok c, w')) :
    w.log ⊆ w'.log ∧ .created c ∈ w'.log := by
  obtain ⟨ids, -, -, -, rfl⟩ := World.create_ok hc
  have hlog : (w.enter c ids).log ⊆ ((w.enter c ids).writeAll c.birthNotice).log :=
    World.log_subset_writeAll ..
  exact ⟨fun _ he => hlog (List.mem_cons_of_mem _ he), hlog (List.mem_cons_self ..)⟩

theorem create {parent : Option SessionId} (h : Secluded v outer stack w)
    (hc : w.create shell parent = (.ok c, w')) (hd : w'.Discreet) :
    Alongside (Awaiting outer stack c) w' (v.bystander w'.events) := by
  obtain ⟨hlog, hcreated⟩ := log_subset_create hc
  have hstack := h.created_mono hlog
  have hapart := h.beside (hd.mono hlog)
  obtain ⟨ids, -, hfree, -, rfl⟩ := World.create_ok hc
  rw [World.bystander_writeAll, World.enter, World.bystander_record]
  have henter : Alongside (Awaiting outer stack c) (w.enter c ids) (v.bystander w.events) :=
    ⟨hapart.script, hapart.onWrite, hapart.written, hapart.now,
      Awaiting.insert hapart.registry hfree⟩
  -- while the birth notice is written, requests avoid the stack and the new session alike
  refine henter.writeAll c.birthNotice fun q reply hq r a h => h.answer (fun id hid => ?_) ?_
  · obtain ⟨s, hs, rfl⟩ := hstack id hid
    exact hd.avoids hq hs
  · exact hd.avoids hq hcreated

theorem create_error {parent : Option SessionId} (h : Secluded v outer stack w)
    (he : w.create shell parent = (.error e, w')) : Secluded v outer stack w' := by
  obtain ⟨ids, -, rfl, -⟩ := World.create_error he
  refine ⟨h.created, fun hd => ?_⟩
  have hapart := h.beside hd
  exact ⟨hapart.script, hapart.onWrite, hapart.written, hapart.now, hapart.registry⟩

theorem createChild_error {parent : SessionId} (h : Secluded v outer stack w)
    (he : w.createChild shell parent = (.error e, w')) : Secluded v outer stack w' := by
  obtain rfl | ⟨p, -, -, hc⟩ | ⟨p, c, w₁, -, -, hc, -, rfl⟩ := World.createChild_error he
  · exact h
  · exact h.create_error hc
  · -- created, but found without a parent to be linked to
    have hlog : w₁.log ⊆ (w₁.discard c.id).log :=
      (worldInvariant_subset_log _).discard _ (List.Subset.refl _)
    refine ⟨h.created_mono (List.Subset.trans (log_subset_create hc).1 hlog), fun hd => ?_⟩
    have hawait := h.create hc (hd.mono hlog)
    rw [World.discard_of_find? hawait.registry.present, World.bystander_record]
    exact (hawait.setRegistry fun ha => ha.apart).congr rfl rfl hawait.script hawait.onWrite
      hawait.written

theorem setPrompt {p : String} {s : Session} {r : Registry} (h : Secluded v outer (own :: stack) w)
    (hr : w.registry.update own { prompt := some p } = .ok (s, r)) :
    Secluded v outer (own :: stack) (w.setRegistry r) := by
  obtain ⟨t, -, rfl⟩ := Registry.update_ok hr
  exact ⟨h.created, fun hd => (h.beside hd).setRegistry fun ha => ha.setPrompt (some p)⟩

theorem createChild (h : Secluded v outer (own :: stack) w)
    (hc : w.createChild shell own = (.ok c, w')) : Secluded v outer (c.id :: own :: stack) w' := by
  obtain ⟨p, q, w₁, -, -, hnew, -, -, rfl⟩ := World.createChild_ok hc
  obtain ⟨hlog, hcreated⟩ := log_subset_create hnew
  obtain ⟨hchild, hparent⟩ := World.links_of_create hnew
  refine ⟨fun id hid => ?_, fun hd => ?_⟩
  · rcases List.mem_cons.1 hid with rfl | hid
    · exact ⟨c, hcreated, rfl⟩
    · exact h.created_mono hlog id hid
  · exact (h.create hnew hd).setRegistry fun ha => ha.link hchild hparent

theorem find?_own (h : Secluded v outer (own :: stack) w) (hd : w.Discreet) :
    ∃ s, w.registry.find? own = some s ∧ s.child = none := by
  obtain ⟨⟨s, hs, hchild, -⟩, -⟩ := (h.beside hd).registry.stands
  exact ⟨s, hs, hchild⟩

theorem retire (h : Secluded v outer (own :: stack) w) : Secluded v outer stack (w.retire own) := by
  have hlog : w.log ⊆ (w.retire own).log :=
    (worldInvariant_subset_log _).retire _ (List.Subset.refl _)
  refine ⟨fun id hid => ?_, fun hd => ?_⟩
  · exact h.created_mono hlog id (List.mem_cons_of_mem _ hid)
  · have hdw := hd.mono hlog
    obtain ⟨s, hs, -⟩ := h.find?_own hdw
    rw [World.retire_of_find? hs, World.bystander_record]
    exact ((h.beside hdw).setRegistry fun ha => ha.withdraw hs).congr rfl rfl
      (h.beside hdw).script (h.beside hdw).onWrite (h.beside hdw).written

theorem teardown (h : Secluded v outer (own :: stack) w) :
    Secluded v outer stack (w.teardown own).2 := by
  have hlog : w.log ⊆ (w.teardown own).2.log :=
    (worldInvariant_subset_log _).teardown _ (List.Subset.refl _)
  refine ⟨fun id hid => ?_, fun hd => ?_⟩
  · exact h.created_mono hlog id (List.mem_cons_of_mem _ hid)
  · obtain ⟨s, hs, hchild⟩ := h.find?_own (hd.mono hlog)
    rw [World.teardown_of_childless hs hchild] at hd ⊢
    exact (h.retire.writeAll _).beside hd

theorem run (shell : Shell) (v : World) (outer : Option SessionId) :
    RunInvariant shell (Secluded v outer) where
  write line h := h.writeAll [line]
  read prompt h := h.read _ prompt
  setPrompt hr h := h.setPrompt hr
  child hc h := h.createChild hc
  noChild he h := h.createChild_error he
  teardown := teardown
  retire := retire

theorem start (m : Manager) (script : List Entry) (onWrite : Nat → List Outside)
    (outer : Option SessionId) :
    Secluded (World.start m script onWrite) outer [] (World.start m script onWrite) :=
  ⟨fun _ hid => absurd hid List.not_mem_nil,
    fun _ => ⟨rfl, rfl, rfl, rfl, Apart.nil_iff.2 rfl⟩⟩

theorem top (h : Secluded v none [] w) (hc : w.create shell none = (.ok c, w')) :
    Secluded v none [c.id] w' := by
  obtain ⟨-, hcreated⟩ := log_subset_create hc
  obtain ⟨hchild, hparent⟩ := World.links_of_create hc
  refine ⟨fun _ hid => ⟨c, hcreated, (List.mem_singleton.1 hid).symm⟩, fun hd => ?_⟩
  have hawait := h.create hc hd
  exact ⟨hawait.script, hawait.onWrite, hawait.written, hawait.now,
    hawait.registry.top hchild hparent⟩

theorem lend {p : SessionId} (h : Secluded v (some p) [] w)
    (hc : w.createChild shell p = (.ok c, w')) : Secluded v (some p) [c.id] w' := by
  obtain ⟨s, q, w₁, hp, -, hnew, hq, hqc, rfl⟩ := World.createChild_ok hc
  obtain ⟨-, hcreated⟩ := log_subset_create hnew
  obtain ⟨hchild, hparent⟩ := World.links_of_create hnew
  obtain ⟨ids, -, hfree, -⟩ := World.create_ok hnew
  have hne : c.id ≠ p := Keyed.ne_of_missing hfree hp
  refine ⟨fun _ hid => ⟨c, hcreated, (List.mem_singleton.1 hid).symm⟩, fun hd => ?_⟩
  exact (h.create hnew hd).setRegistry fun ha => ha.lend hchild hparent hq hqc hne

theorem operation (shell : Shell) {op : Operation} (hop : op.isRun)
    (h : ∀ outer, Secluded v outer [] w) :
    ∃ outer, Secluded v outer [] (op.performIn shell w).2 := by
  cases op with
  | create | createChild | teardown => cases hop
  | openTop =>
    refine ⟨none, ?_⟩
    rw [Operation.performIn_openTop]
    exact (run shell v none).openTop (fun _ _ he => (h none).create_error he)
      fun _ _ hc => (h none).top hc
  | spawnChild p =>
    refine ⟨some p, ?_⟩
    rw [Operation.performIn_spawnChild]
    exact (run shell v (some p)).spawnChild (fun _ _ he => (h (some p)).createChild_error he)
      fun _ _ hc => (h (some p)).lend hc

end Secluded

/-- However a run ends, the manager is what other parties alone make of it during the reads and
writes of the run, but for the identifiers spent. -/
theorem Operation.manager_after_run (shell : Shell) (op : Operation) (hop : op.isRun)
    (script : List Entry) (onWrite : Nat → List Outside) (m : Manager)
    (hdiscreet : (op.perform shell script onWrite m).2.Discreet) :
    let w := (op.perform shell script onWrite m).2
    let v := (World.start m script onWrite).bystander w.events
    w.toManager = { v.toManager with ids := w.ids } := by
  intro w v
  obtain ⟨outer, h⟩ := Secluded.operation shell hop (Secluded.start m script onWrite)
  have hbeside : Alongside (Apart outer []) w v := h.beside hdiscreet
  have hregistry : w.registry = v.registry := Apart.nil_iff.1 hbeside.registry
  have hnow : w.now = v.now := hbeside.now.symm
  calc w.toManager = ⟨w.registry, w.ids, w.now⟩ := rfl
    _ = { v.toManager with ids := w.ids } := by rw [hregistry, hnow]

/-- A child is given up while another party changes the prompt of a session outside the run, whose
link to the run is cleared then. -/
theorem manager_after_nested_abort :
    let outer : Session := ⟨⟨0, 9⟩, ⟨0⟩, "$ ", none, none⟩
    let m : Manager := ⟨Keyed.insert ∅ outer, ⟨9⟩, ⟨0⟩⟩
    let rename : Outside := .request (.update ⟨0, 9⟩ { prompt := some "% " })
    let w := ((Operation.spawnChild ⟨0, 9⟩).perform .bare
      [⟨[], .line "shell"⟩, ⟨[rename], .aborted⟩] (fun _ => []) m).2
    w.toManager = ⟨Keyed.insert ∅ { outer with prompt := "% " }, ⟨11⟩, ⟨0⟩⟩ := by
  intro outer m rename w
  have hdiscreet : w.Discreet := by decide +kernel
  exact (Operation.manager_after_run .bare (.spawnChild ⟨0, 9⟩) rfl _ _ m hdiscreet).trans
    (by decide +kernel)

end SessionShell
