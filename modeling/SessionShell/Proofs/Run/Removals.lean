import SessionShell.Proofs.Run.Quiet

namespace SessionShell

theorem Keyed.erase_of_missing {ν κ : Type} [Ord κ] [DecidableEq κ] [Std.TransOrd κ] {key : ν → κ}
    {t : Keyed key} {k : κ} (h : t.find? k = none) : t.erase k = t := by
  apply ext_find?
  intro k'
  rw [find?_erase]
  split
  · rename_i hk
    rw [← hk, h]
  · rfl

/-- Whether another party only takes sessions away, asks, or lets time pass. -/
def Outside.isRemoval : Outside → Bool
  | request (.deregister _) => true
  | o => o.isQuiet

def removedIn (log : List Event) : Set SessionId :=
  {id | ∃ s, .reply (.deregister id) (.session (some s)) ∈ log}

theorem removedIn_mono {log log' : List Event} (h : log ⊆ log') :
    removedIn log ⊆ removedIn log' := by
  rintro id ⟨s, hs⟩
  exact ⟨s, h hs⟩

/-- A world in which other parties at most take sessions away, with links in order now and at all
reads, but for those to what was taken away; `gone` was so before the run. -/
structure Raided (gone : Set SessionId) (w : World) : Prop where
  only : w.Only (·.isRemoval)
  links : w.registry.MutualBut (gone ∪ removedIn w.log)
  shown : ∀ own text r earlier, (.prompt own text r :: earlier) <:+ w.log →
    r.MutualBut (gone ∪ removedIn earlier)

/-- What other parties that at most take sessions away have made of the registry of `v`. -/
structure Thinned (v w : World) : Prop where
  only : w.Only (·.isRemoval)
  log : v.log ⊆ w.log
  find? : ∀ id, w.registry.find? id = v.registry.find? id ∨
    w.registry.find? id = none ∧ id ∈ removedIn w.log

namespace Thinned

variable {v w w' : World}

theorem refl (h : w.Only (·.isRemoval)) : Thinned w w :=
  ⟨h, List.Subset.refl _, fun _ => .inl rfl⟩

theorem record (h : Thinned v w) (e : Event) : Thinned v (w.record e) := by
  have hlog := List.subset_cons_of_subset e h.log
  refine ⟨h.only, hlog, fun id => (h.find? id).imp_right fun hid => ?_⟩
  exact ⟨hid.1, removedIn_mono (List.subset_cons_self e _) hid.2⟩

theorem outside (h : Thinned v w) {o : Outside} (ho : o.isRemoval) : Thinned v (w.outside o) := by
  have hquiet {q : Request} (hq : q.isQuery) : Thinned v (w.outside (.request q)) := by
    show Thinned v ((w.setRegistry (q.answer w.registry).2).record _)
    rw [Request.answer_of_isQuery hq]
    exact record ⟨h.only, h.log, h.find?⟩ _
  match o with
  | .clock t => exact ⟨h.only, h.log, h.find?⟩
  | .request (.deregister k) =>
    have hrecord := h.record (.reply (.deregister k) (.session (w.registry.find? k)))
    refine ⟨h.only, hrecord.log, fun id => ?_⟩
    show Keyed.find? (w.registry.erase k) id = _ ∨ Keyed.find? (w.registry.erase k) id = none ∧ _
    rw [Keyed.find?_erase]
    split
    · rename_i hk
      subst hk
      cases hs : w.registry.find? k with
      | none => exact (hrecord.find? k).imp (fun e => (e.symm.trans hs).symm) fun hk => ⟨rfl, hk.2⟩
      | some s =>
        refine .inr ⟨rfl, s, ?_⟩
        rw [← hs]
        exact List.mem_cons_self ..
    · exact hrecord.find? id
  | .request (.lookup _) | .request (.contains _) | .request .count | .request .list
  | .request (.misnamed _) | .request (.malformed _) => exact hquiet rfl

theorem terminal (v : World) : TerminalInvariant (Thinned v) :=
  .of_allowed (fun _ h => h.only) (fun _ e _ h => h.record e) (fun _ _ ho h => h.outside ho)
    (fun _ h => ⟨h.only, h.log, h.find?⟩)
    fun w e rest hs h => ⟨⟨fun e he => h.only.1 e (by simp [hs, he]), h.only.2⟩, h.log, h.find?⟩

/-- After its birth notice a new session is there unless it has been taken away, and its parent has
no more of a child than before. -/
theorem of_create {shell : Shell} {parent : Option SessionId} {s : Session}
    (honly : w.Only (·.isRemoval)) (hc : w.create shell parent = (.ok s, w')) :
    ∃ v, Thinned v w' ∧ v.registry = w.registry.insert s := by
  obtain ⟨ids, -, -, -, rfl⟩ := World.create_ok hc
  have henter : (w.enter s ids).Only (·.isRemoval) := honly
  exact ⟨w.enter s ids, (terminal _).writeAll s.birthNotice (refl henter), rfl⟩

theorem child?_of_create {shell : Shell} {p : SessionId} {s c : Session}
    (honly : w.Only (·.isRemoval)) (hs : w.registry.find? p = some s) (hsc : s.child = none)
    (hc : w.create shell (some p) = (.ok c, w')) : w'.registry.child? p = none := by
  obtain ⟨-, -, hfree, -⟩ := World.create_ok hc
  have hne : c.id ≠ p := Keyed.ne_of_missing hfree hs
  obtain ⟨v, hthinned, hv⟩ := of_create honly hc
  rcases hthinned.find? p with hp | ⟨hp, -⟩
  · rw [hv, Keyed.find?_insert, if_neg hne, hs] at hp
    rw [Registry.child?_of_find? hp, hsc]
  · exact Registry.child?_of_missing hp

end Thinned

namespace Raided

variable {gone : Set SessionId} {w w' : World} {shell : Shell} {s c : Session} {p : SessionId}

theorem gone_mono {log log' : List Event} (h : log ⊆ log') :
    gone ∪ removedIn log ⊆ gone ∪ removedIn log' :=
  Set.union_subset_union_right gone (removedIn_mono h)

theorem record (h : Raided gone w) {e : Event} (he : ∀ own text r, e ≠ .prompt own text r) :
    Raided gone (w.record e) := by
  refine ⟨h.only, h.links.mono (gone_mono (List.subset_cons_self e w.log)), ?_⟩
  intro own text r earlier hsuffix
  rcases List.suffix_cons_iff.1 hsuffix with heq | hsuffix
  · cases heq
    exact absurd rfl (he own text r)
  · exact h.shown own text r earlier hsuffix

theorem setRegistry (h : Raided gone w) {r : Registry}
    (hr : r.MutualBut (gone ∪ removedIn w.log)) : Raided gone (w.setRegistry r) :=
  ⟨h.only, hr, h.shown⟩

theorem outside (h : Raided gone w) {o : Outside} (ho : o.isRemoval) :
    Raided gone (w.outside o) := by
  have hquiet {q : Request} (hq : q.isQuery) : Raided gone (w.outside (.request q)) := by
    show Raided gone ((w.setRegistry (q.answer w.registry).2).record _)
    rw [Request.answer_of_isQuery hq]
    exact (h.setRegistry h.links).record nofun
  match o with
  | .clock t => exact ⟨h.only, h.links, h.shown⟩
  | .request (.deregister id) =>
    have hrecord := h.record (e := .reply (.deregister id) (.session (w.registry.find? id))) nofun
    refine hrecord.setRegistry ?_
    cases hid : w.registry.find? id with
    | none =>
      rw [Keyed.erase_of_missing hid, ← hid]
      exact hrecord.links
    | some s =>
      rw [← hid]
      exact hrecord.links.erase (.inr ⟨s, by rw [hid]; exact List.mem_cons_self ..⟩)
  | .request (.lookup _) | .request (.contains _) | .request .count | .request .list
  | .request (.misnamed _) | .request (.malformed _) => exact hquiet rfl

theorem terminal (gone : Set SessionId) : TerminalInvariant (Raided gone) :=
  .of_allowed (fun _ h => h.only)
    (fun w e he h => by
      cases e with
      | prompt own text r =>
        cases he
        refine ⟨h.only, h.links.mono (gone_mono (List.subset_cons_self _ _)), ?_⟩
        intro own' text' r earlier hsuffix
        rcases List.suffix_cons_iff.1 hsuffix with heq | hsuffix
        · cases heq
          exact h.links
        · exact h.shown own' text' r earlier hsuffix
      | input | write => exact h.record nofun
      | reply | created | removed => cases he)
    (fun _ _ ho h => h.outside ho) (fun _ h => ⟨h.only, h.links, h.shown⟩)
    fun w e rest hs h =>
      ⟨⟨fun e he => h.only.1 e (by simp [hs, he]), h.only.2⟩, h.links, h.shown⟩

theorem create_ok {parent : Option SessionId} (h : Raided gone w)
    (hc : w.create shell parent = (.ok s, w')) : Raided gone w' := by
  obtain ⟨hchild, -⟩ := World.links_of_create hc
  obtain ⟨ids, -, hfree, -, rfl⟩ := World.create_ok hc
  have hregistered : Raided gone { w with registry := w.registry.insert s, ids } :=
    ⟨h.only, h.links.birth hfree hchild, h.shown⟩
  have henter : Raided gone (w.enter s ids) := hregistered.record nofun
  exact (terminal gone).writeAll _ henter

theorem create_error {parent : Option SessionId} {e : ShellError} (h : Raided gone w)
    (he : w.create shell parent = (.error e, w')) : Raided gone w' := by
  obtain ⟨ids, -, rfl, -⟩ := World.create_error he
  exact ⟨h.only, h.links, h.shown⟩

theorem parent?_of_create (h : Raided gone w) (hc : w.create shell (some p) = (.ok c, w')) :
    c.id ∈ gone ∪ removedIn w'.log ∨ w'.registry.parent? c.id = some p := by
  obtain ⟨-, hparent⟩ := World.links_of_create hc
  obtain ⟨v, hthinned, hv⟩ := Thinned.of_create h.only hc
  rcases hthinned.find? c.id with hid | ⟨-, hid⟩
  · rw [hv, Keyed.find?_insert, if_pos rfl] at hid
    exact .inr (by rw [Registry.parent?_of_find? hid, hparent])
  · exact .inl (.inr hid)

theorem createChild {o : Except ShellError Session} (h : Raided gone w)
    (hc : w.createChild shell p = (o, w')) : Raided gone w' := by
  cases o with
  | error e =>
    obtain rfl | ⟨-, -, -, hnew⟩ | ⟨s, c, w₁, hs, hsc, hnew, -, rfl⟩ := World.createChild_error hc
    · exact h
    · exact h.create_error hnew
    · have hraided := h.create_ok hnew
      have hp := Thinned.child?_of_create h.only hs hsc hnew
      cases hf : w₁.registry.find? c.id with
      | none => rwa [World.discard_of_missing hf]
      | some t =>
        rw [World.discard_of_find? hf, Keyed.key_of_find? hf]
        have hborn := h.parent?_of_create hnew
        exact (hraided.setRegistry (hraided.links.discard hborn hp)).record nofun
  | ok c =>
    obtain ⟨-, -, w₁, -, -, hnew, -, -, rfl⟩ := World.createChild_ok hc
    have hraided := h.create_ok hnew
    exact hraided.setRegistry (hraided.links.link (h.parent?_of_create hnew))

theorem retire (h : Raided gone w) (id : SessionId) : Raided gone (w.retire id) := by
  cases hf : w.registry.find? id with
  | none => rwa [World.retire_of_missing hf]
  | some s =>
    rw [World.retire_of_find? hf]
    exact (h.setRegistry (h.links.withdraw hf)).record nofun

theorem teardown (h : Raided gone w) (id : SessionId) : Raided gone (w.teardown id).2 :=
  World.teardownAll_of_retire (fun _ line h => (terminal gone).write line h)
    (fun _ id h => h.retire id) _ h

theorem run (shell : Shell) (gone : Set SessionId) : RunInvariant shell fun _ => Raided gone where
  write line := (terminal gone).write line
  read prompt := (terminal gone).read _ prompt
  setPrompt hr h := by
    obtain ⟨t, -, rfl⟩ := Registry.update_ok hr
    exact h.setRegistry (h.links.prompt _ _)
  child hc h := h.createChild hc
  noChild he h := h.createChild he
  teardown h := h.teardown _
  retire h := h.retire _

theorem operation (h : Raided gone w) (shell : Shell) (op : Operation) :
    Raided gone (op.performIn shell w).2 := by
  refine (run shell gone).operation (fun parent => ?_) op h
  rcases hc : w.create shell parent with ⟨e | s, w'⟩
  · exact h.create_error hc
  · exact h.create_ok hc

end Raided

/-- The states in which operations leave a manager whose registry was empty at first, whatever the
shell, the input and the passing of time, while other parties take away the sessions in `gone`. -/
inductive Manager.Raided : Set SessionId → Manager → Prop
  | start (ids : IdSource) (now : Instant) : Raided ∅ ⟨∅, ids, now⟩
  | wait {gone : Set SessionId} {m : Manager} (t : Instant) :
    Raided gone m → Raided gone { m with now := t }
  | remove {gone : Set SessionId} {m : Manager} {id : SessionId} {s : Session}
    (hid : m.registry.find? id = some s) :
    Raided gone m → Raided (insert id gone) { m with registry := m.registry.erase id }
  | perform {gone : Set SessionId} {m : Manager} (shell : Shell) (op : Operation)
    {script : List Entry} {onWrite : Nat → List Outside}
    (honly : (World.start m script onWrite).Only (·.isRemoval)) : Raided gone m →
    Raided (gone ∪ removedIn (op.perform shell script onWrite m).2.log)
      (op.perform shell script onWrite m).2.toManager

/-- The registries met meanwhile, between operations and while a session reads. -/
inductive Registry.Raided : Set SessionId → Registry → Prop
  | between {gone : Set SessionId} {m : Manager} : m.Raided gone → Raided gone m.registry
  | reading {gone : Set SessionId} {m : Manager} {shell : Shell} {op : Operation}
    {script : List Entry} {onWrite : Nat → List Outside} {own : SessionId} {text : String}
    {r : Registry} {earlier : List Event}
    (honly : (World.start m script onWrite).Only (·.isRemoval))
    (hread : (.prompt own text r :: earlier) <:+ (op.perform shell script onWrite m).2.log) :
    m.Raided gone → Raided (gone ∪ removedIn earlier) r
  | remove {gone : Set SessionId} {r : Registry} {id : SessionId} {s : Session}
    (hid : r.find? id = some s) : Raided gone r → Raided (insert id gone) (r.erase id)

section

variable {gone : Set SessionId} {m : Manager} {r : Registry}

theorem Raided.start {script : List Entry} {onWrite : Nat → List Outside}
    (honly : (World.start m script onWrite).Only (·.isRemoval)) (hm : m.registry.MutualBut gone) :
    Raided gone (World.start m script onWrite) := by
  refine ⟨honly, hm.mono Set.subset_union_left, fun own text r earlier h => ?_⟩
  cases List.suffix_nil.1 h

theorem Manager.Raided.links (h : m.Raided gone) : m.registry.MutualBut gone := by
  induction h with
  | start ids now => exact fun _ _ hk => nomatch hk
  | wait t _ ih => exact ih
  | remove hid _ ih => exact (ih.mono (Set.subset_insert _ _)).erase (Set.mem_insert _ _)
  | perform shell op honly _ ih =>
    exact ((SessionShell.Raided.start honly ih).operation shell op).links

theorem Registry.Raided.links (h : r.Raided gone) : r.MutualBut gone := by
  induction h with
  | between hm => exact hm.links
  | reading honly hread hm =>
    exact ((SessionShell.Raided.start honly hm.links).operation _ _).shown _ _ _ _ hread
  | remove hid _ ih => exact (ih.mono (Set.subset_insert _ _)).erase (Set.mem_insert _ _)

end

/-- A parent is refused a child exactly if it is linked to one, which is then registered with that
parent or has been taken away by another party. -/
theorem World.createChild_refused_iff {gone : Set SessionId} {w : World}
    (hmet : w.registry.Raided gone) (honly : w.Only (·.isRemoval)) (shell : Shell)
    (p q c : SessionId) :
    (w.createChild shell p).1 = .error (.childAlreadyLive q c) ↔
      q = p ∧ w.registry.child? p = some c ∧ (w.registry.parent? c = some p ∨ c ∈ gone) := by
  constructor
  · intro h
    simp only [createChild] at h
    split at h
    · cases h
    · rename_i s hs
      split at h
      · rename_i k hsc
        cases h
        have hlink : w.registry.child? p = some c := by rw [Registry.child?_of_find? hs, hsc]
        exact ⟨rfl, hlink, (hmet.links p c hlink).symm⟩
      · rename_i hsc
        split at h
        · rename_i e w' he
          obtain ⟨_, _, _, _, rfl⟩ := create_error he
          cases h
        · rename_i c w' hc
          -- during the birth notice no link can have been made
          have hnone := Thinned.child?_of_create honly hs hsc hc
          cases ht : w'.registry.find? p with
          | none =>
            simp only [Registry.link, ht] at h
            cases h
          | some t =>
            rw [Registry.child?_of_find? ht] at hnone
            simp only [Registry.link, ht, hnone] at h
            cases h
  · rintro ⟨rfl, hlink, -⟩
    obtain ⟨s, hs, hsc⟩ := Registry.child?_eq_some.1 hlink
    simp [createChild, hs, hsc]

/-- While a child reads it is taken away. Its parent is linked to it still when it reads again, and
may not have another child. -/
theorem createChild_refused_after_reading :
    let w := (Operation.openTop.perform .bare
      [⟨[], .line "shell"⟩, ⟨[.request (.deregister ⟨0, 2⟩)], .endOfInput⟩] (fun _ => [])
      (.start ⟨0⟩)).2
    let r : Registry := Keyed.insert ∅ ⟨⟨0, 1⟩, ⟨0⟩, defaultPrompt, none, some ⟨0, 2⟩⟩
    .prompt ⟨0, 1⟩ defaultPrompt r ∈ w.events ∧
      ((World.start ⟨r, ⟨2⟩, ⟨0⟩⟩ [] fun _ => []).createChild .bare ⟨0, 1⟩).1 =
        .error (.childAlreadyLive ⟨0, 1⟩ ⟨0, 2⟩) := by
  intro w r
  have hdrop : w.log.drop 6 = .prompt ⟨0, 1⟩ defaultPrompt r :: w.log.drop 7 := by decide +kernel
  have hread : (.prompt ⟨0, 1⟩ defaultPrompt r :: w.log.drop 7) <:+ w.log :=
    hdrop ▸ List.drop_suffix 6 w.log
  have honly : (World.start (.start ⟨0⟩)
      [⟨[], .line "shell"⟩, ⟨[.request (.deregister ⟨0, 2⟩)], .endOfInput⟩] fun _ => []).Only
        (·.isRemoval) := by
    simp [World.Only, World.start, Outside.isRemoval]
  have hmet : r.Raided (∅ ∪ removedIn (w.log.drop 7)) := .reading honly hread (.start _ _)
  have hgone : ⟨0, 2⟩ ∈ removedIn (w.log.drop 7) :=
    ⟨⟨⟨0, 2⟩, ⟨0⟩, defaultPrompt, some ⟨0, 1⟩, none⟩, by decide +kernel⟩
  have hquiet : (World.start ⟨r, ⟨2⟩, ⟨0⟩⟩ [] fun _ => []).Only (·.isRemoval) := by
    simp [World.Only, World.start]
  refine ⟨List.mem_reverse.2 (hread.subset (List.mem_cons_self ..)), ?_⟩
  rw [World.createChild_refused_iff hmet hquiet]
  exact ⟨rfl, by decide +kernel, .inr (.inr hgone)⟩

/-- A parent whose child has been taken away is refused another, though no session is the one that
it is linked to. -/
theorem parent_blocked_by_missing_child :
    let parent : Session := ⟨⟨0, 1⟩, ⟨0⟩, defaultPrompt, none, some ⟨0, 2⟩⟩
    let m : Manager := ⟨Keyed.insert ∅ parent, ⟨2⟩, ⟨0⟩⟩
    (∃ gone, m.Raided gone) ∧ m.registry.find? ⟨0, 1⟩ = some parent ∧
      m.registry.find? ⟨0, 2⟩ = none ∧
      ((World.start m [] fun _ => []).createChild .bare ⟨0, 1⟩).1 =
        .error (.childAlreadyLive ⟨0, 1⟩ ⟨0, 2⟩) := by
  intro parent m
  have hquiet (m : Manager) : (World.start m [] fun _ => []).Only (·.isRemoval) := by
    simp [World.Only, World.start]
  let m₁ := ((Operation.create none).perform .bare [] (fun _ => []) (.start ⟨0⟩)).2.toManager
  let m₂ := ((Operation.createChild ⟨0, 1⟩).perform .bare [] (fun _ => []) m₁).2.toManager
  have hchild : m₂.registry.find? ⟨0, 2⟩ =
      some ⟨⟨0, 2⟩, ⟨0⟩, defaultPrompt, some ⟨0, 1⟩, none⟩ := by decide +kernel
  have hm : m = { m₂ with registry := m₂.registry.erase ⟨0, 2⟩ } := by decide +kernel
  have h₁ := Manager.Raided.perform .bare (.create none) (hquiet _) (.start .initial ⟨0⟩)
  have h₂ := Manager.Raided.perform .bare (.createChild ⟨0, 1⟩) (hquiet m₁) h₁
  have hreached : ∃ gone, m.Raided gone := ⟨_, hm.symm ▸ Manager.Raided.remove hchild h₂⟩
  refine ⟨hreached, ?_, ?_, ?_⟩
  · decide +kernel
  · decide +kernel
  · decide +kernel

end SessionShell
