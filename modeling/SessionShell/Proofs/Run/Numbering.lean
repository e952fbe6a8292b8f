import SessionShell.Proofs.Run.History

namespace SessionShell

namespace World

/-- Removes a session after those below it, and announces it if it was still there. -/
def close (s : Session) (w : World) : Bool × World :=
  match w.retire? s.id with
  | none => (false, w)
  | some w => (true, w.writeAll s.deathNotice)

/-- Tears a session down by looking it up, tearing down its child in the same way, and closing it;
`n` counts the times that this is done for a child. -/
inductive TornDown : (id : SessionId) → World → (n : Nat) → Bool × World → Prop
  | missing {id : SessionId} {w : World} (hid : w.registry.find? id = none) :
    TornDown id w 0 (false, w)
  | childless {id : SessionId} {w : World} {s : Session} (hid : w.registry.find? id = some s)
    (hchild : s.child = none) : TornDown id w 0 (w.close s)
  | parent {id c : SessionId} {w w' : World} {s : Session} {n : Nat} {b : Bool}
    (hid : w.registry.find? id = some s) (hchild : s.child = some c) :
    TornDown c w n (b, w') → TornDown id w (n + 1) (w'.close s)

theorem tornDown_descent {rank : SessionId → Nat} {w : World} {n : Nat} {id : SessionId}
    (h : w.registry.RankedBy rank) (hn : w.registry.above rank id ≤ n) :
    ∃ k ≤ n, w.TornDown id k (teardownAll (w.registry.descent n id) w) := by
  induction n generalizing id with
  | zero => exact ⟨0, Nat.le_refl 0, .missing (Registry.missing_of_above hn)⟩
  | succ n ih =>
    rcases w.registry.descent_cases n id with ⟨hid, e⟩ | ⟨s, hid, hc, e⟩ | ⟨s, c, hid, hc, e⟩ <;>
      rw [e]
    · exact ⟨0, Nat.zero_le _, .missing hid⟩
    · exact ⟨0, Nat.zero_le _, .childless hid hc⟩
    · have hroom : w.registry.above rank c < w.registry.above rank id :=
        Registry.above_lt hid (h.lt hid hc)
      have hbelow : w.registry.above rank c ≤ n := by omega
      obtain ⟨k, hk, hchild⟩ := ih hbelow
      exact ⟨k + 1, by omega, .parent hid hc hchild⟩

theorem tornDown_of_ranked {rank : SessionId → Nat} {w : World} (h : w.registry.RankedBy rank)
    (id : SessionId) : ∃ k ≤ w.registry.size, w.TornDown id k (w.teardown id) :=
  tornDown_descent h Registry.above_le_size

end World

namespace Registry

theorem RankedBy.lt_of_transGen {r : Registry} {rank : SessionId → Nat} {p k : SessionId}
    (h : r.RankedBy rank) (hk : Relation.TransGen (fun p c => r.child? p = some c) p k) :
    rank p < rank k := by
  induction hk with
  | single hc => exact h _ _ hc
  | tail _ hc ih => exact ih.trans (h _ _ hc)

/-- The sessions are numbered up to `n`, and linked to none but later ones. -/
structure Numbered (r : Registry) (n : Nat) : Prop where
  le : ∀ id, r.find? id ≠ none → id.seq.toNat ≤ n
  ranked : r.RankedBy fun id => id.seq.toNat

namespace Numbered

variable {r : Registry} {n n' : Nat} {id p : SessionId} {c : Session}

theorem mono (h : r.Numbered n) (hn : n ≤ n') : r.Numbered n' :=
  ⟨fun id hid => (h.le id hid).trans hn, h.ranked⟩

theorem of_fewer {r' : Registry} (h : r.Numbered n)
    (hfind : ∀ k, r.find? k = none → r'.find? k = none)
    (hlinks : ∀ p k, r'.child? p = some k → r.child? p = some k) : r'.Numbered n :=
  ⟨fun k hk => h.le k (mt (hfind k) hk), fun p k hk => h.ranked p k (hlinks p k hk)⟩

theorem prompt (h : r.Numbered n) (id : SessionId) (text : String) :
    (r.change id { prompt := some text }).Numbered n := by
  refine h.of_fewer (fun k hk => by simp [find?_change, hk]) fun p k hk => ?_
  rw [child?_change] at hk
  split at hk <;> exact hk

theorem withdraw (h : r.Numbered n) (s : Session) : (r.withdraw s).Numbered n := by
  refine h.of_fewer (fun k hk => by simp [find?_withdraw, hk]) fun p k hk => ?_
  rw [child?_withdraw] at hk
  split at hk
  · cases hk
  · exact hk

theorem erase (h : r.Numbered n) (id : SessionId) : Registry.Numbered (r.erase id) n := by
  refine h.of_fewer (fun k hk => by simp [Keyed.find?_erase, hk]) fun p k hk => ?_
  rw [child?_erase] at hk
  split at hk
  · cases hk
  · exact hk

theorem birth (h : r.Numbered n) (hseq : c.id.seq.toNat = n') (hn : n < n')
    (hchild : c.child = none) : Registry.Numbered (r.insert c) n' := by
  refine ⟨fun k hk => ?_, fun p k hk => ?_⟩
  · rw [Keyed.find?_insert] at hk
    split at hk
    · rename_i hck
      rw [← hck, hseq]
    · exact (h.le k hk).trans hn.le
  · rw [child?_insert, hchild] at hk
    split at hk
    · cases hk
    · exact h.ranked p k hk

theorem link (h : r.Numbered n) (hlt : p.seq.toNat < id.seq.toNat) :
    (r.change p { child := some (some id) }).Numbered n := by
  refine ⟨fun k hk => h.le k fun hnone => hk (by simp [find?_change, hnone]), fun q k hk => ?_⟩
  rw [child?_change] at hk
  split at hk
  · rename_i hpq
    cases hs : r.find? q with
    | none => simp [hs] at hk
    | some t =>
      simp only [hs, Option.bind_some, Option.getD_some, Option.some.injEq] at hk
      rwa [← hk, ← hpq]
  · exact h.ranked q k hk

end Numbered
end Registry

/-- A world in which no other party interferes, with sessions numbered now and at all reads, unless
the numbers have begun anew. -/
structure Counting (w : World) : Prop where
  only : w.Only (·.isQuiet)
  numbered : w.ids.drawn < UInt32.size → w.registry.Numbered w.ids.drawn
  shown : w.ids.drawn < UInt32.size → ∀ r ∈ w.shown, r.Numbered w.ids.drawn

theorem terminalInvariant_ids (ids : IdSource) : TerminalInvariant fun w => w.ids = ids :=
  .of_steps (fun _ _ _ h => h) (fun _ o h => by cases o <;> exact h) (fun _ h => h)
    fun _ _ _ _ h => h

namespace Counting

variable {w w' : World} {shell : Shell} {s c : Session} {p : SessionId}

theorem record (h : Counting w) {e : Event} (he : ∀ r, e.shown? = some r → r = w.registry) :
    Counting (w.record e) := by
  refine ⟨h.only, h.numbered, fun hlt r hr => ?_⟩
  obtain ⟨e', he', hshown⟩ := List.mem_filterMap.1 hr
  rcases List.mem_cons.1 he' with rfl | he'
  · rw [he r hshown]
    exact h.numbered hlt
  · exact h.shown hlt r (List.mem_filterMap.2 ⟨e', he', hshown⟩)

theorem setRegistry (h : Counting w) {r : Registry}
    (hr : w.ids.drawn < UInt32.size → w.registry.Numbered w.ids.drawn → r.Numbered w.ids.drawn) :
    Counting (w.setRegistry r) :=
  ⟨h.only, fun hlt => hr hlt (h.numbered hlt), h.shown⟩

theorem outside (h : Counting w) {o : Outside} (ho : o.isQuiet) : Counting (w.outside o) := by
  cases o with
  | clock t => exact ⟨h.only, h.numbered, h.shown⟩
  | request q =>
    show Counting ((w.setRegistry (q.answer w.registry).2).record _)
    rw [Request.answer_of_isQuery ho]
    exact (h.setRegistry fun _ hr => hr).record nofun

theorem terminal : TerminalInvariant Counting :=
  .of_allowed (fun _ h => h.only)
    (fun w e he h => by
      refine h.record fun r hr => ?_
      cases e with
      | prompt own text r' =>
        cases he
        exact (Option.some.inj hr).symm
      | input | write => cases hr
      | reply | created | removed => cases he)
    (fun _ _ ho h => h.outside ho) (fun _ h => ⟨h.only, h.numbered, h.shown⟩)
    fun w e rest hs h =>
      ⟨⟨fun e he => h.only.1 e (by simp [hs, he]), h.only.2⟩, h.numbered, h.shown⟩

theorem draw {ids : IdSource} (h : Counting w) (hids : w.ids.drawn < ids.drawn) :
    Counting { w with ids } :=
  ⟨h.only, fun hlt => (h.numbered (hids.trans hlt)).mono hids.le,
    fun hlt r hr => (h.shown (hids.trans hlt) r hr).mono hids.le⟩

theorem create_error {parent : Option SessionId} {e : ShellError} (h : Counting w)
    (he : w.create shell parent = (.error e, w')) : Counting w' := by
  obtain ⟨ids, hids, rfl, -⟩ := World.create_error he
  exact h.draw hids

theorem seq_of_create {parent : Option SessionId} {ids : IdSource}
    (hs : s = shell.newborn ⟨w.now.stamp, UInt32.ofNat ids.drawn⟩ w.now parent)
    (hlt : ids.drawn < UInt32.size) : s.id.seq.toNat = ids.drawn := by
  rw [hs]
  exact Nat.mod_eq_of_lt hlt

theorem create_ok {parent : Option SessionId} (h : Counting w)
    (hc : w.create shell parent = (.ok s, w')) : Counting w' := by
  obtain ⟨hchild, -⟩ := World.links_of_create hc
  obtain ⟨ids, hids, -, hs, rfl⟩ := World.create_ok hc
  have hdraw := h.draw hids
  have hregistered : Counting { w with registry := w.registry.insert s, ids } :=
    ⟨h.only, fun hlt => (h.numbered (hids.trans hlt)).birth (seq_of_create hs hlt) hids hchild,
      hdraw.shown⟩
  have henter : Counting (w.enter s ids) := hregistered.record nofun
  exact terminal.writeAll _ henter

theorem retire (h : Counting w) (id : SessionId) : Counting (w.retire id) := by
  cases hf : w.registry.find? id with
  | none => rwa [World.retire_of_missing hf]
  | some s =>
    rw [World.retire_of_find? hf]
    exact (h.setRegistry fun _ hr => hr.withdraw s).record nofun

theorem discard (h : Counting w) (id : SessionId) : Counting (w.discard id) := by
  cases hf : w.registry.find? id with
  | none => rwa [World.discard_of_missing hf]
  | some s =>
    rw [World.discard_of_find? hf]
    exact (h.setRegistry fun _ hr => hr.erase s.id).record nofun

theorem teardown (h : Counting w) (id : SessionId) : Counting (w.teardown id).2 :=
  World.teardownAll_of_retire (fun _ line h => terminal.write line h) (fun _ id h => h.retire id) _ h

theorem createChild {o : Except ShellError Session} (h : Counting w)
    (hc : w.createChild shell p = (o, w')) : Counting w' := by
  cases o with
  | error e =>
    obtain rfl | ⟨-, -, -, hnew⟩ | ⟨s, c, w₁, -, -, hnew, -, rfl⟩ := World.createChild_error hc
    · exact h
    · exact h.create_error hnew
    · exact (h.create_ok hnew).discard c.id
  | ok c =>
    obtain ⟨s, -, w₁, hs, -, hnew, -, -, rfl⟩ := World.createChild_ok hc
    have hw₁ := h.create_ok hnew
    obtain ⟨ids, hids, -, hc, hw⟩ := World.create_ok hnew
    have hdrawn : w₁.ids = ids := by
      rw [hw]
      exact (terminalInvariant_ids ids).writeAll _ rfl
    refine hw₁.setRegistry fun hlt hr => hr.link ?_
    rw [hdrawn] at hlt
    -- the parent is registered, and so was numbered before
    calc p.seq.toNat ≤ w.ids.drawn := (h.numbered (hids.trans hlt)).le p (by simp [hs])
      _ < ids.drawn := hids
      _ = c.id.seq.toNat := (seq_of_create hc hlt).symm

theorem run (shell : Shell) : RunInvariant shell fun _ => Counting where
  write line := terminal.write line
  read prompt := terminal.read _ prompt
  setPrompt hr h := by
    obtain ⟨t, -, rfl⟩ := Registry.update_ok hr
    exact h.setRegistry fun _ hr => hr.prompt _ _
  child hc h := h.createChild hc
  noChild hc h := h.createChild hc
  teardown h := h.teardown _
  retire h := h.retire _

theorem operation (h : Counting w) (shell : Shell) (op : Operation) :
    Counting (op.performIn shell w).2 := by
  refine (run shell).operation (fun parent => ?_) op h
  rcases hc : w.create shell parent with ⟨e | s, w'⟩
  · exact h.create_error hc
  · exact h.create_ok hc

theorem start {m : Manager} {script : List Entry} {onWrite : Nat → List Outside}
    (hquiet : Quiet script onWrite) (hm : m.ids.drawn < UInt32.size → m.registry.Numbered m.ids.drawn) :
    Counting (World.start m script onWrite) :=
  ⟨hquiet, hm, nofun⟩

end Counting

theorem Manager.History.numbered {allowed : Operation → Prop} {m : Manager} (h : m.History allowed)
    (hdrawn : m.ids.drawn < UInt32.size) : m.registry.Numbered m.ids.drawn := by
  induction h with
  | start ids now => exact ⟨fun _ hid => absurd rfl hid, fun _ _ hk => nomatch hk⟩
  | wait t _ ih => exact ih hdrawn
  | perform shell _ hquiet _ ih => exact ((Counting.start hquiet ih).operation shell _).numbered hdrawn

/-- The registries met while at most `n` identifiers are drawn. -/
inductive Registry.MetBy (n : Nat) : Registry → Prop
  | between {m : Manager} (hn : m.ids.drawn ≤ n) : m.History (fun _ => True) → MetBy n m.registry
  | reading {m : Manager} {shell : Shell} {op : Operation} {script : List Entry}
    {onWrite : Nat → List Outside} {own : SessionId} {text : String} {r : Registry}
    (hquiet : Quiet script onWrite) (hn : (op.perform shell script onWrite m).2.ids.drawn ≤ n)
    (hread : .prompt own text r ∈ (op.perform shell script onWrite m).2.events) :
    m.History (fun _ => True) → MetBy n r

theorem Registry.MetBy.numbered {r : Registry} {n : Nat} (h : r.MetBy n) (hn : n < UInt32.size) :
    r.Numbered n := by
  cases h with
  | between hdrawn hm => exact (hm.numbered (hdrawn.trans_lt hn)).mono hdrawn
  | @reading m shell op script onWrite own text _ hquiet hdrawn hread hm =>
    have hrun := (Counting.start hquiet hm.numbered).operation shell op
    refine (hrun.shown (hdrawn.trans_lt hn) r ?_).mono hdrawn
    exact List.mem_filterMap.2 ⟨_, List.mem_reverse.1 hread, rfl⟩

theorem Registry.MetBy.met {r : Registry} {n : Nat} (h : r.MetBy n) : r.Met fun _ => True := by
  cases h with
  | between _ hm => exact .between hm
  | reading hquiet _ hread hm => exact .reading trivial hquiet hread hm

/-- Until the numbers begin anew, links lead to sessions that are there and later only, so that they
form no cycle, and tearing down any session goes on for no more children than there are sessions. -/
theorem Registry.teardown_ends {n : Nat} {r : Registry} (h : r.MetBy n) (hn : n < UInt32.size) :
    (∀ p c, r.child? p = some c → (∃ s, r.find? c = some s) ∧ p.seq < c.seq) ∧
    (∀ id, ¬ Relation.TransGen (fun p c => r.child? p = some c) id id) ∧
    ∀ w : World, w.registry = r → ∀ id, ∃ k ≤ r.size, w.TornDown id k (w.teardown id) := by
  have hranked := (h.numbered hn).ranked
  have horderly : r.Orderly True := h.met.orderly fun _ _ _ => trivial
  refine ⟨fun p c hc => ⟨?_, hranked p c hc⟩, fun id hcycle => ?_, ?_⟩
  · obtain ⟨s, hs, -⟩ := Registry.parent?_eq_some.1 (horderly.mutual_links p c hc)
    exact ⟨s, hs⟩
  · exact Nat.lt_irrefl _ (hranked.lt_of_transGen hcycle)
  · rintro w rfl id
    exact World.tornDown_of_ranked hranked id

/-- The clock has gone back when a child is created, whose identifier comes before that of its
parent. It is torn down with its parent nevertheless. -/
theorem teardown_ends_after_setback :
    let parent : Session := ⟨⟨5, 1⟩, ⟨5⟩, defaultPrompt, none, some ⟨0, 2⟩⟩
    let child : Session := ⟨⟨0, 2⟩, ⟨-1⟩, defaultPrompt, some ⟨5, 1⟩, none⟩
    let r : Registry := Keyed.insert (Keyed.insert ∅ parent) child
    let w := World.start ⟨r, ⟨2⟩, ⟨-1⟩⟩ [] fun _ => []
    r.MetBy 2 ∧ r.keys = [⟨0, 2⟩, ⟨5, 1⟩] ∧ parent.id.seq < child.id.seq ∧
      ∃ k ≤ 2, w.TornDown ⟨5, 1⟩ k (w.teardown ⟨5, 1⟩) := by
  intro parent child r w
  have hquiet : Quiet [] fun _ => [] := by simp [Quiet]
  let m₁ := ((Operation.create none).perform .bare [] (fun _ => []) (.start ⟨5⟩)).2.toManager
  let m₂ := ((Operation.createChild ⟨5, 1⟩).perform .bare [] (fun _ => [])
    { m₁ with now := ⟨-1⟩ }).2.toManager
  have h₁ : m₁.History fun _ => True := .perform .bare trivial hquiet (.start .initial ⟨5⟩)
  have h₂ : m₂.History fun _ => True := .perform .bare trivial hquiet (h₁.wait ⟨-1⟩)
  have hr : m₂.registry = r := by decide +kernel
  have hmet : r.MetBy 2 := hr ▸ .between (by decide +kernel) h₂
  obtain ⟨hlater, -, htorn⟩ := Registry.teardown_ends hmet (by decide)
  exact ⟨hmet, by decide +kernel, (hlater _ _ (by decide +kernel)).2, htorn w rfl ⟨5, 1⟩⟩

end SessionShell
