import Mathlib.Logic.Relation
import SessionShell.Proofs.Mirror
import SessionShell.Proofs.Run.History

namespace SessionShell

namespace Registry

/-- Whether child links lead from one identifier to another, or the two are the same. -/
def LeadsTo (r : Registry) : SessionId → SessionId → Prop :=
  Relation.ReflTransGen fun p c => r.child? p = some c

variable {r : Registry} {s t : Session} {id p q k : SessionId} {n : Nat} {rank : SessionId → Nat}
  {orphans : Prop}

theorem leadsTo_of_mem_descent (h : t ∈ r.descent n id) : r.LeadsTo id t.id := by
  induction n generalizing id with
  | zero => cases h
  | succ n ih =>
    rcases r.descent_cases n id with ⟨-, e⟩ | ⟨s, hs, -, e⟩ | ⟨s, c, hs, hc, e⟩ <;> rw [e] at h
    · cases h
    · rw [List.mem_singleton.1 h, Keyed.key_of_find? hs]
      exact .refl
    · rcases List.mem_cons.1 h with rfl | h
      · rw [Keyed.key_of_find? hs]
        exact .refl
      · exact .head (by rw [child?_of_find? hs, hc]) (ih h)

theorem mem_lineage_iff : t ∈ r.lineage id ↔ r.find? t.id = some t ∧ r.LeadsTo id t.id := by
  constructor
  · intro h
    exact ⟨find?_of_mem_descent h, leadsTo_of_mem_descent h⟩
  · rintro ⟨ht, hlead⟩
    generalize t.id = k at ht hlead
    induction hlead generalizing t with
    | refl => exact mem_lineage_self ht
    | tail _ hc ih =>
      obtain ⟨s, hs, hsc⟩ := child?_eq_some.1 hc
      exact mem_lineage_of_child (ih hs) hsc ht

theorem mem_map_lineage_iff :
    k ∈ (r.lineage id).map Session.id ↔ r.find? k ≠ none ∧ r.LeadsTo id k := by
  rw [List.mem_map]
  constructor
  · rintro ⟨t, ht, rfl⟩
    obtain ⟨hfound, hlead⟩ := mem_lineage_iff.1 ht
    exact ⟨by simp [hfound], hlead⟩
  · rintro ⟨hfound, hlead⟩
    obtain ⟨t, ht⟩ := Option.ne_none_iff_exists'.1 hfound
    obtain rfl : t.id = k := Keyed.key_of_find? ht
    exact ⟨t, mem_lineage_iff.2 ⟨ht, hlead⟩, rfl⟩

theorem map_forget (h : r.child? k ≠ some id) :
    (r.find? k).map (Session.forget id) = r.find? k := by
  cases hk : r.find? k with
  | none => rfl
  | some t =>
    rw [child?_of_find? hk] at h
    rw [Option.map_some, Session.forget_of_child_ne h]

namespace Mutual

theorem eq_of_child (h : r.Mutual) (hp : r.child? p = some k) (hq : r.child? q = some k) : p = q :=
  Option.some.inj ((h p k hp).symm.trans (h q k hq))

theorem registered (h : r.Mutual) (hid : r.find? id ≠ none) (hk : r.LeadsTo id k) :
    r.find? k ≠ none := by
  cases hk with
  | refl => exact hid
  | @tail p _ _ hc =>
    intro hmissing
    exact h.child_ne_of_missing hmissing hc

theorem find?_withdraw (h : r.Mutual) (hid : r.find? id = some s) (k : SessionId) :
    (r.withdraw s).find? k = if id = k then none else (r.find? k).map (Session.forget id) := by
  rw [Registry.find?_withdraw, Keyed.key_of_find? hid]
  split
  · rfl
  · split
    · rfl
    · rename_i hp
      refine (map_forget fun hk => hp ?_).symm
      rw [← parent?_of_find? hid]
      exact h k id hk

end Mutual

theorem RankedBy.not_mem_behind (h : r.RankedBy rank) (hs : r.find? id = some s)
    (hc : s.child = some k) : id ∉ (r.descent n k).map Session.id := by
  intro hmem
  obtain ⟨t, ht, rfl⟩ := List.mem_map.1 hmem
  have hlt := h.lt hs hc
  have hle := h.le_of_mem_descent ht
  omega

/-- Sweeping away a descent takes the sessions of it, and the link that leads to the first. -/
theorem Orderly.find?_sweep_descent (h : r.Orderly orphans) (hrank : r.RankedBy rank)
    (hn : r.above rank id ≤ n) (k : SessionId) :
    (r.sweep (r.descent n id)).find? k =
      if k ∈ (r.descent n id).map Session.id then none
      else (r.find? k).map (Session.forget id) := by
  have missing {id : SessionId} (hid : r.find? id = none) (k : SessionId) :
      r.find? k = (r.find? k).map (Session.forget id) :=
    (map_forget (h.mutual_links.child_ne_of_missing hid)).symm
  induction n generalizing id k with
  | zero => exact missing (missing_of_above hn) k
  | succ n ih =>
    rcases r.descent_cases n id with ⟨hid, e⟩ | ⟨s, hs, hc, e⟩ | ⟨s, c, hs, hc, e⟩ <;> rw [e]
    · exact missing hid k
    · have hid : s.id = id := Keyed.key_of_find? hs
      rw [sweep_cons_of_find? (hid ▸ hs), sweep, h.mutual_links.find?_withdraw hs]
      simp [hid, eq_comm]
    · -- the lineage of the child is swept away first
      have hid : s.id = id := Keyed.key_of_find? hs
      have hroom : r.above rank c < r.above rank id := above_lt hs (hrank.lt hs hc)
      have hbelow : r.above rank c ≤ n := by omega
      have hdeeper := (h.sweep_descent hrank hbelow).1
      have hfound : (r.sweep (r.descent n c)).find? id = some (s.forget c) := by
        rw [ih hbelow, if_neg (hrank.not_mem_behind hs hc), hs]
        rfl
      rw [sweep_cons_of_find? (hid ▸ hfound), hdeeper.mutual_links.find?_withdraw hfound,
        ih hbelow, List.map_cons, hid]
      by_cases hk : id = k
      · simp [hk]
      · -- the link to the child is that of the session itself, and so is no other's
        have hunlinked : r.child? k ≠ some c := fun hkc =>
          hk (h.mutual_links.eq_of_child (by rw [child?_of_find? hs, hc]) hkc)
        rw [if_neg hk, map_forget hunlinked]
        by_cases hmem : k ∈ (r.descent n c).map Session.id
        · rw [if_pos hmem, if_pos (List.mem_cons_of_mem _ hmem)]
          rfl
        · rw [if_neg hmem, if_neg (by simp [Ne.symm hk, hmem])]

theorem Orderly.find?_sweep_lineage (h : r.Orderly orphans) (id k : SessionId) :
    (r.sweep (r.lineage id)).find? k =
      if k ∈ (r.lineage id).map Session.id then none
      else (r.find? k).map (Session.forget id) := by
  obtain ⟨rank, hrank⟩ := h.acyclic
  exact h.find?_sweep_descent hrank above_le_size k

end Registry

namespace World

variable {w w₁ v : World} {shell : Shell} {r : Registry} {rs : List Registry} {id p : SessionId}
  {s t c : Session} {deeper : List Session} {n : Nat} {rank : SessionId → Nat} {orphans : Prop}

theorem teardown_of_missing (h : w.registry.find? id = none) : w.teardown id = (false, w) := by
  rw [teardown, Registry.lineage_of_missing h]
  rfl

namespace Still

theorem teardownAll_cons (h : w.Still r rs) (hs : (r.sweep deeper).find? s.id = some t) :
    (World.teardownAll (s :: deeper) w).1 = true ∧
      (World.teardownAll (s :: deeper) w).2.lines =
        (World.teardownAll deeper w).2.lines ++ s.deathNotice := by
  rw [← (h.teardownAll deeper).registry] at hs
  refine ⟨by simp [World.teardownAll, retire?_of_find? hs], ?_⟩
  rw [teardownAll_cons_of_find? hs, lines_writeAll, lines_retire]

theorem teardownAll_descent (h : w.Still r rs) (ho : r.Orderly orphans) (hrank : r.RankedBy rank)
    (hn : r.above rank id ≤ n) :
    (World.teardownAll (r.descent n id) w).1 = (r.find? id).isSome ∧
      (World.teardownAll (r.descent n id) w).2.lines =
        w.lines ++ (r.descent n id).reverse.flatMap Session.deathNotice := by
  induction n generalizing id with
  | zero =>
    rw [Registry.missing_of_above hn]
    exact ⟨rfl, (List.append_nil _).symm⟩
  | succ n ih =>
    rcases r.descent_cases n id with ⟨hid, e⟩ | ⟨s, hs, hc, e⟩ | ⟨s, c, hs, hc, e⟩ <;> rw [e]
    · rw [hid]
      exact ⟨rfl, (List.append_nil _).symm⟩
    · have hfound : (r.sweep []).find? s.id = some s := by rwa [Keyed.key_of_find? hs]
      obtain ⟨hanswer, hlines⟩ := h.teardownAll_cons hfound
      rw [hs]
      exact ⟨hanswer, hlines.trans (by simp [World.teardownAll])⟩
    · -- when its turn comes a session has lost its link to the child, but is there
      have hroom : r.above rank c < r.above rank id := Registry.above_lt hs (hrank.lt hs hc)
      have hbelow : r.above rank c ≤ n := by omega
      have hfound : (r.sweep (r.descent n c)).find? s.id = some (s.forget c) := by
        rw [Keyed.key_of_find? hs, ho.find?_sweep_descent hrank hbelow,
          if_neg (hrank.not_mem_behind hs hc), hs]
        rfl
      obtain ⟨hanswer, hlines⟩ := h.teardownAll_cons hfound
      rw [hs]
      refine ⟨hanswer, hlines.trans ?_⟩
      rw [(ih hbelow).2]
      simp

end Still

/-- What the teardown of a registered session does: the sessions that go, the link that is cleared,
the records that stay, and the lines written, in which the sessions from `s` down are announced from
the last of them up. -/
structure Clearance (w : World) (id : SessionId) (s : Session) : Prop where
  answer : (w.teardown id).1 = true
  gone (k : SessionId) : w.registry.LeadsTo id k →
    w.registry.find? k ≠ none ∧ (w.teardown id).2.registry.find? k = none
  unlinked (p : SessionId) (t : Session) : w.registry.find? p = some t → t.child = some id →
    s.parent = some p ∧ (w.teardown id).2.registry.find? p = some { t with child := none }
  kept (k : SessionId) : ¬ w.registry.LeadsTo id k → w.registry.child? k ≠ some id →
    (w.teardown id).2.registry.find? k = w.registry.find? k
  notices : ∃ chain : List Session, chain.head? = some s ∧ chain.Nodup ∧
    chain.IsChain (fun p c => p.child = some c.id ∧ c.parent = some p.id) ∧
    (∀ t, t ∈ chain ↔ w.registry.find? t.id = some t ∧ w.registry.LeadsTo id t.id) ∧
    (w.teardown id).2.lines = w.lines ++ chain.reverse.flatMap fun t =>
      ["*****", "Shell (" ++ t.id.text ++ ") exiting...",
        t.parent.elim "This was the top-most shell" fun parent =>
          "Returning to parent shell (" ++ parent.text ++ ")", "*****"]

theorem clearance (hquiet : w.Quiet) (ho : w.registry.Orderly orphans)
    (hs : w.registry.find? id = some s) : w.Clearance id s := by
  obtain ⟨rank, hrank⟩ := ho.acyclic
  have hmutual : w.registry.Mutual := ho.mutual_links
  have hstill : w.Still w.registry w.shown := ⟨hquiet, rfl, rfl⟩
  obtain ⟨hanswer, hlines⟩ : (w.teardown id).1 = (w.registry.find? id).isSome ∧ _ :=
    hstill.teardownAll_descent ho hrank Registry.above_le_size
  have hfind (k : SessionId) : (w.teardown id).2.registry.find? k =
      if k ∈ (w.registry.lineage id).map Session.id then none
      else (w.registry.find? k).map (Session.forget id) := by
    rw [(hstill.teardown id).registry]
    exact ho.find?_sweep_lineage id k
  refine ⟨by rw [hanswer, hs]; rfl, fun k hk => ?_, fun p t ht htc => ?_, fun k hk hlink => ?_,
    w.registry.lineage id, ?_, hrank.nodup_descent _ _, Registry.isChain_descent hmutual _ _,
    fun t => Registry.mem_lineage_iff, ?_⟩
  · have hfound : w.registry.find? k ≠ none := hmutual.registered (by simp [hs]) hk
    exact ⟨hfound, by rw [hfind, if_pos (Registry.mem_map_lineage_iff.2 ⟨hfound, hk⟩)]⟩
  · have hparent : w.registry.parent? id = some p :=
      hmutual p id (by rw [Registry.child?_of_find? ht, htc])
    have hstays : p ∉ (w.registry.lineage id).map Session.id := hrank.not_mem_behind ht htc
    rw [hfind, if_neg hstays, ht, Option.map_some, Session.forget_of_child htc]
    exact ⟨by rwa [Registry.parent?_of_find? hs] at hparent, rfl⟩
  · have hstays : k ∉ (w.registry.lineage id).map Session.id := fun hmem =>
      hk (Registry.mem_map_lineage_iff.1 hmem).2
    rw [hfind, if_neg hstays, Registry.map_forget hlink]
  · obtain ⟨deeper, hl⟩ := Registry.lineage_of_find? hs
    rw [hl]
    rfl
  · rw [← funext Session.deathNotice_eq]
    exact hlines

theorem teardown_of_createChild (hquiet : w.Quiet) (hc : w.createChild shell p = (.ok c, w₁))
    (hv : v.registry = w₁.registry) (hvquiet : v.Quiet) :
    (v.teardown c.id).1 = true ∧ (v.teardown c.id).2.registry = w.registry := by
  have hstill : w.Still w.registry w.shown := ⟨hquiet, rfl, rfl⟩
  obtain ⟨hw₁, hfree, hchild, hparent, s, hs, hsc⟩ := hstill.createChild_ok hc
  rw [hw₁.registry] at hv
  have hadopted : (w.registry.adopt p c).find? c.id = some c := by
    rw [Registry.find?_adopt, if_neg (Keyed.ne_of_missing hfree hs).symm, if_pos rfl]
  have hvstill : v.Still (w.registry.adopt p c) v.shown := ⟨hvquiet, hv, rfl⟩
  have hfound : v.registry.find? c.id = some c := by rw [hv, hadopted]
  constructor
  · have hswept : ((w.registry.adopt p c).sweep []).find? c.id = some c := hadopted
    rw [teardown, Registry.lineage_of_childless hfound hchild]
    exact (hvstill.teardownAll_cons hswept).1
  · rw [teardown_of_childless hfound hchild]
    rw [((hvstill.retire hadopted).writeAll _).registry]
    exact Registry.withdraw_adopt hfree hparent hs hsc

/-- Where registries come of the operations of a manager, without other parties, a teardown does
nothing if the session is not registered. Otherwise it takes the session, all that child links lead
to from it, and the link to it; it is done once; and it undoes the creation of a child. -/
theorem teardown_of_met (hmet : w.registry.Met fun _ => True) (hquiet : w.Quiet) (id : SessionId) :
    (w.registry.find? id = none → w.teardown id = (false, w)) ∧
    (∀ s, w.registry.find? id = some s → w.Clearance id s) ∧
    (∀ v : World, v.registry = (w.teardown id).2.registry → v.teardown id = (false, v)) ∧
    ∀ (shell : Shell) (c : Session) (w₁ v : World), w.createChild shell id = (.ok c, w₁) →
      v.registry = w₁.registry → v.Quiet →
      (v.teardown c.id).1 = true ∧ (v.teardown c.id).2.registry = w.registry := by
  have ho : w.registry.Orderly True := hmet.orderly fun _ _ _ => trivial
  refine ⟨teardown_of_missing, fun s hs => clearance hquiet ho hs, fun v hv => ?_,
    fun shell c w₁ v hc hv hvquiet => teardown_of_createChild hquiet hc hv hvquiet⟩
  apply teardown_of_missing
  rw [hv]
  cases hid : w.registry.find? id with
  | none => rw [teardown_of_missing hid, hid]
  | some s => exact ((clearance hquiet ho hid).gone id .refl).2

/-- The second of three sessions in a row goes with the third; a fourth, created under the first
without being linked, stays. -/
theorem clearance_of_middle :
    let top : Session := ⟨⟨0, 1⟩, ⟨0⟩, defaultPrompt, none, some ⟨0, 2⟩⟩
    let middle : Session := ⟨⟨0, 2⟩, ⟨0⟩, defaultPrompt, some ⟨0, 1⟩, some ⟨0, 3⟩⟩
    let bottom : Session := ⟨⟨0, 3⟩, ⟨0⟩, defaultPrompt, some ⟨0, 2⟩, none⟩
    let orphan : Session := ⟨⟨0, 4⟩, ⟨0⟩, defaultPrompt, some ⟨0, 1⟩, none⟩
    let latest : Session := ⟨⟨0, 5⟩, ⟨0⟩, defaultPrompt, some ⟨0, 4⟩, none⟩
    let r : Registry := [top, middle, bottom, orphan].foldl Keyed.insert ∅
    let w : World := World.start ⟨r, ⟨4⟩, ⟨0⟩⟩ [] fun _ => [.clock ⟨5⟩]
    w.Clearance ⟨0, 2⟩ middle ∧
      (w.teardown ⟨0, 2⟩).2.registry.toList = [{ top with child := none }, orphan] ∧
      (w.teardown ⟨0, 2⟩).2.lines = bottom.deathNotice ++ middle.deathNotice ∧
      w.teardown ⟨0, 5⟩ = (false, w) ∧
      ((w.createChild .bare ⟨0, 4⟩).2.teardown latest.id).2.registry = w.registry := by
  intro top middle bottom orphan latest r w
  have hmet : w.registry.Met fun _ => True := by
    let next (m : Manager) (op : Operation) := (op.perform .bare [] (fun _ => []) m).2.toManager
    have hnext {m : Manager} (op : Operation) (hm : m.History fun _ => True) :
        (next m op).History fun _ => True :=
      .perform .bare trivial (by simp [SessionShell.Quiet]) hm
    have hlast := hnext (.create (some ⟨0, 1⟩)) (hnext (.createChild ⟨0, 2⟩)
      (hnext (.createChild ⟨0, 1⟩) (hnext (.create none) (.start .initial ⟨0⟩))))
    have hm : next (next (next (next ⟨∅, .initial, ⟨0⟩⟩ (.create none)) (.createChild ⟨0, 1⟩))
        (.createChild ⟨0, 2⟩)) (.create (some ⟨0, 1⟩)) = w.toManager := by decide +kernel
    rw [hm] at hlast
    exact .between hlast
  have hquiet : w.Quiet := by simp [w, World.Quiet, SessionShell.Quiet, start, Outside.isQuiet]
  obtain ⟨-, hclear, -, -⟩ := teardown_of_met hmet hquiet ⟨0, 2⟩
  obtain ⟨hmissing, -⟩ := teardown_of_met hmet hquiet ⟨0, 5⟩
  obtain ⟨-, -, -, hundo⟩ := teardown_of_met hmet hquiet ⟨0, 4⟩
  have hcreate : w.createChild .bare ⟨0, 4⟩ = (.ok latest, (w.createChild .bare ⟨0, 4⟩).2) :=
    Prod.ext (by decide +kernel) rfl
  have hstill : w.Still w.registry w.shown := ⟨hquiet, rfl, rfl⟩
  have hcreated : (w.createChild .bare ⟨0, 4⟩).2.Quiet := (hstill.createChild_ok hcreate).1.quiet
  refine ⟨hclear middle (by decide +kernel), by decide +kernel, by decide +kernel,
    hmissing (by decide +kernel), ?_⟩
  obtain ⟨-, hrestored⟩ := hundo .bare _ _ _ hcreate rfl hcreated
  exact hrestored

end World
end SessionShell
