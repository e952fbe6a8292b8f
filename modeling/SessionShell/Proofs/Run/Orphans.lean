import SessionShell.Proofs.Lineage
import SessionShell.Proofs.Run.Course
import SessionShell.Proofs.Run.Meanwhile

namespace SessionShell

/-- The registry with which the teardown began that removes a session from `r` after the given
events, the latest of them first; none if no teardown removes it: the last read was given up, or a
session has been created since, which may be discarded. -/
def teardownStart (r : Registry) : List Event → Option Registry
  | [] => some r
  | .input _ .aborted :: _ => none
  | .input .. :: _ => some r
  | .created _ :: _ => none
  | .removed _ r' :: earlier => teardownStart r' earlier
  | _ :: earlier => teardownStart r earlier

/-- Whether a session that a teardown has removed had the child `c` when the teardown began, and no
other party has registered `c` since. -/
def Bereft (c : SessionId) (log : List Event) : Prop :=
  ∃ later s r earlier r₀, log = later ++ .removed s r :: earlier ∧
    teardownStart r earlier = some r₀ ∧ r₀.child? s.id = some c ∧
    ∀ e ∈ later ++ earlier.takeWhile (! ·.isRead), e.registers c = false

section log

variable {r : Registry} {e : Event} {new log : List Event} {c : SessionId}

theorem teardownStart_append (hread : ∀ e ∈ new, e.isRead = false)
    (hturnover : ∀ e ∈ new, e.isTurnover = false) (r : Registry) (log : List Event) :
    teardownStart r (new ++ log) = teardownStart r log := by
  induction new with
  | nil => rfl
  | cons e new ih =>
    have hread := List.forall_mem_cons.1 hread
    have hturnover := List.forall_mem_cons.1 hturnover
    cases e with
    | write | reply => exact ih hread.2 hturnover.2
    | prompt | input => cases hread.1
    | created | removed => cases hturnover.1

theorem teardownStart_of_input {own : SessionId} {o : ReadOutcome}
    (h : log.head? = some (.input own o)) (ho : o ≠ .aborted) (r : Registry) :
    teardownStart r log = some r := by
  obtain ⟨earlier, rfl⟩ := List.head?_eq_some_iff.1 h
  cases o with
  | line | endOfInput | failed => rfl
  | aborted => exact absurd rfl ho

theorem teardownStart_of_aborted {own : SessionId} (h : log.head? = some (.input own .aborted))
    (r : Registry) : teardownStart r log = none := by
  obtain ⟨earlier, rfl⟩ := List.head?_eq_some_iff.1 h
  rfl

theorem Bereft.of_cons (h : Bereft c (e :: log)) (he : ∀ s r, e ≠ .removed s r) :
    e.registers c = false ∧ Bereft c log := by
  obtain ⟨later, s, r, earlier, r₀, hlog, hstart, hchild, hothers⟩ := h
  cases later with
  | nil =>
    cases hlog
    exact absurd rfl (he s r)
  | cons e' later =>
    obtain ⟨rfl, hrest⟩ := List.cons.inj hlog
    obtain ⟨he, hothers⟩ := List.forall_mem_cons.1 hothers
    exact ⟨he, later, s, r, earlier, r₀, hrest, hstart, hchild, hothers⟩

theorem Bereft.of_append (h : Bereft c (new ++ log)) (hnew : ∀ e ∈ new, e.isTurnover = false) :
    (∀ e ∈ new, e.registers c = false) ∧ Bereft c log := by
  induction new with
  | nil => exact ⟨by simp, h⟩
  | cons e new ih =>
    obtain ⟨he, hnew⟩ := List.forall_mem_cons.1 hnew
    obtain ⟨hreg, h⟩ := h.of_cons (by rintro s r rfl; cases he)
    obtain ⟨hregs, h⟩ := ih h hnew
    exact ⟨List.forall_mem_cons.2 ⟨hreg, hregs⟩, h⟩

theorem Bereft.of_removed {s : Session} (h : Bereft c (.removed s r :: log))
    (hlog : teardownStart r log = none) : Bereft c log := by
  obtain ⟨later, s', r', earlier, r₀, heq, hstart, hchild, hothers⟩ := h
  cases later with
  | nil =>
    cases heq
    rw [hlog] at hstart
    cases hstart
  | cons e' later =>
    obtain ⟨rfl, hrest⟩ := List.cons.inj heq
    exact ⟨later, s', r', earlier, r₀, hrest, hstart, hchild, (List.forall_mem_cons.1 hothers).2⟩

end log

/-- What removing the given sessions has made of `w`; `new` has happened meanwhile. -/
structure Swept (sessions : List Session) (w : World) (new : List Event) (w' : World) : Prop where
  log : w'.log = new ++ w.log
  unread : ∀ e ∈ new, e.isRead = false
  started : w' = w ∧ new = [] ∨ ∀ r, teardownStart r (new ++ w.log) = teardownStart w.registry w.log
  listed : ∀ s r earlier, (.removed s r :: earlier) <:+ new → (∃ t ∈ sessions, t.id = s.id) ∧
    teardownStart r (earlier ++ w.log) = teardownStart w.registry w.log
  gone : ∀ t ∈ sessions, (∀ e ∈ new, e.registers t.id = false) → w'.registry.find? t.id = none
  missing : ∀ id, w.registry.find? id = none → (∀ e ∈ new, e.registers id = false) →
    w'.registry.find? id = none

namespace Swept

variable {sessions deeper : List Session} {w w' : World} {new : List Event} {s t : Session}

theorem nil (w : World) : Swept [] w [] w where
  log := rfl
  unread := by simp
  started := .inl ⟨rfl, rfl⟩
  listed s r earlier h := by cases List.suffix_nil.1 h
  gone := by simp
  missing _ h _ := h

theorem cons_missing (h : Swept deeper w new w') (hs : w'.registry.find? s.id = none) :
    Swept (s :: deeper) w new w' where
  log := h.log
  unread := h.unread
  started := h.started
  listed s r earlier hsuffix := by
    obtain ⟨⟨t, ht, hid⟩, hstart⟩ := h.listed s r earlier hsuffix
    exact ⟨⟨t, List.mem_cons_of_mem _ ht, hid⟩, hstart⟩
  gone := List.forall_mem_cons.2 ⟨fun _ => hs, h.gone⟩
  missing := h.missing

theorem cons_retire (h : Swept deeper w new w') (hs : w'.registry.find? s.id = some t) :
    Swept (s :: deeper) w (.removed t w'.registry :: new) (w'.retire s.id) := by
  have htid : t.id = s.id := Keyed.key_of_find? hs
  have hstart : teardownStart w'.registry (new ++ w.log) = teardownStart w.registry w.log := by
    rcases h.started with ⟨rfl, rfl⟩ | h
    · rfl
    · exact h _
  have hgone {id : SessionId} (hid : w'.registry.find? id = none) :
      (w'.retire s.id).registry.find? id = none := by
    rw [World.retire_of_find? hs]
    show (w'.registry.withdraw t).find? id = none
    simp [Registry.find?_withdraw, hid]
  refine ⟨?_, List.forall_mem_cons.2 ⟨rfl, h.unread⟩, .inr fun r => hstart, ?_, ?_, ?_⟩
  · rw [World.retire_of_find? hs]
    exact congrArg (_ :: ·) h.log
  · intro s' r earlier hsuffix
    rcases List.suffix_cons_iff.1 hsuffix with heq | hsuffix
    · cases heq
      exact ⟨⟨s, List.mem_cons_self .., htid.symm⟩, hstart⟩
    · obtain ⟨⟨u, hu, hid⟩, hearlier⟩ := h.listed s' r earlier hsuffix
      exact ⟨⟨u, List.mem_cons_of_mem _ hu, hid⟩, hearlier⟩
  · refine List.forall_mem_cons.2 ⟨fun _ => World.find?_retire w' s.id, fun u hu hothers => ?_⟩
    exact hgone (h.gone u hu (List.forall_mem_cons.1 hothers).2)
  · intro id hid hothers
    exact hgone (h.missing id hid (List.forall_mem_cons.1 hothers).2)

theorem writeAll (h : Swept sessions w new w') (hnew : new ≠ []) (lines : List String) :
    ∃ new', Swept sessions w new' (w'.writeAll lines) := by
  obtain ⟨written, hread, helapsed⟩ := w'.elapsed_writeAll lines
  have hunread := List.forall_mem_append.2 ⟨hread, h.unread⟩
  refine ⟨written ++ new, ?_, hunread, .inr fun r => ?_, ?_, ?_, ?_⟩
  · rw [helapsed.log, h.log, List.append_assoc]
  · rw [List.append_assoc, teardownStart_append hread helapsed.turnover]
    exact (h.started.resolve_left fun ⟨_, hnil⟩ => hnew hnil) r
  · intro s r earlier hsuffix
    exact h.listed s r earlier (suffix_of_append hsuffix fun hmem => by
      cases helapsed.turnover _ hmem)
  · intro t ht hothers
    obtain ⟨hwritten, hothers⟩ := List.forall_mem_append.1 hothers
    exact helapsed.missing t.id (h.gone t ht hothers) hwritten
  · intro id hid hothers
    obtain ⟨hwritten, hothers⟩ := List.forall_mem_append.1 hothers
    exact helapsed.missing id (h.missing id hid hothers) hwritten

end Swept

theorem World.swept (sessions : List Session) (w : World) :
    ∃ new, Swept sessions w new (World.teardownAll sessions w).2 := by
  induction sessions with
  | nil => exact ⟨[], .nil w⟩
  | cons s deeper ih =>
    obtain ⟨new, h⟩ := ih
    cases hs : (World.teardownAll deeper w).2.registry.find? s.id with
    | none =>
      rw [World.teardownAll_cons_of_missing hs]
      exact ⟨new, h.cons_missing hs⟩
    | some t =>
      rw [World.teardownAll_cons_of_find? hs]
      exact (h.cons_retire hs).writeAll nofun _

namespace Swept

variable {w w' : World} {new : List Event} {id c : SessionId}

theorem gone_self (h : Swept (w.registry.lineage id) w new w')
    (hothers : ∀ e ∈ new, e.registers id = false) : w'.registry.find? id = none := by
  cases hs : w.registry.find? id with
  | none => exact h.missing id hs hothers
  | some s =>
    have hid : s.id = id := Keyed.key_of_find? hs
    rw [← hid] at hothers ⊢
    exact h.gone s (Registry.mem_lineage_self hs) hothers

/-- A lineage is closed under child links, so that whatever a session in it was linked to is gone.
-/
theorem gone_child {s : Session} {r : Registry} {earlier : List Event}
    (h : Swept (w.registry.lineage id) w new w') (hs : (.removed s r :: earlier) <:+ new)
    (hc : w.registry.child? s.id = some c) (hothers : ∀ e ∈ new, e.registers c = false) :
    w'.registry.find? c = none := by
  obtain ⟨⟨t, ht, hid⟩, -⟩ := h.listed s r earlier hs
  rw [← hid, Registry.child?_of_find? (Registry.find?_of_mem_descent ht)] at hc
  cases hk : w.registry.find? c with
  | none => exact h.missing c hk hothers
  | some k =>
    have hkid : k.id = c := Keyed.key_of_find? hk
    rw [← hkid] at hothers ⊢
    exact h.gone k (Registry.mem_lineage_of_child ht hc hk) hothers

end Swept

theorem Bereft.of_swept {w w' : World} {new : List Event} {id c : SessionId} (h : Bereft c w'.log)
    (hswept : Swept (w.registry.lineage id) w new w')
    (hlog : teardownStart w.registry w.log = some w.registry) :
    (∀ e ∈ new, e.registers c = false) ∧ (Bereft c w.log ∨
      ∃ s r earlier, (.removed s r :: earlier) <:+ new ∧ w.registry.child? s.id = some c) := by
  obtain ⟨later, s, r, earlier, r₀, heq, hstart, hchild, hothers⟩ := h
  obtain ⟨hlater, hearlier⟩ := List.forall_mem_append.1 hothers
  rw [hswept.log] at heq
  rcases List.append_eq_append_iff.1 heq with ⟨before, rfl, hold⟩ | ⟨removed, rfl, hrest⟩
  · -- the removal was on record before
    obtain ⟨hnew, hbefore⟩ := List.forall_mem_append.1 hlater
    refine ⟨hnew, .inl ⟨before, s, r, earlier, r₀, hold, hstart, hchild, ?_⟩⟩
    exact List.forall_mem_append.2 ⟨hbefore, hearlier⟩
  · cases removed with
    | nil =>
      rw [List.append_nil]
      exact ⟨hlater, .inl ⟨[], s, r, earlier, r₀, hrest.symm, hstart, hchild, hearlier⟩⟩
    | cons e removed =>
      rw [List.cons_append] at hrest
      obtain ⟨rfl, rfl⟩ := List.cons.inj hrest
      -- a removal of this teardown: what was read last before it is what the lineage is made of
      have hsuffix : (.removed s r :: removed) <:+ later ++ .removed s r :: removed :=
        List.suffix_append ..
      rw [(hswept.listed s r removed hsuffix).2, hlog] at hstart
      cases hstart
      have hunread := (List.forall_mem_cons.1 (List.forall_mem_append.1 hswept.unread).2).2
      rw [List.takeWhile_append_of_pos fun e he => by simp [hunread e he]] at hearlier
      refine ⟨List.forall_mem_append.2 ⟨hlater, List.forall_mem_cons.2 ⟨rfl, ?_⟩⟩,
        .inr ⟨s, r, removed, hsuffix, hchild⟩⟩
      exact (List.forall_mem_append.1 hearlier).1

/-- All whom teardowns have bereaved are gone, but for those on the stack. -/
def Redeemed (stack : List SessionId) (w : World) : Prop :=
  ∀ c, Bereft c w.log → c ∉ stack → w.registry.find? c = none

namespace Redeemed

variable {stack : List SessionId} {w w' : World} {own c : SessionId} {shell : Shell} {s : Session}
  {new : List Event}

theorem of_elapsed (h : Redeemed stack w) (helapsed : Elapsed w new w') : Redeemed stack w' := by
  intro c hc hstack
  rw [helapsed.log] at hc
  obtain ⟨hothers, hc⟩ := hc.of_append helapsed.turnover
  exact helapsed.missing c (h c hc hstack) hothers

theorem writeAll (h : Redeemed stack w) (lines : List String) :
    Redeemed stack (w.writeAll lines) := by
  obtain ⟨new, -, helapsed⟩ := w.elapsed_writeAll lines
  exact h.of_elapsed helapsed

theorem ask {r : ReadOutcome} (h : Redeemed stack w) (hask : w.ask shell own = (r, w')) :
    Redeemed stack w' := by
  obtain ⟨-, rfl⟩ := Prod.mk.inj hask
  obtain ⟨new, -, helapsed⟩ := w.elapsed_read own (Loop.currentPrompt shell own w.registry)
  exact h.of_elapsed helapsed

theorem setRegistry (h : Redeemed stack w) {r : Registry}
    (hr : ∀ id, w.registry.find? id = none → r.find? id = none) :
    Redeemed stack (w.setRegistry r) :=
  fun c hc hstack => hr c (h c hc hstack)

theorem rename (h : Redeemed stack w) (own : SessionId) (text : String) :
    Redeemed stack (w.rename own text) := by
  cases hs : w.registry.find? own with
  | none =>
    rw [World.rename_of_missing hs]
    exact h.writeAll [_]
  | some s =>
    rw [World.rename_of_find? hs]
    exact h.setRegistry fun id hid => by simp [Registry.find?_change, hid]

theorem create {parent : Option SessionId} (h : Redeemed stack w)
    (hc : w.create shell parent = (.ok s, w')) : Redeemed (s.id :: stack) w' := by
  obtain ⟨ids, -, -, -, rfl⟩ := World.create_ok hc
  refine writeAll (fun c hc hstack => ?_) _
  obtain ⟨hne, hstack⟩ := not_or.1 (mt List.mem_cons.2 hstack)
  obtain ⟨-, hc⟩ := hc.of_cons nofun
  show (w.registry.insert s).find? c = none
  rw [Keyed.find?_insert, if_neg (Ne.symm hne)]
  exact h c hc hstack

theorem create_error {parent : Option SessionId} {e : ShellError} (h : Redeemed stack w)
    (hc : w.create shell parent = (.error e, w')) : Redeemed stack w' := by
  obtain ⟨ids, -, rfl, -⟩ := World.create_error hc
  exact h

theorem createChild {parent : SessionId} (h : Redeemed stack w)
    (hc : w.createChild shell parent = (.ok s, w')) : Redeemed (s.id :: stack) w' := by
  obtain ⟨-, -, w₁, -, -, hnew, -, -, rfl⟩ := World.createChild_ok hc
  exact (h.create hnew).setRegistry fun id hid => by simp [Registry.find?_change, hid]

/-- Removing a session of the stack, though not by a teardown, makes it gone. -/
theorem pop (h : Redeemed (own :: stack) w) (s : Session) {r : Registry}
    (hr : ∀ id, w.registry.find? id = none → r.find? id = none) (hown : r.find? own = none)
    (hlog : teardownStart w.registry w.log = none) :
    Redeemed stack ((w.setRegistry r).record (.removed s w.registry)) := by
  intro c hc hstack
  have hc : Bereft c w.log := hc.of_removed hlog
  by_cases hne : c = own
  · rw [hne]
    exact hown
  · exact hr c (h c hc fun hmem => (List.mem_cons.1 hmem).elim hne hstack)

theorem pop_missing (h : Redeemed (own :: stack) w) (hs : w.registry.find? own = none) :
    Redeemed stack w := by
  intro c hc hstack
  by_cases hne : c = own
  · rw [hne]
    exact hs
  · exact h c hc fun hmem => (List.mem_cons.1 hmem).elim hne hstack

theorem retire (h : Redeemed (own :: stack) w) (hlog : teardownStart w.registry w.log = none) :
    Redeemed stack (w.retire own) := by
  cases hs : w.registry.find? own with
  | none =>
    rw [World.retire_of_missing hs]
    exact h.pop_missing hs
  | some s =>
    have hgone := World.find?_retire w own
    rw [World.retire_of_find? hs] at hgone ⊢
    exact h.pop s (fun id hid => by simp [Registry.find?_withdraw, hid]) hgone hlog

theorem discard (h : Redeemed (own :: stack) w) (hlog : teardownStart w.registry w.log = none) :
    Redeemed stack (w.discard own) := by
  cases hs : w.registry.find? own with
  | none =>
    rw [World.discard_of_missing hs]
    exact h.pop_missing hs
  | some s =>
    have hid : s.id = own := Keyed.key_of_find? hs
    rw [World.discard_of_find? hs, hid]
    refine h.pop s (fun id hid => ?_) ?_ hlog
    · simp [Keyed.find?_erase, hid]
    · simp [Keyed.find?_erase]

theorem createChild_error {parent : SessionId} {e : ShellError} (h : Redeemed stack w)
    (he : w.createChild shell parent = (.error e, w')) : Redeemed stack w' := by
  obtain rfl | ⟨-, -, -, hc⟩ | ⟨-, c, w₁, -, -, hc, -, rfl⟩ := World.createChild_error he
  · exact h
  · exact h.create_error hc
  · refine (h.create hc).discard ?_
    obtain ⟨ids, -, -, -, rfl⟩ := World.create_ok hc
    obtain ⟨new, hread, helapsed⟩ := (w.enter c ids).elapsed_writeAll c.birthNotice
    rw [helapsed.log, teardownStart_append hread helapsed.turnover]
    rfl

theorem teardown (h : Redeemed (own :: stack) w)
    (hlog : teardownStart w.registry w.log = some w.registry) :
    Redeemed stack (w.teardown own).2 := by
  obtain ⟨new, hswept⟩ := World.swept (w.registry.lineage own) w
  intro c hc hstack
  obtain ⟨hothers, hc | ⟨s, r, earlier, hs, hchild⟩⟩ := hc.of_swept hswept hlog
  · by_cases hne : c = own
    · rw [hne] at hothers ⊢
      exact hswept.gone_self hothers
    · exact hswept.missing c (h c hc fun hmem => (List.mem_cons.1 hmem).elim hne hstack) hothers
  · exact hswept.gone_child hs hchild hothers

end Redeemed

/-- A session whose input has been given up is not torn down; any other is as soon as it has read.
-/
theorem Course.teardownStart_eq {shell : Shell} {own : SessionId} {w w' : World} {o : Outcome Unit}
    (h : Course shell own w o w') :
    (o = .aborted → ∀ r, teardownStart r w'.log = none) ∧
      (o ≠ .aborted → ∀ r, teardownStart r w'.log = some r) := by
  induction h with
  | @stopped own w w' r o hask ho =>
    have hhead := World.head?_log_of_ask hask
    cases r with
    | line text => cases ho
    | endOfInput | failed reason =>
      cases ho
      exact ⟨nofun, fun _ => teardownStart_of_input hhead nofun⟩
    | aborted =>
      cases ho
      exact ⟨fun _ => teardownStart_of_aborted hhead, fun h => absurd rfl h⟩
  | left hask hdeed =>
    exact ⟨nofun, fun _ => teardownStart_of_input (World.head?_log_of_ask hask) nofun⟩
  | said hask hdeed hrest ih => exact ih
  | renamed hask hdeed hrest ih => exact ih
  | refused hask hdeed he hrest ih => exact ih
  | resumed hask hdeed hc hchild hoc hrest ihc ih => exact ih
  | @forsaken own w w₁ w₂ w' text c hask hdeed hc hchild ih =>
    -- retiring the child reads nothing, so that the read given up stays the last one
    refine ⟨fun _ r => ?_, fun h => absurd rfl h⟩
    have hnone := ih.1 rfl
    cases hs : w'.registry.find? c.id with
    | none =>
      rw [World.retire_of_missing hs]
      exact hnone r
    | some s =>
      rw [World.retire_of_find? hs]
      exact hnone w'.registry

theorem Course.redeemed {shell : Shell} {own : SessionId} {stack : List SessionId} {w w' : World}
    {o : Outcome Unit} (hcourse : Course shell own w o w') (h : Redeemed (own :: stack) w) :
    Redeemed (own :: stack) w' := by
  induction hcourse generalizing stack with
  | stopped hask => exact h.ask hask
  | left hask => exact h.ask hask
  | said hask hdeed hrest ih => exact ih ((h.ask hask).writeAll _)
  | renamed hask hdeed hrest ih => exact ih ((h.ask hask).rename _ _)
  | refused hask hdeed he hrest ih => exact ih (((h.ask hask).createChild_error he).writeAll [_])
  | resumed hask hdeed hc hchild hoc hrest ihc ih =>
    have hended := ihc ((h.ask hask).createChild hc)
    exact ih ((hended.teardown (hchild.teardownStart_eq.2 hoc _)).writeAll _)
  | forsaken hask hdeed hc hchild ih =>
    exact (ih ((h.ask hask).createChild hc)).retire (hchild.teardownStart_eq.1 rfl _)

theorem Redeemed.drive {shell : Shell} {own : SessionId} {stack : List SessionId} {w : World}
    (h : Redeemed (own :: stack) w) : Redeemed stack (w.drive (World.run shell) own).2 := by
  have hcourse := World.course_of_run shell own w
  have hrun := hcourse.redeemed h
  obtain ⟨haborted, hended⟩ := hcourse.teardownStart_eq
  unfold World.drive
  rcases hr : w.run shell own with ⟨_ | e | _, w'⟩ <;> rw [hr] at hrun haborted hended
  · exact hrun.teardown (hended nofun _)
  · exact hrun.teardown (hended nofun _)
  · exact hrun.retire (haborted rfl _)

theorem not_bereft_nil {c : SessionId} : ¬ Bereft c [] := by
  rintro ⟨later, s, r, earlier, r₀, heq, -⟩
  cases later <;> cases heq

theorem Redeemed.of_create {shell : Shell} {parent : Option SessionId} {w w' : World} {s : Session}
    (hlog : w.log = []) (hc : w.create shell parent = (.ok s, w')) : Redeemed [] w' := by
  obtain ⟨ids, -, -, -, rfl⟩ := World.create_ok hc
  refine Redeemed.writeAll (fun c hc => ?_) _
  obtain ⟨-, hc⟩ := hc.of_cons nofun
  rw [hlog] at hc
  exact absurd hc not_bereft_nil

theorem Redeemed.operation {w : World} (hlog : w.log = []) (shell : Shell) (op : Operation) :
    Redeemed [] (op.performIn shell w).2 := by
  have hnil {stack : List SessionId} : Redeemed stack w := fun c hc =>
    absurd (hlog ▸ hc) not_bereft_nil
  cases op with
  | create parent =>
    rw [Operation.performIn_create]
    rcases hc : w.create shell parent with ⟨e | s, w'⟩
    · exact hnil.create_error hc
    · exact .of_create hlog hc
  | createChild p =>
    rw [Operation.performIn_createChild]
    rcases hc : w.createChild shell p with ⟨e | s, w'⟩
    · exact hnil.createChild_error hc
    · obtain ⟨-, -, w₁, -, -, hnew, -, -, rfl⟩ := World.createChild_ok hc
      exact (Redeemed.of_create hlog hnew).setRegistry fun id hid => by
        simp [Registry.find?_change, hid]
  | teardown id =>
    have hstart : teardownStart w.registry w.log = some w.registry := by
      rw [hlog]
      rfl
    exact hnil.teardown hstart
  | openTop =>
    rw [Operation.performIn_openTop]
    unfold World.openTop World.openBy
    rcases hc : w.create shell none with ⟨e | s, w'⟩
    · exact hnil.create_error hc
    · exact (hnil.create hc).drive
  | spawnChild p =>
    rw [Operation.performIn_spawnChild]
    unfold World.spawnChild World.spawnBy
    rcases hc : w.createChild shell p with ⟨e | c, w'⟩
    · exact hnil.createChild_error hc
    · exact (hnil.createChild hc).drive

/-- When an operation is over a child is gone if a teardown has removed the session to which it was
linked when that teardown began, or if the run has created it itself; unless another party has
registered it since. -/
theorem Operation.no_orphan (shell : Shell) (op : Operation) (script : List Entry)
    (onWrite : Nat → List Outside) (m : Manager) {later earlier : List Event} {s : Session}
    {r : Registry} {c : SessionId}
    (hremoved : (op.perform shell script onWrite m).2.log = later ++ .removed s r :: earlier)
    (hchild :
      (∃ r₀, teardownStart r earlier = some r₀ ∧ r₀.child? s.id = some c ∧
        ∀ e ∈ later ++ earlier.takeWhile (! ·.isRead), e.registers c = false) ∨
      (op.isRun ∧ s.child = some c ∧
        (∃ t, .created t ∈ (op.perform shell script onWrite m).2.log ∧ t.id = c) ∧
        ∀ e ∈ (op.perform shell script onWrite m).2.log, e.registers c = false)) :
    (op.perform shell script onWrite m).2.registry.find? c = none := by
  rcases hchild with ⟨r₀, hstart, hchild, hothers⟩ | ⟨hrun, -, ⟨t, ht, rfl⟩, hothers⟩
  · have hbereft : Bereft c (op.perform shell script onWrite m).2.log :=
      ⟨later, s, r, earlier, r₀, hremoved, hstart, hchild, hothers⟩
    exact Redeemed.operation rfl shell op c hbereft List.not_mem_nil
  · exact (Accounted.start m script onWrite).operation shell hrun t ht hothers List.not_mem_nil

/-- While a child reads, another party gives it a child, which goes with it at the end of input. -/
theorem no_orphan_of_linked_while_reading :
    let other : Session := ⟨⟨0, 9⟩, ⟨0⟩, "$ ", some ⟨0, 2⟩, none⟩
    let give : List Outside := [.request (.register other),
      .request (.update ⟨0, 2⟩ { child := some (some ⟨0, 9⟩) })]
    let w := (Operation.openTop.perform .bare [⟨[], .line "shell"⟩, ⟨give, .endOfInput⟩]
      (fun _ => []) (.start ⟨0⟩)).2
    w.registry.find? ⟨0, 9⟩ = none := by
  intro other give w
  let parent : Session := ⟨⟨0, 1⟩, ⟨0⟩, defaultPrompt, none, some ⟨0, 2⟩⟩
  let child (k : Option SessionId) : Session := ⟨⟨0, 2⟩, ⟨0⟩, defaultPrompt, some ⟨0, 1⟩, k⟩
  let r : Registry := Keyed.insert (Keyed.insert ∅ parent) (child none)
  let r₀ : Registry :=
    Keyed.insert (Keyed.insert (Keyed.insert ∅ parent) (child (some ⟨0, 9⟩))) other
  have hremoved : w.log = w.log.take 11 ++ .removed (child none) r :: w.log.drop 12 := by
    decide +kernel
  have hstart : teardownStart r (w.log.drop 12) = some r₀ := by decide +kernel
  have hothers : ∀ e ∈ w.log.take 11 ++ (w.log.drop 12).takeWhile (! ·.isRead),
      e.registers ⟨0, 9⟩ = false := by decide +kernel
  exact Operation.no_orphan .bare .openTop _ _ _ hremoved
    (.inl ⟨r₀, hstart, by decide +kernel, hothers⟩)

/-- Whether with every session that was removed the child went that its record named, if that was
registered and no other party has registered it since. -/
def World.NoOrphan (w : World) : Prop :=
  ∀ later s r earlier c, w.log = later ++ .removed s r :: earlier → s.child = some c →
    r.find? c ≠ none → (∀ e ∈ later, e.registers c = false) → w.registry.find? c = none

/-- A child stays if it is linked to a session whose input is given up, to a parent while the death
notice of its earlier child is written, or to a new session that is discarded. -/
theorem orphan_left :
    let other : Session := ⟨⟨0, 9⟩, ⟨0⟩, "$ ", none, none⟩
    let parent (k : Option SessionId) : Session := ⟨⟨0, 1⟩, ⟨0⟩, defaultPrompt, none, k⟩
    let child (k : Option SessionId) : Session := ⟨⟨0, 2⟩, ⟨0⟩, defaultPrompt, some ⟨0, 1⟩, k⟩
    let alone : Registry := Keyed.insert ∅ other
    let give (p : SessionId) : Outside := .request (.update p { child := some (some ⟨0, 9⟩) })
    let givenUp := (Operation.openTop.perform .bare [⟨[give ⟨0, 1⟩], .aborted⟩] (fun _ => [])
      ⟨alone, ⟨0⟩, ⟨0⟩⟩).2
    let tornDown := ((Operation.teardown ⟨0, 1⟩).perform .bare []
      (fun n => if n = 1 then [give ⟨0, 1⟩] else [])
      ⟨(alone.insert (parent (some ⟨0, 2⟩))).insert (child none), ⟨2⟩, ⟨0⟩⟩).2
    let discarded := ((Operation.spawnChild ⟨0, 1⟩).perform .bare []
      (fun n => if n = 1 then [give ⟨0, 2⟩, .request (.deregister ⟨0, 1⟩)] else [])
      ⟨alone.insert (parent none), ⟨1⟩, ⟨0⟩⟩).2
    ¬ givenUp.NoOrphan ∧ ¬ tornDown.NoOrphan ∧ ¬ discarded.NoOrphan := by
  intro other parent child alone give givenUp tornDown discarded
  have hother {s : Session} (hs : s.id ≠ ⟨0, 9⟩) : Keyed.find? (alone.insert s) ⟨0, 9⟩ ≠ none := by
    rw [Keyed.find?_insert, if_neg hs]
    decide
  have hparent := hother (s := parent (some ⟨0, 9⟩)) (by decide)
  have hchild := hother (s := child (some ⟨0, 9⟩)) (by decide)
  have hgivenUp : givenUp.log = [] ++ .removed (parent (some ⟨0, 9⟩))
      (alone.insert (parent (some ⟨0, 9⟩))) :: givenUp.log.drop 1 := by decide +kernel
  have htornDown : tornDown.log = tornDown.log.take 4 ++ .removed (parent (some ⟨0, 9⟩))
      (alone.insert (parent (some ⟨0, 9⟩))) :: tornDown.log.drop 5 := by decide +kernel
  have hdiscarded : discarded.log = [] ++ .removed (child (some ⟨0, 9⟩))
      (alone.insert (child (some ⟨0, 9⟩))) :: discarded.log.drop 1 := by decide +kernel
  have hothers : ∀ e ∈ tornDown.log.take 4, e.registers ⟨0, 9⟩ = false := by decide +kernel
  have hleft : givenUp.registry.find? ⟨0, 9⟩ ≠ none ∧ tornDown.registry.find? ⟨0, 9⟩ ≠ none ∧
      discarded.registry.find? ⟨0, 9⟩ ≠ none := by decide +kernel
  exact ⟨fun h => hleft.1 (h _ _ _ _ _ hgivenUp rfl hparent (by simp)),
    fun h => hleft.2.1 (h _ _ _ _ _ htornDown rfl hparent hothers),
    fun h => hleft.2.2 (h _ _ _ _ _ hdiscarded rfl hchild (by simp))⟩

end SessionShell
