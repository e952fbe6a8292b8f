import SessionShell.Proofs.Run.Chronicle
import SessionShell.Proofs.Run.Quiet

namespace SessionShell

namespace SessionId

theorem compare_eq_lt {a b : SessionId} :
    compare a b = .lt ↔ a.stamp < b.stamp ∨ a.stamp = b.stamp ∧ a.seq < b.seq := by
  show (compareOn stamp a b).then (compareOn seq a b) = .lt ↔ _
  rw [Ordering.then_eq_lt]
  simp [compareOn, Std.compare_eq_lt]

theorem compare_eq_lt_of_seq {a b : SessionId} (h : a.seq < b.seq) :
    compare a b = .lt ↔ a.stamp ≤ b.stamp := by
  rw [compare_eq_lt]
  grind

end SessionId

theorem Instant.toNat_stamp (t : Instant) : t.stamp.toNat = t.millis.toInt.toNat := by
  have hlt := Int64.toInt_lt t.millis
  apply Nat.mod_eq_of_lt
  omega

theorem Instant.stamp_le {t t' : Instant} :
    t.stamp ≤ t'.stamp ↔ t.millis.toInt.toNat ≤ t'.millis.toInt.toNat := by
  rw [UInt64.le_iff_toNat_le, toNat_stamp, toNat_stamp]

theorem Issued.seq_ascending {n : Nat} {ss : List Session} (h : Issued 0 n ss)
    (hn : n < UInt32.size) : ss.Pairwise fun s t => s.id.seq < t.id.seq := by
  induction h with
  | begun => exact .nil
  | draw hlt _ ih => exact ih (by omega)
  | @issue n n' ss s hlt hs h ih =>
    rw [List.pairwise_append]
    refine ⟨ih (by omega), by simp, ?_⟩
    intro t ht s' hs'
    obtain ⟨k, -, hk, ht⟩ := h.number ht
    rw [List.mem_singleton.1 hs', ht, hs, UInt32.lt_iff_toNat_lt]
    show k % UInt32.size < n' % UInt32.size
    rw [Nat.mod_eq_of_lt hn, Nat.mod_eq_of_lt (by omega)]
    omega

/-- A world in which no other party interferes and all who are registered, now and at each read so
far, had been issued by then, after the sessions `past` that were issued before. -/
structure Listed (past : List Session) (w : World) : Prop where
  only : w.Only (·.isQuiet)
  known : ∀ id, w.registry.find? id ≠ none → id ∈ (past ++ births w.events).map Session.id
  shown : ∀ own text r earlier, (.prompt own text r :: earlier) <:+ w.log →
    ∀ id, r.find? id ≠ none → id ∈ (past ++ births earlier.reverse).map Session.id

namespace Listed

variable {past : List Session} {w : World}

theorem record (h : Listed past w) {e : Event} (hborn : e.born? = none)
    (he : ∀ own text r, e = .prompt own text r → r = w.registry) : Listed past (w.record e) := by
  refine ⟨h.only, fun id hid => ?_, fun own text r earlier hsuffix => ?_⟩
  · rw [births_record w hborn]
    exact h.known id hid
  · rcases List.suffix_cons_iff.1 hsuffix with heq | hsuffix
    · obtain ⟨rfl, rfl⟩ := List.cons.inj heq
      rw [he own text r rfl]
      exact h.known
    · exact h.shown own text r earlier hsuffix

theorem outside (h : Listed past w) {o : Outside} (ho : o.isQuiet) : Listed past (w.outside o) := by
  cases o with
  | clock t => exact ⟨h.only, h.known, h.shown⟩
  | request q =>
    show Listed past ((w.setRegistry (q.answer w.registry).2).record _)
    rw [Request.answer_of_isQuery ho]
    exact record ⟨h.only, h.known, h.shown⟩ rfl nofun

theorem enter (h : Listed past w) (s : Session) (ids : IdSource) : Listed past (w.enter s ids) := by
  refine ⟨h.only, fun id hid => ?_, fun own text r earlier hsuffix => ?_⟩
  · rw [births_enter, ← List.append_assoc, List.map_append, List.mem_append]
    by_cases hs : s.id = id
    · right
      simp [hs]
    · left
      apply h.known
      intro hnone
      apply hid
      show (w.registry.insert s).find? id = none
      rw [Keyed.find?_insert, if_neg hs, hnone]
  · rcases List.suffix_cons_iff.1 hsuffix with heq | hsuffix
    · cases (List.cons.inj heq).1
    · exact h.shown own text r earlier hsuffix

theorem turnover (shell : Shell) (past : List Session) :
    TurnoverInvariant shell (Listed past) where
  toTerminalInvariant := by
    refine .of_allowed (fun _ h => h.only) (fun w e he h => ?_) (fun _ _ ho h => h.outside ho)
      (fun _ h => ⟨h.only, h.known, h.shown⟩) fun w e rest hs h => ?_
    · refine h.record (Event.born?_of_isTerminal he.isTerminal) ?_
      rintro own text r rfl
      exact he
    · exact ⟨⟨fun e he => h.only.1 e (by simp [hs, he]), h.only.2⟩, h.known, h.shown⟩
  setRegistry hr h := ⟨h.only, fun id hid => h.known id (mt (hr id) hid), h.shown⟩
  removed s r h := h.record rfl nofun
  draw _ h := ⟨h.only, h.known, h.shown⟩
  enter _ _ h := h.enter _ _

theorem start {m : Manager} {script : List Entry} {onWrite : Nat → List Outside}
    (honly : (World.start m script onWrite).Only (·.isQuiet))
    (hm : ∀ id, m.registry.find? id ≠ none → id ∈ past.map Session.id) :
    Listed past (World.start m script onWrite) := by
  refine ⟨honly, fun id hid => ?_, fun own text r earlier hsuffix => ?_⟩
  · show id ∈ (past ++ []).map Session.id
    rw [List.append_nil]
    exact hm id hid
  · cases List.suffix_nil.1 hsuffix

end Listed

theorem Manager.Chronicle.known {now : Instant} {events : List Event} {m : Manager}
    (h : (Manager.start now).Chronicle (·.isQuiet) events m) :
    ∀ id, m.registry.find? id ≠ none → id ∈ (births events).map Session.id := by
  have honly (m : Manager) : (World.start m [] fun _ => []).Only (·.isQuiet) :=
    ⟨by simp [World.start], by simp [World.start]⟩
  induction h with
  | begun => exact fun id hid => absurd rfl hid
  | meanwhile ho _ ih =>
    rw [births_append]
    exact ((Listed.start (honly _) ih).outside ho).known
  | perform shell op hquiet _ ih =>
    rw [births_append]
    exact ((Listed.turnover shell _).operation op (Listed.start hquiet ih)).known

/-- The sessions issued so far and the registry, between the operations and at each read of a
manager that begins with an empty registry and draws at most `n` identifiers, where no other party
interferes. -/
inductive Registry.Seen (n : Nat) : List Session → Registry → Prop
  | between {now : Instant} {events : List Event} {m : Manager} (hn : m.ids.drawn ≤ n) :
    (Manager.start now).Chronicle (·.isQuiet) events m → Seen n (births events) m.registry
  | reading {now : Instant} {events earlier : List Event} {m : Manager} {shell : Shell}
    {op : Operation} {script : List Entry} {onWrite : Nat → List Outside} {own : SessionId}
    {text : String} {r : Registry} (honly : (World.start m script onWrite).Only (·.isQuiet))
    (hn : (op.perform shell script onWrite m).2.ids.drawn ≤ n)
    (hread : (.prompt own text r :: earlier) <:+ (op.perform shell script onWrite m).2.log) :
    (Manager.start now).Chronicle (·.isQuiet) events m →
    Seen n (births (events ++ earlier.reverse)) r

namespace Registry.Seen

variable {n : Nat} {issued : List Session} {r : Registry}

theorem known (h : r.Seen n issued) :
    ∀ id, r.find? id ≠ none → id ∈ issued.map Session.id := by
  cases h with
  | between _ h => exact h.known
  | @reading _ events _ _ shell op _ _ own text _ honly _ hread h =>
    rw [births_append]
    have hrun := (Listed.turnover shell (births events)).operation op (Listed.start honly h.known)
    exact hrun.shown own text r _ hread

theorem issued_append (h : r.Seen n issued) :
    ∃ k later, k ≤ n ∧ Issued 0 k (issued ++ later) := by
  cases h with
  | between hn h => exact ⟨_, [], hn, (List.append_nil _).symm ▸ h.issued⟩
  | @reading _ events earlier _ shell op _ _ own text r honly hn hread h =>
    obtain ⟨rest, hrest⟩ := hread
    refine ⟨_, births (rest ++ [Event.prompt own text r]).reverse, hn, ?_⟩
    have hrun : Issued 0 _ _ := (h.perform shell op honly).issued
    rw [World.events, ← hrest] at hrun
    simpa using hrun

end Registry.Seen

namespace Registry

variable {n : Nat} {issued : List Session} {r : Registry}

/-- Those of the issued sessions that are registered, in the order of their creation. -/
def remaining (r : Registry) (issued : List Session) : List Session :=
  issued.filter fun s => r.contains s.id

theorem mem_keys {id : SessionId} : id ∈ r.keys ↔ r.contains id := by
  simp [Keyed.keys, Keyed.contains]

theorem nodup_keys (r : Registry) : r.keys.Nodup :=
  List.pairwise_map.2 (r.ascending.imp Keyed.key_ne_of_lt)

theorem ascending_keys (r : Registry) : r.keys.Pairwise fun a b => compare a b = .lt :=
  List.pairwise_map.2 r.ascending

/-- The registered sessions are listed under the identifiers with which they were issued. -/
theorem perm_keys (hnodup : (issued.map Session.id).Nodup)
    (hknown : ∀ id, r.find? id ≠ none → id ∈ issued.map Session.id) :
    r.keys.Perm ((r.remaining issued).map Session.id) := by
  have hleft : ((r.remaining issued).map Session.id).Nodup :=
    hnodup.sublist (List.filter_sublist.map Session.id)
  rw [List.perm_ext_iff_of_nodup r.nodup_keys hleft]
  intro id
  rw [mem_keys]
  constructor
  · intro hid
    have hfound : r.find? id ≠ none := by
      rwa [Keyed.contains_eq, Option.isSome_iff_ne_none] at hid
    obtain ⟨s, hs, rfl⟩ := List.mem_map.1 (hknown id hfound)
    exact List.mem_map_of_mem (List.mem_filter.2 ⟨hs, hid⟩)
  · intro hid
    obtain ⟨s, hs, rfl⟩ := List.mem_map.1 hid
    exact (List.mem_filter.1 hs).2

theorem keys_eq_iff (h : r.keys.Perm ((r.remaining issued).map Session.id)) :
    r.keys = (r.remaining issued).map Session.id ↔
      (r.remaining issued).Pairwise fun s t => compare s.id t.id = .lt := by
  constructor
  · intro heq
    have hascending := r.ascending_keys
    rw [heq] at hascending
    exact List.pairwise_map.1 hascending
  · intro hascending
    refine h.eq_of_pairwise ?_ r.ascending_keys (List.pairwise_map.2 hascending)
    intro a b _ _ hab hba
    exact absurd (Std.OrientedCmp.gt_of_lt hab) (by rw [hba]; decide)

/-- The sessions left are in the order of their identifiers if they are in that of their times of
creation. -/
theorem pairwise_remaining_iff {k : Nat} {later : List Session} (h : Issued 0 k (issued ++ later))
    (hk : k < UInt32.size) :
    (r.remaining issued).Pairwise (fun s t => compare s.id t.id = .lt) ↔
      (r.remaining issued).Pairwise fun s t =>
        s.started.millis.toInt.toNat ≤ t.started.millis.toInt.toNat := by
  have hleft : (r.remaining issued).Sublist (issued ++ later) :=
    List.filter_sublist.trans (List.sublist_append_left ..)
  have hseq := (h.seq_ascending hk).sublist hleft
  have hstamp (s : Session) (hs : s ∈ r.remaining issued) : s.id.stamp = s.started.stamp := by
    obtain ⟨_, -, -, hid⟩ := h.number (hleft.subset hs)
    rw [hid]
  -- as the numbers ascend in the order of creation, the identifiers do if the stamps do
  have hiff : ∀ s ∈ r.remaining issued, ∀ t ∈ r.remaining issued, s.id.seq < t.id.seq →
      (compare s.id t.id = .lt ↔
        s.started.millis.toInt.toNat ≤ t.started.millis.toInt.toNat) := by
    intro s hs t ht hst
    rw [SessionId.compare_eq_lt_of_seq hst, hstamp s hs, hstamp t ht, Instant.stamp_le]
  constructor
  · intro hcompare
    refine (hseq.and hcompare).imp_of_mem ?_
    intro s t hs ht hst
    exact (hiff s hs t ht hst.1).1 hst.2
  · intro htimes
    refine (hseq.and htimes).imp_of_mem ?_
    intro s t hs ht hst
    exact (hiff s hs t ht hst.1).2 hst.2

/-- The identifiers listed ascend and are those of the registered sessions, each once. They are in
the order of creation if and only if the clock has not gone back between the sessions left, where
times before 1970 count as the start of 1970. -/
theorem list_of_seen (h : r.Seen n issued) (hn : n < UInt32.size) :
    ∃ ids, (Request.list.answer r).1 = .ids ids ∧
      ids.Pairwise (fun a b => compare a b = .lt) ∧
      (∀ id, ids.count id = if r.contains id then 1 else 0) ∧
      (Request.count.answer r).1 = .count ids.length ∧
      (ids = (r.remaining issued).map Session.id ↔
        (r.remaining issued).Pairwise fun s t =>
          s.started.millis.toInt.toNat ≤ t.started.millis.toInt.toNat) := by
  obtain ⟨k, later, hk, hissued⟩ := h.issued_append
  have hnodup := hissued.nodup (by omega)
  rw [List.map_append] at hnodup
  have hperm := perm_keys (List.nodup_append.1 hnodup).1 h.known
  refine ⟨r.keys, rfl, r.ascending_keys, fun id => ?_, ?_, ?_⟩
  · simp only [← mem_keys, r.nodup_keys.count]
  · simp [Request.answer, Keyed.keys, Keyed.size]
  · rw [keys_eq_iff hperm]
    exact pairwise_remaining_iff hissued (by omega)

/-- The clock goes back before 1970 after the first session, which is therefore listed last. When it
is gone the others are listed in the order of their creation, while one of them reads. -/
theorem list_after_setback :
    let m : Manager := .start ⟨5⟩
    let first := (Operation.create none).perform .bare [] (fun _ => [.clock ⟨-1⟩]) m
    let second := (Operation.create none).perform .bare [] (fun _ => [.clock ⟨-7⟩])
      first.2.toManager
    let created := births (first.2.events ++ second.2.events)
    second.2.registry.Seen 2 created ∧
      (Request.list.answer second.2.registry).1 = .ids [⟨0, 2⟩, ⟨5, 1⟩] ∧
      [⟨0, 2⟩, ⟨5, 1⟩] ≠ (second.2.registry.remaining created).map Session.id ∧
      ∃ r issued, r.Seen 3 issued ∧ issued.map Session.id = [⟨5, 1⟩, ⟨0, 2⟩, ⟨0, 3⟩] ∧
        (Request.list.answer r).1 = .ids [⟨0, 2⟩, ⟨0, 3⟩] ∧
        [⟨0, 2⟩, ⟨0, 3⟩] = (r.remaining issued).map Session.id := by
  intro m first second created
  have honly (m : Manager) (os : List Outside) (hos : ∀ o ∈ os, o.isQuiet) :
      (World.start m [] fun _ => os).Only (·.isQuiet) :=
    ⟨by simp [World.start], fun _ => hos⟩
  have hfirst : m.Chronicle (·.isQuiet) first.2.events first.2.toManager :=
    .perform .bare (.create none) (honly _ _ (by decide)) .begun
  have hsecond := hfirst.perform .bare (.create none) (honly _ [.clock ⟨-7⟩] (by decide))
  have hremoved := hsecond.perform .bare (.teardown ⟨5, 1⟩) (honly _ [] (by decide))
  -- the read comes after the birth notice of four lines
  let removed := (Operation.teardown ⟨5, 1⟩).perform .bare [] (fun _ => []) second.2.toManager
  let run := Operation.openTop.perform .bare [] (fun _ => []) removed.2.toManager
  let a : Session := ⟨⟨0, 2⟩, ⟨-1⟩, defaultPrompt, none, none⟩
  let b : Session := ⟨⟨0, 3⟩, ⟨-7⟩, defaultPrompt, none, none⟩
  let r : Registry := Keyed.insert (Keyed.insert ∅ a) b
  have hread : (.prompt ⟨0, 3⟩ defaultPrompt r :: run.2.log.drop 7) <:+ run.2.log :=
    ⟨run.2.log.take 6, by decide +kernel⟩
  have hboth : second.2.registry.Seen 2 created := .between (by decide +kernel) hsecond
  have hkeys : second.2.registry.keys = [⟨0, 2⟩, ⟨5, 1⟩] := by decide +kernel
  have hleft := Registry.Seen.reading (n := 3) (honly _ [] (by decide)) (by decide +kernel) hread
    hremoved
  refine ⟨hboth, by rw [← hkeys]; rfl, ?_, r, _, hleft, by decide +kernel, by decide +kernel, ?_⟩
  · obtain ⟨_, hlist, -, -, -, hiff⟩ := list_of_seen hboth (by decide)
    cases hlist
    rw [← hkeys]
    exact mt hiff.1 (by decide +kernel)
  · obtain ⟨_, hlist, -, -, -, hiff⟩ := list_of_seen hleft (by decide)
    cases hlist
    exact hiff.2 (by decide +kernel)

end Registry
end SessionShell
