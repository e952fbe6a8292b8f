import Mathlib.Data.Finset.Card
import Mathlib.Data.List.Chain
import SessionShell.Proofs.Links

namespace SessionShell.Registry

variable {r : Registry} {s t : Session} {id k : SessionId} {n : Nat} {rank : SessionId → Nat}

/-- The number of sessions that are ranked no lower than `id`. -/
def above (r : Registry) (rank : SessionId → Nat) (id : SessionId) : Nat :=
  (r.toList.filter fun s => rank id ≤ rank s.id).length

theorem above_le_size : r.above rank id ≤ r.size := List.length_filter_le ..

theorem above_pos (rank : SessionId → Nat) (h : r.find? id = some s) : 0 < r.above rank id := by
  have hmem : s ∈ r.toList.filter fun s => rank id ≤ rank s.id :=
    List.mem_filter.2 ⟨Keyed.mem_of_find? h, by simp [Keyed.key_of_find? h]⟩
  exact List.length_pos_of_mem hmem

theorem missing_of_above (h : r.above rank id ≤ 0) : r.find? id = none := by
  cases hid : r.find? id with
  | none => rfl
  | some s =>
    have hpos := above_pos rank hid
    omega

theorem above_lt (h : r.find? id = some s) (hlt : rank id < rank k) :
    r.above rank k < r.above rank id := by
  -- what is above `k` is part of what is above `id`, and `s` itself is in the rest
  have hsub : (r.toList.filter fun s => rank k ≤ rank s.id) =
      (r.toList.filter fun s => rank id ≤ rank s.id).filter fun s => rank k ≤ rank s.id := by
    rw [List.filter_filter]
    apply List.filter_congr
    intro t _
    by_cases ht : rank k ≤ rank t.id
    · have : rank id ≤ rank t.id := by omega
      simp [ht, this]
    · simp [ht]
  have hmem : s ∈ r.toList.filter fun s => rank id ≤ rank s.id :=
    List.mem_filter.2 ⟨Keyed.mem_of_find? h, by simp [Keyed.key_of_find? h]⟩
  rw [above, hsub]
  apply List.length_filter_lt_length_iff_exists.2
  refine ⟨s, hmem, ?_⟩
  rw [Keyed.key_of_find? h]
  simpa using hlt

/-- A descent stops at a missing session or at one that has no child, or else goes on. -/
theorem descent_cases (r : Registry) (n : Nat) (id : SessionId) :
    (r.find? id = none ∧ r.descent (n + 1) id = []) ∨
    (∃ s, r.find? id = some s ∧ s.child = none ∧ r.descent (n + 1) id = [s]) ∨
    ∃ s c, r.find? id = some s ∧ s.child = some c ∧ r.descent (n + 1) id = s :: r.descent n c := by
  cases hid : r.find? id with
  | none => exact .inl ⟨rfl, by simp [descent, hid]⟩
  | some s =>
    cases hc : s.child with
    | none => exact .inr (.inl ⟨s, rfl, hc, by simp [descent, hid, hc]⟩)
    | some c => exact .inr (.inr ⟨s, c, rfl, hc, by simp [descent, hid, hc]⟩)

theorem find?_of_mem_descent (h : t ∈ r.descent n id) : r.find? t.id = some t := by
  induction n generalizing id with
  | zero => cases h
  | succ n ih =>
    rcases r.descent_cases n id with ⟨-, e⟩ | ⟨s, hs, -, e⟩ | ⟨s, c, hs, -, e⟩ <;> rw [e] at h
    · cases h
    · rw [List.mem_singleton.1 h, Keyed.key_of_find? hs, hs]
    · rcases List.mem_cons.1 h with rfl | h
      · rw [Keyed.key_of_find? hs, hs]
      · exact ih h

theorem mem_descent_self (h : r.find? id = some s) : s ∈ r.descent (n + 1) id := by
  simp [descent, h]

theorem linked_of_mem_descent (h : t ∈ r.descent n id) :
    t.id = id ∨ ∃ p ∈ r.descent n id, p.child = some t.id := by
  induction n generalizing id with
  | zero => cases h
  | succ n ih =>
    rcases r.descent_cases n id with ⟨-, e⟩ | ⟨s, hs, -, e⟩ | ⟨s, c, hs, hc, e⟩ <;> rw [e] at h ⊢
    · cases h
    · rw [List.mem_singleton.1 h]
      exact .inl (Keyed.key_of_find? hs)
    · rcases List.mem_cons.1 h with rfl | h
      · exact .inl (Keyed.key_of_find? hs)
      · rcases ih h with rfl | ⟨p, hp, hpt⟩
        · exact .inr ⟨s, List.mem_cons_self .., hc⟩
        · exact .inr ⟨p, List.mem_cons_of_mem _ hp, hpt⟩

theorem id_of_head_descent (h : t ∈ (r.descent n id).head?) : t.id = id := by
  cases n with
  | zero => cases h
  | succ n =>
    rcases r.descent_cases n id with ⟨-, e⟩ | ⟨s, hs, -, e⟩ | ⟨s, c, hs, -, e⟩ <;> rw [e] at h <;>
      cases h <;> exact Keyed.key_of_find? hs

theorem isChain_descent (hm : r.Mutual) (n : Nat) (id : SessionId) :
    (r.descent n id).IsChain fun p c => p.child = some c.id ∧ c.parent = some p.id := by
  induction n generalizing id with
  | zero => exact .nil
  | succ n ih =>
    rcases r.descent_cases n id with ⟨-, e⟩ | ⟨s, hs, -, e⟩ | ⟨s, c, hs, hc, e⟩ <;> rw [e]
    · exact .nil
    · exact .singleton s
    · refine List.isChain_cons.2 ⟨fun t ht => ?_, ih c⟩
      have hid : t.id = c := id_of_head_descent ht
      have hfound : r.find? t.id = some t := find?_of_mem_descent (List.mem_of_mem_head? ht)
      have hparent : r.parent? t.id = some id := by
        apply hm
        rw [child?_of_find? hs, hc, hid]
      rw [parent?_of_find? hfound] at hparent
      rw [hc, hid, hparent, Keyed.key_of_find? hs]
      exact ⟨rfl, rfl⟩

namespace RankedBy

theorem lt (h : r.RankedBy rank) (hs : r.find? id = some s) (hk : s.child = some k) :
    rank id < rank k := by
  apply h
  rw [child?_of_find? hs, hk]

theorem le_of_mem_descent (h : r.RankedBy rank) (ht : t ∈ r.descent n id) :
    rank id ≤ rank t.id := by
  induction n generalizing id with
  | zero => cases ht
  | succ n ih =>
    rcases r.descent_cases n id with ⟨-, e⟩ | ⟨s, hs, -, e⟩ | ⟨s, c, hs, hc, e⟩ <;> rw [e] at ht
    · cases ht
    · rw [List.mem_singleton.1 ht, Keyed.key_of_find? hs]
    · rcases List.mem_cons.1 ht with rfl | ht
      · exact Nat.le_of_eq (by rw [Keyed.key_of_find? hs])
      · have hlt := h.lt hs hc
        have hle := ih ht
        omega

theorem nodup_descent (h : r.RankedBy rank) (n : Nat) (id : SessionId) :
    (r.descent n id).Nodup := by
  induction n generalizing id with
  | zero => exact List.nodup_nil
  | succ n ih =>
    rcases r.descent_cases n id with ⟨-, e⟩ | ⟨s, hs, -, e⟩ | ⟨s, c, hs, hc, e⟩ <;> rw [e]
    · exact List.nodup_nil
    · exact List.nodup_singleton s
    · refine List.nodup_cons.2 ⟨fun hmem => ?_, ih c⟩
      have hlt := h.lt hs hc
      have hle := h.le_of_mem_descent hmem
      rw [Keyed.key_of_find? hs] at hle
      omega

theorem child_of_last_descent (h : r.RankedBy rank) (hm : r.Mutual) (hn : r.above rank id ≤ n)
    (hs : s ∈ (r.descent n id).getLast?) : s.child = none := by
  induction n generalizing id with
  | zero => cases hs
  | succ n ih =>
    rcases r.descent_cases n id with ⟨-, e⟩ | ⟨p, hp, hc, e⟩ | ⟨p, c, hp, hc, e⟩ <;> rw [e] at hs
    · cases hs
    · cases hs
      exact hc
    · have hroom : r.above rank c < r.above rank id := above_lt hp (h.lt hp hc)
      -- the child is registered, so that the rest is not empty
      obtain ⟨t, ht, -⟩ := parent?_eq_some.1 (hm id c (by rw [child?_of_find? hp, hc]))
      have hpos := above_pos rank ht
      obtain ⟨m, rfl⟩ : ∃ m, n = m + 1 := ⟨n - 1, by omega⟩
      have hne : r.descent (m + 1) c ≠ [] := List.ne_nil_of_mem (mem_descent_self ht)
      rw [List.getLast?_cons_of_ne_nil hne] at hs
      exact ih (by omega) hs

end RankedBy

theorem mem_lineage_self (h : r.find? id = some s) : s ∈ r.lineage id := by
  obtain ⟨deeper, hl⟩ := lineage_of_find? h
  rw [hl]
  exact List.mem_cons_self ..

/-- The session that a child link leads to. -/
def next (r : Registry) (o : Option Session) : Option Session := (o.bind Session.child).bind r.find?

theorem iterate_next_none (r : Registry) (i : Nat) : r.next^[i] none = none :=
  Function.iterate_fixed rfl i

theorem mem_of_iterate_next (h : r.next^[n] (r.find? id) = some s) : s ∈ r.toList := by
  cases n with
  | zero => exact Keyed.mem_of_find? h
  | succ n =>
    rw [Function.iterate_succ_apply'] at h
    obtain ⟨c, -, hc⟩ := Option.bind_eq_some_iff.1 h
    exact Keyed.mem_of_find? hc

theorem mem_descent_iff : t ∈ r.descent n id ↔ ∃ i < n, r.next^[i] (r.find? id) = some t := by
  induction n generalizing id with
  | zero => simp [descent]
  | succ n ih =>
    have hsplit : (∃ i < n + 1, r.next^[i] (r.find? id) = some t) ↔
        r.find? id = some t ∨ ∃ i < n, r.next^[i] (r.next (r.find? id)) = some t := by
      constructor
      · rintro ⟨_ | i, hi, h⟩
        · exact .inl h
        · exact .inr ⟨i, by omega, h⟩
      · rintro (h | ⟨i, hi, h⟩)
        · exact ⟨0, by omega, h⟩
        · exact ⟨i + 1, by omega, h⟩
    rw [hsplit]
    rcases r.descent_cases n id with ⟨hid, e⟩ | ⟨s, hs, hc, e⟩ | ⟨s, c, hs, hc, e⟩ <;> rw [e]
    · simp [hid, next, iterate_next_none]
    · simp [hs, next, hc, iterate_next_none, eq_comm]
    · rw [List.mem_cons, ih]
      simp [hs, next, hc, eq_comm]

/-- Where links have led on for more steps than there are sessions, some session has been met twice.
-/
theorem exists_next_eq (h : r.next^[n] (r.find? id) = some t) (hn : r.size ≤ n) :
    ∃ a b, a < b ∧ b ≤ n ∧ r.next^[a] (r.find? id) = r.next^[b] (r.find? id) := by
  have hmem : ∀ j ∈ Finset.range (r.size + 1),
      r.next^[j] (r.find? id) ∈ (r.toList.map some).toFinset := by
    intro j hj
    have hle : j < r.size + 1 := Finset.mem_range.1 hj
    cases hu : r.next^[j] (r.find? id) with
    | none =>
      -- where links end nothing follows
      obtain ⟨d, rfl⟩ := Nat.exists_eq_add_of_le' (show j ≤ n by omega)
      rw [Function.iterate_add_apply, hu, iterate_next_none] at h
      cases h
    | some u => exact List.mem_toFinset.2 (List.mem_map_of_mem (mem_of_iterate_next hu))
  have hcard : (r.toList.map some).toFinset.card < (Finset.range (r.size + 1)).card := by
    have hle := List.toFinset_card_le (r.toList.map some)
    rw [List.length_map] at hle
    rw [Finset.card_range]
    exact Nat.lt_succ_of_le hle
  obtain ⟨a, ha, b, hb, hne, hab⟩ := Finset.exists_ne_map_eq_of_card_lt_of_maps_to hcard hmem
  rw [Finset.mem_range] at ha hb
  rcases Nat.lt_or_gt_of_ne hne with hlt | hlt
  · exact ⟨a, b, hlt, by omega, hab⟩
  · exact ⟨b, a, hlt, by omega, hab.symm⟩

theorem mem_lineage_of_next (h : r.next^[n] (r.find? id) = some t) : t ∈ r.lineage id := by
  induction n using Nat.strong_induction_on with
  | _ n ih =>
    rcases Nat.lt_or_ge n r.size with hlt | hge
    · exact mem_descent_iff.2 ⟨n, hlt, h⟩
    · -- leaves out the steps between two visits to the same session
      obtain ⟨a, b, hab, hbn, heq⟩ := exists_next_eq h hge
      obtain ⟨d, rfl⟩ := Nat.exists_eq_add_of_le' hbn
      refine ih (d + a) (by omega) ?_
      rw [Function.iterate_add_apply, heq, ← Function.iterate_add_apply, h]

theorem mem_lineage_of_child (hs : s ∈ r.lineage id) (hk : s.child = some k)
    (ht : r.find? k = some t) : t ∈ r.lineage id := by
  obtain ⟨i, -, hi⟩ := mem_descent_iff.1 hs
  have hnext : r.next^[i + 1] (r.find? id) = some t := by
    rw [Function.iterate_succ_apply', hi]
    simp [next, hk, ht]
  exact mem_lineage_of_next hnext

/-- Withdraws sessions, each after those behind it in the list, as far as they are registered. -/
def sweep (r : Registry) : List Session → Registry
  | [] => r
  | s :: deeper => ((r.sweep deeper).find? s.id).elim (r.sweep deeper) (r.sweep deeper).withdraw

theorem sweep_cons_of_find? {deeper : List Session} (h : (r.sweep deeper).find? s.id = some t) :
    r.sweep (s :: deeper) = (r.sweep deeper).withdraw t := by simp [sweep, h]

theorem sweep_cons_of_missing {deeper : List Session} (h : (r.sweep deeper).find? s.id = none) :
    r.sweep (s :: deeper) = r.sweep deeper := by simp [sweep, h]

theorem child?_sweep {sessions : List Session} (h : (r.sweep sessions).child? id = some k) :
    r.child? id = some k := by
  induction sessions with
  | nil => exact h
  | cons s deeper ih =>
    cases hs : (r.sweep deeper).find? s.id with
    | none =>
      rw [sweep_cons_of_missing hs] at h
      exact ih h
    | some t =>
      rw [sweep_cons_of_find? hs, child?_withdraw] at h
      split at h
      · cases h
      · exact ih h

theorem find?_sweep_head (r : Registry) (s : Session) (deeper : List Session) :
    (r.sweep (s :: deeper)).find? s.id = none := by
  cases hs : (r.sweep deeper).find? s.id with
  | none => rw [sweep_cons_of_missing hs, hs]
  | some t =>
    rw [sweep_cons_of_find? hs, find?_withdraw, if_pos (Keyed.key_of_find? hs)]

/-- Sweeping a session away after its child, which is gone then, is an elementary change. -/
theorem Orderly.sweep_cons {orphans : Prop} {deeper : List Session}
    (h : (r.sweep deeper).Orderly orphans) (hs : r.find? id = some s)
    (hgone : ∀ k, s.child = some k → (r.sweep deeper).find? k = none) :
    (r.sweep (s :: deeper)).Orderly orphans := by
  have hid : s.id = id := Keyed.key_of_find? hs
  cases ht : (r.sweep deeper).find? s.id with
  | none => rwa [sweep_cons_of_missing ht]
  | some t =>
    rw [sweep_cons_of_find? ht]
    refine h.withdraw ht ?_
    cases hc : t.child with
    | none => rfl
    | some k =>
      -- a link that is still there would lead to the child that is gone
      have hlink : (r.sweep deeper).child? s.id = some k := by rw [child?_of_find? ht, hc]
      have hold : r.child? s.id = some k := child?_sweep hlink
      rw [hid, child?_of_find? hs] at hold
      exact absurd hlink (h.mutual_links.child_ne_of_missing (hgone k hold))

theorem Orderly.sweep_descent {orphans : Prop} (h : r.Orderly orphans) (hrank : r.RankedBy rank)
    (hn : r.above rank id ≤ n) :
    (r.sweep (r.descent n id)).Orderly orphans ∧ (r.sweep (r.descent n id)).find? id = none := by
  induction n generalizing id with
  | zero => exact ⟨h, missing_of_above hn⟩
  | succ n ih =>
    rcases r.descent_cases n id with ⟨hid, e⟩ | ⟨s, hs, hc, e⟩ | ⟨s, c, hs, hc, e⟩ <;> rw [e]
    · exact ⟨h, hid⟩
    · refine ⟨Orderly.sweep_cons h hs fun k hk => ?_, Keyed.key_of_find? hs ▸ find?_sweep_head ..⟩
      rw [hc] at hk
      cases hk
    · have hroom : r.above rank c < r.above rank id := above_lt hs (hrank.lt hs hc)
      have hbelow : r.above rank c ≤ n := by omega
      obtain ⟨hdeeper, hgone⟩ := ih hbelow
      refine ⟨Orderly.sweep_cons hdeeper hs fun k hk => ?_,
        Keyed.key_of_find? hs ▸ find?_sweep_head ..⟩
      cases hc.symm.trans hk
      exact hgone

theorem Orderly.sweep_lineage {orphans : Prop} (h : r.Orderly orphans) (id : SessionId) :
    (r.sweep (r.lineage id)).Orderly orphans := by
  obtain ⟨rank, hrank⟩ := h.acyclic
  exact (h.sweep_descent hrank above_le_size).1

/-- A registry whose sessions form chains, each from a top-most session to one without a child. -/
structure InChains (r : Registry) : Prop where
  partition :
    ((r.toList.filter Session.isTopMost).flatMap fun top => r.lineage top.id).Perm r.toList
  head : ∀ top ∈ r.toList, (r.lineage top.id).head? = some top
  links : ∀ id, (r.lineage id).IsChain fun p c => p.child = some c.id ∧ c.parent = some p.id
  last : ∀ id, ∀ s ∈ (r.lineage id).getLast?, s.child = none

theorem eq_of_id_eq (hs : r.find? s.id = some s) (ht : r.find? t.id = some t) (h : s.id = t.id) :
    s = t := by
  rw [h, ht] at hs
  exact (Option.some.inj hs).symm

namespace Orderly

theorem mem_lineage_top (h : r.Orderly False) (hrank : r.RankedBy rank) (ht : r.find? id = some t) :
    ∃ top ∈ r.toList, top.isTopMost ∧ t ∈ r.lineage top.id := by
  -- by induction on the rank, which decreases from a session to its parent
  induction hn : rank id using Nat.strong_induction_on generalizing id t with
  | _ n ih =>
    have hid : t.id = id := Keyed.key_of_find? ht
    cases hp : t.parent with
    | none =>
      exact ⟨t, Keyed.mem_of_find? ht, by simp [Session.isTopMost, hp],
        mem_lineage_self (hid ▸ ht)⟩
    | some p =>
      have hlink : r.child? p = some id := h.rooted p id (by rw [parent?_of_find? ht, hp])
      obtain ⟨s, hs, hsc⟩ := child?_eq_some.1 hlink
      obtain ⟨top, hmem, htop, hsl⟩ := ih (rank p) (hn ▸ hrank p id hlink) hs rfl
      exact ⟨top, hmem, htop, mem_lineage_of_child hsl hsc ht⟩

theorem top_unique {a b : Session} (h : r.Orderly False) (hrank : r.RankedBy rank)
    (ha : r.find? a.id = some a) (hb : r.find? b.id = some b) (hatop : a.parent = none)
    (hbtop : b.parent = none) (hta : t ∈ r.lineage a.id) (htb : t ∈ r.lineage b.id) : a = b := by
  -- follows the two lineages upwards from `t`, where they go together
  induction hn : rank t.id using Nat.strong_induction_on generalizing t with
  | _ n ih =>
    have ht : r.find? t.id = some t := find?_of_mem_descent hta
    have parent_of {id : SessionId} {p : Session} (hp : p ∈ r.lineage id)
        (hc : p.child = some t.id) : t.parent = some p.id := by
      have := h.mutual_links p.id t.id (by rw [child?_of_find? (find?_of_mem_descent hp), hc])
      rwa [parent?_of_find? ht] at this
    rcases linked_of_mem_descent hta with hia | ⟨p, hpa, hpt⟩
    · cases eq_of_id_eq ht ha hia
      rcases linked_of_mem_descent htb with hib | ⟨q, hqb, hqt⟩
      · exact eq_of_id_eq ht hb hib
      · rw [parent_of hqb hqt] at hatop
        cases hatop
    · have htp := parent_of hpa hpt
      rcases linked_of_mem_descent htb with hib | ⟨q, hqb, hqt⟩
      · cases eq_of_id_eq ht hb hib
        rw [htp] at hbtop
        cases hbtop
      · have htq := parent_of hqb hqt
        have hp : r.find? p.id = some p := find?_of_mem_descent hpa
        rw [htp, Option.some_inj] at htq
        cases eq_of_id_eq hp (find?_of_mem_descent hqb) htq
        exact ih (rank p.id) (hn ▸ hrank.lt hp hpt) hpa hqb rfl

theorem inChains (h : r.Orderly False) : r.InChains := by
  obtain ⟨rank, hrank⟩ := h.acyclic
  have top_of_mem {top : Session} (htop : top ∈ r.toList.filter Session.isTopMost) :
      r.find? top.id = some top ∧ top.parent = none := by
    obtain ⟨hmem, htop⟩ := List.mem_filter.1 htop
    exact ⟨Keyed.find?_of_mem hmem, by simpa [Session.isTopMost] using htop⟩
  refine ⟨?_, fun top htop => ?_, isChain_descent h.mutual_links _, fun id s hs => ?_⟩
  · apply (List.perm_ext_iff_of_nodup ?_ r.nodup_toList).2
    · intro t
      rw [List.mem_flatMap]
      constructor
      · rintro ⟨top, -, ht⟩
        exact Keyed.mem_of_find? (find?_of_mem_descent ht)
      · intro ht
        obtain ⟨top, hmem, htop, hl⟩ := h.mem_lineage_top hrank (Keyed.find?_of_mem ht)
        exact ⟨top, List.mem_filter.2 ⟨hmem, htop⟩, hl⟩
    · refine List.nodup_flatMap.2 ⟨fun top _ => hrank.nodup_descent _ _, ?_⟩
      have hnodup : (r.toList.filter Session.isTopMost).Nodup := r.nodup_toList.filter _
      refine hnodup.imp_of_mem fun {a b} ha hb hne t hta htb => hne ?_
      exact h.top_unique hrank (top_of_mem ha).1 (top_of_mem hb).1 (top_of_mem ha).2
        (top_of_mem hb).2 hta htb
  · obtain ⟨deeper, hl⟩ := lineage_of_find? (Keyed.find?_of_mem htop)
    rw [hl]
    rfl
  · exact hrank.child_of_last_descent h.mutual_links above_le_size hs

end Orderly
end SessionShell.Registry
