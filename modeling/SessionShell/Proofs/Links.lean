import Mathlib.Data.List.Count
import Mathlib.Data.List.Nodup
import Mathlib.Data.Set.Insert
import SessionShell.Proofs.Registry

namespace SessionShell.Registry

/-- The child link of a registered session. -/
def child? (r : Registry) (p : SessionId) : Option SessionId := (r.find? p).bind Session.child

/-- The parent link of a registered session. -/
def parent? (r : Registry) (c : SessionId) : Option SessionId := (r.find? c).bind Session.parent

/-- Whoever is linked as a child is registered, with the parent from which the link leads. -/
def Mutual (r : Registry) : Prop := ∀ p c, r.child? p = some c → r.parent? c = some p

/-- Whoever is linked as a child is registered, with the parent from which the link leads, or has
been taken away. -/
def MutualBut (gone : Set SessionId) (r : Registry) : Prop :=
  ∀ p c, r.child? p = some c → c ∈ gone ∨ r.parent? c = some p

/-- Whoever has a parent is linked as its child. -/
def Rooted (r : Registry) : Prop := ∀ p c, r.parent? c = some p → r.child? p = some c

/-- Child links lead from lower to higher ranks. -/
def RankedBy (r : Registry) (rank : SessionId → Nat) : Prop :=
  ∀ p c, r.child? p = some c → rank p < rank c

def Acyclic (r : Registry) : Prop := ∃ rank, r.RankedBy rank

variable {r : Registry} {s c : Session} {id p k : SessionId} {gone gone' : Set SessionId}

theorem child?_of_find? (h : r.find? id = some s) : r.child? id = s.child := by simp [child?, h]

theorem parent?_of_find? (h : r.find? id = some s) : r.parent? id = s.parent := by
  simp [parent?, h]

theorem parent?_eq_some :
    r.parent? id = some p ↔ ∃ s, r.find? id = some s ∧ s.parent = some p := Option.bind_eq_some_iff

theorem child?_eq_some :
    r.child? id = some k ↔ ∃ s, r.find? id = some s ∧ s.child = some k := Option.bind_eq_some_iff

theorem parent?_of_missing (h : r.find? id = none) : r.parent? id = none := by simp [parent?, h]

theorem child?_of_missing (h : r.find? id = none) : r.child? id = none := by simp [child?, h]

theorem child?_erase (r : Registry) (id k : SessionId) :
    Registry.child? (r.erase id) k = if id = k then none else r.child? k := by
  unfold child?
  rw [Keyed.find?_erase]
  split <;> rfl

theorem parent?_erase (r : Registry) (id k : SessionId) :
    Registry.parent? (r.erase id) k = if id = k then none else r.parent? k := by
  unfold parent?
  rw [Keyed.find?_erase]
  split <;> rfl

theorem child?_insert (r : Registry) (c : Session) (k : SessionId) :
    (Registry.child? (r.insert c) k) = if c.id = k then c.child else r.child? k := by
  unfold child?
  rw [Keyed.find?_insert]
  split <;> rfl

theorem parent?_insert (r : Registry) (c : Session) (k : SessionId) :
    (Registry.parent? (r.insert c) k) = if c.id = k then c.parent else r.parent? k := by
  unfold parent?
  rw [Keyed.find?_insert]
  split <;> rfl

theorem child?_change (r : Registry) (id : SessionId) (ch : Session.Change) (k : SessionId) :
    (r.change id ch).child? k =
      if id = k then (r.find? k).bind fun s => ch.child.getD s.child else r.child? k := by
  unfold child?
  rw [find?_change]
  split
  · rw [Option.bind_map]
    rfl
  · rfl

theorem parent?_change (r : Registry) (id : SessionId) {ch : Session.Change}
    (hch : ch.parent = none) (k : SessionId) : (r.change id ch).parent? k = r.parent? k := by
  unfold parent?
  rw [find?_change]
  split
  · cases r.find? k with
    | none => rfl
    | some s => simp [Session.change, hch]
  · rfl

theorem child?_withdraw (r : Registry) (s : Session) (k : SessionId) :
    (r.withdraw s).child? k =
      if s.id = k ∨ s.parent = some k ∧ r.child? k = some s.id then none else r.child? k := by
  unfold child?
  rw [find?_withdraw]
  by_cases hid : s.id = k
  · simp [hid]
  by_cases hp : s.parent = some k
  · cases hk : r.find? k with
    | none => simp [hid, hp]
    | some t =>
      by_cases ht : t.child = some s.id
      · simp [hid, hp, ht, Session.forget_of_child ht]
      · simp [hid, hp, ht, Session.forget_of_child_ne ht]
  · simp [hid, hp]

theorem parent?_withdraw (r : Registry) (s : Session) (k : SessionId) :
    (r.withdraw s).parent? k = if s.id = k then none else r.parent? k := by
  unfold parent?
  rw [find?_withdraw]
  split
  · rfl
  · split
    · cases r.find? k with
      | none => rfl
      | some t => simp
    · rfl

/-- Registers a session as the child of another. -/
def adopt (r : Registry) (p : SessionId) (c : Session) : Registry :=
  Registry.change (r.insert c) p { child := some (some c.id) }

theorem find?_adopt (r : Registry) (p : SessionId) (c : Session) (k : SessionId) :
    (r.adopt p c).find? k =
      if p = k then
        (if c.id = k then some c else r.find? k).map (·.change { child := some (some c.id) })
      else if c.id = k then some c else r.find? k := by
  unfold adopt
  rw [find?_change, Keyed.find?_insert]

theorem child?_adopt (hp : r.find? p = some s) (hne : c.id ≠ p) (hc : c.child = none)
    (k : SessionId) :
    (r.adopt p c).child? k =
      if p = k then some c.id else if c.id = k then none else r.child? k := by
  unfold adopt
  rw [child?_change, child?_insert, Keyed.find?_insert, hc]
  by_cases hk : p = k
  · subst hk
    simp [hne, hp]
  · simp [hk]

theorem parent?_adopt (k : SessionId) :
    (r.adopt p c).parent? k = if c.id = k then c.parent else r.parent? k := by
  unfold adopt
  rw [parent?_change _ _ rfl, parent?_insert]

/-- The registries that come of the empty one by elementary changes; with `orphans`, a session may
be born under a parent that does not learn of it. -/
inductive Orderly (orphans : Prop) : Registry → Prop
  | empty : Orderly orphans ∅
  | prompt {r : Registry} (id : SessionId) (text : String) :
    Orderly orphans r → Orderly orphans (r.change id { prompt := some text })
  | birth {r : Registry} {c : Session} (hfree : r.find? c.id = none) (hchild : c.child = none)
    (hparent : c.parent = none ∨ orphans) : Orderly orphans r → Orderly orphans (r.insert c)
  | adopt {r : Registry} {p : SessionId} {s c : Session} (hfree : r.find? c.id = none)
    (hchild : c.child = none) (hparent : c.parent = some p) (hp : r.find? p = some s)
    (hs : s.child = none) : Orderly orphans r → Orderly orphans (r.adopt p c)
  | withdraw {r : Registry} {id : SessionId} {s : Session} (hid : r.find? id = some s)
    (hchild : s.child = none) : Orderly orphans r → Orderly orphans (r.withdraw s)

namespace MutualBut

theorem mono (h : r.MutualBut gone) (hsub : gone ⊆ gone') : r.MutualBut gone' :=
  fun p k hk => (h p k hk).imp_left fun hgone => hsub hgone

theorem erase (h : r.MutualBut gone) (hid : id ∈ gone) : Registry.MutualBut gone (r.erase id) := by
  intro p k hk
  rw [child?_erase] at hk
  rw [parent?_erase]
  split at hk
  · cases hk
  · by_cases hne : id = k
    · exact .inl (hne ▸ hid)
    · rw [if_neg hne]
      exact h p k hk

theorem prompt (h : r.MutualBut gone) (id : SessionId) (text : String) :
    (r.change id { prompt := some text }).MutualBut gone := by
  intro p k hk
  rw [parent?_change _ _ rfl]
  apply h
  rw [child?_change] at hk
  split at hk <;> exact hk

theorem birth (h : r.MutualBut gone) (hfree : r.find? c.id = none) (hchild : c.child = none) :
    Registry.MutualBut gone (r.insert c) := by
  intro p k hk
  rw [child?_insert] at hk
  rw [parent?_insert]
  split at hk
  · rw [hchild] at hk
    cases hk
  · by_cases hne : c.id = k
    · -- a link to a free identifier is one to a session that is gone
      subst hne
      have hold := h p c.id hk
      rw [parent?_of_missing hfree] at hold
      exact .inl (hold.resolve_right nofun)
    · rw [if_neg hne]
      exact h p k hk

theorem link (h : r.MutualBut gone) (hk : k ∈ gone ∨ r.parent? k = some p) :
    (r.change p { child := some (some k) }).MutualBut gone := by
  intro q l hl
  rw [parent?_change _ _ rfl]
  rw [child?_change] at hl
  split at hl
  · rename_i hpq
    cases hs : r.find? q with
    | none => simp [hs] at hl
    | some s =>
      simp only [hs, Option.bind_some, Option.getD_some, Option.some.injEq] at hl
      rwa [← hl, ← hpq]
  · exact h q l hl

/-- A link to a session that is withdrawn is cleared if it leads from its parent. -/
theorem withdraw (h : r.MutualBut gone) (hid : r.find? id = some s) :
    (r.withdraw s).MutualBut gone := by
  intro p k hk
  rw [child?_withdraw] at hk
  rw [parent?_withdraw]
  split at hk
  · cases hk
  · rename_i hp
    by_cases hne : s.id = k
    · subst hne
      refine (h p s.id hk).imp_right fun hparent => absurd ?_ hp
      rw [Keyed.key_of_find? hid, parent?_of_find? hid] at hparent
      exact .inr ⟨hparent, hk⟩
    · rw [if_neg hne]
      exact h p k hk

theorem discard (h : r.MutualBut gone) (hk : k ∈ gone ∨ r.parent? k = some p)
    (hp : r.child? p = none) : Registry.MutualBut gone (r.erase k) := by
  intro q l hl
  rw [child?_erase] at hl
  rw [parent?_erase]
  split at hl
  · cases hl
  · by_cases hne : k = l
    · subst hne
      rcases hk with hgone | hparent
      · exact .inl hgone
      rcases h q k hl with hgone | hq
      · exact .inl hgone
      -- the link would lead from the parent, which has none
      cases hparent.symm.trans hq
      cases hp.symm.trans hl
    · rw [if_neg hne]
      exact h q l hl

end MutualBut

theorem mutualBut_empty : r.MutualBut ∅ ↔ r.Mutual := by
  simp [MutualBut, Mutual]

namespace Mutual

theorem child_ne_of_missing (h : r.Mutual) (hid : r.find? id = none) : r.child? p ≠ some id := by
  intro hc
  have hparent := h p id hc
  rw [parent?_of_missing hid] at hparent
  cases hparent

theorem prompt (h : r.Mutual) (id : SessionId) (text : String) :
    (r.change id { prompt := some text }).Mutual :=
  mutualBut_empty.1 ((mutualBut_empty.2 h).prompt id text)

theorem birth (h : r.Mutual) (hfree : r.find? c.id = none) (hchild : c.child = none) :
    Registry.Mutual (r.insert c) :=
  mutualBut_empty.1 ((mutualBut_empty.2 h).birth hfree hchild)

theorem adopt (h : r.Mutual) (hfree : r.find? c.id = none) (hchild : c.child = none)
    (hparent : c.parent = some p) : (r.adopt p c).Mutual := by
  have hborn : Registry.parent? (r.insert c) c.id = some p := by
    rw [parent?_insert, if_pos rfl, hparent]
  exact mutualBut_empty.1 (((mutualBut_empty.2 h).birth hfree hchild).link (.inr hborn))

/-- A link to a session that is withdrawn leads from its parent, and is cleared. -/
theorem withdraw (h : r.Mutual) (hid : r.find? id = some s) : (r.withdraw s).Mutual :=
  mutualBut_empty.1 ((mutualBut_empty.2 h).withdraw hid)

end Mutual

namespace Rooted

theorem parent_ne_of_missing (h : r.Rooted) (hid : r.find? id = none) : r.parent? k ≠ some id := by
  intro hk
  have hchild := h id k hk
  rw [child?_of_missing hid] at hchild
  cases hchild

theorem prompt (h : r.Rooted) (id : SessionId) (text : String) :
    (r.change id { prompt := some text }).Rooted := by
  intro p k hk
  rw [parent?_change _ _ rfl] at hk
  rw [child?_change, ← h p k hk]
  split <;> rfl

theorem birth (h : r.Rooted) (hfree : r.find? c.id = none) (hparent : c.parent = none) :
    Registry.Rooted (r.insert c) := by
  intro p k hk
  rw [parent?_insert] at hk
  split at hk
  · rw [hparent] at hk
    cases hk
  · have hne : c.id ≠ p := by
      rintro rfl
      exact h.parent_ne_of_missing hfree hk
    rw [child?_insert, if_neg hne]
    exact h p k hk

theorem adopt (h : r.Rooted) (hfree : r.find? c.id = none) (hchild : c.child = none)
    (hparent : c.parent = some p) (hp : r.find? p = some s) (hs : s.child = none) :
    (r.adopt p c).Rooted := by
  have hcp : c.id ≠ p := Keyed.ne_of_missing hfree hp
  intro q k hk
  rw [parent?_adopt] at hk
  rw [child?_adopt hp hcp hchild]
  by_cases hck : c.id = k
  · rw [if_pos hck, hparent] at hk
    cases hk
    rw [if_pos rfl, hck]
  · rw [if_neg hck] at hk
    -- no other session has `p` as its parent, since `p` had no child
    have hpq : p ≠ q := by
      rintro rfl
      have hlink := h p k hk
      rw [child?_of_find? hp, hs] at hlink
      cases hlink
    have hcq : c.id ≠ q := by
      rintro rfl
      exact h.parent_ne_of_missing hfree hk
    rw [if_neg hpq, if_neg hcq]
    exact h q k hk

theorem withdraw (h : r.Rooted) (hid : r.find? id = some s) (hs : s.child = none) :
    (r.withdraw s).Rooted := by
  intro p k hk
  rw [parent?_withdraw] at hk
  split at hk
  · cases hk
  · rename_i hsk
    have hlink := h p k hk
    -- the link from `p` to `k` remains, since `s` has none itself and is not `k`
    rw [child?_withdraw, hlink, if_neg]
    rintro (rfl | ⟨-, hk⟩)
    · rw [Keyed.key_of_find? hid, child?_of_find? hid, hs] at hlink
      cases hlink
    · exact hsk (Option.some.inj hk).symm

theorem eq_of_parent {t : Session} (h : r.Rooted) (hs : s ∈ r.toList) (ht : t ∈ r.toList)
    (hparent : s.parent.isSome) (heq : s.parent = t.parent) : s = t := by
  obtain ⟨p, hp⟩ := Option.isSome_iff_exists.1 hparent
  have hfs := Keyed.find?_of_mem hs
  have hft := Keyed.find?_of_mem ht
  have hcs : r.child? p = some s.id := h p s.id (by rw [parent?_of_find? hfs, hp])
  have hct : r.child? p = some t.id := h p t.id (by rw [parent?_of_find? hft, ← heq, hp])
  have hid : s.id = t.id := Option.some.inj (hcs.symm.trans hct)
  rw [hid, hft] at hfs
  exact (Option.some.inj hfs).symm

end Rooted

namespace Acyclic

theorem of_fewer {r' : Registry} (h : r.Acyclic)
    (hr : ∀ p k, r'.child? p = some k → r.child? p = some k) : r'.Acyclic := by
  obtain ⟨rank, hrank⟩ := h
  exact ⟨rank, fun p k hk => hrank p k (hr p k hk)⟩

theorem prompt (h : r.Acyclic) (id : SessionId) (text : String) :
    (r.change id { prompt := some text }).Acyclic := by
  apply h.of_fewer
  intro p k hk
  rw [child?_change] at hk
  split at hk <;> exact hk

theorem birth (h : r.Acyclic) (hchild : c.child = none) : Registry.Acyclic (r.insert c) := by
  apply h.of_fewer
  intro p k hk
  rw [child?_insert] at hk
  split at hk
  · rw [hchild] at hk
    cases hk
  · exact hk

/-- A new session, to which no link leads yet, can be ranked above its parent. -/
theorem adopt (h : r.Acyclic) (hmutual : r.Mutual) (hfree : r.find? c.id = none)
    (hchild : c.child = none) (hp : r.find? p = some s) : (r.adopt p c).Acyclic := by
  obtain ⟨rank, hrank⟩ := h
  have hcp : c.id ≠ p := Keyed.ne_of_missing hfree hp
  refine ⟨fun k => if c.id = k then rank p + 1 else rank k, fun q k hk => ?_⟩
  show (if c.id = q then rank p + 1 else rank q) < if c.id = k then rank p + 1 else rank k
  rw [child?_adopt hp hcp hchild] at hk
  by_cases hpq : p = q
  · rw [if_pos hpq] at hk
    cases hk
    rw [if_pos rfl, if_neg (hpq ▸ hcp), hpq]
    omega
  · rw [if_neg hpq] at hk
    split at hk
    · cases hk
    · rename_i hcq
      have hck : c.id ≠ k := by
        rintro rfl
        exact hmutual.child_ne_of_missing hfree hk
      rw [if_neg hcq, if_neg hck]
      exact hrank q k hk

theorem withdraw (h : r.Acyclic) (s : Session) : (r.withdraw s).Acyclic := by
  apply h.of_fewer
  intro p k hk
  rw [child?_withdraw] at hk
  split at hk
  · cases hk
  · exact hk

end Acyclic

namespace Orderly

variable {orphans : Prop}

theorem mutual_links (h : r.Orderly orphans) : r.Mutual := by
  induction h with
  | empty => exact fun _ _ hk => nomatch hk
  | prompt id text _ ih => exact ih.prompt id text
  | birth hfree hchild _ _ ih => exact ih.birth hfree hchild
  | adopt hfree hchild hparent _ _ _ ih => exact ih.adopt hfree hchild hparent
  | withdraw hid _ _ ih => exact ih.withdraw hid

theorem rooted (h : r.Orderly False) : r.Rooted := by
  induction h with
  | empty => exact fun _ _ hk => nomatch hk
  | prompt id text _ ih => exact ih.prompt id text
  | birth hfree _ hparent _ ih => exact ih.birth hfree (hparent.resolve_right id)
  | adopt hfree hchild hparent hp hs _ ih => exact ih.adopt hfree hchild hparent hp hs
  | withdraw hid hs _ ih => exact ih.withdraw hid hs

theorem acyclic (h : r.Orderly orphans) : r.Acyclic := by
  induction h with
  | empty => exact ⟨fun _ => 0, fun _ _ hk => nomatch hk⟩
  | prompt id text _ ih => exact ih.prompt id text
  | birth _ hchild _ _ ih => exact ih.birth hchild
  | adopt hfree hchild _ hp _ h ih => exact ih.adopt h.mutual_links hfree hchild hp
  | withdraw _ _ _ ih => exact ih.withdraw _

end Orderly
end SessionShell.Registry
