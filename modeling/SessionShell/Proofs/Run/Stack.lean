import SessionShell.Proofs.Links

namespace SessionShell.Registry

/-- The sessions of a stack, innermost first, stand in a registry: the first has the child `above`,
each other one the session before it, and each has the session behind it as parent, the last one
`outer`. -/
def Stands (r : Registry) (outer : Option SessionId) : Option SessionId → List SessionId → Prop
  | _, [] => True
  | above, id :: below =>
    (∃ s, r.find? id = some s ∧ s.child = above ∧ s.parent = below.head?.or outer) ∧
      r.Stands outer (some id) below

namespace Stands

variable {r r' : Registry} {outer above : Option SessionId} {own : SessionId}
  {stack : List SessionId}

theorem find?_of_mem {id : SessionId} (h : r.Stands outer above stack) (hid : id ∈ stack) :
    ∃ s, r.find? id = some s := by
  induction stack generalizing above with
  | nil => cases hid
  | cons own stack ih =>
    obtain ⟨⟨s, hs, -⟩, hbelow⟩ := h
    rcases List.mem_cons.1 hid with rfl | hid
    · exact ⟨s, hs⟩
    · exact ih hbelow hid

theorem congr (h : r.Stands outer above stack)
    (hr : ∀ id ∈ stack, ∀ s, r.find? id = some s →
      ∃ t, r'.find? id = some t ∧ t.child = s.child ∧ t.parent = s.parent) :
    r'.Stands outer above stack := by
  induction stack generalizing above with
  | nil => trivial
  | cons own stack ih =>
    obtain ⟨⟨s, hs, hchild, hparent⟩, hbelow⟩ := h
    obtain ⟨t, ht, htc, htp⟩ := hr own (List.mem_cons_self ..) s hs
    exact ⟨⟨t, ht, htc.trans hchild, htp.trans hparent⟩,
      ih hbelow fun id hid => hr id (List.mem_cons_of_mem _ hid)⟩

theorem congr_find? (h : r.Stands outer above stack)
    (hr : ∀ id ∈ stack, r'.find? id = r.find? id) : r'.Stands outer above stack :=
  h.congr fun id hid s hs => ⟨s, (hr id hid).trans hs, rfl, rfl⟩

theorem adopt {c : Session} (h : r.Stands outer none (own :: stack))
    (hnodup : (own :: stack).Nodup) (hfree : r.find? c.id = none) (hc : c.child = none)
    (hp : c.parent = some own) :
    (r.adopt own c).Stands outer none (c.id :: own :: stack) ∧ (c.id :: own :: stack).Nodup := by
  have hne : ∀ id ∈ own :: stack, c.id ≠ id := by
    intro id hid
    obtain ⟨s, hs⟩ := h.find?_of_mem hid
    exact Keyed.ne_of_missing hfree hs
  have hcown : c.id ≠ own := hne own (List.mem_cons_self ..)
  have hown : own ∉ stack := (List.nodup_cons.1 hnodup).1
  obtain ⟨⟨s, hs, -, hparent⟩, hbelow⟩ := h
  have hchild : (r.adopt own c).find? c.id = some c := by
    rw [find?_adopt, if_neg hcown.symm, if_pos rfl]
  have hlink : (r.adopt own c).find? own = some (s.change { child := some (some c.id) }) := by
    rw [find?_adopt, if_pos rfl, if_neg hcown, hs]
    rfl
  refine ⟨⟨⟨c, hchild, hc, hp⟩, ⟨_, hlink, rfl, hparent⟩, hbelow.congr_find? fun id hid => ?_⟩, ?_⟩
  · rw [find?_adopt, if_neg (fun e : own = id => hown (e ▸ hid)),
      if_neg (hne id (List.mem_cons_of_mem _ hid))]
  · exact List.nodup_cons.2 ⟨fun hmem => hne c.id hmem rfl, hnodup⟩

/-- When the innermost session is withdrawn, the one that waited for it is the innermost. -/
theorem withdraw {s : Session} (h : r.Stands outer none (own :: stack))
    (hnodup : (own :: stack).Nodup) (hs : r.find? own = some s) :
    (r.withdraw s).Stands outer none stack := by
  obtain ⟨⟨t, ht, -, hparent⟩, hbelow⟩ := h
  have hid : s.id = own := Keyed.key_of_find? hs
  cases hs.symm.trans ht
  cases stack with
  | nil => trivial
  | cons below stack =>
    obtain ⟨⟨p, hp, hpc, hpp⟩, hdeeper⟩ := hbelow
    have hne : own ∉ below :: stack := (List.nodup_cons.1 hnodup).1
    have hbelow : below ∉ stack := (List.nodup_cons.1 (List.nodup_cons.1 hnodup).2).1
    have hsp : s.parent = some below := hparent
    refine ⟨⟨p.forget own, ?_, ?_, ?_⟩, hdeeper.congr_find? fun id hmem => ?_⟩
    · rw [find?_withdraw, hid, if_neg (fun e => hne (by simp [e])), if_pos hsp, hp]
      rfl
    · rw [Session.forget_of_child hpc]
    · rw [Session.parent_forget, hpp]
    · have howni : own ≠ id := fun e => hne (by simp [e, hmem])
      have hbelowi : below ≠ id := fun e => hbelow (by simpa [e] using hmem)
      simp [find?_withdraw, hid, howni, hsp, hbelowi]

end Stands
end SessionShell.Registry
