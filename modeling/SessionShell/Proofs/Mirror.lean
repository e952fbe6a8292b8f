import SessionShell.Proofs.Evaluator

namespace SessionShell

def Session.bare (s : Session) : Session := { s with prompt := "" }

namespace Registry

variable {r r' : Registry} {own : SessionId} {s c : Session} {known : Known} {prompt : String}

/-- A registry that is another but for the prompt of a session. -/
def Reprompted (r : Registry) (own : SessionId) (r' : Registry) : Prop :=
  ∃ p : Option String, r' = r.change own { prompt := p }

theorem change_nothing (r : Registry) (own : SessionId) : r.change own {} = r := by
  apply Keyed.ext_find?
  intro k
  rw [find?_change]
  split
  · cases r.find? k <;> rfl
  · rfl

theorem Reprompted.refl (r : Registry) (own : SessionId) : r.Reprompted own r :=
  ⟨none, (change_nothing r own).symm⟩

theorem Reprompted.trans {r₁ r₂ : Registry} (h : r.Reprompted own r₁) (h' : r₁.Reprompted own r₂) :
    r.Reprompted own r₂ := by
  obtain ⟨p, rfl⟩ := h
  obtain ⟨q, rfl⟩ := h'
  refine ⟨q.or p, Keyed.ext_find? fun k => ?_⟩
  rw [find?_change, find?_change, find?_change]
  by_cases hk : own = k
  · cases r.find? k <;> cases q <;> simp [hk, Session.change]
  · simp [hk]

theorem withdraw_change (r : Registry) (c : Session) (p : Option String) :
    (r.change c.id { prompt := p }).withdraw (c.change { prompt := p }) = r.withdraw c := by
  apply Keyed.ext_find?
  intro k
  have hlinks : (c.change { prompt := p }).id = c.id ∧
      (c.change { prompt := p }).parent = c.parent := ⟨rfl, rfl⟩
  rw [find?_withdraw, find?_withdraw, hlinks.1, hlinks.2, find?_change]
  by_cases hk : c.id = k
  · simp [hk]
  · simp [hk]

theorem withdraw_insert (hfree : r.find? c.id = none) (hparent : c.parent = none) :
    Registry.withdraw (r.insert c) c = r := by
  apply Keyed.ext_find?
  intro k
  rw [find?_withdraw, Keyed.find?_insert, hparent]
  by_cases hk : c.id = k
  · simp [← hk, hfree]
  · simp [hk]

theorem withdraw_adopt (hfree : r.find? c.id = none) (hparent : c.parent = some own)
    (hs : r.find? own = some s) (hchild : s.child = none) : (r.adopt own c).withdraw c = r := by
  apply Keyed.ext_find?
  intro k
  rw [find?_withdraw, find?_adopt, hparent]
  by_cases hk : c.id = k
  · simp [← hk, hfree]
  · by_cases hown : own = k
    · subst hown
      simp [hk, hs, Session.change, Session.forget, ← hchild]
    · simp [hk, hown]

/-- Whether the sessions of a registry are those known, whatever their prompts. -/
def Holds (r : Registry) (known : Known) : Prop :=
  ∀ id, (r.find? id).map Session.bare = (known id).map Session.bare

/-- A registry of the known sessions in which one has the given prompt and no child. -/
structure Mirrors (r : Registry) (known : Known) (own : SessionId) (prompt : String) : Prop where
  own : ∃ s, r.find? own = some s ∧ s.prompt = prompt ∧ s.child = none
  holds : r.Holds known

theorem Holds.contains_eq (h : r.Holds known) : r.contains = fun id => (known id).isSome := by
  funext id
  rw [Keyed.contains_eq, ← Option.isSome_map, h, Option.isSome_map]

theorem Holds.insert (h : r.Holds known) (hparent : c.parent = none) :
    Registry.Holds (r.insert c) (known.link c) := by
  intro id
  unfold Known.link
  rw [Keyed.find?_insert, hparent]
  by_cases hid : c.id = id
  · simp [hid]
  · simpa [hid] using h id

theorem Holds.adopt {p : SessionId} (h : r.Holds known) (hparent : c.parent = some p)
    (hne : c.id ≠ p) : (r.adopt p c).Holds (known.link c) := by
  intro id
  -- the new link does not depend on the prompt
  have hbare : ∀ s t : Session, s.bare = t.bare →
      (s.change { child := some (some c.id) }).bare =
        Session.bare { t with child := some c.id } := by
    intro s t hst
    simp only [Session.bare, Session.change, Session.mk.injEq] at hst ⊢
    simp [hst]
  unfold Known.link
  rw [find?_adopt, hparent]
  by_cases hp : p = id
  · subst hp
    have hid := h p
    rw [if_pos rfl, if_neg hne, if_neg hne, if_pos rfl]
    cases hr : r.find? p <;> cases hk : known p <;> rw [hr, hk] at hid <;> simp at hid ⊢
    exact hbare _ _ hid
  · have hp' : (some p : Option SessionId) ≠ some id := fun e => hp (Option.some.inj e)
    rw [if_neg hp, if_neg hp']
    by_cases hid : c.id = id
    · simp [hid]
    · simpa [hid] using h id

theorem Holds.reprompted (h : r.Holds known) (hr : r.Reprompted own r') : r'.Holds known := by
  obtain ⟨p, rfl⟩ := hr
  intro id
  rw [find?_change, ← h id]
  split
  · rw [Option.map_map]
    rfl
  · rfl

theorem infoLines_eq (r : Registry) (own : SessionId) (a : Arguments) :
    infoLines r own a = Deed.ofInfo r.find? own a := by
  unfold infoLines Deed.ofInfo
  cases a.positional with
  | nil =>
    dsimp only
    cases r.find? own <;> rfl
  | cons text rest =>
    dsimp only
    cases SessionId.ofText text with
    | ok id =>
      dsimp only
      cases r.find? id <;> rfl
    | error e => rfl

theorem Holds.infoLines_eq (h : r.Holds known) (own : SessionId) (a : Arguments) :
    infoLines r own a = Deed.ofInfo known own a := by
  have hdescribe (id : SessionId) :
      (r.find? id).map Session.describe = (known id).map Session.describe := by
    have hbare := congrArg (Option.map Session.describe) (h id)
    rw [Option.map_map, Option.map_map] at hbare
    exact hbare
  rw [Registry.infoLines_eq]
  unfold Deed.ofInfo
  simp only [hdescribe]

end Registry
end SessionShell
