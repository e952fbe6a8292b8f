import Mathlib.Data.Nat.Find
import SessionShell.Proofs.Run.Draws
import SessionShell.Proofs.Run.Listing

namespace SessionShell

namespace IdSource

/-- The identifier drawn at a time after `i` others. -/
def upcoming (ids : IdSource) (t : Instant) (i : Nat) : SessionId := (draw ⟨ids.drawn + i⟩ t).1

variable {taken : SessionId → Bool} {t : Instant} {ids : IdSource} {spare i : Nat}

theorem upcoming_zero (ids : IdSource) (t : Instant) : ids.upcoming t 0 = (ids.draw t).1 := rfl

theorem upcoming_succ (ids : IdSource) (t : Instant) (i : Nat) :
    ids.upcoming t (i + 1) = (ids.draw t).2.upcoming t i := by
  have hcount : ids.drawn + (i + 1) = ids.drawn + 1 + i := by omega
  rw [upcoming, hcount]
  rfl

theorem stamp_upcoming (ids : IdSource) (t : Instant) (i : Nat) :
    ((ids.upcoming t i).stamp.toNat : Int) = max t.millis.toInt 0 := by
  show (t.stamp.toNat : Int) = _
  rw [t.toNat_stamp]
  omega

theorem seq_upcoming (ids : IdSource) (t : Instant) (i : Nat) :
    (ids.upcoming t i).seq.toNat = (ids.drawn + 1 + i) % UInt32.size := by
  have hcount : ids.drawn + 1 + i = ids.drawn + i + 1 := by omega
  rw [hcount]
  rfl

theorem firstFree_of_free (hi : i ≤ spare) (hbefore : ∀ j < i, taken (ids.upcoming t j))
    (hfree : taken (ids.upcoming t i) = false) :
    firstFree taken t spare ids = (.ok (ids.upcoming t i), ⟨ids.drawn + i + 1⟩) := by
  induction i generalizing ids spare with
  | zero =>
    rw [upcoming_zero] at hfree
    cases spare <;> simp [firstFree, hfree, upcoming_zero] <;> rfl
  | succ i ih =>
    obtain ⟨spare, rfl⟩ : ∃ n, spare = n + 1 := ⟨spare - 1, by omega⟩
    have hfirst : taken (ids.draw t).1 := hbefore 0 (by omega)
    have hrest : ∀ j < i, taken ((ids.draw t).2.upcoming t j) := by
      intro j hj
      rw [← upcoming_succ]
      exact hbefore (j + 1) (by omega)
    rw [upcoming_succ] at hfree ⊢
    rw [firstFree, if_pos hfirst, ih (by omega) hrest hfree]
    have hcount : (ids.draw t).2.drawn + i + 1 = ids.drawn + (i + 1) + 1 := by
      simp only [draw]
      omega
    rw [hcount]

theorem firstFree_of_taken (h : ∀ j ≤ spare, taken (ids.upcoming t j)) :
    firstFree taken t spare ids = (.error (ids.upcoming t spare), ⟨ids.drawn + spare + 1⟩) := by
  induction spare generalizing ids with
  | zero =>
    have hfirst : taken (ids.draw t).1 := h 0 (Nat.le_refl 0)
    simp only [firstFree, hfirst, upcoming_zero]
    rfl
  | succ spare ih =>
    have hfirst : taken (ids.draw t).1 := h 0 (by omega)
    have hrest : ∀ j ≤ spare, taken ((ids.draw t).2.upcoming t j) := by
      intro j hj
      rw [← upcoming_succ]
      exact h (j + 1) (by omega)
    have hcount : (ids.draw t).2.drawn + spare + 1 = ids.drawn + (spare + 1) + 1 := by
      simp only [draw]
      omega
    rw [firstFree, if_pos hfirst, ih hrest, hcount, upcoming_succ]

end IdSource

namespace World

variable {w : World} {i : Nat}

/-- The identifier that is tried for a new session after `i` others were found taken. -/
def candidate (w : World) (i : Nat) : SessionId := w.ids.upcoming w.now i

theorem lines_enter (w : World) (s : Session) (ids : IdSource) :
    (w.enter s ids).lines = w.lines := by
  rw [enter, lines_record]
  exact List.append_nil _

theorem contains_eq_true {id : SessionId} :
    w.registry.contains id = true ↔ w.registry.find? id ≠ none := by
  rw [Keyed.contains_eq, Option.isSome_iff_ne_none]

theorem create_of_free (shell : Shell) (parent : Option SessionId) (hi : i < maxCandidates)
    (hbefore : ∀ j < i, w.registry.find? (w.candidate j) ≠ none)
    (hfree : w.registry.find? (w.candidate i) = none) :
    let s := shell.newborn (w.candidate i) w.now parent
    w.create shell parent =
      (.ok s, (w.enter s ⟨w.ids.drawn + i + 1⟩).writeAll s.birthNotice) := by
  have hfirst := IdSource.firstFree_of_free (Nat.le_sub_one_of_lt hi)
    (fun j hj => contains_eq_true.2 (hbefore j hj))
    (Bool.eq_false_iff.2 fun h => contains_eq_true.1 h hfree)
  rw [create_eq, hfirst]
  rfl

theorem create_of_taken (shell : Shell) (parent : Option SessionId)
    (h : ∀ j < maxCandidates, w.registry.find? (w.candidate j) ≠ none) :
    w.create shell parent = (.error (.duplicateId (w.candidate (maxCandidates - 1))),
      { w with ids := ⟨w.ids.drawn + maxCandidates⟩ }) := by
  have hall : ∀ j ≤ maxCandidates - 1, w.registry.contains (w.candidate j) := fun j hj =>
    contains_eq_true.2 (h j (Nat.lt_of_le_pred (by decide) hj))
  rw [create_eq, IdSource.firstFree_of_taken hall]
  rfl

theorem isOk_create (shell : Shell) (parent : Option SessionId) (w : World) :
    (w.create shell parent).1.isOk ↔
      ∃ i < maxCandidates, w.registry.find? (w.candidate i) = none := by
  constructor
  · intro hok
    by_contra! htaken
    rw [create_of_taken shell parent htaken] at hok
    cases hok
  · intro hex
    obtain ⟨hi, hfree⟩ := Nat.find_spec hex
    have hbefore : ∀ j < Nat.find hex, w.registry.find? (w.candidate j) ≠ none := fun j hj hnone =>
      Nat.find_min hex hj ⟨hj.trans hi, hnone⟩
    rw [create_of_free shell parent hi hbefore hfree]
    rfl

/-- A session gets the first free one of eight candidates for its identifier, in a registry that
holds what it held, and its birth is announced. It is refused exactly if all eight are taken; then
they have been drawn, and nothing else has happened. -/
theorem create_candidates (shell : Shell) (parent : Option SessionId) (w : World) :
    (∀ i, ((w.candidate i).stamp.toNat : Int) = max w.now.millis.toInt 0 ∧
      (w.candidate i).seq.toNat = (w.ids.drawn + 1 + i) % UInt32.size) ∧
    ((w.create shell parent).1.isOk ↔ ∃ i < 8, w.registry.find? (w.candidate i) = none) ∧
    (∀ i < 8, (∀ j < i, w.registry.find? (w.candidate j) ≠ none) →
      w.registry.find? (w.candidate i) = none →
      let s : Session := ⟨w.candidate i, w.now, shell.prompt, parent, none⟩
      let entered := w.enter s ⟨w.ids.drawn + (i + 1)⟩
      let announced := entered.writeAll s.birthNotice
      w.create shell parent = (.ok s, announced) ∧
      (∀ k, entered.registry.find? k =
        if w.candidate i = k then some s else w.registry.find? k) ∧
      (w.Quiet → announced.registry = entered.registry) ∧
      announced.lines = w.lines ++
        (["*****", "Shell (" ++ (w.candidate i).text ++ ") started on " ++ w.now.text] ++
          (if parent = none then ["This is the top-most shell"] else []) ++ ["*****"]) ∧
      announced.ids = ⟨w.ids.drawn + (i + 1)⟩) ∧
    ((∀ i < 8, w.registry.find? (w.candidate i) ≠ none) →
      w.create shell parent =
        (.error (.duplicateId (w.candidate 7)), { w with ids := ⟨w.ids.drawn + 8⟩ })) := by
  refine ⟨fun i => ⟨IdSource.stamp_upcoming .., IdSource.seq_upcoming ..⟩, isOk_create ..,
    fun i hi hbefore hfree => ?_, create_of_taken shell parent⟩
  intro s entered announced
  refine ⟨create_of_free shell parent hi hbefore hfree, fun k => Keyed.find?_insert ..,
    fun hquiet => ?_, ?_, ids_writeAll ..⟩
  · have hentered : entered.Still entered.registry entered.shown := ⟨hquiet, rfl, rfl⟩
    exact (hentered.writeAll s.birthNotice).registry
  · rw [lines_writeAll, lines_enter, Session.birthNotice_eq]

/-- The clock shows a time before 1970, and the sequence numbers begin anew. First two candidates
are taken, then all of them. -/
theorem create_among_taken :
    let taken (n : Nat) : Registry := (List.range n).foldl
      (fun r i => r.insert ⟨⟨0, UInt32.ofNat (UInt32.size - 1 + i)⟩, ⟨0⟩, "", none, none⟩) ∅
    let w (n : Nat) : World := World.start ⟨taken n, ⟨UInt32.size - 2⟩, ⟨-5⟩⟩ [] fun _ => []
    let s : Session := ⟨⟨0, 1⟩, ⟨-5⟩, defaultPrompt, some ⟨0, 0⟩, none⟩
    ((w 2).create .bare (some ⟨0, 0⟩)).1 = .ok s ∧
      ((w 2).create .bare (some ⟨0, 0⟩)).2.lines =
        ["*****", "Shell (sh-0-1) started on 1969-12-31 23:59:59", "*****"] ∧
      (w 8).create .bare none =
        (.error (.duplicateId ⟨0, 6⟩), { w 8 with ids := ⟨UInt32.size + 6⟩ }) := by
  intro taken w s
  have hthird : (w 2).candidate 2 = ⟨0, 1⟩ := by decide +kernel
  have hlast : (w 8).candidate 7 = ⟨0, 6⟩ := by decide +kernel
  obtain ⟨-, -, hborn, -⟩ := create_candidates .bare (some ⟨0, 0⟩) (w 2)
  obtain ⟨hcreate, -, -, hlines, -⟩ := hborn 2 (by decide) (by decide +kernel) (by decide +kernel)
  obtain ⟨-, -, -, hrefused⟩ := create_candidates .bare none (w 8)
  rw [hthird] at hcreate hlines
  refine ⟨by rw [hcreate]; rfl, by rw [hcreate, hlines]; decide +kernel, ?_⟩
  rw [hrefused (by decide +kernel), hlast]
  rfl

end World
end SessionShell
