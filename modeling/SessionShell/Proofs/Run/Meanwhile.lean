import SessionShell.Proofs.Run.Leaks

namespace SessionShell

/-- Whether an event is no request that acts on the record under an identifier. -/
def Event.Spares (id : SessionId) : Event → Prop
  | reply q _ => q.Spares id
  | _ => True

instance (id : SessionId) : (e : Event) → Decidable (e.Spares id)
  | .reply q _ => inferInstanceAs (Decidable (q.Spares id))
  | .prompt .. | .input .. | .write _ | .created _ | .removed .. => isTrue trivial

def Event.isRead : Event → Bool
  | prompt .. => true
  | input .. => true
  | _ => false

/-- Reading, writing and the requests of other parties lead from `w` to `w'`; `new` has happened
meanwhile. -/
structure Elapsed (w : World) (new : List Event) (w' : World) : Prop where
  log : w'.log = new ++ w.log
  turnover : ∀ e ∈ new, e.isTurnover = false
  spared : ∀ id, (∀ e ∈ new, e.Spares id) → w'.registry.find? id = w.registry.find? id
  missing : ∀ id, w.registry.find? id = none → (∀ e ∈ new, e.registers id = false) →
    w'.registry.find? id = none

/-- The part of a log from some event on is part of what was there before other events. -/
theorem suffix_of_append {e : Event} {earlier new log : List Event}
    (h : (e :: earlier) <:+ new ++ log) (he : e ∉ new) : (e :: earlier) <:+ log := by
  induction new with
  | nil => exact h
  | cons e' new ih =>
    obtain ⟨hne, he⟩ := not_or.1 (mt List.mem_cons.2 he)
    rcases List.suffix_cons_iff.1 h with heq | h
    · exact absurd (List.cons.inj heq).1 hne
    · exact ih h he

theorem Event.ne_prompt {e : Event} (h : e.isRead = false) (own : SessionId) (text : String)
    (r : Registry) : e ≠ .prompt own text r := by
  rintro rfl
  cases h

namespace Elapsed

variable {w w₁ w₂ : World} {new new₁ : List Event}

theorem suffix (h : Elapsed w new w₁) : w.log <:+ w₁.log := ⟨new, h.log.symm⟩

theorem refl (w : World) : Elapsed w [] w :=
  ⟨rfl, fun _ he => absurd he List.not_mem_nil, fun _ _ => rfl, fun _ h _ => h⟩

theorem trans (h : Elapsed w new w₁) (h₁ : Elapsed w₁ new₁ w₂) : Elapsed w (new₁ ++ new) w₂ := by
  refine ⟨?_, fun e he => ?_, fun id hid => ?_, fun id hid hothers => ?_⟩
  · rw [h₁.log, h.log, List.append_assoc]
  · exact (List.mem_append.1 he).elim (h₁.turnover e) (h.turnover e)
  · obtain ⟨hid₁, hid⟩ := List.forall_mem_append.1 hid
    rw [h₁.spared id hid₁, h.spared id hid]
  · obtain ⟨hothers₁, hothers⟩ := List.forall_mem_append.1 hothers
    exact h₁.missing id (h.missing id hid hothers) hothers₁

theorem record (w : World) {e : Event} (he : e.isTurnover = false) :
    Elapsed w [e] (w.record e) :=
  ⟨rfl, fun _ hmem => List.mem_singleton.1 hmem ▸ he, fun _ _ => rfl, fun _ h _ => h⟩

theorem congr {w' : World} (h : Elapsed w new w₁) (hlog : w'.log = w₁.log)
    (hregistry : w'.registry = w₁.registry) : Elapsed w new w' :=
  ⟨hlog.trans h.log, h.turnover, hregistry ▸ h.spared, hregistry ▸ h.missing⟩

end Elapsed

namespace World

theorem elapsed_request (w : World) (q : Request) :
    Elapsed w [.reply q (q.answer w.registry).1] (w.outside (.request q)) := by
  refine ⟨rfl, fun e he => ?_, fun id hid => ?_, fun id hid hothers => ?_⟩
  · rw [List.mem_singleton.1 he]
    rfl
  · have hq : q.Spares id := hid _ (List.mem_singleton_self _)
    show (q.answer w.registry).2.find? id = _
    rw [Request.find?_answer, Request.on_of_spares hq]
  · exact Request.missing_answer hid (hothers _ (List.mem_singleton_self _))

theorem elapsed_outsides (w : World) (os : List Outside) :
    ∃ new, (∀ e ∈ new, e.isRead = false) ∧ Elapsed w new (os.foldl outside w) := by
  induction os generalizing w with
  | nil => exact ⟨[], by simp, .refl w⟩
  | cons o os ih =>
    obtain ⟨new, hnew, helapsed⟩ := ih (w.outside o)
    cases o with
    | clock t =>
      exact ⟨new, hnew, helapsed.log, helapsed.turnover, helapsed.spared, helapsed.missing⟩
    | request q =>
      refine ⟨new ++ [_], fun e he => ?_, (w.elapsed_request q).trans helapsed⟩
      rcases List.mem_append.1 he with he | he
      · exact hnew e he
      · rw [List.mem_singleton.1 he]
        rfl

theorem elapsed_write (w : World) (line : String) :
    ∃ new, (∀ e ∈ new, e.isRead = false) ∧ Elapsed w new (w.write line) := by
  have hrecord : Elapsed w [.write line] { w.record (.write line) with written := w.written + 1 } :=
    (Elapsed.record w rfl).congr rfl rfl
  obtain ⟨new, hnew, helapsed⟩ :=
    elapsed_outsides { w.record (.write line) with written := w.written + 1 }
      (w.onWrite (w.written + 1))
  refine ⟨new ++ [.write line], fun e he => ?_, hrecord.trans helapsed⟩
  rcases List.mem_append.1 he with he | he
  · exact hnew e he
  · rw [List.mem_singleton.1 he]
    rfl

theorem elapsed_writeAll (w : World) (lines : List String) :
    ∃ new, (∀ e ∈ new, e.isRead = false) ∧ Elapsed w new (w.writeAll lines) := by
  induction lines generalizing w with
  | nil => exact ⟨[], by simp, .refl w⟩
  | cons line lines ih =>
    obtain ⟨new, hnew, helapsed⟩ := w.elapsed_write line
    obtain ⟨new₁, hnew₁, helapsed₁⟩ := ih (w.write line)
    exact ⟨new₁ ++ new, List.forall_mem_append.2 ⟨hnew₁, hnew⟩, helapsed.trans helapsed₁⟩

theorem elapsed_read (w : World) (own : SessionId) (prompt : String) :
    ∃ new, (∀ e ∈ new, e.isRead = false) ∧
      Elapsed w (.input own (w.read own prompt).1 :: (new ++ [.prompt own prompt w.registry]))
        (w.read own prompt).2 := by
  have hprompt : Elapsed w [.prompt own prompt w.registry]
      (w.record (.prompt own prompt w.registry)) := .record w rfl
  rcases hs : w.script with _ | ⟨entry, rest⟩
  · rw [read_of_nil hs]
    exact ⟨[], by simp, hprompt.trans (.record _ rfl)⟩
  · rw [read_of_cons hs]
    have hnext : Elapsed w [.prompt own prompt w.registry]
        { w.record (.prompt own prompt w.registry) with script := rest } := hprompt.congr rfl rfl
    obtain ⟨new, hnew, helapsed⟩ := elapsed_outsides _ entry.before
    exact ⟨new, hnew, (hnext.trans helapsed).trans (.record _ rfl)⟩

theorem worldInvariant_suffix_log (log : List Event) : WorldInvariant fun w => log <:+ w.log where
  write {w} line h := by
    obtain ⟨new, -, helapsed⟩ := w.elapsed_write line
    exact h.trans helapsed.suffix
  manager _ h := h
  record _ h := h.trans (List.suffix_cons _ _)

end World
end SessionShell
