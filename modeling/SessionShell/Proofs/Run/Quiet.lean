import SessionShell.Proofs.Lineage
import SessionShell.Proofs.Run.Invariant

namespace SessionShell

def Request.isQuery : Request → Bool
  | register _ => false
  | deregister _ => false
  | update .. => false
  | _ => true

def Outside.isQuiet : Outside → Bool
  | clock _ => true
  | request q => q.isQuery

/-- Whether other parties only ask and let time pass. -/
def Quiet (script : List Entry) (onWrite : Nat → List Outside) : Prop :=
  (∀ e ∈ script, ∀ o ∈ e.before, o.isQuiet) ∧ ∀ n, ∀ o ∈ onWrite n, o.isQuiet

def World.Quiet (w : World) : Prop := SessionShell.Quiet w.script w.onWrite

def Instant.after (t : Instant) (os : List Outside) : Instant :=
  os.foldl (fun t o => match o with | .clock t' => t' | .request _ => t) t

def Registry.after (r : Registry) (os : List Outside) : Registry :=
  os.foldl (fun r o => match o with | .clock _ => r | .request q => (q.answer r).2) r

/-- Whether another party is answered in an event. -/
def Event.isReply : Event → Bool
  | reply .. => true
  | _ => false

/-- The registry that an event shows, if a session reads then. -/
def Event.shown? : Event → Option Registry
  | prompt _ _ r => some r
  | _ => none

/-- The registries at the reads so far, the latest first. -/
def World.shown (w : World) : List Registry := w.log.filterMap Event.shown?

/-- The line that is written in an event. -/
def Event.written? : Event → Option String
  | write line => some line
  | _ => none

def World.lines (w : World) : List String := w.events.filterMap Event.written?

theorem Request.answer_of_isQuery {q : Request} (h : q.isQuery) (r : Registry) :
    (q.answer r).2 = r := by
  cases q with
  | register | deregister | update => cases h
  | lookup | contains | count | list | misnamed | malformed => rfl

theorem Registry.after_of_quiet {os : List Outside} (hos : ∀ o ∈ os, o.isQuiet) (r : Registry) :
    r.after os = r := by
  induction os with
  | nil => rfl
  | cons o os ih =>
    obtain ⟨ho, hrest⟩ := List.forall_mem_cons.1 hos
    cases o with
    | clock t => exact ih hrest
    | request q =>
      show Registry.after (q.answer r).2 os = r
      rw [Request.answer_of_isQuery ho]
      exact ih hrest

theorem filterMap_replies {α : Type} {f : Event → Option α} (hf : ∀ q r, f (.reply q r) = none)
    {replies : List Event} (h : ∀ e ∈ replies, e.isReply) : replies.filterMap f = [] := by
  apply List.filterMap_eq_nil_iff.2
  intro e he
  have hreply := h e he
  cases e with
  | reply q r => exact hf q r
  | prompt | input | write | created | removed => cases hreply

namespace World

variable {w w' : World} {shell : Shell} {parent : Option SessionId} {p id : SessionId}
  {s c : Session} {e : ShellError}

/-- Steps of other parties set the clock, change the registry and are recorded; that is all. -/
theorem outsides_eq (os : List Outside) (w : World) :
    ∃ replies : List Event, (∀ e ∈ replies, e.isReply) ∧
      os.foldl outside w = { w with
        registry := w.registry.after os
        now := w.now.after os
        log := replies ++ w.log } := by
  induction os generalizing w with
  | nil => exact ⟨[], by simp, rfl⟩
  | cons o os ih =>
    cases o with
    | clock t => exact ih (w.outside (.clock t))
    | request q =>
      obtain ⟨replies, hreplies, e⟩ := ih (w.outside (.request q))
      refine ⟨replies ++ [.reply q (q.answer w.registry).1], fun e he => ?_, ?_⟩
      · rcases List.mem_append.1 he with he | he
        · exact hreplies e he
        · rw [List.mem_singleton.1 he]
          rfl
      · rw [List.foldl_cons, e, List.append_assoc]
        rfl

theorem outsides_of_quiet {os : List Outside} (hos : ∀ o ∈ os, o.isQuiet) (w : World) :
    ∃ replies : List Event, (∀ e ∈ replies, e.isReply) ∧
      os.foldl outside w = { w with now := w.now.after os, log := replies ++ w.log } := by
  obtain ⟨replies, hreplies, e⟩ := outsides_eq os w
  refine ⟨replies, hreplies, ?_⟩
  rw [e, Registry.after_of_quiet hos]

theorem lines_record (w : World) (e : Event) :
    (w.record e).lines = w.lines ++ e.written?.toList := by
  rw [lines, events, record, List.reverse_cons, List.filterMap_append]
  cases hwritten : e.written? <;> simp [lines, events, hwritten]

theorem lines_outsides (os : List Outside) (w : World) : (os.foldl outside w).lines = w.lines := by
  obtain ⟨replies, hreplies, e⟩ := outsides_eq os w
  rw [e]
  simp [lines, events, filterMap_replies (f := Event.written?) (fun _ _ => rfl) hreplies]

theorem lines_write (w : World) (line : String) : (w.write line).lines = w.lines ++ [line] := by
  rw [write_eq, lines_outsides]
  exact lines_record w (.write line)

theorem lines_writeAll (w : World) (lines : List String) :
    (w.writeAll lines).lines = w.lines ++ lines := by
  induction lines generalizing w with
  | nil => simp [writeAll]
  | cons line lines ih =>
    show ((w.write line).writeAll lines).lines = _
    rw [ih, lines_write, List.append_assoc]
    rfl

theorem lines_retire (w : World) (id : SessionId) : (w.retire id).lines = w.lines := by
  cases hf : w.registry.find? id with
  | none => rw [retire_of_missing hf]
  | some s =>
    rw [retire_of_find? hf, lines_record]
    exact List.append_nil _

theorem Quiet.write_eq (h : w.Quiet) (line : String) :
    ∃ replies : List Event, (∀ e ∈ replies, e.isReply) ∧
      w.write line = { w with
        now := w.now.after (w.onWrite (w.written + 1))
        written := w.written + 1
        log := replies ++ .write line :: w.log } :=
  outsides_of_quiet (h.2 _) { w.record (.write line) with written := w.written + 1 }

theorem Quiet.read_eq (h : w.Quiet) {entry : Entry} {rest : List Entry}
    (hs : w.script = entry :: rest) (own : SessionId) (prompt : String) :
    ∃ replies : List Event, (∀ e ∈ replies, e.isReply) ∧
      w.read own prompt = (entry.outcome, { w with
        script := rest
        now := w.now.after entry.before
        log := .input own entry.outcome ::
          (replies ++ .prompt own prompt w.registry :: w.log) }) := by
  have hquiet : ∀ o ∈ entry.before, o.isQuiet := h.1 entry (by simp [hs])
  obtain ⟨replies, hreplies, e⟩ :=
    outsides_of_quiet hquiet { w.record (.prompt own prompt w.registry) with script := rest }
  refine ⟨replies, hreplies, ?_⟩
  rw [read_of_cons hs, e]
  rfl

/-- A quiet world with the given registries, the present one and those at the reads so far. -/
structure Still (r : Registry) (rs : List Registry) (w : World) : Prop where
  quiet : w.Quiet
  registry : w.registry = r
  shown : w.shown = rs

namespace Still

variable {r : Registry} {rs : List Registry}

theorem read (h : w.Still r rs) (own : SessionId) (prompt : String) :
    (w.read own prompt).2.Still r (r :: rs) := by
  obtain ⟨hquiet, rfl, rfl⟩ := h
  cases hs : w.script with
  | nil =>
    rw [read_of_nil hs]
    exact ⟨hquiet, rfl, rfl⟩
  | cons entry rest =>
    obtain ⟨replies, hreplies, e⟩ := hquiet.read_eq hs own prompt
    rw [e]
    refine ⟨⟨fun e he => hquiet.1 e (by simp [hs, he]), hquiet.2⟩, rfl, ?_⟩
    simp [World.shown, List.filterMap_cons, List.filterMap_append, Event.shown?,
      filterMap_replies (f := Event.shown?) (fun _ _ => rfl) hreplies]

theorem write (h : w.Still r rs) (line : String) : (w.write line).Still r rs := by
  obtain ⟨hquiet, rfl, rfl⟩ := h
  obtain ⟨replies, hreplies, e⟩ := hquiet.write_eq line
  rw [e]
  refine ⟨hquiet, rfl, ?_⟩
  simp [World.shown, List.filterMap_cons, List.filterMap_append, Event.shown?,
    filterMap_replies (f := Event.shown?) (fun _ _ => rfl) hreplies]

theorem writeAll (h : w.Still r rs) (lines : List String) : (w.writeAll lines).Still r rs :=
  writeAll_of_write (fun _ line hw => hw.write line) lines h

theorem setRegistry (h : w.Still r rs) (r' : Registry) : (w.setRegistry r').Still r' rs :=
  ⟨h.quiet, rfl, h.shown⟩

theorem record (h : w.Still r rs) {e : Event} (he : e.isTurnover) : (w.record e).Still r rs := by
  refine ⟨h.quiet, h.registry, ?_⟩
  rw [← h.shown]
  cases e with
  | created | removed => rfl
  | prompt | input | write | reply => cases he

theorem create_ok (h : w.Still r rs) (hc : w.create shell parent = (.ok s, w')) :
    w'.Still (r.insert s) rs ∧ r.find? s.id = none ∧ s.child = none ∧ s.parent = parent := by
  obtain ⟨hchild, hparent⟩ := links_of_create hc
  obtain ⟨ids, -, hfree, -, rfl⟩ := World.create_ok hc
  rw [h.registry] at hfree
  have hregistry : (w.enter s ids).registry = r.insert s := congrArg (Keyed.insert · s) h.registry
  have henter : (w.enter s ids).Still (r.insert s) rs := ⟨h.quiet, hregistry, h.shown⟩
  exact ⟨henter.writeAll _, hfree, hchild, hparent⟩

theorem create_error (h : w.Still r rs) (he : w.create shell parent = (.error e, w')) :
    w'.Still r rs := by
  obtain ⟨ids, -, rfl, -⟩ := World.create_error he
  exact ⟨h.quiet, h.registry, h.shown⟩

theorem createChild_ok (h : w.Still r rs) (hc : w.createChild shell p = (.ok c, w')) :
    w'.Still (r.adopt p c) rs ∧ r.find? c.id = none ∧ c.child = none ∧ c.parent = some p ∧
      ∃ s, r.find? p = some s ∧ s.child = none := by
  obtain ⟨s, -, w₁, hs, hsc, hnew, -, -, rfl⟩ := World.createChild_ok hc
  obtain ⟨h₁, hfree, hchild, hparent⟩ := h.create_ok hnew
  rw [h.registry] at hs
  refine ⟨?_, hfree, hchild, hparent, s, hs, hsc⟩
  rw [h₁.registry]
  exact h₁.setRegistry _

/-- Where no other party interferes, a child that has been registered can be linked. -/
theorem createChild_eq (h : w.Still r rs) (hs : r.find? p = some s) (hsc : s.child = none) :
    w.createChild shell p =
      match w.create shell (some p) with
      | (.ok c, w') => (.ok c, w'.setRegistry (r.adopt p c))
      | (.error e, w') => (.error e, w') := by
  unfold World.createChild
  rw [h.registry, hs]
  dsimp only
  rw [hsc]
  rcases hc : w.create shell (some p) with ⟨e | c, w'⟩
  · rfl
  · obtain ⟨h', hfree, -⟩ := h.create_ok hc
    have hne : c.id ≠ p := Keyed.ne_of_missing hfree hs
    -- nothing has happened to the parent during the birth notice
    have hfind : w'.registry.find? p = some s := by
      rw [h'.registry, Keyed.find?_insert, if_neg hne, hs]
    simp only [Registry.link, hfind, hsc]
    rw [h'.registry]
    rfl

theorem createChild_error (h : w.Still r rs) (he : w.createChild shell p = (.error e, w')) :
    w'.Still r rs := by
  obtain rfl | ⟨-, -, -, hc⟩ | ⟨s, c, w₁, hs, hsc, hc, -, -⟩ := World.createChild_error he
  · exact h
  · exact h.create_error hc
  · rw [h.registry] at hs
    -- where no other party interferes a created child is never discarded
    rw [h.createChild_eq hs hsc, hc] at he
    cases he

theorem retire (h : w.Still r rs) (hs : r.find? id = some s) :
    (w.retire id).Still (r.withdraw s) rs := by
  obtain ⟨hquiet, rfl, hrs⟩ := h
  rw [retire_of_find? hs]
  exact (setRegistry ⟨hquiet, rfl, hrs⟩ _).record rfl

theorem teardownAll (h : w.Still r rs) (sessions : List Session) :
    (World.teardownAll sessions w).2.Still (r.sweep sessions) rs := by
  induction sessions with
  | nil => exact h
  | cons s deeper ih =>
    have hretire :
        ((World.teardownAll deeper w).2.retire s.id).Still (r.sweep (s :: deeper)) rs := by
      cases hs : (r.sweep deeper).find? s.id with
      | none =>
        rw [retire_of_missing (ih.registry ▸ hs), Registry.sweep_cons_of_missing hs]
        exact ih
      | some t =>
        rw [Registry.sweep_cons_of_find? hs]
        exact ih.retire hs
    rcases teardownAll_cons s deeper w with e | e <;> rw [e]
    · exact hretire
    · exact hretire.writeAll _

theorem teardown (h : w.Still r rs) (id : SessionId) :
    (w.teardown id).2.Still (r.sweep (r.lineage id)) rs := by
  rw [World.teardown, h.registry]
  exact h.teardownAll _

end Still
end World
end SessionShell
