import SessionShell.Proofs.Run.Course

namespace SessionShell

/-- Whether every read to come yields a line such as `P` says. -/
def World.Reads (P : String → Prop) (w : World) : Prop :=
  ∀ e ∈ w.script, ∃ text, e.outcome = .line text ∧ P text

namespace World

variable {P : String → Prop} {shell : Shell} {own : SessionId} {w w' : World} {r : ReadOutcome}

theorem reads_start {m : Manager} {script : List Entry} {onWrite : Nat → List Outside}
    {lines : List String} (h : script.map Entry.outcome = lines.map .line)
    (hlines : ∀ text ∈ lines, P text) : (start m script onWrite).Reads P := by
  intro e he
  have hline : e.outcome ∈ lines.map ReadOutcome.line := h ▸ List.mem_map_of_mem he
  obtain ⟨text, htext, heq⟩ := List.mem_map.1 hline
  exact ⟨text, heq.symm, hlines text htext⟩

theorem worldInvariant_reads (P : String → Prop) : WorldInvariant (Reads P) where
  write {w} line h := by
    unfold Reads
    rw [write_eq, script_outsides]
    exact h
  manager _ h := h
  record _ h := h

theorem Reads.ask (h : w.Reads P) (hask : w.ask shell own = (r, w')) :
    w'.Reads P ∧ (r = .endOfInput ∨ ∃ text, r = .line text ∧ P text) := by
  unfold World.ask at hask
  cases hs : w.script with
  | nil =>
    rw [read_of_nil hs] at hask
    obtain ⟨rfl, rfl⟩ := Prod.mk.inj hask
    exact ⟨h, .inl rfl⟩
  | cons entry rest =>
    rw [read_of_cons hs] at hask
    obtain ⟨rfl, rfl⟩ := Prod.mk.inj hask
    refine ⟨fun e he => ?_, .inr (h entry (by simp [hs]))⟩
    rw [record, script_outsides] at he
    exact h e (hs ▸ List.mem_cons_of_mem _ he)

theorem Reads.rename (h : w.Reads P) (own : SessionId) (text : String) :
    (w.rename own text).Reads P := by
  unfold World.rename
  split
  · exact (worldInvariant_reads P).setRegistry _ h
  · exact (worldInvariant_reads P).write _ h

theorem Reads.createChild {o : Except ShellError Session} (h : w.Reads P)
    (hc : w.createChild shell own = (o, w')) : w'.Reads P := by
  have hchild := (worldInvariant_reads P).createChild shell own h
  rwa [hc] at hchild

end World

theorem Course.reads {P : String → Prop} {shell : Shell} {own : SessionId} {w w' : World}
    {o : Outcome Unit} (h : Course shell own w o w') (hw : w.Reads P) :
    o = .ok () ∧ w'.Reads P := by
  induction h with
  | stopped hask ho =>
    obtain ⟨hw', rfl | ⟨text, rfl, -⟩⟩ := hw.ask hask
    · exact ⟨(Option.some.inj ho).symm, hw'⟩
    · cases ho
  | left hask _ => exact ⟨rfl, (hw.ask hask).1⟩
  | said hask _ _ ih => exact ih ((World.worldInvariant_reads P).writeAll _ (hw.ask hask).1)
  | renamed hask _ _ ih => exact ih ((hw.ask hask).1.rename _ _)
  | refused hask _ he _ ih =>
    exact ih ((World.worldInvariant_reads P).write _ ((hw.ask hask).1.createChild he))
  | resumed hask _ hc _ _ _ ihc ih =>
    have hchild := (ihc ((hw.ask hask).1.createChild hc)).2
    exact ih ((World.worldInvariant_reads P).writeAll _
      ((World.worldInvariant_reads P).teardown _ hchild))
  | forsaken hask _ hc _ ihc => cases (ihc ((hw.ask hask).1.createChild hc)).1

/-- A top-most session that can read to the end of the input is torn down then. -/
theorem World.openTop_of_reads {P : String → Prop} {shell : Shell} {w w₁ : World} {s : Session}
    (hw : w.Reads P) (hs : w.create shell none = (.ok s, w₁)) :
    w₁.Reads P ∧ ∃ w₂, Course shell s.id w₁ (.ok ()) w₂ ∧
      w.openTop shell = (.ok s.id, (w₂.teardown s.id).2) := by
  have hreads : w₁.Reads P := by
    have hcreate := (worldInvariant_reads P).create shell none hw
    rwa [hs] at hcreate
  have hcourse := w₁.course_of_run shell s.id
  obtain ⟨hok, -⟩ := hcourse.reads hreads
  rw [hok] at hcourse
  refine ⟨hreads, _, hcourse, ?_⟩
  unfold openTop openBy drive
  rw [hs]
  dsimp only
  rcases hrun : w₁.run shell s.id with ⟨o, w₂⟩
  rw [hrun] at hok
  cases hok
  rfl

end SessionShell
