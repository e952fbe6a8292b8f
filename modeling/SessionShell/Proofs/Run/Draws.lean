import SessionShell.Proofs.Run.Chronicle
import SessionShell.Proofs.Run.Course
import SessionShell.Proofs.Run.Numbering

namespace SessionShell

namespace IdSource

/-- The identifiers drawn at a time from one state of the source to another. -/
def given (t : Instant) (ids ids' : IdSource) : List SessionId :=
  (List.range' (ids.drawn + 1) (ids'.drawn - ids.drawn)).map fun n => ⟨t.stamp, UInt32.ofNat n⟩

variable {t : Instant} {ids ids' : IdSource}

theorem given_self : given t ids ids = [] := by simp [given]

theorem given_cons (h : ids.drawn < ids'.drawn) :
    given t ids ids' = (ids.draw t).1 :: given t (ids.draw t).2 ids' := by
  have hcount : ids'.drawn - ids.drawn = ids'.drawn - (ids.draw t).2.drawn + 1 := by
    simp only [draw]
    omega
  rw [given, hcount, List.range'_succ]
  rfl

theorem mem_given (h : ids.drawn < ids'.drawn) :
    ⟨t.stamp, UInt32.ofNat ids'.drawn⟩ ∈ given t ids ids' := by
  apply List.mem_map.2
  refine ⟨ids'.drawn, List.mem_range'_1.2 ?_, rfl⟩
  omega

theorem lt_firstFree (taken : SessionId → Bool) (t : Instant) (spare : Nat) (ids : IdSource) :
    ids.drawn < (firstFree taken t spare ids).2.drawn := by
  rcases h : firstFree taken t spare ids with ⟨o, ids'⟩
  exact (firstFree_spec h).1

/-- Which identifier is the first free one depends only on the candidates that are drawn. -/
theorem firstFree_congr {taken taken' : SessionId → Bool} {spare : Nat}
    (h : ∀ id ∈ given t ids (firstFree taken t spare ids).2, taken id = taken' id) :
    firstFree taken t spare ids = firstFree taken' t spare ids := by
  induction spare generalizing ids with
  | zero =>
    rw [given_cons (lt_firstFree ..)] at h
    have hfirst : taken (ids.draw t).1 = taken' (ids.draw t).1 := h _ (List.mem_cons_self ..)
    simp only [firstFree, hfirst]
  | succ spare ih =>
    rw [given_cons (lt_firstFree ..)] at h
    obtain ⟨hfirst, hrest⟩ := List.forall_mem_cons.1 h
    simp only [firstFree] at hrest ⊢
    rw [← hfirst]
    split
    · rename_i htaken
      exact ih (by simpa [htaken] using hrest)
    · rfl

end IdSource

namespace World

theorem ids_writeAll (w : World) (lines : List String) : (w.writeAll lines).ids = w.ids :=
  (terminalInvariant_ids w.ids).writeAll lines rfl

theorem ids_create (shell : Shell) (parent : Option SessionId) (w : World) :
    (w.create shell parent).2.ids =
      (IdSource.firstFree w.registry.contains w.now (maxCandidates - 1) w.ids).2 := by
  rw [create_eq]
  rcases IdSource.firstFree w.registry.contains w.now (maxCandidates - 1) w.ids with ⟨_ | id, ids⟩
  · rfl
  · exact ids_writeAll ..

/-- The identifiers drawn at the time of `w` until the world is `w'`. -/
def drawnUntil (w w' : World) : List SessionId := IdSource.given w.now w.ids w'.ids

theorem mem_drawnUntil_of_create {shell : Shell} {parent : Option SessionId} {w w₁ : World}
    {s : Session} (h : w.create shell parent = (.ok s, w₁)) : s.id ∈ w.drawnUntil w₁ := by
  obtain ⟨ids, hids, -, hs, rfl⟩ := create_ok h
  rw [drawnUntil, ids_writeAll, hs]
  exact IdSource.mem_given hids

theorem mem_drawnUntil_of_createChild {shell : Shell} {p : SessionId} {w w₁ : World} {c : Session}
    (h : w.createChild shell p = (.ok c, w₁)) : c.id ∈ w.drawnUntil w₁ := by
  obtain ⟨-, -, w₂, -, -, hnew, -, -, rfl⟩ := createChild_ok h
  have hmem := mem_drawnUntil_of_create hnew
  exact hmem

/-- The identifiers that a session and those below it draw, on at most `n` unread entries. -/
def draws (shell : Shell) : (n : Nat) → SessionId → World → List SessionId
  | 0, _, _ => []
  | n + 1, own, w =>
    match w.ask shell own with
    | (.line text, w₁) =>
      match w₁.deed shell own text with
      | .say lines => draws shell n own (w₁.writeAll lines)
      | .leave => []
      | .prompt prompt => draws shell n own (w₁.rename own prompt)
      | .shell =>
        match w₁.createChild shell own with
        | (.error e, w₂) => w₁.drawnUntil w₂ ++ draws shell n own (w₂.write e.message)
        | (.ok c, w₂) =>
          w₁.drawnUntil w₂ ++ draws shell n c.id w₂ ++
            match w₂.run shell c.id with
            | (.aborted, _) => []
            | (o, w₃) => draws shell n own ((w₃.teardown c.id).2.writeAll o.report)
    | _ => []

def drawn (shell : Shell) (w : World) : List SessionId :=
  match w.create shell none with
  | (.error _, w₁) => w.drawnUntil w₁
  | (.ok s, w₁) => w.drawnUntil w₁ ++ draws shell w₁.script.length s.id w₁

theorem drawn_of_error {shell : Shell} {w w₁ : World} {e : ShellError}
    (he : w.create shell none = (.error e, w₁)) : w.drawn shell = w.drawnUntil w₁ := by
  simp only [drawn, he]

theorem drawn_of_create {shell : Shell} {w w₁ : World} {s : Session}
    (hc : w.create shell none = (.ok s, w₁)) :
    w.drawn shell = w.drawnUntil w₁ ++ draws shell w₁.script.length s.id w₁ := by
  simp only [drawn, hc]

end World

/-- From `w` to `v` the identifiers `ids` are drawn, and sessions are created under none but them.
-/
structure Draws (w : World) (ids : List SessionId) (v : World) : Prop where
  le : w.ids.drawn ≤ v.ids.drawn
  seqs : ids.map SessionId.seq =
    (List.range' (w.ids.drawn + 1) (v.ids.drawn - w.ids.drawn)).map UInt32.ofNat
  issued : ∃ new, births v.events = births w.events ++ new ∧ ∀ s ∈ new, s.id ∈ ids

namespace Draws

variable {shell : Shell} {w v u : World} {ids ids' : List SessionId}

theorem of_removals (h : ∀ J : World → Prop, RemovalInvariant J → J w → J v) : Draws w [] v := by
  obtain ⟨hbirths, hids⟩ : births v.events = births w.events ∧ v.ids = w.ids :=
    h _ (.of_births fun bs ids => bs = births w.events ∧ ids = w.ids) ⟨rfl, rfl⟩
  exact ⟨by rw [hids], by simp [hids], [], by simp [hbirths], by simp⟩

theorem trans (h : Draws w ids v) (h' : Draws v ids' u) : Draws w (ids ++ ids') u := by
  obtain ⟨hle, hseqs, new, hnew, hids⟩ := h
  obtain ⟨hle', hseqs', new', hnew', hids'⟩ := h'
  refine ⟨hle.trans hle', ?_, new ++ new', by rw [hnew', hnew, List.append_assoc], ?_⟩
  · have hcount : u.ids.drawn - w.ids.drawn =
        (v.ids.drawn - w.ids.drawn) + (u.ids.drawn - v.ids.drawn) := by omega
    have hfirst : v.ids.drawn + 1 = w.ids.drawn + 1 + (v.ids.drawn - w.ids.drawn) := by omega
    rw [List.map_append, hseqs, hseqs', hcount, hfirst, ← List.map_append, List.range'_append_1]
  · intro s hs
    rcases List.mem_append.1 hs with hs | hs
    · exact List.mem_append_left _ (hids s hs)
    · exact List.mem_append_right _ (hids' s hs)

theorem writeAll (w : World) (lines : List String) : Draws w [] (w.writeAll lines) :=
  of_removals fun _ h => h.writeAll lines

theorem ask {own : SessionId} {r : ReadOutcome} (h : w.ask shell own = (r, v)) : Draws w [] v := by
  obtain ⟨-, rfl⟩ := Prod.mk.inj h
  exact of_removals fun _ h => h.read _ _

theorem rename (w : World) (own : SessionId) (text : String) : Draws w [] (w.rename own text) := by
  apply of_removals
  intro J h hw
  cases hs : w.registry.find? own with
  | none =>
    rw [World.rename_of_missing hs]
    exact h.write _ hw
  | some s =>
    rw [World.rename_of_find? hs]
    exact h.change _ _ hw

theorem create {parent : Option SessionId} {o : Except ShellError Session}
    (h : w.create shell parent = (o, v)) : Draws w (w.drawnUntil v) v := by
  cases o with
  | error e =>
    obtain ⟨ids, hids, rfl, -⟩ := World.create_error h
    exact ⟨hids.le, by simp [World.drawnUntil, IdSource.given], [], by simp; rfl, by simp⟩
  | ok s =>
    have hid := World.mem_drawnUntil_of_create h
    obtain ⟨ids, hids, -, -, rfl⟩ := World.create_ok h
    have hnotice := writeAll (w.enter s ids) s.birthNotice
    -- nobody else is created while the birth is announced
    obtain ⟨new, hnew, hnone⟩ := hnotice.issued
    obtain rfl : new = [] := List.eq_nil_iff_forall_not_mem.2 fun s hs => nomatch hnone s hs
    refine ⟨?_, ?_, [s], ?_, ?_⟩
    · rw [World.ids_writeAll]
      exact hids.le
    · simp [World.drawnUntil, IdSource.given]
    · rw [hnew, births_enter, List.append_nil]
    · intro s' hs'
      rwa [List.mem_singleton.1 hs']

theorem createChild {p : SessionId} {o : Except ShellError Session}
    (h : w.createChild shell p = (o, v)) : Draws w (w.drawnUntil v) v := by
  have hafter {w₁ : World} {parent : Option SessionId} {o : Except ShellError Session}
      (hnew : w.create shell parent = (o, w₁))
      (hrest : ∀ J : World → Prop, RemovalInvariant J → J w₁ → J v) :
      Draws w (w.drawnUntil v) v := by
    have hids : v.ids = w₁.ids := hrest _ (.of_births fun _ ids => ids = w₁.ids) rfl
    have := (create hnew).trans (of_removals hrest)
    rw [List.append_nil] at this
    rwa [World.drawnUntil, hids]
  cases o with
  | error e =>
    obtain rfl | ⟨-, -, -, hnew⟩ | ⟨-, c, w₁, -, -, hnew, -, rfl⟩ := World.createChild_error h
    · rw [World.drawnUntil, IdSource.given_self]
      exact of_removals fun _ _ hw => hw
    · exact create hnew
    · exact hafter hnew fun _ h => h.discard c.id
  | ok c =>
    obtain ⟨-, -, w₁, -, -, hnew, -, -, rfl⟩ := World.createChild_ok h
    exact hafter hnew fun _ h => h.change _ _

end Draws

section

variable {shell : Shell} {own : SessionId} {w w₁ w₂ w₃ v : World} {n : Nat} {text : String}

namespace World

theorem draws_stopped {r : ReadOutcome} {o : Outcome Unit} (hask : w.ask shell own = (r, w₁))
    (ho : r.verdict? = some o) : w.draws shell n own = [] := by
  cases n with
  | zero => rfl
  | succ n =>
    cases r with
    | line text => cases ho
    | endOfInput | failed | aborted => simp only [draws, hask]

theorem draws_left (hask : w.ask shell own = (.line text, w₁))
    (hdeed : w₁.deed shell own text = .leave) : w.draws shell (n + 1) own = [] := by
  simp only [draws, hask, hdeed]

theorem draws_said {lines : List String} (hask : w.ask shell own = (.line text, w₁))
    (hdeed : w₁.deed shell own text = .say lines) :
    w.draws shell (n + 1) own = (w₁.writeAll lines).draws shell n own := by
  simp only [draws, hask, hdeed]

theorem draws_renamed {prompt : String} (hask : w.ask shell own = (.line text, w₁))
    (hdeed : w₁.deed shell own text = .prompt prompt) :
    w.draws shell (n + 1) own = (w₁.rename own prompt).draws shell n own := by
  simp only [draws, hask, hdeed]

theorem draws_refused {e : ShellError} (hask : w.ask shell own = (.line text, w₁))
    (hdeed : w₁.deed shell own text = .shell)
    (he : w₁.createChild shell own = (.error e, w₂)) :
    w.draws shell (n + 1) own =
      w₁.drawnUntil w₂ ++ (w₂.write e.message).draws shell n own := by
  simp only [draws, hask, hdeed, he]

theorem draws_resumed {c : Session} {o : Outcome Unit} (hask : w.ask shell own = (.line text, w₁))
    (hdeed : w₁.deed shell own text = .shell) (hc : w₁.createChild shell own = (.ok c, w₂))
    (hchild : Course shell c.id w₂ o w₃) (ho : o ≠ .aborted) :
    w.draws shell (n + 1) own = w₁.drawnUntil w₂ ++ w₂.draws shell n c.id ++
      ((w₃.teardown c.id).2.writeAll o.report).draws shell n own := by
  simp only [draws, hask, hdeed, hc, run_of_course hchild]

theorem draws_forsaken {c : Session} (hask : w.ask shell own = (.line text, w₁))
    (hdeed : w₁.deed shell own text = .shell) (hc : w₁.createChild shell own = (.ok c, w₂))
    (hchild : Course shell c.id w₂ .aborted w₃) :
    w.draws shell (n + 1) own = w₁.drawnUntil w₂ ++ w₂.draws shell n c.id := by
  simp only [draws, hask, hdeed, hc, run_of_course hchild, List.append_nil]

theorem script_course_le {o : Outcome Unit} (h : Course shell own w o v)
    (hn : w.script.length ≤ n) : v.script.length ≤ n := by
  have hloop := script_loop_le shell w.turns own {} hn
  have hrun : World.loop shell w.turns own {} w = (o, v) := run_of_course h
  rwa [hrun] at hloop

theorem script_createChild_le {o : Except ShellError Session}
    (hc : w.createChild shell own = (o, w₁)) (hn : w.script.length ≤ n) :
    w₁.script.length ≤ n := by
  have hscript := (worldInvariant_script_le n).createChild shell own hn
  rwa [hc] at hscript

theorem script_close_le (id : SessionId) (report : List String) (hn : w.script.length ≤ n) :
    ((w.teardown id).2.writeAll report).script.length ≤ n :=
  (worldInvariant_script_le n).writeAll report ((worldInvariant_script_le n).teardown id hn)

theorem entries_after_line (hask : w.ask shell own = (.line text, w₁))
    (hn : w.script.length ≤ n) : ∃ k, n = k + 1 ∧ w₁.script.length ≤ k := by
  have hlt := script_of_ask_line hask
  exact ⟨n - 1, by omega, by omega⟩

end World

/-- A session and those below it draw what is found along its course, given entries enough. -/
theorem Course.draws {o : Outcome Unit} (h : Course shell own w o v)
    (hn : w.script.length ≤ n) : Draws w (w.draws shell n own) v := by
  induction h generalizing n with
  | stopped hask ho =>
    rw [World.draws_stopped hask ho]
    exact .ask hask
  | left hask hdeed =>
    obtain ⟨k, rfl, -⟩ := World.entries_after_line hask hn
    rw [World.draws_left hask hdeed]
    exact .ask hask
  | @said _ w w₁ v o text lines hask hdeed _ ih =>
    obtain ⟨k, rfl, hk⟩ := World.entries_after_line hask hn
    rw [World.draws_said hask hdeed]
    have hscript := (World.worldInvariant_script_le k).writeAll lines hk
    exact ((Draws.ask hask).trans (.writeAll w₁ lines)).trans (ih hscript)
  | @renamed own w w₁ v o text prompt hask hdeed _ ih =>
    obtain ⟨k, rfl, hk⟩ := World.entries_after_line hask hn
    rw [World.draws_renamed hask hdeed]
    have hscript := World.script_rename_le own prompt hk
    exact ((Draws.ask hask).trans (.rename w₁ own prompt)).trans (ih hscript)
  | @refused own w w₁ w₂ v o text e hask hdeed he _ ih =>
    obtain ⟨k, rfl, hk⟩ := World.entries_after_line hask hn
    rw [World.draws_refused hask hdeed he]
    have hscript := World.script_createChild_le he hk
    have hwrite := (World.worldInvariant_script_le k).write e.message hscript
    have hreport : Draws w₂ [] (w₂.write e.message) := .writeAll w₂ [e.message]
    exact ((Draws.ask hask).trans (.createChild he)).trans (hreport.trans (ih hwrite))
  | @resumed own w w₁ w₂ w₃ v o oc text c hask hdeed hc hchild hoc _ ihc ih =>
    obtain ⟨k, rfl, hk⟩ := World.entries_after_line hask hn
    rw [World.draws_resumed hask hdeed hc hchild hoc]
    have hscript := World.script_createChild_le hc hk
    have hend := World.script_close_le c.id oc.report (World.script_course_le hchild hscript)
    -- the child's draws come before those of the rest, on the entries that it leaves
    have hclose : Draws w₃ [] ((w₃.teardown c.id).2.writeAll oc.report) :=
      .of_removals fun _ h hw => h.writeAll _ (h.teardown _ hw)
    exact (((Draws.ask hask).trans (.createChild hc)).trans (ihc hscript)).trans
      (hclose.trans (ih hend))
  | @forsaken own w w₁ w₂ v text c hask hdeed hc hchild ihc =>
    obtain ⟨k, rfl, hk⟩ := World.entries_after_line hask hn
    rw [World.draws_forsaken hask hdeed hc hchild]
    have hscript := World.script_createChild_le hc hk
    have hretire : Draws v [] (v.retire c.id) := .of_removals fun _ h => h.retire _
    have := (((Draws.ask hask).trans (.createChild hc)).trans (ihc hscript)).trans hretire
    rwa [List.append_nil] at this

theorem World.draws_drive (shell : Shell) (own : SessionId) (w : World) :
    Draws w (w.draws shell w.script.length own) (w.drive (run shell) own).2 := by
  have hcourse := (w.course_of_run shell own).draws (Nat.le_refl _)
  unfold drive
  rcases hrun : w.run shell own with ⟨o, v⟩
  rw [hrun] at hcourse
  have hclose {v' : World} (h : Draws v [] v') :
      Draws w (w.draws shell w.script.length own) v' := by
    have := hcourse.trans h
    rwa [List.append_nil] at this
  cases o with
  | ok | failed => exact hclose (.of_removals fun _ h => h.teardown own)
  | aborted => exact hclose (.of_removals fun _ h => h.retire own)

end

/-- The sessions of a run bear identifiers that it draws, which are all that the source gives from
its beginning to its end. -/
theorem World.draws_openTop (shell : Shell) (w : World) :
    Draws w (w.drawn shell) (w.openTop shell).2 := by
  unfold openTop openBy
  rcases hc : w.create shell none with ⟨e | s, w₁⟩
  · rw [drawn_of_error hc]
    exact .create hc
  · rw [drawn_of_create hc]
    exact (Draws.create hc).trans (w₁.draws_drive shell s.id)

end SessionShell
