import SessionShell.Proofs.Run.Manifests
import SessionShell.Proofs.Run.Readable
import SessionShell.Proofs.SingleLine

namespace SessionShell

/-- A shell with the modules of its own and with no others. -/
def Shell.standard (prompt : String) : Shell := { resolver := .builtin, prompt }

theorem Resolver.resolve_builtin (name : String) :
    (∃ b, builtin.resolve name = .ok (.builtin b)) ∨ builtin.resolve name = .ok (.core .echo) ∨
      builtin.resolve name = .ok (.core .date) ∨ builtin.resolve name = .ok .unresolved := by
  unfold resolve
  split
  case isTrue => exact .inr (.inr (.inr rfl))
  case isFalse =>
    cases hb : Builtin.ofName? name with
    | some b => exact .inl ⟨b, rfl⟩
    | none =>
      by_cases hcore : name ≠ "echo" ∧ name ≠ "date"
      · simp [builtin, loadFirst, Catalog.provider, Catalog.load_builtin hcore]
      · obtain rfl | rfl : name = "echo" ∨ name = "date" := by
          simpa only [ne_eq, not_and_or, not_not] using hcore
        · exact .inr (.inl rfl)
        · exact .inr (.inr (.inl rfl))

section

variable {prompt line : String} {known : Known} {own : SessionId} {now : Instant}
  {lines : List String} {a : Arguments}

/-- Whether all positional arguments are on one line. -/
def Arguments.SingleLines (a : Arguments) : Prop := ∀ word ∈ a.positional, SingleLine word

theorem singleLine_command (h : SingleLine line) : SingleLine (CommandLine.parse line).command :=
  fun hc => h (CommandLine.mem_of_mem_parse (.inl rfl) hc)

theorem singleLines_arguments (h : SingleLine line) :
    (CommandLine.parse line).arguments.SingleLines :=
  fun _ hword hc => h (CommandLine.mem_of_mem_parse (.inr hword) hc)

theorem singleLine_resolutionReport {name : String} (h : SingleLine name) :
    SingleLine (resolutionReport (.standard prompt) name) := by
  have hkind (r : Resolution) : SingleLine (name ++ ": " ++ r.kind.label) := by
    have hlabel (kind : CommandKind) : SingleLine kind.label := by cases kind <;> decide
    simp only [singleLine_append, h, hlabel]
    decide
  unfold resolutionReport Shell.standard
  obtain ⟨b, hr⟩ | hr | hr | hr := Resolver.resolve_builtin name <;> simp only [hr] <;>
    exact hkind _

theorem singleLine_getCommandLines (h : a.SingleLines) :
    ∀ l ∈ getCommandLines (.standard prompt) a, SingleLine l := by
  unfold getCommandLines
  split
  case isTrue => decide
  case isFalse =>
    intro l hl
    obtain ⟨name, hname, rfl⟩ := List.mem_map.1 hl
    exact singleLine_resolutionReport (h name hname)

theorem singleLine_ofInfo (h : a.SingleLines) : ∀ l ∈ Deed.ofInfo known own a, SingleLine l := by
  have hdescribe (id : SessionId) : ∀ l ∈ ((known id).map Session.describe).getD
      ["session " ++ id.text ++ " not found"], SingleLine l := by
    cases known id with
    | none =>
      simp only [Option.map_none, Option.getD_none, List.forall_mem_singleton, singleLine_append,
        SessionId.singleLine_text]
      decide
    | some s => exact s.singleLine_describe
  unfold Deed.ofInfo
  dsimp only
  split
  case h_1 => exact hdescribe own
  case h_2 text rest ha =>
    unfold SessionId.ofText
    cases SessionId.ofText? text with
    | some id => exact hdescribe id
    | none =>
      have htext : SingleLine text := h text (by simp [ha])
      have hmessage :=
        ShellError.singleLine_message (.invalidId text) (by simpa [ShellError.quotes])
      simp only [List.forall_mem_singleton, singleLine_append, hmessage]
      decide

/-- A module of the shell itself writes its arguments or the time, or names an argument. -/
theorem singleLine_ofModule {name : String} {m : Module} (hm : m = .echo ∨ m = .date)
    (hname : SingleLine name) (h : a.SingleLines)
    (hlines : Deed.ofModule name (m.run now a) = .say lines) : ∀ l ∈ lines, SingleLine l := by
  obtain rfl | rfl := hm
  · cases hlines
    simpa [Module.echo] using singleLine_intercalate h
  · cases ha : a.positional with
    | nil =>
      simp only [Module.date, ha] at hlines
      cases hlines
      simp
    | cons extra rest =>
      have hextra : SingleLine extra := h extra (by simp [ha])
      simp only [Module.date, ha] at hlines
      cases hlines
      have hreason :
          SingleLine ("invalid arguments: " ++ ("unexpected argument '" ++ extra ++ "'")) := by
        simp only [singleLine_append, hextra]
        decide
      have hmessage := ShellError.singleLine_message
        (.commandFailed name ("invalid arguments: " ++ ("unexpected argument '" ++ extra ++ "'")))
        (by simp [ShellError.quotes, hname, hreason])
      exact List.forall_mem_singleton.2 hmessage

theorem Deed.singleLine_ofLine (hline : SingleLine line)
    (h : ofLine (.standard prompt) known own now line = .say lines) :
    ∀ l ∈ lines, SingleLine l := by
  have hname := singleLine_command hline
  have ha := singleLines_arguments hline
  unfold ofLine Shell.standard at h
  dsimp only at h
  split at h
  · cases h
    simp
  · obtain ⟨b, hr⟩ | hr | hr | hr := Resolver.resolve_builtin (CommandLine.parse line).command <;>
      rw [hr] at h <;> dsimp only at h
    · cases b with
      | help =>
        cases h
        exact Builtin.singleLine_helpLines
      | getCommand =>
        cases h
        exact singleLine_getCommandLines ha
      | hi =>
        cases h
        decide
      | info =>
        cases h
        exact singleLine_ofInfo ha
      | exit | shell | prompt => cases h
    · exact singleLine_ofModule (.inl rfl) hname ha h
    · exact singleLine_ofModule (.inr rfl) hname ha h
    · cases h
      rw [List.forall_mem_singleton]
      exact ShellError.singleLine_message (.commandNotFound _) (by simpa [ShellError.quotes])

end

def World.Tidy (w : World) : Prop := ∀ line, .write line ∈ w.log → SingleLine line

namespace World

variable {shell : Shell} {own : SessionId} {w w' : World} {line : String} {lines : List String}

theorem log_outsides (w : World) (os : List Outside) :
    ∀ line, .write line ∈ (os.foldl outside w).log ↔ .write line ∈ w.log := by
  obtain ⟨replies, hreplies, h⟩ := outsides_eq os w
  intro line
  have hnone : .write line ∉ replies := fun hmem => by cases hreplies _ hmem
  rw [h]
  simp [hnone]

namespace Tidy

theorem write (h : w.Tidy) (hline : SingleLine line) : (w.write line).Tidy := by
  intro text htext
  rw [write_eq, log_outsides] at htext
  obtain heq | htext := List.mem_cons.1 htext
  · cases heq
    exact hline
  · exact h text htext

theorem writeAll (h : w.Tidy) (hlines : ∀ line ∈ lines, SingleLine line) :
    (w.writeAll lines).Tidy := by
  induction lines generalizing w with
  | nil => exact h
  | cons line lines ih =>
    obtain ⟨hline, hlines⟩ := List.forall_mem_cons.1 hlines
    exact ih (h.write hline) hlines

theorem record (h : w.Tidy) {e : Event} (he : ∀ line, e ≠ .write line) : (w.record e).Tidy := by
  intro line hline
  obtain rfl | hline := List.mem_cons.1 hline
  · exact absurd rfl (he line)
  · exact h line hline

theorem ask {r : ReadOutcome} (h : w.Tidy) (hask : w.ask shell own = (r, w')) : w'.Tidy := by
  unfold World.ask at hask
  cases hs : w.script with
  | nil =>
    rw [read_of_nil hs] at hask
    obtain ⟨-, rfl⟩ := Prod.mk.inj hask
    exact (h.record (by simp)).record (by simp)
  | cons entry rest =>
    rw [read_of_cons hs] at hask
    obtain ⟨-, rfl⟩ := Prod.mk.inj hask
    refine record (fun line hline => ?_) (by simp)
    rw [log_outsides] at hline
    exact h.record (by simp) line hline

theorem retire (h : w.Tidy) (id : SessionId) : (w.retire id).Tidy := by
  cases hs : w.registry.find? id with
  | none => rwa [retire_of_missing hs]
  | some s =>
    rw [retire_of_find? hs]
    exact record (w := w.setRegistry _) h (by simp)

theorem discard (h : w.Tidy) (id : SessionId) : (w.discard id).Tidy := by
  cases hs : w.registry.find? id with
  | none => rwa [discard_of_missing hs]
  | some s =>
    rw [discard_of_find? hs]
    exact record (w := w.setRegistry _) h (by simp)

theorem teardown (h : w.Tidy) (id : SessionId) : (w.teardown id).2.Tidy := by
  unfold World.teardown
  induction w.registry.lineage id with
  | nil => exact h
  | cons s deeper ih =>
    obtain hrest | hrest := teardownAll_cons s deeper w <;> rw [hrest]
    · exact ih.retire s.id
    · exact (ih.retire s.id).writeAll s.singleLine_deathNotice

theorem create {o : Except ShellError Session} {parent : Option SessionId} (h : w.Tidy)
    (hc : w.create shell parent = (o, w')) : w'.Tidy := by
  cases o with
  | error e =>
    obtain ⟨ids, -, rfl, -⟩ := create_error hc
    exact h
  | ok s =>
    obtain ⟨ids, -, -, -, rfl⟩ := create_ok hc
    have henter : (w.enter s ids).Tidy := record (w := { w with toManager := _ }) h (by simp)
    exact henter.writeAll s.singleLine_birthNotice

theorem createChild {o : Except ShellError Session} (h : w.Tidy)
    (hc : w.createChild shell own = (o, w')) : w'.Tidy := by
  cases o with
  | error e =>
    obtain rfl | ⟨-, -, -, hnew⟩ | ⟨-, c, w₁, -, -, hnew, -, rfl⟩ := createChild_error hc
    · exact h
    · exact h.create hnew
    · exact (h.create hnew).discard _
  | ok c =>
    obtain ⟨-, -, w₁, -, -, hnew, -, -, rfl⟩ := createChild_ok hc
    have hw₁ : w₁.Tidy := h.create hnew
    exact hw₁

theorem rename (h : w.Tidy) (text : String) : (w.rename own text).Tidy := by
  cases hs : w.registry.find? own with
  | none =>
    rw [rename_of_missing hs]
    exact h.write (ShellError.singleLine_message _ (by simp [ShellError.quotes]))
  | some s =>
    rw [rename_of_find? hs]
    exact h

end Tidy

/-- What keeps a child from being created is said without any text from elsewhere. -/
theorem quotes_of_createChild {e : ShellError} (h : w.createChild shell own = (.error e, w')) :
    e.quotes = [] := by
  simp only [createChild, Registry.link] at h
  split at h
  · cases h
    rfl
  · split at h
    · cases h
      rfl
    · split at h
      · rename_i hc
        cases h
        obtain ⟨-, -, -, id, rfl⟩ := create_error hc
        rfl
      · split at h
        · cases h
        · rename_i hlink
          cases h
          split at hlink
          · cases hlink
            rfl
          · split at hlink <;> cases hlink
            rfl

end World

theorem Course.tidy {prompt : String} {own : SessionId} {w w' : World} {o : Outcome Unit}
    (h : Course (.standard prompt) own w o w') (hreads : w.Reads SingleLine) (hw : w.Tidy) :
    w'.Tidy := by
  induction h with
  | stopped hask _ => exact hw.ask hask
  | left hask _ => exact hw.ask hask
  | said hask hdeed _ ih =>
    obtain ⟨hreads₁, hline⟩ := hreads.ask hask
    obtain ⟨text, heq, hline⟩ := hline.resolve_left (by simp)
    cases heq
    exact ih ((World.worldInvariant_reads _).writeAll _ hreads₁)
      ((hw.ask hask).writeAll (Deed.singleLine_ofLine hline hdeed))
  | renamed hask _ _ ih =>
    exact ih ((hreads.ask hask).1.rename _ _) ((hw.ask hask).rename _)
  | @refused own w w₁ w₂ w' o text e hask _ he _ ih =>
    have hmessage := e.singleLine_message (by simp [World.quotes_of_createChild he])
    exact ih ((World.worldInvariant_reads _).write _ ((hreads.ask hask).1.createChild he))
      (((hw.ask hask).createChild he).write hmessage)
  | @resumed own w w₁ w₂ w₃ w' o oc text c hask _ hc hchild _ _ ihc ih =>
    have hreads₂ := (hreads.ask hask).1.createChild hc
    obtain ⟨rfl, hreads₃⟩ := hchild.reads hreads₂
    have hchild := ihc hreads₂ ((hw.ask hask).createChild hc)
    exact ih ((World.worldInvariant_reads _).teardown _ hreads₃) (hchild.teardown c.id)
  | forsaken hask _ hc _ ihc =>
    exact (ihc ((hreads.ask hask).1.createChild hc) ((hw.ask hask).createChild hc)).retire _

theorem World.Tidy.openTop {w : World} (h : w.Tidy) (prompt : String)
    (hreads : w.Reads SingleLine) : (w.openTop (.standard prompt)).2.Tidy := by
  rcases hc : w.create (.standard prompt) none with ⟨e | s, w₁⟩
  · have hfailed : (w.openTop (.standard prompt)).2 = w₁ := by
      unfold World.openTop World.openBy
      rw [hc]
    rw [hfailed]
    exact h.create hc
  · obtain ⟨hreads₁, w₂, hcourse, hopen⟩ := World.openTop_of_reads hreads hc
    rw [hopen]
    exact (hcourse.tidy hreads₁ (h.create hc)).teardown s.id

end SessionShell
