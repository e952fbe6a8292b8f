import SessionShell.Proofs.Run.Course
import SessionShell.Proofs.Run.Meanwhile
import SessionShell.Proofs.Run.Stack

namespace SessionShell

/-- Whether a line runs the command that starts a child. -/
def Shell.startsChild (shell : Shell) (line : String) : Bool :=
  match Loop.lookUp shell line with
  | .ok ⟨_, .builtin .shell, _⟩ => true
  | _ => false

namespace Event

/-- Whether a session reads a line that is to start a child. -/
def asksChild (shell : Shell) : Event → Bool
  | input _ (.line text) => shell.startsChild text
  | _ => false

def isBirth : Event → Bool
  | created _ => true
  | _ => false

/-- Whether a session that has a parent ends. -/
def endsChild : Event → Bool
  | removed s _ => s.parent.isSome
  | _ => false

/-- Whether an event leaves the session alone that was created in an earlier one. -/
def Heeds (e : Event) : Event → Prop
  | created s => e.Spares s.id
  | _ => True

instance (e : Event) : (f : Event) → Decidable (e.Heeds f)
  | created s => inferInstanceAs (Decidable (e.Spares s.id))
  | prompt .. | input .. | write _ | reply .. | removed .. => isTrue trivial

end Event

/-- The number of lines that have started a child; of the events the latest comes first. -/
def childrenStarted (shell : Shell) : List Event → Nat
  | [] => 0
  | e :: earlier =>
    childrenStarted shell earlier +
      if e.isBirth && earlier.head?.any (·.asksChild shell) then 1 else 0

def childrenEnded (log : List Event) : Nat := log.countP Event.endsChild

/-- Whether other parties leave sessions alone once these have been created. -/
def World.Considerate (w : World) : Prop := w.log.Pairwise Event.Heeds

instance (w : World) : Decidable w.Considerate :=
  inferInstanceAs (Decidable (w.log.Pairwise Event.Heeds))

/-- The sessions of a run that are registered, innermost first, form a chain from the top-most one.
Each line that has started a child has made the chain longer by one, and each child that has ended
has made it shorter. -/
structure Nesting (shell : Shell) (top : SessionId) (chain : List SessionId) (r : Registry)
    (log : List Event) : Prop where
  bottom : chain.getLast? = some top
  nodup : chain.Nodup
  links : r.Stands none none chain
  members : ∀ id, id ∈ chain ↔ (∃ s, .created s ∈ log ∧ s.id = id) ∧ r.find? id ≠ none
  depth : chain.length + childrenEnded log = childrenStarted shell log + 1

/-- Every read so far was by the innermost session of a chain, which showed its own prompt. -/
def InFocus (shell : Shell) (top : SessionId) (log : List Event) : Prop :=
  ∀ own text r earlier, (.prompt own text r :: earlier) <:+ log →
    (∃ below, Nesting shell top (own :: below) r earlier) ∧
      (r.find? own).map Session.prompt = some text

/-- A run whose sessions are in a chain now, and were at every read. -/
structure Focused (shell : Shell) (top : SessionId) (chain : List SessionId) (w : World) :
    Prop where
  nesting : Nesting shell top chain w.registry w.log
  reads : InFocus shell top w.log

section log

variable {shell : Shell} {new log : List Event}

theorem created_mem_append {s : Session} (hnew : ∀ e ∈ new, e.isTurnover = false) :
    .created s ∈ new ++ log ↔ .created s ∈ log := by
  rw [List.mem_append]
  constructor
  · rintro (h | h)
    · cases hnew _ h
    · exact h
  · exact .inr

theorem childrenStarted_append (hnew : ∀ e ∈ new, e.isTurnover = false) :
    childrenStarted shell (new ++ log) = childrenStarted shell log := by
  induction new with
  | nil => rfl
  | cons e new ih =>
    obtain ⟨he, hnew⟩ := List.forall_mem_cons.1 hnew
    have hbirth : e.isBirth = false := by cases e <;> first | rfl | cases he
    simp [childrenStarted, hbirth, ih hnew]

theorem childrenEnded_append (hnew : ∀ e ∈ new, e.isTurnover = false) :
    childrenEnded (new ++ log) = childrenEnded log := by
  have hnone : new.countP Event.endsChild = 0 := by
    apply List.countP_eq_zero.2
    intro e he
    have hturnover := hnew e he
    cases e with
    | removed s r => cases hturnover
    | prompt | input | write | reply | created => simp [Event.endsChild]
  rw [childrenEnded, List.countP_append, hnone, Nat.zero_add]
  rfl

theorem InFocus.append {top : SessionId} (h : InFocus shell top log)
    (hnew : ∀ e ∈ new, ∀ own text r, e ≠ .prompt own text r) : InFocus shell top (new ++ log) := by
  intro own text r earlier hsuffix
  exact h own text r earlier (suffix_of_append hsuffix fun hmem => hnew _ hmem own text r rfl)

end log

theorem World.Considerate.of_suffix {w w' : World} (h : w'.Considerate) (hlog : w.log <:+ w'.log) :
    w.Considerate := List.Pairwise.sublist hlog.sublist h

theorem World.Considerate.spares {w w' : World} {new : List Event} {s : Session}
    (h : w'.Considerate) (hlog : w'.log = new ++ w.log) (hs : .created s ∈ w.log) :
    ∀ e ∈ new, e.Spares s.id := by
  intro e he
  unfold World.Considerate at h
  rw [hlog] at h
  exact (List.pairwise_append.1 h).2.2 e he _ hs

namespace Nesting

variable {shell : Shell} {top own below : SessionId} {stack : List SessionId} {w w' : World}
  {new : List Event}

theorem of_elapsed (h : Nesting shell top stack w.registry w.log) (helapsed : Elapsed w new w')
    (hconsiderate : w'.Considerate) : Nesting shell top stack w'.registry w'.log := by
  have hfind {s : Session} (hs : .created s ∈ w.log) :
      w'.registry.find? s.id = w.registry.find? s.id :=
    helapsed.spared s.id (hconsiderate.spares helapsed.log hs)
  refine ⟨h.bottom, h.nodup, h.links.congr_find? fun id hid => ?_, fun id => ?_, ?_⟩
  · obtain ⟨⟨s, hs, rfl⟩, -⟩ := (h.members id).1 hid
    exact hfind hs
  · rw [h.members, helapsed.log]
    simp only [created_mem_append helapsed.turnover]
    constructor
    · rintro ⟨⟨s, hs, rfl⟩, hid⟩
      exact ⟨⟨s, hs, rfl⟩, by rwa [hfind hs]⟩
    · rintro ⟨⟨s, hs, rfl⟩, hid⟩
      exact ⟨⟨s, hs, rfl⟩, by rwa [← hfind hs]⟩
  · rw [helapsed.log, childrenStarted_append helapsed.turnover,
      childrenEnded_append helapsed.turnover]
    exact h.depth

theorem adopt {c : Session} {ids : IdSource} (h : Nesting shell top (own :: stack) w.registry w.log)
    (hstart : w.log.head?.any (·.asksChild shell)) (hfree : w.registry.find? c.id = none)
    (hchild : c.child = none) (hparent : c.parent = some own)
    (helapsed : Elapsed (w.enter c ids) new w') (hconsiderate : w'.Considerate) :
    Nesting shell top (c.id :: own :: stack)
      (w'.registry.change own { child := some (some c.id) }) w'.log := by
  have hlog : w'.log = new ++ .created c :: w.log := helapsed.log
  -- all records of the run are what they are when the child is adopted at once
  have hfind {s : Session} (hs : .created s ∈ (w.enter c ids).log) :
      (w'.registry.change own { child := some (some c.id) }).find? s.id =
        (w.registry.adopt own c).find? s.id := by
    have hspared : w'.registry.find? s.id = Keyed.find? (w.registry.insert c) s.id :=
      helapsed.spared s.id (hconsiderate.spares helapsed.log hs)
    rw [Registry.adopt, Registry.find?_change, Registry.find?_change, hspared]
  have hnew : .created c ∈ (w.enter c ids).log := List.mem_cons_self ..
  have hold {s : Session} (hs : .created s ∈ w.log) : .created s ∈ (w.enter c ids).log :=
    List.mem_cons_of_mem _ hs
  obtain ⟨hstands, hnodup⟩ := h.links.adopt h.nodup hfree hchild hparent
  have hlinks : (w'.registry.change own { child := some (some c.id) }).Stands none none
      (c.id :: own :: stack) := by
    refine hstands.congr_find? fun id hid => ?_
    rcases List.mem_cons.1 hid with rfl | hid
    · exact hfind hnew
    · obtain ⟨⟨s, hs, rfl⟩, -⟩ := (h.members id).1 hid
      exact hfind (hold hs)
  refine ⟨?_, hnodup, hlinks, fun id => ⟨fun hid => ⟨?_, ?_⟩, ?_⟩, ?_⟩
  · rw [List.getLast?_cons_cons, h.bottom]
  · rw [hlog]
    simp only [created_mem_append helapsed.turnover]
    rcases List.mem_cons.1 hid with rfl | hid
    · exact ⟨c, hnew, rfl⟩
    · obtain ⟨⟨s, hs, rfl⟩, -⟩ := (h.members id).1 hid
      exact ⟨s, hold hs, rfl⟩
  · obtain ⟨s, hs⟩ := hlinks.find?_of_mem hid
    simp [hs]
  · rintro ⟨⟨s, hs, rfl⟩, hid⟩
    rw [hlog, created_mem_append helapsed.turnover] at hs
    rw [hfind hs] at hid
    rcases List.mem_cons.1 hs with he | hs
    · cases he
      exact List.mem_cons_self ..
    · by_cases hc : c.id = s.id
      · exact List.mem_cons.2 (.inl hc.symm)
      · by_cases hown : own = s.id
        · exact List.mem_cons_of_mem _ (List.mem_cons.2 (.inl hown.symm))
        · rw [Registry.find?_adopt, if_neg hown, if_neg hc] at hid
          exact List.mem_cons_of_mem _ ((h.members s.id).2 ⟨⟨s, hs, rfl⟩, hid⟩)
  · -- one child more has been started, and none has ended
    have hstarted : childrenStarted shell w'.log = childrenStarted shell w.log + 1 := by
      rw [hlog, childrenStarted_append helapsed.turnover]
      simp [childrenStarted, Event.isBirth, hstart]
    have hended : childrenEnded w'.log = childrenEnded w.log := by
      rw [hlog, childrenEnded_append helapsed.turnover]
      simp [childrenEnded, Event.endsChild]
    have hdepth := h.depth
    rw [hstarted, hended, List.length_cons]
    omega

theorem withdraw {s : Session} (h : Nesting shell top (own :: below :: stack) w.registry w.log)
    (hs : w.registry.find? own = some s) :
    Nesting shell top (below :: stack) (w.registry.withdraw s)
      (.removed s w.registry :: w.log) := by
  have hid : s.id = own := Keyed.key_of_find? hs
  obtain ⟨hnotin, hnodup⟩ := List.nodup_cons.1 h.nodup
  obtain ⟨⟨t, ht, -, hparent⟩, -⟩ := h.links
  cases hs.symm.trans ht
  have hfind (id : SessionId) : (w.registry.withdraw s).find? id ≠ none ↔
      own ≠ id ∧ w.registry.find? id ≠ none := by
    rw [Registry.find?_withdraw, hid]
    by_cases hown : own = id
    · simp [hown]
    · rw [if_neg hown]
      split <;> simp [hown]
  refine ⟨?_, hnodup, h.links.withdraw h.nodup hs, fun id => ?_, ?_⟩
  · rw [← h.bottom, List.getLast?_cons_cons]
  · have hmembers := h.members id
    rw [List.mem_cons] at hmembers
    rw [hfind]
    simp only [List.mem_cons, reduceCtorEq, false_or] at hmembers ⊢
    constructor
    · intro hmem
      obtain ⟨hcreated, hfound⟩ := hmembers.1 (.inr hmem)
      refine ⟨hcreated, ?_, hfound⟩
      rintro rfl
      exact hnotin (List.mem_cons.2 hmem)
    · rintro ⟨hcreated, hown, hfound⟩
      exact (hmembers.2 ⟨hcreated, hfound⟩).resolve_left (Ne.symm hown)
  · have hended : childrenEnded (.removed s w.registry :: w.log) = childrenEnded w.log + 1 := by
      have hchild : Event.endsChild (.removed s w.registry) = true := by
        simp [Event.endsChild, show s.parent = some below from hparent]
      rw [childrenEnded, List.countP_cons_of_pos hchild]
      rfl
    have hdepth := h.depth
    rw [hended]
    simp only [childrenStarted, Event.isBirth, List.length_cons] at hdepth ⊢
    simp only [Bool.false_and, Bool.false_eq_true, if_false]
    omega

theorem setPrompt (h : Nesting shell top stack w.registry w.log) (id : SessionId) (text : String) :
    Nesting shell top stack (w.registry.change id { prompt := some text }) w.log := by
  refine ⟨h.bottom, h.nodup, h.links.congr fun k _ s hs => ?_, fun k => ?_, h.depth⟩
  · rw [Registry.find?_change, hs]
    split
    · exact ⟨_, rfl, rfl, rfl⟩
    · exact ⟨s, rfl, rfl, rfl⟩
  · rw [h.members, Registry.find?_change]
    split <;> simp

end Nesting

namespace Focused

variable {shell : Shell} {top own below : SessionId} {stack : List SessionId} {w w' : World}

theorem find?_own (h : Focused shell top (own :: stack) w) :
    ∃ s, w.registry.find? own = some s ∧ s.child = none := by
  obtain ⟨⟨s, hs, hchild, -⟩, -⟩ := h.nesting.links
  exact ⟨s, hs, hchild⟩

theorem writeAll (h : w.Considerate → Focused shell top stack w) (lines : List String)
    (hconsiderate : (w.writeAll lines).Considerate) :
    Focused shell top stack (w.writeAll lines) := by
  obtain ⟨new, hnew, helapsed⟩ := w.elapsed_writeAll lines
  obtain ⟨hnesting, hreads⟩ := h (hconsiderate.of_suffix helapsed.suffix)
  refine ⟨hnesting.of_elapsed helapsed hconsiderate, ?_⟩
  rw [helapsed.log]
  exact hreads.append fun e he => Event.ne_prompt (hnew e he)

theorem ask {r : ReadOutcome} (h : w.Considerate → Focused shell top (own :: stack) w)
    (hask : w.ask shell own = (r, w')) (hconsiderate : w'.Considerate) :
    Focused shell top (own :: stack) w' := by
  obtain ⟨-, rfl⟩ := Prod.mk.inj hask
  obtain ⟨new, hnew, helapsed⟩ := w.elapsed_read own (Loop.currentPrompt shell own w.registry)
  have hfocused := h (hconsiderate.of_suffix helapsed.suffix)
  obtain ⟨s, hs, -⟩ := hfocused.find?_own
  refine ⟨hfocused.nesting.of_elapsed helapsed hconsiderate, ?_⟩
  have hprompt : InFocus shell top
      (.prompt own (Loop.currentPrompt shell own w.registry) w.registry :: w.log) := by
    intro own' text r earlier hsuffix
    rcases List.suffix_cons_iff.1 hsuffix with heq | hsuffix
    · cases heq
      exact ⟨⟨stack, hfocused.nesting⟩, by simp [Loop.currentPrompt, hs]⟩
    · exact hfocused.reads own' text r earlier hsuffix
  have hlog := helapsed.log
  rw [List.cons_append, List.append_assoc, ← List.cons_append] at hlog
  show InFocus shell top (w.read own _).2.log
  rw [hlog]
  have hnone := fun e he => Event.ne_prompt (hnew e he)
  exact hprompt.append (List.forall_mem_cons.2 ⟨by simp, hnone⟩)

theorem rename (h : w.Considerate → Focused shell top (own :: stack) w) (text : String)
    (hconsiderate : (w.rename own text).Considerate) :
    Focused shell top (own :: stack) (w.rename own text) := by
  cases hs : w.registry.find? own with
  | none =>
    rw [World.rename_of_missing hs] at hconsiderate ⊢
    exact writeAll h [_] hconsiderate
  | some s =>
    rw [World.rename_of_find? hs] at hconsiderate ⊢
    have hfocused := h hconsiderate
    exact ⟨hfocused.nesting.setPrompt own text, hfocused.reads⟩

theorem createChild {c : Session} (h : w.Considerate → Focused shell top (own :: stack) w)
    (hstart : w.log.head?.any (·.asksChild shell)) (hc : w.createChild shell own = (.ok c, w'))
    (hconsiderate : w'.Considerate) : Focused shell top (c.id :: own :: stack) w' := by
  obtain ⟨-, -, w₁, -, -, hnew, -, -, rfl⟩ := World.createChild_ok hc
  obtain ⟨hchild, hparent⟩ := World.links_of_create hnew
  obtain ⟨ids, -, hfree, -, rfl⟩ := World.create_ok hnew
  obtain ⟨new, hread, helapsed⟩ := (w.enter c ids).elapsed_writeAll c.birthNotice
  have hlog : w.log <:+ ((w.enter c ids).writeAll c.birthNotice).log :=
    (List.suffix_cons _ _).trans helapsed.suffix
  obtain ⟨hnesting, hreads⟩ := h (World.Considerate.of_suffix hconsiderate hlog)
  refine ⟨hnesting.adopt hstart hfree hchild hparent helapsed hconsiderate, ?_⟩
  show InFocus shell top ((w.enter c ids).writeAll c.birthNotice).log
  rw [helapsed.log]
  have hbirth : InFocus shell top ([.created c] ++ w.log) := hreads.append (by simp)
  exact hbirth.append fun e he => Event.ne_prompt (hread e he)

theorem createChild_error {e : ShellError} (h : w.Considerate → Focused shell top (own :: stack) w)
    (he : w.createChild shell own = (.error e, w')) (hconsiderate : w'.Considerate) :
    Focused shell top (own :: stack) w' := by
  obtain rfl | ⟨-, -, -, hc⟩ | ⟨s, c, w₁, hs, hsc, hc, hlinked, rfl⟩ := World.createChild_error he
  · exact h hconsiderate
  · obtain ⟨ids, -, rfl, -⟩ := World.create_error hc
    have hfocused := h hconsiderate
    exact ⟨hfocused.nesting, hfocused.reads⟩
  · obtain ⟨ids, -, hfree, -, rfl⟩ := World.create_ok hc
    obtain ⟨new, -, helapsed⟩ := (w.enter c ids).elapsed_writeAll c.birthNotice
    have hwrite := hconsiderate.of_suffix
      ((World.worldInvariant_suffix_log _).discard c.id (List.suffix_refl _))
    have hfocused := h (hwrite.of_suffix ((List.suffix_cons _ _).trans helapsed.suffix))
    obtain ⟨⟨p, hp, hpid⟩, -⟩ := (hfocused.nesting.members own).1 (List.mem_cons_self ..)
    have hspared : ((w.enter c ids).writeAll c.birthNotice).registry.find? own =
        Keyed.find? (w.registry.insert c) own := by
      rw [← hpid]
      exact helapsed.spared p.id (hwrite.spares helapsed.log (List.mem_cons_of_mem _ hp))
    have hne : c.id ≠ own := Keyed.ne_of_missing hfree hs
    rw [Keyed.find?_insert, if_neg hne, hs] at hspared
    exact absurd hsc (hlinked s hspared)

theorem retire (h : w.Considerate → Focused shell top (own :: below :: stack) w)
    (hconsiderate : (w.retire own).Considerate) :
    Focused shell top (below :: stack) (w.retire own) := by
  have hfocused := h (hconsiderate.of_suffix
    ((World.worldInvariant_suffix_log _).retire own (List.suffix_refl _)))
  obtain ⟨s, hs, -⟩ := hfocused.find?_own
  have hreads : InFocus shell top ([.removed s w.registry] ++ w.log) :=
    hfocused.reads.append (by simp)
  rw [World.retire_of_find? hs]
  exact ⟨hfocused.nesting.withdraw hs, hreads⟩

theorem teardown (h : w.Considerate → Focused shell top (own :: below :: stack) w)
    (hconsiderate : (w.teardown own).2.Considerate) :
    Focused shell top (below :: stack) (w.teardown own).2 := by
  have hfocused := h (hconsiderate.of_suffix
    ((World.worldInvariant_suffix_log _).teardown own (List.suffix_refl _)))
  obtain ⟨s, hs, hchild⟩ := hfocused.find?_own
  rw [World.teardown_of_childless hs hchild] at hconsiderate ⊢
  exact writeAll (retire h) _ hconsiderate

theorem create {c : Session} (hlog : w.log = []) (hc : w.create shell none = (.ok c, w'))
    (hconsiderate : w'.Considerate) : Focused shell c.id [c.id] w' := by
  obtain ⟨hchild, hparent⟩ := World.links_of_create hc
  obtain ⟨ids, -, -, -, rfl⟩ := World.create_ok hc
  have henter : (w.enter c ids).log = [.created c] := congrArg (_ :: ·) hlog
  have hfind : Keyed.find? (w.registry.insert c) c.id = some c := by
    rw [Keyed.find?_insert, if_pos rfl]
  refine writeAll (fun _ => ⟨⟨rfl, List.nodup_singleton _, ?_, fun id => ?_, ?_⟩, ?_⟩) _
    hconsiderate
  · exact ⟨⟨c, hfind, hchild, hparent⟩, trivial⟩
  · rw [henter]
    constructor
    · intro hid
      obtain rfl := List.mem_singleton.1 hid
      exact ⟨⟨c, List.mem_singleton_self _, rfl⟩, by simp [World.enter, World.record, hfind]⟩
    · rintro ⟨⟨s, hs, rfl⟩, -⟩
      cases List.mem_singleton.1 hs
      exact List.mem_singleton_self _
  · rw [henter]
    rfl
  · rw [henter]
    intro own text r earlier hsuffix
    rcases List.suffix_cons_iff.1 hsuffix with heq | hsuffix
    · cases heq
    · cases List.suffix_nil.1 hsuffix

end Focused

theorem World.startsChild_of_deed {shell : Shell} {own : SessionId} {text : String} {w : World}
    (h : w.deed shell own text = .shell) : shell.startsChild text := by
  unfold World.deed Deed.ofLine at h
  unfold Shell.startsChild Loop.lookUp
  dsimp only at h ⊢
  by_cases hempty : (CommandLine.parse text).command.isEmpty
  · simp [hempty] at h
  · simp only [hempty, CommandLine.isEmpty] at h ⊢
    rcases hr : shell.resolver.resolve (CommandLine.parse text).command with reason | r <;>
      simp only [hr] at h
    · cases h
    · cases r with
      | core m | external m | unresolved => cases h
      | builtin b =>
        cases b with
        | shell => rfl
        | help | exit | getCommand | hi | info | prompt => cases h

theorem World.asksChild_of_ask {shell : Shell} {own : SessionId} {text : String} {w w₁ : World}
    (hask : w.ask shell own = (.line text, w₁)) (hdeed : w₁.deed shell own text = .shell) :
    w₁.log.head?.any (·.asksChild shell) := by
  rw [World.head?_log_of_ask hask]
  simp only [Option.any_some, Event.asksChild]
  exact World.startsChild_of_deed hdeed

theorem Course.focused {shell : Shell} {top own : SessionId} {stack : List SessionId} {w w' : World}
    {o : Outcome Unit} (hcourse : Course shell own w o w')
    (h : w.Considerate → Focused shell top (own :: stack) w) :
    w'.Considerate → Focused shell top (own :: stack) w' := by
  induction hcourse generalizing stack with
  | stopped hask => exact Focused.ask h hask
  | left hask => exact Focused.ask h hask
  | said hask hdeed hrest ih => exact ih (Focused.writeAll (Focused.ask h hask) _)
  | renamed hask hdeed hrest ih => exact ih (Focused.rename (Focused.ask h hask) _)
  | refused hask hdeed he hrest ih =>
    have hrefused := Focused.createChild_error (Focused.ask h hask) he
    exact ih (Focused.writeAll hrefused [_])
  | resumed hask hdeed hc hchild hoc hrest ihc ih =>
    -- what the child has started has ended when its parent goes on
    have hborn := Focused.createChild (Focused.ask h hask) (World.asksChild_of_ask hask hdeed) hc
    have hended := Focused.teardown (ihc hborn)
    exact ih (Focused.writeAll hended _)
  | forsaken hask hdeed hc hchild ih =>
    have hborn := Focused.createChild (Focused.ask h hask) (World.asksChild_of_ask hask hdeed) hc
    exact Focused.retire (ih hborn)

theorem worldInvariant_inFocus (shell : Shell) (top : SessionId) :
    WorldInvariant fun w => w.Considerate → InFocus shell top w.log where
  write {w} line h hconsiderate := by
    obtain ⟨new, hnew, helapsed⟩ := w.elapsed_write line
    rw [helapsed.log]
    have hreads := h (hconsiderate.of_suffix helapsed.suffix)
    exact hreads.append fun e he => Event.ne_prompt (hnew e he)
  manager _ h := h
  record {w e} he h hconsiderate := by
    have hreads := h (hconsiderate.of_suffix (List.suffix_cons _ _))
    have hrecord : InFocus shell top ([e] ++ w.log) := by
      refine hreads.append fun e' he' own text r heq => ?_
      rw [← List.mem_singleton.1 he', heq] at he
      cases he
    exact hrecord

/-- At every read during a run the sessions that it has created and that are registered are a chain
from the top-most one to the reader, whose own prompt is shown; all but the first were started by
lines, and those that have ended since are not among them. -/
theorem World.nesting_of_read (shell : Shell) (m : Manager) (script : List Entry)
    (onWrite : Nat → List Outside) {own : SessionId} {text : String} {r : Registry}
    {earlier : List Event}
    (hconsiderate : ((World.start m script onWrite).openTop shell).2.Considerate)
    (hread : (.prompt own text r :: earlier) <:+
      ((World.start m script onWrite).openTop shell).2.log) :
    ∃ top below, ((World.start m script onWrite).create shell none).1 = .ok top ∧
      Nesting shell top.id (own :: below) r earlier ∧
      (r.find? own).map Session.prompt = some text := by
  unfold World.openTop World.openBy at hconsiderate hread
  rcases hc : (World.start m script onWrite).create shell none with ⟨e | top, w₁⟩ <;>
    rw [hc] at hconsiderate hread <;> dsimp only at hconsiderate hread
  · obtain ⟨ids, -, rfl, -⟩ := World.create_error hc
    cases List.suffix_nil.1 hread
  · have hcourse := World.course_of_run shell top.id w₁
    have hfocused := hcourse.focused (Focused.create rfl hc)
    have hreads : (w₁.drive (World.run shell) top.id).2.Considerate →
        InFocus shell top.id (w₁.drive (World.run shell) top.id).2.log := by
      unfold World.drive
      rcases hrun : w₁.run shell top.id with ⟨_ | e | _, w₂⟩ <;> rw [hrun] at hfocused
      · exact (worldInvariant_inFocus shell top.id).teardown _ fun h => (hfocused h).reads
      · exact (worldInvariant_inFocus shell top.id).teardown _ fun h => (hfocused h).reads
      · exact (worldInvariant_inFocus shell top.id).retire _ fun h => (hfocused h).reads
    obtain ⟨⟨below, hnesting⟩, hprompt⟩ := hreads hconsiderate own text r earlier hread
    exact ⟨top, below, rfl, hnesting, hprompt⟩

/-- A second child reads by its own prompt after the first has ended, and while another party
changes a session outside the run. -/
theorem nesting_at_second_child :
    let outside : Session := ⟨⟨0, 9⟩, ⟨0⟩, "$ ", none, none⟩
    let m : Manager := ⟨Keyed.insert ∅ outside, .initial, ⟨0⟩⟩
    let rename : Outside := .request (.update ⟨0, 9⟩ { prompt := some "% " })
    let w := ((World.start m [⟨[], .line "shell"⟩, ⟨[], .line "exit"⟩, ⟨[rename], .line "shell"⟩,
      ⟨[], .line "prompt x"⟩] fun _ => []).openTop .bare).2
    let r : Registry := Keyed.insert (Keyed.insert (Keyed.insert ∅
      { outside with prompt := "% " }) ⟨⟨0, 1⟩, ⟨0⟩, defaultPrompt, none, some ⟨0, 3⟩⟩)
      ⟨⟨0, 3⟩, ⟨0⟩, "x ", some ⟨0, 1⟩, none⟩
    (.prompt ⟨0, 3⟩ "x " r :: w.log.drop 14) <:+ w.log ∧
      ∃ top below, Nesting .bare top (⟨0, 3⟩ :: below) r (w.log.drop 14) ∧ below.length = 1 := by
  intro outside m rename w r
  have hconsiderate : w.Considerate := by decide +kernel
  have hdrop : w.log.drop 13 = .prompt ⟨0, 3⟩ "x " r :: w.log.drop 14 := by decide +kernel
  have hread : (.prompt ⟨0, 3⟩ "x " r :: w.log.drop 14) <:+ w.log :=
    hdrop ▸ List.drop_suffix 13 w.log
  obtain ⟨top, below, -, hnesting, -⟩ := World.nesting_of_read _ _ _ _ hconsiderate hread
  have hstarted : childrenStarted .bare (w.log.drop 14) = 2 := by decide +kernel
  have hended : childrenEnded (w.log.drop 14) = 1 := by decide +kernel
  have hdepth := hnesting.depth
  rw [hstarted, hended, List.length_cons] at hdepth
  exact ⟨hread, top.id, below, hnesting, by omega⟩

end SessionShell
