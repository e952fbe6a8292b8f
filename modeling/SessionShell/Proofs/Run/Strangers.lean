import SessionShell.Proofs.Run.Draws
import SessionShell.Proofs.Run.Spared

namespace SessionShell

def Outside.isClock : Outside → Bool
  | clock _ => true
  | request _ => false

theorem Outside.spares_of_isClock {o : Outside} (h : o.isClock) (id : SessionId) : o.Spares id := by
  cases o with
  | clock t => trivial
  | request q => cases h

theorem Instant.after_filter_isClock (t : Instant) (os : List Outside) :
    t.after (os.filter Outside.isClock) = t.after os := by
  induction os generalizing t with
  | nil => rfl
  | cons o os ih =>
    cases o with
    | clock t' => exact ih t'
    | request q => exact ih t

/-- Entries with one outcome, before which the same time passes. -/
structure Entry.Alike (e e' : Entry) : Prop where
  outcome : e.outcome = e'.outcome
  after : ∀ t : Instant, t.after e.before = t.after e'.before

/-- The session that a line asks about by its identifier. -/
def Shell.inquires (shell : Shell) (line : String) : Option SessionId :=
  let l := CommandLine.parse line
  match shell.resolver.resolve l.command with
  | .ok (.builtin .info) =>
    l.arguments.positional.head?.bind fun text => (SessionId.ofText text).toOption
  | _ => none

/-- The records under some identifiers. -/
def Registry.within (ids : List SessionId) (r : Registry) : Registry :=
  ⟨r.toList.filter fun s => s.id ∈ ids, r.ascending.filter _⟩

/-- What an event shows of the sessions under some identifiers: not what others are answered. -/
def Event.within (ids : List SessionId) : Event → Option Event
  | prompt own text r => some (.prompt own text (r.within ids))
  | removed s r => some (.removed s (r.within ids))
  | reply .. => none
  | input own o => some (.input own o)
  | write line => some (.write line)
  | created s => some (.created s)

namespace Registry

theorem find?_within (ids : List SessionId) (r : Registry) (id : SessionId) :
    (r.within ids).find? id = if id ∈ ids then r.find? id else none := by
  simp only [Keyed.find?, within, List.find?_filter]
  split
  · rename_i hid
    congr 1
    funext s
    by_cases hs : s.id = id
    · simp [hs, hid]
    · simp [hs]
  · rename_i hid
    apply List.find?_eq_none.2
    intro s _ hs
    simp only [decide_eq_true_eq] at hs
    exact hid (hs.2 ▸ hs.1)

theorem within_congr {ids : List SessionId} {r r' : Registry}
    (h : ∀ id ∈ ids, r.find? id = r'.find? id) : r.within ids = r'.within ids := by
  apply Keyed.ext_find?
  intro id
  rw [find?_within, find?_within]
  split
  · rename_i hid
    exact h id hid
  · rfl

end Registry

namespace Deed

variable {shell : Shell} {known known' : Known} {own : SessionId}

theorem ofInfo_congr {a : Arguments} (hown : known own = known' own)
    (hinfo : ∀ text id, a.positional.head? = some text → SessionId.ofText text = .ok id →
      known id = known' id) : ofInfo known own a = ofInfo known' own a := by
  unfold ofInfo
  cases hp : a.positional with
  | nil => simp only [hown]
  | cons text rest =>
    cases hid : SessionId.ofText text with
    | error e => simp only [hid]
    | ok id => simp only [hid, hinfo text id (by simp [hp]) hid]

/-- What a line makes a session do depends on its own record and on the one that it asks about. -/
theorem ofLine_congr {line : String} (hown : known own = known' own)
    (hinfo : ∀ id, shell.inquires line = some id → known id = known' id) (now : Instant) :
    ofLine shell known own now line = ofLine shell known' own now line := by
  unfold ofLine
  dsimp only
  split
  · rfl
  · rcases hr : shell.resolver.resolve (CommandLine.parse line).command with reason | r
    · rfl
    · cases r with
      | builtin b =>
        cases b with
        | info =>
          simp only [ofBuiltin]
          rw [ofInfo_congr hown]
          intro text id htext hid
          apply hinfo
          simp [Shell.inquires, hr, htext, hid, Except.toOption]
        | help | exit | getCommand | hi | shell | prompt => rfl
      | core | external | unresolved => rfl

end Deed

/-- Two worlds that differ in what other parties do, and in records that both do not spare. Those
spared are all that matter: the sessions `own` and those that the lines to come ask about. -/
structure Matched (shell : Shell) (spared : SessionId → Prop) (drawn : List SessionId)
    (w w' : World) : Prop where
  own : ∀ id ∈ drawn, spared id
  asked : ∀ e ∈ w.script, ∀ line, e.outcome = .line line →
    ∀ id, shell.inquires line = some id → spared id
  only : ∀ id, spared id → w.Only (·.Spares id)
  only' : ∀ id, spared id → w'.Only (·.Spares id)
  ids : w.ids = w'.ids
  now : w.now = w'.now
  written : w.written = w'.written
  script : List.Forall₂ Entry.Alike w.script w'.script
  onWrite : ∀ n (t : Instant), t.after (w.onWrite n) = t.after (w'.onWrite n)
  records : ∀ id, spared id → w.registry.find? id = w'.registry.find? id
  log : w.log.filterMap (Event.within drawn) = w'.log.filterMap (Event.within drawn)

namespace Matched

variable {shell : Shell} {spared : SessionId → Prop} {drawn : List SessionId} {w w' w₁ : World}
  {own id : SessionId} {stack : List SessionId}

theorem within (h : Matched shell spared drawn w w') :
    w.registry.within drawn = w'.registry.within drawn :=
  Registry.within_congr fun id hid => h.records id (h.own id hid)

theorem record (h : Matched shell spared drawn w w') {e e' : Event}
    (he : e.within drawn = e'.within drawn) :
    Matched shell spared drawn (w.record e) (w'.record e') :=
  { h with log := by simp only [World.record, List.filterMap_cons, he, h.log] }

theorem setRegistry (h : Matched shell spared drawn w w') {r r' : Registry}
    (hr : ∀ id, spared id → r.find? id = r'.find? id) :
    Matched shell spared drawn (w.setRegistry r) (w'.setRegistry r') :=
  { h with records := hr }

theorem outsides (h : Matched shell spared drawn w w') {os os' : List Outside}
    (hos : ∀ id, spared id → ∀ o ∈ os, o.Spares id)
    (hos' : ∀ id, spared id → ∀ o ∈ os', o.Spares id)
    (hafter : ∀ t : Instant, t.after os = t.after os') :
    Matched shell spared drawn (os.foldl World.outside w) (os'.foldl World.outside w') := by
  obtain ⟨replies, hreplies, e⟩ := World.outsides_eq os w
  obtain ⟨replies', hreplies', e'⟩ := World.outsides_eq os' w'
  have hnone (q : Request) (r : Reply) : (Event.reply q r).within drawn = none := rfl
  rw [e, e']
  refine { h with now := ?_, records := fun id hid => ?_, log := ?_ }
  · rw [hafter, h.now]
  · rw [Registry.find?_after (hos id hid), Registry.find?_after (hos' id hid), h.records id hid]
  · rw [List.filterMap_append, List.filterMap_append, filterMap_replies hnone hreplies,
      filterMap_replies hnone hreplies', h.log]

theorem write (h : Matched shell spared drawn w w') (line : String) :
    Matched shell spared drawn (w.write line) (w'.write line) := by
  rw [World.write_eq, World.write_eq, ← h.written]
  have hcount : Matched shell spared drawn
      { w.record (.write line) with written := w.written + 1 }
      { w'.record (.write line) with written := w.written + 1 } :=
    { h.record (rfl : (Event.write line).within drawn = _) with written := rfl }
  exact hcount.outsides (fun id hid => (h.only id hid).2 _) (fun id hid => (h.only' id hid).2 _)
    (h.onWrite _)

theorem writeAll (h : Matched shell spared drawn w w') (lines : List String) :
    Matched shell spared drawn (w.writeAll lines) (w'.writeAll lines) := by
  induction lines generalizing w w' with
  | nil => exact h
  | cons line lines ih => exact ih (h.write line)

theorem read (h : Matched shell spared drawn w w') (own : SessionId) (prompt : String) :
    (w.read own prompt).1 = (w'.read own prompt).1 ∧
      Matched shell spared drawn (w.read own prompt).2 (w'.read own prompt).2 := by
  have hprompt : Matched shell spared drawn (w.record (.prompt own prompt w.registry))
      (w'.record (.prompt own prompt w'.registry)) :=
    h.record (by simp only [Event.within, h.within])
  have hscript := h.script
  rcases hs : w.script with _ | ⟨entry, rest⟩ <;>
    rcases hs' : w'.script with _ | ⟨entry', rest'⟩ <;> rw [hs, hs'] at hscript
  · rw [World.read_of_nil hs, World.read_of_nil hs']
    exact ⟨rfl, hprompt.record rfl⟩
  · cases hscript
  · cases hscript
  · obtain ⟨⟨houtcome, hafter⟩, hrest⟩ := List.forall₂_cons.1 hscript
    rw [World.read_of_cons hs, World.read_of_cons hs', ← houtcome]
    refine ⟨rfl, record ?_ rfl⟩
    -- the steps before the entry are taken once it is off the script
    have hnext : Matched shell spared drawn
        { w.record (.prompt own prompt w.registry) with script := rest }
        { w'.record (.prompt own prompt w'.registry) with script := rest' } :=
      { hprompt with
        asked := fun e he => h.asked e (by simp [hs, he])
        only := fun id hid =>
          ⟨fun e he => (h.only id hid).1 e (by simp [hs, he]), (h.only id hid).2⟩
        only' := fun id hid =>
          ⟨fun e he => (h.only' id hid).1 e (by simp [hs', he]), (h.only' id hid).2⟩
        script := hrest }
    exact hnext.outsides (fun id hid => (h.only id hid).1 entry (by simp [hs]))
      (fun id hid => (h.only' id hid).1 entry' (by simp [hs'])) hafter

theorem ask (h : Matched shell spared drawn w w') (hown : spared own) {r : ReadOutcome}
    (hask : w.ask shell own = (r, w₁)) :
    ∃ w₁', w'.ask shell own = (r, w₁') ∧ Matched shell spared drawn w₁ w₁' := by
  obtain ⟨rfl, rfl⟩ := Prod.mk.inj hask
  have hprompt : Loop.currentPrompt shell own w'.registry =
      Loop.currentPrompt shell own w.registry := by
    rw [Loop.currentPrompt, Loop.currentPrompt, h.records own hown]
  obtain ⟨houtcome, hread⟩ := h.read own (Loop.currentPrompt shell own w.registry)
  refine ⟨_, Prod.ext ?_ rfl, ?_⟩
  · rw [World.ask, hprompt]
    exact houtcome.symm
  · rw [World.ask, hprompt]
    exact hread

theorem spared_of_ask (h : Matched shell spared drawn w w') {text : String}
    (hask : w.ask shell own = (.line text, w₁)) (hid : shell.inquires text = some id) :
    spared id := by
  unfold World.ask at hask
  rcases hs : w.script with _ | ⟨entry, rest⟩
  · rw [World.read_of_nil hs] at hask
    cases (Prod.mk.inj hask).1
  · rw [World.read_of_cons hs] at hask
    exact h.asked entry (by simp [hs]) text (Prod.mk.inj hask).1 id hid

theorem line (h : Matched shell spared drawn w w') (hafoot : Afoot spared (own :: stack) w)
    {text : String} {d : Deed} (hask : w.ask shell own = (.line text, w₁))
    (hdeed : w₁.deed shell own text = d) :
    ∃ w₁', w'.ask shell own = (.line text, w₁') ∧ w₁'.deed shell own text = d ∧
      Matched shell spared drawn w₁ w₁' := by
  have hown := hafoot.members own (List.mem_cons_self ..)
  obtain ⟨w₁', hask', h₁⟩ := h.ask hown hask
  refine ⟨w₁', hask', ?_, h₁⟩
  rw [← hdeed, World.deed, World.deed, ← h₁.now]
  apply Deed.ofLine_congr (h₁.records own hown).symm
  intro id hid
  exact (h₁.records id (h.spared_of_ask hask hid)).symm

theorem change (h : Matched shell spared drawn w w') (id : SessionId) (c : Session.Change) :
    Matched shell spared drawn (w.setRegistry (w.registry.change id c))
      (w'.setRegistry (w'.registry.change id c)) := by
  apply h.setRegistry
  intro k hk
  rw [Registry.find?_change, Registry.find?_change, h.records k hk]

theorem rename (h : Matched shell spared drawn w w') (hown : spared own) (text : String) :
    Matched shell spared drawn (w.rename own text) (w'.rename own text) := by
  cases hs : w.registry.find? own with
  | none =>
    rw [World.rename_of_missing hs, World.rename_of_missing ((h.records own hown).symm.trans hs)]
    exact h.write _
  | some s =>
    rw [World.rename_of_find? hs, World.rename_of_find? ((h.records own hown).symm.trans hs)]
    exact h.change own _

theorem retire (h : Matched shell spared drawn w w') (hown : spared own) :
    Matched shell spared drawn (w.retire own) (w'.retire own) := by
  cases hs : w.registry.find? own with
  | none =>
    rwa [World.retire_of_missing hs, World.retire_of_missing ((h.records own hown).symm.trans hs)]
  | some s =>
    rw [World.retire_of_find? hs, World.retire_of_find? ((h.records own hown).symm.trans hs)]
    have hwithdraw : Matched shell spared drawn (w.setRegistry (w.registry.withdraw s))
        (w'.setRegistry (w'.registry.withdraw s)) := by
      apply h.setRegistry
      intro k hk
      rw [Registry.find?_withdraw, Registry.find?_withdraw, h.records k hk]
    exact hwithdraw.record (by simp only [Event.within, h.within])

theorem create (h : Matched shell spared drawn w w') {parent : Option SessionId}
    {o : Except ShellError Session} (hc : w.create shell parent = (o, w₁))
    (hdrawn : ∀ id ∈ w.drawnUntil w₁, id ∈ drawn) :
    ∃ w₁', w'.create shell parent = (o, w₁') ∧ Matched shell spared drawn w₁ w₁' := by
  -- the last draw is known before the registries are compared, hence so are the candidates
  have hids := w.ids_create shell parent
  rw [hc] at hids
  have hfree : IdSource.firstFree w.registry.contains w.now (World.maxCandidates - 1) w.ids =
      IdSource.firstFree w'.registry.contains w'.now (World.maxCandidates - 1) w'.ids := by
    rw [← h.now, ← h.ids]
    apply IdSource.firstFree_congr
    intro id hid
    rw [World.drawnUntil, hids] at hdrawn
    rw [Keyed.contains_eq, Keyed.contains_eq, h.records id (h.own id (hdrawn id hid))]
  rw [World.create_eq] at hc
  rw [World.create_eq, ← hfree, ← h.now]
  rcases hf : IdSource.firstFree w.registry.contains w.now (World.maxCandidates - 1) w.ids with
    ⟨_ | id, ids⟩ <;> rw [hf] at hc <;> obtain ⟨rfl, rfl⟩ := Prod.mk.inj hc
  · exact ⟨_, rfl, { h with ids := rfl, now := rfl }⟩
  · refine ⟨_, rfl, writeAll ?_ _⟩
    have hinsert : Matched shell spared drawn
        { w with registry := w.registry.insert (shell.newborn id w.now parent), ids }
        { w' with registry := w'.registry.insert (shell.newborn id w.now parent), ids } :=
      { h with
        ids := rfl
        records := fun k hk => by rw [Keyed.find?_insert, Keyed.find?_insert, h.records k hk] }
    exact hinsert.record rfl

theorem afoot (h : Matched shell spared drawn w w') (hafoot : Afoot spared stack w) :
    Afoot spared stack w' :=
  ⟨hafoot.members, h.only', hafoot.nodup,
    hafoot.stands.congr_find? fun id hid => (h.records id (hafoot.members id hid)).symm⟩

theorem createChild (h : Matched shell spared drawn w w')
    (hafoot : Afoot spared (own :: stack) w) {o : Except ShellError Session}
    (hc : w.createChild shell own = (o, w₁)) (hdrawn : ∀ id ∈ w.drawnUntil w₁, id ∈ drawn) :
    ∃ w₁', w'.createChild shell own = (o, w₁') ∧ Matched shell spared drawn w₁ w₁' := by
  rw [hafoot.createChild_eq] at hc
  rw [(h.afoot hafoot).createChild_eq]
  rcases hnew : w.create shell (some own) with ⟨e | c, w₂⟩ <;> rw [hnew] at hc <;>
    obtain ⟨rfl, rfl⟩ := Prod.mk.inj hc
  · obtain ⟨w₂', hnew', h'⟩ := h.create hnew hdrawn
    rw [hnew']
    exact ⟨_, rfl, h'⟩
  · obtain ⟨w₂', hnew', h'⟩ := h.create hnew hdrawn
    rw [hnew']
    exact ⟨_, rfl, h'.change own _⟩

theorem drawnUntil_eq {w₁' : World} (h : Matched shell spared drawn w w')
    (h₁ : Matched shell spared drawn w₁ w₁') : w'.drawnUntil w₁' = w.drawnUntil w₁ := by
  rw [World.drawnUntil, World.drawnUntil, h.now, h.ids, h₁.ids]

theorem child (h : Matched shell spared drawn w w') (hafoot : Afoot spared (own :: stack) w)
    {c : Session} (hc : w.createChild shell own = (.ok c, w₁))
    (hdrawn : ∀ id ∈ w.drawnUntil w₁, id ∈ drawn) :
    ∃ w₁', w'.createChild shell own = (.ok c, w₁') ∧ Matched shell spared drawn w₁ w₁' ∧
      Afoot spared (c.id :: own :: stack) w₁ := by
  have hspared := h.own c.id (hdrawn c.id (World.mem_drawnUntil_of_createChild hc))
  obtain ⟨w₁', hc', h₁⟩ := h.createChild hafoot hc hdrawn
  exact ⟨w₁', hc', h₁, hafoot.createChild hc hspared⟩

theorem teardown (h : Matched shell spared drawn w w') (hafoot : Afoot spared (own :: stack) w) :
    Matched shell spared drawn (w.teardown own).2 (w'.teardown own).2 := by
  have hown := hafoot.members own (List.mem_cons_self ..)
  obtain ⟨s, hs, e⟩ := hafoot.teardown_eq
  obtain ⟨s', hs', e'⟩ := (h.afoot hafoot).teardown_eq
  obtain rfl : s = s' := by
    rw [h.records own hown, hs'] at hs
    exact (Option.some.inj hs).symm
  rw [e, e']
  exact (h.retire hown).writeAll _

end Matched

section

variable {shell : Shell} {spared : SessionId → Prop} {drawn : List SessionId}

/-- In matched worlds a session takes the same course and draws the same. -/
theorem Course.matched {own : SessionId} {w w' v : World} {o : Outcome Unit} {n : Nat}
    {stack : List SessionId} (h : Course shell own w o v)
    (hw : Matched shell spared drawn w w') (hafoot : Afoot spared (own :: stack) w)
    (hn : w.script.length ≤ n) (hdrawn : ∀ id ∈ w.draws shell n own, id ∈ drawn) :
    Afoot spared (own :: stack) v ∧ w'.draws shell n own = w.draws shell n own ∧
      ∃ v', Course shell own w' o v' ∧ Matched shell spared drawn v v' := by
  -- by induction on the course in the first world; a child is started and ends in both
  induction h generalizing n stack w' with
  | stopped hask ho =>
    obtain ⟨w₁', hask', h₁⟩ := hw.ask (hafoot.members _ (List.mem_cons_self ..)) hask
    refine ⟨hafoot.ask hask, ?_, w₁', .stopped hask' ho, h₁⟩
    rw [World.draws_stopped hask' ho, World.draws_stopped hask ho]
  | left hask hdeed =>
    obtain ⟨w₁', hask', hdeed', h₁⟩ := hw.line hafoot hask hdeed
    obtain ⟨k, rfl, -⟩ := World.entries_after_line hask hn
    refine ⟨hafoot.ask hask, ?_, w₁', .left hask' hdeed', h₁⟩
    rw [World.draws_left hask' hdeed', World.draws_left hask hdeed]
  | @said own w w₁ v o text lines hask hdeed _ ih =>
    obtain ⟨w₁', hask', hdeed', h₁⟩ := hw.line hafoot hask hdeed
    obtain ⟨k, rfl, hk⟩ := World.entries_after_line hask hn
    rw [World.draws_said hask hdeed] at hdrawn
    have hscript := (World.worldInvariant_script_le k).writeAll lines hk
    have hafoot₁ := (Afoot.terminal spared _).writeAll lines (hafoot.ask hask)
    obtain ⟨hv, hsame, v', hcourse, hm⟩ := ih (h₁.writeAll lines) hafoot₁ hscript hdrawn
    refine ⟨hv, ?_, v', .said hask' hdeed' hcourse, hm⟩
    rw [World.draws_said hask' hdeed', World.draws_said hask hdeed, hsame]
  | @renamed own w w₁ v o text prompt hask hdeed _ ih =>
    have hown := hafoot.members own (List.mem_cons_self ..)
    obtain ⟨w₁', hask', hdeed', h₁⟩ := hw.line hafoot hask hdeed
    obtain ⟨k, rfl, hk⟩ := World.entries_after_line hask hn
    rw [World.draws_renamed hask hdeed] at hdrawn
    have hscript := World.script_rename_le own prompt hk
    have hafoot₁ := (hafoot.ask hask).rename prompt
    obtain ⟨hv, hsame, v', hcourse, hm⟩ := ih (h₁.rename hown prompt) hafoot₁ hscript hdrawn
    refine ⟨hv, ?_, v', .renamed hask' hdeed' hcourse, hm⟩
    rw [World.draws_renamed hask' hdeed', World.draws_renamed hask hdeed, hsame]
  | @refused own w w₁ w₂ v o text e hask hdeed he _ ih =>
    obtain ⟨w₁', hask', hdeed', h₁⟩ := hw.line hafoot hask hdeed
    obtain ⟨k, rfl, hk⟩ := World.entries_after_line hask hn
    rw [World.draws_refused hask hdeed he] at hdrawn
    obtain ⟨hnew, hrest⟩ := List.forall_mem_append.1 hdrawn
    have hscript := World.script_createChild_le he hk
    have hwrite := (World.worldInvariant_script_le k).write e.message hscript
    obtain ⟨w₂', he', h₂⟩ := h₁.createChild (hafoot.ask hask) he hnew
    have hafoot₂ := (hafoot.ask hask).createChild_error he
    obtain ⟨hv, hsame, v', hcourse, hm⟩ :=
      ih (h₂.write e.message) ((Afoot.terminal spared _).write e.message hafoot₂) hwrite hrest
    refine ⟨hv, ?_, v', .refused hask' hdeed' he' hcourse, hm⟩
    rw [World.draws_refused hask' hdeed' he', World.draws_refused hask hdeed he,
      h₁.drawnUntil_eq h₂, hsame]
  | @resumed own w w₁ w₂ w₃ v o oc text c hask hdeed hc hchild hoc _ ihc ih =>
    obtain ⟨w₁', hask', hdeed', h₁⟩ := hw.line hafoot hask hdeed
    obtain ⟨k, rfl, hk⟩ := World.entries_after_line hask hn
    rw [World.draws_resumed hask hdeed hc hchild hoc] at hdrawn
    obtain ⟨hdrawn, hrest⟩ := List.forall_mem_append.1 hdrawn
    obtain ⟨hnew, hbelow⟩ := List.forall_mem_append.1 hdrawn
    have hscript := World.script_createChild_le hc hk
    obtain ⟨w₂', hc', h₂, hafoot₂⟩ := h₁.child (hafoot.ask hask) hc hnew
    -- the child's end leaves it on top of the stack, childless, so that it alone is torn down
    obtain ⟨hafoot₃, hsamec, w₃', hchild', h₃⟩ := ihc h₂ hafoot₂ hscript hbelow
    have hend := World.script_close_le c.id oc.report (World.script_course_le hchild hscript)
    have hafoot₄ := (Afoot.terminal spared _).writeAll oc.report hafoot₃.teardown
    obtain ⟨hv, hsame, v', hcourse, hm⟩ :=
      ih ((h₃.teardown hafoot₃).writeAll oc.report) hafoot₄ hend hrest
    refine ⟨hv, ?_, v', .resumed hask' hdeed' hc' hchild' hoc hcourse, hm⟩
    rw [World.draws_resumed hask' hdeed' hc' hchild' hoc,
      World.draws_resumed hask hdeed hc hchild hoc, h₁.drawnUntil_eq h₂, hsamec, hsame]
  | @forsaken own w w₁ w₂ v text c hask hdeed hc hchild ihc =>
    obtain ⟨w₁', hask', hdeed', h₁⟩ := hw.line hafoot hask hdeed
    obtain ⟨k, rfl, hk⟩ := World.entries_after_line hask hn
    rw [World.draws_forsaken hask hdeed hc hchild] at hdrawn
    obtain ⟨hnew, hbelow⟩ := List.forall_mem_append.1 hdrawn
    have hscript := World.script_createChild_le hc hk
    obtain ⟨w₂', hc', h₂, hafoot₂⟩ := h₁.child (hafoot.ask hask) hc hnew
    obtain ⟨hafoot₃, hsame, w₃', hchild', h₃⟩ := ihc h₂ hafoot₂ hscript hbelow
    have hspared := hafoot₂.members c.id (List.mem_cons_self ..)
    refine ⟨hafoot₃.retire, ?_, _, .forsaken hask' hdeed' hc' hchild', h₃.retire hspared⟩
    rw [World.draws_forsaken hask' hdeed' hc' hchild', World.draws_forsaken hask hdeed hc hchild,
      h₁.drawnUntil_eq h₂, hsame]

namespace Matched

variable {w w' : World}

theorem drive {own : SessionId} (h : Matched shell spared drawn w w')
    (hafoot : Afoot spared [own] w)
    (hdrawn : ∀ id ∈ w.draws shell w.script.length own, id ∈ drawn) :
    (w.drive (World.run shell) own).1 = (w'.drive (World.run shell) own).1 ∧
      w'.draws shell w'.script.length own = w.draws shell w.script.length own ∧
      Matched shell spared drawn (w.drive (World.run shell) own).2
        (w'.drive (World.run shell) own).2 := by
  have hown := hafoot.members own (List.mem_cons_self ..)
  obtain ⟨hv, hsame, v', hcourse, hm⟩ :=
    (w.course_of_run shell own).matched h hafoot (Nat.le_refl _) hdrawn
  rw [← h.script.length_eq]
  unfold World.drive
  rw [World.run_of_course hcourse]
  rcases hrun : w.run shell own with ⟨_ | _ | _, v⟩ <;> rw [hrun] at hv hm
  · exact ⟨rfl, hsame, hm.teardown hv⟩
  · exact ⟨rfl, hsame, hm.teardown hv⟩
  · exact ⟨rfl, hsame, hm.retire hown⟩

theorem openTop (h : Matched shell spared (w.drawn shell) w w') :
    (w.openTop shell).1 = (w'.openTop shell).1 ∧ w'.drawn shell = w.drawn shell ∧
      Matched shell spared (w.drawn shell) (w.openTop shell).2 (w'.openTop shell).2 := by
  unfold World.openTop World.openBy
  rcases hc : w.create shell none with ⟨e | s, w₁⟩
  · have hdrawn := World.drawn_of_error hc
    obtain ⟨w₁', hc', h₁⟩ := h.create hc fun id hid => by rwa [hdrawn]
    have hsame : w'.drawn shell = w.drawn shell := by
      rw [World.drawn_of_error hc', hdrawn, h.drawnUntil_eq h₁]
    rw [hc']
    exact ⟨rfl, hsame, h₁⟩
  · have hdrawn := World.drawn_of_create hc
    have hmem : ∀ id ∈ w.drawnUntil w₁ ++ w₁.draws shell w₁.script.length s.id,
        id ∈ w.drawn shell := by
      rw [hdrawn]
      exact fun _ hid => hid
    obtain ⟨hnew, hbelow⟩ := List.forall_mem_append.1 hmem
    obtain ⟨w₁', hc', h₁⟩ := h.create hc hnew
    have hspared := h.own s.id (hnew s.id (World.mem_drawnUntil_of_create hc))
    obtain ⟨houtcome, hdraws, hend⟩ := h₁.drive (.top h.only hc hspared) hbelow
    have hsame : w'.drawn shell = w.drawn shell := by
      rw [World.drawn_of_create hc', hdrawn, h.drawnUntil_eq h₁, hdraws]
    rw [hc']
    exact ⟨houtcome, hsame, hend⟩

end Matched
end

/-- Two runs that are the same to whoever looks at the terminal and at the records of the sessions
under the identifiers drawn, which are the same as well. -/
structure SameRun (shell : Shell) (w w' : World) : Prop where
  outcome : (w.openTop shell).1 = (w'.openTop shell).1
  drawn : w.drawn shell = w'.drawn shell
  events : (w.openTop shell).2.events.filterMap (Event.within (w.drawn shell)) =
    (w'.openTop shell).2.events.filterMap (Event.within (w'.drawn shell))

namespace SameRun

variable {shell : Shell} {w w' w'' : World}

theorem symm (h : SameRun shell w w') : SameRun shell w' w :=
  ⟨h.outcome.symm, h.drawn.symm, h.events.symm⟩

theorem trans (h : SameRun shell w w') (h' : SameRun shell w' w'') : SameRun shell w w'' :=
  ⟨h.outcome.trans h'.outcome, h.drawn.trans h'.drawn, h.events.trans h'.events⟩

theorem of_matched {spared : SessionId → Prop} (h : Matched shell spared (w.drawn shell) w w') :
    SameRun shell w w' := by
  obtain ⟨houtcome, hdrawn, hend⟩ := h.openTop
  refine ⟨houtcome, hdrawn.symm, ?_⟩
  rw [hdrawn, World.events, World.events, List.filterMap_reverse, List.filterMap_reverse, hend.log]

end SameRun

namespace World

variable {shell : Shell} {m : Manager} {script script' : List Entry}
  {onWrite onWrite' : Nat → List Outside}

/-- Whether other parties spare all sessions that concern a run: those under identifiers that it
draws, and those that a line asks about. -/
structure LeftAlone (shell : Shell) (w : World) : Prop where
  drawn : ∀ id ∈ w.drawn shell, w.Only (·.Spares id)
  asked : ∀ e ∈ w.script, ∀ line, e.outcome = .line line →
    ∀ id, shell.inquires line = some id → w.Only (·.Spares id)

/-- The beginning of an operation during which other parties do no more than set the clock. -/
def startAlone (m : Manager) (script : List Entry) (onWrite : Nat → List Outside) : World :=
  start m (script.map fun e => { e with before := e.before.filter Outside.isClock })
    fun n => (onWrite n).filter Outside.isClock

theorem only_startAlone (m : Manager) (script : List Entry) (onWrite : Nat → List Outside)
    (id : SessionId) : (startAlone m script onWrite).Only (·.Spares id) := by
  refine ⟨fun e he o ho => ?_, fun n o ho => ?_⟩
  · obtain ⟨e, -, rfl⟩ := List.mem_map.1 he
    exact Outside.spares_of_isClock (List.mem_filter.1 ho).2 id
  · exact Outside.spares_of_isClock (List.mem_filter.1 ho).2 id

theorem sameRun_startAlone (h : (start m script onWrite).LeftAlone shell) :
    SameRun shell (start m script onWrite) (startAlone m script onWrite) := by
  have hmatched : Matched shell (fun id => (start m script onWrite).Only (·.Spares id))
      ((start m script onWrite).drawn shell) (start m script onWrite)
      (startAlone m script onWrite) :=
    { own := h.drawn
      asked := h.asked
      only := fun _ h => h
      only' := fun id _ => only_startAlone m script onWrite id
      ids := rfl
      now := rfl
      written := rfl
      script := List.forall₂_map_right_iff.2 <| List.forall₂_same.2 fun e _ =>
        ⟨rfl, fun t => (t.after_filter_isClock e.before).symm⟩
      onWrite := fun n t => (t.after_filter_isClock (onWrite n)).symm
      records := fun _ _ => rfl
      log := rfl }
  exact .of_matched hmatched

theorem sameRun_of_alone (hscript : List.Forall₂ Entry.Alike script script')
    (honWrite : ∀ n (t : Instant), t.after (onWrite n) = t.after (onWrite' n)) :
    SameRun shell (startAlone m script onWrite) (startAlone m script' onWrite') := by
  have hmatched : Matched shell (fun _ => True) ((startAlone m script onWrite).drawn shell)
      (startAlone m script onWrite) (startAlone m script' onWrite') :=
    { own := fun _ _ => trivial
      asked := fun _ _ _ _ _ _ => trivial
      only := fun id _ => only_startAlone m script onWrite id
      only' := fun id _ => only_startAlone m script' onWrite' id
      ids := rfl
      now := rfl
      written := rfl
      script := List.forall₂_map_left_iff.2 <| List.forall₂_map_right_iff.2 <|
        hscript.imp fun e e' he => ⟨he.outcome, fun t => by
          rw [Instant.after_filter_isClock, Instant.after_filter_isClock, he.after]⟩
      onWrite := fun n t => by
        show t.after ((onWrite n).filter _) = t.after ((onWrite' n).filter _)
        rw [Instant.after_filter_isClock, Instant.after_filter_isClock, honWrite]
      records := fun _ _ => rfl
      log := rfl }
  exact .of_matched hmatched

/-- What other parties do to sessions under identifiers that a run does not draw makes no difference
to it, as long as no line asks about those sessions: not to its prompts, its lines and its result,
and not to the records of its own sessions. -/
theorem openTop_undisturbed (hscript : List.Forall₂ Entry.Alike script script')
    (honWrite : ∀ n (t : Instant), t.after (onWrite n) = t.after (onWrite' n))
    (h : (start m script onWrite).LeftAlone shell)
    (h' : (start m script' onWrite').LeftAlone shell) :
    SameRun shell (start m script onWrite) (start m script' onWrite') ∧
      ∀ s ∈ births ((start m script onWrite).openTop shell).2.events,
        s.id ∈ (start m script onWrite).drawn shell := by
  constructor
  · -- what one run draws is not known to be spared in the other, hence the runs in between
    have halone : SameRun shell (startAlone m script onWrite) (startAlone m script' onWrite') :=
      sameRun_of_alone hscript honWrite
    exact ((sameRun_startAlone h).trans halone).trans (sameRun_startAlone h').symm
  · obtain ⟨new, hnew, hids⟩ := ((start m script onWrite).draws_openTop shell).issued
    intro s hs
    rw [hnew] at hs
    exact hids s hs

end World

/-- The first candidate is taken, and strangers that come, go and change link to a running session.
-/
theorem undisturbed_by_links_to_it :
    let taken : Session := ⟨⟨0, 1⟩, ⟨0⟩, defaultPrompt, none, none⟩
    let stranger : Session := ⟨⟨0, 9⟩, ⟨0⟩, defaultPrompt, none, none⟩
    let linked : Session := ⟨⟨7, 7⟩, ⟨0⟩, defaultPrompt, some ⟨0, 2⟩, some ⟨0, 2⟩⟩
    let m : Manager := ⟨Keyed.insert (Keyed.insert ∅ taken) stranger, .initial, ⟨0⟩⟩
    let w := World.start m [⟨[.request (.register linked)], .line "shell"⟩,
      ⟨[.request (.deregister ⟨0, 9⟩)], .line "info"⟩] fun _ => []
    let w' := World.start m [⟨[], .line "shell"⟩, ⟨[], .line "info"⟩]
      fun _ => [.request (.update ⟨0, 9⟩ { child := some (some ⟨0, 2⟩) })]
    w.drawn .bare = [⟨0, 1⟩, ⟨0, 2⟩, ⟨0, 3⟩] ∧
      (births (w.openTop .bare).2.events).map Session.id = [⟨0, 2⟩, ⟨0, 3⟩] ∧
      (w.openTop .bare).2.registry ≠ (w'.openTop .bare).2.registry ∧ SameRun .bare w w' := by
  intro taken stranger linked m w w'
  have hdrawn : w.drawn .bare = [⟨0, 1⟩, ⟨0, 2⟩, ⟨0, 3⟩] := by decide +kernel
  have hdrawn' : w'.drawn .bare = [⟨0, 1⟩, ⟨0, 2⟩, ⟨0, 3⟩] := by decide +kernel
  have hinquires : ∀ e ∈ w.script ++ w'.script, ∀ line, e.outcome = .line line →
      Shell.bare.inquires line = none := by
    intro e he line hline
    have hlines : ∀ e ∈ w.script ++ w'.script,
        e.outcome = .line "shell" ∨ e.outcome = .line "info" := by decide
    rcases hlines e he with h | h <;> rw [h] at hline <;> cases hline <;> decide +kernel
  have hreads : ∀ id ∈ [(⟨0, 1⟩ : SessionId), ⟨0, 2⟩, ⟨0, 3⟩], ∀ e ∈ w.script ++ w'.script,
      ∀ o ∈ e.before, o.Spares id := by decide
  have hwrites : ∀ id ∈ [(⟨0, 1⟩ : SessionId), ⟨0, 2⟩, ⟨0, 3⟩], ∀ o ∈ w.onWrite 0 ++ w'.onWrite 0,
      o.Spares id := by decide
  have hleft : w.LeftAlone .bare := by
    refine ⟨fun id hid => ⟨fun e he => ?_, fun _ o ho => ?_⟩, fun e he line hline id hid => ?_⟩
    · exact hreads id (hdrawn ▸ hid) e (List.mem_append_left _ he)
    · exact hwrites id (hdrawn ▸ hid) o (List.mem_append_left _ ho)
    · rw [hinquires e (List.mem_append_left _ he) line hline] at hid
      cases hid
  have hleft' : w'.LeftAlone .bare := by
    refine ⟨fun id hid => ⟨fun e he => ?_, fun _ o ho => ?_⟩, fun e he line hline id hid => ?_⟩
    · exact hreads id (hdrawn' ▸ hid) e (List.mem_append_right _ he)
    · exact hwrites id (hdrawn' ▸ hid) o (List.mem_append_right _ ho)
    · rw [hinquires e (List.mem_append_right _ he) line hline] at hid
      cases hid
  have hscript : List.Forall₂ Entry.Alike w.script w'.script :=
    .cons ⟨rfl, fun _ => rfl⟩ (.cons ⟨rfl, fun _ => rfl⟩ .nil)
  have hafter : ∀ n (t : Instant), t.after (w.onWrite n) = t.after (w'.onWrite n) := fun _ _ => rfl
  have hsame := (World.openTop_undisturbed (m := m) hscript hafter hleft hleft').1
  exact ⟨hdrawn, by decide +kernel, by decide +kernel, hsame⟩

end SessionShell
