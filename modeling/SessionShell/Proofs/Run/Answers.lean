import SessionShell.Proofs.Run.Strangers
import SessionShell.Proofs.Run.Tidy

namespace SessionShell

/-- A fault of a line, and what an error about it names: a command that nobody knows, an argument
where none is taken, an identifier that is none, and one that no session bears. -/
inductive Offence (known : Known) (l : CommandLine) : (named : List String) → Prop
  | unknown (hname : l.command.isEmpty = false)
    (hr : Resolver.builtin.resolve l.command = .ok .unresolved) : Offence known l [l.command]
  | surplus {extra : String} {rest : List String} (hname : l.command = "date")
    (ha : l.arguments.positional = extra :: rest) : Offence known l [l.command, extra]
  | illFormed {text : String} {rest : List String} (hname : l.command = "info")
    (ha : l.arguments.positional = text :: rest) (hid : SessionId.ofText? text = none) :
    Offence known l [l.command, text]
  | unregistered {text : String} {rest : List String} {id : SessionId} (hname : l.command = "info")
    (ha : l.arguments.positional = text :: rest) (hid : SessionId.ofText? text = some id)
    (hmissing : known id = none) : Offence known l [id.text]

section

variable {line : String} {known : Known} {named : List String}

theorem Offence.ofLine (h : Offence known (CommandLine.parse line) named) (prompt : String)
    (own : SessionId) (now : Instant) :
    ∃ message, Deed.ofLine (.standard prompt) known own now line = .say [message] ∧
      ∀ name ∈ named, name.toList <:+: message.toList := by
  have hpart (a x b : String) : x.toList <:+: (a ++ x ++ b).toList :=
    ⟨a.toList, b.toList, by simp⟩
  have hsooner {x a : String} (hx : x.toList <:+: a.toList) (b : String) :
      x.toList <:+: (a ++ b).toList := by
    rw [String.toList_append]
    exact hx.trans (List.prefix_append _ _).isInfix
  have hlater {x b : String} (a : String) (hx : x.toList <:+: b.toList) :
      x.toList <:+: (a ++ b).toList := by
    rw [String.toList_append]
    exact hx.trans (List.suffix_append _ _).isInfix
  have hdate : Resolver.builtin.resolve "date" = .ok (.core .date) := rfl
  have hinfo : Resolver.builtin.resolve "info" = .ok (.builtin .info) := rfl
  have hempty : "date".isEmpty = false ∧ "info".isEmpty = false := by decide
  unfold Deed.ofLine Shell.standard
  cases h with
  | unknown hname hr =>
    simp only [hname, hr]
    exact ⟨_, rfl, List.forall_mem_singleton.2 (hpart "invalid command \x60" _ "\x60")⟩
  | @surplus extra rest hname ha =>
    simp only [hname, hdate, hempty, Bool.false_eq_true, if_false, Deed.ofModule, Module.date, ha]
    refine ⟨_, rfl, List.forall_mem_cons.2 ⟨?_, List.forall_mem_singleton.2 ?_⟩⟩
    · exact hsooner (hpart "command \x60" "date" "\x60 failed: ") _
    · exact hlater ("command \x60" ++ "date" ++ "\x60 failed: ")
        (hlater "invalid arguments: " (hpart "unexpected argument '" extra "'"))
  | @illFormed text rest hname ha hid =>
    simp only [hname, hinfo, hempty, Bool.false_eq_true, if_false, Deed.ofBuiltin, Deed.ofInfo, ha,
      SessionId.ofText, hid]
    refine ⟨_, rfl, List.forall_mem_cons.2 ⟨?_, List.forall_mem_singleton.2 ?_⟩⟩
    · exact hsooner (hsooner List.infix_rfl ": ") _
    · exact hlater ("info" ++ ": ") (hlater "invalid session identifier: " List.infix_rfl)
  | unregistered hname ha hid hmissing =>
    simp only [hname, hinfo, hempty, Bool.false_eq_true, if_false, Deed.ofBuiltin, Deed.ofInfo, ha,
      SessionId.ofText, hid, hmissing, Option.map_none, Option.getD_none]
    exact ⟨_, rfl, List.forall_mem_singleton.2 (hpart "session " _ " not found")⟩

end

/-- Whether each offence, once two more events have followed, was answered by the first of them and
the second is a prompt; of the events the latest comes first. -/
def Answered (log : List Event) : Prop :=
  ∀ next answer own text shown r earlier named,
    (next :: answer :: .input own (.line text) :: .prompt own shown r :: earlier) <:+ log →
    Offence r.find? (CommandLine.parse text) named →
    (∃ message, answer = .write message ∧ ∀ name ∈ named, name.toList <:+: message.toList) ∧
      ∃ shown' r', next = .prompt own shown' r'

/-- No offence awaits its answer. Right after an answer the prompt of the session is due that has
met the offence, and `own` is that session. -/
structure Tended (own : Option SessionId) (log : List Event) : Prop where
  answered : Answered log
  read {own' : SessionId} {text shown : String} {r : Registry} {earlier : List Event}
    {named : List String} :
    Offence r.find? (CommandLine.parse text) named →
    log ≠ .input own' (.line text) :: .prompt own' shown r :: earlier
  due {own' : SessionId} {text shown : String} {r : Registry} {answer : Event}
    {earlier : List Event} {named : List String} :
    Offence r.find? (CommandLine.parse text) named →
    log = answer :: .input own' (.line text) :: .prompt own' shown r :: earlier →
    own = some own' ∧
      ∃ message, answer = .write message ∧ ∀ name ∈ named, name.toList <:+: message.toList

namespace Tended

variable {own : Option SessionId} {log : List Event} {e : Event}

theorem start (own : Option SessionId) : Tended own [] := by
  refine ⟨fun next answer own text shown r earlier named h => ?_, fun _ => by simp,
    fun _ h => absurd h (by simp)⟩
  exact absurd (List.suffix_nil.1 h) (by simp)

theorem settled (h : Tended none log) (own : Option SessionId) : Tended own log :=
  ⟨h.answered, h.read, fun hoffence hlog => absurd (h.due hoffence hlog).1 (by simp)⟩

theorem answered_cons (h : Tended own log)
    (he : ∀ own', own = some own' → ∃ shown r, e = .prompt own' shown r) : Answered (e :: log) := by
  intro next answer own' text shown r earlier named hsuffix hoffence
  rcases List.suffix_cons_iff.1 hsuffix with heq | hsuffix
  · obtain ⟨rfl, hlog⟩ := List.cons.inj heq
    obtain ⟨hown, hanswer⟩ := h.due hoffence hlog.symm
    exact ⟨hanswer, he own' hown⟩
  · exact h.answered _ _ _ _ _ _ _ _ hsuffix hoffence

theorem cons (h : Tended own log)
    (he : ∀ own', own = some own' → ∃ shown r, e = .prompt own' shown r)
    (hread : ∀ own' text, e ≠ .input own' (.line text)) : Tended none (e :: log) := by
  refine ⟨h.answered_cons he, fun _ hlog => ?_, fun hoffence hlog => ?_⟩
  · exact hread _ _ (List.cons.inj hlog).1
  · exact absurd (List.cons.inj hlog).2 (h.read hoffence)

theorem harmless {own : SessionId} {r : ReadOutcome} {shown : String} {registry : Registry}
    (h : Tended none (.prompt own shown registry :: log))
    (hr : ∀ text named, r = .line text → ¬ Offence registry.find? (CommandLine.parse text) named) :
    Tended none (.input own r :: .prompt own shown registry :: log) := by
  refine ⟨h.answered_cons (by simp), fun hoffence hlog => ?_, fun _ hlog => ?_⟩
  · cases hlog
    exact hr _ _ rfl hoffence
  · cases hlog

theorem answer {own : SessionId} {text shown message : String} {registry : Registry}
    (h : Tended none (.prompt own shown registry :: log))
    (hmessage : ∀ named, Offence registry.find? (CommandLine.parse text) named →
      ∀ name ∈ named, name.toList <:+: message.toList) :
    Tended (some own)
      (.write message :: .input own (.line text) :: .prompt own shown registry :: log) := by
  refine ⟨?_, by simp, fun hoffence hlog => ?_⟩
  · intro next answer own' text' shown' r earlier named hsuffix hoffence
    rcases List.suffix_cons_iff.1 hsuffix with heq | hsuffix
    · cases heq
    · exact h.answered_cons (by simp) _ _ _ _ _ _ _ _ hsuffix hoffence
  · cases hlog
    exact ⟨rfl, message, rfl, hmessage _ hoffence⟩

end Tended

namespace World

variable {shell : Shell} {prompt : String} {own : SessionId} {w w' : World}

/-- Whether nothing is done by other parties but that time passes. -/
def Alone (w : World) : Prop := w.Only (·.isClock)

theorem outsides_of_clocks {os : List Outside} (hos : ∀ o ∈ os, o.isClock) (w : World) :
    ∃ now, os.foldl outside w = { w with now } := by
  induction os generalizing w with
  | nil => exact ⟨w.now, rfl⟩
  | cons o os ih =>
    obtain ⟨ho, hrest⟩ := List.forall_mem_cons.1 hos
    cases o with
    | clock t => exact ih hrest (w.outside (.clock t))
    | request q => cases ho

theorem Alone.write_eq (h : w.Alone) (line : String) :
    ∃ now, w.write line =
      { w with now, written := w.written + 1, log := .write line :: w.log } :=
  outsides_of_clocks (h.2 _) { w.record (.write line) with written := w.written + 1 }

theorem Alone.ask_eq {r : ReadOutcome} (h : w.Alone) (hask : w.ask shell own = (r, w')) :
    w'.Alone ∧ w'.registry = w.registry ∧
      ∃ shown, w'.log = .input own r :: .prompt own shown w.registry :: w.log := by
  unfold ask at hask
  cases hs : w.script with
  | nil =>
    rw [read_of_nil hs] at hask
    obtain ⟨rfl, rfl⟩ := Prod.mk.inj hask
    exact ⟨h, rfl, _, rfl⟩
  | cons entry rest =>
    have hbefore : ∀ o ∈ entry.before, o.isClock := h.1 entry (by simp [hs])
    obtain ⟨now, hnow⟩ := outsides_of_clocks hbefore
      { w.record (.prompt own (Loop.currentPrompt shell own w.registry) w.registry) with
        script := rest }
    rw [read_of_cons hs, hnow] at hask
    obtain ⟨rfl, rfl⟩ := Prod.mk.inj hask
    exact ⟨⟨fun e he => h.1 e (by simp [hs, show e ∈ rest from he]), h.2⟩, rfl, _, rfl⟩

theorem worldInvariant_tended : WorldInvariant fun w => w.Alone ∧ Tended none w.log where
  write {w} line h := by
    obtain ⟨now, hnow⟩ := h.1.write_eq line
    rw [hnow]
    exact ⟨h.1, h.2.cons (by simp) (by simp)⟩
  manager _ h := h
  record {w e} he h := by
    refine ⟨h.1, h.2.cons (by simp) fun own text heq => ?_⟩
    rw [heq] at he
    cases he

end World

theorem Course.tended {prompt : String} {own : SessionId} {w w' : World} {o : Outcome Unit}
    (h : Course (.standard prompt) own w o w') (halone : w.Alone) (hw : Tended (some own) w.log) :
    w'.Alone ∧ Tended none w'.log := by
  have hkeep := World.worldInvariant_tended
  -- a read that leads to no offence leaves its session with nothing to answer
  have hread {own : SessionId} {w w₁ : World} {r : ReadOutcome} (halone : w.Alone)
      (hw : Tended (some own) w.log) (hask : w.ask (.standard prompt) own = (r, w₁))
      (hr : ∀ text, r = .line text →
        ∀ message, w₁.deed (.standard prompt) own text ≠ .say [message]) :
      w₁.Alone ∧ Tended none w₁.log := by
    obtain ⟨halone₁, hregistry, shown, hlog⟩ := halone.ask_eq hask
    refine ⟨halone₁, hlog ▸ ?_⟩
    refine (hw.cons (by simp) (by simp)).harmless fun text named htext hoffence => ?_
    rw [← hregistry] at hoffence
    obtain ⟨message, hdeed, -⟩ := hoffence.ofLine prompt own w₁.now
    exact hr text htext message hdeed
  have hquiet {own : SessionId} {w w₁ : World} {text : String} {d : Deed} (halone : w.Alone)
      (hw : Tended (some own) w.log) (hask : w.ask (.standard prompt) own = (.line text, w₁))
      (hdeed : w₁.deed (.standard prompt) own text = d) (hd : ∀ message, d ≠ .say [message]) :
      w₁.Alone ∧ Tended none w₁.log := by
    refine hread halone hw hask fun text' htext message => ?_
    cases htext
    rw [hdeed]
    exact hd message
  induction h with
  | stopped hask ho =>
    refine hread halone hw hask fun text htext => ?_
    rw [htext] at ho
    cases ho
  | left hask hdeed => exact hquiet halone hw hask hdeed (by simp)
  | @said own w w₁ w' o text lines hask hdeed _ ih =>
    obtain ⟨halone₁, hregistry, shown, hlog⟩ := halone.ask_eq hask
    by_cases hone : ∃ message, lines = [message]
    · obtain ⟨message, rfl⟩ := hone
      obtain ⟨now, hwrite⟩ := halone₁.write_eq message
      have hanswer : Tended (some own) (.write message :: w₁.log) := by
        rw [hlog]
        refine (hw.cons (by simp) (by simp)).answer fun named hoffence => ?_
        rw [← hregistry] at hoffence
        obtain ⟨message', hsay, hnamed⟩ :=
          hoffence.ofLine prompt own w₁.now
        cases hdeed.symm.trans hsay
        exact hnamed
      have hsaid : w₁.writeAll [message] = w₁.write message := rfl
      rw [hsaid, hwrite] at ih
      exact ih halone₁ hanswer
    -- none or several lines answer no offence
    · obtain ⟨halone₂, hw₂⟩ := hkeep.writeAll lines
        (hquiet halone hw hask hdeed fun message heq => hone ⟨message, by cases heq; rfl⟩)
      exact ih halone₂ (hw₂.settled own)
  | @renamed own w w₁ w' o text prompt' hask hdeed _ ih =>
    have hasked := hquiet halone hw hask hdeed (by simp)
    have hrenamed : (w₁.rename own prompt').Alone ∧ Tended none (w₁.rename own prompt').log := by
      unfold World.rename
      split
      · exact hasked
      · exact hkeep.write _ hasked
    exact ih hrenamed.1 (hrenamed.2.settled own)
  | @refused own w w₁ w₂ w' o text e hask hdeed he _ ih =>
    have hrefused := hkeep.createChild (.standard prompt) own
      (hquiet halone hw hask hdeed (by simp))
    rw [he] at hrefused
    obtain ⟨halone₂, hw₂⟩ := hkeep.write e.message hrefused
    exact ih halone₂ (hw₂.settled own)
  | @resumed own w w₁ w₂ w₃ w' o oc text c hask hdeed hc _ _ _ ihc ih =>
    have hchild := hkeep.createChild (.standard prompt) own
      (hquiet halone hw hask hdeed (by simp))
    rw [hc] at hchild
    obtain ⟨halone₃, hw₃⟩ := hkeep.writeAll oc.report
      (hkeep.teardown c.id (ihc hchild.1 (hchild.2.settled c.id)))
    exact ih halone₃ (hw₃.settled own)
  | @forsaken own w w₁ w₂ w' text c hask hdeed hc _ ihc =>
    have hchild := hkeep.createChild (.standard prompt) own
      (hquiet halone hw hask hdeed (by simp))
    rw [hc] at hchild
    exact hkeep.retire c.id (ihc hchild.1 (hchild.2.settled c.id))

theorem Tended.answered_events {log before after : List Event} {own : SessionId}
    {shown text : String} {r : Registry} {named : List String} (h : Tended none log)
    (hevents : log.reverse = before ++ .prompt own shown r :: .input own (.line text) :: after)
    (hoffence : Offence r.find? (CommandLine.parse text) named) :
    ∃ message shown' r' rest, after = .write message :: .prompt own shown' r' :: rest ∧
      ∀ name ∈ named, name.toList <:+: message.toList := by
  have hlog : log = after.reverse ++
      .input own (.line text) :: .prompt own shown r :: before.reverse := by
    rw [← List.reverse_reverse log, hevents]
    simp
  match after with
  | [] => exact absurd hlog (h.read hoffence)
  | [answer] => exact absurd (h.due hoffence hlog).1 (by simp)
  | answer :: next :: rest =>
    have hwindow : (next :: answer :: .input own (.line text) :: .prompt own shown r ::
        before.reverse) <:+ log := ⟨rest.reverse, by rw [hlog]; simp⟩
    obtain ⟨⟨message, rfl, hnamed⟩, shown', r', rfl⟩ :=
      h.answered _ _ _ _ _ _ _ _ hwindow hoffence
    exact ⟨message, shown', r', rest, rfl, hnamed⟩

theorem World.tended_openTop {prompt : String} {w : World} (halone : w.Alone)
    (hw : Tended none w.log) : Tended none (w.openTop (.standard prompt)).2.log := by
  have hkeep := worldInvariant_tended
  have hcreate := hkeep.create (.standard prompt) none ⟨halone, hw⟩
  unfold openTop openBy
  rcases hc : w.create (.standard prompt) none with ⟨e | s, w₁⟩ <;> rw [hc] at hcreate
  · exact hcreate.2
  · have hrun := (w₁.course_of_run (.standard prompt) s.id).tended hcreate.1
      (hcreate.2.settled s.id)
    unfold drive
    dsimp only
    rcases h : w₁.run (.standard prompt) s.id with ⟨_ | e | _, w₂⟩ <;> rw [h] at hrun
    · exact (hkeep.teardown s.id hrun).2
    · exact (hkeep.teardown s.id hrun).2
    · exact (hkeep.retire s.id hrun).2

/-- Whatever bytes a session and its children read, nothing that they write has a newline in it, so
that what is written can be told apart by lines; and each offence is answered by one line that names
what is at fault, with a prompt of the same session next. -/
theorem World.openTop_single_lines (prompt : String) (m : Manager) (stream : Text.Utf8.Bytes)
    {script : List Entry} {onWrite : Nat → List Outside}
    (hscript : script.map Entry.outcome = (Text.lines stream).map .line)
    (halone : (World.start m script onWrite).Alone) :
    let events := ((World.start m script onWrite).openTop (.standard prompt)).2.events
    let written := events.filterMap Event.written?
    (∀ line ∈ written, SingleLine line) ∧
    Text.linesAt '\n' (written.flatMap fun line => line.toList ++ ['\n']) =
      written.map String.toList ∧
    ∀ before own shown r text after named,
      events = before ++ .prompt own shown r :: .input own (.line text) :: after →
      Offence r.find? (CommandLine.parse text) named →
      ∃ message shown' r' rest, after = .write message :: .prompt own shown' r' :: rest ∧
        ∀ name ∈ named, name.toList <:+: message.toList := by
  intro events written
  have hreads : (World.start m script onWrite).Reads SingleLine :=
    reads_start hscript fun _ => Text.not_mem_of_mem_lines
  have hbegun : (World.start m script onWrite).Tidy := fun _ hline => absurd hline List.not_mem_nil
  have htidy := hbegun.openTop prompt hreads
  have hlines : ∀ line ∈ written, SingleLine line := by
    intro line hline
    obtain ⟨e, he, hwritten⟩ := List.mem_filterMap.1 hline
    cases e with
    | write text =>
      cases hwritten
      exact htidy _ (List.mem_reverse.1 he)
    | prompt | input | reply | created | removed => cases hwritten
  have htended : Tended none ((World.start m script onWrite).openTop (.standard prompt)).2.log :=
    tended_openTop halone (.start none)
  refine ⟨hlines, ?_, fun before own shown r text after named hevents hoffence => ?_⟩
  · have hflat : written.flatMap (fun line => line.toList ++ ['\n']) =
        (written.map String.toList).flatMap (· ++ ['\n']) := by
      rw [List.flatMap_map]
    rw [hflat]
    exact Text.linesAt_flatMap (List.forall_mem_map.2 hlines)
  · exact htended.answered_events hevents hoffence

/-- A child shell meets an open quote, an identifier cut short, one that nobody bears, and bytes
that are no text and are cut off at the end of the input, while the clock is turned back and forth.
-/
theorem single_lines_of_broken_input :
    let text := "shell\ndate 'x y\ninfo sh-1-\ninfo sh-0-9\n"
    let stream := text.toList.flatMap String.utf8EncodeChar ++ [0xff, 0xe2, 0x82]
    let script : List Entry := (Text.lines stream).map fun line => ⟨[.clock ⟨7⟩], .line line⟩
    let w := World.start (.start ⟨0⟩) script fun _ => [.clock ⟨-1⟩]
    let events := (w.openTop (.standard "$ ")).2.events
    let written := events.filterMap Event.written?
    script.map Entry.outcome = (Text.lines stream).map .line ∧ w.Alone ∧
      ["command \x60date\x60 failed: invalid arguments: unexpected argument ''x'",
        "info: invalid session identifier: sh-1-", "session sh-0-9 not found",
        "invalid command \x60\ufffd\ufffd\x60"].Sublist written ∧
      (∀ line ∈ written, SingleLine line) ∧
      ∃ message shown r rest, events.drop 13 = .write message :: .prompt ⟨7, 2⟩ shown r :: rest ∧
        ∀ name ∈ ["date", "'x"], name.toList <:+: message.toList := by
  intro text stream script w events written
  have hscript : script.map Entry.outcome = (Text.lines stream).map .line := by
    rw [List.map_map]
    rfl
  have halone : w.Alone := by
    refine ⟨fun e he o ho => ?_, fun _ o ho => ?_⟩
    · obtain ⟨line, -, rfl⟩ := List.mem_map.1 he
      rw [List.mem_singleton.1 ho]
      rfl
    · rw [List.mem_singleton.1 ho]
      rfl
  obtain ⟨hlines, -, hanswers⟩ := World.openTop_single_lines "$ " (.start ⟨0⟩) stream hscript halone
  refine ⟨hscript, halone, by decide +kernel, hlines, ?_⟩
  let r : Registry := (events[11]?.bind Event.shown?).getD ∅
  have hsplit : events = events.take 11 ++ .prompt ⟨7, 2⟩ "$ " r ::
      .input ⟨7, 2⟩ (.line "date 'x y") :: events.drop 13 := by decide +kernel
  have hparse : CommandLine.parse "date 'x y" = ⟨"date", ["'x", "y"], ∅⟩ := by decide +kernel
  have hoffence : Offence r.find? (CommandLine.parse "date 'x y") ["date", "'x"] := by
    rw [hparse]
    exact .surplus rfl rfl
  exact hanswers _ _ _ _ _ _ _ hsplit hoffence

end SessionShell
