import SessionShell.Proofs.Run.Bystander
import SessionShell.Proofs.Run.Focus
import SessionShell.Proofs.Run.Numbering

namespace SessionShell

/-- Whether a session that meets this at a read is to end, and no other with it. -/
def ReadOutcome.isEnd : ReadOutcome → Bool
  | endOfInput => true
  | failed _ => true
  | _ => false

/-- Whether a line runs the command that ends a session. -/
def Shell.endsSession (shell : Shell) (line : String) : Bool :=
  match Loop.lookUp shell line with
  | .ok ⟨_, .builtin .exit, _⟩ => true
  | _ => false

namespace Event

/-- Who reads in an event, and what. -/
def read? : Event → Option (SessionId × ReadOutcome)
  | input own r => some (own, r)
  | _ => none

/-- Whether in an event something is read or a session is created. -/
def isMove : Event → Bool
  | input .. => true
  | created _ => true
  | _ => false

end Event

namespace World

def reads (w : World) : List (SessionId × ReadOutcome) := w.events.filterMap Event.read?

/-- What has been read, and which sessions have been created, in the order of both. -/
def moves (w : World) : List Event := w.events.filter Event.isMove

end World

/-- A read by the innermost of the running sessions, with the sessions created because of it, leads
from one stack to another. -/
inductive Shift (shell : Shell) :
    List SessionId → SessionId → ReadOutcome → List Session → List SessionId → Prop
  | stayed {own : SessionId} {below : List SessionId} {text : String} :
    Shift shell (own :: below) own (.line text) [] (own :: below)
  /-- A child is created and discarded. -/
  | refused {own : SessionId} {below : List SessionId} {text : String} {c : Session}
    (hline : shell.startsChild text) :
    Shift shell (own :: below) own (.line text) [c] (own :: below)
  | started {own : SessionId} {below : List SessionId} {text : String} {c : Session}
    (hline : shell.startsChild text) :
    Shift shell (own :: below) own (.line text) [c] (c.id :: own :: below)
  | left {own : SessionId} {below : List SessionId} {text : String}
    (hline : shell.endsSession text) : Shift shell (own :: below) own (.line text) [] below
  | ended {own : SessionId} {below : List SessionId} {r : ReadOutcome} (hr : r.isEnd) :
    Shift shell (own :: below) own r [] below
  | aborted {own : SessionId} {below : List SessionId} :
    Shift shell (own :: below) own .aborted [] []

/-- What has been read and created leads from one stack of running sessions to another. -/
inductive Passage (shell : Shell) : List SessionId → List Event → List SessionId → Prop
  | rest {stack : List SessionId} : Passage shell stack [] stack
  | shift {stack stack₁ stack₂ : List SessionId} {own : SessionId} {r : ReadOutcome}
    {born : List Session} {moves : List Event} (hshift : Shift shell stack own r born stack₁) :
    Passage shell stack₁ moves stack₂ →
    Passage shell stack (.input own r :: (born.map .created ++ moves)) stack₂

namespace Passage

variable {shell : Shell} {stack stack₁ stack₂ : List SessionId} {moves moves₁ : List Event}

theorem append (h : Passage shell stack moves stack₁) (h₁ : Passage shell stack₁ moves₁ stack₂) :
    Passage shell stack (moves ++ moves₁) stack₂ := by
  induction h with
  | rest => exact h₁
  | shift hshift _ ih =>
    rw [List.cons_append, List.append_assoc]
    exact .shift hshift (ih h₁)

/-- Every session that has ended was running at first or has been started by a line. -/
theorem ends_le (h : Passage shell stack moves stack₁) :
    (moves.filterMap Event.read?).countP (·.2.isEnd) + stack₁.length ≤
      (moves.filterMap Event.read?).countP (!·.2.isEnd) + stack.length := by
  induction h with
  | rest => simp
  | @shift _ _ _ own r born moves hshift _ ih =>
    have hborn : (born.map Event.created).filterMap Event.read? = [] := by
      simp [List.filterMap_map, Function.comp_def, Event.read?]
    simp only [List.filterMap_cons, Event.read?, List.filterMap_append, hborn, List.nil_append,
      List.countP_cons]
    cases hshift with
    | ended hr =>
      simp only [hr, List.length_cons]
      simp only [Bool.not_true, if_true, Bool.false_eq_true, if_false]
      omega
    | stayed | refused | started | left | aborted =>
      simp only [ReadOutcome.isEnd, List.length_cons, List.length_nil] at ih ⊢
      simp only [Bool.not_false, if_true, Bool.false_eq_true, if_false]
      omega

theorem length_le (h : Passage shell stack moves stack₁) :
    (moves.filterMap Event.read?).length ≤
      2 * (moves.filterMap Event.read?).countP (!·.2.isEnd) + stack.length := by
  have hends := h.ends_le
  have hlength := List.length_eq_countP_add_countP
    (fun r : SessionId × ReadOutcome => r.2.isEnd) (l := moves.filterMap Event.read?)
  simp only [Bool.not_eq_true, ← Bool.not_eq_true', Bool.decide_eq_true] at hlength
  omega

end Passage

namespace World

variable {shell : Shell} {w w' : World} {own : SessionId} {s c : Session} {e : ShellError}
  {new : List Event}

theorem moves_eq (w : World) : w.moves = (w.log.filter Event.isMove).reverse :=
  List.filter_reverse ..

theorem reads_eq (w : World) : w.reads = w.moves.filterMap Event.read? := by
  rw [moves, List.filterMap_filter]
  refine List.filterMap_congr fun e _ => ?_
  cases e <;> rfl

theorem filter_isMove (hread : ∀ e ∈ new, e.isRead = false)
    (hturnover : ∀ e ∈ new, e.isTurnover = false) : new.filter Event.isMove = [] := by
  refine List.filter_eq_nil_iff.2 fun e he => ?_
  have hread := hread e he
  have hturnover := hturnover e he
  cases e with
  | prompt | input => cases hread
  | created | removed => cases hturnover
  | write | reply => exact Bool.false_ne_true

theorem moves_of_elapsed (h : Elapsed w new w') (hread : ∀ e ∈ new, e.isRead = false) :
    w'.moves = w.moves := by
  rw [moves_eq, moves_eq, h.log, List.filter_append, filter_isMove hread h.turnover,
    List.nil_append]

theorem moves_writeAll (w : World) (lines : List String) : (w.writeAll lines).moves = w.moves := by
  obtain ⟨new, hread, helapsed⟩ := w.elapsed_writeAll lines
  exact moves_of_elapsed helapsed hread

theorem moves_read (w : World) (own : SessionId) (prompt : String) :
    (w.read own prompt).2.moves = w.moves ++ [.input own (w.read own prompt).1] := by
  obtain ⟨new, hread, helapsed⟩ := w.elapsed_read own prompt
  obtain ⟨-, hturnover⟩ := List.forall_mem_cons.1 helapsed.turnover
  have hnew := filter_isMove hread (List.forall_mem_append.1 hturnover).1
  rw [moves_eq, moves_eq, helapsed.log, List.cons_append, List.filter_cons_of_pos rfl,
    List.reverse_cons, List.append_assoc, List.filter_append, hnew]
  rfl

theorem moves_ask {r : ReadOutcome} (h : w.ask shell own = (r, w')) :
    w'.moves = w.moves ++ [.input own r] := by
  obtain ⟨rfl, rfl⟩ := Prod.mk.inj h
  exact w.moves_read own _

theorem moves_rename (w : World) (own : SessionId) (text : String) :
    (w.rename own text).moves = w.moves := by
  unfold rename
  split
  · rfl
  · exact w.moves_writeAll [_]

theorem moves_create {parent : Option SessionId} (h : w.create shell parent = (.ok s, w')) :
    w'.moves = w.moves ++ [.created s] := by
  obtain ⟨ids, -, -, -, rfl⟩ := create_ok h
  have henter : (w.enter s ids).log = .created s :: w.log := rfl
  rw [moves_writeAll, moves_eq, moves_eq, henter, List.filter_cons_of_pos rfl, List.reverse_cons]

theorem moves_create_error {parent : Option SessionId} (h : w.create shell parent = (.error e, w')) :
    w'.moves = w.moves := by
  obtain ⟨ids, -, rfl, -⟩ := create_error h
  rfl

theorem moves_removed (w : World) (r : Registry) (s : Session) :
    ((w.setRegistry r).record (.removed s w.registry)).moves = w.moves := by
  rw [moves_eq, moves_eq]
  rfl

theorem moves_retire (w : World) (id : SessionId) : (w.retire id).moves = w.moves := by
  cases hs : w.registry.find? id with
  | none => rw [retire_of_missing hs]
  | some s => rw [retire_of_find? hs, moves_removed]

theorem moves_discard (w : World) (id : SessionId) : (w.discard id).moves = w.moves := by
  cases hs : w.registry.find? id with
  | none => rw [discard_of_missing hs]
  | some s => rw [discard_of_find? hs, moves_removed]

theorem moves_teardown (w : World) (id : SessionId) : (w.teardown id).2.moves = w.moves :=
  teardownAll_of_retire (J := fun v => v.moves = w.moves)
    (fun v line => (moves_writeAll v [line]).trans) (fun v id => (moves_retire v id).trans) _ rfl

theorem moves_createChild {parent : SessionId} (h : w.createChild shell parent = (.ok c, w')) :
    w'.moves = w.moves ++ [.created c] := by
  obtain ⟨-, -, w₁, -, -, hnew, -, -, rfl⟩ := createChild_ok h
  show w₁.moves = _
  exact moves_create hnew

theorem moves_createChild_error {parent : SessionId}
    (h : w.createChild shell parent = (.error e, w')) :
    w'.moves = w.moves ∨ ∃ c, w'.moves = w.moves ++ [.created c] := by
  obtain rfl | ⟨-, -, -, hnew⟩ | ⟨-, c, w₁, -, -, hnew, -, rfl⟩ := createChild_error h
  · exact .inl rfl
  · exact .inl (moves_create_error hnew)
  · exact .inr ⟨c, by rw [moves_discard, moves_create hnew]⟩

theorem endsSession_of_deed {text : String} (h : w.deed shell own text = .leave) :
    shell.endsSession text := by
  unfold deed Deed.ofLine at h
  unfold Shell.endsSession Loop.lookUp
  dsimp only at h ⊢
  by_cases hempty : (CommandLine.parse text).command.isEmpty
  · simp [hempty] at h
  · simp only [hempty, CommandLine.isEmpty] at h ⊢
    rcases hr : shell.resolver.resolve (CommandLine.parse text).command with reason | r <;>
      simp only [hr] at h
    · cases h
    · cases r with
      | core m | external m | unresolved => cases h
      | builtin b =>
        cases b with
        | exit => rfl
        | help | getCommand | hi | shell | info | prompt => cases h

end World

/-- The stack that a session leaves behind which was above `below`. -/
def Outcome.stack {α : Type} (below : List SessionId) : Outcome α → List SessionId
  | aborted => []
  | _ => below

theorem Course.passage {shell : Shell} {own : SessionId} {w w' : World} {o : Outcome Unit}
    (h : Course shell own w o w') :
    ∃ moves, w'.moves = w.moves ++ moves ∧
      ∀ below, Passage shell (own :: below) moves (o.stack below) := by
  -- the moves are the same over every stack, hence `below` comes after them
  induction h with
  | @stopped own w w' r o hask ho =>
    refine ⟨[.input own r], World.moves_ask hask, fun below => ?_⟩
    have hshift : Shift shell (own :: below) own r [] (o.stack below) := by
      cases r with
      | line text => cases ho
      | endOfInput | failed =>
        cases ho
        exact .ended rfl
      | aborted =>
        cases ho
        exact .aborted
    exact .shift hshift .rest
  | @left own w w' text hask hdeed =>
    refine ⟨[.input own (.line text)], World.moves_ask hask, fun below => ?_⟩
    exact .shift (.left (World.endsSession_of_deed hdeed)) .rest
  | @said own w w₁ w' o text lines hask hdeed _ ih =>
    obtain ⟨moves, hmoves, hpassage⟩ := ih
    refine ⟨.input own (.line text) :: moves, ?_, fun below => .shift .stayed (hpassage below)⟩
    rw [hmoves, World.moves_writeAll, World.moves_ask hask, List.append_assoc, List.singleton_append]
  | @renamed own w w₁ w' o text prompt hask hdeed _ ih =>
    obtain ⟨moves, hmoves, hpassage⟩ := ih
    refine ⟨.input own (.line text) :: moves, ?_, fun below => .shift .stayed (hpassage below)⟩
    rw [hmoves, World.moves_rename, World.moves_ask hask, List.append_assoc, List.singleton_append]
  | @refused own w w₁ w₂ w' o text e hask hdeed he _ ih =>
    obtain ⟨moves, hmoves, hpassage⟩ := ih
    have hwritten : (w₂.write e.message).moves = w₂.moves := w₂.moves_writeAll [_]
    rw [hwritten] at hmoves
    rcases World.moves_createChild_error he with hw₂ | ⟨c, hw₂⟩
    · refine ⟨.input own (.line text) :: moves, ?_, fun below => .shift .stayed (hpassage below)⟩
      rw [hmoves, hw₂, World.moves_ask hask, List.append_assoc, List.singleton_append]
    · refine ⟨.input own (.line text) :: .created c :: moves, ?_, fun below => ?_⟩
      · rw [hmoves, hw₂, World.moves_ask hask]
        simp
      · exact .shift (.refused (World.startsChild_of_deed hdeed)) (hpassage below)
  | @resumed own w w₁ w₂ w₃ w' o oc text c hask hdeed hc _ hoc _ ihc ih =>
    obtain ⟨inner, hinner, hchild⟩ := ihc
    obtain ⟨moves, hmoves, hpassage⟩ := ih
    refine ⟨.input own (.line text) :: ([.created c] ++ (inner ++ moves)), ?_, fun below => ?_⟩
    · rw [hmoves, World.moves_writeAll, World.moves_teardown, hinner, World.moves_createChild hc,
        World.moves_ask hask]
      simp
    · have hback : Passage shell (c.id :: own :: below) inner (own :: below) := by
        have := hchild (own :: below)
        cases oc with
        | ok | failed => exact this
        | aborted => exact absurd rfl hoc
      exact .shift (.started (World.startsChild_of_deed hdeed)) (hback.append (hpassage below))
  | @forsaken own w w₁ w₂ w' text c hask hdeed hc _ ih =>
    obtain ⟨inner, hinner, hchild⟩ := ih
    refine ⟨.input own (.line text) :: ([.created c] ++ inner), ?_, fun below => ?_⟩
    · rw [World.moves_retire, hinner, World.moves_createChild hc, World.moves_ask hask]
      simp
    · exact .shift (.started (World.startsChild_of_deed hdeed)) (hchild (own :: below))

namespace World

variable {shell : Shell} {script : List Entry} {w w' : World}

theorem moves_drive (shell : Shell) (id : SessionId) (w : World) :
    (w.drive (run shell) id).2.moves = (w.run shell id).2.moves := by
  unfold drive
  rcases w.run shell id with ⟨_ | _ | _, w'⟩
  · exact w'.moves_teardown id
  · exact w'.moves_teardown id
  · exact w'.moves_retire id

theorem passage_of_create {top : Session} (h : w.create shell none = (.ok top, w')) :
    ∃ moves, (w.openTop shell).2.moves = w.moves ++ .created top :: moves ∧
      Passage shell [top.id] moves [] := by
  obtain ⟨moves, hmoves, hpassage⟩ := (w'.course_of_run shell top.id).passage
  have hend : (w'.run shell top.id).1.stack [] = [] := by
    cases (w'.run shell top.id).1 <;> rfl
  have hpassage := hpassage []
  rw [hend] at hpassage
  refine ⟨moves, ?_, hpassage⟩
  have hopen : w.openTop shell = w'.drive (run shell) top.id := by
    rw [openTop, openBy, h]
  rw [hopen, moves_drive, hmoves, moves_create h, List.append_assoc, List.singleton_append]

theorem openTop_of_error {e : ShellError} (h : w.create shell none = (.error e, w')) :
    w.openTop shell = (.failed e, w') := by
  rw [openTop, openBy, h]

/-- What the read meets before which `n` others were made. -/
def met (script : List Entry) (n : Nat) : ReadOutcome :=
  (script[n]?.map Entry.outcome).getD .endOfInput

theorem countP_met_le (script : List Entry) (n : Nat) :
    (List.range n).countP (fun i => !(met script i).isEnd) ≤ min n script.length := by
  induction n with
  | zero => simp
  | succ n ih =>
    rw [List.range_succ, List.countP_append]
    by_cases hn : n < script.length
    · have hlast : [n].countP (fun i => !(met script i).isEnd) ≤ 1 := List.countP_le_length
      omega
    · have hmet : met script n = .endOfInput := by
        rw [met, List.getElem?_eq_none (Nat.le_of_not_lt hn)]
        rfl
      have hlast : [n].countP (fun i => !(met script i).isEnd) = 0 := by
        simp [hmet, ReadOutcome.isEnd]
      omega

/-- Every read has used up the next entry of the script, while there was any. -/
structure Consumed (script : List Entry) (w : World) : Prop where
  met : w.reads.map Prod.snd = (List.range w.reads.length).map (met script)
  left : w.script = script.drop w.reads.length

namespace Consumed

theorem congr (h : Consumed script w) (hreads : w'.reads = w.reads) (hscript : w'.script = w.script) :
    Consumed script w' :=
  ⟨hreads ▸ h.met, by rw [hscript, hreads, h.left]⟩

theorem read (h : Consumed script w) (own : SessionId) (prompt : String) :
    Consumed script (w.read own prompt).2 := by
  have hreads : (w.read own prompt).2.reads = w.reads ++ [(own, (w.read own prompt).1)] := by
    rw [reads_eq, reads_eq, moves_read, List.filterMap_append]
    rfl
  have hnext : script[w.reads.length]? = w.script.head? := by rw [h.left, List.head?_drop]
  have hmet : (w.read own prompt).1 = World.met script w.reads.length := by
    rw [World.met, hnext]
    rcases hs : w.script with _ | ⟨entry, rest⟩
    · rw [read_of_nil hs]
      rfl
    · rw [read_of_cons hs]
      rfl
  have hleft : (w.read own prompt).2.script = w.script.tail := by
    rcases hs : w.script with _ | ⟨entry, rest⟩
    · rw [read_of_nil hs]
      exact hs
    · rw [read_of_cons hs]
      exact script_outsides _ _
  refine ⟨?_, ?_⟩
  · rw [hreads, List.length_append, List.length_singleton, List.range_succ, List.map_append,
      List.map_append, h.met, List.map_singleton, List.map_singleton, hmet]
  · rw [hleft, h.left, hreads, List.tail_drop, List.length_append, List.length_singleton]

theorem world (script : List Entry) : WorldInvariant (Consumed script) where
  write {w} line h := by
    have hmoves : (w.write line).moves = w.moves := w.moves_writeAll [line]
    refine h.congr ?_ (script_outsides _ _)
    rw [reads_eq, reads_eq, hmoves]
  manager _ h := h.congr rfl rfl
  record {w e} he h := by
    refine h.congr ?_ rfl
    rw [reads, reads, events_record, List.filterMap_append]
    cases e with
    | created | removed => exact List.append_nil _
    | prompt | input | write | reply => cases he

theorem openTop (h : Consumed script w) (shell : Shell) : Consumed script (w.openTop shell).2 := by
  have hcreate := (world script).create shell none h
  have hrun := (world script).run (fun _ own prompt h => h.read own prompt) shell
  refine @RunInvariant.openTop _ _ [] _ hrun (fun e w' he => ?_) fun s w' hs => ?_
  · rwa [he] at hcreate
  · rwa [hs] at hcreate

theorem countP_le (h : Consumed script w) :
    w.reads.countP (!·.2.isEnd) ≤ script.length := by
  calc w.reads.countP (!·.2.isEnd)
      = (w.reads.map Prod.snd).countP (!·.isEnd) := by rw [List.countP_map]; rfl
    _ = (List.range w.reads.length).countP (fun i => !(World.met script i).isEnd) := by
        rw [h.met, List.countP_map]
        rfl
    _ ≤ script.length := (countP_met_le script _).trans (Nat.min_le_right _ _)

end Consumed

theorem reads_length_le (shell : Shell) (m : Manager) (script : List Entry)
    (onWrite : Nat → List Outside) :
    ((World.start m script onWrite).openTop shell).2.reads.length ≤ 2 * script.length + 1 := by
  have hstart : Consumed script (World.start m script onWrite) := ⟨rfl, rfl⟩
  have hscript := (hstart.openTop shell).countP_le
  rcases hc : (World.start m script onWrite).create shell none with ⟨e | top, w'⟩
  · rw [reads_eq, openTop_of_error hc, moves_create_error hc]
    exact Nat.zero_le _
  · obtain ⟨moves, hmoves, hpassage⟩ := passage_of_create hc
    have hreads : ((World.start m script onWrite).openTop shell).2.reads =
        moves.filterMap Event.read? := by
      rw [reads_eq, hmoves]
      rfl
    have hlength := hpassage.length_le
    rw [← hreads] at hlength
    rw [List.length_singleton] at hlength
    omega

theorem openBy_loop {turns : Nat} (h : 4 * w.script.length + 3 ≤ turns) :
    w.openBy shell (fun id => loop shell turns id {}) = w.openTop shell := by
  have hcreate := (worldInvariant_script_le w.script.length).create shell none (Nat.le_refl _)
  rw [openTop, openBy, openBy]
  rcases hc : w.create shell none with ⟨e | s, w'⟩
  · rfl
  · rw [hc] at hcreate
    dsimp only at hcreate ⊢
    have hrun : loop shell turns s.id {} w' = w'.run shell s.id := loop_eq_run (by omega)
    unfold drive
    dsimp only
    rw [hrun]

/-- A run that is opened needs no turns but those that it is given, and no tearing down in it goes on
for ever where links form no cycle. Its reads use up the script in its order, and are two for each
entry and one more at most: they lead from the new session on to none, so that the one which ends
that session is the last. -/
theorem reads_of_openTop (shell : Shell) (m : Manager) (script : List Entry)
    (onWrite : Nat → List Outside) :
    let start := World.start m script onWrite
    let w := (start.openTop shell).2
    (∀ turns, 4 * script.length + 3 ≤ turns →
      start.openBy shell (fun id => loop shell turns id {}) = start.openTop shell) ∧
    (∀ w₁ : World, w₁.registry.Acyclic → ∀ id,
      ∃ n ≤ w₁.registry.size, w₁.TornDown id n (w₁.teardown id)) ∧
    w.reads.length ≤ 2 * script.length + 1 ∧
    w.reads.map Prod.snd = (List.range w.reads.length).map (met script) ∧
    w.script = script.drop w.reads.length ∧
    match start.create shell none with
    | (.error _, _) => w.moves = []
    | (.ok top, _) => ∃ moves, w.moves = .created top :: moves ∧ Passage shell [top.id] moves [] := by
  intro start w
  have hstart : Consumed script start := ⟨rfl, rfl⟩
  have hconsumed : Consumed script w := hstart.openTop shell
  refine ⟨fun turns hturns => openBy_loop hturns, fun w₁ ⟨_, hranked⟩ => tornDown_of_ranked hranked,
    reads_length_le shell m script onWrite, hconsumed.met, hconsumed.left, ?_⟩
  rcases hc : start.create shell none with ⟨e | top, w'⟩ <;> dsimp only
  · show (start.openTop shell).2.moves = []
    rw [openTop_of_error hc, moves_create_error hc]
    rfl
  · exact passage_of_create hc

-- the bound is met where a line starts a child and the input ends
example :
    let w := ((start (.start ⟨0⟩) [⟨[], .line "shell"⟩] fun _ => []).openTop .bare).2
    w.reads = [(⟨0, 1⟩, .line "shell"), (⟨0, 2⟩, .endOfInput), (⟨0, 1⟩, .endOfInput)] := by
  decide +kernel

end World

end SessionShell
