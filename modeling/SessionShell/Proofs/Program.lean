import SessionShell.Program
import SessionShell.Proofs.Run.Meanwhile
import SessionShell.Proofs.Run.Readable
import SessionShell.Proofs.Run.Simulation

namespace SessionShell

open Text.Utf8 (Bytes)

namespace Program

/-- Lines as they stand in the output. -/
def linesText (lines : List String) : String := String.join (lines.map (· ++ "\n"))

section

variable {w w' : World}

theorem outputText_record (w : World) (e : Event) :
    outputText (w.record e) = outputText w ++ eventText e := by
  simp [outputText, World.events, World.record, String.join_append]

theorem outputText_outsides (w : World) (os : List Outside) :
    outputText (os.foldl World.outside w) = outputText w := by
  induction os generalizing w with
  | nil => rfl
  | cons o os ih =>
    rw [List.foldl_cons, ih]
    cases o with
    | clock t => rfl
    | request q =>
      unfold World.outside
      dsimp only
      rw [outputText_record]
      exact String.append_empty

theorem outputText_write (w : World) (line : String) :
    outputText (w.write line) = outputText w ++ (line ++ "\n") := by
  rw [World.write_eq, outputText_outsides]
  exact outputText_record w (.write line)

theorem outputText_writeAll (w : World) (lines : List String) :
    outputText (w.writeAll lines) = outputText w ++ linesText lines := by
  induction lines generalizing w with
  | nil => exact String.append_empty.symm
  | cons line lines ih =>
    show outputText ((w.write line).writeAll lines) = _
    rw [ih, outputText_write]
    simp [linesText, String.append_assoc]

theorem outputText_of_suffix (h : w.log <:+ w'.log) :
    ∃ more, outputText w' = outputText w ++ more := by
  obtain ⟨new, hnew⟩ := h
  refine ⟨String.join (new.reverse.map eventText), ?_⟩
  simp [outputText, World.events, ← hnew, String.join_append]

end

end Program

namespace World

variable {shell : Shell} {w w₁ : World} {s : Session}

/-- What has happened before a session runs stays on record until it is gone. -/
theorem suffix_log_run (shell : Shell) (own : SessionId) (w : World) :
    w.log <:+ ((w.run shell own).2.retire own).log := by
  have hkeep := worldInvariant_suffix_log w.log
  have hread (v : World) (id : SessionId) (prompt : String) (h : w.log <:+ v.log) :
      w.log <:+ (v.read id prompt).2.log := by
    obtain ⟨new, -, helapsed⟩ := v.elapsed_read id prompt
    exact h.trans helapsed.suffix
  have hrun : w.log <:+ (w.run shell own).2.log :=
    @RunInvariant.run shell _ own [] w (hkeep.run hread shell) (List.suffix_refl _)
  exact hkeep.retire own hrun

/-- Where no other party interferes, the session that has been run is still registered under its
identifier, and has no child, when it is torn down. -/
theorem Quiet.teardown_run (hw : w.Quiet) (hs : w.registry.find? s.id = some s)
    (hprompt : s.prompt = shell.prompt) (hchild : s.child = none) :
    ((w.run shell s.id).2.teardown s.id).2 =
      ((w.run shell s.id).2.retire s.id).writeAll s.deathNotice := by
  have hmirrors : w.registry.Mirrors w.registry.find? s.id shell.prompt :=
    ⟨⟨s, hs, hprompt, hchild⟩, fun _ => rfl⟩
  -- the run changes nothing in the registry but the prompt of its session
  have hagrees : Agrees (w.registry.Reprompted s.id) (w.run shell s.id)
      (Tape.evaluate shell w.registry.find? s.id shell.prompt w.tape) :=
    loops_agree shell w.script.length rfl hw hmirrors (Nat.le_refl _) (Nat.le_refl _)
  exact teardown_reprompted hs hchild hagrees.registry

open Program in
/-- A top-most session that can read to the end of the input shows its birth notice first and its
death notice last. -/
theorem Quiet.outputText_openTop {P : String → Prop} (hw : w.Quiet) (hreads : w.Reads P)
    (hs : w.create shell none = (.ok s, w₁)) :
    (w.openTop shell).1 = .ok s.id ∧ ∃ between, outputText (w.openTop shell).2 =
      outputText w ++ linesText s.birthNotice ++ between ++ linesText s.deathNotice := by
  obtain ⟨-, w₂, hcourse, hopen⟩ := openTop_of_reads hreads hs
  obtain ⟨hchild, -⟩ := links_of_create hs
  obtain ⟨ids, -, -, hnew, rfl⟩ := create_ok hs
  have hprompt : s.prompt = shell.prompt := congrArg Session.prompt hnew
  obtain ⟨hquiet, hregistry, -⟩ := enter_quiet hw s ids
  have hfind : ((w.enter s ids).writeAll s.birthNotice).registry.find? s.id = some s := by
    rw [hregistry, Keyed.find?_insert, if_pos rfl]
  have hrun := run_of_course hcourse
  have hend := hquiet.teardown_run hfind hprompt hchild
  have hlog := suffix_log_run shell s.id ((w.enter s ids).writeAll s.birthNotice)
  rw [hrun] at hend hlog
  obtain ⟨between, hbetween⟩ := outputText_of_suffix hlog
  refine ⟨by rw [hopen], between, ?_⟩
  rw [hopen, hend, outputText_writeAll, hbetween, outputText_writeAll]
  have hbegun : outputText (w.enter s ids) = outputText w := by
    unfold enter
    rw [outputText_record]
    exact String.append_empty
  rw [hbegun]

end World

namespace Program

section

variable {argv : List Bytes} {env : Environment} {files : Files} {o : Options}

theorem plan_of_parse (h : Options.parse argv = .ok o) :
    plan argv env files =
      if o.help then .ok .help else if o.version then .ok .version
      else ((Config.load files env o).mapError .config).map .session := by
  unfold plan
  rw [h]
  show (if o.help = true then _ else _ : Except StartError Plan) = _
  split
  · rfl
  · split
    · rfl
    · cases Config.load files env o <;> rfl

theorem plan_error_iff (argv : List Bytes) (env : Environment) (files : Files) :
    (∃ e, plan argv env files = .error e) ↔
      (∃ e, Options.parse argv = .error e) ∨
        ∃ o, Options.parse argv = .ok o ∧ ¬ o.help ∧ ¬ o.version ∧
          ∃ e, Config.load files env o = .error e := by
  cases h : Options.parse argv with
  | error e =>
    have hplan : plan argv env files = .error (.options e) := by
      unfold plan
      rw [h]
      rfl
    simp [hplan]
  | ok o =>
    rw [plan_of_parse h]
    by_cases hhelp : o.help
    · simp [hhelp]
    · by_cases hversion : o.version
      · simp [hhelp, hversion]
      · cases hload : Config.load files env o <;>
          simp [hhelp, hversion, hload, Except.mapError, Except.map]

theorem plan_session {c : Config} (h : Options.parse argv = .ok o) (hhelp : ¬ o.help)
    (hversion : ¬ o.version) (hload : Config.load files env o = .ok c) :
    plan argv env files = .ok (.session c) := by
  rw [plan_of_parse h, if_neg hhelp, if_neg hversion, hload]
  rfl

end

/-- The session that the program opens at a time. -/
def topMost (c : Config) (files : Files) (now : Instant) : Session :=
  (c.shell files).newborn ⟨now.stamp, 1⟩ now none

theorem create_topMost (c : Config) (files : Files) (reads : List Entry) (now : Instant) :
    ∃ w, (World.start (.start now) reads fun _ => []).create (c.shell files) none =
      (.ok (topMost c files now), w) := by
  rw [World.create_eq]
  exact ⟨_, rfl⟩

/-- A session on lines ends well, between the two notices of the same session. -/
theorem runSession_of_lines (c : Config) (files : Files) {reads : List Entry} (now : Instant)
    {lines : List String} (hlines : reads.map Entry.outcome = lines.map .line)
    (hquiet : ∀ e ∈ reads, ∀ o ∈ e.before, o.isQuiet) :
    ∃ between w, runSession c files reads now = (.ok (topMost c files now).id, w) ∧
      outputText w = linesText (topMost c files now).birthNotice ++ between ++
        linesText (topMost c files now).deathNotice := by
  obtain ⟨w₁, hcreate⟩ := create_topMost c files reads now
  have hstart : (World.start (.start now) reads fun _ => []).Quiet :=
    ⟨hquiet, fun _ _ ho => absurd ho List.not_mem_nil⟩
  have hreads : (World.start (.start now) reads fun _ => []).Reads fun _ => True :=
    World.reads_start hlines fun _ _ => trivial
  obtain ⟨hok, between, htext⟩ := hstart.outputText_openTop hreads hcreate
  exact ⟨between, _, Prod.ext hok rfl, htext⟩

/-- Whatever the arguments, the environment, the files and the bytes on standard input, the program
ends with code 2 exactly when its options do not parse, or it is asked for neither its help nor its
version and its configuration cannot be loaded; it has shown nothing and started no session then.
Else it ends with code 0, and what a session has shown begins with the birth notice and ends with
the death notice of the same top-most session. -/
theorem run_exitCode (argv : List Bytes) (env : Environment) (files : Files) (stdin : Bytes)
    (now : Instant) {reads : List Entry}
    (hstdin : reads.map Entry.outcome = (Text.lines stdin).map .line)
    (hquiet : ∀ e ∈ reads, ∀ o ∈ e.before, o.isQuiet) :
    let result := run argv env files reads now
    (result.exitCode = 2 ↔ (∃ e, Options.parse argv = .error e) ∨
      ∃ o, Options.parse argv = .ok o ∧ ¬ o.help ∧ ¬ o.version ∧
        ∃ e, Config.load files env o = .error e) ∧
    (result.exitCode = 2 → ∃ e, plan argv env files = .error e ∧ result = ⟨2, "", e.lines⟩) ∧
    (result.exitCode ≠ 2 → result.exitCode = 0) ∧
    ∀ o, Options.parse argv = .ok o → ¬ o.help → ¬ o.version → result.exitCode ≠ 2 →
      ∃ c between, Config.load files env o = .ok c ∧
        result.output = linesText (topMost c files now).birthNotice ++ between ++
          linesText (topMost c files now).deathNotice := by
  intro result
  rw [← plan_error_iff]
  cases hplan : plan argv env files with
  | error e =>
    have hresult : result = ⟨2, "", e.lines⟩ := by
      simp only [result, run, hplan]
    simp [hresult]
  | ok p =>
    have hcode : result.exitCode = 0 := by
      cases p with
      | help | version => simp only [result, run, hplan]
      | session c =>
        obtain ⟨-, w, hrun, -⟩ := runSession_of_lines c files now hstdin hquiet
        simp only [result, run, hplan, hrun, ending]
    refine ⟨by simp [hcode], by simp [hcode], fun _ => hcode, fun o hparse hhelp hversion _ => ?_⟩
    cases hload : Config.load files env o with
    | error e =>
      -- the program would have refused to start
      have herror : ∃ e, plan argv env files = .error e :=
        (plan_error_iff ..).2 (.inr ⟨o, hparse, hhelp, hversion, e, hload⟩)
      obtain ⟨e, herror⟩ := herror
      cases hplan.symm.trans herror
    | ok c =>
      cases hplan.symm.trans (plan_session hparse hhelp hversion hload)
      obtain ⟨between, w, hrun, htext⟩ := runSession_of_lines c files now hstdin hquiet
      refine ⟨c, between, rfl, ?_⟩
      simp only [result, run, hplan, hrun, ending]
      exact htext

/-- A directory with a broken manifest, an open quote, and bytes that are no text and are cut off in
a child of a child when the input ends. -/
theorem exitCode_of_broken_input :
    let argv := ["nested-shell", "-m", "mods"].map fun a => a.toList.flatMap String.utf8EncodeChar
    let env : Environment := ⟨fun _ => none⟩
    let files := Files.ofList [("mods/bad.json", .ok [0x7b])] .notFound
    let text := "shell\nbad\n'open\nshell\n"
    let stdin := text.toList.flatMap String.utf8EncodeChar ++ [0xff, 0xe2]
    let reads : List Entry := (Text.lines stdin).map fun line => ⟨[.clock ⟨9⟩], .line line⟩
    let result := run argv env files reads ⟨7⟩
    let events := (runSession { modulesDir := some "mods" } files reads ⟨7⟩).2.events
    reads.map Entry.outcome = (Text.lines stdin).map .line ∧
      (∀ e ∈ reads, ∀ o ∈ e.before, o.isQuiet) ∧ result.exitCode = 0 ∧
      .write ("unhandled error while loading \x60bad\x60: malformed manifest mods/bad.json: " ++
        "EOF while parsing an object at line 1 column 1") ∈ events ∧
      .write "Returning to parent shell (sh-9-2)" ∈ events ∧
      ∃ between, result.output =
        linesText ["*****", "Shell (sh-7-1) started on 1970-01-01 00:00:00",
          "This is the top-most shell", "*****"] ++ between ++
        linesText ["*****", "Shell (sh-7-1) exiting...", "This was the top-most shell",
          "*****"] := by
  intro argv env files text stdin reads result events
  have hstdin : reads.map Entry.outcome = (Text.lines stdin).map .line := by
    rw [List.map_map]
    rfl
  have hquiet : ∀ e ∈ reads, ∀ o ∈ e.before, o.isQuiet := by
    intro e he o ho
    obtain ⟨line, -, rfl⟩ := List.mem_map.1 he
    rw [List.mem_singleton.1 ho]
    rfl
  obtain ⟨-, -, -, hnotices⟩ := run_exitCode argv env files stdin ⟨7⟩ hstdin hquiet
  have hcode : result.exitCode = 0 := by decide +kernel
  have hparse : Options.parse argv = .ok { modules := some "mods" } := by decide +kernel
  have hconfig : Config.load files env { modules := some "mods" } =
      .ok { modulesDir := some "mods" } := by rfl
  have hcode' : result.exitCode ≠ 2 := fun h => absurd (hcode.symm.trans h) (by decide)
  obtain ⟨c, between, hload, houtput⟩ := hnotices _ hparse (by decide) (by decide) hcode'
  cases hconfig.symm.trans hload
  have hbirth : (topMost { modulesDir := some "mods" } files ⟨7⟩).birthNotice =
      ["*****", "Shell (sh-7-1) started on 1970-01-01 00:00:00", "This is the top-most shell",
        "*****"] := by decide +kernel
  have hdeath : (topMost { modulesDir := some "mods" } files ⟨7⟩).deathNotice =
      ["*****", "Shell (sh-7-1) exiting...", "This was the top-most shell", "*****"] := by
    decide +kernel
  refine ⟨hstdin, hquiet, hcode, by decide +kernel, by decide +kernel, between, ?_⟩
  rw [houtput, hbirth, hdeath]

end Program

end SessionShell
