import SessionShell.Config
import SessionShell.Proofs.Files
import SessionShell.Proofs.Loading
import SessionShell.Proofs.Lookup
import SessionShell.Proofs.Resolution
import SessionShell.Proofs.Run.Lifecycle
import SessionShell.Run.Operation

namespace SessionShell

namespace Config

/-- Whether a module of the given name is looked for in the directory of manifests: the name is
plain, and no earlier tier knows it. -/
structure Consults (c : Config) (n : String) : Prop where
  ne_empty : n ≠ ""
  visible : n.toList.head? ≠ some '.'
  plain : ∀ x ∈ n.toList, x ≠ '/' ∧ x ≠ '\\' ∧ x ≠ '\x00'
  notInternal : ∀ b : Builtin, b.name ≠ n
  notCore : c.builtin = true → n ≠ "echo" ∧ n ≠ "date"

/-- Whether the same is read for every manifest that is looked for. -/
def SameManifests (c : Config) (files files' : Files) : Prop :=
  ∀ dir, c.modulesDir = some dir → ∀ n, c.Consults n →
    files.readText (Files.join dir (n ++ ".json")) =
      files'.readText (Files.join dir (n ++ ".json"))

variable {c : Config} {n : String}

theorem consults_of_isPlain (hplain : ManifestDirectory.isPlain n)
    (hinternal : Builtin.ofName? n = none) (hcore : c.builtin = true → n ≠ "echo" ∧ n ≠ "date") :
    c.Consults n := by
  obtain ⟨hempty, hvisible, hchars⟩ := ManifestDirectory.isPlain_iff.1 hplain
  exact ⟨hempty, hvisible, hchars, Builtin.ofName?_eq_none.1 hinternal, hcore⟩

theorem Consults.isEntryName (h : c.Consults n) : Files.IsEntryName (n ++ ".json") := by
  cases hn : n.toList with
  | nil => exact absurd (String.toList_injective hn) h.ne_empty
  | cons x xs =>
    have hx : x ≠ '.' := by
      intro heq
      exact h.visible (by rw [hn, heq]; rfl)
    refine Files.isEntryName_of_head (c := x) (by simp [hn]) hx ?_
    intro hslash
    rw [String.toList_append, List.mem_append] at hslash
    rcases hslash with hslash | hslash
    · exact (h.plain '/' hslash).1 rfl
    · exact absurd hslash (by decide)

end Config

theorem Catalog.load_builtin {n : String} (h : n ≠ "echo" ∧ n ≠ "date") :
    Catalog.builtin.load n = .error .absent := by
  have hfind : Catalog.builtin.find? n = none := by
    unfold Catalog.builtin
    rw [Keyed.find?_insert, if_neg h.2.symm, Keyed.find?_insert, if_neg h.1.symm]
    rfl
  rw [Catalog.load, hfind]

theorem ManifestDirectory.load_congr {files files' : Files} {d : ManifestDirectory} {n : String}
    (h : isPlain n → files.readText (d.path n) = files'.readText (d.path n)) :
    load files d n = load files' d n := by
  unfold load
  by_cases hplain : isPlain n
  · rw [h hplain]
  · simp [hplain]

namespace Config

variable {c : Config} {files files' : Files}

def directory (c : Config) (files : Files) : List Provider :=
  (c.modulesDir.map fun dir => ManifestDirectory.provider files ⟨dir⟩).toList

theorem directory_load (h : c.SameManifests files files') {n : String}
    (hinternal : Builtin.ofName? n = none)
    (hcore : c.builtin = true → n ≠ "echo" ∧ n ≠ "date") :
    loadFirst (c.directory files) n = loadFirst (c.directory files') n := by
  unfold directory
  cases hdir : c.modulesDir with
  | none => rfl
  | some dir =>
    have hload : ManifestDirectory.load files ⟨dir⟩ n = ManifestDirectory.load files' ⟨dir⟩ n := by
      apply ManifestDirectory.load_congr
      intro hplain
      exact h dir hdir n (consults_of_isPlain hplain hinternal hcore)
    simp only [Option.map_some, Option.toList_some, loadFirst, ManifestDirectory.provider, hload]

theorem load_eq (h : c.SameManifests files files') {n : String}
    (hinternal : Builtin.ofName? n = none) :
    loadFirst (c.providers files) n = loadFirst (c.providers files') n := by
  have hsplit (files : Files) : c.providers files =
      (if c.builtin then [Catalog.builtin.provider] else []) ++ c.directory files := rfl
  rw [hsplit, hsplit]
  -- the directory is asked for no name that a module of the shell bears
  by_cases hbuiltin : c.builtin = true
  · simp only [hbuiltin, if_true, List.singleton_append, loadFirst, Catalog.provider]
    by_cases hcore : n ≠ "echo" ∧ n ≠ "date"
    · rw [Catalog.load_builtin hcore]
      exact directory_load h hinternal fun _ => hcore
    · obtain rfl | rfl : n = "echo" ∨ n = "date" := by
        simpa only [ne_eq, not_and_or, not_not] using hcore
      · rfl
      · rfl
  · rw [if_neg hbuiltin]
    exact directory_load h hinternal fun hb => absurd hb hbuiltin

theorem resolve_eq (h : c.SameManifests files files') :
    (c.shell files).resolver.resolve = (c.shell files').resolver.resolve := by
  funext n
  simp only [Resolver.resolve, shell]
  split
  · rfl
  · split
    · rfl
    · rename_i hinternal
      rw [load_eq h hinternal]

end Config

/-- Two shells that prompt alike and resolve all names alike. -/
structure Shell.Alike (shell shell' : Shell) : Prop where
  resolve : shell.resolver.resolve = shell'.resolver.resolve
  prompt : shell.prompt = shell'.prompt

namespace Shell.Alike

variable {shell shell' : Shell}

theorem create (h : shell.Alike shell') (parent : Option SessionId) (w : World) :
    w.create shell parent = w.create shell' parent := by
  simp only [World.create_eq, newborn, h.prompt]

theorem createChild (h : shell.Alike shell') (parent : SessionId) (w : World) :
    w.createChild shell parent = w.createChild shell' parent := by
  simp only [World.createChild, h.create]

theorem lookUp (h : shell.Alike shell') (line : String) :
    Loop.lookUp shell line = Loop.lookUp shell' line := by
  simp only [Loop.lookUp, h.resolve]

theorem runBuiltin (h : shell.Alike shell') (spawn : Spawn) (own : SessionId) (a : Arguments)
    (w : World) (b : Builtin) :
    runBuiltin shell spawn own a w b = SessionShell.runBuiltin shell' spawn own a w b := by
  have hreport : resolutionReport shell = resolutionReport shell' := by
    funext name
    simp only [resolutionReport, h.resolve]
  cases b with
  | getCommand => simp only [SessionShell.runBuiltin, getCommandLines, hreport]
  | prompt => simp only [SessionShell.runBuiltin, newPrompt, h.prompt]
  | help | exit | hi | shell | info => rfl

theorem turn (h : shell.Alike shell') (spawn : Spawn) (own : SessionId) (l : Loop) (w : World) :
    l.turn shell spawn own w = l.turn shell' spawn own w := by
  simp only [Loop.turn, Loop.currentPrompt, Command.execute, h.prompt, h.lookUp, h.runBuiltin]

theorem loop (h : shell.Alike shell') (n : Nat) (own : SessionId) (l : Loop) (w : World) :
    World.loop shell n own l w = World.loop shell' n own l w := by
  induction n generalizing own l w with
  | zero => rfl
  | succ n ih =>
    -- a child has fewer turns than the session that starts it
    have hspawn : World.spawnBy shell (fun id => World.loop shell n id {}) =
        World.spawnBy shell' fun id => World.loop shell' n id {} := by
      funext parent w
      simp only [World.spawnBy, World.drive, h.createChild, ih]
    simp only [World.loop, hspawn, h.turn, ih]

theorem perform (h : shell.Alike shell') (op : Operation) (script : List Entry)
    (onWrite : Nat → List Outside) (m : Manager) :
    op.perform shell script onWrite m = op.perform shell' script onWrite m := by
  have hrun : World.run shell = World.run shell' := by
    funext id w
    simp only [World.run, h.loop]
  unfold Operation.perform
  cases op with
  | create parent => simp only [Operation.performIn, h.create]
  | createChild parent => simp only [Operation.performIn, h.createChild]
  | teardown id => rfl
  | openTop =>
    simp only [Operation.performIn, World.openTop, World.openBy, h.create, hrun]
  | spawnChild parent =>
    simp only [Operation.performIn, World.spawnChild, World.spawnBy, h.createChild, hrun]

end Shell.Alike

/-- A run depends on files only as far as manifests are read that no earlier tier hides. In a tree
these are read alike if the same stands under their names in the directory of manifests, and no
link: neither other entries there count, nor what a directory there holds, nor anything elsewhere.
-/
theorem Config.perform_of_same_manifests (c : Config) :
    (∀ files files' : Files, c.SameManifests files files' →
      ∀ (op : Operation) (script : List Entry) (onWrite : Nat → List Outside) (m : Manager),
        op.perform (c.shell files) script onWrite m =
          op.perform (c.shell files') script onWrite m) ∧
    ∀ tree tree' : FileTree,
      (∀ dir, c.modulesDir = some dir →
        FileTree.Alike (fun name => ∃ n, c.Consults n ∧ name = n ++ ".json")
          (tree.reach dir) (tree'.reach dir)) →
      c.SameManifests tree.files tree'.files := by
  constructor
  · intro files files' h op script onWrite m
    exact Shell.Alike.perform ⟨resolve_eq h, rfl⟩ op script onWrite m
  · intro tree tree' h dir hdir n hn
    have hread : tree.files.read _ = tree'.files.read _ :=
      (h dir hdir).read_join ⟨n, hn, rfl⟩ hn.isEntryName
    rw [Files.readText, Files.readText, hread]

/-- A broken manifest of a command of the shell, a hidden one, a directory with another one, and a
file beside the directory of manifests, to a run that asks for all of them. -/
theorem same_run_without_broken_manifests :
    let c : Config := { modulesDir := some "/mods/" }
    let hello : FileNode := .file (.ok (Text.Utf8.encode "\x7b\"lines\":[\"hello $1\"]\x7d"))
    let broken : FileNode := .file (.ok [255])
    let tree : FileTree := ⟨{ entries := [("hello.json", broken), ("mods", .directory { entries :=
      [("echo.json", broken), (".hello.json", broken), ("hello.json", hello),
        ("old", .directory { entries := [("hello.json", broken)] })] })] }, []⟩
    let bare : FileTree :=
      ⟨{ entries := [("mods", .directory { entries := [("hello.json", hello)] })] }, []⟩
    let script : List Entry := ["echo a", "hello you", "old/hello", ".hello", "../hello",
      "get-command echo hello .hello"].map fun line => { outcome := .line line }
    let run := fun tree : FileTree =>
      Operation.openTop.perform (c.shell tree.files) script (fun _ => []) (.start ⟨0⟩)
    c.SameManifests tree.files bare.files ∧ run tree = run bare ∧
      .write "hello you" ∈ (run tree).2.log := by
  intro c hello broken tree bare script run
  have halike : ∀ dir, c.modulesDir = some dir →
      FileTree.Alike (fun name => ∃ n, c.Consults n ∧ name = n ++ ".json")
        (tree.reach dir) (bare.reach dir) := by
    rintro dir hdir
    cases hdir
    refine .directory rfl ?_
    rintro _ ⟨n, hn, rfl⟩
    have hinj (m : String) (h : n ++ ".json" = m ++ ".json") : n = m :=
      (String.append_left_inj _).1 h
    have hecho : n ++ ".json" ≠ "echo.json" := fun h => (hn.notCore rfl).1 (hinj "echo" h)
    have hhidden : n ++ ".json" ≠ ".hello.json" := fun h => by
      rw [hinj ".hello" h] at hn
      exact hn.visible rfl
    have hold : n ++ ".json" ≠ "old" := fun h => by
      have hlength : n.length + 5 = 3 := by
        rw [← show ("old" : String).length = 3 by decide, ← h, String.length_append]
        rfl
      omega
    simp only [List.lookup_cons, beq_false_of_ne hecho, beq_false_of_ne hhidden,
      beq_false_of_ne hold, List.lookup_nil]
    cases n ++ ".json" == "hello.json" with
    | true => exact .file _
    | false => exact .missing
  have hsame := c.perform_of_same_manifests.2 tree bare halike
  exact ⟨hsame, c.perform_of_same_manifests.1 _ _ hsame _ script _ _, by decide +kernel⟩

end SessionShell
