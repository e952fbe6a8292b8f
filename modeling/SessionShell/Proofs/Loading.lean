import SessionShell.Command.Provider
import SessionShell.Proofs.Existence
import SessionShell.Proofs.Text.Utf8

namespace SessionShell.ManifestDirectory

/-- Whether a name can be the name of a manifest. -/
structure Plain (name : String) : Prop where
  ne_empty : name ≠ ""
  visible : name.toList.head? ≠ some '.'
  chars : ∀ c ∈ name.toList, c ≠ '/' ∧ c ≠ '\\' ∧ c ≠ '\x00'

/-- Why a manifest at a path cannot be brought up. -/
inductive Fault (tree : FileTree) (path : String) : (reason : String) → Prop
  /-- The path cannot be followed. -/
  | barred {e : FileError} (hbarred : tree.Barred path e) :
    Fault tree path ("cannot read " ++ path ++ ": " ++ e.message)
  | unreadable {reason : String} (hopen : ∀ e, ¬tree.Barred path e)
    (hstands : tree.Stands path (.file (.error reason))) :
    Fault tree path ("cannot read " ++ path ++ ": " ++ reason)
  | directory {d : Directory} {above : List Directory} (hopen : ∀ e, ¬tree.Barred path e)
    (hstands : tree.Stands path (.directory d above)) :
    Fault tree path ("cannot read " ++ path ++ ": " ++
      d.unreadable.getD FileError.isDirectory.message)
  | notText {bytes : Text.Utf8.Bytes} (hopen : ∀ e, ¬tree.Barred path e)
    (hstands : tree.Stands path (.file (.ok bytes)))
    (hbytes : ∀ text, Text.Utf8.encode text ≠ bytes) :
    Fault tree path ("cannot read " ++ path ++ ": " ++ FileError.notText.message)
  | malformed {text reason : String} (hopen : ∀ e, ¬tree.Barred path e)
    (hstands : tree.Stands path (.file (.ok (Text.Utf8.encode text))))
    (hparse : Manifest.parse text = .error reason) :
    Fault tree path ("malformed manifest " ++ path ++ ": " ++ reason)

/-- What comes of the manifest at a path. -/
inductive Answer (tree : FileTree) (path : String) : Except LoadError Module → Prop
  | absent (hopen : ∀ e, ¬tree.Barred path e) (hnone : ∀ p, ¬tree.Stands path p) :
    Answer tree path (.error .absent)
  | failed {reason : String} (hfault : Fault tree path reason) :
    Answer tree path (.error (.failed reason))
  | loaded {text : String} {manifest : Manifest} (hopen : ∀ e, ¬tree.Barred path e)
    (hstands : tree.Stands path (.file (.ok (Text.Utf8.encode text))))
    (hparse : Manifest.parse text = .ok manifest) : Answer tree path (.ok manifest.toModule)

variable {name : String} {tree : FileTree} {d : ManifestDirectory}

theorem isPlain_iff : isPlain name ↔ Plain name := by
  have hempty : name.isEmpty = false ↔ name ≠ "" := by simp
  simp only [isPlain, Bool.and_eq_true, Bool.not_eq_true', List.any_eq_false, decide_eq_true_eq,
    Bool.or_eq_true, not_or, and_assoc, hempty]
  exact ⟨fun ⟨hne, hvisible, hchars⟩ => ⟨hne, hvisible, hchars⟩,
    fun ⟨hne, hvisible, hchars⟩ => ⟨hne, hvisible, hchars⟩⟩

theorem path_ne_empty (d : ManifestDirectory) (name : String) : d.path name ≠ "" := by
  have hname : name ++ ".json" ≠ "" := by simp
  unfold path Files.join
  split <;> simp [hname]

theorem load_of_hidden {files : Files} (h : ¬Plain name) : load files d name = .error .absent := by
  have hplain : isPlain name = false := by
    rw [← Bool.not_eq_true, isPlain_iff]
    exact h
  rw [load, hplain]
  rfl

theorem load_of_plain {files : Files} (h : Plain name) :
    load files d name = match files.readText (d.path name) with
      | .error .notFound => .error .absent
      | .error e => .error (.failed ("cannot read " ++ d.path name ++ ": " ++ e.message))
      | .ok text =>
        match Manifest.parse text with
        | .ok m => .ok m.toModule
        | .error reason =>
          .error (.failed ("malformed manifest " ++ d.path name ++ ": " ++ reason)) := by
  rw [load, isPlain_iff.2 h]
  rfl

theorem readText_eq (tree : FileTree) (path : String) :
    tree.files.readText path = (tree.find path).bind fun p => p.content.bind fun bytes =>
      (Text.Utf8.decode? bytes).elim (.error .notText) .ok := by
  show ((tree.find path).bind Place.content).bind _ = _
  rcases tree.find path with e | ((reason | bytes) | ⟨d, above⟩)
  · rfl
  · rfl
  · dsimp only [Except.bind, Place.content]
    cases Text.Utf8.decode? bytes <;> rfl
  · rfl

theorem readText_of_stands {path : String} {p : Place} (hne : path ≠ "")
    (hopen : ∀ e, ¬tree.Barred path e) (hstands : tree.Stands path p) :
    tree.files.readText path = p.content.bind fun bytes =>
      (Text.Utf8.decode? bytes).elim (.error .notText) .ok := by
  rw [readText_eq, (FileTree.find_eq_ok_iff hne).2 ⟨hstands, hopen⟩]
  rfl

theorem load_of_missing (hplain : Plain name) (hopen : ∀ e, ¬tree.Barred (d.path name) e)
    (hnone : ∀ p, ¬tree.Stands (d.path name) p) : d.load tree.files name = .error .absent := by
  have hfind : tree.find (d.path name) = .error .notFound :=
    (FileTree.find_eq_error_iff (d.path_ne_empty name)).2 (.inr ⟨rfl, hnone, hopen⟩)
  rw [load_of_plain hplain, readText_eq, hfind]
  rfl

theorem load_of_text {text : String} (hplain : Plain name)
    (hopen : ∀ e, ¬tree.Barred (d.path name) e)
    (hstands : tree.Stands (d.path name) (.file (.ok (Text.Utf8.encode text)))) :
    d.load tree.files name = match Manifest.parse text with
      | .ok m => .ok m.toModule
      | .error reason =>
        .error (.failed ("malformed manifest " ++ d.path name ++ ": " ++ reason)) := by
  have htext : tree.files.readText (d.path name) = .ok text := by
    rw [readText_of_stands (d.path_ne_empty name) hopen hstands]
    dsimp only [Except.bind, Place.content]
    rw [Text.Utf8.decode?_eq_some_iff.2 rfl, Option.elim_some]
  rw [load_of_plain hplain, htext]

theorem Fault.load {reason : String} (hplain : Plain name)
    (h : Fault tree (d.path name) reason) :
    d.load tree.files name = .error (.failed reason) := by
  have hne := d.path_ne_empty name
  cases h with
  | @barred e hbarred =>
    rw [load_of_plain hplain, readText_eq, FileTree.find_of_barred hne hbarred]
    cases e with
    | notFound => exact absurd rfl hbarred.ne_notFound
    | _ => rfl
  | unreadable hopen hstands =>
    rw [load_of_plain hplain, readText_of_stands hne hopen hstands]
    rfl
  | @directory below above hopen hstands =>
    rw [load_of_plain hplain, readText_of_stands hne hopen hstands]
    dsimp only [Except.bind, Place.content]
    cases below.unreadable <;> rfl
  | @notText bytes hopen hstands hbytes =>
    have hdecode : Text.Utf8.decode? bytes = none := by
      rw [Option.eq_none_iff_forall_ne_some]
      exact fun text htext => hbytes text (Text.Utf8.decode?_eq_some_iff.1 htext)
    rw [load_of_plain hplain, readText_of_stands hne hopen hstands]
    dsimp only [Except.bind, Place.content]
    rw [hdecode]
    rfl
  | malformed hopen hstands hparse => rw [load_of_text hplain hopen hstands, hparse]

theorem Answer.load {answer : Except LoadError Module} (hplain : Plain name)
    (h : Answer tree (d.path name) answer) : d.load tree.files name = answer := by
  cases h with
  | absent hopen hnone => exact load_of_missing hplain hopen hnone
  | failed hfault => exact hfault.load hplain
  | loaded hopen hstands hparse => rw [load_of_text hplain hopen hstands, hparse]

theorem exists_answer (tree : FileTree) (d : ManifestDirectory) (name : String) :
    ∃ answer, Answer tree (d.path name) answer := by
  by_cases hbarred : ∃ e, tree.Barred (d.path name) e
  · exact ⟨_, .failed (.barred hbarred.choose_spec)⟩
  have hopen : ∀ e, ¬tree.Barred (d.path name) e := not_exists.1 hbarred
  obtain ⟨p, hstands, -⟩ | ⟨hnone, -⟩ := FileTree.find_of_open (d.path_ne_empty name) hopen
  · rcases p with (reason | bytes) | ⟨below, above⟩
    · exact ⟨_, .failed (.unreadable hopen hstands)⟩
    · by_cases htext : ∃ text, Text.Utf8.encode text = bytes
      · obtain ⟨text, rfl⟩ := htext
        cases hparse : Manifest.parse text with
        | error reason => exact ⟨_, .failed (.malformed hopen hstands hparse)⟩
        | ok manifest => exact ⟨_, .loaded hopen hstands hparse⟩
      · exact ⟨_, .failed (.notText hopen hstands (not_exists.1 htext))⟩
    · exact ⟨_, .failed (.directory hopen hstands)⟩
  · exact ⟨_, .absent hopen hnone⟩

theorem load_eq_iff {answer : Except LoadError Module} (hplain : Plain name) :
    d.load tree.files name = answer ↔ Answer tree (d.path name) answer := by
  refine ⟨fun h => ?_, Answer.load hplain⟩
  obtain ⟨answer', hanswer⟩ := exists_answer tree d name
  rwa [← h, hanswer.load hplain]

/-- For every tree, directory and name. A module is absent if its name is not plain, or if its path
can be followed and nothing stands there; it fails if its path cannot be followed, or if what stands
there is no manifest. -/
theorem load_eq_iff_stands (tree : FileTree) (d : ManifestDirectory) (name : String) :
    (d.load tree.files name = .error .absent ↔
      ¬Plain name ∨ (∀ e, ¬tree.Barred (d.path name) e) ∧ ∀ p, ¬tree.Stands (d.path name) p) ∧
    (∀ reason, d.load tree.files name = .error (.failed reason) ↔
      Plain name ∧ Fault tree (d.path name) reason) ∧
    ∀ m, d.load tree.files name = .ok m ↔
      Plain name ∧ (∀ e, ¬tree.Barred (d.path name) e) ∧ ∃ text manifest,
        tree.Stands (d.path name) (.file (.ok (Text.Utf8.encode text))) ∧
        Manifest.parse text = .ok manifest ∧ m = manifest.toModule := by
  by_cases hplain : Plain name
  · simp only [hplain, not_true_eq_false, false_or, true_and, load_eq_iff]
    refine ⟨⟨?_, fun ⟨hopen, hnone⟩ => .absent hopen hnone⟩, fun reason => ⟨?_, .failed⟩,
      fun m => ⟨?_, ?_⟩⟩
    · rintro (⟨hopen, hnone⟩ | _ | _)
      exact ⟨hopen, hnone⟩
    · rintro (_ | hfault | _)
      exact hfault
    · rintro (_ | _ | ⟨hopen, hstands, hparse⟩)
      exact ⟨hopen, _, _, hstands, hparse, rfl⟩
    · rintro ⟨hopen, text, manifest, hstands, hparse, rfl⟩
      exact .loaded hopen hstands hparse
  · simp [hplain, load_of_hidden hplain]

example :
    let hello := Text.Utf8.encode "\x7b\"description\": \"d\", \"lines\": []\x7d"
    let tree : FileTree :=
      ⟨{ entries := [("mods", .directory { entries := [("hi.json", .link "../lib/hello")] }),
        ("lib", .directory { entries := [("hello", .file (.ok hello))] })] }, ["home"]⟩
    ((load tree.files ⟨"/mods"⟩ "hi").map Module.description).toOption = some "d" := by
  decide +kernel

/-- A file where the directory of manifests should be makes every module fail, though it is not
there. -/
theorem behind_file_failed :
    let tree : FileTree := ⟨{ entries := [("m", .file (.ok []))] }, []⟩
    Plain "greet" ∧ (∀ p, ¬tree.Stands (path ⟨"m"⟩ "greet") p) ∧
    load tree.files ⟨"m"⟩ "greet" =
      .error (.failed "cannot read m/greet.json: Not a directory (os error 20)") := by
  intro tree
  refine ⟨isPlain_iff.1 (by decide), fun p h => ?_, rfl⟩
  cases (FileTree.reach_eq_ok_iff.2 h).symm.trans
    (show tree.reach "m/greet.json" = .error .notDirectory by rfl)

end SessionShell.ManifestDirectory
