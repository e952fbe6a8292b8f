import SessionShell.Config
import SessionShell.Proofs.Json

namespace SessionShell.Config

open Text.Utf8 (Bytes encode)

/-- The settings that a layer gives, each or none. A directory can be given as none at all. -/
structure Layer where
  prompt : Option String := none
  builtin : Option Bool := none
  modulesDir : Option (Option String) := none
  logFilter : Option String := none
deriving DecidableEq

namespace Layer

/-- A configuration with a layer over it. -/
def overlay (l : Layer) (c : Config) : Config where
  prompt := l.prompt.getD c.prompt
  builtin := l.builtin.getD c.builtin
  modulesDir := l.modulesDir.getD c.modulesDir
  logFilter := l.logFilter.getD c.logFilter

/-- Whether a document gives the settings of a layer and no others: it is read over any
configuration as that layer over it. -/
def IsGivenBy (l : Layer) (document : String) : Prop :=
  ∀ c : Config, ({ schema with blank := c }).parse document = .ok (l.overlay c)

def promptMember (prompt : String) : Json.Member Config :=
  ⟨"prompt", Json.literal prompt, fun c => { c with prompt := prompt }⟩

def builtinMember (builtin : Bool) : Json.Member Config :=
  ⟨"builtin", if builtin then "true" else "false", fun c => { c with builtin := builtin }⟩

def dirMember (dir : Option String) : Json.Member Config :=
  ⟨"dir", dir.elim "null" Json.literal, fun c => { c with modulesDir := dir }⟩

def levelMember (level : String) : Json.Member Config :=
  ⟨"level", Json.literal level, fun c => { c with logFilter := level }⟩

def sectionMember (name : String) (ms : List (Json.Member Config)) : Json.Member Config :=
  ⟨name, Json.object ms, fun c => ms.foldl (fun c m => m.update c) c⟩

/-- The sections of a document, with the settings that a layer gives. -/
def sections (l : Layer) : List (Json.Member Config) := [
  sectionMember "shell" (l.prompt.map promptMember).toList,
  sectionMember "modules"
    ((l.builtin.map builtinMember).toList ++ (l.modulesDir.map dirMember).toList),
  sectionMember "logging" (l.logFilter.map levelMember).toList]

/-- A document with the settings of a layer, and without any that it does not give. -/
def document (l : Layer) : String := Json.object l.sections

example : document { builtin := some false, modulesDir := some (some "\"m") } =
    "\x7b\"shell\":\x7b\x7d,\"modules\":\x7b\"builtin\":false,\"dir\":\"\\u0022m\"\x7d," ++
      "\"logging\":\x7b\x7d\x7d" := by decide +kernel

section

variable {l l' : Layer} {text : String}

theorem reads_promptField (prompt : String) (c : Config) :
    Json.Reads (promptField.read c) (Json.literal prompt) { c with prompt := prompt } := by
  intro rest
  simp only [promptField, Json.reads_string _ prompt rest]
  rfl

theorem reads_builtinField (builtin : Bool) (c : Config) :
    Json.Reads (builtinField.read c) (if builtin then "true" else "false")
      { c with builtin := builtin } := by
  intro rest
  simp only [builtinField, Json.reads_boolean builtin rest]
  rfl

theorem reads_dirField (dir : Option String) (c : Config) :
    Json.Reads (dirField.read c) (dir.elim "null" Json.literal) { c with modulesDir := dir } := by
  intro rest
  cases dir with
  | none =>
    simp only [dirField, Option.elim_none, Json.reads_null _ rest]
    rfl
  | some dir =>
    simp only [dirField, Option.elim_some, Json.reads_string? _ dir rest]
    rfl

theorem reads_levelField (level : String) (c : Config) :
    Json.Reads (levelField.read c) (Json.literal level) { c with logFilter := level } := by
  intro rest
  simp only [levelField, Json.reads_string _ level rest]
  rfl

theorem admits_sectionMember {name record : String} {fields : List (Json.Field Config)}
    {ms : List (Json.Member Config)} {s : Json.Schema Config}
    (hfield : s.fields.find? (·.name = name) = some (sectionField name record fields))
    (hms : ∀ m ∈ ms, ∀ c, Json.Schema.Admits ⟨record, c, fields⟩ m)
    (hdistinct : (ms.map (·.key)).Nodup) (hrequired : ∀ f ∈ fields, f.required = false) :
    s.Admits (sectionMember name ms) := by
  refine ⟨_, hfield, fun c => Json.Schema.reads_object (fun m hm => hms m hm c) hdistinct ?_⟩
  intro f hf hneeded
  rw [hrequired f hf] at hneeded
  cases hneeded

theorem admits_sections (l : Layer) (c : Config) :
    ∀ m ∈ l.sections, ({ schema with blank := c }).Admits m := by
  have hshell : ({ schema with blank := c }).Admits
      (sectionMember "shell" (l.prompt.map promptMember).toList) := by
    refine admits_sectionMember rfl (fun m hm c => ?_) ?_ (by simp [promptField])
    · simp only [Option.mem_toList, Option.map_eq_some_iff] at hm
      obtain ⟨p, -, rfl⟩ := hm
      exact ⟨promptField, rfl, reads_promptField p⟩
    · cases l.prompt <;> simp
  have hmodules : ({ schema with blank := c }).Admits (sectionMember "modules"
      ((l.builtin.map builtinMember).toList ++ (l.modulesDir.map dirMember).toList)) := by
    refine admits_sectionMember rfl (fun m hm c => ?_) ?_ (by simp [builtinField, dirField])
    · simp only [List.mem_append, Option.mem_toList, Option.map_eq_some_iff] at hm
      obtain ⟨b, -, rfl⟩ | ⟨d, -, rfl⟩ := hm
      · exact ⟨builtinField, rfl, reads_builtinField b⟩
      · exact ⟨dirField, rfl, reads_dirField d⟩
    · cases l.builtin <;> cases l.modulesDir <;> simp [builtinMember, dirMember]
  have hlogging : ({ schema with blank := c }).Admits
      (sectionMember "logging" (l.logFilter.map levelMember).toList) := by
    refine admits_sectionMember rfl (fun m hm c => ?_) ?_ (by simp [levelField])
    · simp only [Option.mem_toList, Option.map_eq_some_iff] at hm
      obtain ⟨p, -, rfl⟩ := hm
      exact ⟨levelField, rfl, reads_levelField p⟩
    · cases l.logFilter <;> simp
  simpa [sections] using ⟨hshell, hmodules, hlogging⟩

theorem update_sections (l : Layer) (c : Config) :
    l.sections.foldl (fun c m => m.update c) c = l.overlay c := by
  obtain ⟨prompt, builtin, dir, level⟩ := l
  cases prompt <;> cases builtin <;> cases dir <;> cases level <;> rfl

theorem isGivenBy_document (l : Layer) : l.IsGivenBy l.document := by
  intro c
  have hreads : Json.Reads ({ schema with blank := c }).read l.document _ :=
    Json.Schema.reads_object (l.admits_sections c) (by simp [sections, sectionMember])
      (by simp [schema, sectionField])
  rw [Json.Schema.parse_of_reads hreads]
  exact congrArg _ (l.update_sections c)

/-- What layers do to a configuration. -/
def Overlays (u : Config → Config) : Prop := ∃ l : Layer, ∀ c, u c = l.overlay c

theorem closed_overlays : Json.Closed Overlays where
  id := ⟨{}, fun _ => rfl⟩
  comp := by
    rintro u u' ⟨l, hl⟩ ⟨l', hl'⟩
    refine ⟨⟨l'.prompt.or l.prompt, l'.builtin.or l.builtin, l'.modulesDir.or l.modulesDir,
      l'.logFilter.or l.logFilter⟩, fun c => ?_⟩
    rw [Function.comp, hl, hl']
    simp [overlay]

theorem uniform_sectionField {name record : String} {fields : List (Json.Field Config)}
    (hfields : ∀ f ∈ fields, ∀ text, Json.Uniform Overlays (f.read · text)) (text : Bytes) :
    Json.Uniform Overlays ((sectionField name record fields).read · text) :=
  Json.Schema.uniform_read (s := ⟨record, {}, fields⟩) closed_overlays hfields text

theorem exists_isGivenBy (document : String) :
    (∃ reason, ∀ c : Config, ({ schema with blank := c }).parse document = .error reason) ∨
      ∃ l : Layer, l.IsGivenBy document := by
  have hprompt (text : Bytes) : Json.Uniform Overlays (promptField.read · text) :=
    .bind fun (p, rest) => .inr ⟨_, rest, ⟨{ prompt := some p }, fun _ => rfl⟩, fun _ => rfl⟩
  have hbuiltin (text : Bytes) : Json.Uniform Overlays (builtinField.read · text) :=
    .bind fun (b, rest) => .inr ⟨_, rest, ⟨{ builtin := some b }, fun _ => rfl⟩, fun _ => rfl⟩
  have hdir (text : Bytes) : Json.Uniform Overlays (dirField.read · text) :=
    .bind fun (d, rest) => .inr ⟨_, rest, ⟨{ modulesDir := some d }, fun _ => rfl⟩, fun _ => rfl⟩
  have hlevel (text : Bytes) : Json.Uniform Overlays (levelField.read · text) :=
    .bind fun (p, rest) => .inr ⟨_, rest, ⟨{ logFilter := some p }, fun _ => rfl⟩, fun _ => rfl⟩
  have hfields : ∀ f ∈ schema.fields, ∀ text, Json.Uniform Overlays (f.read · text) := by
    simp only [schema, List.forall_mem_cons, List.not_mem_nil, false_implies, implies_true,
      and_true]
    refine ⟨uniform_sectionField ?_, uniform_sectionField ?_, uniform_sectionField ?_⟩
    · simpa using hprompt
    · simpa using ⟨hbuiltin, hdir⟩
    · simpa using hlevel
  obtain hfault | ⟨u, ⟨l, hl⟩, hu⟩ := Json.Schema.uniform_parse closed_overlays hfields document
  · exact .inl hfault
  · exact .inr ⟨l, fun c => (hu c).trans (congrArg _ (hl c))⟩

theorem eq_of_getD_eq {α : Type} [Nontrivial α] {a b : Option α}
    (h : ∀ d, a.getD d = b.getD d) : a = b := by
  cases a with
  | none =>
    cases b with
    | none => rfl
    | some y =>
      obtain ⟨d, hd⟩ := exists_ne y
      exact absurd (h d) hd
  | some x =>
    cases b with
    | none =>
      obtain ⟨d, hd⟩ := exists_ne x
      exact absurd (h d).symm hd
    | some y => exact congrArg some (h y)

theorem IsGivenBy.unique (h : l.IsGivenBy text) (h' : l'.IsGivenBy text) : l = l' := by
  have hover (c : Config) : l.overlay c = l'.overlay c := Except.ok.inj ((h c).symm.trans (h' c))
  -- One setting after the other, over a configuration that has any value for it.
  have hstring : Nontrivial String := ⟨"", "x", by decide⟩
  have hdir : Nontrivial (Option String) := ⟨none, some "", by decide⟩
  obtain ⟨prompt, builtin, dir, level⟩ := l
  obtain ⟨prompt', builtin', dir', level'⟩ := l'
  obtain rfl : prompt = prompt' :=
    eq_of_getD_eq fun d => congrArg (·.prompt) (hover { prompt := d })
  obtain rfl : builtin = builtin' :=
    eq_of_getD_eq fun d => congrArg (·.builtin) (hover { builtin := d })
  obtain rfl : dir = dir' :=
    eq_of_getD_eq fun d => congrArg (·.modulesDir) (hover { modulesDir := d })
  obtain rfl : level = level' :=
    eq_of_getD_eq fun d => congrArg (·.logFilter) (hover { logFilter := d })
  rfl

theorem parse_eq_ok_iff {c : Config} :
    schema.parse text = .ok c ↔ ∃ l : Layer, l.IsGivenBy text ∧ c = l.overlay {} := by
  constructor
  · intro hparse
    obtain ⟨reason, hfault⟩ | ⟨l, hl⟩ := exists_isGivenBy text
    · cases (hfault {}).symm.trans hparse
    · exact ⟨l, hl, Except.ok.inj (hparse.symm.trans (hl {}))⟩
  · rintro ⟨l, hl, rfl⟩
    exact hl {}

end

end Layer

/-- What the file gives that the options name; nothing if they name none. -/
def FileGives (files : Files) : (path : Option String) → Layer → Prop
  | none, l => l = {}
  | some path, l => ∃ text, files.readText path = .ok text ∧ l.IsGivenBy text

/-- The value of the first layer that gives one. -/
def firstGiven {α : Type} (layers : List (Option α)) : Option α := layers.findSome? id

/-- What each layer gives as the prompt: the options, the environment, the file, and the default. -/
def promptLayers (o : Options) (env : Environment) (l : Layer) : List (Option String) :=
  [o.prompt, env.text? "NESTED_SHELL_PROMPT", l.prompt, some defaultPrompt]

def builtinLayers (l : Layer) : List (Option Bool) := [l.builtin, some true]

/-- An empty directory in the environment is none that is given. -/
def dirLayers (o : Options) (env : Environment) (l : Layer) : List (Option (Option String)) :=
  [o.modules.map some, ((env.text? "NESTED_SHELL_MODULES").filter (!·.isEmpty)).map some,
    l.modulesDir, some none]

def filterLayers (o : Options) (env : Environment) (l : Layer) : List (Option String) :=
  [if o.debug then some "nested_shell=debug" else none, o.logLevel,
    env.text? "NESTED_SHELL_LOG_LEVEL", env.text? "RUST_LOG", l.logFilter,
    some "nested_shell=warn"]

/-- Each setting is decided by its own layers. -/
structure Decided (o : Options) (env : Environment) (l : Layer) (c : Config) : Prop where
  prompt : firstGiven (promptLayers o env l) = some c.prompt
  builtin : firstGiven (builtinLayers l) = some c.builtin
  modulesDir : firstGiven (dirLayers o env l) = some c.modulesDir
  logFilter : firstGiven (filterLayers o env l) = some c.logFilter

section

variable {files : Files} {env : Environment} {o : Options} {l l' : Layer} {c : Config}
  {path : Option String}

theorem FileGives.unique (h : FileGives files path l) (h' : FileGives files path l') : l = l' := by
  cases path with
  | none => exact h.trans h'.symm
  | some path =>
    obtain ⟨text, htext, hl⟩ := h
    obtain ⟨text', htext', hl'⟩ := h'
    obtain rfl : text = text' := Except.ok.inj (htext.symm.trans htext')
    exact hl.unique hl'

theorem text?_eq_some_iff {name text : String} :
    env.text? name = some text ↔ env.get name = some (encode text) := by
  simp only [Environment.text?, Option.bind_eq_some_iff, Text.Utf8.decode?_eq_some_iff]
  constructor
  · rintro ⟨bytes, hbytes, rfl⟩
    exact hbytes
  · exact fun h => ⟨_, h, rfl⟩

theorem decided_overrides (o : Options) (env : Environment) (l : Layer) :
    Decided o env l (((l.overlay {}).withEnvironment env).withOptions o) where
  prompt := by
    show _ = some (o.prompt.getD ((env.text? "NESTED_SHELL_PROMPT").getD (l.prompt.getD _)))
    unfold promptLayers
    cases o.prompt <;> cases env.text? "NESTED_SHELL_PROMPT" <;> cases l.prompt <;> rfl
  builtin := by
    show _ = some (l.builtin.getD _)
    unfold builtinLayers
    cases l.builtin <;> rfl
  modulesDir := by
    show _ = some (o.modules.or (((env.text? "NESTED_SHELL_MODULES").filter (!·.isEmpty)).or
      (l.modulesDir.getD _)))
    unfold dirLayers
    cases o.modules <;> cases (env.text? "NESTED_SHELL_MODULES").filter (!·.isEmpty) <;>
      cases l.modulesDir <;> rfl
  logFilter := by
    show _ = some (if o.debug then _ else o.logLevel.getD
      (((env.text? "NESTED_SHELL_LOG_LEVEL").or (env.text? "RUST_LOG")).getD
        (l.logFilter.getD _)))
    unfold filterLayers
    cases o.debug <;> cases o.logLevel <;> cases env.text? "NESTED_SHELL_LOG_LEVEL" <;>
      cases env.text? "RUST_LOG" <;> cases l.logFilter <;> rfl

theorem Decided.unique {c' : Config} (h : Decided o env l c) (h' : Decided o env l c') :
    c = c' := by
  obtain ⟨prompt, builtin, dir, level⟩ := c
  obtain ⟨prompt', builtin', dir', level'⟩ := c'
  obtain rfl : prompt = prompt' := Option.some.inj (h.prompt.symm.trans h'.prompt)
  obtain rfl : builtin = builtin' := Option.some.inj (h.builtin.symm.trans h'.builtin)
  obtain rfl : dir = dir' := Option.some.inj (h.modulesDir.symm.trans h'.modulesDir)
  obtain rfl : level = level' := Option.some.inj (h.logFilter.symm.trans h'.logFilter)
  rfl

theorem load_of_fileGives (env : Environment) (h : FileGives files o.config l) :
    load files env o = .ok (((l.overlay {}).withEnvironment env).withOptions o) := by
  unfold load
  cases hpath : o.config with
  | none =>
    rw [hpath] at h
    obtain rfl : l = {} := h
    rfl
  | some path =>
    rw [hpath] at h
    obtain ⟨text, htext, hl⟩ := h
    have hparse : schema.parse text = .ok (l.overlay {}) := hl {}
    simp only [ofFile, htext, hparse]
    rfl

theorem load_of_unreadable {path : String} {fault : FileError} (env : Environment)
    (hpath : o.config = some path) (h : files.readText path = .error fault) :
    load files env o = .error (.unreadable fault) := by
  simp only [load, hpath, ofFile, h]
  rfl

theorem load_of_malformed {path text reason : String} (env : Environment)
    (hpath : o.config = some path) (htext : files.readText path = .ok text)
    (h : schema.parse text = .error reason) : load files env o = .error (.malformed reason) := by
  simp only [load, hpath, ofFile, htext, h]
  rfl

theorem fileGives_or (files : Files) (path : Option String) :
    (∃ l, FileGives files path l) ∨ ∃ p, path = some p ∧
      ((∃ fault, files.readText p = .error fault) ∨
        ∃ text reason, files.readText p = .ok text ∧ schema.parse text = .error reason) := by
  cases path with
  | none => exact .inl ⟨{}, rfl⟩
  | some path =>
    cases htext : files.readText path with
    | error fault => exact .inr ⟨path, rfl, .inl ⟨fault, htext⟩⟩
    | ok text =>
      obtain ⟨reason, hfault⟩ | ⟨l, hl⟩ := Layer.exists_isGivenBy text
      · exact .inr ⟨path, rfl, .inr ⟨text, reason, htext, hfault {}⟩⟩
      · exact .inl ⟨l, text, htext, hl⟩

theorem load_eq_ok_iff :
    load files env o = .ok c ↔ ∃ l, FileGives files o.config l ∧ Decided o env l c := by
  constructor
  · intro hload
    obtain ⟨l, hl⟩ | ⟨path, hpath, ⟨fault, hfault⟩ | ⟨text, reason, htext, hreason⟩⟩ :=
      fileGives_or files o.config
    · cases (load_of_fileGives env hl).symm.trans hload
      exact ⟨l, hl, decided_overrides o env l⟩
    · cases (load_of_unreadable env hpath hfault).symm.trans hload
    · cases (load_of_malformed env hpath htext hreason).symm.trans hload
  · rintro ⟨l, hl, hc⟩
    rw [load_of_fileGives env hl, hc.unique (decided_overrides o env l)]

theorem load_eq_error_iff {e : ConfigError} : load files env o = .error e ↔
    ∃ path, o.config = some path ∧
      ((∃ fault, files.readText path = .error fault ∧ e = .unreadable fault) ∨
        ∃ text reason, files.readText path = .ok text ∧ schema.parse text = .error reason ∧
          e = .malformed reason) := by
  constructor
  · intro hload
    obtain ⟨l, hl⟩ | ⟨path, hpath, ⟨fault, hfault⟩ | ⟨text, reason, htext, hreason⟩⟩ :=
      fileGives_or files o.config
    · cases (load_of_fileGives env hl).symm.trans hload
    · cases (load_of_unreadable env hpath hfault).symm.trans hload
      exact ⟨path, hpath, .inl ⟨fault, hfault, rfl⟩⟩
    · cases (load_of_malformed env hpath htext hreason).symm.trans hload
      exact ⟨path, hpath, .inr ⟨text, reason, htext, hreason, rfl⟩⟩
  · rintro ⟨path, hpath, ⟨fault, hfault, rfl⟩ | ⟨text, reason, htext, hreason, rfl⟩⟩
    · exact load_of_unreadable env hpath hfault
    · exact load_of_malformed env hpath htext hreason

/-- Loading fails where the file that the options name cannot be read or is no document, and nowhere
else. Otherwise each setting is decided by the first of its own layers that gives it, and by nothing
that is said of the other settings; a file can leave out any of them, and a variable that is no text
is unset. Modules come from the shell itself, if that is enabled, and then from the directory, if
one is set. -/
theorem load_by_layers (files : Files) (env : Environment) (o : Options) :
    (∀ e, load files env o = .error e ↔ ∃ path, o.config = some path ∧
      ((∃ fault, files.readText path = .error fault ∧ e = .unreadable fault) ∨
        ∃ text reason, files.readText path = .ok text ∧ schema.parse text = .error reason ∧
          e = .malformed reason)) ∧
    (∀ c, load files env o = .ok c ↔ ∃ l, FileGives files o.config l ∧ Decided o env l c) ∧
    (∀ path l, o.config = some path → files.readText path = .ok l.document →
      FileGives files o.config l) ∧
    (∀ name text, env.text? name = some text ↔ env.get name = some (encode text)) ∧
    (∀ files' env' o' l l' c c', FileGives files o.config l → FileGives files' o'.config l' →
      load files env o = .ok c → load files' env' o' = .ok c' →
      (promptLayers o env l = promptLayers o' env' l' → c.prompt = c'.prompt) ∧
      (builtinLayers l = builtinLayers l' → c.builtin = c'.builtin) ∧
      (dirLayers o env l = dirLayers o' env' l' → c.modulesDir = c'.modulesDir) ∧
      (filterLayers o env l = filterLayers o' env' l' → c.logFilter = c'.logFilter)) ∧
    ∀ c, load files env o = .ok c → (c.shell files).resolver.providers =
      (if c.builtin then [Catalog.builtin.provider] else []) ++
        (match c.modulesDir with
          | some dir => [ManifestDirectory.provider files ⟨dir⟩]
          | none => []) := by
  have hdecided {files : Files} {env : Environment} {o : Options} {l : Layer} {c : Config}
      (hl : FileGives files o.config l) (hload : load files env o = .ok c) : Decided o env l c := by
    obtain ⟨l', hl', hc⟩ := load_eq_ok_iff.1 hload
    exact hl.unique hl' ▸ hc
  refine ⟨fun e => load_eq_error_iff, fun c => load_eq_ok_iff, fun path l hpath htext => ?_,
    fun name text => text?_eq_some_iff, ?_, fun c _ => ?_⟩
  · rw [hpath]
    exact ⟨_, htext, l.isGivenBy_document⟩
  · intro files' env' o' l l' c c' hl hl' hload hload'
    have hc := hdecided hl hload
    have hc' := hdecided hl' hload'
    refine ⟨fun h => ?_, fun h => ?_, fun h => ?_, fun h => ?_⟩
    · exact Option.some.inj (hc.prompt.symm.trans ((congrArg _ h).trans hc'.prompt))
    · exact Option.some.inj (hc.builtin.symm.trans ((congrArg _ h).trans hc'.builtin))
    · exact Option.some.inj (hc.modulesDir.symm.trans ((congrArg _ h).trans hc'.modulesDir))
    · exact Option.some.inj (hc.logFilter.symm.trans ((congrArg _ h).trans hc'.logFilter))
  · unfold shell providers
    cases c.modulesDir <;> rfl

/-- A partial file, an empty variable that counts and one that does not, one that is no text, and an
option for each of two settings. -/
theorem load_of_partial_file :
    let l : Layer := { prompt := some "\"#\"", logFilter := some "info" }
    let files : Files := .ofList [("c.json", .ok (encode l.document))] .notFound
    let env : Environment := ⟨fun name => List.lookup name
      [("NESTED_SHELL_PROMPT", []), ("NESTED_SHELL_MODULES", []), ("RUST_LOG", [0xff])]⟩
    let o : Options := { config := some "c.json" }
    let o' : Options := { o with debug := true, logLevel := some "x", modules := some "m" }
    load files env o = .ok ⟨"", true, none, "info"⟩ ∧
      load files ⟨fun _ => none⟩ o' = .ok ⟨"\"#\"", true, some "m", "nested_shell=debug"⟩ ∧
      load files env { o with config := some "d.json" } = .error (.unreadable .notFound) := by
  intro l files env o o'
  have htext : files.readText "c.json" = .ok l.document := by
    have hdecode : Text.Utf8.decode? (encode l.document) = some l.document :=
      Text.Utf8.decode?_eq_some_iff.2 rfl
    show (match Text.Utf8.decode? (encode l.document) with
      | some text => .ok text
      | none => .error .notText : Except FileError String) = _
    rw [hdecode]
  have hload (env : Environment) (o : Options) (c : Config) (hpath : o.config = some "c.json")
      (hc : Decided o env l c) : load files env o = .ok c :=
    have hfile := (load_by_layers files env o).2.2.1 _ l hpath htext
    ((load_by_layers files env o).2.1 c).2 ⟨l, hfile, hc⟩
  refine ⟨hload env o _ rfl ⟨?_, rfl, ?_, ?_⟩, hload _ _ _ rfl ⟨rfl, rfl, rfl, rfl⟩, ?_⟩
  · decide +kernel
  · decide +kernel
  · decide +kernel
  · exact ((load_by_layers files env _).1 _).2 ⟨"d.json", rfl, .inl ⟨.notFound, rfl, rfl⟩⟩

end

end SessionShell.Config
