import SessionShell.Proofs.CommandLine.Printer

namespace SessionShell.CommandLine

/-- Whether a flag can bear a name: a letter, and behind it letters, digits, dashes and underscores.
-/
def IsName (name : List Char) : Prop :=
  ∃ c cs, name = c :: cs ∧ c.isAlpha ∧ ∀ d ∈ cs, d.isAlpha ∨ d.isDigit ∨ d = '-' ∨ d = '_'

/-- What a word sets, by its form. A name with `no-` before another name is not switched on. -/
inductive Sets : (word : List Char) → List Setting → Prop
  | value {name value : List Char} (hname : IsName name) :
    Sets (['-', '-'] ++ name ++ '=' :: value) [(String.ofList name, .ofChars value)]
  | off {name : List Char} (hname : IsName name) :
    Sets (['-', '-', 'n', 'o', '-'] ++ name) [(String.ofList name, .switch false)]
  | on {name : List Char} (hname : IsName name)
    (hno : ∀ other, IsName other → name ≠ ['n', 'o', '-'] ++ other) :
    Sets (['-', '-'] ++ name) [(String.ofList name, .switch true)]
  | letters {letters : List Char} (hne : letters ≠ []) (halpha : ∀ c ∈ letters, c.isAlpha) :
    Sets ('-' :: letters) (letters.map fun c => (String.singleton c, .switch true))

/-- How words are parted into positional arguments and words that set flags, each in their order. -/
inductive Parted : List String → (positional flagWords : List String) → Prop
  | nil : Parted [] [] []
  /-- All words behind a bare `--` are positional. -/
  | dashes (words : List String) : Parted ("--" :: words) words []
  | flag {word : String} {settings : List Setting} {words positional flagWords : List String}
    (hsets : Sets word.toList settings) :
    Parted words positional flagWords → Parted (word :: words) positional (word :: flagWords)
  | positional {word : String} {words positional flagWords : List String} (hne : word ≠ "--")
    (hnone : ∀ settings, ¬Sets word.toList settings) :
    Parted words positional flagWords → Parted (word :: words) (word :: positional) flagWords

/-- What words that set flags set one after the other. -/
abbrev SetInTurn (flagWords : List String) (settings : List (List Setting)) : Prop :=
  List.Forall₂ (fun word s => Sets word.toList s) flagWords settings

variable {name word : List Char} {ss : List Setting}

theorem isFlagName_iff : isFlagName name ↔ IsName name := by
  cases name with
  | nil => simp [isFlagName, IsName]
  | cons c cs =>
    simp [isFlagName, IsName, isNameChar, Char.isAlphanum, or_assoc]

theorem negated?_eq_some_iff {other : List Char} :
    negated? name = some other ↔ IsName other ∧ name = ['n', 'o', '-'] ++ other := by
  unfold negated?
  split
  · rename_i rest
    simp only [Option.ite_none_right_eq_some, isFlagName_iff, Option.some_inj]
    constructor
    · rintro ⟨h, rfl⟩
      exact ⟨h, rfl⟩
    · rintro ⟨h, heq⟩
      cases heq
      exact ⟨h, rfl⟩
  · rename_i hno
    refine iff_of_false nofun ?_
    rintro ⟨-, rfl⟩
    exact hno other rfl

theorem negated?_eq_none_iff :
    negated? name = none ↔ ∀ other, IsName other → name ≠ ['n', 'o', '-'] ++ other := by
  simp [Option.eq_none_iff_forall_ne_some, negated?_eq_some_iff]

theorem settings?_letters {letters : List Char} (hne : letters ≠ [])
    (halpha : ∀ c ∈ letters, c.isAlpha) :
    settings? ('-' :: letters) = some (letters.map fun c => (String.singleton c, .switch true)) := by
  have hdash : ∀ body, letters ≠ '-' :: body := by
    rintro body rfl
    exact absurd (halpha '-' List.mem_cons_self) (by decide)
  rw [settings?.eq_2 _ hdash]
  simp [hne, List.all_eq_true.2 halpha]

theorem settings?_of_sets (h : Sets word ss) : settings? word = some ss := by
  cases h with
  | @value name value hname =>
    have hlong := longSetting?_value (isFlagName_iff.2 hname) value
    simp [settings?, hlong]
  | @off name hname =>
    have hlong := longSetting?_name (isFlagName_no (isFlagName_iff.2 hname))
    have hno : negated? ('n' :: 'o' :: '-' :: name) = some name :=
      negated?_eq_some_iff.2 ⟨hname, rfl⟩
    simp [settings?, hlong, switchSetting, hno]
  | @on name hname hno =>
    have hlong := longSetting?_name (isFlagName_iff.2 hname)
    simp [settings?, hlong, switchSetting, negated?_eq_none_iff.2 hno]
  | letters hne halpha => exact settings?_letters hne halpha

theorem sets_of_longSetting? {body : List Char} {setting : Setting}
    (h : longSetting? body = some setting) : Sets (['-', '-'] ++ body) [setting] := by
  unfold longSetting? at h
  obtain ⟨-, hspan⟩ | ⟨name, value, -, rfl, hspan⟩ := Text.exists_span '=' body
  · rw [hspan] at h
    simp only [Option.ite_none_right_eq_some, isFlagName_iff, Option.some_inj] at h
    obtain ⟨hname, rfl⟩ := h
    unfold switchSetting
    cases hno : negated? body with
    | none => exact .on hname (negated?_eq_none_iff.1 hno)
    | some other =>
      obtain ⟨hother, rfl⟩ := negated?_eq_some_iff.1 hno
      exact .off hother
  · rw [hspan] at h
    simp only [Option.ite_none_right_eq_some, isFlagName_iff, Option.some_inj] at h
    obtain ⟨hname, rfl⟩ := h
    exact .value hname

theorem sets_iff : Sets word ss ↔ settings? word = some ss := by
  refine ⟨settings?_of_sets, fun h => ?_⟩
  unfold settings? at h
  split at h
  · rename_i body
    obtain ⟨setting, hlong, rfl⟩ := Option.map_eq_some_iff.1 h
    exact sets_of_longSetting? hlong
  · rename_i letters hdash
    simp only [Option.ite_none_right_eq_some, Bool.and_eq_true, Bool.not_eq_true',
      List.isEmpty_eq_false_iff, List.all_eq_true, Option.some_inj] at h
    obtain ⟨⟨hne, halpha⟩, rfl⟩ := h
    exact .letters hne halpha
  · cases h

theorem not_sets_iff : (∀ s, ¬Sets word s) ↔ settings? word = none := by
  simp [Option.eq_none_iff_forall_ne_some, sets_iff]

section

variable {words words' positional flagWords : List String} {settings : List (List Setting)}

/-- To part words is to add them: behind the arguments and flags that there are. -/
theorem Parted.addWords (h : Parted words positional flagWords) (hset : SetInTurn flagWords settings)
    (a : Arguments) :
    a.addWords words =
      ⟨a.positional ++ positional, settings.flatten.foldl Keyed.insert a.flags⟩ := by
  induction h generalizing a settings with
  | nil =>
    cases hset
    simp [Arguments.addWords]
  | dashes words =>
    cases hset
    rw [addWords_dashes]
    rfl
  | @flag word _ _ _ _ hsets _ ih =>
    cases hset with
    | cons hword hrest =>
      rw [addWords_of_settings (sets_iff.1 hword), ih hrest]
      simp [Arguments.addSettings, List.foldl_append]
  | @positional word _ _ _ hne hnone _ ih =>
    have hword := not_sets_iff.1 hnone
    rw [Arguments.addWords, if_neg hne, hword]
    dsimp only
    rw [ih hset]
    simp [Arguments.addPositional]

theorem Parted.exists_settings (h : Parted words positional flagWords) :
    ∃ settings, SetInTurn flagWords settings := by
  induction h with
  | nil | dashes => exact ⟨[], .nil⟩
  | flag hsets _ ih =>
    obtain ⟨settings, hset⟩ := ih
    exact ⟨_, .cons hsets hset⟩
  | positional _ _ _ ih => exact ih

theorem exists_parted (words : List String) :
    ∃ positional flagWords, Parted words positional flagWords := by
  induction words with
  | nil => exact ⟨[], [], .nil⟩
  | cons word words ih =>
    obtain ⟨positional, flagWords, hparted⟩ := ih
    by_cases hdashes : word = "--"
    · rw [hdashes]
      exact ⟨words, [], .dashes words⟩
    · cases hword : settings? word.toList with
      | none => exact ⟨_, _, .positional hdashes (not_sets_iff.2 hword) hparted⟩
      | some settings => exact ⟨_, _, .flag (sets_iff.2 hword) hparted⟩

theorem Parted.ofWords (h : Parted words positional flagWords) (hset : SetInTurn flagWords settings) :
    Arguments.ofWords words = ⟨positional, settings.flatten.foldl Keyed.insert ∅⟩ := by
  rw [Arguments.ofWords, h.addWords hset]
  rfl

theorem ext_flag? {s t : Flags}
    (h : ∀ name, (s.find? name).map (·.2) = (t.find? name).map (·.2)) : s = t := by
  apply Keyed.ext_find?
  intro name
  have hname := h name
  cases hs : s.find? name with
  | none => cases ht : t.find? name <;> simp_all
  | some row =>
    cases ht : t.find? name with
    | none => simp_all
    | some row' =>
      have hkeys := (Keyed.key_of_find? hs).trans (Keyed.key_of_find? ht).symm
      simp only [hs, ht, Option.map_some, Option.some_inj] at hname
      rw [Option.some_inj]
      exact Prod.ext hkeys hname

theorem find?_settings (settings : List Setting) (name : String) :
    (settings.foldl Keyed.insert (∅ : Flags)).find? name =
      (settings.filter (·.1 = name)).getLast? := by
  rw [find?_addSettings]
  exact Option.or_none

theorem ofWords_eq_iff_parted (words : List String) (a : Arguments) :
    Arguments.ofWords words = a ↔ ∃ flagWords settings, Parted words a.positional flagWords ∧
      SetInTurn flagWords settings ∧
      ∀ name, a.flag? name = (settings.flatten.filter (·.1 = name)).getLast?.map (·.2) := by
  constructor
  · rintro rfl
    obtain ⟨positional, flagWords, hparted⟩ := exists_parted words
    obtain ⟨settings, hset⟩ := hparted.exists_settings
    rw [hparted.ofWords hset]
    refine ⟨flagWords, settings, hparted, hset, fun name => ?_⟩
    rw [Arguments.flag?, find?_settings]
  · rintro ⟨flagWords, settings, hparted, hset, hflags⟩
    have hrows : settings.flatten.foldl Keyed.insert ∅ = a.flags := by
      apply ext_flag?
      intro name
      rw [find?_settings, ← hflags]
      rfl
    rw [hparted.ofWords hset, hrows]

theorem Parted.ofWords_eq (h : Parted words positional flagWords)
    (h' : Parted words' positional flagWords) :
    Arguments.ofWords words = Arguments.ofWords words' := by
  obtain ⟨settings, hset⟩ := h.exists_settings
  rw [h.ofWords hset, h'.ofWords hset]

/-- The command is the first positional word, whatever flags stand before it. -/
theorem Parted.ofArguments (h : Parted words positional flagWords) :
    ofArguments (Arguments.ofWords words) =
      ⟨positional.head?.getD "", ⟨positional.tail, (Arguments.ofWords words).flags⟩⟩ := by
  obtain ⟨settings, hset⟩ := h.exists_settings
  rw [h.ofWords hset]
  cases positional <;> rfl

end

/-- Before the first bare `--` the words that set flags are taken out by their form; all others, and
all words behind it, are positional arguments as they stand and in their order. Of the settings of a
flag the last one counts. So words with the same flags in the same order among the same arguments are
read alike, and the first argument is the command. -/
theorem ofWords_iff_parted :
    (∀ words a, Arguments.ofWords words = a ↔ ∃ flagWords settings,
      Parted words a.positional flagWords ∧ SetInTurn flagWords settings ∧
      ∀ name, a.flag? name = (settings.flatten.filter (·.1 = name)).getLast?.map (·.2)) ∧
    (∀ words words' positional flagWords, Parted words positional flagWords →
      Parted words' positional flagWords → Arguments.ofWords words = Arguments.ofWords words') ∧
    ∀ line positional flagWords,
      Parted (CommandLine.words (Text.trim line.toList)) positional flagWords →
      parse line = ⟨positional.head?.getD "", ⟨positional.tail,
        (Arguments.ofWords (CommandLine.words (Text.trim line.toList))).flags⟩⟩ :=
  ⟨ofWords_eq_iff_parted, fun _ _ _ _ => Parted.ofWords_eq, fun _ _ _ => Parted.ofArguments⟩

/-- A flag that is set twice, a name switched off, and words that only look like flags, in two orders
and as a line. -/
theorem ofWords_of_mixed_words :
    let words := ["--no-x", "say", "--n=1=2", "---y", "-no", "-5", "--", "--z"]
    let words' := ["say", "---y", "--no-x", "--n=1=2", "-5", "-no", "--", "--z"]
    Arguments.ofWords words = Arguments.ofWords words' ∧
      (Arguments.ofWords words).positional = ["say", "---y", "-5", "--z"] ∧
      (Arguments.ofWords words).flag? "n" = some (.switch true) ∧
      (parse "--no-x say --n=1=2 ---y -no -5 -- --z").command = "say" := by
  intro words words'
  have hx : Sets "--no-x".toList [("x", .switch false)] := sets_iff.2 (by decide)
  have hn : Sets "--n=1=2".toList [("n", .text "1=2")] := sets_iff.2 (by decide)
  have hno : Sets "-no".toList [("n", .switch true), ("o", .switch true)] := sets_iff.2 (by decide)
  have hsay := not_sets_iff.2 (show settings? "say".toList = none by decide)
  have hy := not_sets_iff.2 (show settings? "---y".toList = none by decide)
  have hfive := not_sets_iff.2 (show settings? "-5".toList = none by decide)
  have hparted : Parted words ["say", "---y", "-5", "--z"] ["--no-x", "--n=1=2", "-no"] :=
    .flag hx <| .positional (by decide) hsay <| .flag hn <| .positional (by decide) hy <|
      .flag hno <| .positional (by decide) hfive <| .dashes ["--z"]
  have hparted' : Parted words' ["say", "---y", "-5", "--z"] ["--no-x", "--n=1=2", "-no"] :=
    .positional (by decide) hsay <| .positional (by decide) hy <| .flag hx <| .flag hn <|
      .positional (by decide) hfive <| .flag hno <| .dashes ["--z"]
  obtain ⟨hread, hsame, hline⟩ := ofWords_iff_parted
  let settings : List (List Setting) :=
    [[("x", .switch false)], [("n", .text "1=2")], [("n", .switch true), ("o", .switch true)]]
  have hwords : Arguments.ofWords words =
      ⟨["say", "---y", "-5", "--z"], settings.flatten.foldl Keyed.insert ∅⟩ :=
    (hread _ _).2 ⟨_, settings, hparted, .cons hx (.cons hn (.cons hno .nil)), fun name => by
      rw [Arguments.flag?, find?_settings]⟩
  have hsplit : CommandLine.words (Text.trim "--no-x say --n=1=2 ---y -no -5 -- --z".toList) =
      words := by decide +kernel
  refine ⟨hsame _ _ _ _ hparted hparted', by rw [hwords], by rw [hwords]; decide, ?_⟩
  rw [hline _ _ _ (hsplit ▸ hparted)]
  rfl

end SessionShell.CommandLine
