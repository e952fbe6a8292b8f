import Mathlib.Data.List.Forall2
import Mathlib.Data.List.Infix
import SessionShell.CommandLine
import SessionShell.Proofs.Lookup
import SessionShell.Proofs.Text.Span

namespace SessionShell.CommandLine

/-- A character of a word between single quotes. A quote is written outside of them, after a
backslash. -/
def quotedChar (c : Char) : List Char := if c = '\'' then ['\'', '\\', '\'', '\''] else [c]

def quoted (word : List Char) : List Char := '\'' :: word.flatMap quotedChar ++ ['\'']

/-- What a word can say about a flag. -/
inductive Assignment
  | value (name text : String)
  | on (name : String)
  | off (name : String)
deriving DecidableEq

namespace Assignment

def word : Assignment → String
  | value name text => "--" ++ name ++ "=" ++ text
  | on name => "--" ++ name
  | off name => "--no-" ++ name

def setting : Assignment → Setting
  | value name text => (name, .ofChars text.toList)
  | on name => (name, .switch true)
  | off name => (name, .switch false)

/-- Whether the name is one, and no other name switched off. -/
def IsValid : Assignment → Prop
  | value name _ => isFlagName name.toList
  | on name => isFlagName name.toList ∧ ∀ other, name = "no-" ++ other → ¬isFlagName other.toList
  | off name => isFlagName name.toList

end Assignment

def print (assignments : List Assignment) (words : List String) : String :=
  " ".intercalate (assignments.map (fun a => String.ofList (quoted a.word.toList)) ++
    "--" :: words.map fun w => String.ofList (quoted w.toList))

/-- Whether a token is read as a word, wherever it stands between blanks. -/
structure Spells (token word : List Char) : Prop where
  scan (rest : List Char) : scan .gap (token ++ rest) = CommandLine.scan (.word .bare word) rest
  escapeMarks (wordStart : Bool) (rest : List Char) :
    escapeMarks .bare wordStart (token ++ rest) = token ++ CommandLine.escapeMarks .bare false rest
  head : ∃ c, token.head? = some c ∧ Text.isBlank c = false
  last : ∃ c, token.getLast? = some c ∧ Text.isBlank c = false

section

variable {word name : List Char} {tokens words : List (List Char)} {a : Assignment}

theorem scan_quotedChars (word read rest : List Char) :
    scan (.word .single read) (word.flatMap quotedChar ++ '\'' :: rest) =
      scan (.word .bare (read ++ word)) rest := by
  induction word generalizing read with
  | nil => simp [scan, Quoting.step]
  | cons c word ih =>
    have hstep (tail : List Char) : scan (.word .single read) (quotedChar c ++ tail) =
        scan (.word .single (read ++ [c])) tail := by
      by_cases hc : c = '\''
      · simp [hc, quotedChar, scan, Quoting.step, isSeparator]
      · simp [hc, quotedChar, scan, Quoting.step]
    rw [List.flatMap_cons, List.append_assoc, hstep, ih, List.append_assoc, List.singleton_append]

theorem escapeMarks_quotedChars (word : List Char) (wordStart : Bool) (rest : List Char) :
    escapeMarks .single wordStart (word.flatMap quotedChar ++ '\'' :: rest) =
      word.flatMap quotedChar ++ '\'' :: escapeMarks .bare false rest := by
  induction word generalizing wordStart with
  | nil => simp [escapeMarks, Quoting.step]
  | cons c word ih =>
    have hstep (tail : List Char) : escapeMarks .single wordStart (quotedChar c ++ tail) =
        quotedChar c ++ escapeMarks .single false tail := by
      by_cases hc : c = '\''
      · simp [hc, quotedChar, escapeMarks, Quoting.step]
      · simp [hc, quotedChar, escapeMarks, Quoting.step]
    rw [List.flatMap_cons, List.append_assoc, hstep, ih, List.append_assoc]

theorem spells_quoted (word : List Char) : Spells (quoted word) word where
  scan rest := by
    have hbody := scan_quotedChars word [] rest
    simpa [quoted, scan, isSeparator, Quoting.step] using hbody
  escapeMarks wordStart rest := by
    have hbody := escapeMarks_quotedChars word false rest
    simpa [quoted, escapeMarks, Quoting.step] using hbody
  head := ⟨'\'', rfl, by decide⟩
  last := ⟨'\'', by rw [quoted, List.getLast?_append]; rfl, by decide⟩

theorem spells_dashes : Spells ['-', '-'] ['-', '-'] where
  scan rest := by simp [scan, isSeparator, Quoting.step]
  escapeMarks wordStart rest := by simp [escapeMarks, Quoting.step, Text.isBlank]
  head := ⟨'-', rfl, by decide⟩
  last := ⟨'-', rfl, by decide⟩

theorem scan_intercalate (h : List.Forall₂ Spells tokens words) :
    scan .gap ([' '].intercalate tokens) = some words := by
  induction h with
  | nil => rfl
  | @cons token word tokens words hword htail ih =>
    cases htail with
    | nil =>
      have htoken := hword.scan []
      rw [List.append_nil] at htoken
      simpa [scan] using htoken
    | cons hnext htail =>
      rw [List.intercalate_cons_cons, List.append_assoc, hword.scan]
      simp [scan, isSeparator, ih]

theorem escapeMarks_intercalate (h : List.Forall₂ Spells tokens words) (wordStart : Bool) :
    escapeMarks .bare wordStart ([' '].intercalate tokens) = [' '].intercalate tokens := by
  induction h generalizing wordStart with
  | nil => rfl
  | @cons token word tokens words hword htail ih =>
    cases htail with
    | nil =>
      have htoken := hword.escapeMarks wordStart []
      simpa [escapeMarks] using htoken
    | cons hnext htail =>
      rw [List.intercalate_cons_cons, List.append_assoc, hword.escapeMarks]
      simp [escapeMarks, Quoting.step, ih]

theorem head?_intercalate (h : List.Forall₂ Spells tokens words) (hne : tokens ≠ []) :
    ∃ c, ([' '].intercalate tokens).head? = some c ∧ Text.isBlank c = false := by
  cases h with
  | nil => exact absurd rfl hne
  | cons hword htail =>
    obtain ⟨c, hc, hblank⟩ := hword.head
    refine ⟨c, ?_, hblank⟩
    cases htail with
    | nil => simpa using hc
    | cons => simp [List.intercalate_cons_cons, List.head?_append, hc]

theorem getLast?_intercalate (h : List.Forall₂ Spells tokens words) (hne : tokens ≠ []) :
    ∃ c, ([' '].intercalate tokens).getLast? = some c ∧ Text.isBlank c = false := by
  induction h with
  | nil => exact absurd rfl hne
  | cons hword htail ih =>
    cases htail with
    | nil =>
      obtain ⟨c, hc, hblank⟩ := hword.last
      exact ⟨c, by simpa using hc, hblank⟩
    | cons =>
      obtain ⟨c, hc, hblank⟩ := ih (List.cons_ne_nil _ _)
      refine ⟨c, ?_, hblank⟩
      rw [List.intercalate_cons_cons, List.getLast?_append, hc]
      rfl

theorem trim_eq_self {s : List Char} {c d : Char} (hhead : s.head? = some c)
    (hc : Text.isBlank c = false) (hlast : s.getLast? = some d) (hd : Text.isBlank d = false) :
    Text.trim s = s := by
  have hdrop {t : List Char} {e : Char} (ht : t.head? = some e) (he : Text.isBlank e = false) :
      t.dropWhile Text.isBlank = t := by
    obtain ⟨rest, rfl⟩ := List.head?_eq_some_iff.1 ht
    exact List.dropWhile_cons_of_neg (by simp [he])
  rw [Text.trim, hdrop hhead hc, Text.dropTrailing, hdrop (List.head?_reverse ▸ hlast) hd,
    List.reverse_reverse]

theorem words_intercalate (h : List.Forall₂ Spells tokens words) (hne : tokens ≠ []) :
    CommandLine.words (Text.trim ([' '].intercalate tokens)) = words.map String.ofList := by
  obtain ⟨c, hhead, hc⟩ := head?_intercalate h hne
  obtain ⟨d, hlast, hd⟩ := getLast?_intercalate h hne
  rw [trim_eq_self hhead hc hlast hd, CommandLine.words, quotedWords?, escapeMarks_intercalate h,
    scan_intercalate h]
  rfl

theorem isNameChar_of_mem (hname : isFlagName name) {c : Char} (hc : c ∈ name) : isNameChar c := by
  cases name with
  | nil => cases hc
  | cons first rest =>
    simp only [isFlagName, Bool.and_eq_true, List.all_eq_true] at hname
    rcases List.mem_cons.1 hc with rfl | hc
    · simp [isNameChar, Char.isAlphanum, hname.1]
    · exact hname.2 c hc

theorem equals_not_mem (hname : isFlagName name) : '=' ∉ name := fun h =>
  absurd (isNameChar_of_mem hname h) (by decide)

theorem longSetting?_name (hname : isFlagName name) :
    longSetting? name = some (switchSetting name) := by
  rw [longSetting?, Text.span_of_not_mem (equals_not_mem hname)]
  exact if_pos hname

theorem longSetting?_value (hname : isFlagName name) (text : List Char) :
    longSetting? (name ++ '=' :: text) = some (String.ofList name, .ofChars text) := by
  rw [longSetting?, Text.span_append_cons (equals_not_mem hname)]
  exact if_pos hname

theorem isFlagName_no (hname : isFlagName name) : isFlagName ('n' :: 'o' :: '-' :: name) := by
  have hall : name.all isNameChar := List.all_eq_true.2 fun c hc => isNameChar_of_mem hname hc
  have hno : Char.isAlpha 'n' ∧ isNameChar 'o' ∧ isNameChar '-' := by decide
  simp [isFlagName, hno, hall]

theorem settings?_word (h : a.IsValid) : settings? a.word.toList = some [a.setting] := by
  cases a with
  | value name text =>
    have hlong := longSetting?_value h text.toList
    simpa [Assignment.word, settings?, Assignment.setting] using hlong
  | on name =>
    have hlong := longSetting?_name h.1
    have hno : negated? name.toList = none := by
      unfold negated?
      split
      · rename_i other hother
        have hoff : name = "no-" ++ String.ofList other := by
          rw [← String.toList_inj, hother]
          simp
        simpa using h.2 (String.ofList other) hoff
      · rfl
    simpa [Assignment.word, settings?, Assignment.setting, switchSetting, hno] using hlong
  | off name =>
    have hlong := longSetting?_name (isFlagName_no h)
    have hname : isFlagName name.toList := h
    simpa [Assignment.word, settings?, Assignment.setting, switchSetting, negated?, hname] using
      hlong

theorem addWords_of_settings {word : String} {settings : List Setting}
    (h : settings? word.toList = some settings) (args : Arguments) (rest : List String) :
    args.addWords (word :: rest) = (args.addSettings settings).addWords rest := by
  have hne : word ≠ "--" := by
    rintro rfl
    have hdashes : settings? "--".toList = none := by decide
    cases hdashes.symm.trans h
  rw [Arguments.addWords, if_neg hne, h]

theorem addWords_assignments {as : List Assignment} (h : ∀ a ∈ as, a.IsValid) (args : Arguments)
    (rest : List String) :
    args.addWords (as.map Assignment.word ++ rest) =
      (args.addSettings (as.map Assignment.setting)).addWords rest := by
  induction as generalizing args with
  | nil => rfl
  | cons a as ih =>
    obtain ⟨ha, has⟩ := List.forall_mem_cons.1 h
    rw [List.map_cons, List.cons_append, addWords_of_settings (settings?_word ha), ih has]
    rfl

theorem addWords_dashes (args : Arguments) (rest : List String) :
    args.addWords ("--" :: rest) = { args with positional := args.positional ++ rest } := by
  rw [Arguments.addWords, if_pos rfl]

theorem find?_addSettings (settings : List Setting) (flags : Flags) (name : String) :
    (settings.foldl Keyed.insert flags).find? name =
      (settings.filter (·.1 = name)).getLast?.or (flags.find? name) := by
  induction settings generalizing flags with
  | nil => rfl
  | cons s settings ih =>
    rw [List.foldl_cons, ih, Keyed.find?_insert, List.filter_cons]
    by_cases hs : s.1 = name
    · cases hrest : settings.filter (·.1 = name) with
      | nil => simp [hs]
      | cons t rest =>
        have hlast := List.getLast?_eq_some_getLast (List.cons_ne_nil t rest)
        simp [hs, List.getLast?_cons_cons, hlast]
    · simp [hs]

end

theorem forall₂_spells {α : Type} (f : α → List Char) (l : List α) :
    List.Forall₂ Spells (l.map fun a => quoted (f a)) (l.map f) := by
  rw [List.forall₂_map_left_iff, List.forall₂_map_right_iff, List.forall₂_same]
  exact fun a _ => spells_quoted (f a)

theorem words_print (assignments : List Assignment) (words : List String) :
    CommandLine.words (Text.trim (print assignments words).toList) =
      assignments.map Assignment.word ++ "--" :: words := by
  have hspells : List.Forall₂ Spells
      (assignments.map (fun a => quoted a.word.toList) ++
        ['-', '-'] :: words.map fun w => quoted w.toList)
      (assignments.map (fun a => a.word.toList) ++ ['-', '-'] :: words.map String.toList) :=
    List.rel_append (forall₂_spells _ assignments)
      (.cons spells_dashes (forall₂_spells String.toList words))
  have hline : (print assignments words).toList = [' '].intercalate
      (assignments.map (fun a => quoted a.word.toList) ++
        ['-', '-'] :: words.map fun w => quoted w.toList) := by
    simp [print, String.toList_intercalate, Function.comp_def]
  rw [hline, words_intercalate hspells (by simp)]
  simp [Function.comp_def]

/-- A printed line is parsed into its command, its arguments, and for every flag the last of its
settings. -/
theorem parse_print (assignments : List Assignment) (h : ∀ a ∈ assignments, a.IsValid)
    (command : String) (positional : List String) :
    let l := parse (print assignments (command :: positional))
    l.command = command ∧ l.arguments.positional = positional ∧
      ∀ name, l.arguments.flag? name =
        ((assignments.map Assignment.setting).filter (·.1 = name)).getLast?.map (·.2) := by
  have hargs : Arguments.ofWords
      (assignments.map Assignment.word ++ "--" :: command :: positional) =
      ⟨command :: positional, (assignments.map Assignment.setting).foldl Keyed.insert ∅⟩ := by
    rw [Arguments.ofWords, addWords_assignments h, addWords_dashes]
    rfl
  intro l
  have hl : l = ⟨command,
      ⟨positional, (assignments.map Assignment.setting).foldl Keyed.insert ∅⟩⟩ := by
    show ofArguments (Arguments.ofWords (CommandLine.words _)) = _
    rw [words_print, hargs]
    rfl
  refine ⟨by rw [hl], by rw [hl], fun name => ?_⟩
  rw [hl, Arguments.flag?, find?_addSettings]
  simp [show Keyed.find? (∅ : Flags) name = none from rfl]

/-- A name that only looks negated, a negated name that is negated again, a flag that is set twice,
and words that would be flags, comments or escapes without their quotes. -/
theorem parse_print_of_odd_words :
    let assignments : List Assignment :=
      [.value "n" "5", .on "no-5", .off "no-x", .value "n" "it's inf"]
    let l := parse (print assignments ["say so", "--n=1", "", "#\\\n'"])
    print assignments ["say so", "--n=1", "", "#\\\n'"] =
      "'--n=5' '--no-5' '--no-no-x' '--n=it'\\''s inf' -- 'say so' '--n=1' '' '#\\\n'\\'''" ∧
    l.command = "say so" ∧ l.arguments.positional = ["--n=1", "", "#\\\n'"] ∧
      l.arguments.flag? "n" = some (.text "it's inf") ∧
      l.arguments.flag? "no-5" = some (.switch true) ∧
      l.arguments.flag? "no-x" = some (.switch false) ∧ l.arguments.flag? "x" = none := by
  intro assignments l
  have hvalid : ∀ a ∈ assignments, a.IsValid := by
    have hother (other : String) (h : "no-5" = "no-" ++ other) : other = "5" := by
      have hlist : "no-".toList ++ other.toList = "no-".toList ++ "5".toList := by
        rw [← String.toList_append, ← h]
        decide
      exact String.toList_inj.1 (List.append_cancel_left hlist)
    simp only [assignments, List.forall_mem_cons, Assignment.IsValid]
    refine ⟨by decide +kernel, ⟨by decide +kernel, fun other h => ?_⟩, by decide +kernel,
      by decide +kernel, by simp⟩
    rw [hother other h]
    decide +kernel
  have hl : l = parse (print assignments ["say so", "--n=1", "", "#\\\n'"]) := rfl
  obtain ⟨hcommand, hpositional, hflags⟩ :=
    parse_print assignments hvalid "say so" ["--n=1", "", "#\\\n'"]
  rw [← hl] at hcommand hpositional hflags
  refine ⟨by decide +kernel, hcommand, hpositional, ?_, ?_, ?_, ?_⟩
  all_goals rw [hflags]; decide +kernel

end SessionShell.CommandLine
