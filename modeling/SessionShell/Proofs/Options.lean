import Mathlib.Control.Monad.Basic
import SessionShell.Options
import SessionShell.Proofs.Text.Span
import SessionShell.Proofs.Text.Utf8

namespace SessionShell.Options

open Text.Utf8 (Bytes encode encode_append encode_eq_nil_iff)

def Key.letter : Key → Char
  | switch .help => 'h'
  | switch .version => 'V'
  | switch .debug => 'd'
  | setting .config => 'c'
  | setting .prompt => 'p'
  | setting .modules => 'm'
  | setting .logLevel => 'l'

def Key.name : Key → String
  | switch .help => "help"
  | switch .version => "version"
  | switch .debug => "debug"
  | setting .config => "config"
  | setting .prompt => "prompt"
  | setting .modules => "modules"
  | setting .logLevel => "log-level"

def Key.short (k : Key) : String := String.singleton k.letter

def Key.long (k : Key) : String := "--" ++ k.name

/-- Whether a setting can have a value: the log filter has none that is blank. -/
def Setting.Admits (s : Setting) (value : String) : Prop :=
  s = .logLevel → Text.allBlank value = false

/-- How a cluster ends behind its switches: the text in it, the arguments behind it, and what they
set. A value that begins with the equals sign cannot stand directly behind the letter. -/
inductive Ending : (text : String) → (arguments : List String) → List Occurrence → Prop
  | none : Ending "" [] []
  | attached {s : Setting} {value : String} (hvalue : s.Admits value) (hne : value ≠ "")
    (hequals : value.toList.head? ≠ some '=') :
    Ending (Key.short (.setting s) ++ value) [] [.setting s value]
  | equals {s : Setting} {value : String} (hvalue : s.Admits value) :
    Ending (Key.short (.setting s) ++ "=" ++ value) [] [.setting s value]
  | next {s : Setting} {value : String} (hvalue : s.Admits value) :
    Ending (Key.short (.setting s)) [value] [.setting s value]

def letters (switches : List Switch) : String :=
  String.ofList (switches.map fun s => Key.letter (.switch s))

/-- The arguments that spell occurrences together. -/
inductive Spelling : (arguments : List String) → List Occurrence → Prop
  | switch (s : Switch) : Spelling [Key.long (.switch s)] [.switch s]
  | equals {s : Setting} {value : String} (hvalue : s.Admits value) :
    Spelling [Key.long (.setting s) ++ "=" ++ value] [.setting s value]
  | next {s : Setting} {value : String} (hvalue : s.Admits value) :
    Spelling [Key.long (.setting s), value] [.setting s value]
  | cluster {switches : List Switch} {text : String} {arguments : List String}
    {os : List Occurrence} (hne : switches ≠ [] ∨ text ≠ "") (hend : Ending text arguments os) :
    Spelling (("-" ++ letters switches ++ text) :: arguments) (switches.map .switch ++ os)

/-- Arguments that spell occurrences one after the other. -/
inductive Spelled : (arguments : List String) → List Occurrence → Prop
  | nil : Spelled [] []
  | cons {first arguments : List String} {os os' : List Occurrence} (hfirst : Spelling first os)
    (hrest : Spelled arguments os') : Spelled (first ++ arguments) (os ++ os')

/-- Whether an argument list behind the name of the program spells occurrences. -/
def Spells (argv : List Bytes) (os : List Occurrence) : Prop :=
  ∃ arguments, Spelled arguments os ∧
    (argv.tail = arguments.map encode ∨ argv.tail = (arguments ++ ["--"]).map encode)

def Occurrence.key : Occurrence → Key
  | .switch s => .switch s
  | .setting s _ => .setting s

/-- The value that an occurrence gives a setting. -/
def Occurrence.value? (s : Setting) : Occurrence → Option String
  | .switch _ => none
  | .setting s' value => if s' = s then some value else none

def isOn (o : Options) : Switch → Bool
  | .help => o.help
  | .version => o.version
  | .debug => o.debug

def value? (o : Options) : Setting → Option String
  | .config => o.config
  | .prompt => o.prompt
  | .modules => o.modules
  | .logLevel => o.logLevel

section

variable {b : UInt8} {c : Char} {k : Key} {s : Setting} {rest value bytes : Bytes} {t : String}

theorem ofShort?_eq_some_iff : Key.ofShort? c = some k ↔ c = k.letter := by
  constructor
  · unfold Key.ofShort?
    split <;> rintro ⟨⟩ <;> rfl
  · rintro rfl
    rcases k with s | s <;> cases s <;> rfl

theorem ofLong?_eq_some_iff : Key.ofLong? t = some k ↔ t = k.name := by
  constructor
  · unfold Key.ofLong?
    split <;> rintro ⟨⟩ <;> rfl
  · rintro rfl
    rcases k with s | s <;> cases s <;> rfl

def Key.byte (k : Key) : UInt8 := UInt8.ofNat k.letter.toNat

theorem byte_spec (k : Key) :
    Char.ofNat k.byte.toNat = k.letter ∧ k.byte < 0x80 ∧ k.byte ≠ equals ∧ k.byte ≠ dash := by
  rcases k with s | s <;> cases s <;> decide

theorem encodeChar_letter (k : Key) : String.utf8EncodeChar k.letter = [k.byte] := by
  obtain ⟨hchar, hascii, -⟩ := byte_spec k
  rw [← hchar, Text.Utf8.encodeChar_ascii hascii]

theorem encode_short (k : Key) : encode k.short = [k.byte] := by
  rw [Text.Utf8.encode_eq_flatMap, Key.short, String.toList_singleton, List.flatMap_singleton,
    encodeChar_letter]

theorem equals_mem_encode_iff : equals ∈ encode t ↔ '=' ∈ t.toList := by
  rw [Text.Utf8.encode_eq_flatMap, List.mem_flatMap]
  constructor
  · rintro ⟨c, hc, hmem⟩
    exact (Text.Utf8.encodeChar_of_ascii_mem (b := equals) (by decide) hmem).1 ▸ hc
  · exact fun h => ⟨'=', h, by simp [String.utf8EncodeChar, equals]⟩

theorem encode_dash : encode "-" = [dash] := by
  simp [Text.Utf8.encode_eq_flatMap, String.utf8EncodeChar, dash]

theorem encode_dashes : encode "--" = [dash, dash] := by
  simp [Text.Utf8.encode_eq_flatMap, String.utf8EncodeChar, dash]

theorem encode_equals : encode "=" = [equals] := by
  simp [Text.Utf8.encode_eq_flatMap, String.utf8EncodeChar, equals]

theorem name_spec (k : Key) :
    Text.Utf8.replacement ∉ k.name.toList ∧ '=' ∉ k.name.toList ∧ k.name ≠ "" := by
  rcases k with s | s <;> cases s <;> simp [Key.name, Text.Utf8.replacement]

/-- A name that has no replacement character is decoded from its own bytes alone. -/
theorem lossyText_eq_iff (h : Text.Utf8.replacement ∉ t.toList) :
    lossyText bytes = t ↔ bytes = encode t := by
  constructor
  · rintro rfl
    obtain ⟨out, hout, hshown⟩ := Text.Utf8.decodeLossy_shown bytes
    rw [lossyText, String.toList_ofList, hshown] at h
    -- An ill-formed piece would show as the replacement character.
    have hchars : out = (out.map Text.Utf8.shown).map .ok := by
      rw [List.map_map]
      refine (List.map_id out).symm.trans (List.map_congr_left fun piece hpiece => ?_)
      cases piece with
      | ok c => rfl
      | error junk => exact absurd (List.mem_map_of_mem hpiece) h
    rw [lossyText, hshown, Text.Utf8.encode_eq_flatMap, String.toList_ofList]
    exact (hchars ▸ hout).eq_flatMap
  · rintro rfl
    rw [lossyText, Text.Utf8.decodeLossy_encode, String.ofList_toList]

theorem firstChar_of_ascii (h : b < 0x80) (rest : Bytes) :
    firstChar b rest = Char.ofNat b.toNat := by
  simp [firstChar, Text.Utf8.pieces, Text.Utf8.first, h]

theorem firstChar_eq_letter_iff : firstChar b rest = k.letter ↔ b = k.byte := by
  obtain ⟨hchar, hascii, -⟩ := byte_spec k
  constructor
  · intro h
    have hdecoded : Text.Utf8.Decoded ((b :: rest).take 4) _ := Text.Utf8.pieces_eq_iff.1 rfl
    unfold firstChar at h
    split at h
    · rename_i c out hpieces
      subst h
      -- The bytes begin with all of the character that is read, and that is one byte.
      rw [hpieces] at hdecoded
      generalize hbytes : (b :: rest).take 4 = taken at hdecoded
      cases hdecoded with
      | char =>
        rw [encodeChar_letter] at hbytes
        simpa using congrArg List.head? hbytes
    · have hne : Text.Utf8.replacement ≠ k.letter := by
        rcases k with s | s <;> cases s <;> decide
      exact absurd h hne
  · rintro rfl
    rw [firstChar_of_ascii hascii, hchar]

theorem encode_of_ofLong? (h : Key.ofLong? (lossyText bytes) = some k) :
    dash :: dash :: bytes = encode k.long := by
  rw [(lossyText_eq_iff (name_spec k).1).1 (ofLong?_eq_some_iff.1 h), Key.long, encode_append,
    encode_dashes]
  rfl

theorem bind_eq_ok_iff {α β : Type} {x : Except OptionError α} {f : α → Except OptionError β}
    {y : β} : (x >>= f) = .ok y ↔ ∃ a, x = .ok a ∧ f a = .ok y := by
  cases x with
  | error e => simp [Bind.bind, Except.bind]
  | ok a => simp [Bind.bind, Except.bind]

theorem map_eq_ok_iff {α β : Type} {x : Except OptionError α} {f : α → β} {y : β} :
    x.map f = .ok y ↔ ∃ a, x = .ok a ∧ f a = y := by
  cases x <;> simp [Except.map]

theorem give_eq_ok_iff {o : Occurrence} :
    give s bytes = .ok o ↔ ∃ v, bytes = encode v ∧ s.Admits v ∧ o = .setting s v := by
  unfold give
  split
  · rename_i hdecode
    have hnone : ∀ v, bytes ≠ encode v := fun v hv => by
      rw [Text.Utf8.decode?_eq_some_iff.2 hv.symm] at hdecode
      cases hdecode
    simp [hnone]
  · rename_i text hdecode
    have htext : ∀ v, bytes = encode v ↔ text = v := fun v => by
      rw [eq_comm, ← Text.Utf8.decode?_eq_some_iff, hdecode, Option.some_inj]
    simp only [htext, exists_eq_left', Setting.Admits, Bool.and_eq_true, decide_eq_true_eq]
    split
    · rename_i hblank
      simp [hblank.1, hblank.2]
    · rename_i hadmits
      have hvalue : s = .logLevel → Text.allBlank text = false := fun hs =>
        Bool.eq_false_iff.2 fun hblank => hadmits ⟨hs, hblank⟩
      rw [Except.ok.injEq, and_iff_right hvalue, eq_comm]

theorem long_of_name (h : equals ∉ bytes) (hne : bytes ≠ []) :
    Token.ofBytes (dash :: dash :: bytes) = .long (lossyText bytes) none := by
  refine (Token.ofBytes.eq_2 bytes hne).trans ?_
  rw [Text.span_of_not_mem h]
  rfl

theorem long_of_value (h : equals ∉ bytes) (value : Bytes) :
    Token.ofBytes (dash :: dash :: (bytes ++ equals :: value)) =
      .long (lossyText bytes) (some value) := by
  refine (Token.ofBytes.eq_2 (bytes ++ equals :: value) (by simp)).trans ?_
  rw [Text.span_append_cons h]
  rfl

theorem cluster_of_letter (h : b ≠ dash) (rest : Bytes) :
    Token.ofBytes (dash :: b :: rest) = .cluster (b :: rest) :=
  Token.ofBytes.eq_3 b rest (fun hb _ => h hb) h

/-- The form of an argument, and what it is there. -/
inductive Form : Bytes → Token → Prop
  | terminator : Form [dash, dash] .terminator
  | name {name : Bytes} (hname : equals ∉ name) (hne : name ≠ []) :
    Form (dash :: dash :: name) (.long (lossyText name) none)
  | assignment {name value : Bytes} (hname : equals ∉ name) :
    Form (dash :: dash :: (name ++ equals :: value)) (.long (lossyText name) (some value))
  | cluster {b : UInt8} {rest : Bytes} (hb : b ≠ dash) :
    Form (dash :: b :: rest) (.cluster (b :: rest))
  | value (bytes : Bytes) : Form bytes (.value bytes)

theorem value_of_head (h : bytes.head? ≠ some dash) : Token.ofBytes bytes = .value bytes := by
  unfold Token.ofBytes
  split
  · exact absurd rfl h
  · exact absurd rfl h
  · exact absurd rfl h
  · rfl

theorem form_ofBytes (argument : Bytes) : Form argument (Token.ofBytes argument) := by
  rcases argument with - | ⟨a, argument⟩
  · exact .value []
  by_cases ha : a = dash
  · subst ha
    rcases argument with - | ⟨b, rest⟩
    · exact .value [dash]
    by_cases hb : b = dash
    · subst hb
      obtain ⟨hnone, -⟩ | ⟨name, value, hname, rfl, -⟩ := Text.exists_span equals rest
      · rcases eq_or_ne rest [] with rfl | hne
        · exact .terminator
        · exact long_of_name hnone hne ▸ .name hnone hne
      · exact long_of_value hname value ▸ .assignment hname
    · exact cluster_of_letter hb rest ▸ .cluster hb
  · rw [value_of_head (by simpa using ha)]
    exact .value _

theorem readCluster_byte (last : Option String) (k : Key) (rest : Bytes) :
    readCluster last (k.byte :: rest) =
      match k, rest with
      | .switch s, rest => do
        let (os, wanting) ← readCluster (some (shortText k.letter)) rest
        return (.switch s :: os, wanting)
      | .setting s, [] => .ok ([], some ⟨s, shortText k.letter⟩)
      | .setting s, v :: vs => do
        return ([← give s (if v = equals then vs else v :: vs)], none) := by
  obtain ⟨-, -, hequals, -⟩ := byte_spec k
  rw [readCluster, if_neg hequals]
  simp only [firstChar_eq_letter_iff.2 rfl, ofShort?_eq_some_iff.2 rfl]
  cases k <;> cases rest <;> rfl

theorem exists_byte_of_readCluster {last : Option String} {r : List Occurrence × Option Wanting}
    (h : readCluster last (b :: rest) = .ok r) : ∃ k : Key, b = k.byte := by
  rw [readCluster] at h
  split at h
  · cases h
  · cases hkey : Key.ofShort? (firstChar b rest) with
    | none =>
      simp only [hkey] at h
      cases h
    | some k => exact ⟨k, firstChar_eq_letter_iff.1 (ofShort?_eq_some_iff.1 hkey)⟩

end

section

variable {switches : List Switch} {s : Setting} {text v : String} {last : Option String}
  {b shorts rest : Bytes} {arguments : List String} {os : List Occurrence} {w : Option Wanting}

theorem head_encode_eq_equals_iff :
    (encode text).head? = some equals ↔ text.toList.head? = some '=' := by
  rw [Text.Utf8.encode_eq_flatMap]
  cases text.toList with
  | nil => simp
  | cons c cs =>
    rw [List.flatMap_cons, List.head?_cons, Option.some_inj]
    constructor
    · intro h
      obtain ⟨b, bs, hc⟩ := List.exists_cons_of_ne_nil (String.utf8EncodeChar_ne_nil (c := c))
      rw [hc, List.cons_append, List.head?_cons, Option.some_inj] at h
      have hmem : equals ∈ String.utf8EncodeChar c := by simp [hc, h]
      exact (Text.Utf8.encodeChar_of_ascii_mem (by decide) hmem).1
    · rintro rfl
      simp [String.utf8EncodeChar, equals]

theorem encode_letters_nil : encode (letters []) = [] := encode_eq_nil_iff.2 rfl

theorem encode_letters_cons (s : Switch) (switches : List Switch) :
    encode (letters (s :: switches)) = (Key.switch s).byte :: encode (letters switches) := by
  simp only [Text.Utf8.encode_eq_flatMap, letters, String.toList_ofList, List.map_cons,
    List.flatMap_cons, encodeChar_letter]
  rfl

theorem readCluster_last (h : rest.head? ≠ some equals) :
    readCluster last rest = readCluster none rest := by
  cases rest with
  | nil => rfl
  | cons b rest =>
    have hb : b ≠ equals := fun hb => h (congrArg some hb)
    simp only [readCluster, if_neg hb]

/-- Switches in a cluster are read one by one, and leave what stands behind them. -/
theorem readCluster_letters (h : rest.head? ≠ some equals) :
    readCluster last (encode (letters switches) ++ rest) =
      (readCluster none rest).map fun r => (switches.map .switch ++ r.1, r.2) := by
  induction switches generalizing last with
  | nil =>
    rw [encode_letters_nil, List.nil_append, readCluster_last h]
    cases readCluster none rest <;> rfl
  | cons s switches ih =>
    rw [encode_letters_cons, List.cons_append, readCluster_byte]
    dsimp only
    rw [ih]
    cases readCluster none rest <;> rfl

theorem readCluster_equals (h : s.Admits v) :
    readCluster none (encode (Key.short (.setting s) ++ "=" ++ v)) =
      .ok ([.setting s v], none) := by
  rw [encode_append, encode_append, encode_short, encode_equals]
  show readCluster none ((Key.setting s).byte :: equals :: encode v) = _
  rw [readCluster_byte]
  dsimp only
  rw [if_pos rfl, give_eq_ok_iff.2 ⟨v, rfl, h, rfl⟩]
  rfl

theorem readCluster_attached (h : s.Admits v) (hne : v ≠ "") (hequals : v.toList.head? ≠ some '=') :
    readCluster none (encode (Key.short (.setting s) ++ v)) = .ok ([.setting s v], none) := by
  obtain ⟨b, bs, hv⟩ := List.exists_cons_of_ne_nil (mt encode_eq_nil_iff.1 hne)
  have hb : b ≠ equals := by
    rintro rfl
    exact hequals (head_encode_eq_equals_iff.1 (by rw [hv]; rfl))
  rw [encode_append, encode_short, hv]
  show readCluster none ((Key.setting s).byte :: b :: bs) = _
  rw [readCluster_byte]
  dsimp only
  rw [if_neg hb, give_eq_ok_iff.2 ⟨v, hv.symm, h, rfl⟩]
  rfl

theorem readCluster_short (s : Setting) :
    readCluster none (encode (Key.short (.setting s))) =
      .ok ([], some ⟨s, shortText (Key.setting s).letter⟩) := by
  rw [encode_short, readCluster_byte]

theorem ending_of_give {b : UInt8} {bs : Bytes} {o : Occurrence}
    (h : give s (if b = equals then bs else b :: bs) = .ok o) :
    ∃ text, (Key.setting s).byte :: b :: bs = encode text ∧ Ending text [] [o] := by
  obtain ⟨v, hbytes, hv, rfl⟩ := give_eq_ok_iff.1 h
  split at hbytes
  · rename_i hb
    refine ⟨Key.short (.setting s) ++ "=" ++ v, ?_, .equals hv⟩
    rw [encode_append, encode_append, encode_short, encode_equals, hb, hbytes]
    rfl
  · rename_i hb
    refine ⟨Key.short (.setting s) ++ v, ?_, .attached hv ?_ ?_⟩
    · rw [encode_append, encode_short, ← hbytes]
      rfl
    · exact mt encode_eq_nil_iff.2 (hbytes ▸ List.cons_ne_nil b bs)
    · rw [Ne, ← head_encode_eq_equals_iff, ← hbytes]
      exact fun h => hb (Option.some_inj.1 h)

/-- A cluster that is read consists of switches, and of a setting behind them or none. -/
theorem exists_ending_of_readCluster (h : readCluster last shorts = .ok (os, w)) :
    ∃ switches text, shorts = encode (letters switches ++ text) ∧
      ((w = none ∧ ∃ os', os = switches.map .switch ++ os' ∧ Ending text [] os') ∨
        ∃ s option, w = some ⟨s, option⟩ ∧ os = switches.map .switch ∧
          text = Key.short (.setting s)) := by
  induction shorts generalizing last os with
  | nil =>
    cases h
    exact ⟨[], "", (encode_eq_nil_iff.2 rfl).symm, .inl ⟨rfl, [], rfl, .none⟩⟩
  | cons b rest ih =>
    obtain ⟨k, rfl⟩ := exists_byte_of_readCluster h
    rw [readCluster_byte] at h
    cases k with
    | switch s =>
      -- the cluster goes on behind a switch, but not behind a setting
      obtain ⟨⟨os', w'⟩, hrest, hos⟩ := bind_eq_ok_iff.1 h
      cases hos
      obtain ⟨switches, text, hbytes, hend⟩ := ih hrest
      refine ⟨s :: switches, text, ?_, ?_⟩
      · rw [encode_append, encode_letters_cons, hbytes, encode_append]
        rfl
      · rcases hend with ⟨hw, os'', hos, hend⟩ | ⟨s', option, hw, hos, htext⟩
        · exact .inl ⟨hw, os'', by rw [hos]; rfl, hend⟩
        · exact .inr ⟨s', option, hw, by rw [hos]; rfl, htext⟩
    | setting s =>
      cases rest with
      | nil =>
        cases h
        refine ⟨[], Key.short (.setting s), ?_, .inr ⟨s, _, rfl, rfl, rfl⟩⟩
        rw [encode_append, encode_letters_nil, encode_short]
        rfl
      | cons b bs =>
        obtain ⟨o, hgive, hos⟩ := bind_eq_ok_iff.1 h
        cases hos
        obtain ⟨text, hbytes, hend⟩ := ending_of_give hgive
        refine ⟨[], text, ?_, .inl ⟨rfl, _, rfl, hend⟩⟩
        rw [encode_append, encode_letters_nil, hbytes]
        rfl

theorem token_long (k : Key) : Token.ofBytes (encode k.long) = .long k.name none := by
  obtain ⟨hreplacement, hequals, hne⟩ := name_spec k
  rw [Key.long, encode_append, encode_dashes]
  show Token.ofBytes (dash :: dash :: encode k.name) = _
  rw [long_of_name (mt equals_mem_encode_iff.1 hequals) (mt encode_eq_nil_iff.1 hne),
    (lossyText_eq_iff hreplacement).2 rfl]

theorem token_long_equals (k : Key) (v : String) :
    Token.ofBytes (encode (k.long ++ "=" ++ v)) = .long k.name (some (encode v)) := by
  obtain ⟨hreplacement, hequals, -⟩ := name_spec k
  rw [Key.long, encode_append, encode_append, encode_append, encode_dashes, encode_equals,
    List.append_assoc]
  show Token.ofBytes (dash :: dash :: (encode k.name ++ equals :: encode v)) = _
  rw [long_of_value (mt equals_mem_encode_iff.1 hequals), (lossyText_eq_iff hreplacement).2 rfl]

theorem token_cluster (hne : switches ≠ [] ∨ text ≠ "") (hend : Ending text arguments os) :
    Token.ofBytes (encode ("-" ++ letters switches ++ text)) =
      .cluster (encode (letters switches) ++ encode text) := by
  have hfirst : ∃ (k : Key) (rest : Bytes),
      encode (letters switches) ++ encode text = k.byte :: rest := by
    cases switches with
    | cons s switches => exact ⟨.switch s, _, by rw [encode_letters_cons]; rfl⟩
    | nil =>
      rw [encode_letters_nil, List.nil_append]
      cases hend with
      | none => simp at hne
      | @attached s v => exact ⟨.setting s, _, by rw [encode_append, encode_short]; rfl⟩
      | @equals s v =>
        exact ⟨.setting s, _, by rw [encode_append, encode_append, encode_short]; rfl⟩
      | @next s v => exact ⟨.setting s, _, encode_short _⟩
  obtain ⟨k, rest, hbytes⟩ := hfirst
  rw [encode_append, encode_append, encode_dash, List.append_assoc, hbytes]
  exact cluster_of_letter (byte_spec k).2.2.2 rest

theorem head_of_ending (h : Ending text arguments os) :
    (encode text).head? ≠ some Options.equals := by
  have hshort (s : Setting) (t : Bytes) :
      (encode (Key.short (.setting s)) ++ t).head? ≠ some Options.equals := by
    rw [encode_short]
    exact fun h => (byte_spec (.setting s)).2.2.1 (by simpa using h)
  cases h with
  | none => simp [encode_eq_nil_iff.2]
  | @attached s v => rw [encode_append]; exact hshort s _
  | @equals s v => rw [encode_append, encode_append, List.append_assoc]; exact hshort s _
  | @next s v => simpa using hshort s []

theorem readArgument_cluster (hne : switches ≠ [] ∨ text ≠ "") (hend : Ending text arguments os) :
    readArgument (encode ("-" ++ letters switches ++ text)) =
      (readCluster none (encode text)).map fun r => some (switches.map .switch ++ r.1, r.2) := by
  rw [readArgument, token_cluster hne hend]
  dsimp only
  rw [readCluster_letters (head_of_ending hend)]
  cases readCluster none (encode text) <;> rfl

theorem occurrences_of_whole (h : readArgument b = .ok (some (os, none))) (rest : List Bytes) :
    occurrences (b :: rest) = (occurrences rest).map (os ++ ·) := by
  rw [occurrences.eq_def]
  simp only [h]
  cases occurrences rest <;> rfl

theorem occurrences_of_wanting {w : Wanting} (h : readArgument b = .ok (some (os, some w)))
    (hv : w.setting.Admits v) (rest : List Bytes) :
    occurrences (b :: encode v :: rest) =
      (occurrences rest).map (os ++ [.setting w.setting v] ++ ·) := by
  rw [occurrences.eq_def]
  simp only [h, give_eq_ok_iff.2 ⟨v, rfl, hv, rfl⟩]
  cases occurrences rest <;> simp [Except.map, bind, Except.bind, pure, Except.pure]

/-- The occurrences that arguments spell together come first, whatever stands behind them. -/
theorem Spelling.occurrences_append (h : Spelling arguments os) (rest : List Bytes) :
    occurrences (arguments.map encode ++ rest) = (occurrences rest).map (os ++ ·) := by
  cases h with
  | switch s =>
    refine occurrences_of_whole ?_ rest
    rw [readArgument, token_long]
    simp only [ofLong?_eq_some_iff.2 rfl]
  | @equals s v hv =>
    refine occurrences_of_whole ?_ rest
    rw [readArgument, token_long_equals]
    simp only [ofLong?_eq_some_iff.2 rfl, give_eq_ok_iff.2 ⟨v, rfl, hv, rfl⟩]
    rfl
  | @next s v hv =>
    have hread : readArgument (encode (Key.long (.setting s))) =
        .ok (some ([], some ⟨s, "--" ++ (Key.setting s).name⟩)) := by
      rw [readArgument, token_long]
      simp only [ofLong?_eq_some_iff.2 rfl]
    exact occurrences_of_wanting hread hv rest
  | @cluster switches text arguments os hne hend =>
    have hread := readArgument_cluster hne hend
    cases hend with
    | none =>
      rw [encode_eq_nil_iff.2 rfl] at hread
      exact occurrences_of_whole hread rest
    | attached hv hvalue hequals =>
      rw [readCluster_attached hv hvalue hequals] at hread
      exact occurrences_of_whole hread rest
    | equals hv =>
      rw [readCluster_equals hv] at hread
      exact occurrences_of_whole hread rest
    | @next s v hv =>
      rw [readCluster_short] at hread
      simpa using occurrences_of_wanting hread hv rest

theorem Spelled.occurrences_append (h : Spelled arguments os) (rest : List Bytes) :
    occurrences (arguments.map encode ++ rest) = (occurrences rest).map (os ++ ·) := by
  induction h with
  | nil =>
    show occurrences rest = _
    cases occurrences rest <;> rfl
  | cons hfirst _ ih =>
    rw [List.map_append, List.append_assoc, hfirst.occurrences_append, ih]
    cases occurrences rest with
    | error e => rfl
    | ok os => simp [Except.map]

/-- What an argument is that can be read: the end of the options, a spelling, or one that the next
argument completes. -/
inductive Readable : Bytes → Option (List Occurrence × Option Wanting) → Prop
  | terminator : Readable (encode "--") none
  | whole {text : String} {os : List Occurrence} (hspelling : Spelling [text] os) :
    Readable (encode text) (some (os, none))
  | wanting {text : String} {os : List Occurrence} {w : Wanting}
    (hspelling : ∀ v, w.setting.Admits v → Spelling [text, v] (os ++ [.setting w.setting v])) :
    Readable (encode text) (some (os, some w))

theorem readable_of_give {name value : Bytes} {o : Occurrence}
    (hkey : Key.ofLong? (lossyText name) = some (.setting s)) (h : give s value = .ok o) :
    Readable (dash :: dash :: (name ++ equals :: value)) (some ([o], none)) := by
  obtain ⟨v, rfl, hv, rfl⟩ := give_eq_ok_iff.1 h
  have hargument : dash :: dash :: (name ++ equals :: encode v) =
      encode (Key.long (.setting s) ++ "=" ++ v) := by
    rw [encode_append, encode_append, encode_equals, ← encode_of_ofLong? hkey]
    simp
  rw [hargument]
  exact .whole (.equals hv)

theorem readable_of_readCluster {b : UInt8} (h : readCluster none (b :: rest) = .ok (os, w)) :
    Readable (dash :: b :: rest) (some (os, w)) := by
  obtain ⟨switches, text, hbytes, hend⟩ := exists_ending_of_readCluster h
  have hne : switches ≠ [] ∨ text ≠ "" := by
    by_contra hnone
    obtain ⟨rfl, rfl⟩ := not_or.1 hnone |>.imp not_not.1 not_not.1
    cases hbytes.trans (encode_eq_nil_iff.2 rfl)
  have hargument : dash :: b :: rest = encode ("-" ++ letters switches ++ text) := by
    rw [hbytes, String.append_assoc, encode_append "-", encode_dash]
    rfl
  rw [hargument]
  rcases hend with ⟨rfl, os', rfl, hend⟩ | ⟨s, option, rfl, rfl, rfl⟩
  · exact .whole (.cluster hne hend)
  · exact .wanting fun v hv => .cluster hne (.next hv)

theorem readable_of_readArgument {r : Option (List Occurrence × Option Wanting)}
    (h : readArgument b = .ok r) : Readable b r := by
  have hform := form_ofBytes b
  unfold readArgument at h
  generalize Token.ofBytes b = token at h hform
  -- names that are unknown, and switches with a value, are refused
  cases hform with
  | terminator =>
    cases h
    rw [← encode_dashes]
    exact .terminator
  | @name name hname hne =>
    cases hkey : Key.ofLong? (lossyText name) with
    | none =>
      simp only [hkey] at h
      cases h
    | some k =>
      rw [encode_of_ofLong? hkey]
      cases k with
      | switch s =>
        simp only [hkey] at h
        cases h
        exact .whole (.switch s)
      | setting s =>
        simp only [hkey] at h
        cases h
        exact .wanting fun v hv => .next hv
  | @assignment name value hname =>
    cases hkey : Key.ofLong? (lossyText name) with
    | none =>
      simp only [hkey] at h
      cases h
    | some k =>
      cases k with
      | switch s =>
        simp only [hkey] at h
        cases h
      | setting s =>
        simp only [hkey] at h
        obtain ⟨o, hgive, hr⟩ := bind_eq_ok_iff.1 h
        cases hr
        exact readable_of_give hkey hgive
  | @cluster b rest hb =>
    obtain ⟨⟨os, w⟩, hread, hr⟩ := map_eq_ok_iff.1 h
    cases hr
    exact readable_of_readCluster hread
  | value => cases h

theorem spelled_of_occurrences {arguments : List Bytes} (h : occurrences arguments = .ok os) :
    ∃ texts, Spelled texts os ∧
      (arguments = texts.map encode ∨ arguments = (texts ++ ["--"]).map encode) := by
  -- In cases 2, 4 and 6 the reader fails; in the others it has read one spelling more, or the end.
  induction arguments using occurrences.induct generalizing os with
  | case1 =>
    cases h
    exact ⟨[], .nil, .inl rfl⟩
  | case2 argument rest e hread =>
    rw [occurrences.eq_def] at h
    simp only [hread] at h
    cases h
  | case3 argument hread =>
    rw [occurrences.eq_def] at h
    simp only [hread] at h
    cases h
    cases readable_of_readArgument hread
    exact ⟨[], .nil, .inr rfl⟩
  | case4 argument hread extra rest =>
    rw [occurrences.eq_def] at h
    simp only [hread] at h
    cases h
  | case5 argument rest os' hread ih =>
    rw [occurrences_of_whole hread] at h
    obtain ⟨os'', hrest, rfl⟩ := map_eq_ok_iff.1 h
    obtain ⟨texts, hspelled, htexts⟩ := ih hrest
    cases readable_of_readArgument hread with
    | whole hspelling =>
      refine ⟨_, .cons hspelling hspelled, htexts.imp ?_ ?_⟩ <;> rintro rfl <;> rfl
  | case6 argument os' w hread =>
    rw [occurrences.eq_def] at h
    simp only [hread] at h
    cases h
  | case7 argument os' w hread value rest ih =>
    rw [occurrences.eq_def] at h
    simp only [hread] at h
    obtain ⟨o, hgive, h⟩ := bind_eq_ok_iff.1 h
    obtain ⟨v, rfl, hv, rfl⟩ := give_eq_ok_iff.1 hgive
    obtain ⟨os'', hrest, hos⟩ := bind_eq_ok_iff.1 h
    cases hos
    obtain ⟨texts, hspelled, htexts⟩ := ih hrest
    cases readable_of_readArgument hread with
    | @wanting text _ _ hspelling =>
      refine ⟨[text, v] ++ texts, ?_, htexts.imp ?_ ?_⟩
      · simpa using Spelled.cons (hspelling v hv) hspelled
      all_goals
        rintro rfl
        rfl

theorem occurrences_eq_ok_iff {arguments : List Bytes} :
    occurrences arguments = .ok os ↔ ∃ texts, Spelled texts os ∧
      (arguments = texts.map encode ∨ arguments = (texts ++ ["--"]).map encode) := by
  refine ⟨spelled_of_occurrences, ?_⟩
  rintro ⟨texts, hspelled, rfl | rfl⟩
  · rw [← List.append_nil (texts.map encode), hspelled.occurrences_append]
    simp [occurrences, Except.map]
  · have hend : occurrences (["--"].map encode) = .ok [] := by
      show occurrences [encode "--"] = _
      rw [encode_dashes]
      rfl
    rw [List.map_append, hspelled.occurrences_append, hend]
    simp [Except.map]

end

section

variable {o o' : Options} {argv argv' : List Bytes} {os os' : List Occurrence}

theorem ext_of_isOn_of_value? (hon : ∀ s, o.isOn s = o'.isOn s)
    (hvalue : ∀ s, o.value? s = o'.value? s) : o = o' := by
  obtain ⟨config, prompt, modules, logLevel, debug, version, help⟩ := o
  obtain ⟨config', prompt', modules', logLevel', debug', version', help'⟩ := o'
  obtain rfl : config = config' := hvalue .config
  obtain rfl : prompt = prompt' := hvalue .prompt
  obtain rfl : modules = modules' := hvalue .modules
  obtain rfl : logLevel = logLevel' := hvalue .logLevel
  obtain rfl : debug = debug' := hon .debug
  obtain rfl : version = version' := hon .version
  obtain rfl : help = help' := hon .help
  rfl

theorem isOn_apply (o : Options) (x : Occurrence) (s : Switch) :
    (apply o x).isOn s = (o.isOn s || decide (x = .switch s)) := by
  cases x with
  | switch s' => cases s' <;> cases s <;> simp [apply, isOn]
  | setting s' v => cases s' <;> cases s <;> simp [apply, isOn]

theorem value?_apply (o : Options) (x : Occurrence) (s : Setting) :
    (apply o x).value? s = (x.value? s).or (o.value? s) := by
  cases x with
  | switch s' => cases s' <;> rfl
  | setting s' v => cases s' <;> cases s <;> rfl

theorem isOn_foldl (o : Options) (os : List Occurrence) (s : Switch) :
    (os.foldl apply o).isOn s = true ↔ o.isOn s = true ∨ .switch s ∈ os := by
  induction os generalizing o with
  | nil => simp
  | cons x os ih =>
    rw [List.foldl_cons, ih, isOn_apply, List.mem_cons, Bool.or_eq_true, decide_eq_true_eq,
      or_assoc, eq_comm (a := x)]

theorem value?_foldl (o : Options) (os : List Occurrence) (s : Setting) :
    (os.foldl apply o).value? s = (os.filterMap (·.value? s)).getLast?.or (o.value? s) := by
  induction os generalizing o with
  | nil => rfl
  | cons x os ih =>
    rw [List.foldl_cons, ih, value?_apply]
    cases hx : x.value? s with
    | none => simp [hx]
    | some v =>
      rw [List.filterMap_cons_some hx, List.getLast?_cons]
      cases (os.filterMap (·.value? s)).getLast? <;> rfl

theorem parse_eq_ok_iff : parse argv = .ok o ↔ ∃ os, Spells argv os ∧ os.foldl apply {} = o := by
  rw [parse, map_eq_ok_iff]
  simp only [occurrences_eq_ok_iff]
  rfl

theorem eq_foldl_iff : os.foldl apply {} = o ↔
    (∀ s, o.isOn s = true ↔ .switch s ∈ os) ∧
      ∀ s, o.value? s = (os.filterMap (·.value? s)).getLast? := by
  have hon (s : Switch) : (os.foldl apply {}).isOn s = true ↔ .switch s ∈ os := by
    rw [isOn_foldl]
    cases s <;> simp [isOn]
  have hvalue (s : Setting) : (os.foldl apply {}).value? s =
      (os.filterMap (·.value? s)).getLast? := by
    rw [value?_foldl]
    cases s <;> simp [value?]
  constructor
  · rintro rfl
    exact ⟨hon, hvalue⟩
  · rintro ⟨hon', hvalue'⟩
    refine ext_of_isOn_of_value? (fun s => ?_) fun s => (hvalue s).trans (hvalue' s).symm
    rw [Bool.eq_iff_iff, hon, hon']

theorem foldl_eq_of_filter_eq
    (h : ∀ k : Key, os.filter (·.key = k) = os'.filter (·.key = k)) :
    os.foldl apply {} = os'.foldl apply {} := by
  obtain ⟨hon, hvalue⟩ := eq_foldl_iff.1 (rfl : os'.foldl apply {} = os'.foldl apply {})
  refine eq_foldl_iff.2 ⟨fun s => ?_, fun s => ?_⟩
  · have hkey (l : List Occurrence) :
        .switch s ∈ l.filter (·.key = .switch s) ↔ .switch s ∈ l := by
      simp [List.mem_filter, Occurrence.key]
    rw [hon, ← hkey os', ← h, hkey]
  · have hkey (l : List Occurrence) :
        (l.filter (·.key = .setting s)).filterMap (·.value? s) = l.filterMap (·.value? s) := by
      rw [List.filterMap_filter]
      congr 1
      funext x
      cases x <;> simp [Occurrence.key, Occurrence.value?]
    rw [hvalue, ← hkey os', ← h, hkey]

theorem parse_of_spells (h : Spells argv os) : parse argv = .ok (os.foldl apply {}) :=
  parse_eq_ok_iff.2 ⟨os, h, rfl⟩

/-- An argument list is read exactly if it spells occurrences, with a bare `--` behind them or none;
then the switches that occur are on, and each setting has the last value that is given to it. So
what counts is what occurs, however it is spelled and in whatever order different options stand, and
what is no spelling makes the same error behind any others, help and version among them. -/
theorem parse_iff_spells :
    (∀ argv o, parse argv = .ok o ↔ ∃ os, Spells argv os ∧
      (∀ s, o.isOn s = true ↔ .switch s ∈ os) ∧
      ∀ s, o.value? s = (os.filterMap (·.value? s)).getLast?) ∧
    (∀ argv, (∃ e, parse argv = .error e) ↔ ∀ os, ¬Spells argv os) ∧
    (∀ argv argv' os os', Spells argv os → Spells argv' os' →
      (∀ k : Key, os.filter (·.key = k) = os'.filter (·.key = k)) → parse argv = parse argv') ∧
    ∀ program program' front os rest e, Spelled front os → parse (program :: rest) = .error e →
      parse (program' :: (front.map encode ++ rest)) = .error e := by
  refine ⟨fun argv o => ?_, fun argv => ?_, fun argv argv' os os' h h' hkeys => ?_, ?_⟩
  · simp only [parse_eq_ok_iff, eq_foldl_iff]
  · constructor
    · rintro ⟨e, he⟩ os hos
      cases he.symm.trans (parse_of_spells hos)
    · intro hnone
      cases hparse : parse argv with
      | error e => exact ⟨e, rfl⟩
      | ok o =>
        obtain ⟨os, hos, -⟩ := parse_eq_ok_iff.1 hparse
        exact absurd hos (hnone os)
  · rw [parse_of_spells h, parse_of_spells h', foldl_eq_of_filter_eq hkeys]
  · intro program program' front os rest e hspelled he
    unfold parse at he ⊢
    rw [List.tail_cons] at he ⊢
    rw [hspelled.occurrences_append]
    cases hrest : occurrences rest with
    | error e' =>
      rw [hrest] at he
      cases he
      rfl
    | ok os' =>
      rw [hrest] at he
      cases he

/-- Two spellings of the same occurrences in different orders, with values that look like options,
and a switch that is given a value behind a request for help. -/
theorem parse_of_two_spellings :
    let argv := ["sh", "-dp=", "--log-level", "--", "-hl=info", "--"].map encode
    let argv' := ["sh", "--prompt", "", "-l", "--", "--help", "--debug", "-linfo"].map encode
    parse argv = parse argv' ∧
      (∃ o, parse argv = .ok o ∧ o.isOn .help = true ∧ o.isOn .version = false ∧
        o.value? .logLevel = some "info" ∧ o.value? .prompt = some "" ∧ o.value? .config = none) ∧
      parse (["sh", "-hp", "-d", "-d=x"].map encode) =
        .error (.unexpectedValue "-d" (encode "x")) := by
  intro argv argv'
  have hany (s : Setting) (v : String) (hs : s ≠ .logLevel) : s.Admits v := fun h => absurd h hs
  have hinfo : Setting.logLevel.Admits "info" := fun _ => by decide
  have hdashes : Setting.logLevel.Admits "--" := fun _ => by decide
  have hprompt : Setting.prompt.Admits "" := hany _ _ (by decide)
  have hcluster : Spelling ["-dp="] [.switch .debug, .setting .prompt ""] :=
    @Spelling.cluster [.debug] _ _ _ (.inl (by decide)) (.equals hprompt)
  have hlevel : Spelling ["--log-level", "--"] [.setting .logLevel "--"] := .next hdashes
  have hhelp : Spelling ["-hl=info"] [.switch .help, .setting .logLevel "info"] :=
    @Spelling.cluster [.help] _ _ _ (.inl (by decide)) (.equals hinfo)
  have hlong : Spelling ["--prompt", ""] [.setting .prompt ""] := .next hprompt
  have hshort : Spelling ["-l", "--"] [.setting .logLevel "--"] :=
    @Spelling.cluster [] _ _ _ (.inr (by decide)) (.next hdashes)
  have hattached : Spelling ["-linfo"] [.setting .logLevel "info"] :=
    @Spelling.cluster [] _ _ _ (.inr (by decide)) (.attached hinfo (by decide) (by decide))
  have hspells : Spells argv [.switch .debug, .setting .prompt "", .setting .logLevel "--",
      .switch .help, .setting .logLevel "info"] :=
    ⟨_, .cons hcluster (.cons hlevel (.cons hhelp .nil)), .inr rfl⟩
  have hspells' : Spells argv' [.setting .prompt "", .setting .logLevel "--", .switch .help,
      .switch .debug, .setting .logLevel "info"] :=
    ⟨_, .cons hlong (.cons hshort (.cons (.switch .help) (.cons (.switch .debug)
      (.cons hattached .nil)))), .inl rfl⟩
  have hdash : Setting.prompt.Admits "-d" := hany _ _ (by decide)
  have hfront : Spelled ["-hp", "-d"] [.switch .help, .setting .prompt "-d"] :=
    .cons (@Spelling.cluster [.help] _ _ _ (.inl (by decide)) (.next hdash)) .nil
  have hrest : parse (["sh", "-d=x"].map encode) = .error (.unexpectedValue "-d" (encode "x")) := by
    decide +kernel
  obtain ⟨hread, -, hsame, hfault⟩ := parse_iff_spells
  refine ⟨hsame _ _ _ _ hspells hspells' fun k => ?_, ?_, hfault _ _ _ _ _ _ hfront hrest⟩
  · rcases k with s | s <;> cases s <;> rfl
  · refine ⟨⟨none, some "", none, some "info", true, false, true⟩, (hread _ _).2 ?_, by decide⟩
    exact ⟨_, hspells, fun s => by cases s <;> decide, fun s => by cases s <;> rfl⟩

end

end SessionShell.Options
