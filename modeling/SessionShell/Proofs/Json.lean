import Mathlib.Data.List.Basic
import SessionShell.Json.Record
import SessionShell.Proofs.Text.Utf8

namespace SessionShell.Json

open Text.Utf8 (Bytes encode)

section

variable {σ : Type} {P : (σ → σ) → Prop}

/-- Whatever the record is that is read into, there is the same fault, or the same change of it. -/
def Uniform (P : (σ → σ) → Prop) (r : σ → Except Fault (σ × Bytes)) : Prop :=
  (∃ e, ∀ v, r v = .error e) ∨ ∃ u rest, P u ∧ ∀ v, r v = .ok (u v, rest)

/-- Changes of a record that can be made one after the other. -/
structure Closed (P : (σ → σ) → Prop) : Prop where
  id : P id
  comp {u u' : σ → σ} (h : P u) (h' : P u') : P (u' ∘ u)

theorem uniform_error (e : Fault) : Uniform P fun _ => .error e := .inl ⟨e, fun _ => rfl⟩

theorem Closed.uniform_ok (h : Closed P) (rest : Bytes) : Uniform P fun v => .ok (v, rest) :=
  .inr ⟨_, rest, h.id, fun _ => rfl⟩

theorem Uniform.bind {α : Type} {x : Except Fault α} {k : σ → α → Except Fault (σ × Bytes)}
    (h : ∀ a, Uniform P (k · a)) : Uniform P fun v => x >>= k v := by
  cases x with
  | error e => exact uniform_error e
  | ok a => exact h a

theorem Uniform.andThen (hP : Closed P) {r : σ → Except Fault (σ × Bytes)}
    {k : σ × Bytes → Except Fault (σ × Bytes)} (hr : Uniform P r)
    (hk : ∀ rest, Uniform P fun v => k (v, rest)) : Uniform P fun v => r v >>= k := by
  obtain ⟨e, he⟩ | ⟨u, rest, hu, hok⟩ := hr
  · simp only [he]
    exact uniform_error e
  · simp only [hok]
    obtain ⟨e, he⟩ | ⟨u', rest', hu', hok'⟩ := hk rest
    · exact .inl ⟨e, fun v => he (u v)⟩
    · exact .inr ⟨u' ∘ u, rest', hP.comp hu hu', fun v => hok' (u v)⟩

theorem wrongType_eq_error {α : Type} (wanted : String) (b : UInt8) (rest : Bytes) :
    ∃ e, (wrongType wanted b rest : Except Fault α) = .error e := by
  have hbind {β : Type} (x : Except Fault β) {k : β → Except Fault α}
      (h : ∀ a, ∃ e, k a = .error e) : ∃ e, (x >>= k) = .error e := by
    cases x with
    | error e => exact ⟨e, rfl⟩
    | ok a => exact h a
  unfold wrongType
  dsimp only
  split
  all_goals try exact hbind _ fun _ => ⟨_, rfl⟩
  · exact ⟨_, rfl⟩
  · exact ⟨_, rfl⟩
  · split
    · exact hbind _ fun _ => ⟨_, rfl⟩
    · exact ⟨_, rfl⟩

namespace Schema

variable {s : Schema σ}

theorem uniform_finish (hP : Closed P) (s : Schema σ) (seen : List String) (text : Bytes) :
    Uniform P fun v => s.finish seen v text := by
  unfold finish
  split
  · exact uniform_error _
  · exact hP.uniform_ok _

theorem uniform_members (hP : Closed P)
    (hfields : ∀ f ∈ s.fields, ∀ text, Uniform P (f.read · text)) (n : Nat) (isFirst : Bool)
    (seen : List String) (text : Bytes) :
    Uniform P fun v => s.members n isFirst seen v text := by
  induction n generalizing isFirst seen text with
  | zero => exact uniform_error _
  | succ n ih =>
    unfold members
    refine .bind fun next => ?_
    cases next with
    | none => exact uniform_finish hP s seen text
    | some text =>
      refine .bind fun (key, rest) => ?_
      dsimp only
      cases hfield : s.fields.find? (·.name = key) with
      | none => exact .bind fun _ => .bind fun _ => ih ..
      | some f =>
        dsimp only
        split
        · exact uniform_error _
        · refine .bind fun _ => .andThen hP (hfields f (List.mem_of_find?_eq_some hfield) _) ?_
          exact fun rest => ih ..

theorem uniform_positional (hP : Closed P) {fields : List (Field σ)}
    (hfields : ∀ f ∈ fields, ∀ text, Uniform P (f.read · text)) (given : Nat) (text : Bytes) :
    Uniform P fun v => s.positional fields given v text := by
  induction fields generalizing given text with
  | nil =>
    unfold positional
    exact .bind fun _ => hP.uniform_ok _
  | cons f fs ih =>
    unfold positional
    refine .bind fun next => ?_
    cases next with
    | none =>
      refine .bind fun rest => ?_
      split
      · exact uniform_error _
      · exact hP.uniform_ok _
    | some text =>
      refine .andThen hP (hfields f List.mem_cons_self text) fun rest => ?_
      exact ih (fun f hf => hfields f (List.mem_cons_of_mem _ hf)) ..

theorem members_blank (s : Schema σ) (blank : σ) (n : Nat) (isFirst : Bool) (seen : List String)
    (v : σ) (text : Bytes) : ({ s with blank := blank }).members n isFirst seen v text =
      s.members n isFirst seen v text := by
  induction n generalizing isFirst seen v text with
  | zero => rfl
  | succ n ih =>
    simp only [members, ih]
    rfl

theorem positional_blank (s : Schema σ) (blank : σ) (fields : List (Field σ)) (given : Nat) (v : σ)
    (text : Bytes) : ({ s with blank := blank }).positional fields given v text =
      s.positional fields given v text := by
  induction fields generalizing given v text with
  | nil => rfl
  | cons f fs ih => simp only [positional, ih]

theorem uniform_read (hP : Closed P) (hfields : ∀ f ∈ s.fields, ∀ text, Uniform P (f.read · text))
    (text : Bytes) : Uniform P fun v => ({ s with blank := v }).read text := by
  simp only [read, members_blank, positional_blank]
  split
  · exact uniform_error _
  · rename_i b rest _
    split
    · exact uniform_members hP hfields ..
    · exact uniform_positional hP hfields ..
    · obtain ⟨e, he⟩ := wrongType_eq_error ("struct " ++ s.name) b rest
      rw [he]
      exact uniform_error e

theorem uniform_parse (hP : Closed P) (hfields : ∀ f ∈ s.fields, ∀ text, Uniform P (f.read · text))
    (text : String) : (∃ reason, ∀ v, ({ s with blank := v }).parse text = .error reason) ∨
      ∃ u, P u ∧ ∀ v, ({ s with blank := v }).parse text = .ok (u v) := by
  unfold parse
  obtain ⟨e, he⟩ | ⟨u, rest, hu, hok⟩ := uniform_read hP hfields (encode text)
  · exact .inl ⟨e.message (encode text), fun v => by simp only [he]; rfl⟩
  · simp only [hok]
    cases hrest : skipBlanks rest with
    | nil => exact .inr ⟨u, hu, fun v => by simp only [bind, Except.bind, hrest]; rfl⟩
    | cons b bs => exact .inl ⟨_, fun v => by simp only [bind, Except.bind, hrest]; rfl⟩

end Schema
end

/-- A text that is read as a value, whatever follows it. -/
def Reads {α : Type} (r : Reader α) (text : String) (a : α) : Prop :=
  ∀ rest, r (encode text ++ rest) = .ok (a, rest)

/-- A character inside of a string literal. -/
def escaped (c : Char) : List Char :=
  if c = '"' || c = '\\' || c.toNat < 0x20 then
    ['\\', 'u', '0', '0', Nat.digitChar (c.toNat / 16), Nat.digitChar (c.toNat % 16)]
  else [c]

def literal (s : String) : String := "\"" ++ String.ofList (s.toList.flatMap escaped) ++ "\""

section

variable {c : Char} {s : String} {read bs rest : Bytes}

theorem strBytes_step {state state' : StrState} {b : UInt8} {added : Bytes}
    (hstep : state.step true b = .ok (state', added)) (hne : state ≠ .plain ∨ b ≠ 0x22) :
    strBytes true state read (b :: rest) = strBytes true state' (added.reverse ++ read) rest := by
  rw [strBytes.eq_3 _ _ _ _ _ (by tauto), hstep]

theorem strBytes_plain (h : ∀ b ∈ bs, b ≠ 0x22 ∧ b ≠ 0x5c ∧ ¬b < 0x20) :
    strBytes true .plain read (bs ++ rest) = strBytes true .plain (bs.reverse ++ read) rest := by
  induction bs generalizing read with
  | nil => rfl
  | cons b bs ih =>
    obtain ⟨hquote, hbackslash, hcontrol⟩ := h b List.mem_cons_self
    have hstep : StrState.plain.step true b = .ok (.plain, [b]) := by
      simp only [StrState.step, if_neg hbackslash, if_neg hcontrol]
    rw [List.cons_append, strBytes_step hstep (.inr hquote),
      ih fun c hc => h c (List.mem_cons_of_mem b hc)]
    simp

theorem hexValue?_digits : ∀ n < 128, ∃ d d',
    String.utf8EncodeChar (Nat.digitChar (n / 16)) = [d] ∧
      String.utf8EncodeChar (Nat.digitChar (n % 16)) = [d'] ∧
      hexValue? [0x30, 0x30, d, d'] = some n := by
  have hone : ∀ d < 16, (String.utf8EncodeChar (Nat.digitChar d)).length = 1 := by decide +kernel
  have hvalue : ∀ n < 128, hexValue? ([0x30, 0x30] ++
      String.utf8EncodeChar (Nat.digitChar (n / 16)) ++
        String.utf8EncodeChar (Nat.digitChar (n % 16))) = some n := by decide +kernel
  intro n hn
  obtain ⟨d, hd⟩ := List.length_eq_one_iff.1 (hone (n / 16) (by omega))
  obtain ⟨d', hd'⟩ := List.length_eq_one_iff.1 (hone (n % 16) (by omega))
  have hread := hvalue n hn
  rw [hd, hd'] at hread
  exact ⟨d, d', hd, hd', hread⟩

theorem strBytes_digits (hascii : c.toNat < 128) : strBytes true .plain read
    ([ '\\', 'u', '0', '0', Nat.digitChar (c.toNat / 16),
      Nat.digitChar (c.toNat % 16)].flatMap String.utf8EncodeChar ++ rest) =
        strBytes true .plain ((String.utf8EncodeChar c).reverse ++ read) rest := by
  obtain ⟨d, d', hd, hd', hvalue⟩ := hexValue?_digits c.toNat hascii
  have hpoint : encodePoint c.toNat = String.utf8EncodeChar c := by
    rw [encodePoint, Text.Utf8.encode_eq_flatMap, String.toList_singleton,
      List.flatMap_singleton, Char.ofNat_toNat]
  have hend : endHex true [0x30, 0x30, d, d'] none = .ok (.plain, String.utf8EncodeChar c) := by
    have hleading : ¬0xd800 ≤ c.toNat := by omega
    have htrailing : ¬0xdc00 ≤ c.toNat := by omega
    simp [endHex, hvalue, isLeading, isTrailing, hleading, htrailing, hpoint]
  have hopen : StrState.plain.step true 0x5c = .ok (.escape, []) := rfl
  have hmark : StrState.escape.step true 0x75 = .ok (.hex [] none, []) := rfl
  have hdigits : (StrState.hex [] none).step true 0x30 = .ok (.hex [0x30] none, []) ∧
      (StrState.hex [0x30] none).step true 0x30 = .ok (.hex [0x30, 0x30] none, []) ∧
      (StrState.hex [0x30, 0x30] none).step true d = .ok (.hex [0x30, 0x30, d] none, []) :=
    ⟨rfl, rfl, rfl⟩
  have hlast : (StrState.hex [0x30, 0x30, d] none).step true d' =
      .ok (.plain, String.utf8EncodeChar c) := hend
  simp only [List.flatMap_cons, List.flatMap_nil, hd, hd']
  show strBytes true .plain read (0x5c :: 0x75 :: 0x30 :: 0x30 :: d :: d' :: rest) = _
  rw [strBytes_step hopen (.inr (by decide)), strBytes_step hmark (.inl nofun),
    strBytes_step hdigits.1 (.inl nofun), strBytes_step hdigits.2.1 (.inl nofun),
    strBytes_step hdigits.2.2 (.inl nofun), strBytes_step hlast (.inl nofun)]
  rfl

theorem strBytes_char (hquote : c ≠ '"') (hbackslash : c ≠ '\\') (hcontrol : ¬c.toNat < 0x20) :
    strBytes true .plain read (String.utf8EncodeChar c ++ rest) =
      strBytes true .plain ((String.utf8EncodeChar c).reverse ++ read) rest := by
  -- a byte that the reader minds is the character itself
  have hchar (b : UInt8) (hb : b ∈ String.utf8EncodeChar c) (hascii : b < 0x80) :=
    (Text.Utf8.encodeChar_of_ascii_mem hascii hb).1
  refine strBytes_plain fun b hb => ⟨?_, ?_, fun hlow => ?_⟩
  · rintro rfl
    exact hquote (hchar _ hb (by decide))
  · rintro rfl
    exact hbackslash (hchar _ hb (by decide))
  · have hascii : b < 0x80 := UInt8.lt_trans hlow (by decide)
    rw [hchar b hb hascii, Text.Utf8.toNat_ofNat_of_ascii hascii] at hcontrol
    exact hcontrol (UInt8.lt_iff_toNat_lt.1 hlow)

theorem strBytes_escaped (c : Char) (read rest : Bytes) :
    strBytes true .plain read ((escaped c).flatMap String.utf8EncodeChar ++ rest) =
      strBytes true .plain ((String.utf8EncodeChar c).reverse ++ read) rest := by
  unfold escaped
  split
  · rename_i hc
    refine strBytes_digits ?_
    simp only [Bool.or_eq_true, decide_eq_true_eq] at hc
    obtain (rfl | rfl) | hc := hc
    · decide
    · decide
    · omega
  · rename_i hc
    simp only [Bool.or_eq_true, decide_eq_true_eq, not_or] at hc
    rw [List.flatMap_singleton]
    exact strBytes_char hc.1.1 hc.1.2 hc.2

/-- Behind its opening quote a literal is read as the string that it is made of. -/
theorem strRest_literal (s : String) (rest : Bytes) :
    strRest (encode (String.ofList (s.toList.flatMap escaped)) ++ 0x22 :: rest) =
      .ok (s, rest) := by
  have hbytes (cs : List Char) (read : Bytes) :
      strBytes true .plain read
        ((cs.flatMap escaped).flatMap String.utf8EncodeChar ++ 0x22 :: rest) =
        .ok (read.reverse ++ cs.flatMap String.utf8EncodeChar, rest) := by
    induction cs generalizing read with
    | nil => simp [strBytes]
    | cons c cs ih =>
      rw [List.flatMap_cons, List.flatMap_append, List.append_assoc, strBytes_escaped, ih]
      simp
  rw [Text.Utf8.encode_ofList, strRest, hbytes, List.reverse_nil, List.nil_append,
    ← Text.Utf8.encode_eq_flatMap]
  show Except.ok (String.ofList (Text.Utf8.decodeLossy (encode s)), rest) = _
  rw [Text.Utf8.decodeLossy_encode, String.ofList_toList]

theorem encode_literal (s : String) : encode (literal s) =
    0x22 :: (encode (String.ofList (s.toList.flatMap escaped)) ++ [0x22]) := by
  simp [literal, Text.Utf8.encode_eq_flatMap, String.utf8EncodeChar]

theorem reads_string (wanted : String) (s : String) : Reads (string wanted) (literal s) s := by
  intro rest
  rw [encode_literal, List.cons_append, List.append_assoc]
  exact strRest_literal s rest

theorem string?_of_quote (wanted : String) (text : Bytes) : string? wanted (0x22 :: text) =
    (string wanted (0x22 :: text)).map fun r => (some r.1, r.2) := by
  have hquote : skipBlanks (0x22 :: text) = 0x22 :: text := rfl
  simp only [string?, hquote]
  cases string wanted (0x22 :: text) <;> rfl

theorem reads_string? (wanted : String) (s : String) :
    Reads (string? wanted) (literal s) (some s) := by
  intro rest
  have hread := reads_string wanted s rest
  rw [encode_literal, List.cons_append] at hread ⊢
  rw [string?_of_quote, hread]
  rfl

theorem reads_null (wanted : String) : Reads (string? wanted) "null" none := by
  intro rest
  have hbytes : encode "null" = [0x6e, 0x75, 0x6c, 0x6c] := by
    simp [Text.Utf8.encode_eq_flatMap, String.utf8EncodeChar]
  rw [hbytes]
  rfl

theorem reads_boolean (b : Bool) : Reads boolean (if b then "true" else "false") b := by
  intro rest
  have htrue : encode "true" = [0x74, 0x72, 0x75, 0x65] := by
    simp [Text.Utf8.encode_eq_flatMap, String.utf8EncodeChar]
  have hfalse : encode "false" = [0x66, 0x61, 0x6c, 0x73, 0x65] := by
    simp [Text.Utf8.encode_eq_flatMap, String.utf8EncodeChar]
  cases b with
  | true =>
    rw [if_pos rfl, htrue]
    rfl
  | false =>
    rw [if_neg Bool.false_ne_true, hfalse]
    rfl

end

/-- A member of an object: its key, the text of its value, and what it changes. -/
structure Member (σ : Type) where
  key : String
  text : String
  update : σ → σ

def Member.print {σ : Type} (m : Member σ) : String := literal m.key ++ ":" ++ m.text

/-- Members behind others, and the brace behind them. -/
def membersTail {σ : Type} : List (Member σ) → String
  | [] => "\x7d"
  | m :: ms => "," ++ (m.print ++ membersTail ms)

def object {σ : Type} : List (Member σ) → String
  | [] => "\x7b\x7d"
  | m :: ms => "\x7b" ++ (m.print ++ membersTail ms)

namespace Schema

variable {σ : Type} {s : Schema σ} {m : Member σ} {ms : List (Member σ)} {n : Nat} {isFirst : Bool}
  {seen : List String} {v : σ} {text tail rest : Bytes} {document : String}

/-- Whether a member is one of a record, written as the field reads it. -/
def Admits (s : Schema σ) (m : Member σ) : Prop :=
  ∃ f, s.fields.find? (·.name = m.key) = some f ∧ ∀ v, Reads (f.read v) m.text (m.update v)

theorem encode_print (m : Member σ) :
    encode m.print = 0x22 :: (encode (String.ofList (m.key.toList.flatMap escaped)) ++
      0x22 :: 0x3a :: encode m.text) := by
  simp [Member.print, literal, Text.Utf8.encode_eq_flatMap, String.utf8EncodeChar]

theorem members_print (hm : s.Admits m) (hseen : m.key ∉ seen)
    (hnext : nextKey isFirst text = nextKey true (encode m.print ++ tail)) :
    s.members (n + 1) isFirst seen v text =
      s.members n false (m.key :: seen) (m.update v) tail := by
  obtain ⟨f, hfield, hread⟩ := hm
  have hkey : nextKey true (encode m.print ++ tail) =
      .ok (some (encode (String.ofList (m.key.toList.flatMap escaped)) ++
        0x22 :: 0x3a :: (encode m.text ++ tail))) := by
    rw [encode_print]
    simp only [List.cons_append, List.append_assoc]
    rfl
  have hcolon : colon (0x3a :: (encode m.text ++ tail)) = .ok (encode m.text ++ tail) := rfl
  simp only [members, hnext, hkey, bind, Except.bind, strRest_literal, hfield, hcolon,
    List.contains_eq_mem, hseen, hread v tail]
  rfl

theorem encode_membersTail_nil : encode (membersTail ([] : List (Member σ))) = [0x7d] := by
  simp [membersTail, Text.Utf8.encode_eq_flatMap, String.utf8EncodeChar]

theorem encode_membersTail_cons (m : Member σ) (ms : List (Member σ)) :
    encode (membersTail (m :: ms)) = 0x2c :: (encode m.print ++ encode (membersTail ms)) := by
  simp [membersTail, Text.Utf8.encode_eq_flatMap, String.utf8EncodeChar]

theorem finish_brace (hrequired : ∀ f ∈ s.fields, f.required = true → f.name ∈ seen) (v : σ)
    (rest : Bytes) : s.finish seen v (0x7d :: rest) = .ok (v, rest) := by
  have hnone : s.fields.find? (fun f => f.required && !seen.contains f.name) = none := by
    rw [List.find?_eq_none]
    intro f hf
    simpa using hrequired f hf
  rw [finish, hnone]
  rfl

theorem members_tail (hms : ∀ m ∈ ms, s.Admits m) (hdistinct : (ms.map (·.key)).Nodup)
    (hseen : ∀ m ∈ ms, m.key ∉ seen)
    (hrequired : ∀ f ∈ s.fields, f.required = true → f.name ∈ seen ∨ f.name ∈ ms.map (·.key))
    (hn : (encode (membersTail ms)).length ≤ n) :
    s.members n false seen v (encode (membersTail ms) ++ rest) =
      .ok (ms.foldl (fun v m => m.update v) v, rest) := by
  -- Every turn reads a member of at least one byte, so there are turns enough for all of them.
  induction ms generalizing n seen v with
  | nil =>
    rw [encode_membersTail_nil] at hn ⊢
    obtain ⟨n, rfl⟩ := Nat.exists_eq_add_of_le' hn
    exact finish_brace (by simpa using hrequired) v rest
  | cons m ms ih =>
    rw [encode_membersTail_cons] at hn ⊢
    obtain ⟨n, rfl⟩ := Nat.exists_eq_add_one_of_ne_zero (Nat.ne_zero_of_lt hn)
    have hnext : nextKey false (0x2c :: (encode m.print ++ encode (membersTail ms)) ++ rest) =
        nextKey true (encode m.print ++ (encode (membersTail ms) ++ rest)) := by
      rw [encode_print]
      simp only [List.cons_append, List.append_assoc]
      rfl
    rw [List.map_cons, List.nodup_cons] at hdistinct
    rw [members_print (hms m List.mem_cons_self) (hseen m List.mem_cons_self) hnext,
      List.foldl_cons]
    refine ih (fun m' hm' => hms m' (List.mem_cons_of_mem m hm')) hdistinct.2 ?_ ?_ ?_
    · intro m' hm' hmem
      obtain heq | hmem := List.mem_cons.1 hmem
      · exact hdistinct.1 (heq ▸ List.mem_map_of_mem hm')
      · exact hseen m' (List.mem_cons_of_mem m hm') hmem
    · intro f hf hneeded
      have hcases := hrequired f hf hneeded
      rw [List.map_cons, List.mem_cons] at hcases
      rw [List.mem_cons]
      tauto
    · simp only [List.length_cons, List.length_append] at hn
      omega

/-- An object with some of the fields of a record, each once and in any order, is read as the record
that these fields make. -/
theorem reads_object (hms : ∀ m ∈ ms, s.Admits m) (hdistinct : (ms.map (·.key)).Nodup)
    (hrequired : ∀ f ∈ s.fields, f.required = true → f.name ∈ ms.map (·.key)) :
    Reads s.read (object ms) (ms.foldl (fun v m => m.update v) s.blank) := by
  intro rest
  cases ms with
  | nil =>
    have hbytes : encode (object ([] : List (Member σ))) = [0x7b, 0x7d] := by
      simp [object, Text.Utf8.encode_eq_flatMap, String.utf8EncodeChar]
    rw [hbytes]
    exact finish_brace (by simpa using hrequired) s.blank rest
  | cons m ms =>
    have hbytes : encode (object (m :: ms)) =
        0x7b :: (encode m.print ++ encode (membersTail ms)) := by
      simp [object, Text.Utf8.encode_eq_flatMap, String.utf8EncodeChar]
    rw [List.map_cons, List.nodup_cons] at hdistinct
    rw [hbytes, List.cons_append, List.append_assoc]
    show s.members _ true [] s.blank (encode m.print ++ _) = _
    rw [members_print (hms m List.mem_cons_self) List.not_mem_nil rfl]
    refine members_tail (fun m' hm' => hms m' (List.mem_cons_of_mem m hm')) hdistinct.2 ?_ ?_ ?_
    · intro m' hm' hmem
      exact hdistinct.1 (List.mem_singleton.1 hmem ▸ List.mem_map_of_mem hm')
    · intro f hf hneeded
      simpa using hrequired f hf hneeded
    · simp only [List.length_append]
      omega

theorem parse_of_reads (h : Reads s.read document v) : s.parse document = .ok v := by
  have hread := h []
  rw [List.append_nil] at hread
  rw [parse, hread]
  rfl

end Schema

end SessionShell.Json
