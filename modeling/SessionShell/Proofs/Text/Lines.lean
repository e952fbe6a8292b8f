import SessionShell.Text.Lines
import SessionShell.Proofs.Text.Utf8

namespace SessionShell.Text

open Utf8 (Bytes decodeLossy encode)

/-- The longest runs without a separator; nothing follows a separator at the end. -/
def linesAt {α : Type} [DecidableEq α] (sep : α) (s : List α) : List (List α) :=
  let parts := s.splitOn sep
  if parts.getLast? = some [] then parts.dropLast else parts

/-- Reads the bytes through the next newline and decodes them together; trailing line ends do not
belong to the line. -/
def readLine? (stream : Bytes) : Option (String × Bytes) :=
  if stream.isEmpty then none
  else
    let line := stream.takeWhile (· != newline)
    let rest := stream.dropWhile (· != newline)
    let text := decodeLossy (line ++ rest.take 1)
    some (String.ofList (dropTrailing (fun c => c = '\r' || c = '\n') text), rest.drop 1)

section

variable {α : Type} [DecidableEq α] {sep : α} {a s : List α}

theorem linesAt_nil (sep : α) : linesAt sep [] = [] := by
  simp [linesAt]

theorem linesAt_last (ha : sep ∉ a) (hne : a ≠ []) : linesAt sep a = [a] := by
  rw [linesAt, List.splitOn_eq_singleton ha]
  cases a <;> simp_all

theorem linesAt_line (ha : sep ∉ a) (s : List α) :
    linesAt sep (a ++ sep :: s) = a :: linesAt sep s := by
  rw [linesAt, List.splitOn_append_cons_self_of_not_mem ha]
  cases hs : s.splitOn sep with
  | nil => exact absurd hs (List.splitOn_ne_nil _ _)
  | cons x xs =>
    simp only [linesAt, hs, List.getLast?_cons_cons]
    split <;> simp

theorem linesAt_flatMap {lines : List (List α)} (h : ∀ a ∈ lines, sep ∉ a) :
    linesAt sep (lines.flatMap (· ++ [sep])) = lines := by
  induction lines with
  | nil => exact linesAt_nil sep
  | cons a lines ih =>
    obtain ⟨ha, hlines⟩ := List.forall_mem_cons.1 h
    rw [List.flatMap_cons, List.append_assoc, List.singleton_append, linesAt_line ha, ih hlines]

/-- A list is empty, or a last line, or a line with its separator and a list after it. -/
theorem line_induction {motive : List α → Prop} (sep : α) (nil : motive [])
    (last : ∀ a, sep ∉ a → a ≠ [] → motive a)
    (line : ∀ a s, sep ∉ a → motive s → motive (a ++ sep :: s)) (s : List α) : motive s := by
  by_cases hs : sep ∈ s
  · obtain ⟨a, t, rfl, ha⟩ := List.eq_append_cons_of_mem hs
    exact line a t ha (line_induction sep nil last line t)
  · cases s with
    | nil => exact nil
    | cons x xs => exact last _ hs (by simp)
termination_by s.length

theorem not_mem_of_mem_linesAt : ∀ a ∈ linesAt sep s, sep ∉ a := by
  induction s using line_induction sep with
  | nil => simp [linesAt_nil]
  | last a ha hne => simpa [linesAt_last ha hne] using ha
  | line a s ha ih => simpa [linesAt_line ha] using ⟨ha, ih⟩

theorem length_linesAt (sep : α) (s : List α) :
    (linesAt sep s).length =
      s.count sep + if s = [] ∨ s.getLast? = some sep then 0 else 1 := by
  induction s using line_induction sep with
  | nil => simp [linesAt_nil]
  | last a ha hne =>
    have hlast : a.getLast? ≠ some sep := fun h => ha (List.mem_of_getLast? h)
    simp [linesAt_last ha hne, List.count_eq_zero_of_not_mem ha, hne, hlast]
  | line a s ha ih =>
    rw [linesAt_line ha, List.length_cons, ih, List.count_append, List.count_cons_self,
      List.count_eq_zero_of_not_mem ha, List.getLast?_append, List.getLast?_cons]
    cases hs : s.getLast? with
    | none => simp [List.getLast?_eq_none_iff.1 hs]
    | some x =>
      have hne : s ≠ [] := by
        rintro rfl
        simp at hs
      simp [hne]
      omega

end

section

variable {α : Type} {p : α → Bool} {x : α} {s t : List α}

theorem dropTrailing_append_of_pos (h : ∀ x ∈ t, p x = true) (s : List α) :
    dropTrailing p (s ++ t) = dropTrailing p s := by
  rw [dropTrailing, List.reverse_append,
    List.dropWhile_append_of_pos fun x hx => h x (List.mem_reverse.1 hx)]
  rfl

theorem dropTrailing_eq_self (h : ∀ x ∈ s.getLast?, p x = false) : dropTrailing p s = s := by
  obtain rfl | ⟨t, x, rfl⟩ := List.eq_nil_or_concat s
  · rfl
  · have hx := h x (by simp)
    simp [dropTrailing, hx]

theorem mem_of_mem_dropTrailing (h : x ∈ dropTrailing p s) : x ∈ s := by
  rw [dropTrailing, List.mem_reverse] at h
  exact List.mem_reverse.1 ((List.dropWhile_suffix p).subset h)

theorem dropTrailing_congr {q : α → Bool} (h : ∀ x ∈ s, p x = q x) :
    dropTrailing p s = dropTrailing q s := by
  have hreverse : ∀ t : List α, (∀ x ∈ t, p x = q x) → t.dropWhile p = t.dropWhile q := by
    intro t ht
    induction t with
    | nil => rfl
    | cons y t ih =>
      rw [List.dropWhile_cons, List.dropWhile_cons, ht y (by simp),
        ih fun x hx => ht x (List.mem_cons_of_mem y hx)]
  rw [dropTrailing, dropTrailing, hreverse _ fun x hx => h x (List.mem_reverse.1 hx)]

end

section

variable {stream line : Bytes}

theorem byteLines_eq (stream : Bytes) : byteLines stream = linesAt newline stream := rfl

theorem not_mem_decodeLossy (h : newline ∉ line) : '\n' ∉ decodeLossy line :=
  fun hmem => h (Utf8.mem_of_mem_decodeLossy (b := newline) (by decide) hmem)

theorem linesAt_decodeLossy (stream : Bytes) :
    linesAt '\n' (decodeLossy stream) = (byteLines stream).map decodeLossy := by
  rw [byteLines_eq]
  induction stream using line_induction newline with
  | nil => rfl
  | last line hline hne =>
    rw [linesAt_last hline hne,
      linesAt_last (not_mem_decodeLossy hline) (mt Utf8.decodeLossy_eq_nil_iff.1 hne)]
    rfl
  | line line rest hline ih =>
    rw [Utf8.decodeLossy_append_ascii (by decide), linesAt_line hline, List.map_cons, ← ih]
    exact linesAt_line (not_mem_decodeLossy hline) _

/-- The newline that ends a line decodes to what is dropped with the carriage returns before it. -/
theorem dropTrailing_raw (h : newline ∉ line) (ending : Bytes)
    (hending : ending = [] ∨ ending = [newline]) :
    String.ofList (dropTrailing (fun c => c = '\r' || c = '\n') (decodeLossy (line ++ ending))) =
      lineText line := by
  have htext : dropTrailing (fun c => decide (c = '\r') || decide (c = '\n')) (decodeLossy line) =
      dropTrailing (· = '\r') (decodeLossy line) := by
    refine dropTrailing_congr fun c hc => ?_
    have hne : c ≠ '\n' := fun heq => not_mem_decodeLossy h (heq ▸ hc)
    simp [hne]
  obtain rfl | rfl := hending
  · rw [List.append_nil, htext, lineText]
  · have hnewline : Char.ofNat newline.toNat :: decodeLossy [] = ['\n'] := rfl
    rw [Utf8.decodeLossy_append_ascii (by decide), hnewline, lineText, ← htext]
    exact congrArg String.ofList (dropTrailing_append_of_pos (by simp) _)

theorem cut_newline (rest : Bytes) (h : newline ∉ line) (hrest : ∀ b ∈ rest.head?, b = newline) :
    (line ++ rest).takeWhile (· != newline) = line ∧
      (line ++ rest).dropWhile (· != newline) = rest := by
  have hall : ∀ b ∈ line, (b != newline) = true := by
    intro b hb
    exact bne_iff_ne.2 fun heq => h (heq ▸ hb)
  rw [List.takeWhile_append_of_pos hall, List.dropWhile_append_of_pos hall]
  cases rest with
  | nil => simp
  | cons b rest => simp [hrest b rfl]

theorem lines_eq_readLine? (stream : Bytes) :
    lines stream = match readLine? stream with
      | none => []
      | some (line, rest) => line :: lines rest := by
  rw [readLine?]
  induction stream using line_induction newline with
  | nil => rfl
  | last line hline hne =>
    obtain ⟨htake, hdrop⟩ := cut_newline [] hline (by simp)
    rw [List.append_nil] at htake hdrop
    simp only [List.isEmpty_iff, hne, if_false, htake, hdrop, List.take_nil, List.drop_nil]
    rw [dropTrailing_raw hline [] (.inl rfl), lines, byteLines_eq, linesAt_last hline hne]
    rfl
  | line line rest hline _ =>
    obtain ⟨htake, hdrop⟩ := cut_newline (newline :: rest) hline (by simp)
    simp only [List.isEmpty_iff, List.append_eq_nil_iff, List.cons_ne_nil, and_false, if_false,
      htake, hdrop, List.take_succ_cons, List.take_zero, List.drop_succ_cons, List.drop_zero]
    rw [dropTrailing_raw hline [newline] (.inr rfl), lines, byteLines_eq, linesAt_line hline]
    rfl

theorem not_mem_of_mem_lines {text : String} (h : text ∈ lines stream) : '\n' ∉ text.toList := by
  obtain ⟨line, hline, rfl⟩ := List.mem_map.1 h
  rw [lineText, String.toList_ofList]
  exact fun hmem => not_mem_decodeLossy (not_mem_of_mem_linesAt line hline)
    (mem_of_mem_dropTrailing hmem)

/-- A line without the carriage returns at its end. -/
def stripped (line : List Char) : String := String.ofList (dropTrailing (· = '\r') line)

theorem lines_eq_linesAt (stream : Bytes) :
    lines stream = (linesAt '\n' (decodeLossy stream)).map stripped := by
  rw [linesAt_decodeLossy, List.map_map]
  rfl

theorem stripped_append {text : String} {returns : List Char}
    (h : text.toList.getLast? ≠ some '\r') (hreturns : ∀ c ∈ returns, c = '\r') :
    stripped (text.toList ++ returns) = text := by
  have hlast : ∀ c ∈ text.toList.getLast?, decide (c = '\r') = false := by
    intro c hc
    exact decide_eq_false fun heq => h (heq ▸ hc)
  rw [stripped, dropTrailing_append_of_pos fun c hc => decide_eq_true (hreturns c hc),
    dropTrailing_eq_self hlast, String.ofList_toList]

theorem lines_encode {ending last : String} {texts : List String}
    (hending : ending ∈ ["\n", "\r\n"])
    (htexts : ∀ t ∈ last :: texts, '\n' ∉ t.toList ∧ t.toList.getLast? ≠ some '\r') :
    lines (encode (String.join (texts.map (· ++ ending)) ++ last)) =
      texts ++ if last = "" then [] else [last] := by
  obtain ⟨returns, hending, hreturns⟩ :
      ∃ returns, ending.toList = returns ++ ['\n'] ∧ ∀ c ∈ returns, c = '\r' := by
    obtain rfl | rfl : ending = "\n" ∨ ending = "\r\n" := by simpa using hending
    · exact ⟨[], rfl, by simp⟩
    · exact ⟨['\r'], rfl, by simp⟩
  have hnewline {text : String} (h : '\n' ∉ text.toList) : '\n' ∉ text.toList ++ returns := by
    simp only [List.mem_append, not_or]
    exact ⟨h, fun hmem => absurd (hreturns _ hmem) (by decide)⟩
  rw [lines_eq_linesAt, Utf8.decodeLossy_encode]
  -- a carriage return before the newline is cut off with the line and dropped from it
  induction texts with
  | nil =>
    obtain ⟨hlast, hreturn⟩ := htexts last (by simp)
    split
    case isTrue h => simp [h, linesAt_nil]
    case isFalse h =>
      have hne : last.toList ≠ [] := mt String.toList_eq_nil_iff.1 h
      have hstripped : stripped (last.toList ++ []) = last := stripped_append hreturn (by simp)
      rw [List.append_nil] at hstripped
      simp [linesAt_last hlast hne, hstripped]
  | cons text texts ih =>
    obtain ⟨htext, hreturn⟩ := htexts text (by simp)
    have hrest := ih fun t ht => htexts t (by
      obtain rfl | ht := List.mem_cons.1 ht <;> simp [*])
    have hsplit : (String.join ((text :: texts).map (· ++ ending)) ++ last).toList =
        (text.toList ++ returns) ++ '\n' ::
          (String.join (texts.map (· ++ ending)) ++ last).toList := by
      simp [hending]
    rw [hsplit, linesAt_line (hnewline htext), List.map_cons, stripped_append hreturn hreturns,
      hrest]
    rfl

end

/-- Reading is line by line and yet what cutting the decoded stream at its newlines gives. No line
holds a newline, and there are as many lines as newlines and one more for a rest without. -/
theorem lines_eq_split_decoded (stream : Bytes) :
    (lines stream = match readLine? stream with
      | none => []
      | some (line, rest) => line :: lines rest) ∧
    (∀ out, Utf8.pieces none stream = out ↔ Utf8.Decoded stream out) ∧
    lines stream = (linesAt '\n' (decodeLossy stream)).map stripped ∧
    (∀ line ∈ lines stream, '\n' ∉ line.toList) ∧
    (lines stream).length =
      stream.count newline + (if stream = [] ∨ stream.getLast? = some newline then 0 else 1) ∧
    ∀ ending ∈ ["\n", "\r\n"], ∀ (texts : List String) (last : String),
      (∀ t ∈ last :: texts, '\n' ∉ t.toList ∧ t.toList.getLast? ≠ some '\r') →
      lines (encode (String.join (texts.map (· ++ ending)) ++ last)) =
        texts ++ if last = "" then [] else [last] := by
  refine ⟨lines_eq_readLine? stream, fun _ => Utf8.pieces_eq_iff, lines_eq_linesAt stream,
    fun _ => not_mem_of_mem_lines, ?_, fun _ hending _ _ => lines_encode hending⟩
  rw [lines, List.length_map, byteLines_eq, length_linesAt]

theorem lines_of_cut_characters :
    lines [0x61, 0xe2, 0x82, 0x0a, 0xac, 0x0d, 0x0d, 0x0a, 0xf0, 0x9f, 0x98] =
        ["a\ufffd", "\ufffd", "\ufffd"] ∧
      (∀ t ∈ ["rest", "x\ry", ""], '\n' ∉ t.toList ∧ t.toList.getLast? ≠ some '\r') ∧
      lines (encode (String.join (["x\ry", ""].map (· ++ "\r\n")) ++ "rest")) =
        ["x\ry", "", "rest"] := by
  have hread :=
    lines_eq_split_decoded [0x61, 0xe2, 0x82, 0x0a, 0xac, 0x0d, 0x0d, 0x0a, 0xf0, 0x9f, 0x98]
  have htexts : ∀ t ∈ ["rest", "x\ry", ""], '\n' ∉ t.toList ∧ t.toList.getLast? ≠ some '\r' := by
    decide
  exact ⟨hread.2.2.1.trans (by decide), htexts,
    hread.2.2.2.2.2 "\r\n" (by decide) ["x\ry", ""] "rest" htexts⟩

end SessionShell.Text
