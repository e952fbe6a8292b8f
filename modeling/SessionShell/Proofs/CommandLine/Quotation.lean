import Mathlib.Data.List.TakeWhile
import SessionShell.CommandLine.Words

/-!
What a line says by the rules of quoting. It is a row of parts, each a bare character, one behind a
backslash, or a text between quotes, and it may break off inside the last of them. The words of a
line are the longest rows of parts without a separator; no character opens a comment.
-/

namespace SessionShell.CommandLine

/-- The words of the rest of a line by the rules of quoting alone, from between words or from inside
one of which some is read already. -/
def cut : Option (Quoting × List Char) → List Char → Option (List (List Char))
  | none, [] => some []
  | some (.bare, read), [] => some [read]
  | some _, [] => none
  | none, c :: cs =>
    if isSeparator c then cut none cs
    else
      let (q, added) := Quoting.bare.step c
      cut (some (q, added)) cs
  | some (q, read), c :: cs =>
    if q = .bare && isSeparator c then (cut none cs).map (read :: ·)
    else
      let (q, added) := q.step c
      cut (some (q, read ++ added)) cs

/-- What stands between double quotes: a character alone, or one behind a backslash. -/
inductive Inner
  | plain (c : Char)
  | escaped (c : Char)
deriving DecidableEq

namespace Inner

def text : Inner → List Char
  | plain c => [c]
  | escaped c => ['\\', c]

/-- Only some characters are hidden by a backslash; a newline vanishes with it. -/
def meaning : Inner → List Char
  | plain c => [c]
  | escaped c => if c = '\n' then [] else if doubleEscapable c then [c] else ['\\', c]

def IsValid : Inner → Prop
  | plain c => c ≠ '"' ∧ c ≠ '\\'
  | escaped _ => True

end Inner

inductive Part
  | plain (c : Char)
  | escaped (c : Char)
  | single (text : List Char)
  | double (inner : List Inner)
deriving DecidableEq

namespace Part

def text : Part → List Char
  | plain c => [c]
  | escaped c => ['\\', c]
  | single text => '\'' :: text ++ ['\'']
  | double inner => '"' :: inner.flatMap Inner.text ++ ['"']

def meaning : Part → List Char
  | plain c => [c]
  | escaped c => if c = '\n' then [] else [c]
  | single text => text
  | double inner => inner.flatMap Inner.meaning

def IsValid : Part → Prop
  | plain c => c ≠ '\'' ∧ c ≠ '"' ∧ c ≠ '\\'
  | escaped _ => True
  | single text => '\'' ∉ text
  | double inner => ∀ i ∈ inner, i.IsValid

def isSeparator : Part → Bool
  | plain c => CommandLine.isSeparator c
  | _ => false

end Part

/-- A part that the end of the line cuts short. -/
inductive Fragment
  | backslash
  | single (text : List Char)
  | double (inner : List Inner)
  | doubleBackslash (inner : List Inner)
deriving DecidableEq

namespace Fragment

def text : Fragment → List Char
  | backslash => ['\\']
  | single text => '\'' :: text
  | double inner => '"' :: inner.flatMap Inner.text
  | doubleBackslash inner => '"' :: inner.flatMap Inner.text ++ ['\\']

def IsValid : Fragment → Prop
  | backslash => True
  | single text => '\'' ∉ text
  | double inner => ∀ i ∈ inner, i.IsValid
  | doubleBackslash inner => ∀ i ∈ inner, i.IsValid

end Fragment

/-- A line that is a row of whole parts. -/
def IsRow (parts : List Part) (line : List Char) : Prop :=
  (∀ p ∈ parts, p.IsValid) ∧ parts.flatMap Part.text = line

/-- A line that breaks off after a row of whole parts. -/
def BreaksOff (parts : List Part) (f : Fragment) (line : List Char) : Prop :=
  (∀ p ∈ parts, p.IsValid) ∧ f.IsValid ∧ parts.flatMap Part.text ++ f.text = line

def wordsOf (parts : List Part) : List (List Char) :=
  ((parts.splitOnP Part.isSeparator).filter (!·.isEmpty)).map (·.flatMap Part.meaning)

section

variable {read line rest : List Char} {parts : List Part} {p : Part} {inner : List Inner}

/-- The escaping of marks and the reading of comments cancel: in a word a backslash before a mark
vanishes, and between words every mark has one. -/
theorem scan_escapeMarks (line : List Char) :
    scan .gap (escapeMarks .bare true line) = cut none line ∧
      ∀ q read wordStart,
        scan (.word q read) (escapeMarks q wordStart line) = cut (some (q, read)) line := by
  induction line with
  | nil => exact ⟨rfl, fun q read wordStart => by cases q <;> rfl⟩
  | cons c line ih =>
    obtain ⟨hgap, hword⟩ := ih
    have hseparator (hc : isSeparator c) :
        c ≠ '#' ∧ (Quoting.bare.step c).1 = .bare ∧ Text.isBlank c := by
      simp only [isSeparator, Bool.or_eq_true, decide_eq_true_eq] at hc
      rcases hc with (rfl | rfl) | rfl <;> decide
    refine ⟨?_, fun q read wordStart => ?_⟩
    -- between words every mark is at the start of one
    · by_cases hmark : c = '#'
      · subst hmark
        simp [escapeMarks, scan, cut, isSeparator, Quoting.step, hword]
      · by_cases hc : isSeparator c
        · obtain ⟨-, hstep, hblank⟩ := hseparator hc
          simp [escapeMarks, scan, cut, hmark, hc, hstep, hblank, hgap]
        · simp [escapeMarks, scan, cut, hmark, hc, hword]
    -- in a word a mark may get a backslash after a blank that separates nothing
    · by_cases hmark : q = .bare ∧ wordStart ∧ c = '#'
      · obtain ⟨rfl, rfl, rfl⟩ := hmark
        simp [escapeMarks, scan, cut, isSeparator, Quoting.step, hword]
      · by_cases hc : q = .bare ∧ isSeparator c
        · obtain ⟨rfl, hc⟩ := hc
          obtain ⟨hne, hstep, hblank⟩ := hseparator hc
          simp [escapeMarks, scan, cut, hne, hc, hstep, hblank, hgap]
        · have hkept : (q = .bare && wordStart && c = '#') = false := by
            simpa [and_assoc] using hmark
          have hin : (q = .bare && isSeparator c) = false := by simpa using hc
          simp [escapeMarks, scan, cut, hkept, hin, hword]

theorem cut_single {text : List Char} (h : '\'' ∉ text) (read rest : List Char) :
    cut (some (.single, read)) (text ++ rest) = cut (some (.single, read ++ text)) rest := by
  induction text generalizing read with
  | nil => simp
  | cons c text ih =>
    simp only [List.mem_cons, not_or] at h
    simp [cut, Quoting.step, Ne.symm h.1, ih h.2]

theorem cut_inner (h : ∀ i ∈ inner, i.IsValid) (read rest : List Char) :
    cut (some (.double, read)) (inner.flatMap Inner.text ++ rest) =
      cut (some (.double, read ++ inner.flatMap Inner.meaning)) rest := by
  induction inner generalizing read with
  | nil => simp
  | cons i inner ih =>
    obtain ⟨hi, hinner⟩ := List.forall_mem_cons.1 h
    have hstep (tail : List Char) : cut (some (.double, read)) (i.text ++ tail) =
        cut (some (.double, read ++ i.meaning)) tail := by
      cases i with
      | plain c => simp [Inner.text, Inner.meaning, cut, Quoting.step, hi.1, hi.2]
      | escaped c => simp [Inner.text, Inner.meaning, cut, Quoting.step]
    rw [List.flatMap_cons, List.append_assoc, hstep, ih hinner, List.flatMap_cons,
      List.append_assoc]

theorem cut_separator (h : p.isSeparator) (read rest : List Char) :
    cut none (p.text ++ rest) = cut none rest ∧
      cut (some (.bare, read)) (p.text ++ rest) = (cut none rest).map (read :: ·) := by
  cases p with
  | plain c =>
    have hc : isSeparator c := h
    simp [Part.text, cut, hc]
  | escaped | single | double => cases h

theorem cut_part (hp : p.IsValid) (h : p.isSeparator = false) (read rest : List Char) :
    cut (some (.bare, read)) (p.text ++ rest) = cut (some (.bare, read ++ p.meaning)) rest := by
  cases p with
  | plain c =>
    have hc : isSeparator c = false := h
    simp [Part.text, Part.meaning, cut, hc, Quoting.step, hp.1, hp.2.1, hp.2.2]
  | escaped c => simp [Part.text, Part.meaning, cut, isSeparator, Quoting.step]
  | single text =>
    have htext := cut_single hp read ('\'' :: rest)
    simp [Part.text, Part.meaning, cut, isSeparator, Quoting.step, htext]
  | double inner =>
    have hinner := cut_inner hp read ('"' :: rest)
    simp [Part.text, Part.meaning, cut, isSeparator, Quoting.step, hinner]

theorem cut_none_part (h : p.isSeparator = false) (rest : List Char) :
    cut none (p.text ++ rest) = cut (some (.bare, [])) (p.text ++ rest) := by
  cases p with
  | plain c =>
    have hc : isSeparator c = false := h
    simp [Part.text, cut, hc]
  | escaped | single | double => simp [Part.text, cut, isSeparator]

theorem wordsOf_separator (h : p.isSeparator) : wordsOf (p :: parts) = wordsOf parts := by
  simp [wordsOf, List.splitOnP_cons_eq_if_modifyHead, h]

theorem wordsOf_part (h : p.isSeparator = false) :
    wordsOf (p :: parts) =
      (p :: parts.takeWhile (!·.isSeparator)).flatMap Part.meaning ::
        wordsOf (parts.dropWhile (!·.isSeparator)) := by
  have hrow : ∀ x ∈ p :: parts.takeWhile (!·.isSeparator), x.isSeparator = false := by
    intro x hx
    rcases List.mem_cons.1 hx with rfl | hx
    · exact h
    · simpa using List.mem_takeWhile_imp hx
  have hsplit : p :: parts =
      (p :: parts.takeWhile (!·.isSeparator)) ++ parts.dropWhile (!·.isSeparator) := by
    rw [List.cons_append, List.takeWhile_append_dropWhile]
  rw [hsplit]
  cases hrest : parts.dropWhile (!·.isSeparator) with
  | nil => simp [wordsOf, List.splitOnP_eq_singleton hrow]
  | cons x rest =>
    have hx : x.isSeparator := by
      have hhead := List.head?_dropWhile_not (!·.isSeparator) parts
      simpa [hrest] using hhead
    rw [wordsOf_separator hx, wordsOf, List.splitOnP_append_cons_of_forall_mem hrow x hx]
    rfl

/-- The words of a row are cut out. In a word the parts up to the next separator are added to it. -/
theorem cut_row (h : ∀ p ∈ parts, p.IsValid) :
    cut none (parts.flatMap Part.text) = some (wordsOf parts) ∧
      ∀ read, cut (some (.bare, read)) (parts.flatMap Part.text) = some
        ((read ++ (parts.takeWhile (!·.isSeparator)).flatMap Part.meaning) ::
          wordsOf (parts.dropWhile (!·.isSeparator))) := by
  induction parts with
  | nil => simp [cut, wordsOf]
  | cons p parts ih =>
    obtain ⟨hp, hparts⟩ := List.forall_mem_cons.1 h
    obtain ⟨hgap, hword⟩ := ih hparts
    cases hsep : p.isSeparator with
    | true =>
      refine ⟨?_, fun read => ?_⟩
      · rw [List.flatMap_cons, (cut_separator hsep [] _).1, hgap, wordsOf_separator hsep]
      · rw [List.flatMap_cons, (cut_separator hsep read _).2, hgap]
        simp [hsep, wordsOf_separator hsep]
    | false =>
      refine ⟨?_, fun read => ?_⟩
      · rw [List.flatMap_cons, cut_none_part hsep, cut_part hp hsep, hword, wordsOf_part hsep]
        simp
      · rw [List.flatMap_cons, cut_part hp hsep, hword]
        simp [hsep]

theorem cut_refused (h : ∀ p ∈ parts, p.IsValid) (hgap : cut none rest = none)
    (hword : ∀ read, cut (some (.bare, read)) rest = none) :
    cut none (parts.flatMap Part.text ++ rest) = none ∧
      ∀ read, cut (some (.bare, read)) (parts.flatMap Part.text ++ rest) = none := by
  induction parts with
  | nil => exact ⟨hgap, hword⟩
  | cons p parts ih =>
    obtain ⟨hp, hparts⟩ := List.forall_mem_cons.1 h
    obtain ⟨ihgap, ihword⟩ := ih hparts
    rw [List.flatMap_cons, List.append_assoc]
    cases hsep : p.isSeparator with
    | true =>
      refine ⟨?_, fun read => ?_⟩
      · rw [(cut_separator hsep [] _).1, ihgap]
      · rw [(cut_separator hsep read _).2, ihgap]
        rfl
    | false =>
      refine ⟨?_, fun read => ?_⟩
      · rw [cut_none_part hsep, cut_part hp hsep, ihword]
      · rw [cut_part hp hsep, ihword]

theorem cut_fragment {f : Fragment} (h : f.IsValid) (state : Option (List Char)) :
    cut (state.map (.bare, ·)) f.text = none := by
  cases f with
  | backslash => cases state <;> simp [Fragment.text, cut, isSeparator, Quoting.step]
  | single text =>
    have htext (read : List Char) := cut_single h read []
    cases state <;>
      simp_all [Fragment.text, cut, isSeparator, Quoting.step]
  | double inner =>
    have hinner (read : List Char) := cut_inner h read []
    cases state <;>
      simp_all [Fragment.text, cut, isSeparator, Quoting.step]
  | doubleBackslash inner =>
    have hinner (read : List Char) := cut_inner h read ['\\']
    cases state <;>
      simp_all [Fragment.text, cut, isSeparator, Quoting.step]

/-- What stands behind a double quote, up to the closing one if there is one. -/
def Inner.Follows (inner : List Inner) (line : List Char) : Prop :=
  (∀ i ∈ inner, i.IsValid) ∧ ((∃ rest, inner.flatMap text ++ '"' :: rest = line) ∨
    inner.flatMap text = line ∨ inner.flatMap text ++ ['\\'] = line)

theorem Inner.Follows.cons {i : Inner} (h : Follows inner line) (hi : i.IsValid) :
    Follows (i :: inner) (i.text ++ line) := by
  obtain ⟨hinner, hend⟩ := h
  refine ⟨List.forall_mem_cons.2 ⟨hi, hinner⟩, ?_⟩
  rw [List.flatMap_cons]
  rcases hend with ⟨rest, rfl⟩ | rfl | rfl
  · exact .inl ⟨rest, by simp⟩
  · exact .inr (.inl rfl)
  · exact .inr (.inr (by simp))

theorem exists_inner (line : List Char) : ∃ inner, Inner.Follows inner line := by
  match line with
  | [] => exact ⟨[], by simp, .inr (.inl rfl)⟩
  | c :: tail =>
    by_cases hquote : c = '"'
    · exact ⟨[], by simp, .inl ⟨tail, by simp [hquote]⟩⟩
    by_cases hslash : c = '\\'
    · subst hslash
      match tail with
      | [] => exact ⟨[], by simp, .inr (.inr rfl)⟩
      | d :: tail =>
        obtain ⟨inner, h⟩ := exists_inner tail
        have hescaped : (Inner.escaped d).IsValid := trivial
        exact ⟨_, h.cons hescaped⟩
    · obtain ⟨inner, h⟩ := exists_inner tail
      have hplain : (Inner.plain c).IsValid := ⟨hquote, hslash⟩
      exact ⟨_, h.cons hplain⟩
termination_by line.length

theorem IsRow.cons (h : IsRow parts line) (hp : p.IsValid) :
    IsRow (p :: parts) (p.text ++ line) := by
  obtain ⟨hparts, rfl⟩ := h
  exact ⟨List.forall_mem_cons.2 ⟨hp, hparts⟩, rfl⟩

theorem BreaksOff.cons {f : Fragment} (h : BreaksOff parts f line) (hp : p.IsValid) :
    BreaksOff (p :: parts) f (p.text ++ line) := by
  obtain ⟨hparts, hf, rfl⟩ := h
  exact ⟨List.forall_mem_cons.2 ⟨hp, hparts⟩, hf, by simp⟩

theorem Fragment.breaksOff {f : Fragment} (h : f.IsValid) : BreaksOff [] f f.text :=
  ⟨by simp, h, rfl⟩

/-- A line that is not empty begins with a part, or ends inside its first one. -/
theorem exists_part (c : Char) (tail : List Char) :
    (∃ p : Part, p.IsValid ∧ ∃ rest, p.text ++ rest = c :: tail) ∨
      ∃ f : Fragment, f.IsValid ∧ f.text = c :: tail := by
  by_cases hsingle : c = '\''
  · subst hsingle
    by_cases hclosed : '\'' ∈ tail
    · obtain ⟨text, rest, rfl, hopen⟩ := List.eq_append_cons_of_mem hclosed
      exact .inl ⟨.single text, hopen, rest, by simp [Part.text]⟩
    · exact .inr ⟨.single tail, hclosed, rfl⟩
  by_cases hdouble : c = '"'
  · subst hdouble
    obtain ⟨inner, hinner, ⟨rest, rfl⟩ | rfl | rfl⟩ := exists_inner tail
    · exact .inl ⟨.double inner, hinner, rest, by simp [Part.text]⟩
    · exact .inr ⟨.double inner, hinner, rfl⟩
    · exact .inr ⟨.doubleBackslash inner, hinner, rfl⟩
  by_cases hslash : c = '\\'
  · subst hslash
    cases tail with
    | nil => exact .inr ⟨.backslash, trivial, rfl⟩
    | cons d rest => exact .inl ⟨.escaped d, trivial, rest, rfl⟩
  · exact .inl ⟨.plain c, ⟨hsingle, hdouble, hslash⟩, tail, rfl⟩

theorem Part.text_ne_nil (p : Part) : p.text ≠ [] := by
  cases p <;> simp [text]

theorem exists_parts (line : List Char) :
    ∃ parts, IsRow parts line ∨ ∃ f, BreaksOff parts f line := by
  match line with
  | [] => exact ⟨[], .inl ⟨by simp, rfl⟩⟩
  | c :: tail =>
    obtain ⟨p, hp, rest, hrest⟩ | ⟨f, hf, htext⟩ := exists_part c tail
    · have hshorter : rest.length ≤ tail.length := by
        have hlength := congrArg List.length hrest
        have hpos := List.length_pos_iff.2 p.text_ne_nil
        rw [List.length_append, List.length_cons] at hlength
        omega
      rw [← hrest]
      obtain ⟨parts, hrow | ⟨f, hbroken⟩⟩ := exists_parts rest
      · exact ⟨_, .inl (hrow.cons hp)⟩
      · exact ⟨_, .inr ⟨f, hbroken.cons hp⟩⟩
    · exact ⟨[], .inr ⟨f, htext ▸ Fragment.breaksOff hf⟩⟩
termination_by line.length

theorem cut_of_isRow (h : IsRow parts line) : cut none line = some (wordsOf parts) := by
  obtain ⟨hparts, rfl⟩ := h
  exact (cut_row hparts).1

theorem cut_of_breaksOff {f : Fragment} (h : BreaksOff parts f line) : cut none line = none := by
  obtain ⟨hparts, hf, rfl⟩ := h
  exact (cut_refused hparts (cut_fragment hf none) fun read => cut_fragment hf (some read)).1

theorem flatten_splitOnP {α : Type} (p : α → Bool) (l : List α) :
    (l.splitOnP p).flatten = l.filter (!p ·) := by
  induction l with
  | nil => rfl
  | cons a l ih =>
    rw [List.splitOnP_cons_eq_if_modifyHead]
    cases hp : p a with
    | true => simpa [hp] using ih
    | false =>
      cases hsplit : l.splitOnP p with
      | nil => exact absurd hsplit (List.splitOnP_ne_nil p l)
      | cons run runs => simpa [hp, hsplit] using ih

/-- The words of a row hold what its parts mean, in their order, and all of it but the separators.
-/
theorem flatten_wordsOf (parts : List Part) :
    (wordsOf parts).flatten = (parts.filter (!·.isSeparator)).flatMap Part.meaning := by
  calc (wordsOf parts).flatten
      = ((parts.splitOnP Part.isSeparator).filter (!·.isEmpty)).flatten.flatMap Part.meaning := by
        rw [wordsOf, ← List.flatMap_def, ← List.flatMap_id, List.flatMap_assoc]
        rfl
    _ = (parts.splitOnP Part.isSeparator).flatten.flatMap Part.meaning := by
        rw [List.flatten_filter_not_isEmpty]
    _ = (parts.filter (!·.isSeparator)).flatMap Part.meaning := by rw [flatten_splitOnP]

theorem flatten_pieces (line : List Char) :
    (Text.pieces line).flatten = line.filter (!Text.isBlank ·) := by
  rw [Text.pieces, List.flatten_filter_not_isEmpty, flatten_splitOnP]

end

/-- The words of a line are those that its parts make up by the rules of quoting, where a mark is a
character as any other and nothing but separators gets lost. They are missing exactly if the line
breaks off inside quotes or right after a backslash, and then the line is cut at its blanks. -/
theorem quotedWords?_iff (line : List Char) :
    scan .gap (escapeMarks .bare true line) = cut none line ∧
    (∀ ws, quotedWords? line = some ws ↔ ∃ parts, IsRow parts line ∧ wordsOf parts = ws ∧
      ws.flatten = (parts.filter (!·.isSeparator)).flatMap Part.meaning) ∧
    (quotedWords? line = none ↔ ∃ parts f, BreaksOff parts f line) ∧
    words line = (match cut none line with
      | some ws => ws
      | none => Text.pieces line).map String.ofList ∧
    (Text.pieces line).flatten = line.filter (!Text.isBlank ·) := by
  have hcut : quotedWords? line = cut none line := (scan_escapeMarks line).1
  refine ⟨hcut, fun ws => ⟨fun h => ?_, ?_⟩, ⟨fun h => ?_, ?_⟩, ?_, flatten_pieces line⟩
  · rw [hcut] at h
    obtain ⟨parts, hrow | ⟨f, hbroken⟩⟩ := exists_parts line
    · rw [cut_of_isRow hrow] at h
      cases h
      exact ⟨parts, hrow, rfl, flatten_wordsOf parts⟩
    · rw [cut_of_breaksOff hbroken] at h
      cases h
  · rintro ⟨parts, hrow, rfl, -⟩
    rw [hcut, cut_of_isRow hrow]
  · rw [hcut] at h
    obtain ⟨parts, hrow | ⟨f, hbroken⟩⟩ := exists_parts line
    · rw [cut_of_isRow hrow] at h
      cases h
    · exact ⟨parts, f, hbroken⟩
  · rintro ⟨parts, f, hbroken⟩
    rw [hcut, cut_of_breaksOff hbroken]
  · rw [words, hcut]
    cases cut none line <;> rfl

-- marks after a blank inside a word, after a hidden newline, between quotes, and after a separator
example : quotedWords? "a\u00a0#b \\\n#c '#'#d\t#e".toList =
    some ["a\u00a0#b".toList, "#c".toList, "##d".toList, "#e".toList] := by decide

end SessionShell.CommandLine
