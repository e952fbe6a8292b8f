import Mathlib.Data.List.DropRight
import SessionShell.CommandLine
import SessionShell.Proofs.CommandLine.Quotation
import SessionShell.Proofs.Text.Lines

namespace SessionShell

/-- Where only the runs between separators count, separators at the ends make no difference. -/
theorem filter_splitOnP_append {α : Type} {p : α → Bool} {gap blanks : List α}
    (hgap : ∀ a ∈ gap, p a) (hblanks : ∀ a ∈ blanks, p a) (core : List α) :
    ((gap ++ core ++ blanks).splitOnP p).filter (!·.isEmpty) =
      (core.splitOnP p).filter (!·.isEmpty) := by
  have hbefore {gap : List α} (hgap : ∀ a ∈ gap, p a) (rest : List α) :
      ((gap ++ rest).splitOnP p).filter (!·.isEmpty) =
        (rest.splitOnP p).filter (!·.isEmpty) := by
    induction gap with
    | nil => rfl
    | cons a gap ih =>
      obtain ⟨ha, hgap⟩ := List.forall_mem_cons.1 hgap
      rw [List.cons_append, List.splitOnP_cons_eq_if_modifyHead, if_pos ha]
      simpa using ih hgap
  rw [List.append_assoc, hbefore hgap]
  cases blanks with
  | nil => rw [List.append_nil]
  | cons a blanks =>
    obtain ⟨ha, hblanks⟩ := List.forall_mem_cons.1 hblanks
    have hrest := hbefore hblanks []
    rw [List.append_nil] at hrest
    rw [List.splitOnP_append_cons core blanks ha, List.filter_append, hrest]
    simp

namespace Text

variable {gap blanks s : List Char}

theorem trim_append (hgap : ∀ c ∈ gap, isBlank c) (hblanks : ∀ c ∈ blanks, isBlank c)
    (hhead : ∀ c ∈ s.head?, isBlank c = false) (hlast : ∀ c ∈ s.getLast?, isBlank c = false) :
    trim (gap ++ s ++ blanks) = s := by
  rw [trim, List.append_assoc, List.dropWhile_append_of_pos hgap]
  cases s with
  | nil =>
    have hnone : blanks.dropWhile isBlank = [] := List.dropWhile_eq_nil_iff.2 hblanks
    rw [List.nil_append, hnone]
    rfl
  | cons c s =>
    have hc : isBlank c = false := hhead c rfl
    rw [List.cons_append, List.dropWhile_cons_of_neg (by simp [hc]), ← List.cons_append,
      dropTrailing_append_of_pos hblanks, dropTrailing_eq_self hlast]

theorem exists_trim (s : List Char) :
    ∃ gap blanks, s = gap ++ trim s ++ blanks ∧ (∀ c ∈ gap, isBlank c) ∧
      ∀ c ∈ blanks, isBlank c := by
  refine ⟨s.takeWhile isBlank, (s.dropWhile isBlank).rtakeWhile isBlank, ?_,
    fun c hc => List.mem_takeWhile_imp hc, fun c hc => List.mem_rtakeWhile_imp hc⟩
  have hright : trim s ++ (s.dropWhile isBlank).rtakeWhile isBlank = s.dropWhile isBlank :=
    List.rdropWhile_append_rtakeWhile
  rw [List.append_assoc, hright, List.takeWhile_append_dropWhile]

theorem pieces_trim (s : List Char) : pieces (trim s) = pieces s := by
  obtain ⟨gap, blanks, hs, hgap, hblanks⟩ := exists_trim s
  have hruns := filter_splitOnP_append hgap hblanks (trim s)
  rw [← hs] at hruns
  exact hruns.symm

end Text

namespace CommandLine

/-- Whether a part is a separator behind a backslash. -/
def Part.hidesSeparator : Part → Bool
  | escaped c => CommandLine.isSeparator c
  | _ => false

/-- Whether the last part of a row, apart from separators, is one behind a backslash. -/
def endsHidden (parts : List Part) : Bool :=
  (parts.filter (!·.isSeparator)).getLast?.any Part.hidesSeparator

variable {parts front gap blanks : List Part} {p : Part} {line : List Char} {c : Char}

theorem isBlank_of_isSeparator (h : isSeparator c) : Text.isBlank c := by
  simp only [isSeparator, Bool.or_eq_true, decide_eq_true_eq] at h
  rcases h with (rfl | rfl) | rfl <;> decide

theorem Part.text_of_isSeparator (h : p.isSeparator) :
    ∃ c, p.text = [c] ∧ CommandLine.isSeparator c := by
  cases p with
  | plain c => exact ⟨c, rfl, h⟩
  | escaped | single | double => cases h

theorem isBlank_of_mem_separators (h : ∀ p ∈ gap, p.isSeparator) (hc : c ∈ gap.flatMap Part.text) :
    Text.isBlank c := by
  obtain ⟨p, hp, hc⟩ := List.mem_flatMap.1 hc
  obtain ⟨d, htext, hd⟩ := Part.text_of_isSeparator (h p hp)
  rw [htext, List.mem_singleton] at hc
  exact hc ▸ isBlank_of_isSeparator hd

theorem Part.head?_text (h : p.isSeparator = false) :
    ∃ c, p.text.head? = some c ∧ CommandLine.isSeparator c = false := by
  cases p with
  | plain c => exact ⟨c, rfl, h⟩
  | escaped c => exact ⟨'\\', rfl, by decide⟩
  | single text => exact ⟨'\'', rfl, by decide⟩
  | double inner => exact ⟨'"', rfl, by decide⟩

theorem Part.getLast?_text (h : p.isSeparator = false) :
    ∃ c, p.text.getLast? = some c ∧ p.hidesSeparator = CommandLine.isSeparator c := by
  cases p with
  | plain c => exact ⟨c, rfl, h.symm⟩
  | escaped c => exact ⟨c, rfl, rfl⟩
  | single text => exact ⟨'\'', by rw [Part.text, List.getLast?_append]; rfl, rfl⟩
  | double inner => exact ⟨'"', by rw [Part.text, List.getLast?_append]; rfl, rfl⟩

/-- A row is all separators, or a last part that is none stands before some and behind others. -/
theorem exists_last (parts : List Part) :
    (∀ p ∈ parts, p.isSeparator) ∨
      ∃ gap front p blanks, parts = gap ++ (front ++ [p]) ++ blanks ∧
        (∀ q ∈ gap, q.isSeparator) ∧ (∀ q ∈ (front ++ [p]).head?, q.isSeparator = false) ∧
        p.isSeparator = false ∧ ∀ q ∈ blanks, q.isSeparator := by
  induction parts using List.reverseRecOn with
  | nil => exact .inl (by simp)
  | append_singleton parts p ih =>
    cases hp : p.isSeparator with
    | true =>
      rcases ih with hall | ⟨gap, front, q, blanks, rfl, hgap, hhead, hq, hblanks⟩
      · exact .inl (by simpa [or_imp, forall_and, hp] using hall)
      · refine .inr ⟨gap, front, q, blanks ++ [p], by simp, hgap, hhead, hq, ?_⟩
        simpa [or_imp, forall_and, hp] using hblanks
    | false =>
      refine .inr ⟨parts.takeWhile Part.isSeparator, parts.dropWhile Part.isSeparator, p, [],
        by simp [← List.append_assoc], fun q hq => List.mem_takeWhile_imp hq, ?_, hp, by simp⟩
      have hfirst := List.head?_dropWhile_not Part.isSeparator parts
      cases hrest : parts.dropWhile Part.isSeparator with
      | nil => simpa using hp
      | cons q rest =>
        rw [hrest] at hfirst
        simpa using hfirst

theorem wordsOf_append (hgap : ∀ p ∈ gap, p.isSeparator) (hblanks : ∀ p ∈ blanks, p.isSeparator)
    (front : List Part) : wordsOf (gap ++ front ++ blanks) = wordsOf front := by
  rw [wordsOf, filter_splitOnP_append hgap hblanks, wordsOf]

theorem endsHidden_append (hp : p.isSeparator = false) (hblanks : ∀ q ∈ blanks, q.isSeparator) :
    endsHidden (gap ++ (front ++ [p]) ++ blanks) = p.hidesSeparator := by
  have hnone : blanks.filter (!·.isSeparator) = [] := by simpa using hblanks
  simp [endsHidden, List.filter_append, hnone, hp, List.getLast?_append]

section

variable {body : List Char}

/-- Where only separators are trimmed off in front, the first part that is none stays as it is. -/
theorem head?_not_blank (hgap : ∀ q ∈ gap, q.isSeparator)
    (hfront : ∀ q ∈ front.head?, q.isSeparator = false)
    (hhead : ∀ c ∈ (gap.flatMap Part.text ++ (front.flatMap Part.text ++ body)).takeWhile
      Text.isBlank, isSeparator c) :
    ∀ c ∈ (front.flatMap Part.text).head?, Text.isBlank c = false := by
  intro c hc
  cases front with
  | nil => cases hc
  | cons q front =>
    obtain ⟨d, hd, hsep⟩ := Part.head?_text (hfront q rfl)
    obtain ⟨text, htext⟩ := List.head?_eq_some_iff.1 hd
    rw [List.flatMap_cons, htext] at hc hhead
    cases hc
    by_contra hblank
    have hmem := hhead c (by
      rw [List.takeWhile_append_of_pos fun _ => isBlank_of_mem_separators hgap]
      simp [hblank])
    rw [hsep] at hmem
    cases hmem

/-- Where only separators are trimmed off at the end, the last part that is none stays, too, if it
does not end in a separator. -/
theorem last_not_blank (hblanks : ∀ q ∈ blanks, q.isSeparator)
    (hlast : ∀ d ∈ (body ++ blanks.flatMap Part.text).rtakeWhile Text.isBlank, isSeparator d)
    (hc : body.getLast? = some c) (hsep : isSeparator c = false) : Text.isBlank c = false := by
  by_contra hblank
  obtain ⟨init, rfl⟩ := List.getLast?_eq_some_iff.1 hc
  have hmem := hlast c (by
    have hreverse : ∀ d ∈ (blanks.flatMap Part.text).reverse, Text.isBlank d :=
      fun _ hd => isBlank_of_mem_separators hblanks (List.mem_reverse.1 hd)
    rw [List.rtakeWhile, List.reverse_append, List.takeWhile_append_of_pos hreverse]
    simp [hblank])
  rw [hsep] at hmem
  cases hmem

end

theorem exists_escaped (h : p.hidesSeparator) : ∃ c, p = .escaped c ∧ isSeparator c := by
  cases p with
  | escaped c => exact ⟨c, rfl, h⟩
  | plain | single | double => cases h

theorem trim_hidden (hgap : ∀ q ∈ gap, q.isSeparator) (hblanks : ∀ q ∈ blanks, q.isSeparator)
    (hc : isSeparator c)
    (hstart : ∀ d ∈ ((front ++ [Part.escaped c]).flatMap Part.text).head?, Text.isBlank d = false) :
    Text.trim (gap.flatMap Part.text ++ (front ++ [Part.escaped c]).flatMap Part.text ++
      blanks.flatMap Part.text) = front.flatMap Part.text ++ ['\\'] := by
  have hcore : (front ++ [Part.escaped c]).flatMap Part.text =
      (front.flatMap Part.text ++ ['\\']) ++ [c] := by simp [Part.text]
  have hhead : ∀ d ∈ (front.flatMap Part.text ++ ['\\']).head?, Text.isBlank d = false := by
    intro d hd
    apply hstart
    rw [hcore, List.head?_append, hd]
    rfl
  have hend : ∀ d ∈ c :: blanks.flatMap Part.text, Text.isBlank d :=
    List.forall_mem_cons.2 ⟨isBlank_of_isSeparator hc, fun _ => isBlank_of_mem_separators hblanks⟩
  rw [hcore]
  simpa using Text.trim_append (fun _ => isBlank_of_mem_separators hgap) hend hhead
    (by simp; decide)

/-- Trimming a row takes the separators at its ends. If a backslash hides one more, that one goes,
too, and leaves the backslash. -/
theorem trim_of_isRow (hrow : IsRow parts line)
    (hhead : ∀ c ∈ line.takeWhile Text.isBlank, isSeparator c)
    (hlast : ∀ c ∈ line.rtakeWhile Text.isBlank, isSeparator c) :
    if endsHidden parts then ∃ front, BreaksOff front .backslash (Text.trim line)
    else ∃ core, IsRow core (Text.trim line) ∧ wordsOf core = wordsOf parts := by
  obtain ⟨hvalid, rfl⟩ := hrow
  rcases exists_last parts with hall | ⟨gap, front, p, blanks, rfl, hgap, hfirst, hp, hblanks⟩
  · -- nothing is left of separators alone
    have hnone : parts.filter (!·.isSeparator) = [] := by simpa using hall
    have htrim : Text.trim (parts.flatMap Part.text) = [] := by
      simpa using Text.trim_append (s := []) (fun _ => isBlank_of_mem_separators hall)
        (List.forall_mem_nil _) (by simp) (by simp)
    have hwords : wordsOf parts = wordsOf [] := by
      simpa using wordsOf_append hall (List.forall_mem_nil _) []
    rw [endsHidden, hnone]
    exact ⟨[], ⟨by simp, htrim.symm⟩, hwords.symm⟩
  · have hvalid' : ∀ q ∈ front ++ [p], q.IsValid := fun q hq =>
      hvalid q (List.mem_append_left _ (List.mem_append_right _ hq))
    have hblankgap : ∀ d ∈ gap.flatMap Part.text, Text.isBlank d :=
      fun _ => isBlank_of_mem_separators hgap
    have hblankend : ∀ d ∈ blanks.flatMap Part.text, Text.isBlank d :=
      fun _ => isBlank_of_mem_separators hblanks
    rw [List.flatMap_append, List.flatMap_append] at hhead hlast ⊢
    have hstart := head?_not_blank hgap hfirst (List.append_assoc .. ▸ hhead)
    rw [endsHidden_append hp hblanks]
    cases hhides : p.hidesSeparator with
    | false =>
      obtain ⟨c, hc, hsep⟩ := Part.getLast?_text hp
      have hend : ((front ++ [p]).flatMap Part.text).getLast? = some c := by
        simp [List.getLast?_append, hc]
      have hblank : ∀ d ∈ ((front ++ [p]).flatMap Part.text).getLast?, Text.isBlank d = false := by
        intro d hd
        cases hend.symm.trans hd
        refine last_not_blank hblanks hlast ?_ (hsep.symm.trans hhides)
        rw [List.getLast?_append, hend]
        rfl
      have htrim := Text.trim_append hblankgap hblankend hstart hblank
      exact ⟨front ++ [p], ⟨hvalid', htrim.symm⟩, (wordsOf_append hgap hblanks _).symm⟩
    | true =>
      -- the backslash of the last part stays without its separator
      obtain ⟨c, rfl, hc⟩ := exists_escaped hhides
      have htrim := trim_hidden hgap hblanks hc hstart
      exact ⟨front, fun q hq => hvalid' q (List.mem_append_left _ hq), trivial, htrim.symm⟩

/-- A line that quoting accepts, with no blanks at its ends but separators, is parsed into the words
it has by quoting; unless the last of them ends in a separator behind a backslash. Then the line is
refused for want of that separator, and is cut at its blanks, in and outside of quotes. -/
theorem parse_of_accepted {line : String} {ws : List (List Char)}
    (hws : quotedWords? line.toList = some ws)
    (hhead : ∀ c ∈ line.toList.takeWhile Text.isBlank, isSeparator c)
    (hlast : ∀ c ∈ line.toList.rtakeWhile Text.isBlank, isSeparator c) :
    (∃ parts, IsRow parts line.toList) ∧ ∀ parts, IsRow parts line.toList → wordsOf parts = ws ∧
      quotedWords? (Text.trim line.toList) = (if endsHidden parts then none else some ws) ∧
      parse line = ofArguments (Arguments.ofWords
        ((if endsHidden parts then Text.pieces line.toList else ws).map String.ofList)) := by
  have hcut (s : List Char) : quotedWords? s = cut none s := (scan_escapeMarks s).1
  rw [hcut] at hws
  refine ⟨?_, fun parts hrow => ?_⟩
  · obtain ⟨parts, hrow | ⟨f, hbroken⟩⟩ := exists_parts line.toList
    · exact ⟨parts, hrow⟩
    · cases hws.symm.trans (cut_of_breaksOff hbroken)
  · cases hws.symm.trans (cut_of_isRow hrow)
    have htrim : quotedWords? (Text.trim line.toList) =
        if endsHidden parts then none else some (wordsOf parts) := by
      have hends := trim_of_isRow hrow hhead hlast
      rw [hcut]
      cases hhides : endsHidden parts with
      | true =>
        rw [hhides] at hends
        obtain ⟨front, hbroken⟩ := hends
        exact cut_of_breaksOff hbroken
      | false =>
        rw [hhides] at hends
        obtain ⟨core, hcore, hwords⟩ := hends
        exact (cut_of_isRow hcore).trans (congrArg some hwords)
    refine ⟨rfl, htrim, ?_⟩
    rw [parse, words, htrim, Text.pieces_trim]
    split <;> rfl

/-- Separators around a line, a hidden one inside it, quotes, and a mark. -/
theorem parse_of_padded_row :
    let line := " echo\t'a b' c\\ #d \n"
    quotedWords? line.toList = some ["echo".toList, "a b".toList, "c #d".toList] ∧
      parse line = ⟨"echo", ["a b", "c #d"], ∅⟩ := by
  intro line
  let parts : List Part := [.plain ' ', .plain 'e', .plain 'c', .plain 'h', .plain 'o', .plain '\t',
    .single ['a', ' ', 'b'], .plain ' ', .plain 'c', .escaped ' ', .plain '#', .plain 'd',
    .plain ' ', .plain '\n']
  have hrow : IsRow parts line.toList := by
    refine ⟨?_, by decide⟩
    simp [parts, Part.IsValid]
  have hws : quotedWords? line.toList = some ["echo".toList, "a b".toList, "c #d".toList] := by
    decide +kernel
  have hhead : ∀ c ∈ line.toList.takeWhile Text.isBlank, isSeparator c :=
    List.all_eq_true.1 (by decide +kernel)
  have hlast : ∀ c ∈ line.toList.rtakeWhile Text.isBlank, isSeparator c :=
    List.all_eq_true.1 (by decide +kernel)
  obtain ⟨-, hparts⟩ := parse_of_accepted hws hhead hlast
  obtain ⟨-, -, hparse⟩ := hparts parts hrow
  exact ⟨hws, hparse.trans (by decide +kernel)⟩

/-- The last separator of the line belongs to its last word. Without it the quotes before it are not
understood either. -/
theorem hidden_separator_trimmed :
    let line := "echo 'a b' c\\ "
    (∀ c ∈ line.toList.takeWhile Text.isBlank, isSeparator c) ∧
      (∀ c ∈ line.toList.rtakeWhile Text.isBlank, isSeparator c) ∧
      quotedWords? line.toList = some ["echo".toList, "a b".toList, "c ".toList] ∧
      quotedWords? (Text.trim line.toList) = none ∧
      parse line = ⟨"echo", ["'a", "b'", "c\\"], ∅⟩ ∧
      parse line ≠ ofArguments (Arguments.ofWords ["echo", "a b", "c "]) := by
  intro line
  exact ⟨List.all_eq_true.1 (by decide +kernel), List.all_eq_true.1 (by decide +kernel),
    by decide +kernel, by decide +kernel, by decide +kernel, by decide +kernel⟩

end CommandLine
end SessionShell
