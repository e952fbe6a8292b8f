import SessionShell.CommandLine
import SessionShell.Proofs.CommandLine.Quotation
import SessionShell.Proofs.Text.Lines

namespace SessionShell

namespace CommandLine

variable {line word : List Char} {c : Char}

theorem Inner.meaning_subset (i : Inner) : i.meaning ⊆ i.text := by
  cases i with
  | plain c => exact List.Subset.refl _
  | escaped c =>
    simp only [meaning, text]
    split_ifs <;> simp

theorem Part.meaning_subset (p : Part) : p.meaning ⊆ p.text := by
  cases p with
  | plain c => exact List.Subset.refl _
  | escaped c =>
    simp only [meaning, text]
    split_ifs <;> simp
  | single text => simp [meaning, Part.text]
  | double inner =>
    intro c hc
    obtain ⟨i, hi, hc⟩ := List.mem_flatMap.1 hc
    simp only [text, List.mem_append, List.mem_cons, List.mem_flatMap]
    exact .inl (.inr ⟨i, hi, i.meaning_subset hc⟩)

/-- Cut by quotes or at its blanks, a line gives none but its own characters. -/
theorem mem_of_mem_words {word : String} (hword : word ∈ words line) (hc : c ∈ word.toList) :
    c ∈ line := by
  obtain ⟨chars, hchars, rfl⟩ := List.mem_map.1 hword
  rw [String.toList_ofList] at hc
  have hflat {ws : List (List Char)} (hws : chars ∈ ws) : c ∈ ws.flatten :=
    List.mem_flatten.2 ⟨chars, hws, hc⟩
  rw [quotedWords?, (scan_escapeMarks line).1] at hchars
  obtain ⟨parts, hrow | ⟨f, hbroken⟩⟩ := exists_parts line
  · rw [cut_of_isRow hrow, Option.getD_some] at hchars
    have hc := hflat hchars
    rw [flatten_wordsOf] at hc
    obtain ⟨p, hp, hc⟩ := List.mem_flatMap.1 hc
    rw [← hrow.2]
    exact List.mem_flatMap.2 ⟨p, (List.mem_filter.1 hp).1, p.meaning_subset hc⟩
  · rw [cut_of_breaksOff hbroken, Option.getD_none] at hchars
    have hc := hflat hchars
    rw [flatten_pieces] at hc
    exact (List.mem_filter.1 hc).1

theorem mem_of_mem_trim (hc : c ∈ Text.trim line) : c ∈ line :=
  (List.dropWhile_suffix _).subset (Text.mem_of_mem_dropTrailing hc)

end CommandLine

theorem Arguments.mem_addWords {a : Arguments} {words : List String} {word : String}
    (h : word ∈ (a.addWords words).positional) : word ∈ a.positional ∨ word ∈ words := by
  induction words generalizing a with
  | nil => exact .inl h
  | cons first rest ih =>
    rw [addWords] at h
    split at h
    · exact (List.mem_append.1 h).imp_right (List.mem_cons_of_mem first)
    · split at h
      · exact (ih h).imp_right (List.mem_cons_of_mem first)
      · rcases ih h with h | h
        · obtain h | h := List.mem_append.1 h
          · exact .inl h
          · exact .inr (List.mem_cons.2 (.inl (List.mem_singleton.1 h)))
        · exact .inr (List.mem_cons_of_mem first h)

namespace CommandLine

theorem mem_of_mem_parse {line word : String} {c : Char}
    (hword : word = (parse line).command ∨ word ∈ (parse line).arguments.positional)
    (hc : c ∈ word.toList) : c ∈ line.toList := by
  have htaken : word ∈ (Arguments.ofWords (words (Text.trim line.toList))).positional := by
    rw [parse, ofArguments] at hword
    split at hword
    case h_1 hnone =>
      rw [hnone] at hword
      obtain rfl | h := hword
      · cases hc
      · exact absurd h List.not_mem_nil
    case h_2 command rest hsome =>
      rw [hsome]
      exact List.mem_cons.2 hword
  have hmem := (Arguments.mem_addWords htaken).resolve_left List.not_mem_nil
  exact mem_of_mem_trim (mem_of_mem_words hmem hc)

end CommandLine
end SessionShell
