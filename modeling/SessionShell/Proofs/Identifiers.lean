import SessionShell.Proofs.Decimal.Digits
import SessionShell.Proofs.Text.Span
import SessionShell.Run.Loop

namespace SessionShell.SessionId

/-- Whether a text is made of the given numbers for the stamp and the sequence number. -/
def Spelled (s : String) (stamp seq : Nat) : Prop :=
  ∃ a b, s.toList = ['s', 'h', '-'] ++ a ++ '-' :: b ∧ Decimal.Denotes a stamp ∧
    Decimal.Denotes b seq

variable {s : String} {id : SessionId} {cs : List Char}

theorem ofChars?_of_dash {a b : List Char} (ha : '-' ∉ a) :
    ofChars? (['s', 'h', '-'] ++ a ++ '-' :: b) = (do
      let stamp ← Decimal.below? UInt64.size a
      let seq ← Decimal.below? UInt32.size b
      return ⟨UInt64.ofNat stamp, UInt32.ofNat seq⟩) := by
  show ofChars? ('s' :: 'h' :: '-' :: (a ++ '-' :: b)) = _
  rw [ofChars?, Text.span_append_cons ha]

theorem exists_dash (h : ofChars? cs = some id) :
    ∃ a b, '-' ∉ a ∧ cs = ['s', 'h', '-'] ++ a ++ '-' :: b := by
  unfold ofChars? at h
  split at h
  · rename_i body
    obtain ⟨-, hspan⟩ | ⟨a, b, ha, rfl, -⟩ := Text.exists_span '-' body
    · rw [hspan] at h
      cases h
    · exact ⟨a, b, ha, rfl⟩
  · cases h

theorem ofText?_eq_some_iff :
    ofText? s = some id ↔ Spelled s id.stamp.toNat id.seq.toNat := by
  constructor
  · intro h
    obtain ⟨a, b, ha, hs⟩ := exists_dash h
    rw [ofText?, hs, ofChars?_of_dash ha] at h
    simp only [Option.bind_eq_bind, Option.bind_eq_some_iff, Decimal.below?_eq_some_iff] at h
    obtain ⟨stamp, ⟨hstamp, hm⟩, seq, ⟨hseq, hn⟩, hid⟩ := h
    cases hid
    refine ⟨a, b, hs, ?_, ?_⟩
    · rwa [UInt64.toNat_ofNat_of_lt' hm]
    · rwa [UInt32.toNat_ofNat_of_lt' hn]
  · rintro ⟨a, b, hs, ha, hb⟩
    rw [ofText?, hs, ofChars?_of_dash ha.ne_dash,
      Decimal.below?_eq_some_iff.2 ⟨ha, id.stamp.toNat_lt⟩,
      Decimal.below?_eq_some_iff.2 ⟨hb, id.seq.toNat_lt⟩]
    simp

theorem spelled_text (id : SessionId) : Spelled id.text id.stamp.toNat id.seq.toNat :=
  ⟨Nat.toDigits 10 id.stamp.toNat, Nat.toDigits 10 id.seq.toNat, by simp [text],
    Decimal.denotes_toDigits _, Decimal.denotes_toDigits _⟩

theorem ofText_eq_ok_iff : ofText s = .ok id ↔ Spelled s id.stamp.toNat id.seq.toNat := by
  rw [← ofText?_eq_some_iff, ofText]
  cases ofText? s <;> simp

theorem ofText_text (id : SessionId) : ofText id.text = .ok id :=
  ofText_eq_ok_iff.2 (spelled_text id)

theorem text_injective : Function.Injective text := by
  intro id id' h
  have hread := ofText_text id
  rw [h, ofText_text id'] at hread
  exact (Except.ok.inj hread).symm

theorem spelled_of_below {m n : Nat} (h : Spelled s m n) (hm : m < UInt64.size)
    (hn : n < UInt32.size) : ofText s = .ok ⟨UInt64.ofNat m, UInt32.ofNat n⟩ := by
  rwa [ofText_eq_ok_iff, UInt64.toNat_ofNat_of_lt' hm, UInt32.toNat_ofNat_of_lt' hn]

theorem ofText_eq_error_iff {e : ShellError} :
    ofText s = .error e ↔
      e = .invalidId s ∧ ¬∃ m n, Spelled s m n ∧ m < UInt64.size ∧ n < UInt32.size := by
  constructor
  · intro h
    refine ⟨?_, ?_⟩
    · unfold ofText at h
      cases hid : ofText? s with
      | none =>
        rw [hid] at h
        exact (Except.error.inj h).symm
      | some id =>
        rw [hid] at h
        cases h
    · rintro ⟨m, n, hspelled, hm, hn⟩
      rw [spelled_of_below hspelled hm hn] at h
      cases h
  · rintro ⟨rfl, hnone⟩
    unfold ofText
    cases hid : ofText? s with
    | none => rfl
    | some id =>
      exact absurd ⟨_, _, ofText?_eq_some_iff.1 hid, id.stamp.toNat_lt, id.seq.toNat_lt⟩ hnone

/-- The text of the identifier that a text names. -/
def rewritten (s : String) : Except ShellError String := (ofText s).map text

theorem rewritten_rewritten (s : String) : (rewritten s).bind rewritten = rewritten s := by
  unfold rewritten
  cases ofText s with
  | error e => rfl
  | ok id =>
    show (ofText id.text).map text = .ok id.text
    rw [ofText_text]
    rfl

theorem infoLines_of_invalid (h : ofText s = .error (.invalidId s)) (registry : Registry)
    (own : SessionId) (rest : List String) (flags : CommandLine.Flags) :
    infoLines registry own ⟨s :: rest, flags⟩ = ["info: invalid session identifier: " ++ s] := by
  simp only [infoLines, h]
  rfl

/-- A text names a session exactly if it is `sh-`, a stamp, a dash and a sequence number, each one or
more digits behind a plus or none, and it names the one with these numbers. Every other text is
refused as it stands. An identifier has a text of its own, which names it; to write what a text names
and to read that again changes nothing. -/
theorem ofText_iff_spelled :
    (∀ s id, ofText s = .ok id ↔ Spelled s id.stamp.toNat id.seq.toNat) ∧
    (∀ s e, ofText s = .error e ↔
      e = .invalidId s ∧ ¬∃ m n, Spelled s m n ∧ m < UInt64.size ∧ n < UInt32.size) ∧
    (∀ s, ofText s = .error (.invalidId s) → ∀ registry own rest flags,
      infoLines registry own ⟨s :: rest, flags⟩ = ["info: invalid session identifier: " ++ s]) ∧
    (∀ id : SessionId, ofText id.text = .ok id) ∧
    (∀ id id' : SessionId, id ≠ id' → id.text ≠ id'.text) ∧
    ∀ s, (rewritten s).bind rewritten = rewritten s :=
  ⟨fun _ _ => ofText_eq_ok_iff, fun _ _ => ofText_eq_error_iff, fun _ => infoLines_of_invalid,
    ofText_text, fun _ _ => text_injective.ne, rewritten_rewritten⟩

/-- A plus and zeros in front of numbers, and a sequence number that is one too large. -/
theorem ofText_of_signs_and_zeros :
    ofText "sh-+18446744073709551615-007" = .ok ⟨18446744073709551615, 7⟩ ∧
      rewritten "sh-+18446744073709551615-007" = .ok "sh-18446744073709551615-7" ∧
      infoLines ∅ default ⟨["sh-1-4294967296"], ∅⟩ =
        ["info: invalid session identifier: sh-1-4294967296"] := by
  obtain ⟨hok, -, hinfo, -, -, -⟩ := ofText_iff_spelled
  have hspelled : Spelled "sh-+18446744073709551615-007" 18446744073709551615 7 :=
    ⟨"+18446744073709551615".toList, "007".toList, by decide,
      ⟨"18446744073709551615".toList, .inr rfl, by decide, List.all_eq_true.1 (by decide),
        by decide⟩,
      ⟨"007".toList, .inl rfl, by decide, List.all_eq_true.1 (by decide), by decide⟩⟩
  have hread := (hok _ ⟨18446744073709551615, 7⟩).2 hspelled
  refine ⟨hread, ?_, hinfo "sh-1-4294967296" (by decide) ∅ default [] ∅⟩
  rw [rewritten, hread]
  decide

end SessionShell.SessionId
