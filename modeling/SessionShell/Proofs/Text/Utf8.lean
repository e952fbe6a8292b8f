import SessionShell.Text.Utf8

namespace SessionShell.Text.Utf8

/-- A value less its last `i` groups of six bits. -/
def above (v : Nat) : Nat → Nat
  | 0 => v
  | i + 1 => above v i / 64

/-- The byte that bears the `i`-th group of six bits, counting from the last. -/
def continuation (v i : Nat) : UInt8 := UInt8.ofNat (above v i % 64 + 0x80)

/-- The last `n + 1` bytes of a character that has more than these. -/
def trail (v : Nat) : (n : Nat) → Bytes
  | 0 => [continuation v 0]
  | n + 1 => continuation v (n + 1) :: trail v n

/-- The first byte of a character of several, by the number of those after the second. -/
def Leads (b : UInt8) (v n : Nat) : Prop :=
  n = 0 ∧ 0x80 ≤ v ∧ v < 0x800 ∧ b.toNat = 0xc0 + v / 64 ∨
    n = 1 ∧ 0x800 ≤ v ∧ v < 0x10000 ∧ b.toNat = 0xe0 + v / 64 / 64 ∨
    n = 2 ∧ 0x10000 ≤ v ∧ v < 0x110000 ∧ b.toNat = 0xf0 + v / 64 / 64 / 64

/-- Whether a character that has begun can turn out to be the one with the given value. -/
structure Pending.Admits (p : Pending) (v : Nat) : Prop where
  value : above v (p.more + 1) = p.value
  low : p.low ≤ continuation v p.more
  high : continuation v p.more ≤ p.high

/-- A character has begun with what it is said to have begun with: those that it can turn out to be
are the characters whose encoding begins so. -/
structure Pending.Fits (p : Pending) : Prop where
  begun : p.read ≠ []
  low : 0x80 ≤ p.low
  range : p.low ≤ p.high
  high : p.high ≤ 0xbf
  valid (v : Nat) : p.Admits v → v.isValidChar
  encoded (c : Char) : p.Admits c.toNat → String.utf8EncodeChar c = p.read ++ trail c.toNat p.more
  admits (c : Char) : p.read <+: String.utf8EncodeChar c → p.Admits c.toNat

/-- Bytes that no character accounts for, at the place where they stand before others: none begins
there in full, and they are as many as one begins with, or one byte where none does. -/
structure IllFormed (junk rest : Bytes) : Prop where
  nonempty : junk ≠ []
  unconvertible (c : Char) : ¬ String.utf8EncodeChar c <+: junk ++ rest
  begins : (∃ c, junk <+: String.utf8EncodeChar c) ∨ junk.length = 1
  longest (b : UInt8) (c : Char) : [b] <+: rest → ¬ junk ++ [b] <+: String.utf8EncodeChar c

/-- The pieces that a byte string consists of. -/
inductive Decoded : Bytes → List Piece → Prop
  | nil : Decoded [] []
  | char (c : Char) {rest : Bytes} {out : List Piece} (h : Decoded rest out) :
      Decoded (String.utf8EncodeChar c ++ rest) (.ok c :: out)
  | ill {junk rest : Bytes} {out : List Piece} (hill : IllFormed junk rest)
      (h : Decoded rest out) : Decoded (junk ++ rest) (.error junk :: out)

section

variable {b : UInt8} {p : Pending} {c : Char} {v i : Nat} {junk rest : Bytes} {out : List Piece}

theorem toNat_continuation (v i : Nat) : (continuation v i).toNat = above v i % 64 + 0x80 := by
  have hlt : above v i % 64 < 64 := Nat.mod_lt _ (by decide)
  rw [continuation, UInt8.toNat_ofNat_of_lt' (show _ < 256 by omega)]

theorem continuation_range (v i : Nat) : 0x80 ≤ continuation v i ∧ continuation v i ≤ 0xbf := by
  have hlt : above v i % 64 < 64 := Nat.mod_lt _ (by decide)
  simp only [UInt8.le_iff_toNat_le, toNat_continuation]
  exact ⟨Nat.le_add_left _ _, by simp; omega⟩

theorem continuation_eq_iff (h : 0x80 ≤ b ∧ b ≤ 0xbf) :
    continuation v i = b ↔ above v i % 64 = b.toNat % 64 := by
  simp only [UInt8.le_iff_toNat_le, UInt8.reduceToNat] at h
  rw [← UInt8.toNat_inj, toNat_continuation]
  omega

theorem Leads.unique {b' : UInt8} {n n' : Nat} (h : Leads b v n) (h' : Leads b' v n') :
    b = b' ∧ n = n' := by
  unfold Leads at h h'
  exact ⟨UInt8.toNat_inj.1 (by omega), by omega⟩

theorem encodeChar_cases (c : Char) :
    c.toNat < 0x80 ∧ String.utf8EncodeChar c = [UInt8.ofNat c.toNat] ∨
      ∃ b n, Leads b c.toNat n ∧ String.utf8EncodeChar c = b :: trail c.toNat n := by
  have hval : c.val.toNat = c.toNat := rfl
  have hlt : c.toNat < 0x110000 := by
    have := c.valid
    simp only [UInt32.isValidChar, Nat.isValidChar, hval] at this
    omega
  simp only [String.utf8EncodeChar, hval]
  generalize c.toNat = v at hlt ⊢
  -- one to four bytes, by the size of the value
  by_cases h1 : v ≤ 0x7f
  · exact .inl ⟨by omega, by simp [h1]⟩
  by_cases h2 : v ≤ 0x7ff
  · refine .inr ⟨UInt8.ofNat (0xc0 + v / 64), 0, ?_, ?_⟩
    · rw [Leads, UInt8.toNat_ofNat_of_lt' (show _ < 256 by omega)]
      omega
    · simp only [h1, h2, if_true, if_false, trail, continuation, above]
      rw [show v / 64 % 32 + 0xc0 = 0xc0 + v / 64 by omega]
  by_cases h3 : v ≤ 0xffff
  · refine .inr ⟨UInt8.ofNat (0xe0 + v / 64 / 64), 1, ?_, ?_⟩
    · rw [Leads, UInt8.toNat_ofNat_of_lt' (show _ < 256 by omega)]
      omega
    · simp only [h1, h2, h3, if_true, if_false, trail, continuation, above]
      rw [show v / 4096 % 16 + 0xe0 = 0xe0 + v / 64 / 64 by omega]
  · refine .inr ⟨UInt8.ofNat (0xf0 + v / 64 / 64 / 64), 2, ?_, ?_⟩
    · rw [Leads, UInt8.toNat_ofNat_of_lt' (show _ < 256 by omega)]
      omega
    · simp only [h1, h2, h3, if_false, trail, continuation, above]
      rw [show v / 262144 % 8 + 0xf0 = 0xf0 + v / 64 / 64 / 64 by omega,
        show v / 4096 % 64 = v / 64 / 64 % 64 by omega]

theorem ofLead?_eq_none_iff : Pending.ofLead? b = none ↔ b < 0xc2 ∨ 0xf4 < b := by
  unfold Pending.ofLead?
  simp only [UInt8.lt_iff_toNat_lt, ← UInt8.toNat_inj, UInt8.reduceToNat]
  grind

theorem ofLead?_cases (h : Pending.ofLead? b = some p) :
    p.read = [b] ∧
      (p.more = 0 ∧ 0xc2 ≤ b.toNat ∧ b.toNat < 0xe0 ∧ p.value = b.toNat - 0xc0 ∧
          p.low.toNat = 0x80 ∧ p.high.toNat = 0xbf ∨
        p.more = 1 ∧ 0xe0 ≤ b.toNat ∧ b.toNat < 0xf0 ∧ p.value = b.toNat - 0xe0 ∧
          p.low.toNat = (if b.toNat = 0xe0 then 0xa0 else 0x80) ∧
          p.high.toNat = (if b.toNat = 0xed then 0x9f else 0xbf) ∨
        p.more = 2 ∧ 0xf0 ≤ b.toNat ∧ b.toNat ≤ 0xf4 ∧ p.value = b.toNat - 0xf0 ∧
          p.low.toNat = (if b.toNat = 0xf0 then 0x90 else 0x80) ∧
          p.high.toNat = (if b.toNat = 0xf4 then 0x8f else 0xbf)) := by
  unfold Pending.ofLead? at h
  simp only [UInt8.lt_iff_toNat_lt, ← UInt8.toNat_inj, UInt8.reduceToNat] at h
  repeat' split at h
  all_goals first
    | contradiction
    | cases h
      simp only [UInt8.reduceToNat]
      grind

/-- A first byte admits neither a value that a shorter encoding has, nor a surrogate, nor one beyond
the last character. -/
theorem admits_iff_of_lead (h : Pending.ofLead? b = some p) :
    p.Admits v ↔ v.isValidChar ∧ Leads b v p.more := by
  have hadmits : p.Admits v ↔ above v (p.more + 1) = p.value ∧
      p.low.toNat ≤ above v p.more % 64 + 0x80 ∧ above v p.more % 64 + 0x80 ≤ p.high.toNat := by
    rw [← toNat_continuation, ← UInt8.le_iff_toNat_le, ← UInt8.le_iff_toNat_le]
    exact ⟨fun ⟨hv, hl, hh⟩ => ⟨hv, hl, hh⟩, fun ⟨hv, hl, hh⟩ => ⟨hv, hl, hh⟩⟩
  rw [hadmits, Nat.isValidChar, Leads]
  clear hadmits
  obtain ⟨-, ⟨hmore, hcase⟩ | ⟨hmore, h1, h2, hvalue, hlow, hhigh⟩ |
    ⟨hmore, h1, h2, hvalue, hlow, hhigh⟩⟩ := ofLead?_cases h
  · simp only [hmore, above, true_and]
    omega
  all_goals
    simp only [hmore, above, true_and]
    split at hlow <;> split at hhigh <;> omega

theorem fits_of_lead (h : Pending.ofLead? b = some p) : p.Fits := by
  obtain ⟨hread, hcases⟩ := ofLead?_cases h
  have hadmits {v : Nat} := admits_iff_of_lead (v := v) h
  refine ⟨by simp [hread], ?_, ?_, ?_, fun v hv => (hadmits.1 hv).1, fun c hc => ?_, fun c hc => ?_⟩
  · grind [UInt8.le_iff_toNat_le]
  · grind [UInt8.le_iff_toNat_le]
  · grind [UInt8.le_iff_toNat_le]
  · have hleads := (hadmits.1 hc).2
    obtain ⟨hlt, -⟩ | ⟨b', n, hleads', henc⟩ := encodeChar_cases c
    · unfold Leads at hleads
      omega
    · obtain ⟨rfl, rfl⟩ := hleads.unique hleads'
      rw [henc, hread, List.singleton_append]
  · refine hadmits.2 ⟨c.valid, ?_⟩
    obtain ⟨hlt, henc⟩ | ⟨b', n, hleads, henc⟩ := encodeChar_cases c <;>
      rw [henc, hread, List.singleton_prefix_cons_iff] at hc
    · have hb : b.toNat = c.toNat := by rw [hc, UInt8.toNat_ofNat_of_lt' (show _ < 256 by omega)]
      omega
    · have hmore : p.more = n := by
        unfold Leads at hleads
        rw [hc] at hcases
        omega
      rwa [hc, hmore]

theorem admits_next_iff (hp : p.Fits) (hb : p.low ≤ b ∧ b ≤ p.high) :
    p.Admits v ∧ continuation v p.more = b ↔ above v p.more = p.value * 64 + b.toNat % 64 := by
  have hcont := continuation_eq_iff (v := v) (i := p.more)
    ⟨UInt8.le_trans hp.low hb.1, UInt8.le_trans hb.2 hp.high⟩
  have habove : above v (p.more + 1) = above v p.more / 64 := rfl
  constructor
  · rintro ⟨hadm, heq⟩
    have hvalue := hadm.value
    have hmod := hcont.1 heq
    omega
  · intro h
    have heq : continuation v p.more = b := hcont.2 (by omega)
    exact ⟨⟨by omega, by rw [heq]; exact hb.1, by rw [heq]; exact hb.2⟩, heq⟩

theorem fits_next {n : Nat} (hp : p.Fits) (hb : p.low ≤ b ∧ b ≤ p.high) (hmore : p.more = n + 1) :
    Pending.Fits ⟨p.read ++ [b], p.value * 64 + b.toNat % 64, 0x80, 0xbf, n⟩ := by
  have hadmits (v : Nat) :
      Pending.Admits ⟨p.read ++ [b], p.value * 64 + b.toNat % 64, 0x80, 0xbf, n⟩ v ↔
        p.Admits v ∧ continuation v p.more = b := by
    rw [admits_next_iff hp hb, hmore]
    exact ⟨fun h => h.value, fun h => ⟨h, (continuation_range v n).1, (continuation_range v n).2⟩⟩
  refine ⟨by simp, UInt8.le_refl _, by simp, UInt8.le_refl _,
    fun v hv => hp.valid v ((hadmits v).1 hv).1, fun c hc => ?_, fun c hc => (hadmits _).2 ?_⟩
  · obtain ⟨hadm, heq⟩ := (hadmits _).1 hc
    rw [hp.encoded c hadm, hmore, trail, ← hmore, heq]
    simp
  · have hadm := hp.admits c ((List.prefix_append _ _).trans hc)
    rw [hp.encoded c hadm, hmore, trail, List.prefix_append_right_inj,
      List.singleton_prefix_cons_iff] at hc
    exact ⟨hadm, by rw [hc, hmore]⟩

theorem encodeChar_last (hp : p.Fits) (hb : p.low ≤ b ∧ b ≤ p.high) (hmore : p.more = 0) :
    String.utf8EncodeChar (Char.ofNat (p.value * 64 + b.toNat % 64)) = p.read ++ [b] := by
  obtain ⟨hadm, heq⟩ := (admits_next_iff (v := p.value * 64 + b.toNat % 64) hp hb).2
    (by rw [hmore, above])
  have hc : (Char.ofNat (p.value * 64 + b.toNat % 64)).toNat = p.value * 64 + b.toNat % 64 := by
    rw [Char.ofNat, dif_pos (hp.valid _ hadm)]
    rfl
  rw [hp.encoded _ (by rwa [hc]), hmore, trail, hc, ← hmore, heq]

theorem Pending.Fits.completed (hp : p.Fits) :
    ∃ c, String.utf8EncodeChar c = p.read ++ trail c.toNat p.more := by
  have hbelow : ∀ n x, ∃ v, above v n = x := by
    intro n
    induction n with
    | zero => exact fun x => ⟨x, rfl⟩
    | succ n ih =>
      intro x
      obtain ⟨v, hv⟩ := ih (x * 64)
      exact ⟨v, by rw [above, hv]; omega⟩
  -- the least byte that may come next, and anything after it
  obtain ⟨v, hv⟩ := hbelow p.more (p.value * 64 + p.low.toNat % 64)
  have hadm := ((admits_next_iff hp ⟨UInt8.le_refl _, hp.range⟩).2 hv).1
  refine ⟨Char.ofNatAux v (hp.valid v hadm), hp.encoded _ ?_⟩
  exact hadm

theorem trail_ne_nil (v n : Nat) : trail v n ≠ [] := by
  cases n <;> simp [trail]

theorem encodeChar_append_inj {c c' : Char} {r r' : Bytes}
    (h : String.utf8EncodeChar c ++ r = String.utf8EncodeChar c' ++ r') : c = c' ∧ r = r' := by
  have hdecode (c : Char) (r : Bytes) :
      (String.utf8EncodeChar c ++ r).toByteArray.utf8DecodeChar? 0 = some c := by
    rw [List.toByteArray_append]
    exact ByteArray.utf8DecodeChar?_utf8EncodeChar_append
  have hc : c = c' := Option.some.inj ((hdecode c r).symm.trans (h ▸ hdecode c' r'))
  subst hc
  exact ⟨rfl, List.append_cancel_left h⟩

theorem Pending.Fits.not_encoded (hp : p.Fits) (c : Char) :
    ¬ String.utf8EncodeChar c <+: p.read := by
  rintro ⟨r, hr⟩
  obtain ⟨c', hc'⟩ := hp.completed
  rw [← hr, List.append_assoc] at hc'
  have hnil := (encodeChar_append_inj ((List.append_nil _).trans hc')).2
  exact trail_ne_nil _ _ (List.append_eq_nil_iff.1 hnil.symm).2

theorem Pending.Fits.in_range (hp : p.Fits) (h : p.read ++ [b] <+: String.utf8EncodeChar c) :
    p.low ≤ b ∧ b ≤ p.high := by
  have hadm := hp.admits c ((List.prefix_append _ _).trans h)
  rw [hp.encoded c hadm, List.prefix_append_right_inj] at h
  have hb : b = continuation c.toNat p.more := by
    cases hmore : p.more <;> rw [hmore, trail, List.singleton_prefix_cons_iff] at h <;> exact h
  rw [hb]
  exact ⟨hadm.low, hadm.high⟩

theorem toNat_ofNat_of_ascii (h : b < 0x80) : (Char.ofNat b.toNat).toNat = b.toNat := by
  have hlt : b.toNat < 0x80 := UInt8.lt_iff_toNat_lt.1 h
  rw [Char.ofNat, dif_pos (.inl (by omega))]
  rfl

theorem encodeChar_of_ascii_mem (h : b < 0x80) (hb : b ∈ String.utf8EncodeChar c) :
    c = Char.ofNat b.toNat ∧ String.utf8EncodeChar c = [b] := by
  have hlt : b.toNat < 0x80 := UInt8.lt_iff_toNat_lt.1 h
  obtain ⟨hc, henc⟩ | ⟨b', n, hleads, henc⟩ := encodeChar_cases c <;> rw [henc] at hb
  · rw [List.mem_singleton] at hb
    rw [henc, hb, UInt8.toNat_ofNat_of_lt' (show _ < 256 by omega), Char.ofNat_toNat]
    exact ⟨rfl, rfl⟩
  · have htrail : ∀ n, ∀ b' ∈ trail c.toNat n, 0x80 ≤ b' := by
      intro n
      induction n with
      | zero => simpa [trail] using (continuation_range _ _).1
      | succ n ih => simpa [trail] using ⟨(continuation_range _ _).1, ih⟩
    obtain rfl | hb := List.mem_cons.1 hb
    · unfold Leads at hleads
      omega
    · exact absurd h (UInt8.not_lt.2 (htrail n b hb))

theorem encodeChar_ascii (h : b < 0x80) : String.utf8EncodeChar (Char.ofNat b.toNat) = [b] := by
  have hlt : (Char.ofNat b.toNat).toNat < 0x80 := by
    rw [toNat_ofNat_of_ascii h]
    exact UInt8.lt_iff_toNat_lt.1 h
  obtain ⟨-, henc⟩ | ⟨b', n, hleads, -⟩ := encodeChar_cases (Char.ofNat b.toNat)
  · rw [henc, toNat_ofNat_of_ascii h, UInt8.ofNat_toNat]
  · unfold Leads at hleads
    omega

theorem not_prefix_of_no_lead (hb : ¬ b < 0x80) (h : Pending.ofLead? b = none) (c : Char) :
    ¬ [b] <+: String.utf8EncodeChar c := by
  rw [ofLead?_eq_none_iff] at h
  simp only [UInt8.lt_iff_toNat_lt, UInt8.reduceToNat] at hb h
  intro hc
  obtain ⟨hlt, henc⟩ | ⟨b', n, hleads, henc⟩ := encodeChar_cases c <;>
    rw [henc, List.singleton_prefix_cons_iff] at hc
  · rw [hc, UInt8.toNat_ofNat_of_lt' (show _ < 256 by omega)] at hb
    exact hb hlt
  · unfold Leads at hleads
    rw [hc] at h
    omega

/-- Bytes are ill-formed if no character lies within them and none begins with one byte more. -/
theorem illFormed_of_longest (hjunk : junk ≠ [])
    (hbegins : (∃ c, junk <+: String.utf8EncodeChar c) ∨ junk.length = 1)
    (hnone : ∀ c, ¬ String.utf8EncodeChar c <+: junk)
    (hlongest : ∀ b c, [b] <+: rest → ¬ junk ++ [b] <+: String.utf8EncodeChar c) :
    IllFormed junk rest := by
  refine ⟨hjunk, fun c hc => ?_, hbegins, hlongest⟩
  obtain h | ⟨more, hmore⟩ := List.prefix_or_prefix_of_prefix hc (List.prefix_append junk rest)
  · exact hnone c h
  · cases more with
    | nil => exact hnone c (hmore ▸ (List.append_nil junk).symm ▸ List.prefix_refl junk)
    | cons b more =>
      rw [← hmore, List.prefix_append_right_inj] at hc
      refine hlongest b c ((List.prefix_append [b] more).trans hc) ?_
      exact hmore ▸ (List.prefix_append_right_inj junk).2 (List.prefix_append [b] more)

theorem Pending.Fits.illFormed (hp : p.Fits)
    (hrest : ∀ b, [b] <+: rest → ¬ (p.low ≤ b ∧ b ≤ p.high)) : IllFormed p.read rest := by
  obtain ⟨c, hc⟩ := hp.completed
  exact illFormed_of_longest hp.begun (.inl ⟨c, hc ▸ List.prefix_append _ _⟩) hp.not_encoded
    fun b _ hb h => hrest b hb (hp.in_range h)

/-- The bytes of the character that a reader is inside of. -/
def begun (s : Option Pending) : Bytes := s.elim [] Pending.read

theorem decoded_first (b : UInt8) :
    (∀ p ∈ (first b).2, p.Fits) ∧
      ∀ rest out, Decoded (begun (first b).2 ++ rest) out →
        Decoded (b :: rest) ((first b).1 ++ out) := by
  unfold first
  split
  case isTrue h =>
    refine ⟨by simp, fun rest out hout => ?_⟩
    have := Decoded.char (Char.ofNat b.toNat) hout
    rwa [encodeChar_ascii h] at this
  case isFalse h =>
    cases hp : Pending.ofLead? b with
    | some p =>
      refine ⟨by simpa using fits_of_lead hp, fun rest out hout => ?_⟩
      simpa [begun, (ofLead?_cases hp).1] using hout
    | none =>
      have hnone := not_prefix_of_no_lead h hp
      -- no character begins with the byte, so it is ill-formed whatever follows
      have hill (rest : Bytes) : IllFormed [b] rest := by
        refine illFormed_of_longest (by simp) (.inr rfl) (fun c hc => ?_)
          fun b' c _ hc => hnone c ((List.prefix_append _ _).trans hc)
        cases henc : String.utf8EncodeChar c with
        | nil => exact String.utf8EncodeChar_ne_nil henc
        | cons b' more =>
          rw [henc, List.cons_prefix_cons] at hc
          refine hnone c ?_
          rw [henc, hc.1]
          exact List.prefix_append [b] more
      exact ⟨by simp, fun rest out hout => Decoded.ill (hill rest) hout⟩

theorem decoded_next (hp : p.Fits) (b : UInt8) :
    (∀ q ∈ (p.next b).2, q.Fits) ∧
      ∀ rest out, Decoded (begun (p.next b).2 ++ rest) out →
        Decoded (p.read ++ b :: rest) ((p.next b).1 ++ out) := by
  unfold Pending.next
  split
  case isTrue h =>
    rw [Bool.and_eq_true, decide_eq_true_iff, decide_eq_true_iff] at h
    cases hmore : p.more with
    | zero =>
      refine ⟨by simp, fun rest out hout => ?_⟩
      have := Decoded.char (Char.ofNat (p.value * 64 + b.toNat % 64)) hout
      rw [encodeChar_last hp h hmore] at this
      simpa [begun] using this
    | succ n =>
      refine ⟨by simpa using fits_next hp h hmore, fun rest out hout => ?_⟩
      simpa [begun] using hout
  case isFalse h =>
    rw [Bool.and_eq_true, decide_eq_true_iff, decide_eq_true_iff] at h
    refine ⟨(decoded_first b).1, fun rest out hout => ?_⟩
    -- the byte ends what has begun and is read anew, outside of any character
    refine Decoded.ill (hp.illFormed fun b' hb' => ?_) ((decoded_first b).2 rest out hout)
    rwa [List.singleton_prefix_cons_iff.1 hb']

theorem decoded_pieces (s : Option Pending) (hs : ∀ p ∈ s, p.Fits) (bytes : Bytes) :
    Decoded (begun s ++ bytes) (pieces s bytes) := by
  induction bytes generalizing s with
  | nil =>
    cases s with
    | none => exact Decoded.nil
    | some p => exact Decoded.ill ((hs p rfl).illFormed (by simp)) Decoded.nil
  | cons b bytes ih =>
    cases s with
    | none => exact (decoded_first b).2 _ _ (ih _ (decoded_first b).1)
    | some p => exact (decoded_next (hs p rfl) b).2 _ _ (ih _ (decoded_next (hs p rfl) b).1)

theorem IllFormed.eq_of_append {junk' rest' : Bytes} (h : IllFormed junk rest)
    (h' : IllFormed junk' rest') (heq : junk ++ rest = junk' ++ rest') : junk = junk' := by
  have hshorter {a r a' r' : Bytes} (ha : IllFormed a r) (ha' : IllFormed a' r')
      (heq : a ++ r = a' ++ r') (hle : a <+: a') : a = a' := by
    obtain ⟨more, rfl⟩ := hle
    cases more with
    | nil => exact (List.append_nil a).symm
    | cons b more =>
      rw [List.append_assoc, List.append_cancel_left_eq] at heq
      obtain ⟨c, hc⟩ | hlen := ha'.begins
      · refine absurd (((List.prefix_append_right_inj a).2 ?_).trans hc)
          (ha.longest b c (heq ▸ ?_)) <;> exact List.prefix_append [b] _
      · have := List.length_pos_iff.2 ha.nonempty
        simp at hlen
        omega
  obtain hle | hle := List.prefix_or_prefix_of_prefix (List.prefix_append junk rest)
    (heq ▸ List.prefix_append junk' rest')
  · exact hshorter h h' heq hle
  · exact (hshorter h' h heq.symm hle).symm

theorem Decoded.of_char (h : Decoded (String.utf8EncodeChar c ++ rest) out) :
    ∃ out', Decoded rest out' ∧ out = .ok c :: out' := by
  generalize hbytes : String.utf8EncodeChar c ++ rest = bytes at h
  cases h with
  | nil => exact absurd (List.append_eq_nil_iff.1 hbytes).1 String.utf8EncodeChar_ne_nil
  | char c' h =>
    obtain ⟨rfl, rfl⟩ := encodeChar_append_inj hbytes
    exact ⟨_, h, rfl⟩
  | ill hill h => exact absurd (hbytes ▸ List.prefix_append _ _) (hill.unconvertible c)

theorem Decoded.of_ill (h : Decoded (junk ++ rest) out) (hill : IllFormed junk rest) :
    ∃ out', Decoded rest out' ∧ out = .error junk :: out' := by
  generalize hbytes : junk ++ rest = bytes at h
  cases h with
  | nil => exact absurd (List.append_eq_nil_iff.1 hbytes).1 hill.nonempty
  | char c h => exact absurd (hbytes ▸ List.prefix_append _ _) (hill.unconvertible c)
  | ill hill' h =>
    obtain rfl := hill.eq_of_append hill' hbytes
    obtain rfl := List.append_cancel_left hbytes
    exact ⟨_, h, rfl⟩

theorem Decoded.unique {bytes : Bytes} {out' : List Piece} (h : Decoded bytes out)
    (h' : Decoded bytes out') : out = out' := by
  induction h generalizing out' with
  | nil =>
    generalize hbytes : ([] : Bytes) = bytes at h'
    cases h' with
    | nil => rfl
    | char c _ => exact absurd (List.append_eq_nil_iff.1 hbytes.symm).1 String.utf8EncodeChar_ne_nil
    | ill hill _ => exact absurd (List.append_eq_nil_iff.1 hbytes.symm).1 hill.nonempty
  | char c _ ih =>
    obtain ⟨_, hrest, rfl⟩ := h'.of_char
    rw [ih hrest]
  | ill hill _ ih =>
    obtain ⟨_, hrest, rfl⟩ := h'.of_ill hill
    rw [ih hrest]

theorem pieces_eq_iff {bytes : Bytes} : pieces none bytes = out ↔ Decoded bytes out := by
  have hdecoded := decoded_pieces none (by simp) bytes
  exact ⟨fun h => h ▸ hdecoded, fun h => hdecoded.unique h⟩

end

section

variable {b : UInt8} {s t bytes : Bytes} {out out' : List Piece}

/-- A piece as it is shown. -/
def shown : Piece → Char
  | .ok c => c
  | .error _ => replacement

theorem decodeLossy_eq (h : Decoded bytes out) : decodeLossy bytes = out.map shown := by
  rw [decodeLossy, pieces_eq_iff.2 h]
  rfl

theorem decodeLossy_shown (bytes : Bytes) :
    ∃ out, Decoded bytes out ∧ decodeLossy bytes = out.map shown :=
  ⟨_, pieces_eq_iff.1 rfl, rfl⟩

theorem toList_loop_eq (bs : ByteArray) (i : Nat) (r : Bytes) :
    ByteArray.toList.loop bs i r = r.reverse ++ bs.data.toList.drop i := by
  fun_induction ByteArray.toList.loop bs i r with
  | case1 i r h ih =>
    have hi : i < bs.data.toList.length := by simpa using h
    rw [ih, List.drop_eq_getElem_cons hi]
    simp [ByteArray.get!, h]
  | case2 i r h =>
    rw [List.drop_eq_nil_of_le (by simpa using Nat.le_of_not_lt h)]
    simp

theorem encode_eq_flatMap (s : String) : encode s = s.toList.flatMap String.utf8EncodeChar := by
  conv => lhs; rw [encode, ← String.ofList_toList (s := s)]
  rw [String.toUTF8_eq_toByteArray, String.toByteArray_ofList, ByteArray.toList, toList_loop_eq]
  exact List.toList_data_toByteArray

theorem encode_ofList (cs : List Char) :
    encode (String.ofList cs) = cs.flatMap String.utf8EncodeChar := by
  rw [encode_eq_flatMap, String.toList_ofList]

theorem encode_append (s s' : String) : encode (s ++ s') = encode s ++ encode s' := by
  simp [encode_eq_flatMap]

theorem decoded_encode (s : String) : Decoded (encode s) (s.toList.map .ok) := by
  rw [encode_eq_flatMap]
  induction s.toList with
  | nil => exact Decoded.nil
  | cons c cs ih => exact Decoded.char c ih

theorem decodeLossy_encode (s : String) : decodeLossy (encode s) = s.toList := by
  rw [decodeLossy_eq (decoded_encode s), List.map_map]
  exact List.map_id _

theorem Decoded.append_ascii (hb : b < 0x80) (hs : Decoded s out) (ht : Decoded t out') :
    Decoded (s ++ b :: t) (out ++ .ok (Char.ofNat b.toNat) :: out') := by
  induction hs with
  | nil =>
    have := Decoded.char (Char.ofNat b.toNat) ht
    rwa [encodeChar_ascii hb] at this
  | char c _ ih =>
    rw [List.append_assoc]
    exact Decoded.char c ih
  | @ill junk rest _ hill _ ih =>
    rw [List.append_assoc]
    refine Decoded.ill (illFormed_of_longest hill.nonempty hill.begins
      (fun c hc => hill.unconvertible c (hc.trans (List.prefix_append _ _)))
      fun b' c hnext h => ?_) ih
    cases rest with
    | cons x rest => exact hill.longest b' c (by simpa using hnext) h
    | nil =>
      -- The byte that comes next is no part of a longer character.
      obtain rfl := List.singleton_prefix_cons_iff.1 hnext
      have henc := (encodeChar_of_ascii_mem hb (h.subset (by simp))).2
      rw [henc] at h
      exact hill.nonempty (List.length_eq_zero_iff.1 (by simpa using h.length_le))

theorem decodeLossy_append_ascii (h : b < 0x80) (s t : Bytes) :
    decodeLossy (s ++ b :: t) = decodeLossy s ++ Char.ofNat b.toNat :: decodeLossy t := by
  obtain ⟨out, hs, hout⟩ := decodeLossy_shown s
  obtain ⟨out', ht, hout'⟩ := decodeLossy_shown t
  rw [decodeLossy_eq (hs.append_ascii h ht), hout, hout', List.map_append]
  rfl

theorem mem_of_mem_decodeLossy (h : b < 0x80) (hb : Char.ofNat b.toNat ∈ decodeLossy s) :
    b ∈ s := by
  obtain ⟨out, hs, hout⟩ := decodeLossy_shown s
  rw [hout] at hb
  clear hout
  induction hs with
  | nil => simp at hb
  | char c _ ih =>
    obtain hc | hb := List.mem_cons.1 hb
    · have henc : String.utf8EncodeChar c = [b] := (show _ = c from hc) ▸ encodeChar_ascii h
      exact List.mem_append_left _ (henc ▸ List.mem_singleton_self b)
    · exact List.mem_append_right _ (ih hb)
  | ill _ _ ih =>
    obtain hc | hb := List.mem_cons.1 hb
    · have hlt : b.toNat < 0x80 := UInt8.lt_iff_toNat_lt.1 h
      rw [← toNat_ofNat_of_ascii h, hc] at hlt
      exact absurd hlt (show ¬ replacement.toNat < 0x80 by decide)
    · exact List.mem_append_right _ (ih hb)

theorem decodeLossy_eq_nil_iff : decodeLossy s = [] ↔ s = [] := by
  obtain ⟨out, hs, hout⟩ := decodeLossy_shown s
  rw [hout]
  cases hs with
  | nil => simp
  | char c _ => simp [String.utf8EncodeChar_ne_nil]
  | ill hill _ => simp [hill.nonempty]

end

theorem encode_eq_nil_iff {s : String} : encode s = [] ↔ s = "" := by
  rw [← decodeLossy_eq_nil_iff, decodeLossy_encode, String.toList_eq_nil_iff]

theorem mapM_toOption {out : List Piece} {cs : List Char} :
    out.mapM Except.toOption = some cs ↔ out = cs.map .ok := by
  induction out generalizing cs with
  | nil => cases cs <;> simp
  | cons piece out ih =>
    rw [List.mapM_cons]
    cases piece with
    | error junk => cases cs <;> simp [Except.toOption]
    | ok c =>
      simp only [Except.toOption, Option.bind_eq_bind, Option.bind_some, Option.bind_eq_some_iff,
        ih]
      cases cs with
      | nil => simp
      | cons d cs =>
        constructor
        · rintro ⟨_, rfl, heq⟩
          cases heq
          rfl
        · rintro heq
          cases heq
          exact ⟨cs, rfl, rfl⟩

theorem Decoded.eq_flatMap {bytes : Bytes} {cs : List Char} (h : Decoded bytes (cs.map .ok)) :
    bytes = cs.flatMap String.utf8EncodeChar := by
  generalize hout : cs.map Except.ok = out at h
  induction h generalizing cs with
  | nil =>
    rw [List.map_eq_nil_iff.1 hout]
    rfl
  | char c _ ih =>
    obtain ⟨d, rest, rfl, hd, hrest⟩ := List.map_eq_cons_iff.1 hout
    cases hd
    rw [ih hrest, List.flatMap_cons]
  | ill _ _ _ =>
    obtain ⟨d, rest, -, hd, -⟩ := List.map_eq_cons_iff.1 hout
    cases hd

theorem decode?_eq_some_iff {bytes : Bytes} {text : String} :
    decode? bytes = some text ↔ encode text = bytes := by
  rw [decode?, Option.map_eq_some_iff]
  constructor
  · rintro ⟨cs, hcs, rfl⟩
    have hdecoded := pieces_eq_iff.1 (mapM_toOption.1 hcs)
    rw [encode_eq_flatMap, String.toList_ofList, hdecoded.eq_flatMap]
  · rintro rfl
    exact ⟨text.toList, mapM_toOption.2 (pieces_eq_iff.2 (decoded_encode text)),
      String.ofList_toList⟩

end SessionShell.Text.Utf8
