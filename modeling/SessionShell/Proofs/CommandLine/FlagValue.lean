import SessionShell.CommandLine.Flag
import SessionShell.Proofs.Decimal.Rounding

namespace SessionShell.CommandLine

open Decimal

variable {s : List Char} {x : Binary64} {q : ℚ}

theorem ofName?_ne_finite : Reading.ofName? s ≠ some (.finite x) := by
  unfold Reading.ofName?
  dsimp only
  split <;> simp

theorem ofNumeral_eq_finite_iff {n : Numeral} :
    Reading.ofNumeral n = .finite x ↔ Binary64.ofNumeral? n = some x := by
  unfold Reading.ofNumeral
  split <;> simp_all

theorem ofChars?_eq_finite_iff :
    Reading.ofChars? s = some (.finite x) ↔
      ∃ n, Numeral.ofChars? s = some n ∧ Binary64.ofNumeral? n = some x := by
  unfold Reading.ofChars?
  cases Numeral.ofChars? s <;> simp [ofName?_ne_finite, ofNumeral_eq_finite_iff]

theorem looksNumeric_of_isNumeral (h : IsNumeral s q) : looksNumeric s = true := by
  obtain @⟨sign, whole, fraction, digits, power, negative, e, hsign, hwhole, hfraction, hdigit,
    -⟩ := h
  have hhead : ∃ c cs, whole ++ (fraction ++ power) = c :: cs ∧ (c.isDigit ∨ c = '.') := by
    cases whole with
    | cons d whole => exact ⟨d, _, rfl, .inl (hwhole d List.mem_cons_self)⟩
    | nil =>
      cases hfraction with
      | none => simp at hdigit
      | point _ => exact ⟨'.', _, rfl, .inr rfl⟩
  obtain ⟨c, cs, hbody, hc⟩ := hhead
  have hunsigned : ∀ c' ∈ (c :: cs).head?, c' ≠ '+' ∧ c' ≠ '-' := by
    rintro _ ⟨⟩
    constructor <;> rintro rfl <;> simp [Char.isDigit] at hc
  rw [looksNumeric, hbody, splitSign_append hsign hunsigned]
  simpa using hc

theorem ofChars_eq_number_iff :
    FlagValue.ofChars s = .number x ↔
      ∃ n, Numeral.ofChars? s = some n ∧ Binary64.ofNumeral? n = some x := by
  rw [← ofChars?_eq_finite_iff]
  constructor
  · intro h
    unfold FlagValue.ofChars at h
    split at h
    · rename_i y hread
      obtain ⟨-, hread⟩ := Option.ite_none_right_eq_some.1 hread
      cases h
      exact hread
    · cases h
  · intro hread
    obtain ⟨n, hn, -⟩ := ofChars?_eq_finite_iff.1 hread
    rw [FlagValue.ofChars, if_pos (looksNumeric_of_isNumeral (isNumeral_of_ofChars? hn)), hread]

theorem ofChars_eq_text (h : ¬∃ x, FlagValue.ofChars s = .number x) :
    FlagValue.ofChars s = .text (String.ofList s) := by
  unfold FlagValue.ofChars at h ⊢
  split
  · rename_i x hread
    exact absurd ⟨x, by rw [hread]⟩ h
  · rfl

theorem exists_number_iff :
    (∃ x, FlagValue.ofChars s = .number x) ↔ ∃ q, IsNumeral s q ∧ |q| < 2 ^ 1024 - 2 ^ 970 := by
  simp only [ofChars_eq_number_iff, isNumeral_iff]
  constructor
  · rintro ⟨x, n, hn, hx⟩
    exact ⟨n.value, ⟨n, hn, rfl⟩, (Binary64.ofNumeral?_spec n).1.1 (by rw [hx]; rfl)⟩
  · rintro ⟨q, ⟨n, hn, rfl⟩, hbound⟩
    obtain ⟨x, hx⟩ := Option.isSome_iff_exists.1 ((Binary64.ofNumeral?_spec n).1.2 hbound)
    exact ⟨x, n, hn, hx⟩

theorem negative_iff_head {n : Numeral} (h : Numeral.ofChars? s = some n) :
    n.negative = true ↔ s.head? = some '-' := by
  have hsign : n.negative = (splitSign s).1 := by
    simp only [Numeral.ofChars?, Option.ite_none_left_eq_some, Option.map_eq_some_iff] at h
    obtain ⟨-, e, -, rfl⟩ := h
    rfl
  rw [hsign]
  unfold splitSign
  split
  · simp
  · simp
  · rename_i hminus _
    cases s with
    | nil => simp
    | cons c s => simpa using fun hc : c = '-' => hminus s (congrArg (· :: s) hc)

theorem nearest_of_number (h : FlagValue.ofChars s = .number x) (hq : IsNumeral s q) :
    x.Nearest q ∧ (x.negative = true ↔ s.head? = some '-') := by
  obtain ⟨n, hn, hx⟩ := ofChars_eq_number_iff.1 h
  obtain ⟨n', hn', rfl⟩ := isNumeral_iff.1 hq
  obtain rfl : n = n' := Option.some_inj.1 (hn.symm.trans hn')
  obtain ⟨hsign, hnearest⟩ := (Binary64.ofNumeral?_spec n).2 x hx
  exact ⟨hnearest, by rw [hsign, negative_iff_head hn]⟩

theorem exists_digit (h : IsNumeral s q) : ∃ c ∈ s, c.isDigit := by
  obtain @⟨sign, whole, fraction, digits, power, negative, e, -, hwhole, hfraction, hdigit, -⟩ := h
  rcases hdigit with hne | hne
  · obtain ⟨c, hc⟩ := List.exists_mem_of_ne_nil _ hne
    exact ⟨c, by simp [hc], hwhole c hc⟩
  · obtain ⟨c, hc⟩ := List.exists_mem_of_ne_nil _ hne
    cases hfraction with
    | none => exact absurd rfl hne
    | point hdigits => exact ⟨c, by simp [hc], hdigits c hc⟩

/-- A flag value is a number if it is a decimal numeral whose exact value is below the halfway point
above the largest binary64 number, and it is then the nearest such number, with the sign that is
written. Any other value is the text as it stands, so also one that has no digit at all, such as the
names of infinity, a sign or a point alone, and a numeral that is too large. -/
theorem ofChars_number_iff_isNumeral (v : String) :
    ((∃ x, FlagValue.ofChars v.toList = .number x) ↔
      ∃ q, IsNumeral v.toList q ∧ |q| < 2 ^ 1024 - 2 ^ 970) ∧
    (∀ x q, FlagValue.ofChars v.toList = .number x → IsNumeral v.toList q →
      x.Nearest q ∧ (x.negative = true ↔ v.toList.head? = some '-')) ∧
    ((∀ q, IsNumeral v.toList q → 2 ^ 1024 - 2 ^ 970 ≤ |q|) →
      FlagValue.ofChars v.toList = .text v) ∧
    ((∀ c ∈ v.toList, ¬c.isDigit) → FlagValue.ofChars v.toList = .text v) := by
  have htext : (∀ q, IsNumeral v.toList q → 2 ^ 1024 - 2 ^ 970 ≤ |q|) →
      FlagValue.ofChars v.toList = .text v := fun hlarge => by
    refine (ofChars_eq_text fun hnumber => ?_).trans (by rw [String.ofList_toList])
    obtain ⟨q, hq, hbound⟩ := exists_number_iff.1 hnumber
    exact absurd hbound (not_lt.2 (hlarge q hq))
  refine ⟨exists_number_iff, fun _ _ => nearest_of_number, htext, fun hnone => htext fun q hq => ?_⟩
  obtain ⟨c, hc, hdigit⟩ := exists_digit hq
  exact absurd hdigit (hnone c hc)

/-- A numeral whose power alone would overflow, one that does, one with a point in front, and a name
of infinity. -/
theorem ofChars_of_odd_numerals :
    (∃ x, FlagValue.ofChars "0e999999999".toList = .number x ∧ x.Nearest 0) ∧
      (∃ x, FlagValue.ofChars "-.5E+1".toList = .number x ∧ x.Nearest (-5) ∧ x.negative = true) ∧
      FlagValue.ofChars "1e309".toList = .text "1e309" ∧
      FlagValue.ofChars "-Infinity".toList = .text "-Infinity" := by
  have hfive : Numeral.value ⟨true, 5, 0⟩ = -5 := by simp [Numeral.value, signed]
  have hzero : Numeral.value ⟨false, 0, 999999999⟩ = 0 := by simp [Numeral.value, signed]
  have hreadZero : IsNumeral "0e999999999".toList 0 := isNumeral_iff.2 ⟨_, by decide, hzero⟩
  have hreadFive : IsNumeral "-.5E+1".toList (-5) := isNumeral_iff.2 ⟨_, by decide, hfive⟩
  have hsmallZero := (Binary64.ofNumeral?_spec ⟨false, 0, 999999999⟩).1.1 (by decide +kernel)
  have hsmallFive := (Binary64.ofNumeral?_spec ⟨true, 5, 0⟩).1.1 (by decide +kernel)
  have hlarge : ∀ q, IsNumeral "1e309".toList q → (2 : ℚ) ^ 1024 - 2 ^ 970 ≤ |q| := by
    intro q hq
    obtain ⟨n, hn, rfl⟩ := isNumeral_iff.1 hq
    obtain rfl : n = ⟨false, 1, 309⟩ := Option.some_inj.1 (hn.symm.trans (by decide))
    exact not_lt.1 fun hsmall =>
      absurd ((Binary64.ofNumeral?_spec ⟨false, 1, 309⟩).1.2 hsmall) (by decide +kernel)
  have hnone : ∀ c ∈ "-Infinity".toList, ¬c.isDigit := by simp
  obtain ⟨hnumber, hnearest, -⟩ := ofChars_number_iff_isNumeral "0e999999999"
  obtain ⟨hnumber', hnearest', -⟩ := ofChars_number_iff_isNumeral "-.5E+1"
  obtain ⟨x, hx⟩ := hnumber.2 ⟨_, hreadZero, hzero ▸ hsmallZero⟩
  obtain ⟨y, hy⟩ := hnumber'.2 ⟨_, hreadFive, hfive ▸ hsmallFive⟩
  obtain ⟨hyNearest, hyNegative⟩ := hnearest' y _ hy hreadFive
  exact ⟨⟨x, hx, (hnearest x _ hx hreadZero).1⟩, ⟨y, hy, hyNearest, hyNegative.2 (by decide)⟩,
    (ofChars_number_iff_isNumeral "1e309").2.2.1 hlarge,
    (ofChars_number_iff_isNumeral "-Infinity").2.2.2 hnone⟩

end SessionShell.CommandLine
