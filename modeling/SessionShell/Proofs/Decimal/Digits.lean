import Mathlib.Data.List.Induction
import Mathlib.Data.Nat.Digits.Defs
import Mathlib.Tactic.SplitIfs
import SessionShell.Decimal.Digits

namespace SessionShell.Decimal

/-- Whether a text is one or more digits, behind a plus or none, that denote a number by their
places: the last digit counts once, the one before it ten times, and so on. -/
def Denotes (s : List Char) (n : Nat) : Prop :=
  ∃ ds, (s = ds ∨ s = '+' :: ds) ∧ ds ≠ [] ∧ (∀ c ∈ ds, c.isDigit) ∧
    Nat.ofDigits 10 (ds.reverse.map digitValue) = n

/-- What is left of a text without a plus in front. -/
def unsigned : List Char → List Char
  | '+' :: ds => ds
  | ds => ds

variable {s : List Char} {limit n : Nat}

theorem ofDigits_eq (ds : List Char) :
    ofDigits ds = Nat.ofDigits 10 (ds.reverse.map digitValue) := by
  induction ds using List.reverseRecOn with
  | nil => rfl
  | append_singleton ds c ih =>
    have hlast : ofDigits (ds ++ [c]) = 10 * ofDigits ds + digitValue c := by
      simp [ofDigits, List.foldl_append]
    rw [hlast, ih, List.reverse_append, List.reverse_singleton, List.singleton_append,
      List.map_cons, Nat.ofDigits_cons, Nat.add_comm]

theorem unsigned_of_digits {ds : List Char} (h : ∀ c ∈ ds, c.isDigit) : unsigned ds = ds := by
  unfold unsigned
  split
  · exact absurd (h '+' List.mem_cons_self) (by decide)
  · rfl

theorem eq_unsigned (s : List Char) : s = unsigned s ∨ s = '+' :: unsigned s := by
  unfold unsigned
  split
  · exact .inr rfl
  · exact .inl rfl

theorem denotes_iff :
    Denotes s n ↔ unsigned s ≠ [] ∧ (∀ c ∈ unsigned s, c.isDigit) ∧ ofDigits (unsigned s) = n := by
  constructor
  · rintro ⟨ds, rfl | rfl, hne, hdigits, hn⟩
    · rw [unsigned_of_digits hdigits, ofDigits_eq]
      exact ⟨hne, hdigits, hn⟩
    · refine ⟨hne, hdigits, ?_⟩
      rw [ofDigits_eq]
      exact hn
  · rintro ⟨hne, hdigits, hn⟩
    rw [ofDigits_eq] at hn
    exact ⟨unsigned s, eq_unsigned s, hne, hdigits, hn⟩

theorem denotes_toDigits (n : Nat) : Denotes (Nat.toDigits 10 n) n := by
  have hdigits : ∀ c ∈ Nat.toDigits 10 n, c.isDigit := fun _ =>
    Nat.isDigit_of_mem_toDigits (by decide) (Nat.le_refl _)
  rw [denotes_iff, unsigned_of_digits hdigits]
  exact ⟨Nat.toDigits_ne_nil, hdigits, Nat.ofDigitChars_ten_toDigits⟩

theorem Denotes.ne_dash (h : Denotes s n) : '-' ∉ s := by
  obtain ⟨ds, hs, -, hdigits, -⟩ := h
  have hds : '-' ∉ ds := fun hmem => absurd (hdigits _ hmem) (by decide)
  rcases hs with rfl | rfl
  · exact hds
  · simp [hds]

theorem below?_eq_some_iff : below? limit s = some n ↔ Denotes s n ∧ n < limit := by
  have hread : below? limit s =
      if (unsigned s).isEmpty || !(unsigned s).all Char.isDigit then none
      else if ofDigits (unsigned s) < limit then some (ofDigits (unsigned s)) else none := rfl
  rw [hread, denotes_iff]
  split_ifs with hbad hlt
  · simp only [Bool.or_eq_true, List.isEmpty_iff, Bool.not_eq_true', List.all_eq_false] at hbad
    refine iff_of_false nofun fun h => ?_
    rcases hbad with hempty | ⟨c, hc, hdigit⟩
    · exact h.1.1 hempty
    · exact hdigit (h.1.2.1 c hc)
  all_goals
    simp only [Bool.or_eq_true, List.isEmpty_iff, Bool.not_eq_true', List.all_eq_false, not_or,
      not_exists, not_and, not_not] at hbad
  · rw [Option.some_inj]
    exact ⟨fun hn => ⟨⟨hbad.1, hbad.2, hn⟩, hn ▸ hlt⟩, fun h => h.1.2.2⟩
  · exact iff_of_false nofun fun h => hlt (h.1.2.2 ▸ h.2)

end SessionShell.Decimal
