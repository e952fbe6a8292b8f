import Mathlib.Data.List.TakeWhile
import Mathlib.Data.Rat.Cast.Order
import Mathlib.Tactic.FieldSimp
import Mathlib.Tactic.Ring
import SessionShell.Decimal.Numeral
import SessionShell.Proofs.Decimal.Digits

namespace SessionShell.Decimal

def placeValue (ds : List Char) : Nat := Nat.ofDigits 10 (ds.reverse.map digitValue)

def signed {α : Type} [Neg α] (negative : Bool) (a : α) : α := if negative then -a else a

/-- One sign or none; the flag says that it is a minus. -/
inductive Sign : List Char → (negative : Bool) → Prop
  | none : Sign [] false
  | plus : Sign ['+'] false
  | minus : Sign ['-'] true

/-- Nothing, or a point and digits behind it. -/
inductive Fraction : List Char → (digits : List Char) → Prop
  | none : Fraction [] []
  | point {ds : List Char} (hdigits : ∀ c ∈ ds, c.isDigit) : Fraction ('.' :: ds) ds

/-- Nothing, or a mark and a signed number of at least one digit. -/
inductive Power : List Char → (exponent : Int) → Prop
  | none : Power [] 0
  | marked {mark : Char} {sign ds : List Char} {negative : Bool} (hmark : mark = 'e' ∨ mark = 'E')
    (hsign : Sign sign negative) (hne : ds ≠ []) (hdigits : ∀ c ∈ ds, c.isDigit) :
    Power (mark :: (sign ++ ds)) (signed negative (placeValue ds : Int))

/-- The number that digits before and behind a point and a power of ten denote. -/
def pointValue (whole digits : List Char) (exponent : Int) : ℚ :=
  (placeValue whole + placeValue digits / 10 ^ digits.length) * 10 ^ exponent

/-- Whether a text is a decimal numeral, and of which number. -/
inductive IsNumeral : List Char → ℚ → Prop
  | mk {sign whole fraction digits power : List Char} {negative : Bool} {exponent : Int}
    (hsign : Sign sign negative) (hwhole : ∀ c ∈ whole, c.isDigit)
    (hfraction : Fraction fraction digits) (hdigit : whole ≠ [] ∨ digits ≠ [])
    (hpower : Power power exponent) :
    IsNumeral (sign ++ (whole ++ (fraction ++ power)))
      (signed negative (pointValue whole digits exponent))

/-- The number that a numeral stands for. -/
def Numeral.value (n : Numeral) : ℚ :=
  signed n.negative (n.coefficient * 10 ^ n.exponent)

variable {s sign ds fraction rest : List Char} {negative : Bool} {e : Int} {q : ℚ}

theorem splitSign_append (h : Sign sign negative) (hrest : ∀ c ∈ rest.head?, c ≠ '+' ∧ c ≠ '-') :
    splitSign (sign ++ rest) = (negative, rest) := by
  cases h with
  | none =>
    show splitSign rest = _
    unfold splitSign
    split
    · exact absurd rfl (hrest '-' rfl).2
    · exact absurd rfl (hrest '+' rfl).1
    · rfl
  | plus => rfl
  | minus => rfl

theorem exists_splitSign (s : List Char) :
    ∃ sign, Sign sign (splitSign s).1 ∧ s = sign ++ (splitSign s).2 := by
  unfold splitSign
  split
  · exact ⟨_, .minus, rfl⟩
  · exact ⟨_, .plus, rfl⟩
  · exact ⟨_, .none, rfl⟩

theorem span_digits (h : ∀ c ∈ ds, c.isDigit) (hrest : ∀ c ∈ rest.head?, ¬c.isDigit) :
    (ds ++ rest).span Char.isDigit = (ds, rest) := by
  have hstop : rest.takeWhile Char.isDigit = [] ∧ rest.dropWhile Char.isDigit = rest := by
    cases rest with
    | nil => exact ⟨rfl, rfl⟩
    | cons c rest => simp [hrest c rfl]
  rw [List.span_eq_takeWhile_dropWhile, List.takeWhile_append_of_pos h,
    List.dropWhile_append_of_pos h, hstop.1, hstop.2, List.append_nil]

theorem exists_span_digits (s : List Char) :
    (∀ c ∈ (s.span Char.isDigit).1, c.isDigit) ∧
      s = (s.span Char.isDigit).1 ++ (s.span Char.isDigit).2 := by
  rw [List.span_eq_takeWhile_dropWhile]
  exact ⟨fun c => List.mem_takeWhile_imp, List.takeWhile_append_dropWhile.symm⟩

theorem splitFraction_append (h : Fraction fraction ds)
    (hrest : ∀ c ∈ rest.head?, ¬c.isDigit ∧ c ≠ '.') :
    splitFraction (fraction ++ rest) = (ds, rest) := by
  cases h with
  | none =>
    show splitFraction rest = _
    unfold splitFraction
    split
    · exact absurd rfl (hrest '.' rfl).2
    · rfl
  | point hdigits => exact span_digits hdigits fun c hc => (hrest c hc).1

theorem exists_splitFraction (s : List Char) :
    ∃ fraction, Fraction fraction (splitFraction s).1 ∧ s = fraction ++ (splitFraction s).2 := by
  unfold splitFraction
  split
  · rename_i rest
    obtain ⟨hdigits, hrest⟩ := exists_span_digits rest
    exact ⟨_, .point hdigits, congrArg _ hrest⟩
  · exact ⟨_, .none, rfl⟩

theorem exponent?_of_power (h : Power s e) : exponent? s = some e := by
  cases h with
  | none => rfl
  | @marked mark sign ds negative hmark hsign hne hdigits =>
    have hsplit : splitSign (sign ++ ds) = (negative, ds) := by
      refine splitSign_append hsign fun c hc => ?_
      have hdigit := hdigits c (List.mem_of_mem_head? hc)
      constructor <;> rintro rfl <;> exact absurd hdigit (by decide)
    simp only [exponent?, hsplit]
    rw [if_pos (by simpa [hne] using ⟨hmark, hdigits⟩), placeValue, ← ofDigits_eq]
    rfl

theorem power_of_exponent? (h : exponent? s = some e) : Power s e := by
  cases s with
  | nil =>
    cases h
    exact .none
  | cons mark s =>
    obtain ⟨sign, hsign, hs⟩ := exists_splitSign s
    simp only [exponent?, Option.ite_none_right_eq_some, Bool.and_eq_true, Bool.or_eq_true,
      decide_eq_true_eq, Bool.not_eq_true', List.isEmpty_eq_false_iff, List.all_eq_true,
      Option.some_inj] at h
    obtain ⟨⟨⟨hmark, hne⟩, hdigits⟩, rfl⟩ := h
    have hpower := Power.marked hmark hsign hne hdigits
    rw [← hs, placeValue, ← ofDigits_eq] at hpower
    exact hpower

theorem Power.head (h : Power s e) : ∀ c ∈ s.head?, c = 'e' ∨ c = 'E' := by
  cases h with
  | none => nofun
  | marked hmark =>
    intro c hc
    cases hc
    exact hmark

theorem ofDigits_append (whole digits : List Char) :
    ofDigits (whole ++ digits) = placeValue whole * 10 ^ digits.length + placeValue digits := by
  rw [ofDigits_eq, List.reverse_append, List.map_append, Nat.ofDigits_append, placeValue,
    placeValue]
  simp only [List.length_map, List.length_reverse]
  ring

theorem value_mk (negative : Bool) (whole digits : List Char) (e : Int) :
    Numeral.value ⟨negative, ofDigits (whole ++ digits), e - digits.length⟩ =
      signed negative (pointValue whole digits e) := by
  have hten : (10 : ℚ) ^ digits.length ≠ 0 := by positivity
  have hpower : (10 : ℚ) ^ (e - digits.length) = 10 ^ e / 10 ^ digits.length := by
    rw [zpow_sub₀ (by norm_num), zpow_natCast]
  rw [Numeral.value, pointValue, ofDigits_append, hpower]
  push_cast
  congr 1
  field_simp

theorem ofChars?_of_isNumeral (h : IsNumeral s q) :
    ∃ n, Numeral.ofChars? s = some n ∧ n.value = q := by
  obtain @⟨sign, whole, fraction, digits, power, negative, e, hsign, hwhole, hfraction, hdigit,
    hpower⟩ := h
  -- each part ends where the next one begins, since that begins with a character of another kind
  have hpowerHead : ∀ c ∈ power.head?, ¬c.isDigit ∧ c ≠ '.' := fun c hc => by
    rcases hpower.head c hc with rfl | rfl <;> decide
  have hfractionHead : ∀ c ∈ (fraction ++ power).head?, ¬c.isDigit := by
    cases hfraction with
    | none => exact fun c hc => (hpowerHead c hc).1
    | point _ =>
      intro c hc
      cases hc
      decide
  have hhead : ∀ c ∈ (whole ++ (fraction ++ power)).head?, c ≠ '+' ∧ c ≠ '-' := by
    intro c hc
    cases whole with
    | cons d whole =>
      have hdigit : c.isDigit := by
        cases hc
        exact hwhole _ List.mem_cons_self
      constructor <;> rintro rfl <;> exact absurd hdigit (by decide)
    | nil =>
      cases hfraction with
      | none => simp at hdigit
      | point _ =>
        cases hc
        decide
  have hempty : (whole.isEmpty && digits.isEmpty) = false := by
    simpa [Classical.or_iff_not_imp_left] using hdigit
  refine ⟨⟨negative, ofDigits (whole ++ digits), e - digits.length⟩, ?_, value_mk ..⟩
  simp only [Numeral.ofChars?, splitSign_append hsign hhead, span_digits hwhole hfractionHead,
    splitFraction_append hfraction hpowerHead, hempty, exponent?_of_power hpower]
  rfl

theorem isNumeral_of_ofChars? {n : Numeral} (h : Numeral.ofChars? s = some n) :
    IsNumeral s n.value := by
  obtain ⟨sign, hsign, hs⟩ := exists_splitSign s
  obtain ⟨hwhole, hrest⟩ := exists_span_digits (splitSign s).2
  obtain ⟨fraction, hfraction, hpower⟩ := exists_splitFraction ((splitSign s).2.span Char.isDigit).2
  simp only [Numeral.ofChars?, Option.ite_none_left_eq_some, Bool.and_eq_true, List.isEmpty_iff,
    Option.map_eq_some_iff] at h
  obtain ⟨hdigit, e, he, rfl⟩ := h
  rw [value_mk]
  have hnumeral :=
    IsNumeral.mk hsign hwhole hfraction (by rwa [← not_and_or]) (power_of_exponent? he)
  rwa [← hpower, ← hrest, ← hs] at hnumeral

theorem isNumeral_iff : IsNumeral s q ↔ ∃ n, Numeral.ofChars? s = some n ∧ n.value = q := by
  refine ⟨ofChars?_of_isNumeral, ?_⟩
  rintro ⟨n, hn, rfl⟩
  exact isNumeral_of_ofChars? hn

end SessionShell.Decimal
