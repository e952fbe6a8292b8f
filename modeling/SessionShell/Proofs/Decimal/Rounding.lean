import Mathlib.Algebra.Order.Field.Basic
import Mathlib.Data.Rat.Cast.Order
import Mathlib.Tactic.FieldSimp
import Mathlib.Tactic.Linarith
import Mathlib.Tactic.Ring
import SessionShell.Decimal.Binary64
import SessionShell.Proofs.Decimal.Numeral

namespace SessionShell.Decimal.Binary64

def value (x : Binary64) : ℚ := signed x.negative (x.units / 2 ^ 1074)

/-- No finite number is nearer, and of two that are equally near the even one is taken. -/
structure Nearest (x : Binary64) (q : ℚ) : Prop where
  closest : ∀ y : Binary64, |x.value - q| ≤ |y.value - q|
  even : ∀ y : Binary64, |y.value - q| = |x.value - q| → y.value ≠ x.value → x.ordinal % 2 = 0

/-- A magnitude in units of `2 ^ -1074`, with the shift of its binade, and rounded to a multiple of
what that shift leaves. -/
structure Fits (shift rounded : Nat) (u : ℚ) : Prop where
  low : shift ≠ 0 → 2 ^ (shift + 52) ≤ u
  high : u < 2 ^ (shift + 53)
  near : |rounded * 2 ^ shift - u| ≤ 2 ^ shift / 2
  even : |rounded * 2 ^ shift - u| = 2 ^ shift / 2 → rounded % 2 = 0

variable {num den shift rounded : Nat} {u q : ℚ} {negative : Bool}

theorem roundDiv_bounds (num : Nat) (hden : 0 < den) :
    2 * num ≤ (2 * roundDiv num den + 1) * den ∧ 2 * roundDiv num den * den ≤ 2 * num + den ∧
      (2 * num = (2 * roundDiv num den + 1) * den ∨ 2 * roundDiv num den * den = 2 * num + den →
        roundDiv num den % 2 = 0) := by
  have hdiv := Nat.div_add_mod num den
  have hmod := Nat.mod_lt num hden
  have hbelow : (2 * (num / den) + 1) * den = 2 * (den * (num / den)) + den := by ring
  have habove : (2 * (num / den + 1) + 1) * den = 2 * (den * (num / den)) + 3 * den := by ring
  have hbelow' : 2 * (num / den) * den = 2 * (den * (num / den)) := by ring
  have habove' : 2 * (num / den + 1) * den = 2 * (den * (num / den)) + 2 * den := by ring
  simp only [roundDiv, Bool.or_eq_true, Bool.and_eq_true, decide_eq_true_eq]
  split
  · rw [hbelow, hbelow']
    omega
  · rw [habove, habove']
    omega

theorem abs_roundDiv_sub (num : Nat) (hden : 0 < den) :
    |(roundDiv num den : ℚ) - num / den| ≤ 1 / 2 ∧
      (|(roundDiv num den : ℚ) - num / den| = 1 / 2 → roundDiv num den % 2 = 0) := by
  obtain ⟨hbelow, habove, heven⟩ := roundDiv_bounds num hden
  have hpos : (0 : ℚ) < den := by exact_mod_cast hden
  have hsub : (roundDiv num den : ℚ) - num / den = (roundDiv num den * den - num) / den := by
    field_simp
  have hbelow' : (2 * num : ℚ) ≤ (2 * roundDiv num den + 1) * den := by exact_mod_cast hbelow
  have habove' : (2 * roundDiv num den * den : ℚ) ≤ 2 * num + den := by exact_mod_cast habove
  rw [hsub, abs_div, abs_of_pos hpos]
  constructor
  · rw [div_le_iff₀ hpos, abs_le]
    constructor <;> linarith
  · rw [div_eq_iff hpos.ne']
    intro htie
    apply heven
    rcases abs_choice ((roundDiv num den : ℚ) * den - num) with h | h <;> rw [h] at htie
    · right
      have htie' : (2 * roundDiv num den * den : ℚ) = 2 * num + den := by linarith
      exact_mod_cast htie'
    · left
      have htie' : (2 * num : ℚ) = (2 * roundDiv num den + 1) * den := by linarith
      exact_mod_cast htie'

/-- The shift of the binade in which `num / den` lies. -/
def shiftOf (num den : Nat) : Nat := (num / den).log2 - 52

theorem fits_roundDiv (num : Nat) (hden : 0 < den) :
    Fits (shiftOf num den) (roundDiv num (den * 2 ^ shiftOf num den)) (num / den) := by
  have hpos : (0 : ℚ) < den := by exact_mod_cast hden
  have hpow : (0 : ℚ) < 2 ^ shiftOf num den := by positivity
  have hscaled : (num / den : ℚ) =
      num / (den * 2 ^ shiftOf num den : Nat) * 2 ^ shiftOf num den := by
    push_cast
    field_simp
  have hscale : 0 < den * 2 ^ shiftOf num den := by positivity
  obtain ⟨hnear, heven⟩ := abs_roundDiv_sub num hscale
  -- the quotient lies in its binade, and the rounded one differs by half a unit at most
  constructor
  · intro hshift
    have hlog : shiftOf num den + 52 = (num / den).log2 := by
      unfold shiftOf at hshift ⊢
      omega
    have hne : num / den ≠ 0 := by
      intro h
      rw [h] at hlog
      simp at hlog
    rw [le_div_iff₀ hpos, hlog]
    have hle : 2 ^ (num / den).log2 * den ≤ num :=
      (Nat.mul_le_mul_right den (Nat.log2_self_le hne)).trans (Nat.div_mul_le_self num den)
    exact_mod_cast hle
  · have hlog : (num / den).log2 + 1 ≤ shiftOf num den + 53 := by
      unfold shiftOf
      omega
    rw [div_lt_iff₀ hpos]
    have hlt : num < 2 ^ (shiftOf num den + 53) * den := by
      rw [← Nat.div_lt_iff_lt_mul hden]
      exact Nat.lt_log2_self.trans_le (Nat.pow_le_pow_right (by decide) hlog)
    exact_mod_cast hlt
  · rw [hscaled, ← sub_mul, abs_mul, abs_of_pos hpow]
    nlinarith
  · rw [hscaled, ← sub_mul, abs_mul, abs_of_pos hpow]
    intro htie
    refine heven (mul_right_cancel₀ hpow.ne' (htie.trans ?_))
    ring

section

variable (h : Fits shift rounded u)
include h

theorem Fits.rounded_le : rounded ≤ 2 ^ 53 := by
  have hpow : (0 : ℚ) < 2 ^ shift := by positivity
  have hhigh := h.high
  have hnear := (abs_le.1 h.near).2
  rw [pow_add] at hhigh
  have hlt : (rounded : ℚ) < (2 ^ 53 + 1 : Nat) := by
    refine lt_of_mul_lt_mul_right ?_ hpow.le
    push_cast
    linarith
  exact Nat.lt_succ_iff.1 (by exact_mod_cast hlt)

theorem Fits.le_rounded (hshift : shift ≠ 0) : 2 ^ 52 ≤ rounded := by
  have hpow : (0 : ℚ) < 2 ^ shift := by positivity
  have hlow := h.low hshift
  have hnear := (abs_le.1 h.near).1
  rw [pow_add] at hlow
  have hlt : ((2 ^ 52 : Nat) : ℚ) < (rounded + 1 : Nat) := by
    refine lt_of_mul_lt_mul_right ?_ hpow.le
    push_cast
    linarith
  exact Nat.lt_succ_iff.1 (by exact_mod_cast hlt)

theorem Fits.nearest_multiple (k : Nat) :
    |rounded * 2 ^ shift - u| ≤ |k * 2 ^ shift - u| ∧
      (|k * 2 ^ shift - u| = |rounded * 2 ^ shift - u| → k = rounded ∨ rounded % 2 = 0) := by
  have hpow : (0 : ℚ) < 2 ^ shift := by positivity
  by_cases hk : k = rounded
  · subst hk
    exact ⟨le_rfl, fun _ => .inl rfl⟩
  -- two different multiples are apart by a whole step
  have hstep : (2 ^ shift : ℚ) ≤ |(k : ℚ) * 2 ^ shift - rounded * 2 ^ shift| := by
    have hone : (1 : ℚ) ≤ |(k : ℚ) - rounded| := by
      have hint : (1 : Int) ≤ |(k : Int) - rounded| :=
        Int.one_le_abs (sub_ne_zero.2 (by exact_mod_cast hk))
      exact_mod_cast hint
    rw [← sub_mul, abs_mul, abs_of_pos hpow]
    nlinarith
  have htriangle := abs_sub_le ((k : ℚ) * 2 ^ shift) u (rounded * 2 ^ shift)
  rw [abs_sub_comm u] at htriangle
  have hnear := h.near
  refine ⟨by linarith, fun htie => .inr (h.even ?_)⟩
  linarith

theorem Fits.rounded_lt_iff (hshift : shift = 2045) :
    rounded < 2 ^ 53 ↔ u < (2 ^ 54 - 1) * 2 ^ 2044 := by
  have hstep : (2 : ℚ) ^ shift = 2 * 2 ^ 2044 := by rw [hshift, pow_succ' _ 2044]
  have hpos : (0 : ℚ) < 2 ^ 2044 := by positivity
  obtain ⟨-, -, hnear, heven⟩ := h
  rw [hstep] at hnear heven
  generalize (2 : ℚ) ^ 2044 = half at *
  rw [mul_div_cancel_left₀ _ (by norm_num)] at hnear heven
  have hdouble : (0 : ℚ) < 2 * half := by linarith
  constructor
  · intro hlt
    have hle : (rounded : ℚ) ≤ 2 ^ 53 - 1 := by
      have hcast : ((rounded + 1 : Nat) : ℚ) ≤ (2 ^ 53 : Nat) := Nat.cast_le.2 hlt
      push_cast at hcast
      linarith
    have hmul := mul_le_mul_of_nonneg_right hle hdouble.le
    have hbound := (abs_le.1 hnear).1
    refine lt_of_le_of_ne (by linarith) fun heq => ?_
    -- just at the halfway point the odd number below it would have been taken
    have hge : (2 ^ 53 - 1 : ℚ) ≤ rounded := le_of_mul_le_mul_right (by linarith) hdouble
    have hodd : ((rounded + 1 : Nat) : ℚ) = (2 ^ 53 : Nat) := by
      push_cast
      linarith
    have hbelow : (2 ^ 53 - 1) * (2 * half) - (2 ^ 54 - 1) * half = -half := by ring
    have htie : |(rounded : ℚ) * (2 * half) - u| = half := by
      rw [le_antisymm hle hge, heq, hbelow, abs_neg, abs_of_pos hpos]
    have hlast : rounded + 1 = 2 ^ 53 := by exact_mod_cast hodd
    have := heven htie
    omega
  · intro hlt
    by_contra hge
    have hcast : ((2 ^ 53 : Nat) : ℚ) ≤ rounded := Nat.cast_le.2 (not_lt.1 hge)
    have hmul := mul_le_mul_of_nonneg_right hcast hdouble.le
    have hbound := (abs_le.1 hnear).2
    push_cast at hmul
    linarith

/-- The numbering of the finite numbers stops short of the halfway point above the largest one. -/
theorem Fits.finite_iff :
    shift * 2 ^ 52 + rounded < 2047 * 2 ^ 52 ↔ u < (2 ^ 54 - 1) * 2 ^ 2044 := by
  have hle := h.rounded_le
  have hlow := h.le_rounded
  have hpos : (0 : ℚ) < 2 ^ 2044 := by positivity
  rcases lt_trichotomy shift 2045 with hshift | hshift | hshift
  · have hpow : (2 : ℚ) ^ (shift + 53) ≤ 2 ^ (53 + 2044) :=
      pow_le_pow_right₀ (by norm_num) (by omega)
    have hu := h.high.trans_le hpow
    rw [pow_add] at hu
    refine iff_of_true (by omega) ?_
    generalize (2 : ℚ) ^ 2044 = half at *
    linarith
  · rw [← h.rounded_lt_iff hshift, hshift]
    omega
  · have hpow : (2 : ℚ) ^ (54 + 2044) ≤ 2 ^ (shift + 52) :=
      pow_le_pow_right₀ (by norm_num) (by omega)
    have hu := hpow.trans (h.low (by omega))
    rw [pow_add] at hu
    have hcarry := hlow (by omega)
    refine iff_of_false (by omega) ?_
    generalize (2 : ℚ) ^ 2044 = half at *
    linarith

end

/-- A number is a mantissa of at most 53 bits, all of them in use above the lowest binade. -/
theorem mantissa_lt (x : Binary64) : x.mantissa < 2 ^ 53 := by
  unfold mantissa shift
  rw [show Nat.pow 2 52 = 4503599627370496 from rfl]
  omega

theorem units_eq {x : Binary64} (hx : x.ordinal = shift * 2 ^ 52 + rounded) (hle : rounded ≤ 2 ^ 53)
    (hlow : shift ≠ 0 → 2 ^ 52 ≤ rounded) : x.units = rounded * 2 ^ shift := by
  rcases hle.lt_or_eq with hlt | rfl
  · have hshift : x.shift = shift := by
      unfold Binary64.shift
      rw [show Nat.pow 2 52 = 4503599627370496 from rfl]
      omega
    have hmantissa : x.mantissa = rounded := by
      unfold mantissa
      rw [hshift, show Nat.pow 2 52 = 4503599627370496 from rfl]
      omega
    rw [units, hshift, hmantissa]
    rfl
  · -- the carry has led into the next binade
    have hshift : x.shift = shift + 1 := by
      unfold Binary64.shift
      rw [show Nat.pow 2 52 = 4503599627370496 from rfl]
      omega
    have hmantissa : x.mantissa = 2 ^ 52 := by
      unfold mantissa
      rw [hshift, show Nat.pow 2 52 = 4503599627370496 from rfl]
      omega
    rw [units, hshift, hmantissa]
    show 2 ^ 52 * 2 ^ (shift + 1) = 2 ^ 53 * 2 ^ shift
    ring

theorem units_cast (x : Binary64) : (x.units : ℚ) = x.mantissa * 2 ^ x.shift := by
  rw [units, Nat.pow_eq]
  push_cast
  rfl

/-- No finite number is nearer than the rounded magnitude: in its binade and above they are
multiples too, and below they are less than the multiple at which the binade begins. -/
theorem Fits.closest (h : Fits shift rounded u) (y : Binary64) :
    |rounded * 2 ^ shift - u| ≤ |y.units - u| ∧
      (|y.units - u| = |rounded * 2 ^ shift - u| →
        (y.units : ℚ) = rounded * 2 ^ shift ∨ rounded % 2 = 0) := by
  by_cases hy : shift ≤ y.shift
  · -- a number in a higher binade is a multiple, too
    have hunits : (y.units : ℚ) = (y.mantissa * 2 ^ (y.shift - shift) : Nat) * 2 ^ shift := by
      rw [units_cast]
      push_cast
      rw [mul_assoc, ← pow_add, Nat.sub_add_cancel hy]
    obtain ⟨hle, heven⟩ := h.nearest_multiple (y.mantissa * 2 ^ (y.shift - shift))
    rw [hunits]
    exact ⟨hle, fun htie => (heven htie).imp (fun hk => by rw [hk]) id⟩
  · -- one in a lower binade lies below the multiple at which this one begins
    obtain ⟨hle, -⟩ := h.nearest_multiple (2 ^ 52)
    have hlow := h.low (by omega)
    have hbegin : ((2 ^ 52 : Nat) : ℚ) * 2 ^ shift = 2 ^ (shift + 52) := by
      rw [Nat.cast_pow, Nat.cast_ofNat, pow_add, mul_comm]
    have hbelow : (y.units : ℚ) < 2 ^ (shift + 52) := by
      have hmantissa : (y.mantissa : ℚ) < 2 ^ 53 := by exact_mod_cast y.mantissa_lt
      calc (y.units : ℚ) = y.mantissa * 2 ^ y.shift := units_cast y
        _ < 2 ^ 53 * 2 ^ y.shift := mul_lt_mul_of_pos_right hmantissa (by positivity)
        _ = 2 ^ (y.shift + 53) := by rw [pow_add, mul_comm]
        _ ≤ 2 ^ (shift + 52) := pow_le_pow_right₀ (by norm_num) (by omega)
    rw [hbegin] at hle
    have hlt : |rounded * 2 ^ shift - u| < |(y.units : ℚ) - u| := by
      refine hle.trans_lt ?_
      rw [abs_of_nonpos (by linarith), abs_of_nonpos (by linarith)]
      linarith
    exact ⟨hlt.le, fun htie => absurd htie hlt.ne'⟩

theorem eq_zero_of_abs {a q : ℚ} (h : |-a - q| = |a - q|) : a = 0 ∨ q = 0 := by
  rcases abs_eq_abs.1 h with heq | heq
  · left
    linarith
  · right
    linarith

theorem abs_signed (negative : Bool) (q : ℚ) : |signed negative q| = |q| := by
  cases negative
  · rfl
  · exact abs_neg q

theorem signed_sub (negative : Bool) (q r : ℚ) :
    signed negative (q - r) = signed negative q - signed negative r := by
  cases negative
  · rfl
  · exact (neg_sub_neg q r).symm ▸ neg_sub q r

theorem abs_value (x : Binary64) : |x.value| = x.units / 2 ^ 1074 := by
  have hunits : (0 : ℚ) ≤ x.units / 2 ^ 1074 := by positivity
  rw [value, abs_signed, abs_of_nonneg hunits]

theorem Fits.nearest {x : Binary64} (h : Fits shift rounded u) (hu : 0 ≤ u)
    (hx : x.ordinal = shift * 2 ^ 52 + rounded) :
    x.Nearest (signed x.negative (u / 2 ^ 1074)) := by
  have hunits : (x.units : ℚ) = rounded * 2 ^ shift := by
    exact_mod_cast units_eq hx h.rounded_le h.le_rounded
  have hscale : (0 : ℚ) < 2 ^ 1074 := by positivity
  have hxq : |x.value - signed x.negative (u / 2 ^ 1074)| = |x.units - u| / 2 ^ 1074 := by
    rw [value, ← signed_sub, abs_signed, ← sub_div, abs_div, abs_of_pos hscale]
  have hyq (y : Binary64) :
      |y.units - u| / 2 ^ 1074 ≤ |y.value - signed x.negative (u / 2 ^ 1074)| := by
    have habs := abs_abs_sub_abs_le_abs_sub y.value (signed x.negative (u / 2 ^ 1074))
    rw [abs_value, abs_signed, abs_div, abs_of_nonneg hu, abs_of_pos hscale, ← sub_div, abs_div,
      abs_of_pos hscale] at habs
    exact habs
  constructor
  · intro y
    refine le_trans ?_ (hyq y)
    rw [hxq, hunits]
    exact div_le_div_of_nonneg_right (h.closest y).1 hscale.le
  · intro y htie hne
    have hle : |(y.units : ℚ) - u| ≤ |x.units - u| := by
      have hdiv := hyq y
      rwa [htie, hxq, div_le_div_iff_of_pos_right hscale] at hdiv
    rw [hunits] at hle
    obtain ⟨hge, heven⟩ := h.closest y
    rcases heven (le_antisymm hle hge) with hsame | hrounded
    · -- numbers of the same size that are equally near lie on both sides of zero
      have hopposite : y.value = -x.value := by
        rw [← hunits] at hsame
        have hyx : |y.value| = |x.value| := by rw [abs_value, abs_value, hsame]
        exact (abs_eq_abs.1 hyx).resolve_left hne
      rw [hopposite] at htie
      have hzero : u = 0 := by
        rcases eq_zero_of_abs htie with hx | hq
        · exact absurd (by rw [hopposite, hx, neg_zero]) hne
        · have hdiv := congrArg abs hq
          rw [abs_signed, abs_zero, abs_eq_zero] at hdiv
          exact (div_eq_zero_iff.1 hdiv).resolve_right hscale.ne'
      have hrounded := (h.nearest_multiple 0).1
      simp only [hzero, Nat.cast_zero, zero_mul, sub_zero, abs_zero, abs_nonpos_iff, mul_eq_zero,
        pow_eq_zero_iff', OfNat.ofNat_ne_zero, false_and, or_false, Nat.cast_eq_zero] at hrounded
      omega
    · omega

/-- A ratio of units, rounded. -/
def roundUnits (negative : Bool) (num den : Nat) : Option Binary64 :=
  let ordinal := shiftOf num den * 2 ^ 52 + roundDiv num (den * 2 ^ shiftOf num den)
  if h : ordinal < 2047 * 2 ^ 52 then some ⟨negative, ordinal, h⟩ else none

theorem cast_units (num den scale : Nat) :
    ((num * Nat.pow 2 scale : Nat) / den : ℚ) = num / den * 2 ^ scale := by
  rw [Nat.pow_eq, div_mul_eq_mul_div]
  push_cast
  rfl

theorem exists_scale (negative : Bool) (num den : Nat) : ∃ scale, scale = 1074 ∧
    ofRatio? negative num den = roundUnits negative (num * Nat.pow 2 scale) den :=
  ⟨1074, rfl, rfl⟩

theorem roundUnits_spec (negative : Bool) (hden : 0 < den) (hu : (num / den : ℚ) = u) :
    ((roundUnits negative num den).isSome ↔ u < (2 ^ 54 - 1) * 2 ^ 2044) ∧
      ∀ x, roundUnits negative num den = some x →
        x.negative = negative ∧ x.Nearest (signed negative (u / 2 ^ 1074)) := by
  have hfits := fits_roundDiv num hden
  have hnonneg : 0 ≤ u := hu ▸ by positivity
  rw [hu] at hfits
  rw [← hfits.finite_iff]
  unfold roundUnits
  dsimp only
  split
  · rename_i hfinite
    refine ⟨iff_of_true rfl hfinite, fun x hx => ?_⟩
    cases hx
    exact ⟨rfl, hfits.nearest (x := ⟨negative, _, hfinite⟩) hnonneg rfl⟩
  · rename_i hinfinite
    exact ⟨iff_of_false nofun hinfinite, nofun⟩

theorem ofRatio?_spec (negative : Bool) (num : Nat) (hden : 0 < den) :
    ((ofRatio? negative num den).isSome ↔ (num / den : ℚ) < 2 ^ 1024 - 2 ^ 970) ∧
      ∀ x, ofRatio? negative num den = some x →
        x.negative = negative ∧ x.Nearest (signed negative (num / den)) := by
  have hscale : (0 : ℚ) < 2 ^ 1074 := by positivity
  have hlimit : ((2 : ℚ) ^ 54 - 1) * 2 ^ 2044 = (2 ^ 1024 - 2 ^ 970) * 2 ^ 1074 := by
    rw [sub_mul, sub_mul, ← pow_add, ← pow_add, ← pow_add, one_mul]
  obtain ⟨scale, hunits, heq⟩ := exists_scale negative num den
  obtain ⟨hsome, hnearest⟩ := roundUnits_spec negative hden (cast_units num den scale)
  rw [← heq, hunits, hlimit, mul_lt_mul_iff_of_pos_right hscale] at hsome
  rw [← heq, hunits, mul_div_cancel_right₀ _ hscale.ne'] at hnearest
  exact ⟨hsome, hnearest⟩

theorem ratio_eq (coefficient : Nat) (exponent : Int) :
    ((coefficient * 10 ^ exponent.toNat : Nat) / (10 ^ (-exponent).toNat : Nat) : ℚ) =
      coefficient * 10 ^ exponent := by
  push_cast
  rcases Int.le_total 0 exponent with h | h
  · obtain ⟨n, rfl⟩ := Int.eq_ofNat_of_zero_le h
    simp
  · obtain ⟨n, hn⟩ := Int.exists_eq_neg_ofNat h
    subst hn
    simp [zpow_neg, div_eq_mul_inv]

theorem ofRatio?_of_half (negative : Bool) (hden : 0 < den)
    (h : (num / den * 2 ^ 1074 : ℚ) < 1 / 2) :
    ofRatio? negative num den = some (zero negative) := by
  obtain ⟨scale, hunits, heq⟩ := exists_scale negative num den
  have hpos : (0 : ℚ) < den := by exact_mod_cast hden
  rw [← hunits, ← cast_units] at h
  rw [heq]
  generalize num * Nat.pow 2 scale = n at h
  have hhalf : 2 * n < den := by
    rw [div_lt_iff₀ hpos] at h
    have hcast : ((2 * n : Nat) : ℚ) < den := by
      push_cast
      linarith
    exact_mod_cast hcast
  have hquotient : n / den = 0 := Nat.div_eq_of_lt (by omega)
  have hremainder : n % den = n := Nat.mod_eq_of_lt (by omega)
  simp [roundUnits, shiftOf, roundDiv, hquotient, hremainder, hhalf, zero]

theorem two_pow_le_ten_pow {m n : Nat} (h : m ≤ 3 * n) : 2 ^ m ≤ 10 ^ n :=
  calc 2 ^ m ≤ 2 ^ (3 * n) := Nat.pow_le_pow_right (by decide) h
    _ = 8 ^ n := Nat.pow_mul 2 3 n
    _ ≤ 10 ^ n := Nat.pow_le_pow_left (by decide) n

theorem ofRatio?_of_small (negative : Bool) {coefficient n : Nat}
    (hsmall : coefficient.log2 + 401 < n) :
    ofRatio? negative coefficient (10 ^ n) = some (zero negative) := by
  refine ofRatio?_of_half negative (by positivity) ?_
  have hcoefficient : (coefficient : ℚ) < 2 ^ (coefficient.log2 + 1) := by
    exact_mod_cast Nat.lt_log2_self
  have hlimit : (2 : ℚ) ^ (coefficient.log2 + 1076) ≤ 10 ^ n := by
    exact_mod_cast two_pow_le_ten_pow (m := coefficient.log2 + 1076) (n := n) (by omega)
  have hscale : (0 : ℚ) < 2 ^ 1075 := by positivity
  push_cast
  rw [div_mul_eq_mul_div, div_lt_div_iff₀ (by positivity) (by norm_num), one_mul]
  calc (coefficient : ℚ) * 2 ^ 1074 * 2 = coefficient * 2 ^ 1075 := by rw [mul_assoc, ← pow_succ]
    _ < 2 ^ (coefficient.log2 + 1) * 2 ^ 1075 := mul_lt_mul_of_pos_right hcoefficient hscale
    _ = 2 ^ (coefficient.log2 + 1076) := by rw [← pow_add]
    _ ≤ 10 ^ n := hlimit

theorem ofRatio?_of_large (negative : Bool) {coefficient n : Nat} (hne : coefficient ≠ 0)
    (hlarge : 400 < n) : ofRatio? negative (coefficient * 10 ^ n) 1 = none := by
  have hlimit : (2 : ℚ) ^ 1024 ≤ 10 ^ n := by
    exact_mod_cast two_pow_le_ten_pow (m := 1024) (n := n) (by omega)
  have hone : (1 : ℚ) ≤ coefficient := by exact_mod_cast Nat.one_le_iff_ne_zero.2 hne
  have hpos : (0 : ℚ) < 2 ^ 970 := by positivity
  have hbig : (2 : ℚ) ^ 1024 ≤ coefficient * 10 ^ n :=
    hlimit.trans (le_mul_of_one_le_left (by positivity) hone)
  rw [← Option.not_isSome_iff_eq_none, (ofRatio?_spec negative _ one_pos).1]
  push_cast
  rw [div_one]
  exact not_lt.2 ((sub_le_self _ hpos.le).trans hbig)

theorem ofDecimal?_eq (negative : Bool) (coefficient : Nat) (exponent : Int) :
    ofDecimal? negative coefficient exponent =
      ofRatio? negative (coefficient * 10 ^ exponent.toNat) (10 ^ (-exponent).toNat) := by
  unfold ofDecimal?
  split
  · rename_i hzero
    rw [ofRatio?_of_half negative (by positivity)]
    simp [hzero]
  split
  · rename_i hne hlarge
    have hdown : (-exponent).toNat = 0 := by omega
    rw [hdown, pow_zero, ofRatio?_of_large negative hne (by omega)]
  split
  · rename_i hne _ hsmall
    have hup : exponent.toNat = 0 := by omega
    rw [hup, pow_zero, mul_one, ofRatio?_of_small negative (by omega)]
  · rfl

/-- A numeral is rounded to the nearest finite number, with its sign, unless it is too large. -/
theorem ofNumeral?_spec (n : Numeral) :
    ((ofNumeral? n).isSome ↔ |n.value| < 2 ^ 1024 - 2 ^ 970) ∧
      ∀ x, ofNumeral? n = some x → x.negative = n.negative ∧ x.Nearest n.value := by
  have hden : 0 < 10 ^ (-n.exponent).toNat := by positivity
  have hspec := ofRatio?_spec n.negative (n.coefficient * 10 ^ n.exponent.toNat) hden
  rw [ratio_eq, ← ofDecimal?_eq] at hspec
  have hnonneg : (0 : ℚ) ≤ n.coefficient * 10 ^ n.exponent :=
    mul_nonneg (Nat.cast_nonneg _) (zpow_nonneg (by norm_num) _)
  have habs : |n.value| = n.coefficient * 10 ^ n.exponent := by
    rw [Numeral.value, abs_signed, abs_of_nonneg hnonneg]
  rw [habs]
  exact hspec

end SessionShell.Decimal.Binary64
