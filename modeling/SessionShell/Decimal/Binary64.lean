import SessionShell.Decimal.Numeral

/-!
The finite numbers of the binary64 format, and rounding to them. A magnitude is numbered by its
position among the finite ones, which is also its bit pattern; that number determines a mantissa and
a shift, and the number stands for `mantissa · 2 ^ shift` units of `2 ^ -1074`.
-/

namespace SessionShell.Decimal

/-- A finite binary64 number; the two zeros differ. -/
structure Binary64 where
  negative : Bool
  ordinal : Nat
  finite : ordinal < 2047 * Nat.pow 2 52
deriving DecidableEq

namespace Binary64

def zero (negative : Bool) : Binary64 := ⟨negative, 0, by decide⟩

def shift (x : Binary64) : Nat := x.ordinal / Nat.pow 2 52 - 1

def mantissa (x : Binary64) : Nat := x.ordinal - x.shift * Nat.pow 2 52

/-- The magnitude, counted in units of `2 ^ -1074`. -/
def units (x : Binary64) : Nat := x.mantissa * Nat.pow 2 x.shift

def toBits (x : Binary64) : Nat := (if x.negative then Nat.pow 2 63 else 0) + x.ordinal

/-- The quotient rounded to a whole number, a half to the even one. -/
def roundDiv (num den : Nat) : Nat :=
  let q := num / den
  if 2 * (num % den) < den || (2 * (num % den) = den && q % 2 = 0) then q else q + 1

/-- The finite number nearest to `± num / den`, or nothing where the magnitude rounds past the
largest one. -/
def ofRatio? (negative : Bool) (num den : Nat) : Option Binary64 :=
  let num := num * Nat.pow 2 1074
  let shift := (num / den).log2 - 52
  let ordinal := shift * Nat.pow 2 52 + roundDiv num (den * Nat.pow 2 shift)
  if h : ordinal < 2047 * Nat.pow 2 52 then some ⟨negative, ordinal, h⟩ else none

/-- Rounds `± coefficient · 10 ^ exponent`. Exponents that decide the result alone are not raised to
a power. -/
def ofDecimal? (negative : Bool) (coefficient : Nat) (exponent : Int) : Option Binary64 :=
  if coefficient = 0 then some (zero negative)
  else if 400 < exponent then none
  else if exponent + coefficient.log2 + 1 < -400 then some (zero negative)
  else ofRatio? negative (coefficient * Nat.pow 10 exponent.toNat)
    (Nat.pow 10 (-exponent).toNat)

def ofNumeral? (n : Numeral) : Option Binary64 := ofDecimal? n.negative n.coefficient n.exponent

end Binary64
end SessionShell.Decimal
