import SessionShell.Decimal.Digits

namespace SessionShell.Decimal

/-- The number `± coefficient · 10 ^ exponent`. -/
structure Numeral where
  negative : Bool
  coefficient : Nat
  exponent : Int
deriving DecidableEq, Repr

/-- Takes one sign off the front; the flag says that it was a minus. -/
def splitSign : List Char → Bool × List Char
  | '-' :: s => (true, s)
  | '+' :: s => (false, s)
  | s => (false, s)

/-- Reads what follows the digits: nothing, or a power of ten with at least one digit. -/
def exponent? : List Char → Option Int
  | [] => some 0
  | e :: s =>
    let (negative, ds) := splitSign s
    if (e = 'e' || e = 'E') && !ds.isEmpty && ds.all Char.isDigit then
      some (if negative then -(ofDigits ds : Int) else ofDigits ds)
    else none

/-- The digits after a point, if one stands in front, and what follows them. -/
def splitFraction : List Char → List Char × List Char
  | '.' :: s => s.span Char.isDigit
  | s => ([], s)

def Numeral.ofChars? (s : List Char) : Option Numeral :=
  let (negative, s) := splitSign s
  let (whole, s) := s.span Char.isDigit
  let (fraction, s) := splitFraction s
  if whole.isEmpty && fraction.isEmpty then none
  else (exponent? s).map fun e => ⟨negative, ofDigits (whole ++ fraction), e - fraction.length⟩

end SessionShell.Decimal
