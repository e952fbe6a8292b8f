import SessionShell.Decimal.Binary64

/-!
The shortest decimal that reads back as a given binary64 number. A decimal reads back if it lies
between the two halfway points around the number, ends included where the mantissa is even. The
coarsest power of ten with a multiple in that interval gives the fewest digits, and of its two
multiples next to the number the nearer wins.
-/

namespace SessionShell.Decimal

/-- Which multiple is taken when both are equally near. -/
inductive Tie
  | up
  | even
deriving DecidableEq, Repr

namespace Binary64

/-- The halfway points below and above, in quarters of a unit. -/
def interval (x : Binary64) : Nat × Nat :=
  let below := if x.mantissa = Nat.pow 2 52 && x.shift ≠ 0 then 1 else 2
  ((4 * x.mantissa - below) * Nat.pow 2 x.shift, (4 * x.mantissa + 2) * Nat.pow 2 x.shift)

/-- The multiple of `10 ^ p` nearest to the magnitude among those that read back. -/
def multiple? (x : Binary64) (tie : Tie) (p : Int) : Option Nat :=
  let scale := Nat.pow 10 (-p).toNat
  let step := Nat.pow 10 p.toNat * (4 * Nat.pow 2 1074)
  let value := 4 * x.units * scale
  let (low, high) := x.interval
  let readsBack (c : Nat) : Bool :=
    if x.mantissa % 2 = 0 then low * scale ≤ c * step && c * step ≤ high * scale
    else low * scale < c * step && c * step < high * scale
  let c := value / step
  if readsBack c && readsBack (c + 1) then
    let r := 2 * (value % step)
    let up := step < r || (r = step && (tie = .up || c % 2 = 1))
    some (if up then c + 1 else c)
  else if readsBack c then some c
  else if readsBack (c + 1) then some (c + 1)
  else none

/-- The digits and the power of ten of the shortest decimal; zero is `0 · 10 ^ 0`. -/
def shortest (x : Binary64) (tie : Tie) : Nat × Int :=
  if x.ordinal = 0 then (0, 0)
  else
    ((List.range 660).findSome? fun i : Nat =>
      let p : Int := 310 - i
      (x.multiple? tie p).map (·, p)).getD (0, 0)

end Binary64
end SessionShell.Decimal
