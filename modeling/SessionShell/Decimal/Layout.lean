import SessionShell.Decimal.Shortest

namespace SessionShell.Decimal

structure Layout where
  tie : Tie
  /-- Says for a number `0.ddd · 10 ^ n` whether it is written with the point in place. -/
  positional : Int → Bool
  /-- A whole number ends in `.0`. -/
  pointZero : Bool

/-- Always positional, and a whole number has no point. -/
def Layout.plain : Layout := ⟨.up, fun _ => true, false⟩

/-- Positional from `0.00001` up to sixteen whole digits; a whole number ends in `.0`. -/
def Layout.document : Layout := ⟨.even, fun n => -5 < n && n ≤ 16, true⟩

private def zeros (n : Nat) : List Char := List.replicate n '0'

/-- The digits with the point after the first `n` of them, zeros filling the gaps. -/
def placePoint (pointZero : Bool) (ds : List Char) (n : Int) : List Char :=
  if n ≤ 0 then '0' :: '.' :: zeros (-n).toNat ++ ds
  else if ds.length ≤ n.toNat then
    ds ++ zeros (n.toNat - ds.length) ++ (if pointZero then ['.', '0'] else [])
  else ds.take n.toNat ++ '.' :: ds.drop n.toNat

/-- The power of ten always bears its sign, and its digits have no zero in front. -/
def powerOfTen (n : Int) : List Char :=
  'e' :: (if n < 0 then '-' else '+') :: Nat.toDigits 10 n.natAbs

/-- The first digit, a point if more follow, and the power of ten of the first. -/
def scientific (ds : List Char) (n : Int) : List Char :=
  let tail := ds.drop 1
  ds.take 1 ++ (if tail.isEmpty then [] else '.' :: tail) ++ powerOfTen (n - 1)

def Binary64.text (l : Layout) (x : Binary64) : String :=
  let (c, p) := x.shortest l.tie
  let ds := Nat.toDigits 10 c
  let n := ds.length + p
  let body :=
    if x.ordinal = 0 then '0' :: (if l.pointZero then ['.', '0'] else [])
    else if l.positional n then placePoint l.pointZero ds n
    else scientific ds n
  String.ofList (if x.negative then '-' :: body else body)

end SessionShell.Decimal
