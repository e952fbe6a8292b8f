namespace SessionShell

structure Instant where
  millis : Int64
deriving DecidableEq, Inhabited

namespace Instant

def ofMillis (n : Int) : Instant := ⟨Int64.ofInt n⟩

structure Date where
  year : Int
  month : Nat
  day : Nat

/-- The date of a day counted from the start of 1970. Years begin in March here, so that a leap day
ends one. -/
def Date.ofDays (days : Int) : Date :=
  let z := days + 719468
  let era := z / 146097
  let doe := (z % 146097).toNat
  let yoe := (doe - doe / 1460 + doe / 36524 - doe / 146096) / 365
  let doy := doe - (365 * yoe + yoe / 4 - yoe / 100)
  let mp := (5 * doy + 2) / 153
  let month := if mp < 10 then mp + 3 else mp - 9
  let year := yoe + era * 400
  ⟨if month ≤ 2 then year + 1 else year, month, doy - (153 * mp + 2) / 5 + 1⟩

def padded (width n : Nat) : String :=
  let ds := Nat.toDigits 10 n
  String.ofList (List.replicate (width - ds.length) '0' ++ ds)

/-- Four digits; outside the years 0 to 9999 a sign and at least four. -/
def yearText (year : Int) : String :=
  if year < 0 then "-" ++ padded 4 year.natAbs
  else if 9999 < year then "+" ++ padded 4 year.natAbs
  else padded 4 year.natAbs

/-- The time in UTC; a zone with another offset is left out. -/
def text (t : Instant) : String :=
  let seconds := t.millis.toInt / 1000
  let date := Date.ofDays (seconds / 86400)
  let time := (seconds % 86400).toNat
  yearText date.year ++ "-" ++ padded 2 date.month ++ "-" ++ padded 2 date.day ++ " " ++
    padded 2 (time / 3600) ++ ":" ++ padded 2 (time / 60 % 60) ++ ":" ++ padded 2 (time % 60)

end Instant
end SessionShell
