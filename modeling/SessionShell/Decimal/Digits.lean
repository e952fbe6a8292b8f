namespace SessionShell.Decimal

def digitValue (c : Char) : Nat := c.toNat - '0'.toNat

def ofDigits (ds : List Char) : Nat := ds.foldl (fun n c => 10 * n + digitValue c) 0

/-- Reads an optional plus and one or more digits that denote a number below `limit`. -/
def below? (limit : Nat) (s : List Char) : Option Nat :=
  let ds := match s with
    | '+' :: ds => ds
    | ds => ds
  if ds.isEmpty || !ds.all Char.isDigit then none
  else if ofDigits ds < limit then some (ofDigits ds)
  else none

end SessionShell.Decimal
