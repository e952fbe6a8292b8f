import SessionShell.Decimal.Binary64

namespace SessionShell.Decimal

inductive Reading
  | finite (value : Binary64)
  | infinite (negative : Bool)
  | nan
deriving DecidableEq

/-- A name in any mix of cases, behind one sign or none. -/
def Reading.ofName? (s : List Char) : Option Reading :=
  let (negative, name) := splitSign s
  match name.map Char.toLower with
  | ['i', 'n', 'f'] | ['i', 'n', 'f', 'i', 'n', 'i', 't', 'y'] => some (.infinite negative)
  | ['n', 'a', 'n'] => some .nan
  | _ => none

/-- A numeral past the largest finite number is infinite. -/
def Reading.ofNumeral (n : Numeral) : Reading :=
  match Binary64.ofNumeral? n with
  | some x => .finite x
  | none => .infinite n.negative

def Reading.ofChars? (s : List Char) : Option Reading :=
  match Numeral.ofChars? s with
  | some n => some (.ofNumeral n)
  | none => Reading.ofName? s

end SessionShell.Decimal
