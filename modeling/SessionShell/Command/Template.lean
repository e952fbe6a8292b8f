namespace SessionShell.Template

/-- The place of the argument that a digit names. -/
def argumentIndex? (c : Char) : Option Nat :=
  if '1' ≤ c && c ≤ '9' then some (c.toNat - '1'.toNat) else none

def expand (arguments : List (List Char)) : List Char → List Char
  | [] => []
  | '$' :: '@' :: rest => [' '].intercalate arguments ++ expand arguments rest
  | '$' :: c :: rest =>
    match argumentIndex? c with
    | some i => (arguments[i]?).getD [] ++ expand arguments rest
    | none => '$' :: expand arguments (c :: rest)
  | c :: rest => c :: expand arguments rest

def expandText (template : String) (arguments : List String) : String :=
  String.ofList (expand (arguments.map String.toList) template.toList)

end SessionShell.Template
