import SessionShell.Decimal.Layout
import SessionShell.Decimal.Reading
import SessionShell.Keyed

/-!
Flags. A word before the first bare `--` sets flags if it is `--name=value`, `--no-name`, `--name`,
or a dash with letters; a name is a letter followed by letters, digits, dashes and underscores.
-/

namespace SessionShell.CommandLine

open Decimal (Binary64 Reading)

inductive FlagValue
  | switch (on : Bool)
  | number (value : Binary64)
  | text (value : String)
deriving DecidableEq

/-- Whether a text starts as a number does: with a digit or a point, behind one sign or none. -/
def looksNumeric (s : List Char) : Bool :=
  (Decimal.splitSign s).2.head?.any fun c => c.isDigit || c = '.'

/-- A value that looks like a number and is read as a finite one is a number, any other is text. -/
def FlagValue.ofChars (s : List Char) : FlagValue :=
  match if looksNumeric s then Reading.ofChars? s else none with
  | some (.finite x) => .number x
  | _ => .text (String.ofList s)

def isNameChar (c : Char) : Bool := c.isAlphanum || c = '-' || c = '_'

def isFlagName : List Char → Bool
  | [] => false
  | c :: cs => c.isAlpha && cs.all isNameChar

abbrev Setting := String × FlagValue

abbrev Flags := Keyed (Prod.fst : Setting → String)

/-- The name that is switched off by `no-` in front of it. -/
def negated? : List Char → Option (List Char)
  | 'n' :: 'o' :: '-' :: name => if isFlagName name then some name else none
  | _ => none

/-- The setting that a name alone makes: on, or off if it is a negated name. -/
def switchSetting (name : List Char) : Setting :=
  match negated? name with
  | some name => (String.ofList name, .switch false)
  | none => (String.ofList name, .switch true)

/-- The setting that a word makes after its two dashes. -/
def longSetting? (body : List Char) : Option Setting :=
  let (name, rest) := body.span (· ≠ '=')
  if isFlagName name then
    match rest with
    | [] => some (switchSetting name)
    | _ :: value => some (String.ofList name, FlagValue.ofChars value)
  else none

/-- The settings that a word makes, or nothing if it is no flag. -/
def settings? : List Char → Option (List Setting)
  | '-' :: '-' :: body => (longSetting? body).map ([·])
  | '-' :: letters =>
    if !letters.isEmpty && letters.all Char.isAlpha then
      some (letters.map fun c => (String.singleton c, .switch true))
    else none
  | _ => none

end SessionShell.CommandLine
