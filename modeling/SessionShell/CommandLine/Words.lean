import SessionShell.Text.Blank

/-!
Splitting a line into words. Spaces, tabs and newlines separate words; single quotes keep
everything, double quotes keep everything but a few escapes, and a backslash keeps the next
character. Comments exist in these rules, but `escapeMarks` writes every `#` that could open one as
a literal character.
-/

namespace SessionShell.CommandLine

/-- How the next character of a word is read. -/
inductive Quoting
  | bare
  | bareEscape
  | single
  | double
  | doubleEscape
deriving DecidableEq, Repr

def isSeparator (c : Char) : Bool := c = ' ' || c = '\t' || c = '\n'

/-- The characters that a backslash hides between double quotes. -/
def doubleEscapable (c : Char) : Bool := c = '$' || c = '\x60' || c = '"' || c = '\\'

/-- The quoting after one character, and the characters that it adds to the word. -/
def Quoting.step : Quoting → Char → Quoting × List Char
  | .bare, c =>
    if c = '\'' then (.single, [])
    else if c = '"' then (.double, [])
    else if c = '\\' then (.bareEscape, [])
    else (.bare, [c])
  | .bareEscape, c => (.bare, if c = '\n' then [] else [c])
  | .single, c => if c = '\'' then (.bare, []) else (.single, [c])
  | .double, c =>
    if c = '"' then (.bare, [])
    else if c = '\\' then (.doubleEscape, [])
    else (.double, [c])
  | .doubleEscape, c =>
    (.double, if c = '\n' then [] else if doubleEscapable c then [c] else ['\\', c])

/-- Where a scan stands: between words, in a comment, or in a word of which some is read already. -/
inductive Place
  | gap
  | comment
  | word (quoting : Quoting) (read : List Char)

/-- The words of the rest of a line; nothing if it ends inside quotes or right after a backslash. -/
def scan : Place → List Char → Option (List (List Char))
  | .gap, [] => some []
  | .comment, [] => some []
  | .word .bare read, [] => some [read]
  | .word _ _, [] => none
  | .gap, c :: cs =>
    if isSeparator c then scan .gap cs
    else if c = '#' then scan .comment cs
    else
      let (q, added) := Quoting.bare.step c
      scan (.word q added) cs
  | .comment, c :: cs => if c = '\n' then scan .gap cs else scan .comment cs
  | .word q read, c :: cs =>
    if q = .bare && isSeparator c then (scan .gap cs).map (read :: ·)
    else
      let (q, added) := q.step c
      scan (.word q (read ++ added)) cs

/-- Writes a backslash before every bare `#` that stands at the start of the line or after a blank.
-/
def escapeMarks : Quoting → (wordStart : Bool) → List Char → List Char
  | _, _, [] => []
  | q, wordStart, c :: cs =>
    let next := (q.step c).1
    let rest := escapeMarks next (q = .bare && next = .bare && Text.isBlank c) cs
    if q = .bare && wordStart && c = '#' then '\\' :: c :: rest else c :: rest

/-- Words by the quoting rules with `#` as an ordinary character. -/
def quotedWords? (line : List Char) : Option (List (List Char)) :=
  scan .gap (escapeMarks .bare true line)

/-- The words of a line; one that the quoting rules refuse is cut at its blanks. -/
def words (line : List Char) : List String :=
  ((quotedWords? line).getD (Text.pieces line)).map String.ofList

end SessionShell.CommandLine
