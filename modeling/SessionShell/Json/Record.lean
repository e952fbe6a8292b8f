import SessionShell.Json.Skip

namespace SessionShell.Json

open Text.Utf8 (Bytes)

/-- A fault about the type of the value that begins at `b`. -/
def wrongType {α : Type} (wanted : String) (b : UInt8) (rest : Bytes) : Except Fault α :=
  let found (shape : Shape) (rest : Bytes) : Except Fault α := failAt (.wrongType shape wanted) rest
  match glyph b with
  | 'n' => do found .null (← restOfWord ['u', 'l', 'l'] rest)
  | 't' => do found (.boolean true) (← restOfWord ['r', 'u', 'e'] rest)
  | 'f' => do found (.boolean false) (← restOfWord ['a', 'l', 's', 'e'] rest)
  | '-' => do
    let (n, rest) ← number true rest
    found n.shape rest
  | '"' => do
    let (s, rest) ← strRest rest
    found (.string s) rest
  | '[' => found .sequence (b :: rest)
  | '{' => found .map (b :: rest)
  | _ =>
    if isDigit b then do
      let (n, rest) ← number false (b :: rest)
      found n.shape rest
    else failNext .valueExpected (b :: rest)

def string (wanted : String) : Reader String := fun text =>
  match skipBlanks text with
  | [] => failNext .endInValue []
  | b :: rest => if glyph b = '"' then strRest rest else wrongType wanted b rest

def boolean : Reader Bool := fun text =>
  match skipBlanks text with
  | [] => failNext .endInValue []
  | b :: rest =>
    match glyph b with
    | 't' => do return (true, ← restOfWord ['r', 'u', 'e'] rest)
    | 'f' => do return (false, ← restOfWord ['a', 'l', 's', 'e'] rest)
    | _ => wrongType "a boolean" b rest

def string? (wanted : String) : Reader (Option String) := fun text =>
  match skipBlanks text with
  | [] => failNext .endInValue []
  | b :: rest =>
    if glyph b = 'n' then do return (none, ← restOfWord ['u', 'l', 'l'] rest)
    else do
      let (s, rest) ← string wanted (b :: rest)
      return (some s, rest)

/-- Goes to the next element of an array; nothing if the bracket closes. -/
def nextElement (isFirst : Bool) (text : Bytes) : Except Fault (Option Bytes) :=
  match skipBlanks text with
  | [] => failNext .endInList []
  | b :: rest =>
    if glyph b = ']' then .ok none
    else if isFirst then .ok (some (b :: rest))
    else if glyph b = ',' then
      match skipBlanks rest with
      | [] => failNext .endInValue []
      | c :: rest =>
        if glyph c = ']' then failNext .trailingComma (c :: rest) else .ok (some (c :: rest))
    else failNext .commaOrBracketExpected (b :: rest)

def closeList (text : Bytes) : Except Fault Bytes :=
  match skipBlanks text with
  | [] => failNext .endInList []
  | b :: rest =>
    if glyph b = ']' then .ok rest
    else if glyph b = ',' then
      match skipBlanks rest with
      | c :: rest =>
        failNext (if glyph c = ']' then .trailingComma else .trailingCharacters) (c :: rest)
      | [] => failNext .trailingCharacters []
    else failNext .trailingCharacters (b :: rest)

/-- Reads the elements of an array, one in each of `n` turns. -/
def elements {α : Type} (item : Reader α) : Nat → (isFirst : Bool) → List α → Reader (List α)
  | 0, _, _, text => failNext .endInList text
  | n + 1, isFirst, read, text => do
    match ← nextElement isFirst text with
    | none => return (read.reverse, ← closeList text)
    | some text =>
      let (a, rest) ← item text
      elements item n false (a :: read) rest

def list {α : Type} (item : Reader α) : Reader (List α) := fun text =>
  match skipBlanks text with
  | [] => failNext .endInValue []
  | b :: rest =>
    if glyph b = '[' then elements item (rest.length + 1) true [] rest
    else wrongType "a sequence" b rest

/-- A field of a record `σ`: how its value is read into the record, and whether the record needs it.
-/
structure Field (σ : Type) where
  name : String
  read : σ → Reader σ
  required : Bool := false

structure Schema (σ : Type) where
  name : String
  /-- The record without any member read. -/
  blank : σ
  fields : List (Field σ)

namespace Schema

variable {σ : Type}

/-- Goes to the next key of an object, behind its opening quote; nothing if the brace closes. -/
def nextKey (isFirst : Bool) (text : Bytes) : Except Fault (Option Bytes) :=
  match skipBlanks text with
  | [] => failNext .endInObject []
  | b :: rest =>
    if glyph b = '}' then .ok none
    else if isFirst then
      if glyph b = '"' then .ok (some rest) else failNext .keyExpected (b :: rest)
    else if glyph b = ',' then
      match skipBlanks rest with
      | [] => failNext .endInValue []
      | c :: rest =>
        if glyph c = '"' then .ok (some rest)
        else failNext (if glyph c = '}' then .trailingComma else .keyExpected) (c :: rest)
    else failNext .commaOrBraceExpected (b :: rest)

/-- The text after blanks and a closing brace, if one is next. -/
def pastBrace (text : Bytes) : Bytes :=
  match skipBlanks text with
  | [] => []
  | b :: rest => if glyph b = '}' then rest else b :: rest

/-- Ends an object in which the fields named in `seen` were set. -/
def finish (s : Schema σ) (seen : List String) (v : σ) : Reader σ := fun text =>
  match s.fields.find? fun f => f.required && !seen.contains f.name with
  | some f => failAt (.missingField f.name) (pastBrace text)
  | none => .ok (v, pastBrace text)

/-- Reads the members of an object, one in each of `n` turns. -/
def members (s : Schema σ) : Nat → (isFirst : Bool) → (seen : List String) → σ → Reader σ
  | 0, _, _, _, text => failNext .endInObject text
  | n + 1, isFirst, seen, v, text => do
    match ← nextKey isFirst text with
    | none => s.finish seen v text
    | some text =>
      let (key, rest) ← strRest text
      match s.fields.find? (·.name = key) with
      | none => s.members n false seen v (← skipValue (← colon rest))
      | some f =>
        if seen.contains key then failAt (.duplicateField key) (pastBrace rest)
        else
          let (v, rest) ← f.read v (← colon rest)
          s.members n false (key :: seen) v rest

/-- Reads the elements of an array into the fields in order; `given` counts those before. -/
def positional (s : Schema σ) : List (Field σ) → (given : Nat) → σ → Reader σ
  | [], _, v, text => do return (v, ← closeList text)
  | f :: fs, given, v, text => do
    match ← nextElement (given = 0) text with
    | some text =>
      let (v, rest) ← f.read v text
      s.positional fs (given + 1) v rest
    | none =>
      let rest ← closeList text
      match (f :: fs).findIdx? (·.required) with
      | some i => failAt (.tooShort (given + i) s.name s.fields.length) rest
      | none => return (v, rest)

def read (s : Schema σ) : Reader σ := fun text =>
  match skipBlanks text with
  | [] => failNext .endInValue []
  | b :: rest =>
    match glyph b with
    | '{' => s.members (rest.length + 1) true [] s.blank rest
    | '[' => s.positional s.fields 0 s.blank rest
    | _ => wrongType ("struct " ++ s.name) b rest

/-- Reads a whole document; the error is its message. -/
def parse (s : Schema σ) (text : String) : Except String σ :=
  let bytes := Text.Utf8.encode text
  let result : Except Fault σ := do
    let (v, rest) ← s.read bytes
    match skipBlanks rest with
    | [] => return v
    | rest => failNext .trailingCharacters rest
  result.mapError (·.message bytes)

end Schema
end SessionShell.Json
