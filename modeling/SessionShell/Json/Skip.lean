import SessionShell.Json.Str
import SessionShell.Json.Number

namespace SessionShell.Json

open Text.Utf8 (Bytes)

/-- What encloses the value being passed over. -/
inductive Frame
  | list
  | object

def Frame.closer : Frame → UInt8
  | list => 0x5d
  | object => 0x7d

def Frame.endReason : Frame → Reason
  | list => .endInList
  | object => .endInObject

def Frame.commaReason : Frame → Reason
  | list => .commaOrBracketExpected
  | object => .commaOrBraceExpected

def colon (text : Bytes) : Except Fault Bytes :=
  match skipBlanks text with
  | [] => failNext .endInObject []
  | b :: rest => if glyph b = ':' then .ok rest else failNext .colonExpected (b :: rest)

/-- Passes over the key and the colon in front of a member of an object. -/
def skipKey (text : Bytes) : Except Fault Bytes :=
  match skipBlanks text with
  | [] => failNext .endInObject []
  | b :: rest =>
    if glyph b = '"' then do colon (← skipStr rest) else failNext .keyExpected (b :: rest)

/-- Passes over the key before a value, if the frame wants one. -/
def Frame.skipKey : Frame → Bytes → Except Fault Bytes
  | list, text => .ok text
  | object, text => Json.skipKey text

/-- Reads what follows a value: closers end frames, and after a comma another value is due in the
frames that are left. -/
def afterValue : List Frame → Bytes → Except Fault (List Frame × Bytes)
  | [], text => .ok ([], text)
  | f :: outer, text =>
    match skipBlanks text with
    | [] => failNext f.endReason []
    | b :: rest =>
      if glyph b = ',' then .ok (f :: outer, rest)
      else if b = f.closer then afterValue outer rest
      else failNext f.commaReason (b :: rest)

/-- Reads what follows an opening bracket, with the frame on the stack. -/
def afterOpening (f : Frame) (outer : List Frame) (text : Bytes) :
    Except Fault (List Frame × Bytes) :=
  match skipBlanks text with
  | [] => failNext f.endReason []
  | b :: rest => if b = f.closer then afterValue outer rest else .ok (f :: outer, b :: rest)

/-- Passes over one scalar or opening bracket, and over the closers behind it. -/
def skipStep (frames : List Frame) (text : Bytes) : Except Fault (List Frame × Bytes) :=
  match skipBlanks text with
  | [] => failNext .endInValue []
  | b :: rest =>
    match glyph b with
    | 'n' => do afterValue frames (← restOfWord ['u', 'l', 'l'] rest)
    | 't' => do afterValue frames (← restOfWord ['r', 'u', 'e'] rest)
    | 'f' => do afterValue frames (← restOfWord ['a', 'l', 's', 'e'] rest)
    | '-' => do afterValue frames (← skipNumber rest)
    | '"' => do afterValue frames (← skipStr rest)
    | '[' => afterOpening .list frames rest
    | '{' => afterOpening .object frames rest
    | _ =>
      if isDigit b then do afterValue frames (← skipNumber (b :: rest))
      else failNext .valueExpected (b :: rest)

/-- Passes over values until no frame is open; each takes one of `n` turns. -/
def skipValues : Nat → List Frame → Bytes → Except Fault Bytes
  | 0, _, text => failNext .endInValue text
  | n + 1, frames, text => do
    let (frames, rest) ← skipStep frames text
    match frames with
    | [] => return rest
    | f :: outer => skipValues n (f :: outer) (← f.skipKey rest)

/-- Passes over a value; every turn takes a byte at least. -/
def skipValue (text : Bytes) : Except Fault Bytes := skipValues (text.length + 1) [] text

end SessionShell.Json
