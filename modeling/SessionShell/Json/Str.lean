import SessionShell.Json.Fault

namespace SessionShell.Json

open Text.Utf8 (Bytes)

/-- Where a reader stands inside a string. -/
inductive StrState
  | plain
  | escape
  /-- After `\u`, some digits of it, and the leading surrogate before it. -/
  | hex (digits : Bytes) (lead : Option Nat)
  | lead (surrogate : Nat)
  | leadEscape (surrogate : Nat)

def simpleEscape? (b : UInt8) : Option UInt8 :=
  match glyph b with
  | '"' => some 0x22
  | '\\' => some 0x5c
  | '/' => some 0x2f
  | 'b' => some 0x08
  | 'f' => some 0x0c
  | 'n' => some 0x0a
  | 'r' => some 0x0d
  | 't' => some 0x09
  | _ => none

def hexDigit? (b : UInt8) : Option Nat :=
  let c := glyph b
  if c.isDigit then some (c.toNat - '0'.toNat)
  else if 'a' ≤ c && c ≤ 'f' then some (c.toNat - 'a'.toNat + 10)
  else if 'A' ≤ c && c ≤ 'F' then some (c.toNat - 'A'.toNat + 10)
  else none

def hexValue? (digits : Bytes) : Option Nat :=
  (digits.mapM hexDigit?).map (·.foldl (fun n d => 16 * n + d) 0)

def isLeading (n : Nat) : Bool := 0xd800 ≤ n && n ≤ 0xdbff

def isTrailing (n : Nat) : Bool := 0xdc00 ≤ n && n ≤ 0xdfff

def encodePoint (n : Nat) : Bytes := Text.Utf8.encode (String.singleton (Char.ofNat n))

/-- Ends a `\u` escape. Unless `strict` is set, surrogates are neither paired nor kept. -/
def endHex (strict : Bool) (digits : Bytes) (lead : Option Nat) :
    Except Reason (StrState × Bytes) :=
  match hexValue? digits, lead with
  | none, _ => .error .invalidEscape
  | some n, some l =>
    if isTrailing n then .ok (.plain, encodePoint (0x10000 + (l - 0xd800) * 0x400 + (n - 0xdc00)))
    else .error .loneSurrogate
  | some n, none =>
    if !strict then .ok (.plain, [])
    else if isTrailing n then .error .loneSurrogate
    else if isLeading n then .ok (.lead n, [])
    else .ok (.plain, encodePoint n)

/-- The state after a byte that does not end the string, and the bytes that it adds. -/
def StrState.step (strict : Bool) : StrState → UInt8 → Except Reason (StrState × Bytes)
  | .plain, b =>
    if b = 0x5c then .ok (.escape, [])
    else if b < 0x20 then .error .controlCharacter
    else .ok (.plain, [b])
  | .escape, b =>
    match simpleEscape? b with
    | some c => .ok (.plain, [c])
    | none => if glyph b = 'u' then .ok (.hex [] none, []) else .error .invalidEscape
  | .hex digits before, b =>
    let digits := digits ++ [b]
    if digits.length < 4 then .ok (.hex digits before, []) else endHex strict digits before
  | .lead n, b => if b = 0x5c then .ok (.leadEscape n, []) else .error .surrogateWithoutPair
  | .leadEscape n, b =>
    if glyph b = 'u' then .ok (.hex [] (some n), []) else .error .surrogateWithoutPair

/-- Reads up to the closing quote. A control character is faulted after it if `strict` is set, else
before it. -/
def strBytes (strict : Bool) : StrState → (read : Bytes) → Reader Bytes
  | _, _, [] => failAt .endInString []
  | s, read, b :: rest =>
    match s, b with
    | .plain, 0x22 => .ok (read.reverse, rest)
    | s, b =>
      match s.step strict b with
      | .ok (s, added) => strBytes strict s (added.reverse ++ read) rest
      | .error .controlCharacter => failAt .controlCharacter (if strict then rest else b :: rest)
      | .error reason => failAt reason rest

def strRest : Reader String := fun text => do
  let (bytes, rest) ← strBytes true .plain [] text
  return (String.ofList (Text.Utf8.decodeLossy bytes), rest)

def skipStr (text : Bytes) : Except Fault Bytes := (strBytes false .plain [] text).map (·.2)

end SessionShell.Json
