/-!
Decoding UTF-8, one byte at a time. Every byte string decodes to a row of characters and ill-formed
pieces; an ill-formed piece is as long as some well-formed character could still begin with it, and
one byte at least.
-/

namespace SessionShell.Text.Utf8

abbrev Bytes := List UInt8

/-- A character, or the bytes of an ill-formed piece. -/
abbrev Piece := Except Bytes Char

/-- A character that has begun: its bytes, the value of their payload, the range of the next byte,
and how many bytes follow that one. -/
structure Pending where
  read : Bytes
  value : Nat
  low : UInt8
  high : UInt8
  more : Nat

/-- What a first byte announces; nothing for a byte that begins no character. -/
def Pending.ofLead? (b : UInt8) : Option Pending :=
  let v := b.toNat
  if b < 0xc2 then none
  else if b < 0xe0 then some ⟨[b], v % 32, 0x80, 0xbf, 0⟩
  else if b = 0xe0 then some ⟨[b], v % 16, 0xa0, 0xbf, 1⟩
  else if b = 0xed then some ⟨[b], v % 16, 0x80, 0x9f, 1⟩
  else if b < 0xf0 then some ⟨[b], v % 16, 0x80, 0xbf, 1⟩
  else if b = 0xf0 then some ⟨[b], v % 8, 0x90, 0xbf, 2⟩
  else if b < 0xf4 then some ⟨[b], v % 8, 0x80, 0xbf, 2⟩
  else if b = 0xf4 then some ⟨[b], v % 8, 0x80, 0x8f, 2⟩
  else none

/-- Reads a byte outside any character. -/
def first (b : UInt8) : List Piece × Option Pending :=
  if b < 0x80 then ([.ok (Char.ofNat b.toNat)], none)
  else
    match Pending.ofLead? b with
    | some p => ([], some p)
    | none => ([.error [b]], none)

/-- Reads a byte inside a character; one out of range ends an ill-formed piece and is read anew. -/
def Pending.next (p : Pending) (b : UInt8) : List Piece × Option Pending :=
  if p.low ≤ b && b ≤ p.high then
    let value := p.value * 64 + b.toNat % 64
    match p.more with
    | 0 => ([.ok (Char.ofNat value)], none)
    | more + 1 => ([], some ⟨p.read ++ [b], value, 0x80, 0xbf, more⟩)
  else
    let (out, s) := first b
    (.error p.read :: out, s)

def pieces : Option Pending → Bytes → List Piece
  | none, [] => []
  | some p, [] => [.error p.read]
  | s, b :: bs =>
    let (out, s) := match s with
      | none => first b
      | some p => p.next b
    out ++ pieces s bs

def replacement : Char := '\ufffd'

/-- Decodes every byte string, with one U+FFFD for each ill-formed piece. -/
def decodeLossy (bytes : Bytes) : List Char :=
  (pieces none bytes).map fun
    | .ok c => c
    | .error _ => replacement

/-- Decodes well-formed byte strings only. -/
def decode? (bytes : Bytes) : Option String :=
  ((pieces none bytes).mapM Except.toOption).map String.ofList

def encode (s : String) : Bytes := s.toUTF8.toList

end SessionShell.Text.Utf8
