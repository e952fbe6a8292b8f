import SessionShell.Json.Fault

/-!
Numbers of a JSON document. Digits count up to what fits in 64 bits, the rest only as powers of ten;
what is no integer is rounded to binary64 digit row first, then scaled by a rounded power of ten.
-/

namespace SessionShell.Json

open Text.Utf8 (Bytes)
open Decimal (Binary64)

inductive Number
  | integer (n : Int)
  | float (x : Binary64)

def Number.shape : Number → Shape
  | integer n => .integer n
  | float x => .float x

def digit (b : UInt8) : Nat := b.toNat - 0x30

/-- Appends digits to a number while it stays below `limit`; also returns the digits left over. -/
def accumulate (limit : Nat) : Nat → Bytes → Nat × Bytes
  | n, [] => (n, [])
  | n, d :: ds =>
    if 10 * n + digit d < limit then accumulate limit (10 * n + digit d) ds else (n, d :: ds)

/-- The power of ten as a binary64 number, in units of `2 ^ -1074`. -/
def powerUnits (n : Nat) : Nat := ((Binary64.ofDecimal? false 1 n).map Binary64.units).getD 1

def multiply? (x : Binary64) (n : Nat) : Option Binary64 :=
  Binary64.ofRatio? x.negative (x.units * powerUnits n) (Nat.pow 2 1074 * Nat.pow 2 1074)

def divide (x : Binary64) (n : Nat) : Binary64 :=
  (Binary64.ofRatio? x.negative x.units (powerUnits n)).getD x

/-- Divides by a power of ten in steps that binary64 can hold. -/
def scaleDown (x : Binary64) (n : Nat) : Binary64 :=
  if n ≤ 308 then divide x n
  else if x.ordinal = 0 then x
  else scaleDown (divide x 308) (n - 308)
termination_by n

/-- The number `± significand · 10 ^ exponent`, or nothing if it is too large. -/
def scale? (negative : Bool) (significand : Nat) (exponent : Int) : Option Binary64 :=
  (Binary64.ofDecimal? negative significand 0).bind fun x =>
    if exponent < 0 then some (scaleDown x (-exponent).toNat)
    else if exponent ≤ 308 then multiply? x exponent.toNat
    else if x.ordinal = 0 then some x
    else none

def float (negative : Bool) (significand : Nat) (exponent : Int) : Reader Number := fun rest =>
  match scale? negative significand exponent with
  | some x => .ok (.float x, rest)
  | none => failAt .numberOutOfRange rest

def exponent (negative : Bool) (significand : Nat) (start : Int) : Reader Number := fun text =>
  let (down, text) := match text with
    | 0x2b :: rest => (false, rest)
    | 0x2d :: rest => (true, rest)
    | text => (false, text)
  match text with
  | [] => failAt .endInValue []
  | b :: rest =>
    if !isDigit b then failAt .invalidNumber rest
    else
      let (ds, rest) := text.span isDigit
      match accumulate (Nat.pow 2 31) 0 ds with
      | (n, []) => float negative significand (if down then start - n else start + n) rest
      | (_, _ :: unread) =>
        if significand ≠ 0 && !down then failAt .numberOutOfRange (unread ++ rest)
        else .ok (.float (.zero negative), rest)

def isExponentMark (b : UInt8) : Bool := b = 0x65 || b = 0x45

/-- Reads what may follow the digits of a float: a power of ten. -/
def endOfFloat (negative : Bool) (significand : Nat) (start : Int) : Reader Number
  | [] => float negative significand start []
  | b :: rest =>
    if isExponentMark b then exponent negative significand start rest
    else float negative significand start (b :: rest)

def fraction (negative : Bool) (significand : Nat) (start : Int) : Reader Number := fun text =>
  let (ds, rest) := text.span isDigit
  if ds.isEmpty then failNext (if rest.isEmpty then .endInValue else .invalidNumber) rest
  else
    let (n, unread) := accumulate UInt64.size significand ds
    endOfFloat negative n (start - (ds.length - unread.length : Nat)) rest

/-- A digit row without point or power: an integer if 64 bits hold it, with the sign, and it is not
`-0`. -/
def whole (negative : Bool) (n : Nat) : Number :=
  if !negative then .integer n
  else if 0 < n && n ≤ Nat.pow 2 63 then .integer (-n)
  else .float ((Binary64.ofDecimal? true n 0).getD (.zero true))

def number (negative : Bool) : Reader Number
  | [] => failAt .endInValue []
  | b :: rest =>
    if !isDigit b then failAt .invalidNumber rest
    else
      let (more, after) := rest.span isDigit
      if b = 0x30 && !more.isEmpty then failNext .invalidNumber rest
      else
        let (n, unread) := accumulate UInt64.size 0 (b :: more)
        match after with
        | 0x2e :: after => fraction negative n unread.length after
        | c :: _ =>
          if isExponentMark c || !unread.isEmpty then endOfFloat negative n unread.length after
          else .ok (whole negative n, after)
        | [] =>
          if unread.isEmpty then .ok (whole negative n, []) else float negative n unread.length []

/-- Passes over the power of ten of a number after its `e`. -/
def skipExponent (text : Bytes) : Except Fault Bytes :=
  let text := match text with
    | 0x2b :: rest => rest
    | 0x2d :: rest => rest
    | text => text
  match text with
  | [] => failAt .invalidNumber []
  | b :: rest => if isDigit b then .ok (rest.dropWhile isDigit) else failAt .invalidNumber rest

def skipEndOfFloat : Bytes → Except Fault Bytes
  | [] => .ok []
  | b :: rest => if isExponentMark b then skipExponent rest else .ok (b :: rest)

def skipNumber : Bytes → Except Fault Bytes
  | [] => failAt .invalidNumber []
  | b :: rest =>
    if !isDigit b then failAt .invalidNumber rest
    else
      let (more, after) := rest.span isDigit
      if b = 0x30 && !more.isEmpty then failNext .invalidNumber rest
      else
        match after with
        | 0x2e :: after =>
          let (ds, rest) := after.span isDigit
          if ds.isEmpty then failNext .invalidNumber rest else skipEndOfFloat rest
        | after => skipEndOfFloat after

end SessionShell.Json
