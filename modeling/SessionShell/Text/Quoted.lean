import SessionShell.Text.Utf8
import SessionShell.Text.Printable

namespace SessionShell.Text

def hexDigits (n : Nat) : List Char := Nat.toDigits 16 n

def escapeChar (c : Char) : List Char :=
  if c = '"' || c = '\\' then ['\\', c]
  else if c = '\n' then ['\\', 'n']
  else if c = '\r' then ['\\', 'r']
  else if c = '\t' then ['\\', 't']
  else if c = '\x00' then ['\\', '0']
  else if isPrintable c then [c]
  else ['\\', 'u', '{'] ++ hexDigits c.toNat ++ ['}']

def escapeByte (b : UInt8) : List Char :=
  ['\\', 'x'] ++ (hexDigits (b.toNat / 16) ++ hexDigits (b.toNat % 16)).map Char.toUpper

private def between (body : List Char) : String := String.ofList ('"' :: body ++ ['"'])

def quote (s : String) : String := between (s.toList.flatMap escapeChar)

def quoteBytes (bytes : Utf8.Bytes) : String :=
  between <| (Utf8.pieces none bytes).flatMap fun
    | .ok c => escapeChar c
    | .error junk => junk.flatMap escapeByte

end SessionShell.Text
