import SessionShell.Decimal.Digits
import SessionShell.Session.Instant

namespace SessionShell

structure SessionId where
  stamp : UInt64
  seq : UInt32
deriving DecidableEq, Inhabited

namespace SessionId

instance : Ord SessionId := ⟨compareLex (compareOn stamp) (compareOn seq)⟩

instance : Std.TransOrd SessionId :=
  inferInstanceAs (Std.TransCmp (compareLex (compareOn stamp) (compareOn seq)))

instance : Std.LawfulEqOrd SessionId where
  compare_self := Std.ReflOrd.compare_self
  eq_of_compare {a b} h := by
    have h : (compareOn stamp a b).then (compareOn seq a b) = .eq := h
    obtain ⟨h₁, h₂⟩ := Ordering.then_eq_eq.1 h
    have e₁ : a.stamp = b.stamp := Std.LawfulEqOrd.eq_of_compare h₁
    have e₂ : a.seq = b.seq := Std.LawfulEqOrd.eq_of_compare h₂
    cases a; cases b; cases e₁; cases e₂; rfl

def text (id : SessionId) : String :=
  "sh-" ++ Nat.repr id.stamp.toNat ++ "-" ++ Nat.repr id.seq.toNat

/-- Reads an identifier; the stamp ends at the first dash. -/
def ofChars? : List Char → Option SessionId
  | 's' :: 'h' :: '-' :: body =>
    let (stamp, rest) := body.span (· ≠ '-')
    match rest with
    | [] => none
    | _ :: seq => do
      let stamp ← Decimal.below? UInt64.size stamp
      let seq ← Decimal.below? UInt32.size seq
      return ⟨UInt64.ofNat stamp, UInt32.ofNat seq⟩
  | _ => none

def ofText? (s : String) : Option SessionId := ofChars? s.toList

end SessionId

/-- The stamp of sessions created at an instant; a time before 1970 counts as the start of 1970. -/
def Instant.stamp (t : Instant) : UInt64 := UInt64.ofNat t.millis.toInt.toNat

/-- A source of identifiers, which numbers them from 1 and counts those drawn. -/
structure IdSource where
  drawn : Nat
deriving DecidableEq

namespace IdSource

def initial : IdSource := ⟨0⟩

instance : Inhabited IdSource := ⟨initial⟩

/-- The next identifier. Its sequence number begins anew after `2 ^ 32` draws. -/
def draw (s : IdSource) (t : Instant) : SessionId × IdSource :=
  (⟨t.stamp, UInt32.ofNat (s.drawn + 1)⟩, ⟨s.drawn + 1⟩)

end IdSource
end SessionShell
