import SessionShell.Proofs.CommandLine.Provenance
import SessionShell.Session.Notice
import SessionShell.Command.Builtin
import Mathlib.Tactic.SplitIfs

namespace SessionShell

def SingleLine (text : String) : Prop := '\n' ∉ text.toList

instance (text : String) : Decidable (SingleLine text) :=
  inferInstanceAs (Decidable ('\n' ∉ text.toList))

section

variable {a b text : String}

@[simp] theorem singleLine_append : SingleLine (a ++ b) ↔ SingleLine a ∧ SingleLine b := by
  simp [SingleLine]

theorem singleLine_ofList {s : List Char} (h : ∀ c ∈ s, c ≠ '\n') :
    SingleLine (String.ofList s) := by
  rw [SingleLine, String.toList_ofList]
  exact fun hmem => h _ hmem rfl

theorem ne_newline_of_isDigit {c : Char} (h : c.isDigit) : c ≠ '\n' := by
  rintro rfl
  cases h

theorem singleLine_digits (n : Nat) (zeros : List Char) (hzeros : ∀ c ∈ zeros, c = '0') :
    SingleLine (String.ofList (zeros ++ Nat.toDigits 10 n)) := by
  refine singleLine_ofList fun c hc => ne_newline_of_isDigit ?_
  rcases List.mem_append.1 hc with hc | hc
  · rw [hzeros c hc]
    rfl
  · exact Nat.isDigit_of_mem_toDigits (by decide) (Nat.le_refl _) hc

@[simp] theorem singleLine_repr (n : Nat) : SingleLine (Nat.repr n) := by
  rw [Nat.repr_eq_ofList_toDigits]
  exact singleLine_digits n [] (by simp)

@[simp] theorem SessionId.singleLine_text (id : SessionId) : SingleLine id.text := by
  simp [text]
  decide

@[simp] theorem Instant.singleLine_padded (width n : Nat) : SingleLine (padded width n) :=
  singleLine_digits n _ fun _ hc => List.eq_of_mem_replicate hc

@[simp] theorem Instant.singleLine_text (t : Instant) : SingleLine t.text := by
  have hyear (year : Int) : SingleLine (yearText year) := by
    unfold yearText
    split_ifs <;> simp <;> decide
  simp [text, hyear]
  decide

end

namespace Session

variable (s : Session)

theorem singleLine_birthNotice : ∀ line ∈ s.birthNotice, SingleLine line := by
  unfold birthNotice
  split_ifs <;> simp <;> decide

theorem singleLine_deathNotice : ∀ line ∈ s.deathNotice, SingleLine line := by
  unfold deathNotice
  cases s.parent <;> simp <;> decide

theorem singleLine_describe : ∀ line ∈ s.describe, SingleLine line := by
  have hlink (link : Option SessionId) : SingleLine (linkText link) := by
    cases link with
    | none => decide
    | some id => exact id.singleLine_text
  simp [describe, hlink]
  decide

end Session

theorem Builtin.singleLine_helpLines : ∀ line ∈ helpLines, SingleLine line := by
  decide +kernel

/-- The texts that an error takes over from elsewhere. -/
def ShellError.quotes : ShellError → List String
  | commandNotFound name => [name]
  | loadFailure name reason => [name, reason]
  | commandFailed name reason => [name, reason]
  | invalidId text => [text]
  | input reason => [reason]
  | duplicateId _ => []
  | sessionNotFound _ => []
  | childAlreadyLive .. => []
  | invalidStep .. => []

theorem ShellError.singleLine_message (e : ShellError) (h : ∀ text ∈ e.quotes, SingleLine text) :
    SingleLine e.message := by
  have hname (state : LoopState) : SingleLine state.name := by cases state <;> decide
  unfold message
  cases e <;> simp only [quotes, List.forall_mem_cons] at h <;> simp [h, hname] <;> decide

theorem singleLine_intercalate {texts : List String} (h : ∀ text ∈ texts, SingleLine text) :
    SingleLine (" ".intercalate texts) := by
  induction texts with
  | nil => decide
  | cons text texts ih =>
    obtain ⟨htext, hrest⟩ := List.forall_mem_cons.1 h
    cases texts with
    | nil => simpa using htext
    | cons next texts =>
      rw [String.intercalate_cons_cons]
      simp [htext, ih hrest]
      decide

end SessionShell
