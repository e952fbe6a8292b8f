import Mathlib.Data.List.TakeDrop
import Mathlib.Data.List.TakeWhile

namespace SessionShell.Text

variable {α : Type} [DecidableEq α] {a : α} {front l : List α}

theorem span_append_cons (h : a ∉ front) (rest : List α) :
    (front ++ a :: rest).span (· ≠ a) = (front, a :: rest) := by
  have hall : ∀ b ∈ front, decide (b ≠ a) = true := fun b hb =>
    decide_eq_true fun heq => h (heq ▸ hb)
  rw [List.span_eq_takeWhile_dropWhile, List.takeWhile_append_of_pos hall,
    List.dropWhile_append_of_pos hall]
  simp

theorem span_of_not_mem (h : a ∉ l) : l.span (· ≠ a) = (l, []) := by
  have hall : ∀ b ∈ l, decide (b ≠ a) = true := fun b hb => decide_eq_true fun heq => h (heq ▸ hb)
  rw [List.span_eq_takeWhile_dropWhile, List.takeWhile_eq_self_iff.2 hall,
    List.dropWhile_eq_nil_iff.2 hall]

theorem exists_span (a : α) (l : List α) :
    a ∉ l ∧ l.span (· ≠ a) = (l, []) ∨
      ∃ front rest, a ∉ front ∧ l = front ++ a :: rest ∧
        l.span (· ≠ a) = (front, a :: rest) := by
  by_cases h : a ∈ l
  · obtain ⟨front, rest, rfl, hfront⟩ := List.eq_append_cons_of_mem h
    exact .inr ⟨front, rest, hfront, rfl, span_append_cons hfront rest⟩
  · exact .inl ⟨h, span_of_not_mem h⟩

end SessionShell.Text
