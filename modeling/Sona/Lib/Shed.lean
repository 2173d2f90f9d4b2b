/-
# Shedding from the front

A bounded queue that makes room by dropping its oldest elements: `shed full l`
drops from the front while `full` holds of what is left. What goes is a prefix
(`shed_append`), what stays is not full or is empty (`shed_not_full`), and no
shorter prefix would have done (`shed_minimal`).
-/
import Mathlib.Data.List.Basic

namespace Shed

variable {α : Type}

/-- The elements dropped from the front while `full` holds, and the rest. -/
def shed (full : List α → Bool) : List α → List α × List α
  | [] => ([], [])
  | x :: l => if full (x :: l) then (x :: (shed full l).1, (shed full l).2) else ([], x :: l)

variable (full : List α → Bool)

theorem shed_append : ∀ l : List α, (shed full l).1 ++ (shed full l).2 = l
  | [] => rfl
  | x :: l => by
    unfold shed
    split
    · simp [shed_append l]
    · rfl

theorem shed_not_full : ∀ l : List α, (shed full l).2 = [] ∨ full (shed full l).2 = false
  | [] => Or.inl rfl
  | x :: l => by
    unfold shed
    split
    · exact shed_not_full l
    · rename_i h; exact Or.inr (by simpa using h)

/-- Before the last element went, what was left was still full. -/
theorem shed_minimal : ∀ (l : List α) (n : ℕ), n < (shed full l).1.length → full (l.drop n) = true
  | [], n, h => by simp [shed] at h
  | x :: l, n, h => by
    unfold shed at h
    split at h
    · rename_i ho
      cases n with
      | zero => exact ho
      | succ n => exact shed_minimal l n (by simpa using h)
    · simp at h

end Shed
