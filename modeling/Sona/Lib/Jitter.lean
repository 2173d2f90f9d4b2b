/-
# A queue that drops its oldest

A playout queue of a fixed length: what is pushed when it is full drops the element that
waited longest, so a reader lags by no more than the length. What it held and what was pushed
are, in order, what was popped, what is held and what was dropped (`popped_sublist`), and
what is held are the latest that were pushed (`run_suffix`).

Key definitions: `Jitter.Op`, `Jitter.step`, `Jitter.popped`. Key theorems: `Jitter.popped_sublist`,
`Jitter.run_suffix`.
-/
import Mathlib.Data.List.Basic
import Mathlib.Data.List.Infix
import Sona.Lib.Observe

namespace Jitter

variable {α : Type}

inductive Op (α : Type)
  | push (a : α)
  | pop
  /-- What is held is dropped. -/
  | clear

/-- An element joins a queue of at most `cap`. -/
def push (cap : ℕ) (q : List α) (a : α) : List α := (if cap ≤ q.length then q.tail else q) ++ [a]

def step (cap : ℕ) (q : List α) : Op α → List α
  | .push a => push cap q a
  | .pop => q.tail
  | .clear => []

/-- What a pop takes. -/
def popped (q : List α) : Op α → List α
  | .pop => q.take 1
  | _ => []

/-- What was pushed. -/
def pushes (ops : List (Op α)) : List α :=
  ops.filterMap fun
    | .push a => some a
    | _ => none

theorem push_length {cap : ℕ} (hcap : 0 < cap) {q : List α} (h : q.length ≤ cap) (a : α) :
    (push cap q a).length ≤ cap := by
  unfold push
  split
  · rw [List.length_append, List.length_tail, List.length_singleton]
    omega
  · rw [List.length_append, List.length_singleton]
    omega

theorem run_length {cap : ℕ} (hcap : 0 < cap) {q : List α} (h : q.length ≤ cap)
    (ops : List (Op α)) :
    (Trace.run (step cap) q ops).length ≤ cap := by
  refine Trace.run_inv (I := fun q : List α => q.length ≤ cap) (fun q op hq => ?_) h ops
  cases op with
  | push a => exact push_length hcap hq a
  | pop =>
    have htail : q.tail.length = q.length - 1 := List.length_tail
    change q.tail.length ≤ cap
    omega
  | clear => exact Nat.zero_le cap

/-- What is popped, and then what is still held, is in order a part of what was held and pushed. -/
theorem popped_sublist (cap : ℕ) : ∀ (ops : List (Op α)) (q : List α),
    (Trace.observe (step cap) popped q ops ++ Trace.run (step cap) q ops).Sublist (q ++ pushes ops)
  | [], q => by simp [pushes]
  | .push a :: ops, q => by
    have hrest := popped_sublist cap ops (push cap q a)
    have hkept : (push cap q a).Sublist (q ++ [a]) := by
      unfold push
      split
      · exact (List.tail_sublist q).append (List.Sublist.refl _)
      · exact List.Sublist.refl _
    have hall := hkept.append (List.Sublist.refl (pushes ops))
    rw [List.append_assoc] at hall
    exact hrest.trans hall
  | .pop :: ops, q => by
    have hrest := popped_sublist cap ops q.tail
    have htaken : q.take 1 ++ q.tail = q := by rw [← List.drop_one, List.take_append_drop]
    have hfront := (List.Sublist.refl (q.take 1)).append hrest
    rw [← List.append_assoc, ← List.append_assoc, htaken] at hfront
    exact hfront
  | .clear :: ops, q => (popped_sublist cap ops []).trans (List.sublist_append_right q (pushes ops))

theorem tail_suffix_append (q : List α) (rest : List α) : q.tail ++ rest <:+ q ++ rest := by
  cases q with
  | nil => exact List.suffix_refl _
  | cons a q => exact ⟨[a], rfl⟩

/-- What is held are the latest. -/
theorem run_suffix (cap : ℕ) :
    ∀ (ops : List (Op α)) (q : List α), Trace.run (step cap) q ops <:+ q ++ pushes ops
  | [], q => by simp [pushes]
  | .push a :: ops, q => by
    have hrest := run_suffix cap ops (push cap q a)
    have hkept : push cap q a ++ pushes ops <:+ q ++ a :: pushes ops := by
      unfold push
      rw [List.append_assoc]
      split
      · exact tail_suffix_append q _
      · exact List.suffix_refl _
    exact hrest.trans hkept
  | .pop :: ops, q => (run_suffix cap ops q.tail).trans (tail_suffix_append q _)
  | .clear :: ops, q => (run_suffix cap ops []).trans (List.suffix_append q (pushes ops))

end Jitter
