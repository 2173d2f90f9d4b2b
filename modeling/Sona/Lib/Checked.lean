/-
# Machine arithmetic that stops

Words have 64 bits. A sum or a product that does not fit stops the computation, and so
does a slice whose ends are out of order or past the end; a computation that can stop is
a `Checked`. A vector that is resized keeps its first entries and is filled up behind them.

Key definitions: `Checked`, `addWord`, `mulWord`, `slice`, `getSlice`, `resize`.
-/
import Mathlib.Algebra.Group.Nat.Defs
import Mathlib.Data.List.TakeDrop

/-- Why a computation stops. -/
inductive Stop where
  | overflow
  | range
deriving DecidableEq, Repr

/-- What a computation returns, or why it stops. -/
abbrev Checked (α : Type) := Except Stop α

/-- The largest length of a vector. -/
def maxLength : ℕ := 2 ^ 63 - 1

def addWord (a b : ℕ) : Checked ℕ := if a + b < 2 ^ 64 then .ok (a + b) else .error .overflow

def mulWord (a b : ℕ) : Checked ℕ := if a * b < 2 ^ 64 then .ok (a * b) else .error .overflow

variable {α : Type}

/-- The entries from `a` to before `b`. -/
def getSlice (xs : List α) (a b : ℕ) : Option (List α) :=
  if a ≤ b ∧ b ≤ xs.length then some ((xs.drop a).take (b - a)) else none

/-- The entries from `a` to before `b`, which have to be there. -/
def slice (xs : List α) (a b : ℕ) : Checked (List α) :=
  match getSlice xs a b with
  | some ys => .ok ys
  | none => .error .range

def resize (xs : List α) (n : ℕ) (fill : α) : List α := xs.takeD n fill

/-! ### What comes before another computation -/

theorem Checked.ok_bind {β : Type} (a : α) (next : α → Checked β) :
    ((.ok a : Checked α) >>= next) = next a := rfl

theorem Checked.error_bind {β : Type} (why : Stop) (next : α → Checked β) :
    ((.error why : Checked α) >>= next) = .error why := rfl

/-! ### Sums, slices and resized vectors -/

theorem addWord_eq {a b : ℕ} (h : a + b < 2 ^ 64) : addWord a b = .ok (a + b) := if_pos h

theorem addWord_overflow {a b : ℕ} (h : 2 ^ 64 ≤ a + b) : addWord a b = .error .overflow :=
  if_neg (by omega)

theorem mulWord_eq {a b : ℕ} (h : a * b < 2 ^ 64) : mulWord a b = .ok (a * b) := if_pos h

theorem getSlice_eq {xs : List α} {a n : ℕ} (h : a + n ≤ xs.length) :
    getSlice xs a (a + n) = some ((xs.drop a).take n) := by
  unfold getSlice
  rw [if_pos ⟨Nat.le_add_right a n, h⟩, Nat.add_sub_cancel_left]

theorem getSlice_front {xs : List α} {n : ℕ} (h : n ≤ xs.length) :
    getSlice xs 0 n = some (xs.take n) := by
  unfold getSlice
  rw [if_pos ⟨Nat.zero_le n, h⟩, List.drop_zero, Nat.sub_zero]

theorem getSlice_past {xs : List α} {a b : ℕ} (h : xs.length < b) : getSlice xs a b = none :=
  if_neg (by omega)

theorem slice_eq {xs : List α} {a n : ℕ} (h : a + n ≤ xs.length) :
    slice xs a (a + n) = .ok ((xs.drop a).take n) := by
  unfold slice
  rw [getSlice_eq h]

theorem slice_front {xs : List α} {n : ℕ} (h : n ≤ xs.length) : slice xs 0 n = .ok (xs.take n) := by
  unfold slice
  rw [getSlice_front h]

/-- A vector that grows keeps its entries. -/
theorem resize_eq_append (fill : α) : ∀ {xs : List α} {n : ℕ}, xs.length ≤ n →
    resize xs n fill = xs ++ List.replicate (n - xs.length) fill
  | [], n, _ => by simp [resize]
  | x :: xs, n + 1, h => by
    have ih := resize_eq_append fill (Nat.le_of_succ_le_succ h)
    unfold resize at ih ⊢
    rw [List.takeD_succ, List.head?_cons, Option.getD_some, List.tail_cons, ih, List.cons_append,
      List.length_cons, Nat.add_sub_add_right]
