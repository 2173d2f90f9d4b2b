/-
# Words that agree on their first bits

`Agree p x y` says that the words `x` and `y` have the same first `p` bits, from
the most significant one on. Masking both words with `p` leading ones compares
exactly these (`agree_iff_mask`).

Key definitions: `Prefix.Agree`.
Key theorems: `Prefix.agree_iff_mask`.
-/
import Mathlib.Data.Nat.Notation

namespace Prefix

variable {w : ℕ}

/-- The first `p` bits are the same. -/
def Agree (p : ℕ) (x y : BitVec w) : Prop := ∀ i < p, x.getMsbD i = y.getMsbD i

instance (p : ℕ) (x y : BitVec w) : Decidable (Agree p x y) :=
  inferInstanceAs (Decidable (∀ i < p, _))

@[simp] theorem Agree.refl (p : ℕ) (x : BitVec w) : Agree p x x := fun _ _ => rfl

/-- Masked with `p` leading ones, two words are equal exactly if they agree on `p` bits. -/
theorem agree_iff_mask {p : ℕ} (hp : p ≤ w) (x y : BitVec w) :
    x &&& (BitVec.allOnes w <<< (w - p)) = y &&& (BitVec.allOnes w <<< (w - p)) ↔ Agree p x y := by
  have hmask : ∀ i, (BitVec.allOnes w <<< (w - p)).getMsbD i = decide (i < p) := by
    intro i
    rw [BitVec.getMsbD_shiftLeft, BitVec.getMsbD_allOnes]
    exact decide_eq_decide.mpr (by omega)
  constructor
  · intro h i hi
    have hbit := congrArg (fun z => z.getMsbD i) h
    simpa [hmask, hi] using hbit
  · intro h
    refine BitVec.eq_of_getMsbD_eq fun i _ => ?_
    rw [BitVec.getMsbD_and, BitVec.getMsbD_and, hmask]
    by_cases hi : i < p
    · rw [h i hi]
    · simp [hi]

end Prefix
