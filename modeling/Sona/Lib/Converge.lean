/-
# Updates that converge

What comes at least once and in no order makes the same state, whatever the order and
the repetitions, if the updates commute and each is worth nothing the second time
(`foldl_eq_of_mem_iff`). Where the updates of one key overwrite each other, the last
one of the key is what counts (`lastFor`).

Key definitions: `Converge.lastFor`.
Key theorems: `Converge.foldl_eq_of_mem_iff`, `Converge.lastFor_concat`.
-/
import Mathlib.Data.List.Dedup
import Mathlib.Data.List.Perm.Basic

namespace Converge

variable {S A K : Type}

section commuting

variable {f : S → A → S} (hcomm : ∀ s a b, f (f s a) b = f (f s b) a)
  (hidem : ∀ s a, f (f s a) a = f s a)

include hcomm hidem

/-- An update that comes again later changes nothing. -/
theorem foldl_absorb {a : A} : ∀ {as : List A}, a ∈ as → ∀ s, as.foldl f (f s a) = as.foldl f s
  | b :: as, ha, s => by
    rw [List.foldl_cons, List.foldl_cons]
    rcases List.mem_cons.mp ha with rfl | ha
    · rw [hidem]
    · rw [hcomm, foldl_absorb ha]

theorem foldl_dedup [DecidableEq A] : ∀ (as : List A) (s : S), as.dedup.foldl f s = as.foldl f s
  | [], _ => by simp
  | a :: as, s => by
    by_cases ha : a ∈ as
    · rw [List.dedup_cons_of_mem ha, foldl_dedup as, List.foldl_cons, foldl_absorb hcomm hidem ha]
    · rw [List.dedup_cons_of_notMem ha, List.foldl_cons, List.foldl_cons, foldl_dedup as]

/-- **The same updates make the same state**, in whatever order and however often they come. -/
theorem foldl_eq_of_mem_iff {as bs : List A} (h : ∀ a, a ∈ as ↔ a ∈ bs) (s : S) :
    as.foldl f s = bs.foldl f s := by
  classical
  have hperm : as.dedup.Perm bs.dedup :=
    (List.perm_ext_iff_of_nodup (List.nodup_dedup as) (List.nodup_dedup bs)).mpr
    fun a => by simp [h a]
  calc as.foldl f s = as.dedup.foldl f s := (foldl_dedup hcomm hidem as s).symm
    _ = bs.dedup.foldl f s := hperm.foldl_eq' (fun a _ b _ t => hcomm t a b) s
    _ = bs.foldl f s := foldl_dedup hcomm hidem bs s

end commuting

/-! ### The last update of a key -/

variable [DecidableEq K] (key : A → K)

def lastFor (k : K) (as : List A) : Option A := (as.filter fun a => key a = k).getLast?

@[simp] theorem lastFor_nil (k : K) : lastFor key k [] = none := rfl

theorem lastFor_concat (k : K) (as : List A) (a : A) :
    lastFor key k (as ++ [a]) = if key a = k then some a else lastFor key k as := by
  unfold lastFor
  by_cases ha : key a = k
  · rw [if_pos ha, List.filter_append, List.filter_cons_of_pos (by simpa using ha), List.filter_nil,
      List.getLast?_concat]
  · rw [if_neg ha, List.filter_append, List.filter_cons_of_neg (by simpa using ha), List.filter_nil,
      List.append_nil]

end Converge
