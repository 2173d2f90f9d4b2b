/-
# One map for many lists

Several holders list keys, each under a value of its own, and one flat map gives
the value of a key; a key that nobody lists has a value of its own (`own`). When a
holder's list is replaced, the flat map is written for the keys of the new list,
and reset for those of the old one that left (`rewrite`), without a look at the
other lists. `Agrees.update_iff` says when it still agrees with all of them: exactly
when no other list is disturbed.

Key definitions: `Flat.Agrees`, `Flat.rewrite`, `Flat.Undisturbed`.
Key theorems: `Flat.Agrees.update_iff`.
-/
import Mathlib.Logic.Function.Basic
import Mathlib.Data.List.Basic

namespace Flat

variable {U K V : Type}

/-- The keys of a holder, and their value. -/
structure Holding (K V : Type) where
  keys : List K
  value : V

def keysOf (h : Option (Holding K V)) : List K := (h.map (·.keys)).getD []

@[simp] theorem keysOf_none : keysOf (none : Option (Holding K V)) = [] := rfl

@[simp] theorem keysOf_some (h : Holding K V) : keysOf (some h) = h.keys := rfl

/-- The flat map has the value of whoever lists the key, or the key's own. -/
structure Agrees (own : K → V) (held : U → Option (Holding K V)) (flat : K → V) : Prop where
  listed : ∀ u h, held u = some h → ∀ k ∈ h.keys, flat k = h.value
  unlisted : ∀ k, (∀ u, k ∉ keysOf (held u)) → flat k = own k

/-- A flat map that is written for the list `new` in place of `old`. -/
def rewrite [DecidableEq K] (own : K → V) (old new : Option (Holding K V)) (flat : K → V) (k : K) :
    V :=
  match new with
  | some n => if k ∈ n.keys then n.value else if k ∈ keysOf old then own k else flat k
  | none => if k ∈ keysOf old then own k else flat k

/-- What the others list has the value they give it in the list `new` of `u`, and
its own if it leaves the list of `u`. -/
structure Undisturbed (own : K → V) (held : U → Option (Holding K V)) (u : U)
    (new : Option (Holding K V)) : Prop where
  entered : ∀ v, v ≠ u → ∀ h, held v = some h → ∀ k ∈ h.keys, ∀ n, new = some n → k ∈ n.keys →
    n.value = h.value
  left : ∀ v, v ≠ u → ∀ h, held v = some h → ∀ k ∈ h.keys, k ∈ keysOf (held u) → k ∉ keysOf new →
    own k = h.value

section rewrite

variable [DecidableEq K] {own : K → V} {old : Option (Holding K V)} {flat : K → V} {k : K}

theorem rewrite_entered {n : Holding K V} (h : k ∈ n.keys) :
    rewrite own old (some n) flat k = n.value := if_pos h

theorem rewrite_left {new : Option (Holding K V)} (hnew : k ∉ keysOf new) (hold : k ∈ keysOf old) :
    rewrite own old new flat k = own k := by
  cases new with
  | none => exact if_pos hold
  | some n => exact (if_neg hnew).trans (if_pos hold)

theorem rewrite_other {new : Option (Holding K V)} (hnew : k ∉ keysOf new) (hold : k ∉ keysOf old) :
    rewrite own old new flat k = flat k := by
  cases new with
  | none => exact if_neg hold
  | some n => exact (if_neg hnew).trans (if_neg hold)

end rewrite

variable [DecidableEq U] [DecidableEq K] {own : K → V} {held : U → Option (Holding K V)}
  {flat : K → V}

/-- **The flat map agrees with the lists after one is replaced iff the others
are not disturbed.** -/
theorem Agrees.update_iff (h : Agrees own held flat) (u : U) (new : Option (Holding K V)) :
    Agrees own (Function.update held u new) (rewrite own (held u) new flat) ↔
    Undisturbed own held u new := by
  constructor
  · intro h'
    have hother : ∀ v, v ≠ u → ∀ o, held v = some o →
        ∀ k ∈ o.keys, rewrite own (held u) new flat k = o.value := by
      intro v hv o ho k hk
      exact h'.listed v o (by rw [Function.update_of_ne hv, ho]) k hk
    refine { entered := fun v hv o ho k hk n hn hkn => ?_, left := fun v hv o ho k hk hold hnew => ?_ }
    · have hval := hother v hv o ho k hk
      rwa [hn, rewrite_entered hkn] at hval
    · have hval := hother v hv o ho k hk
      rwa [rewrite_left hnew hold] at hval
  · intro hu
    refine { listed := fun v o ho k hk => ?_, unlisted := fun k hk => ?_ }
    · by_cases hv : v = u
      · subst hv
        rw [Function.update_self] at ho
        rw [ho, rewrite_entered hk]
      · rw [Function.update_of_ne hv] at ho
        by_cases hnew : k ∈ keysOf new
        · cases new with
          | none => cases hnew
          | some n =>
            rw [rewrite_entered hnew]
            exact hu.entered v hv o ho k hk n rfl hnew
        · by_cases hold : k ∈ keysOf (held u)
          · rw [rewrite_left hnew hold]
            exact hu.left v hv o ho k hk hold hnew
          · rw [rewrite_other hnew hold]
            exact h.listed v o ho k hk
    · have hnew : k ∉ keysOf new := by
        have := hk u
        rwa [Function.update_self] at this
      by_cases hold : k ∈ keysOf (held u)
      · exact rewrite_left hnew hold
      · rw [rewrite_other hnew hold]
        refine h.unlisted k fun v => ?_
        by_cases hv : v = u
        · rwa [hv]
        · have := hk v
          rwa [Function.update_of_ne hv] at this

end Flat
