/-
# A value that is replaced only by adoption

A program keeps at most one value, the pin, and replaces it only by what it
adopts: an adoption finds a pin (or none), is good against it, and stores
another. Between two adoptions the pin stays, up to a drift that is reflexive
and transitive. Where there is no pin, one may come from elsewhere.

`Moves R p as p'` says how the pin got from `p` to `p'` with the adoptions `as`:
all are good, and each finds what the one before it stored. Moves compose
(`Moves.trans`), so a run is the composition of its steps. What good adoptions
never take back is never taken back by a whole run (`Moves.reaches`).

Key definitions: `Pinned.Rules`, `Pinned.Rules.Keeps`, `Pinned.Moves`.
Key theorems: `Pinned.Moves.trans`, `Pinned.Moves.single`, `Pinned.Moves.reaches`.
-/
import Mathlib.Data.List.Chain

namespace Pinned

variable {P A : Type}

/-- What an adoption of type `A` finds and stores, when it is good, and how the pin may drift. -/
structure Rules (P A : Type) where
  before : A → Option P
  after : A → P
  good : A → Prop
  drift : P → P → Prop
  drift_refl : ∀ p, drift p p
  drift_trans : ∀ {p q r}, drift p q → drift q r → drift p r

/-- A pin that is there stays there, up to drift. -/
def Rules.Keeps (R : Rules P A) (p p' : Option P) : Prop :=
  ∀ q, p = some q → ∃ q', p' = some q' ∧ R.drift q q'

variable {R : Rules P A}

theorem Rules.Keeps.refl (p : Option P) : R.Keeps p p := fun q h => ⟨q, h, R.drift_refl q⟩

theorem Rules.Keeps.trans {p p' p'' : Option P} (h : R.Keeps p p') (h' : R.Keeps p' p'') :
    R.Keeps p p'' := by
  intro q hq
  obtain ⟨q', hq', hd⟩ := h q hq
  obtain ⟨q'', hq'', hd'⟩ := h' q' hq'
  exact ⟨q'', hq'', R.drift_trans hd hd'⟩

/-- From the pin `p` to the pin `p'` by the adoptions `as`. -/
structure Moves (R : Rules P A) (p : Option P) (as : List A) (p' : Option P) : Prop where
  good : ∀ a ∈ as, R.good a
  linked : as.IsChain fun a b => R.Keeps (some (R.after a)) (R.before b)
  first : ∀ a ∈ as.head?, R.Keeps p (R.before a)
  last : ∀ a ∈ as.getLast?, R.Keeps (some (R.after a)) p'
  kept : as = [] → R.Keeps p p'

theorem Moves.nil {p p' : Option P} (h : R.Keeps p p') : Moves R p [] p' where
  good := by simp
  linked := List.isChain_nil
  first := by simp
  last := by simp
  kept _ := h

theorem Moves.single {p' : Option P} {a : A} (hg : R.good a) (hl : R.Keeps (some (R.after a)) p') :
    Moves R (R.before a) [a] p' where
  good := by simpa using hg
  linked := List.isChain_singleton a
  first := by simpa using Rules.Keeps.refl _
  last := by simpa using hl
  kept := by simp

theorem Moves.trans {p p' p'' : Option P} {as bs : List A} (h : Moves R p as p')
    (h' : Moves R p' bs p'') :
    Moves R p (as ++ bs) p'' where
  good := by
    intro a ha
    rcases List.mem_append.mp ha with ha | ha
    · exact h.good a ha
    · exact h'.good a ha
  linked := by
    refine List.isChain_append.mpr ⟨h.linked, h'.linked, ?_⟩
    intro a ha b hb
    exact (h.last a ha).trans (h'.first b hb)
  first := by
    intro a ha
    cases as with
    | nil => exact (h.kept rfl).trans (h'.first a ha)
    | cons b as => exact h.first a ha
  last := by
    intro a ha
    rcases List.eq_nil_or_concat bs with rfl | ⟨init, b, rfl⟩
    · exact (h.last a (by simpa using ha)).trans (h'.kept rfl)
    · exact h'.last a (by simpa using ha)
  kept := by
    intro hnil
    obtain ⟨ha, hb⟩ := List.append_eq_nil_iff.mp hnil
    exact (h.kept ha).trans (h'.kept hb)

/-- Behind the first adoption the run goes on from what it stored. -/
theorem Moves.tail {p p' : Option P} {a : A} {as : List A} (h : Moves R p (a :: as) p') :
    Moves R (some (R.after a)) as p' where
  good b hb := h.good b (List.mem_cons_of_mem _ hb)
  linked := h.linked.tail
  first := by
    intro b hb
    cases as with
    | nil => simp at hb
    | cons c as =>
      obtain rfl : c = b := by simpa using hb
      exact (List.isChain_cons_cons.mp h.linked).1
  last := by
    intro b hb
    cases as with
    | nil => simp at hb
    | cons c as => exact h.last b (by simpa using hb)
  kept := by
    rintro rfl
    exact h.last a (by simp)

section order

variable (le : P → P → Prop) (trans : ∀ p q r, le p q → le q r → le p r)
  (drift : ∀ p q, R.drift p q → le p q)
  (adopt : ∀ a q, R.good a → R.before a = some q → le q (R.after a))
include trans drift adopt

/-- What no drift and no good adoption takes back, no run takes back. -/
theorem Moves.grows {p' : Option P} :
    ∀ {as : List A} {q : P}, Moves R (some q) as p' → ∃ q', p' = some q' ∧ le q q'
  | [], q, h => by
    obtain ⟨q', hq', hd⟩ := h.kept rfl q rfl
    exact ⟨q', hq', drift q q' hd⟩
  | a :: as, q, h => by
    obtain ⟨q₁, hq₁, hd⟩ := h.first a (by simp) q rfl
    have hstep : le q (R.after a) := trans q q₁ _ (drift q q₁ hd)
      (adopt a q₁ (h.good a (by simp)) hq₁)
    obtain ⟨q', hq', hle⟩ := Moves.grows h.tail
    exact ⟨q', hq', trans q _ q' hstep hle⟩

/-- Every adoption is below the pin at the end. -/
theorem Moves.reaches {p' : Option P} {a : A} :
    ∀ {as : List A} {p : Option P}, Moves R p as p' → a ∈ as →
    ∃ q, p' = some q ∧ le (R.after a) q
  | [], _, _, ha => by simp at ha
  | b :: as, _, h, ha => by
    rcases List.mem_cons.mp ha with rfl | ha
    · exact Moves.grows le trans drift adopt h.tail
    · exact Moves.reaches h.tail ha

end order

end Pinned
