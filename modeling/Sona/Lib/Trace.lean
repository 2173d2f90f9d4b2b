/-
# Runs of a step function

A program that takes one event after another is a function `step : S → E → S`:
what the environment chooses (the request, the clock, a random value) is in
the event. `run` is the state after a list of events, and `Along C s es` says
that every event of the run meets `C` in the state it finds. The two rules
for it carry every safety argument about runs: `Along.inv` (what the steps
preserve holds at the end) and `Along.imp` (a fact that the invariant gives
at each step holds along the whole run). `count` is how many events of a run are of a kind.

Key definitions: `Trace.run`, `Trace.Along`, `Trace.count`.
Key theorems: `Trace.run_snoc`, `Trace.run_inv`, `Trace.along_append`, `Trace.Along.inv`,
`Trace.Along.imp`, `Trace.Along.iff_inv_history`, `Trace.Along.iff_inv`, `Trace.along_iff_inv_on`,
`Trace.along_iff_inv`, `Trace.count_le_one`.
-/
import Mathlib.Data.List.Basic
import Mathlib.Data.List.Induction
import Mathlib.Tactic.Tauto

namespace Trace

variable {S E : Type} (step : S → E → S)

/-- The state after the events `es`, from `s`. -/
def run (s : S) (es : List E) : S := es.foldl step s

@[simp] theorem run_nil (s : S) : run step s [] = s := rfl

@[simp] theorem run_cons (s : S) (e : E) (es : List E) :
    run step s (e :: es) = run step (step s e) es := rfl

theorem run_append (s : S) (es fs : List E) :
    run step s (es ++ fs) = run step (run step s es) fs := by
  simp [run]

theorem run_snoc (s : S) (es : List E) (e : E) :
    run step s (es ++ [e]) = step (run step s es) e := by
  simp [run]

/-- What holds at the start and is kept by every step holds at the end. -/
theorem run_inv {step : S → E → S} {I : S → Prop} (keep : ∀ s e, I s → I (step s e)) {s : S}
    (hs : I s) :
    ∀ es : List E, I (run step s es) := by
  intro es
  induction es generalizing s with
  | nil => exact hs
  | cons e es ih => exact ih (keep s e hs)

/-- Every event of the run meets `C` in the state it finds. -/
def Along (C : S → E → Prop) : S → List E → Prop
  | _, [] => True
  | s, e :: es => C s e ∧ Along C (step s e) es

theorem along_append (C : S → E → Prop) : ∀ (s : S) (es fs : List E),
    Along step C s (es ++ fs) ↔ Along step C s es ∧ Along step C (run step s es) fs
  | _, [], _ => by simp [Along]
  | s, e :: es, fs => by simp [Along, along_append C (step s e) es fs, and_assoc]

theorem along_and (C D : S → E → Prop) : ∀ (s : S) (es : List E),
    Along step (fun s e => C s e ∧ D s e) s es ↔ Along step C s es ∧ Along step D s es
  | _, [] => by simp [Along]
  | s, e :: es => by
    simp only [Along, along_and C D (step s e) es]
    tauto

/-- What every event of the run meets in the state before it holds along the run. -/
theorem along_of_split (C : S → E → Prop) : ∀ (s : S) (es : List E),
    (∀ pre e post, es = pre ++ e :: post → C (run step s pre) e) → Along step C s es
  | _, [], _ => trivial
  | s, e :: es, h =>
    ⟨h [] e es rfl, along_of_split C (step s e) es fun pre e' post heq => h (e :: pre) e' post (by rw [heq]; rfl)⟩

/-- Two conditions that agree on the events in `P` agree along a run of such events. -/
theorem along_congr_on {P : E → Prop} {C D : S → E → Prop} (heq : ∀ s e, P e → (C s e ↔ D s e)) :
    ∀ (s : S) (es : List E), (∀ e ∈ es, P e) → (Along step C s es ↔ Along step D s es)
  | _, [], _ => Iff.rfl
  | s, e :: es, hes =>
    and_congr (heq s e (hes e (by simp))) (along_congr_on heq (step s e) es fun e' he => hes e' (by simp [he]))

variable {step}

/-- What holds at the start and is kept by every step that meets `C` holds at
the end of a run whose steps all meet `C`. -/
theorem Along.inv {C : S → E → Prop} {I : S → Prop} (keep : ∀ s e, I s → C s e → I (step s e))
    {s : S} {es : List E} (hs : I s) (h : Along step C s es) : I (run step s es) := by
  induction es generalizing s with
  | nil => exact hs
  | cons e es ih => exact ih (keep s e hs h.1) h.2

/-- A fact that the invariant and `C` give at each step holds along the run. -/
theorem Along.imp {C D : S → E → Prop} {I : S → Prop} (keep : ∀ s e, I s → C s e → I (step s e))
    (fact : ∀ s e, I s → C s e → D s e) {s : S} {es : List E} (hs : I s) (h : Along step C s es) :
    Along step D s es := by
  induction es generalizing s with
  | nil => trivial
  | cons e es ih => exact ⟨fact s e hs h.1, ih (keep s e hs h.1) h.2⟩

/-- The same for an invariant that speaks about the events so far. -/
theorem Along.inv_history {C : S → E → Prop} {I : List E → S → Prop} {s : S} (hs : I [] s)
    (keep : ∀ es e, I es (run step s es) → C (run step s es) e → I (es ++ [e]) (step (run step s es) e))
    {es : List E} (h : Along step C s es) : I es (run step s es) := by
  induction es using List.reverseRecOn with
  | nil => exact hs
  | append_singleton es e ih =>
    rw [along_append] at h
    rw [run_snoc]
    exact keep es e (ih h.1) h.2.1

/-- Where a step that meets `D` keeps the invariant exactly if it meets `C`, a
run whose steps meet `D` has the invariant after every event exactly if its steps all
meet `C`. The invariant may speak about the events so far. -/
theorem Along.iff_inv_history {C D : S → E → Prop} {I : List E → S → Prop} {s : S} (hs : I [] s)
    (keep : ∀ es e, D (run step s es) e → I es (run step s es) →
      (I (es ++ [e]) (step (run step s es) e) ↔ C (run step s es) e)) {es : List E}
    (hes : Along step D s es) :
    Along step C s es ↔ ∀ pre, pre <+: es → I pre (run step s pre) := by
  induction es using List.reverseRecOn with
  | nil =>
    refine ⟨fun _ pre hpre => ?_, fun _ => trivial⟩
    rwa [List.prefix_nil.mp hpre]
  | append_singleton es e ih =>
    obtain ⟨hbefore, hd, -⟩ := (along_append step D s es [e]).mp hes
    rw [along_append, ih hbefore]
    have hlast := keep es e hd
    rw [← run_snoc step s es e] at hlast
    constructor
    · rintro ⟨hpres, hc, -⟩ pre hpre
      rcases List.prefix_concat_iff.mp hpre with rfl | hold
      · exact (hlast (hpres es (List.prefix_refl es))).mpr hc
      · exact hpres pre hold
    · intro hpres
      have hall : ∀ pre, pre <+: es → I pre (run step s pre) := fun pre hpre =>
        hpres pre (hpre.trans (List.prefix_append es [e]))
      exact ⟨hall, (hlast (hall es (List.prefix_refl es))).mp (hpres _ (List.prefix_refl _)),
        trivial⟩

/-- The same for an invariant of the state alone. -/
theorem Along.iff_inv {C D : S → E → Prop} {I : S → Prop}
    (keep : ∀ s e, D s e → I s → (I (step s e) ↔ C s e)) {s : S} (hs : I s) {es : List E}
    (hes : Along step D s es) :
    Along step C s es ↔ ∀ pre, pre <+: es → I (run step s pre) :=
  Along.iff_inv_history (I := fun _ s => I s) hs (fun es e => keep (run step s es) e) hes

/-- The same for events in `P`. -/
theorem along_iff_inv_on {P : E → Prop} {C : S → E → Prop} {I : S → Prop}
    (keep : ∀ s e, P e → I s → (I (step s e) ↔ C s e)) {s : S} (hs : I s) (es : List E)
    (hes : ∀ e ∈ es, P e) :
    Along step C s es ↔ ∀ pre, pre <+: es → I (run step s pre) := by
  have hon : Along step (fun _ e => P e) s es := by
    apply along_of_split
    rintro pre e post rfl
    exact hes e (by simp)
  exact Along.iff_inv keep hs hon

/-- The same where every event is one. -/
theorem along_iff_inv {C : S → E → Prop} {I : S → Prop} (keep : ∀ s e, I s → (I (step s e) ↔ C s e))
    {s : S} (hs : I s) (es : List E) : Along step C s es ↔ ∀ pre, pre <+: es → I (run step s pre) :=
  along_iff_inv_on (P := fun _ => True) (fun s e _ hi => keep s e hi) hs es fun _ _ => trivial

/-- How many events of the run meet `p` in the state they find. -/
def count (step : S → E → S) (p : S → E → Bool) : S → List E → ℕ
  | _, [] => 0
  | s, e :: es => (if p s e then 1 else 0) + count step p (step s e) es

theorem exists_of_count {p : S → E → Bool} : ∀ {s : S} {es : List E}, 0 < count step p s es →
    ∃ pre e post, es = pre ++ e :: post ∧ p (run step s pre) e
  | _, [], h => absurd h (Nat.lt_irrefl 0)
  | s, e :: es, h => by
    by_cases hp : p s e
    · exact ⟨[], e, es, rfl, hp⟩
    · rw [count, if_neg hp, Nat.zero_add] at h
      obtain ⟨pre, e', post, rfl, hp'⟩ := exists_of_count h
      exact ⟨e :: pre, e', post, rfl, hp'⟩

/-- A run in which no two events meet `p` has at most one that does. -/
theorem count_le_one {p : S → E → Bool} : ∀ {s : S} {es : List E},
    (∀ pre e mid e' post, es = pre ++ e :: (mid ++ e' :: post) → p (run step s pre) e →
      ¬ p (run step s (pre ++ e :: mid)) e') → count step p s es ≤ 1
  | _, [], _ => Nat.zero_le 1
  | s, e :: es, h => by
    by_cases hp : p s e
    · have hrest : ¬ 0 < count step p (step s e) es := by
        intro hpos
        obtain ⟨mid, e', post, rfl, hp'⟩ := exists_of_count hpos
        exact h [] e mid e' post rfl hp hp'
      rw [count, if_pos hp]
      omega
    · have ih : count step p (step s e) es ≤ 1 := count_le_one fun pre e₁ mid e₂ post heq hp₁ =>
        h (e :: pre) e₁ mid e₂ post (by rw [heq]; rfl) hp₁
      rw [count, if_neg hp]
      omega

end Trace
