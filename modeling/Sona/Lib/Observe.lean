/-
# What is seen of a run

`observe step f s es` is what `f` tells of the events of a run, each in the state that it
finds: what a step puts out, what it reads, what it hands on. A part of the state that
moves by a step function of its own, on what each step gives it, is a component
(`Component`; an invariant may say where): its state is the state of its own run on what it was
given (`Component.state`), and what is told of its events is told of that run
(`Component.observe`). So a fact about the runs of a small machine is a fact about each of
its copies in a larger one.

Key definitions: `Trace.observe`, `Trace.Component`.
Key theorems: `Trace.observe_append`, `Trace.Component.state`, `Trace.Component.observe`.
-/
import Sona.Lib.Trace

namespace Trace

variable {S E A B : Type} (step : S → E → S)

/-- What `f` tells of the events `es`, each in the state that it finds. -/
def observe (f : S → E → List A) : S → List E → List A
  | _, [] => []
  | s, e :: es => f s e ++ observe f (step s e) es

@[simp] theorem observe_nil (f : S → E → List A) (s : S) : observe step f s [] = [] := rfl

@[simp] theorem observe_cons (f : S → E → List A) (s : S) (e : E) (es : List E) :
    observe step f s (e :: es) = f s e ++ observe step f (step s e) es := rfl

theorem observe_append (f : S → E → List A) : ∀ (s : S) (es fs : List E),
    observe step f s (es ++ fs) = observe step f s es ++ observe step f (run step s es) fs
  | _, [], _ => rfl
  | s, e :: es, fs => by simp [observe_append f (step s e) es fs]

variable {step}

theorem mem_observe {f : S → E → List A} {a : A} : ∀ {s : S} {es : List E},
    a ∈ observe step f s es → ∃ pre e post, es = pre ++ e :: post ∧ a ∈ f (run step s pre) e
  | _, [], h => absurd h List.not_mem_nil
  | s, e :: es, h => by
    rcases List.mem_append.mp h with hnow | hlater
    · exact ⟨[], e, es, rfl, hnow⟩
    · obtain ⟨pre, e', post, rfl, hmem⟩ := mem_observe hlater
      exact ⟨e :: pre, e', post, rfl, hmem⟩

/-- What is told only of states in which the invariant holds may be read there. -/
theorem observe_congr {I : S → Prop} {f g : S → E → List A} (keep : ∀ s e, I s → I (step s e))
    (heq : ∀ s e, I s → f s e = g s e) :
    ∀ {s : S} (es : List E), I s → observe step f s es = observe step g s es
  | _, [], _ => rfl
  | s, e :: es, hs => by rw [observe_cons, observe_cons, heq s e hs, observe_congr keep heq es (keep s e hs)]

theorem observe_eq_nil {I : S → Prop} {f : S → E → List A} (keep : ∀ s e, I s → I (step s e))
    (hnil : ∀ s e, I s → f s e = []) : ∀ {s : S} (es : List E), I s → observe step f s es = []
  | _, [], _ => rfl
  | s, e :: es, hs => by rw [observe_cons, hnil s e hs, observe_eq_nil keep hnil es (keep s e hs)]; rfl

theorem map_observe (f : S → E → List A) (g : A → B) : ∀ (s : S) (es : List E),
    (observe step f s es).map g = observe step (fun s e => (f s e).map g) s es
  | _, [] => rfl
  | s, e :: es => by simp [map_observe f g (step s e) es]

theorem filterMap_observe (f : S → E → List A) (g : A → Option B) : ∀ (s : S) (es : List E),
    (observe step f s es).filterMap g = observe step (fun s e => (f s e).filterMap g) s es
  | _, [] => rfl
  | s, e :: es => by simp [filterMap_observe f g (step s e) es]

theorem flatMap_observe (f : S → E → List A) (g : A → List B) : ∀ (s : S) (es : List E),
    (observe step f s es).flatMap g = observe step (fun s e => (f s e).flatMap g) s es
  | _, [] => rfl
  | s, e :: es => by simp [flatMap_observe f g (step s e) es]

/-! ### Components -/

/-- A part of the state that moves by `step'` on what each step gives it, where
the invariant holds. -/
structure Component {T F : Type} (step : S → E → S) (step' : T → F → T) where
  inv : S → Prop
  view : S → T
  given : S → E → List F
  keep : ∀ s e, inv s → inv (step s e)
  moves : ∀ s e, inv s → view (step s e) = run step' (view s) (given s e)

namespace Component

variable {T F : Type} {step : S → E → S} {step' : T → F → T} (C : Component step step')

/-- A component is where its own run ends, on what it was given. -/
theorem state : ∀ {s : S} (es : List E), C.inv s →
    C.view (run step s es) = run step' (C.view s) (Trace.observe step C.given s es)
  | _, [], _ => rfl
  | s, e :: es, hs => by
    have htail := state es (C.keep s e hs)
    rw [run_cons, htail, C.moves s e hs, observe_cons, run_append]

/-- What is told of the events of a component is told of its own run. -/
theorem observe {f : S → E → List A} {g : T → F → List A}
    (h : ∀ s e, C.inv s → f s e = Trace.observe step' g (C.view s) (C.given s e)) :
    ∀ {s : S} (es : List E), C.inv s →
    Trace.observe step f s es = Trace.observe step' g (C.view s) (Trace.observe step C.given s es)
  | _, [], _ => rfl
  | s, e :: es, hs => by
    have htail := observe h es (C.keep s e hs)
    rw [observe_cons, htail, h s e hs, C.moves s e hs, observe_cons, observe_append]

end Component

end Trace
