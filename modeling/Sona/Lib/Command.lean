/-
# Commands

A command works on a state and ends with a value or with an error; what it did to
the state until then stays done, whichever way it ends (`EStateM`). `Triple P c Q R`
says what it leaves of a state with `P`: `Q` of its value where it ends well, `R`
where it fails. There is a rule for each way in which a command is put together, so
that a triple is proved along the text of the command; `Keeps I c` is the triple of
an invariant.

Key definitions: `Command.after`, `Command.ignore`, `Command.Triple`, `Command.Keeps`.
Key theorems: `Command.triple_bind`, `Command.triple_get`, `Command.Triple.ignore`,
`Command.Keeps.after`.
-/
import Mathlib.Data.List.Basic

namespace Command

variable {ε S α β : Type}

/-- The state that a command leaves. -/
def after (c : EStateM ε S α) (s : S) : S :=
  match c s with
  | .ok _ s' => s'
  | .error _ s' => s'

/-- A command whose end does not matter: what it did stays. -/
def ignore (c : EStateM ε S α) : EStateM ε S Unit := fun s => .ok () (after c s)

/-- A value or an error that the state has no part in. -/
def orFail : Except ε α → EStateM ε S α
  | .ok a => pure a
  | .error e => throw e

def Triple (P : S → Prop) (c : EStateM ε S α) (Q : α → S → Prop) (R : S → Prop) : Prop :=
  ∀ s, P s → match c s with
    | .ok a s' => Q a s'
    | .error _ s' => R s'

variable {P P' : S → Prop} {Q Q' : α → S → Prop} {R R' : S → Prop}

theorem Triple.weaken {c : EStateM ε S α} (h : Triple P c Q R) (hP : ∀ s, P' s → P s)
    (hQ : ∀ a s, Q a s → Q' a s) (hR : ∀ s, R s → R' s) : Triple P' c Q' R' := by
  intro s hs
  have hc := h s (hP s hs)
  cases hend : c s with
  | ok a s' =>
    rw [hend] at hc
    exact hQ a s' hc
  | error e s' =>
    rw [hend] at hc
    exact hR s' hc

theorem Triple.pre {c : EStateM ε S α} (h : Triple P c Q R) (hP : ∀ s, P' s → P s) :
    Triple P' c Q R :=
  h.weaken hP (fun _ _ h => h) fun _ h => h

/-- A triple state by state. -/
theorem triple_of_each {c : EStateM ε S α} (h : ∀ s, P s → Triple (· = s) c Q R) : Triple P c Q R :=
  fun s hs => h s hs s rfl

theorem triple_false {c : EStateM ε S α} : Triple (fun _ => False) c Q R := fun _ h => h.elim

theorem triple_pure (a : α) (h : ∀ s, P s → Q a s) : Triple P (pure a : EStateM ε S α) Q R := h

theorem triple_throw (e : ε) (h : ∀ s, P s → R s) : Triple P (throw e : EStateM ε S α) Q R := h

theorem triple_modify (f : S → S) {Q : PUnit → S → Prop} (h : ∀ s, P s → Q ⟨⟩ (f s)) :
    Triple P (modify f : EStateM ε S PUnit) Q R := h

theorem triple_orFail (x : Except ε α) (hok : ∀ a, x = .ok a → ∀ s, P s → Q a s)
    (herror : ∀ e, x = .error e → ∀ s, P s → R s) : Triple P (orFail x) Q R := by
  cases x with
  | ok a => exact triple_pure a (hok a rfl)
  | error e => exact triple_throw e (herror e rfl)

/-- One command after another: the second starts with what the first leaves of its value. -/
theorem triple_bind {c : EStateM ε S α} {f : α → EStateM ε S β} {M : α → S → Prop}
    {Q : β → S → Prop} (hc : Triple P c M R) (hf : ∀ a, Triple (M a) (f a) Q R) :
    Triple P (c >>= f) Q R := by
  intro s hs
  have hfirst := hc s hs
  change match EStateM.bind c f s with
    | .ok a s' => Q a s'
    | .error _ s' => R s'
  unfold EStateM.bind
  cases hend : c s with
  | ok a s' =>
    rw [hend] at hfirst
    exact hf a s' hfirst
  | error e s' =>
    rw [hend] at hfirst
    exact hfirst

/-- From a state that is known the next is. -/
theorem triple_modify_at (f : S → S) (s : S) :
    Triple (· = s) (modify f : EStateM ε S PUnit) (fun _ => (· = f s)) R :=
  triple_modify f fun _ h => congrArg f h

/-- Where a command looks at the state, the rest starts in that very state. -/
theorem triple_get {f : S → EStateM ε S β} {Q : β → S → Prop}
    (h : ∀ s, P s → Triple (· = s) (f s) Q R) :
    Triple P (get >>= f) Q R :=
  fun s hs => h s hs s rfl

theorem Triple.ignore {c : EStateM ε S α} {Q : Unit → S → Prop}
    (h : Triple P c (fun _ => Q ()) (Q ())) :
    Triple P (ignore c) Q R := by
  intro s hs
  have hc := h s hs
  change Q () (after c s)
  unfold after
  cases hend : c s with
  | ok a s' => simpa only [hend] using hc
  | error e s' => simpa only [hend] using hc

theorem Triple.after {c : EStateM ε S α} {I : S → Prop} (h : Triple P c (fun _ => I) I) {s : S}
    (hs : P s) :
    I (after c s) := by
  have hc := h s hs
  unfold Command.after
  cases hend : c s with
  | ok a s' => simpa only [hend] using hc
  | error e s' => simpa only [hend] using hc

/-- What holds before and after, whichever way the command ends. -/
def Keeps (I : S → Prop) (c : EStateM ε S α) : Prop := Triple I c (fun _ => I) I

variable {I : S → Prop}

theorem Keeps.after {c : EStateM ε S α} (h : Keeps I c) {s : S} (hs : I s) : I (after c s) :=
  Triple.after h hs

theorem Keeps.bind {c : EStateM ε S α} {f : α → EStateM ε S β} (hc : Keeps I c)
    (hf : ∀ a, Keeps I (f a)) :
    Keeps I (c >>= f) :=
  triple_bind hc hf

theorem keeps_get {f : S → EStateM ε S β} (h : ∀ s, I s → Triple (· = s) (f s) (fun _ => I) I) :
    Keeps I (get >>= f) :=
  triple_get h

/-- What is kept is kept from the state at hand. -/
theorem Triple.here {c : EStateM ε S α} {s : S} (h : Triple I c Q R) (hs : I s) :
    Triple (· = s) c Q R :=
  h.pre fun _ heq => heq ▸ hs

theorem Keeps.here {c : EStateM ε S α} {s : S} (h : Keeps I c) (hs : I s) :
    Triple (· = s) c (fun _ => I) I :=
  Triple.here h hs

theorem Keeps.ignore {c : EStateM ε S α} (h : Keeps I c) : Keeps I (Command.ignore c) :=
  Triple.ignore h

theorem keeps_pure (a : α) : Keeps I (pure a : EStateM ε S α) := triple_pure a fun _ h => h

theorem keeps_throw (e : ε) : Keeps I (throw e : EStateM ε S α) := triple_throw e fun _ h => h

theorem keeps_orFail (x : Except ε α) : Keeps I (orFail x) :=
  triple_orFail x (fun _ _ _ h => h) fun _ _ _ h => h

end Command
