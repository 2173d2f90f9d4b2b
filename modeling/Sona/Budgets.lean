/-
# How many wakes a subscription grants

The high-priority wakes of `claim_wake` (`http/msg.rs`) pass two budgets. Call
controls have a token bucket: a debt that each grant adds one to, and that is
repaid one for every interval since the last grant. A claim that the bucket
refuses finds nothing repaid, so the debt is written back as it was
(`controlBudget_cases`); in any interval of time the bucket grants its burst and
one wake for each interval of repayment (`control_bucket`).

Behind it, and behind the min-interval of calls, an hour's ceiling counts in a
window that begins anew when an hour has passed. What was granted late in one
window is forgotten early in the next (`ceiling_forgets`); where a claim that begins
a window finds no grant younger than an hour, every hour is under the ceiling
(`hourly_ceiling_rolls`).

Key definitions: `WakeClaim`, `bucketTimes`, `Woken`, `Forgets`, `HourlyCeiling`.
Key theorems: `controlBudget_cases`, `control_bucket`, `hourly_ceiling_rolls`.
-/
import Sona.Lib.Trace
import Sona.Wake

namespace Sona

/-- A claim: its class, and when. -/
structure WakeClaim where
  wake : WakeClass
  now : ℕ
deriving DecidableEq, Repr

/-- The subscription after a claim. -/
def claimStep (config : Config) (sub : PushSub) (c : WakeClaim) : PushSub :=
  (claimWake sub c.wake c.now config).2

/-! ### The token bucket -/

/-- What a claim can do to the bucket: a refusal leaves it, as nothing was repaid. -/
theorem controlBudget_cases {sub : PushSub} (hdebt : sub.controlWakeDebt ≤ controlWakeBurst) (t : ℕ)
    (config : Config) : controlBudget sub t config = (false, sub) ∨
    ∃ debt, debt < controlWakeBurst ∧
      sub.controlWakeDebt ≤ debt + (t - sub.lastWakeControl) / max config.controlWakeMinSecs 1 ∧
      controlBudget sub t config = (true, { sub with controlWakeDebt := debt + 1, lastWakeControl := t }) := by
  have hburst : controlWakeBurst = 8 := rfl
  unfold controlBudget
  dsimp only
  generalize (t - sub.lastWakeControl) / max config.controlWakeMinSecs 1 = repaid
  by_cases hover : sub.controlWakeDebt - min repaid (2 ^ 32 - 1) ≥ controlWakeBurst
  · have hsame : sub.controlWakeDebt - min repaid (2 ^ 32 - 1) = sub.controlWakeDebt := by omega
    rw [if_pos hover, hsame]
    exact Or.inl rfl
  · rw [if_neg hover]
    exact Or.inr ⟨_, by omega, by omega, rfl⟩

/-- Whether the bucket grants a claim. -/
def WakeClaim.granted (config : Config) (sub : PushSub) (c : WakeClaim) : Bool :=
  decide (c.wake = .callControl) && (controlBudget sub c.now config).1

/-- What a claim leaves in the bucket: the debt, and the time of the last grant. -/
def PushSub.bucket (sub : PushSub) : ℕ × ℕ := (sub.controlWakeDebt, sub.lastWakeControl)

theorem claimStep_bucket (config : Config) (sub : PushSub) (c : WakeClaim) :
    (claimStep config sub c).bucket =
    if c.wake = .callControl then (controlBudget sub c.now config).2.bucket else sub.bucket := by
  unfold claimStep claimWake
  cases c.wake with
  | none => rfl
  | normal =>
    dsimp only
    split <;> rfl
  | call =>
    dsimp only
    split
    · split <;> rfl
    · rfl
  | callControl =>
    dsimp only
    split <;> rfl

/-- The times at which the bucket grants. -/
def bucketTimes (config : Config) : PushSub → List WakeClaim → List ℕ
  | _, [] => []
  | sub, c :: cs =>
    (if c.granted config sub then [c.now] else []) ++ bucketTimes config (claimStep config sub c) cs

/-- The bucket after a claim: as it was, or a grant. -/
theorem bucket_step (config : Config) {sub : PushSub}
    (hdebt : sub.controlWakeDebt ≤ controlWakeBurst) (c : WakeClaim) :
    (c.granted config sub = false ∧ (claimStep config sub c).bucket = sub.bucket) ∨
    ∃ debt, c.granted config sub = true ∧ debt < controlWakeBurst ∧
      sub.controlWakeDebt ≤ debt + (c.now - sub.lastWakeControl) / max config.controlWakeMinSecs 1 ∧
      (claimStep config sub c).bucket = (debt + 1, c.now) := by
  have hbucket := claimStep_bucket config sub c
  unfold WakeClaim.granted
  by_cases hclass : c.wake = .callControl
  · rw [if_pos hclass] at hbucket
    rw [decide_eq_true hclass, Bool.true_and]
    rcases controlBudget_cases hdebt c.now config with h | ⟨debt, hlt, hrepaid, h⟩
    · rw [h] at hbucket ⊢
      exact Or.inl ⟨rfl, hbucket⟩
    · rw [h] at hbucket ⊢
      exact Or.inr ⟨debt, rfl, hlt, hrepaid, hbucket⟩
  · rw [if_neg hclass] at hbucket
    rw [decide_eq_false hclass]
    exact Or.inl ⟨rfl, hbucket⟩

theorem debt_step (config : Config) {sub : PushSub} (hdebt : sub.controlWakeDebt ≤ controlWakeBurst)
    (c : WakeClaim) :
    (claimStep config sub c).controlWakeDebt ≤ controlWakeBurst := by
  rcases bucket_step config hdebt c with ⟨-, h⟩ | ⟨debt, -, hlt, -, h⟩
  · rw [show (claimStep config sub c).controlWakeDebt = sub.controlWakeDebt from congrArg Prod.fst h]
    exact hdebt
  · rw [show (claimStep config sub c).controlWakeDebt = debt + 1 from congrArg Prod.fst h]
    exact hlt

section bucket

variable (config : Config)

/-- The grants at or after the first claim. -/
theorem le_bucketTimes {first : ℕ} : ∀ (cs : List WakeClaim) {sub : PushSub},
    (∀ c ∈ cs, first ≤ c.now) → ∀ t ∈ bucketTimes config sub cs, first ≤ t
  | [], _, _, t, ht => by cases ht
  | c :: cs, sub, hfirst, t, ht => by
    unfold bucketTimes at ht
    rcases List.mem_append.mp ht with hnow | hlater
    · split at hnow
      · rw [List.mem_singleton.mp hnow]
        exact hfirst c List.mem_cons_self
      · cases hnow
    · exact le_bucketTimes cs (fun c' hc' => hfirst c' (List.mem_cons_of_mem c hc')) t hlater

/-- **The grants until `b`** are the debts that are still free and what is repaid until then. -/
theorem grants_until (b : ℕ) :
    ∀ (cs : List WakeClaim) {sub : PushSub}, sub.controlWakeDebt ≤ controlWakeBurst →
    (sub.lastWakeControl :: cs.map WakeClaim.now).Pairwise (· ≤ ·) →
    ((bucketTimes config sub cs).filter (· ≤ b)).length ≤
      (controlWakeBurst - sub.controlWakeDebt) + (b - sub.lastWakeControl) / max config.controlWakeMinSecs 1
  | [], _, _, _ => Nat.zero_le _
  | c :: cs, sub, hdebt, hsorted => by
    obtain ⟨hlast, hrest⟩ := List.pairwise_cons.mp hsorted
    have hnow : sub.lastWakeControl ≤ c.now := hlast _ List.mem_cons_self
    have hdebt' := debt_step config hdebt c
    unfold bucketTimes
    rw [List.filter_append, List.length_append]
    rcases bucket_step config hdebt c with ⟨hno, h⟩ | ⟨debt, hyes, hlt, hrepaid, h⟩
    · obtain ⟨hd, hl⟩ := Prod.ext_iff.mp h
      change (claimStep config sub c).controlWakeDebt = sub.controlWakeDebt at hd
      change (claimStep config sub c).lastWakeControl = sub.lastWakeControl at hl
      have hsorted' :
          ((claimStep config sub c).lastWakeControl :: cs.map WakeClaim.now).Pairwise (· ≤ ·) := by
        rw [hl]
        refine List.pairwise_cons.mpr ⟨fun t ht => ?_, (List.pairwise_cons.mp hrest).2⟩
        exact hlast t (List.mem_cons_of_mem _ ht)
      have ih := grants_until b cs hdebt' hsorted'
      rw [hd, hl] at ih
      rw [hno, if_neg Bool.false_ne_true]
      exact (Nat.zero_add _).trans_le ih
    · obtain ⟨hd, hl⟩ := Prod.ext_iff.mp h
      change (claimStep config sub c).controlWakeDebt = debt + 1 at hd
      change (claimStep config sub c).lastWakeControl = c.now at hl
      have hsorted' :
          ((claimStep config sub c).lastWakeControl :: cs.map WakeClaim.now).Pairwise (· ≤ ·) := by
        rw [hl]
        exact hrest
      have ih := grants_until b cs hdebt' hsorted'
      rw [hd, hl] at ih
      rw [hyes, if_pos rfl]
      by_cases hb : c.now ≤ b
      · -- what is repaid until the grant, and after it
        have hsplit : (c.now - sub.lastWakeControl) / max config.controlWakeMinSecs 1 +
            (b - c.now) / max config.controlWakeMinSecs 1 ≤
              (b - sub.lastWakeControl) / max config.controlWakeMinSecs 1 := by
          have hsum : c.now - sub.lastWakeControl + (b - c.now) = b - sub.lastWakeControl := by
            omega
          rw [← hsum]
          exact Nat.div_add_div_le_add_div
        have hone : ([c.now].filter (· ≤ b)).length ≤ 1 := List.length_filter_le _ _
        omega
      · -- the later ones are past `b` as well
        have hnone : (bucketTimes config (claimStep config sub c) cs).filter (· ≤ b) = [] := by
          refine List.filter_eq_nil_iff.mpr fun t ht => ?_
          have hlate : c.now ≤ t := le_bucketTimes config cs (fun c' hc' =>
            (List.pairwise_cons.mp hrest).1 _ (List.mem_map_of_mem hc')) t ht
          simp only [decide_eq_true_eq]
          omega
        rw [hnone, List.filter_cons_of_neg (by simpa using hb), List.filter_nil]
        exact Nat.zero_le _

/-- **The grants of an interval.** The first of them leaves a debt of one at least. -/
theorem grants_between (a b : ℕ) : ∀ (cs : List WakeClaim) {sub : PushSub},
    sub.controlWakeDebt ≤ controlWakeBurst →
    (sub.lastWakeControl :: cs.map WakeClaim.now).Pairwise (· ≤ ·) →
    ((bucketTimes config sub cs).filter fun t => a ≤ t && t ≤ b).length ≤
      controlWakeBurst + (b - a) / max config.controlWakeMinSecs 1
  | [], _, _, _ => Nat.zero_le _
  | c :: cs, sub, hdebt, hsorted => by
    obtain ⟨hlast, hrest⟩ := List.pairwise_cons.mp hsorted
    have hdebt' := debt_step config hdebt c
    have hsorted' : ∀ last, (claimStep config sub c).lastWakeControl = last →
        (∀ c' ∈ cs, last ≤ c'.now) →
        ((claimStep config sub c).lastWakeControl :: cs.map WakeClaim.now).Pairwise (· ≤ ·) := by
      intro last hl hle
      rw [hl]
      refine List.pairwise_cons.mpr ⟨fun t ht => ?_, (List.pairwise_cons.mp hrest).2⟩
      obtain ⟨c', hc', rfl⟩ := List.mem_map.mp ht
      exact hle c' hc'
    have hafter : ∀ c' ∈ cs, c.now ≤ c'.now := fun c' hc' =>
      (List.pairwise_cons.mp hrest).1 _ (List.mem_map_of_mem hc')
    unfold bucketTimes
    rw [List.filter_append, List.length_append]
    rcases bucket_step config hdebt c with ⟨hno, h⟩ | ⟨debt, hyes, hlt, hrepaid, h⟩
    · have hl : (claimStep config sub c).lastWakeControl = sub.lastWakeControl :=
        congrArg Prod.snd h
      have ih := grants_between a b cs hdebt' (hsorted' _ hl fun c' hc' =>
        hlast _ (List.mem_cons_of_mem _ (List.mem_map_of_mem hc')))
      rw [hno, if_neg Bool.false_ne_true]
      exact (Nat.zero_add _).trans_le ih
    · have hd : (claimStep config sub c).controlWakeDebt = debt + 1 := congrArg Prod.fst h
      have hl : (claimStep config sub c).lastWakeControl = c.now := congrArg Prod.snd h
      rw [hyes, if_pos rfl]
      by_cases ha : a ≤ c.now
      · have huntil := grants_until config b cs hdebt' (hsorted' _ hl hafter)
        have hfewer : ((bucketTimes config (claimStep config sub c) cs).filter fun t => a ≤ t && t ≤ b).length ≤
            ((bucketTimes config (claimStep config sub c) cs).filter (· ≤ b)).length := by
          refine (List.monotone_filter_right _ fun t ht => ?_).length_le
          exact (Bool.and_eq_true_iff.mp ht).2
        have hsince : (b - c.now) / max config.controlWakeMinSecs 1 ≤
            (b - a) / max config.controlWakeMinSecs 1 :=
          Nat.div_le_div_right (by omega)
        have hone : ([c.now].filter fun t => a ≤ t && t ≤ b).length ≤ 1 := List.length_filter_le _ _
        rw [hd, hl] at huntil
        omega
      · have ih := grants_between a b cs hdebt' (hsorted' _ hl hafter)
        rw [List.filter_cons_of_neg (by simp [ha]), List.filter_nil]
        exact (Nat.zero_add _).trans_le ih

end bucket

/-- The subscription that claims lead to, each under its own configuration. -/
def PushSub.after (endpoint : String) (setup : List (Config × WakeClaim)) : PushSub :=
  Trace.run (fun sub e => claimStep e.1 sub e.2) { endpoint } setup

/-- The debt of a reached bucket is within the burst. -/
theorem after_debt (endpoint : String) (setup : List (Config × WakeClaim)) :
    (PushSub.after endpoint setup).controlWakeDebt ≤ controlWakeBurst :=
  Trace.run_inv (I := fun sub : PushSub => sub.controlWakeDebt ≤ controlWakeBurst)
    (fun _ e hdebt => debt_step e.1 hdebt e.2) (Nat.zero_le _) setup

/-- Its last grant is one of the claims. -/
theorem after_last (endpoint : String) {now : ℕ} (setup : List (Config × WakeClaim))
    (hnow : ∀ e ∈ setup, e.2.now ≤ now) : (PushSub.after endpoint setup).lastWakeControl ≤ now := by
  induction setup using List.reverseRecOn with
  | nil => exact Nat.zero_le _
  | append_singleton setup e ih =>
    have hlast := ih fun e' he' => hnow e' (List.mem_append_left _ he')
    have hrun : PushSub.after endpoint (setup ++ [e]) =
        claimStep e.1 (PushSub.after endpoint setup) e.2 :=
      Trace.run_snoc ..
    rw [hrun]
    rcases bucket_step e.1 (after_debt endpoint setup) e.2 with ⟨-, h⟩ | ⟨debt, -, -, -, h⟩
    · exact (congrArg Prod.snd h).trans_le hlast
    · exact (congrArg Prod.snd h).trans_le (hnow e (by simp))

/-- A claim that the bucket refuses leaves the subscription as it was. -/
theorem claimStep_refused {config : Config} {sub : PushSub}
    (hdebt : sub.controlWakeDebt ≤ controlWakeBurst) {c : WakeClaim}
    (hclass : c.wake = .callControl) (hno : (controlBudget sub c.now config).1 = false) :
    claimStep config sub c = sub := by
  unfold claimStep claimWake
  rw [hclass]
  rcases controlBudget_cases hdebt c.now config with h | ⟨debt, -, -, h⟩
  · rw [h]
    rfl
  · rw [h] at hno
    cases hno

/-- **The bucket of call controls.** From any subscription that claims lead to, the bucket
grants in an interval its burst and one wake for each interval of repayment; its debt stays within
the burst, and a claim that it refuses leaves it as it was. -/
theorem control_bucket (endpoint : String) (setup : List (Config × WakeClaim)) (config : Config)
    (cs : List WakeClaim)
    (hsorted : ((setup.map Prod.snd ++ cs).map WakeClaim.now).Pairwise (· ≤ ·)) :
    (∀ t1 t2, ((bucketTimes config (PushSub.after endpoint setup) cs).filter fun t => t1 ≤ t && t ≤ t2).length ≤
      controlWakeBurst + (t2 - t1) / max 1 config.controlWakeMinSecs) ∧
    ∀ pre, pre <+: cs →
      (Trace.run (claimStep config) (PushSub.after endpoint setup) pre).controlWakeDebt ≤
        controlWakeBurst ∧
      ∀ c : WakeClaim, c.wake = .callControl →
        (controlBudget (Trace.run (claimStep config) (PushSub.after endpoint setup) pre) c.now config).1 = false →
        claimStep config (Trace.run (claimStep config) (PushSub.after endpoint setup) pre) c =
          Trace.run (claimStep config) (PushSub.after endpoint setup) pre := by
  rw [List.map_append, List.pairwise_append] at hsorted
  obtain ⟨-, hcs, hbefore⟩ := hsorted
  have hreached := after_debt endpoint setup
  refine ⟨fun t1 t2 => ?_, fun pre _ => ?_⟩
  · rw [max_comm]
    refine grants_between config t1 t2 cs hreached (List.pairwise_cons.mpr ⟨fun t ht => ?_, hcs⟩)
    refine after_last endpoint setup fun e he => ?_
    exact hbefore _ (List.mem_map_of_mem (List.mem_map_of_mem he)) _ ht
  · have hdebt : (Trace.run (claimStep config) (PushSub.after endpoint setup) pre).controlWakeDebt ≤
        controlWakeBurst :=
      Trace.run_inv (I := fun sub : PushSub => sub.controlWakeDebt ≤ controlWakeBurst)
        (fun _ c hd => debt_step config hd c) hreached pre
    exact ⟨hdebt, fun c hclass hno => claimStep_refused hdebt hclass hno⟩

/-- Nine controls at once from a fresh subscription, and two more a second and
ten later: the ninth is refused. -/
theorem control_bucket_nine :
    let cs := (List.replicate 9 1000 ++ [1001, 1010]).map (WakeClaim.mk .callControl)
    bucketTimes {} { endpoint := "up" } cs = List.replicate 8 1000 ++ [1001, 1010] ∧
    ((bucketTimes {} (PushSub.after "up" []) cs).filter fun t => 1000 ≤ t && t ≤ 1010).length ≤ 18 :=
  ⟨by decide +kernel, (control_bucket "up" [] {} _ (by decide)).1 1000 1010⟩

/-! ### The hour's ceiling -/

/-- The window of a class that has one. -/
def PushSub.hour (sub : PushSub) : WakeClass → ℕ × ℕ
  | .call => sub.callWindow
  | .callControl => sub.controlWindow
  | _ => (0, 0)

/-- Its ceiling. -/
def Config.wakesPerHour (config : Config) : WakeClass → ℕ
  | .call => config.callWakesPerHour
  | .callControl => config.controlWakesPerHour
  | _ => 0

/-- A claim gets to the ceiling: it is late enough after the last call, or its
bucket has a wake left. -/
def WakeClaim.Reaches (config : Config) (sub : PushSub) (c : WakeClaim) : Prop :=
  match c.wake with
  | .call => config.callWakeMinSecs ≤ c.now - sub.lastWakeCall
  | .callControl =>
    sub.controlWakeDebt - min ((c.now - sub.lastWakeControl) / max config.controlWakeMinSecs 1) (2 ^ 32 - 1) <
      controlWakeBurst
  | _ => False

instance (config : Config) (sub : PushSub) (c : WakeClaim) : Decidable (c.Reaches config sub) :=
  match h : c.wake with
  | .call => decidable_of_iff (config.callWakeMinSecs ≤ c.now - sub.lastWakeCall)
      (by rw [WakeClaim.Reaches, h])
  | .callControl =>
    decidable_of_iff (sub.controlWakeDebt -
      min ((c.now - sub.lastWakeControl) / max config.controlWakeMinSecs 1) (2 ^ 32 - 1) < controlWakeBurst)
      (by rw [WakeClaim.Reaches, h])
  | .none => isFalse (by rw [WakeClaim.Reaches, h]; exact id)
  | .normal => isFalse (by rw [WakeClaim.Reaches, h]; exact id)

/-- A claim of another class leaves the window of this one. -/
theorem claimStep_hour_ne (config : Config) (sub : PushSub) {c : WakeClaim} {wake : WakeClass}
    (hne : c.wake ≠ wake) :
    (claimStep config sub c).hour wake = sub.hour wake := by
  unfold claimStep claimWake
  cases hc : c.wake with
  | none => rfl
  | normal =>
    dsimp only
    split <;> cases wake <;> rfl
  | call =>
    dsimp only
    cases wake with
    | call => exact absurd hc hne
    | none | normal => split <;> rfl
    | callControl =>
      split
      · split <;> rfl
      · rfl
  | callControl =>
    dsimp only
    have hbudget : ∀ w, w ≠ .callControl →
        (controlBudget sub c.now config).2.hour w = sub.hour w := by
      intro w hw
      unfold controlBudget
      dsimp only
      split <;> cases w <;> rfl
    cases wake with
    | callControl => exact absurd hc hne
    | none | normal => split <;> rfl
    | call =>
      split
      · exact hbudget .call (by decide)
      · exact hbudget .call (by decide)

/-- A claim of a class with a window, against it. -/
theorem claimWake_hour (config : Config) (sub : PushSub) {c : WakeClaim}
    (hhigh : c.wake = .call ∨ c.wake = .callControl) :
    (¬ c.Reaches config sub ∧ (claimWake sub c.wake c.now config).1 = none ∧
      (claimStep config sub c).hour c.wake = sub.hour c.wake) ∨
    (c.Reaches config sub ∧
      ((claimWake sub c.wake c.now config).1.isSome, (claimStep config sub c).hour c.wake) =
        hourlyCeiling (sub.hour c.wake) c.now (config.wakesPerHour c.wake)) := by
  unfold claimStep claimWake WakeClaim.Reaches
  rcases hhigh with hc | hc <;> rw [hc] <;> dsimp only
  · by_cases hmin : config.callWakeMinSecs ≤ c.now - sub.lastWakeCall
    · refine Or.inr ⟨hmin, ?_⟩
      rw [if_pos hmin]
      change _ = hourlyCeiling sub.callWindow c.now config.callWakesPerHour
      rcases hourlyCeiling sub.callWindow c.now config.callWakesPerHour with ⟨_ | _, window⟩ <;> rfl
    · refine Or.inl ⟨hmin, ?_⟩
      rw [if_neg hmin]
      exact ⟨rfl, rfl⟩
  · unfold controlBudget
    dsimp only
    by_cases hleft : sub.controlWakeDebt - min
      ((c.now - sub.lastWakeControl) / max config.controlWakeMinSecs 1)
        (2 ^ 32 - 1) < controlWakeBurst
    · refine Or.inr ⟨hleft, ?_⟩
      rw [if_neg (Nat.not_le.mpr hleft)]
      change _ = hourlyCeiling sub.controlWindow c.now config.controlWakesPerHour
      dsimp only
      rcases hourlyCeiling sub.controlWindow c.now config.controlWakesPerHour with ⟨_ | _, window⟩ <;> rfl
    · refine Or.inl ⟨hleft, ?_⟩
      rw [if_pos (Nat.not_lt.mp hleft)]
      exact ⟨rfl, rfl⟩

/-- A subscription, and the claims that it has granted, the last one first. -/
structure Woken where
  sub : PushSub
  log : List WakeClaim := []

def Woken.step (config : Config) (w : Woken) (c : WakeClaim) : Woken where
  sub := claimStep config w.sub c
  log := if (claimWake w.sub c.wake c.now config).1.isSome then c :: w.log else w.log

/-- When it has granted wakes of a class. -/
def Woken.grants (w : Woken) (wake : WakeClass) : List ℕ :=
  (w.log.filter (·.wake = wake)).map WakeClaim.now

/-- How many of them from `a` to `b`. -/
def Woken.between (w : Woken) (wake : WakeClass) (a b : ℕ) : ℕ :=
  ((w.grants wake).filter fun t => a ≤ t && t ≤ b).length

/-- The claim begins its class's window anew while a grant of the class is younger than an hour. -/
def Woken.Forgets (config : Config) (w : Woken) (c : WakeClaim) : Prop :=
  c.Reaches config w.sub ∧ 3600 ≤ c.now - (w.sub.hour c.wake).1 ∧
  ∃ t ∈ w.grants c.wake, c.now < t + 3600

instance (config : Config) (w : Woken) (c : WakeClaim) : Decidable (w.Forgets config c) :=
  inferInstanceAs (Decidable (_ ∧ _ ∧ _))

/-- What a window stands for: the last grants are counted in it, and the ones before are an hour
older than its start. -/
def Ceiled (limit : ℕ) (window : ℕ × ℕ) (grants : List ℕ) : Prop :=
  ∃ cur old, grants = cur ++ old ∧ cur.length = window.2 ∧ window.2 ≤ limit ∧
    (∀ t ∈ cur, window.1 ≤ t) ∧ (∀ t ∈ old, t + 3600 ≤ window.1) ∧
    ∀ a b, b < a + 3600 → (old.filter fun t => a ≤ t && t ≤ b).length ≤ limit

/-- Within an hour there are the grants of the window, or ones before it. -/
theorem Ceiled.between {limit : ℕ} {window : ℕ × ℕ} {grants : List ℕ}
    (h : Ceiled limit window grants) (a b : ℕ) (hab : b < a + 3600) :
    (grants.filter fun t => a ≤ t && t ≤ b).length ≤ limit := by
  obtain ⟨cur, old, rfl, hcount, hlimit, hcur, hold, hbefore⟩ := h
  rw [List.filter_append, List.length_append]
  by_cases hin : ∃ t ∈ old, a ≤ t
  · -- then the window begins after `b`
    obtain ⟨t, ht, hat⟩ := hin
    have hnone : (cur.filter fun t => a ≤ t && t ≤ b) = [] := by
      refine List.filter_eq_nil_iff.mpr fun t' ht' => ?_
      have hstart := hold t ht
      have hlate := hcur t' ht'
      simp only [Bool.and_eq_true, decide_eq_true_eq]
      omega
    rw [hnone]
    have hfew := hbefore a b hab
    simpa using hfew
  · have hnone : (old.filter fun t => a ≤ t && t ≤ b) = [] := by
      refine List.filter_eq_nil_iff.mpr fun t ht => ?_
      have hearly : ¬ a ≤ t := fun hat => hin ⟨t, ht, hat⟩
      simp [hearly]
    have hfew : (cur.filter fun t => a ≤ t && t ≤ b).length ≤ cur.length :=
      List.length_filter_le _ _
    rw [hnone, List.length_nil]
    omega

/-- A charge that forgets no grant younger than an hour keeps it. -/
theorem Ceiled.charge {limit : ℕ} {window : ℕ × ℕ} {grants : List ℕ}
    (h : Ceiled limit window grants) {t : ℕ} (ht : window.1 ≤ t)
    (hremembers : 3600 ≤ t - window.1 → ∀ g ∈ grants, g + 3600 ≤ t) :
    Ceiled limit (hourlyCeiling window t limit).2
      (if (hourlyCeiling window t limit).1 then t :: grants else grants) := by
  unfold hourlyCeiling
  dsimp only
  by_cases hnew : 3600 ≤ t - window.1
  · rw [if_pos hnew]
    by_cases hfull : 0 ≥ limit
    · rw [if_pos hfull, if_neg Bool.false_ne_true]
      exact ⟨[], grants, rfl, rfl, Nat.zero_le _, by simp, hremembers hnew, h.between⟩
    · rw [if_neg hfull, if_pos rfl]
      exact ⟨[t], grants, rfl, rfl, by dsimp only; omega, by simp, hremembers hnew, h.between⟩
  · rw [if_neg hnew]
    obtain ⟨cur, old, rfl, hcount, hlimit, hcur, hold, hbefore⟩ := h
    by_cases hfull : window.2 ≥ limit
    · rw [if_pos hfull, if_neg Bool.false_ne_true]
      exact ⟨cur, old, rfl, hcount, hlimit, hcur, hold, hbefore⟩
    · rw [if_neg hfull, if_pos rfl]
      refine ⟨t :: cur, old, rfl, congrArg (· + 1) hcount,
        by dsimp only; omega, fun t' ht' => ?_, hold, hbefore⟩
      rcases List.mem_cons.mp ht' with rfl | ht'
      · exact ht
      · exact hcur t' ht'

/-- What a claim adds to the grants of its class. -/
theorem Woken.grants_step (config : Config) (w : Woken) (c : WakeClaim) (wake : WakeClass) :
    (w.step config c).grants wake =
      if c.wake = wake ∧ (claimWake w.sub c.wake c.now config).1.isSome then c.now :: w.grants wake
      else w.grants wake := by
  unfold Woken.grants Woken.step
  dsimp only
  by_cases hgrant : (claimWake w.sub c.wake c.now config).1.isSome
  · rw [if_pos hgrant]
    by_cases hclass : c.wake = wake
    · rw [if_pos ⟨hclass, hgrant⟩, List.filter_cons_of_pos (by simpa using hclass), List.map_cons]
    · rw [if_neg fun h => hclass h.1, List.filter_cons_of_neg (by simpa using hclass)]
  · rw [if_neg hgrant, if_neg fun h => hgrant h.2]

section ceiling

variable {config : Config} {wake : WakeClass}

/-- A claim that forgets nothing keeps what a window stands for, and a window begins at a claim. -/
theorem ceiled_step (hhigh : wake = .call ∨ wake = .callControl) {w : Woken} {c : WakeClaim}
    (h : Ceiled (config.wakesPerHour wake) (w.sub.hour wake) (w.grants wake))
    (ht : (w.sub.hour wake).1 ≤ c.now) (hremembers : ¬ w.Forgets config c) :
    Ceiled (config.wakesPerHour wake) ((w.step config c).sub.hour wake) ((w.step config c).grants wake) ∧
    ((w.step config c).sub.hour wake).1 ≤ c.now := by
  rw [Woken.grants_step]
  change Ceiled _ ((claimStep config w.sub c).hour wake) _ ∧
    ((claimStep config w.sub c).hour wake).1 ≤ c.now
  by_cases hclass : c.wake = wake
  · subst hclass
    rcases claimWake_hour config w.sub hhigh with ⟨-, hnone, hsame⟩ | ⟨hreaches, hceiling⟩
    · rw [hnone, if_neg fun h => Bool.false_ne_true h.2, hsame]
      exact ⟨h, ht⟩
    · obtain ⟨hgrant, hwindow⟩ := Prod.ext_iff.mp hceiling
      have hcharge := h.charge ht fun hnew g hg => by
        have hold : ¬ c.now < g + 3600 := fun hyoung => hremembers ⟨hreaches, hnew, g, hg, hyoung⟩
        omega
      have hstart : (hourlyCeiling (w.sub.hour c.wake) c.now (config.wakesPerHour c.wake)).2.1 ≤ c.now := by
        unfold hourlyCeiling
        dsimp only
        split <;> split <;> first | exact le_refl _ | exact ht
      dsimp only at hgrant hwindow
      rw [hgrant, hwindow]
      simp only [true_and]
      exact ⟨hcharge, hstart⟩
  · rw [if_neg fun h => hclass h.1, claimStep_hour_ne config w.sub hclass]
    exact ⟨h, ht⟩

theorem ceiled_run (hhigh : wake = .call ∨ wake = .callControl) :
    ∀ (cs : List WakeClaim) {w : Woken},
    Ceiled (config.wakesPerHour wake) (w.sub.hour wake) (w.grants wake) →
    ((w.sub.hour wake).1 :: cs.map WakeClaim.now).Pairwise (· ≤ ·) →
    Trace.Along (Woken.step config) (fun w c => ¬ w.Forgets config c) w cs →
    Ceiled (config.wakesPerHour wake) ((Trace.run (Woken.step config) w cs).sub.hour wake)
      ((Trace.run (Woken.step config) w cs).grants wake)
  | [], _, h, _, _ => h
  | c :: cs, w, h, hsorted, hremembers => by
    obtain ⟨hstart, hrest⟩ := List.pairwise_cons.mp hsorted
    obtain ⟨hlater, hcs⟩ := List.pairwise_cons.mp hrest
    obtain ⟨hkept, hwindow⟩ := ceiled_step hhigh h (hstart _ List.mem_cons_self) hremembers.1
    have hsorted' :
        (((w.step config c).sub.hour wake).1 :: cs.map WakeClaim.now).Pairwise (· ≤ ·) :=
      List.pairwise_cons.mpr ⟨fun t ht => hwindow.trans (hlater t ht), hcs⟩
    exact ceiled_run hhigh cs hkept hsorted' hremembers.2

end ceiling

/-- Every hour is under the ceilings, and what does not reach them costs them nothing. -/
structure HourlyCeiling (config : Config) (w : Woken) : Prop where
  call : ∀ a b, b < a + 3600 → w.between .call a b ≤ config.callWakesPerHour
  control : ∀ a b, b < a + 3600 → w.between .callControl a b ≤ config.controlWakesPerHour
  refused : ∀ c : WakeClaim, ¬ c.Reaches config w.sub →
    (w.step config c).sub.callWindow = w.sub.callWindow ∧
    (w.step config c).sub.controlWindow = w.sub.controlWindow

/-- A claim that the min-interval or the bucket refuses spends nothing of a ceiling. -/
theorem windows_refused {config : Config} {sub : PushSub} {c : WakeClaim}
    (hno : ¬ c.Reaches config sub) :
    (claimStep config sub c).callWindow = sub.callWindow ∧
    (claimStep config sub c).controlWindow = sub.controlWindow := by
  have hhour : ∀ wake, wake = .call ∨ wake = .callControl →
      (claimStep config sub c).hour wake = sub.hour wake := by
    intro wake hhigh
    by_cases hclass : c.wake = wake
    · subst hclass
      rcases claimWake_hour config sub hhigh with ⟨-, -, hsame⟩ | ⟨hreaches, -⟩
      · exact hsame
      · exact absurd hreaches hno
    · exact claimStep_hour_ne config sub hclass
  exact ⟨hhour .call (Or.inl rfl), hhour .callControl (Or.inr rfl)⟩

/-- **The hourly ceiling.** In a run in which no claim begins a window while a grant of its class is
younger than an hour, every hour is under the ceilings, in every state that is reached. -/
theorem hourly_ceiling_rolls (endpoint : String) (config : Config) (cs : List WakeClaim)
    (hsorted : (cs.map WakeClaim.now).Pairwise (· ≤ ·))
    (hremembers : Trace.Along (Woken.step config) (fun w c => ¬ w.Forgets config c) { sub := { endpoint } } cs) :
    ∀ pre, pre <+: cs → HourlyCeiling config (Trace.run (Woken.step config) { sub := { endpoint } } pre) := by
  rintro pre ⟨post, rfl⟩
  rw [List.map_append, List.pairwise_append] at hsorted
  rw [Trace.along_append] at hremembers
  have hpre : ∀ wake, wake = .call ∨ wake = .callControl →
      Ceiled (config.wakesPerHour wake)
        ((Trace.run (Woken.step config) { sub := { endpoint } } pre).sub.hour wake)
        ((Trace.run (Woken.step config) { sub := { endpoint } } pre).grants wake) := by
    intro wake hhigh
    have hstart : (({ endpoint } : PushSub).hour wake) = (0, 0) := by cases wake <;> rfl
    refine ceiled_run hhigh pre ?_ ?_ hremembers.1
    · rw [hstart]
      exact ⟨[], [], rfl, rfl, Nat.zero_le _, by simp, by simp, by simp⟩
    · rw [hstart]
      exact List.pairwise_cons.mpr ⟨fun t _ => Nat.zero_le t, hsorted.1⟩
  exact {
    call := (hpre .call (Or.inl rfl)).between
    control := (hpre .callControl (Or.inr rfl)).between
    refused := fun c hno => windows_refused hno }

/-- A call and a control, a call that comes too soon, and one in the next hour. -/
theorem hourly_ceiling_rolls_two :
    let cs := [WakeClaim.mk .call 9000, ⟨.callControl, 9000⟩, ⟨.call, 9001⟩, ⟨.call, 12700⟩]
    HourlyCeiling {} (Trace.run (Woken.step {}) { sub := { endpoint := "up" } } cs) ∧
    (Trace.run (Woken.step {}) { sub := { endpoint := "up" } } cs).grants .call = [12700, 9000] := by
  intro cs
  have hremembers : Trace.Along (Woken.step {})
      (fun w c => ¬ w.Forgets {} c) { sub := { endpoint := "up" } } cs :=
    ⟨by decide, by decide, by decide, by decide, trivial⟩
  exact ⟨hourly_ceiling_rolls "up" {} cs (by decide) hremembers cs (List.prefix_refl _), by decide⟩

/-- **The ceiling forgets.** A call, and an hour's worth of calls on each side of the window's end:
239 calls ring in eight minutes, where 120 in an hour are allowed. -/
theorem ceiling_forgets :
    let t := 1800000000
    let cs := ([t] ++ (List.range 119).map (t + 3362 + 2 * ·) ++ (List.range 120).map (t + 3600 + 2 * ·)).map
      (WakeClaim.mk .call)
    (cs.map WakeClaim.now).Pairwise (· ≤ ·) ∧ (t + 3838) - (t + 3362) < 3600 ∧
    ({} : Config).callWakesPerHour = 120 ∧
    (Trace.run (Woken.step {}) { sub := { endpoint := "up" } } cs).between .call (t + 3362) (t + 3838) = 239 := by
  decide +kernel

end Sona
