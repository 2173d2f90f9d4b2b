/-
# Budgets in fixed windows

A meter has for each key a window of fixed length, which a charge opens when the key has
none that lasts, and what was spent in it. A charge that would go over the limit is
refused. Windows that are over can be swept at any time: what is left of a key at a
time (`live`) does not tell whether they were (`Alike`), so a meter that
sweeps answers as one that never does (`Machine.answers_eq_unswept`).

A key spends no more than the limit in one window, and no more than twice that in an
interval shorter than a window, which at most two of them meet (`Account`,
`Machine.spentIn_le`).

Key definitions: `Window.Meter.charge`, `Window.Meter.sweep`, `Window.Machine`, `Window.Metered`.
Key theorems: `Window.Alike.charge`, `Window.Machine.answers_eq_unswept`, `Window.Account.step`,
`Window.Machine.metered`.
-/
import Mathlib.Data.List.Basic
import Mathlib.Data.List.Induction
import Mathlib.Algebra.Order.BigOperators.Group.List
import Mathlib.Algebra.Order.Group.Nat
import Sona.Lib.Table
import Sona.Lib.Trace

namespace Window

variable {K : Type} [DecidableEq K]

/-! ### Meters -/

/-- For each key the start of its window and what was spent in it. -/
structure Meter (K : Type) [DecidableEq K] where
  limit : ℕ
  windowSecs : ℕ
  buckets : Table K (ℕ × ℕ) := ∅

/-- A bucket whose window lasts at `now`. -/
def live (w now : ℕ) (b : Option (ℕ × ℕ)) : Option (ℕ × ℕ) := b.filter fun b => now - b.1 < w

namespace Meter

variable (m : Meter K)

def sweep (now : ℕ) : Meter K :=
  { m with buckets := m.buckets.filterMap fun _ b => if now - b.1 < m.windowSecs then some b else none }

/-- What a key has at `now`, if it has a window. -/
def bucket (key : K) (now : ℕ) : Option (ℕ × ℕ) := live m.windowSecs now (m.buckets.get key)

/-- The window that a charge counts in: the one that lasts, or a new one. -/
def window (key : K) (now : ℕ) : ℕ × ℕ := (m.bucket key now).getD (now, 0)

def put (key : K) (b : ℕ × ℕ) : Meter K := { m with buckets := m.buckets.set key b }

def charge (key : K) (cost now : ℕ) : Bool × Meter K :=
  let b := m.window key now
  if b.2 + cost ≤ m.limit then (true, m.put key (b.1, b.2 + cost)) else (false, m.put key b)

/-- What is left of a key's budget at `now`. -/
def remaining (key : K) (now : ℕ) : ℕ := m.limit - (m.window key now).2

/-- A meter that sweeps before a charge when it has `cap` buckets. -/
def tidy (cap now : ℕ) : Meter K := if m.buckets.size ≥ cap then m.sweep now else m

end Meter

inductive Op (K : Type)
  | charge (key : K) (cost now : ℕ)
  | sweep (now : ℕ)

def Op.time : Op K → ℕ
  | .charge _ _ now | .sweep now => now

/-- The call charges the key. -/
def Op.isFor (key : K) : Op K → Bool
  | .charge k _ _ => k = key
  | .sweep _ => false

def Meter.step (cap : ℕ) (m : Meter K) : Op K → Meter K
  | .charge key cost now => ((m.tidy cap now).charge key cost now).2
  | .sweep now => m.sweep now

/-- The answer to a charge. -/
def Meter.answer (cap : ℕ) (m : Meter K) : Op K → Bool
  | .charge key cost now => ((m.tidy cap now).charge key cost now).1
  | .sweep _ => true

/-- The answers of a meter that never sweeps. -/
def Meter.unswept (m : Meter K) : List (Op K) → List Bool
  | [] => []
  | .charge key cost now :: ops => (m.charge key cost now).1 :: Meter.unswept (m.charge key cost now).2 ops
  | .sweep _ :: ops => Meter.unswept m ops

/-! ### Sweeping -/

section sweeping

variable {w now t : ℕ} {b : Option (ℕ × ℕ)} {m m' : Meter K}

/-- A window that lasts lasted before. -/
theorem live_live (h : now ≤ t) : live w t (live w now b) = live w t b := by
  cases b with
  | none => rfl
  | some b =>
    unfold live
    by_cases hb : now - b.1 < w
    · rw [Option.filter_some_pos (by simpa using hb)]
    · have hlater : ¬ t - b.1 < w := by omega
      rw [Option.filter_some_neg (by simpa using hb),
        Option.filter_some_neg (by simpa using hlater)]
      rfl

theorem live_some {p : ℕ × ℕ} (h : live w now b = some p) : b = some p ∧ now - p.1 < w := by
  unfold live at h
  rw [Option.filter_eq_some_iff] at h
  simpa using h

theorem Meter.bucket_sweep (m : Meter K) (key : K) (h : now ≤ t) :
    (m.sweep now).bucket key t = m.bucket key t := by
  have hget : (m.sweep now).buckets.get key = live m.windowSecs now (m.buckets.get key) := by
    unfold Meter.sweep live
    dsimp only
    rw [Table.get_filterMap]
    cases m.buckets.get key with
    | none => rfl
    | some b =>
      by_cases hb : now - b.1 < m.windowSecs
      · rw [Option.bind_some, if_pos hb, Option.filter_some_pos (by simpa using hb)]
      · rw [Option.bind_some, if_neg hb, Option.filter_some_neg (by simpa using hb)]
  unfold Meter.bucket
  rw [hget]
  exact live_live h

theorem Meter.bucket_put (m : Meter K) (key k : K) (b : ℕ × ℕ) (t : ℕ) :
    (m.put key b).bucket k t = if k = key then live m.windowSecs t (some b) else m.bucket k t := by
  unfold Meter.bucket Meter.put
  dsimp only
  rw [Table.get_set]
  split <;> rfl

/-- The window as a program finds it: an entry that is made if there is none,
and reset if it is over. -/
theorem Meter.window_eq (m : Meter K) (key : K) (now : ℕ) : m.window key now =
    if now - ((m.buckets.get key).getD (now, 0)).1 ≥ m.windowSecs then (now, 0)
    else (m.buckets.get key).getD (now, 0) := by
  unfold Meter.window Meter.bucket live
  cases m.buckets.get key with
  | none => exact (ite_self _).symm
  | some b =>
    rw [Option.getD_some]
    by_cases hb : now - b.1 < m.windowSecs
    · rw [Option.filter_some_pos (by simpa using hb), if_neg (not_le.mpr hb)]
      rfl
    · rw [Option.filter_some_neg (by simpa using hb), if_pos (not_lt.mp hb)]
      rfl

/-- The two meters have the same windows from `now` on. -/
structure Alike (now : ℕ) (m m' : Meter K) : Prop where
  limit : m.limit = m'.limit
  windowSecs : m.windowSecs = m'.windowSecs
  bucket : ∀ key t, now ≤ t → m.bucket key t = m'.bucket key t

theorem Alike.refl (now : ℕ) (m : Meter K) : Alike now m m := ⟨rfl, rfl, fun _ _ _ => rfl⟩

theorem Alike.later (h : Alike now m m') (ht : now ≤ t) : Alike t m m' :=
  ⟨h.limit, h.windowSecs, fun key u hu => h.bucket key u (ht.trans hu)⟩

theorem Alike.sweep (h : Alike now m m') : Alike now (m.sweep now) m' :=
  ⟨h.limit, h.windowSecs, fun key t ht => (m.bucket_sweep key ht).trans (h.bucket key t ht)⟩

theorem Alike.tidy (h : Alike now m m') (cap : ℕ) : Alike now (m.tidy cap now) m' := by
  unfold Meter.tidy
  split
  · exact h.sweep
  · exact h

theorem Alike.put (h : Alike now m m') (key : K) (b : ℕ × ℕ) :
    Alike now (m.put key b) (m'.put key b) := by
  refine ⟨h.limit, h.windowSecs, fun k t ht => ?_⟩
  rw [Meter.bucket_put, Meter.bucket_put, h.windowSecs, h.bucket k t ht]

theorem Alike.window (h : Alike now m m') (key : K) : m.window key now = m'.window key now := by
  unfold Meter.window
  rw [h.bucket key now le_rfl]

/-- Meters that are alike answer a charge alike, and stay so. -/
theorem Alike.charge (h : Alike now m m') (key : K) (cost : ℕ) :
    (m.charge key cost now).1 = (m'.charge key cost now).1 ∧
      Alike now (m.charge key cost now).2 (m'.charge key cost now).2 := by
  unfold Meter.charge
  rw [h.window key, h.limit]
  dsimp only
  split
  · exact ⟨rfl, h.put key _⟩
  · exact ⟨rfl, h.put key _⟩

end sweeping

/-! ### Machines -/

/-- A program that meters, with what its calls and its states are as those of a meter. -/
structure Machine (S O K : Type) [DecidableEq K] where
  step : S → O → S
  answer : S → O → Bool
  op : O → Op K
  meter : S → Meter K

namespace Machine

variable {S O : Type} (M : Machine S O K)

/-- The program does what the meter does that sweeps at `cap` buckets. -/
structure Faithful (cap : ℕ) : Prop where
  step : ∀ s o, M.meter (M.step s o) = (M.meter s).step cap (M.op o)
  answer : ∀ s o, M.answer s o = (M.meter s).answer cap (M.op o)

def time (o : O) : ℕ := (M.op o).time

/-- The answers to the charges. -/
def answers : S → List O → List Bool
  | _, [] => []
  | s, o :: os =>
    match M.op o with
    | .charge .. => M.answer s o :: answers (M.step s o) os
    | .sweep _ => answers (M.step s o) os

/-- What a call admits for a key: when, and how much. -/
def admits (key : K) (s : S) (o : O) : List (ℕ × ℕ) :=
  match M.op o with
  | .charge k cost now => if k = key ∧ M.answer s o = true then [(now, cost)] else []
  | .sweep _ => []

def admitted (key : K) : S → List O → List (ℕ × ℕ)
  | _, [] => []
  | s, o :: os => M.admits key s o ++ admitted key (M.step s o) os

/-- The call opens a window for the key. -/
def Opens (key : K) (s : S) (o : O) : Prop :=
  (M.op o).isFor key = true ∧ (M.meter s).bucket key (M.time o) = none

end Machine

/-- The amount of a log. -/
def spent (log : List (ℕ × ℕ)) : ℕ := (log.map (·.2)).sum

/-- The amount between two times. -/
def spentIn (log : List (ℕ × ℕ)) (a b : ℕ) : ℕ := spent (log.filter fun e => a ≤ e.1 && e.1 ≤ b)

/-- What a fixed window promises of a program that starts at `s₀`, for calls in
the order of time. -/
structure Metered {S O : Type} (M : Machine S O K) (s₀ : S) (limit windowSecs : ℕ) : Prop where
  /-- Sweeps are not seen, neither calls nor those that a charge makes. -/
  unswept : ∀ os : List O, (os.map M.time).Pairwise (· ≤ ·) →
    M.answers s₀ os = Meter.unswept ⟨limit, windowSecs, ∅⟩ (os.map M.op)
  interval : ∀ os : List O, (os.map M.time).Pairwise (· ≤ ·) → ∀ key a b, b < a + windowSecs →
    spentIn (M.admitted key s₀ os) a b ≤ 2 * limit
  /-- From a call that opens a window to the next that does. -/
  window : ∀ (pre : List O) (o : O) (os : List O) (key : K), ((pre ++ o :: os).map M.time).Pairwise (· ≤ ·) →
    M.Opens key (Trace.run M.step s₀ pre) o →
    Trace.Along M.step (fun s o => ¬ M.Opens key s o) (Trace.run M.step s₀ (pre ++ [o])) os →
    spent (M.admitted key (Trace.run M.step s₀ pre) (o :: os)) ≤ limit
  /-- A refused charge takes nothing, now or later. -/
  refused : ∀ (pre : List O) (o : O) (key : K), (M.op o).isFor key = true →
    M.answer (Trace.run M.step s₀ pre) o = false → ∀ t, M.time o ≤ t →
    (M.meter (Trace.run M.step s₀ (pre ++ [o]))).remaining key t = (M.meter (Trace.run M.step s₀ pre)).remaining key t

/-! ### Answers -/

section answers

variable {S O : Type} {M : Machine S O K} {cap : ℕ}

/-- A meter that sweeps answers as one that does not. -/
theorem Machine.answers_eq_unswept (hM : M.Faithful cap) :
    ∀ (os : List O) {s : S} {m : Meter K} {now : ℕ},
    Alike now (M.meter s) m → (∀ o ∈ os, now ≤ M.time o) → (os.map M.time).Pairwise (· ≤ ·) →
    M.answers s os = m.unswept (os.map M.op)
  | [], _, _, _, _, _, _ => rfl
  | o :: os, s, m, now, halike, hnow, hsorted => by
    obtain ⟨hlater, hrest⟩ := List.pairwise_cons.mp hsorted
    have hafter : ∀ o' ∈ os, M.time o ≤ M.time o' :=
      fun o' ho' => hlater _ (List.mem_map_of_mem ho')
    have hmeter := hM.step s o
    have hanswer := hM.answer s o
    have halike := halike.later (hnow o List.mem_cons_self)
    unfold Machine.answers
    rw [List.map_cons]
    cases hop : M.op o with
    | charge key cost t =>
      have htime : M.time o = t := by
        unfold Machine.time
        rw [hop]
        rfl
      rw [hop] at hmeter hanswer
      rw [htime] at halike hafter
      obtain ⟨hsame, hcharged⟩ := (halike.tidy cap).charge key cost
      have hnext : Alike t (M.meter (M.step s o)) (m.charge key cost t).2 := by
        rw [hmeter]
        exact hcharged
      dsimp only
      rw [hanswer, answers_eq_unswept hM os hnext hafter hrest]
      exact congrArg (· :: _) hsame
    | sweep t =>
      have htime : M.time o = t := by
        unfold Machine.time
        rw [hop]
        rfl
      rw [hop] at hmeter
      rw [htime] at halike hafter
      have hnext : Alike t (M.meter (M.step s o)) m := by
        rw [hmeter]
        exact halike.sweep
      exact answers_eq_unswept hM os hnext hafter hrest

end answers

/-! ### Amounts -/

theorem spent_append (log more : List (ℕ × ℕ)) : spent (log ++ more) = spent log + spent more := by
  simp [spent]

theorem spentIn_append (log more : List (ℕ × ℕ)) (a b : ℕ) :
    spentIn (log ++ more) a b = spentIn log a b + spentIn more a b := by
  unfold spentIn
  rw [List.filter_append, spent_append]

theorem spentIn_le (log : List (ℕ × ℕ)) (a b : ℕ) : spentIn log a b ≤ spent log :=
  (List.Sublist.map _ List.filter_sublist).sum_le_sum fun _ _ => Nat.zero_le _

/-- Nothing was spent where no entry falls. -/
theorem spentIn_eq_zero {log : List (ℕ × ℕ)} {a b : ℕ} (h : ∀ e ∈ log, ¬ (a ≤ e.1 ∧ e.1 ≤ b)) :
    spentIn log a b = 0 := by
  unfold spentIn
  rw [List.filter_eq_nil_iff.mpr fun e he => by simpa using h e he]
  rfl

/-! ### What a key spends -/

/-- The account of a key at `now`: `old` was spent in windows before the one that begins at
`start`, and `cur` in that one. -/
structure Account (limit w : ℕ) (bucket : Option (ℕ × ℕ)) (now : ℕ) (log : List (ℕ × ℕ)) (start : ℕ)
    (old cur : List (ℕ × ℕ)) : Prop where
  split : log = old ++ cur
  begun : start ≤ now
  before : ∀ e ∈ old, e.1 < start
  during : ∀ e ∈ cur, start ≤ e.1 ∧ e.1 < start + w
  within : spent cur ≤ limit
  /-- Of the windows before only the last comes nearer than `w`. -/
  recent : ∀ a b, start < a + w → spentIn old a b ≤ limit
  interval : ∀ a b, b < a + w → spentIn old a b ≤ 2 * limit
  lasts : ∀ p, bucket = some p → p = (start, spent cur)
  elapsed : bucket = none → start + w ≤ now ∨ log = []

namespace Account

variable {limit w now : ℕ} {bucket : Option (ℕ × ℕ)} {log old cur : List (ℕ × ℕ)} {start : ℕ}

theorem empty (limit w now : ℕ) : Account limit w none now [] 0 [] [] where
  split := rfl
  begun := Nat.zero_le _
  before := fun _ he => nomatch he
  during := fun _ he => nomatch he
  within := Nat.zero_le _
  recent := fun _ _ _ => Nat.zero_le _
  interval := fun _ _ _ => Nat.zero_le _
  lasts := fun _ hp => nomatch hp
  elapsed := fun _ => Or.inr rfl

/-- An interval shorter than a window meets this window and the last, or none but those before. -/
theorem spentIn_log (h : Account limit w bucket now log start old cur) {a b : ℕ} (hab : b < a + w) :
    spentIn log a b ≤ 2 * limit := by
  rw [h.split, spentIn_append]
  by_cases hmeets : ∃ e ∈ cur, a ≤ e.1 ∧ e.1 ≤ b
  · obtain ⟨e, he, hae, heb⟩ := hmeets
    have hbegins := (h.during e he).1
    have hold := h.recent a b (by omega)
    have hcur := le_trans (spentIn_le cur a b) h.within
    omega
  · have hcur : spentIn cur a b = 0 := spentIn_eq_zero fun e he hin => hmeets ⟨e, he, hin⟩
    have hold := h.interval a b hab
    omega

/-- Time goes on, and the window may be over. -/
theorem later (h : Account limit w bucket now log start old cur) {t : ℕ} (ht : now ≤ t) :
    Account limit w (live w t bucket) t log start old cur :=
  { h with
    begun := le_trans h.begun ht
    lasts := fun p hp => h.lasts p (live_some hp).1
    elapsed := by
      intro hover
      cases hb : bucket with
      | none =>
        exact (h.elapsed hb).imp_left fun hdone => le_trans hdone ht
      | some p =>
        have hp := h.lasts p hb
        rw [hb, hp] at hover
        have hlate : ¬ t - start < w := by
          intro hlasts
          unfold live at hover
          rw [Option.filter_some_pos (by simpa using hlasts)] at hover
          cases hover
        have hbegun := h.begun
        exact Or.inl (by omega) }

/-- A window opens. -/
theorem opened (h : Account limit w none now log start old cur) (hw : 0 < w) :
    Account limit w (some (now, 0)) now log now log [] := by
  have hdone := h.elapsed rfl
  have hpast : ∀ e ∈ log, e.1 < now := by
    intro e he
    rcases hdone with hdone | hnil
    · rw [h.split] at he
      rcases List.mem_append.mp he with hold | hcur
      · have hbefore := h.before e hold
        omega
      · have hduring := (h.during e hcur).2
        omega
    · rw [hnil] at he
      cases he
  refine
    { split := (List.append_nil log).symm
      begun := le_rfl
      before := hpast
      during := fun _ he => nomatch he
      within := Nat.zero_le _
      recent := fun a b hnear => ?_
      interval := fun a b hab => h.spentIn_log hab
      lasts := fun p hp => (Option.some.inj hp).symm
      elapsed := fun hover => nomatch hover }
  rw [h.split, spentIn_append]
  have hold : spentIn old a b = 0 := by
    refine spentIn_eq_zero fun e he hin => ?_
    have hbefore := h.before e he
    rcases hdone with hdone | hnil
    · omega
    · rw [h.split] at hnil
      rw [(List.append_eq_nil_iff.mp hnil).1] at he
      cases he
  have hcur := le_trans (spentIn_le cur a b) h.within
  omega

/-- A charge is admitted. -/
theorem add {p : ℕ × ℕ} (h : Account limit w (some p) now log start old cur)
    (hlasts : now - p.1 < w) {cost : ℕ} (hfits : p.2 + cost ≤ limit) :
    Account limit w (some (p.1, p.2 + cost)) now (log ++ [(now, cost)]) start old (cur ++ [(now, cost)]) := by
  have hp := h.lasts p rfl
  have hspent : spent (cur ++ [(now, cost)]) = p.2 + cost := by
    rw [spent_append, hp]
    rfl
  rw [hp] at hlasts
  have hbegun := h.begun
  refine
    { split := by rw [h.split, List.append_assoc]
      begun := h.begun
      before := h.before
      during := fun e he => ?_
      within := by rw [hspent]; exact hfits
      recent := h.recent
      interval := h.interval
      lasts := fun q hq => ?_
      elapsed := fun hover => nomatch hover }
  · rcases List.mem_append.mp he with hcur | hnew
    · exact h.during e hcur
    · rw [List.mem_singleton.mp hnew]
      dsimp only at hlasts ⊢
      omega
  · rw [hspent, ← Option.some.inj hq]
    rw [hp]

end Account

/-! ### Runs -/

section charges

variable {m : Meter K} {key : K} {cost t : ℕ}

theorem Meter.bucket_tidy (m : Meter K) (cap : ℕ) (key : K) {now : ℕ} (h : now ≤ t) :
    (m.tidy cap now).bucket key t = m.bucket key t := by
  unfold Meter.tidy
  split
  · exact m.bucket_sweep key h
  · rfl

theorem Meter.tidy_same (m : Meter K) (cap now : ℕ) :
    (m.tidy cap now).limit = m.limit ∧ (m.tidy cap now).windowSecs = m.windowSecs := by
  unfold Meter.tidy
  split <;> exact ⟨rfl, rfl⟩

/-- The window of a charge lasts. -/
theorem Meter.window_lasts (hw : 0 < m.windowSecs) : t - (m.window key t).1 < m.windowSecs := by
  unfold Meter.window
  cases hb : m.bucket key t with
  | none =>
    rw [Option.getD_none]
    dsimp only
    omega
  | some p => exact (live_some hb).2

theorem Meter.charge_fst :
    (m.charge key cost t).1 = decide ((m.window key t).2 + cost ≤ m.limit) := by
  unfold Meter.charge
  dsimp only
  split
  · rename_i hfits
    exact (decide_eq_true hfits).symm
  · rename_i hfits
    exact (decide_eq_false hfits).symm

/-- A charge writes the window back, with the cost if it is admitted. -/
theorem Meter.charge_snd : (m.charge key cost t).2 =
    m.put key (if (m.window key t).2 + cost ≤ m.limit then ((m.window key t).1, (m.window key t).2 + cost)
      else m.window key t) := by
  unfold Meter.charge
  dsimp only
  split <;> rfl

theorem Meter.bucket_charge (hw : 0 < m.windowSecs) : (m.charge key cost t).2.bucket key t =
    some (if (m.window key t).2 + cost ≤ m.limit then ((m.window key t).1, (m.window key t).2 + cost)
      else m.window key t) := by
  have hlasts : t - (m.window key t).1 < m.windowSecs := m.window_lasts hw
  rw [Meter.charge_snd, Meter.bucket_put, if_pos rfl]
  unfold live
  split
  · exact Option.filter_some_pos (by simpa using hlasts)
  · exact Option.filter_some_pos (by simpa using hlasts)

theorem Meter.bucket_charge_ne {k : K} (hk : k ≠ key) (now : ℕ) :
    (m.charge key cost now).2.bucket k t = m.bucket k t := by
  rw [Meter.charge_snd, Meter.bucket_put, if_neg hk]

end charges

/-! ### Over a span of time -/

section span

variable {m : Meter K} {key : K} {cost now t b : ℕ}

/-- What a key can still spend until `b`: what is left of its window, and the limit for each window
that can begin after it. -/
def Meter.allowance (m : Meter K) (key : K) (now b : ℕ) : ℕ :=
  m.remaining key now + m.limit * ((b - (m.window key now).1) / m.windowSecs)

/-- A window that begins later takes its limit from those that could have begun. -/
theorem Meter.allowance_later (hw : 0 < m.windowSecs) (ht : now ≤ t) (hb : t ≤ b) :
    m.allowance key t b ≤ m.allowance key now b := by
  have hlive : live m.windowSecs t (m.bucket key now) = m.bucket key t := live_live ht
  unfold allowance remaining window
  cases hnow : m.bucket key now with
  | none =>
    have hnone : m.bucket key t = none := by
      rw [← hlive, hnow]
      rfl
    have hfewer : (b - t) / m.windowSecs ≤ (b - now) / m.windowSecs :=
      Nat.div_le_div_right (by omega)
    rw [hnone]
    exact Nat.add_le_add_left (Nat.mul_le_mul_left _ hfewer) _
  | some p =>
    rw [hnow] at hlive
    by_cases hlasts : t - p.1 < m.windowSecs
    · have hsame : m.bucket key t = some p := by
        rw [← hlive]
        exact Option.filter_some_pos (by simpa using hlasts)
      rw [hsame]
      exact le_rfl
    · have hgone : m.bucket key t = none := by
        rw [← hlive]
        exact Option.filter_some_neg (by simpa using hlasts)
      have hone : (b - t) / m.windowSecs + 1 ≤ (b - p.1) / m.windowSecs := by
        rw [← Nat.add_div_right _ hw]
        exact Nat.div_le_div_right (by omega)
      have hlimit := Nat.mul_le_mul_left m.limit hone
      rw [Nat.mul_add, Nat.mul_one] at hlimit
      rw [hgone]
      dsimp only [Option.getD_none, Option.getD_some]
      omega

theorem Meter.allowance_sweep (h : now ≤ t) :
    (m.sweep now).allowance key t b = m.allowance key t b := by
  have hbucket := m.bucket_sweep key h
  unfold allowance remaining window
  rw [hbucket]
  rfl

theorem Meter.allowance_tidy (cap : ℕ) (h : now ≤ t) :
    (m.tidy cap now).allowance key t b = m.allowance key t b := by
  unfold tidy
  split
  · exact allowance_sweep h
  · rfl

/-- A charge spends its cost of the allowance, if it is admitted. -/
theorem Meter.allowance_charge (hw : 0 < m.windowSecs) :
    (if (m.charge key cost t).1 then cost else 0) + (m.charge key cost t).2.allowance key t b ≤
      m.allowance key t b := by
  have hbucket : (m.charge key cost t).2.bucket key t =
      some (if (m.window key t).2 + cost ≤ m.limit then ((m.window key t).1, (m.window key t).2 + cost)
        else m.window key t) := bucket_charge hw
  have hfst : (m.charge key cost t).1 = decide ((m.window key t).2 + cost ≤ m.limit) := charge_fst
  have hsame : (m.charge key cost t).2.limit = m.limit ∧
      (m.charge key cost t).2.windowSecs = m.windowSecs := by
    rw [charge_snd]
    exact ⟨rfl, rfl⟩
  have hwindow : (m.charge key cost t).2.window key t =
      if (m.window key t).2 + cost ≤ m.limit then ((m.window key t).1, (m.window key t).2 + cost)
      else m.window key t := by
    have hget : (m.charge key cost t).2.window key t =
        ((m.charge key cost t).2.bucket key t).getD (t, 0) := rfl
    rw [hget, hbucket]
    rfl
  unfold allowance remaining
  rw [hsame.1, hsame.2, hwindow, hfst]
  by_cases hfits : (m.window key t).2 + cost ≤ m.limit
  · rw [if_pos (decide_eq_true hfits), if_pos hfits]
    dsimp only
    omega
  · rw [if_neg (by simpa using hfits), if_neg hfits, Nat.zero_add]

theorem Meter.allowance_charge_ne {k : K} (hk : k ≠ key) (now : ℕ) :
    (m.charge key cost now).2.allowance k t b = m.allowance k t b := by
  have hbucket : (m.charge key cost now).2.bucket k t = m.bucket k t := bucket_charge_ne hk now
  unfold allowance remaining window
  rw [hbucket, charge_snd]
  rfl

/-- A key that has no window spends the limit at once and again every time a window has passed. -/
theorem Meter.allowance_none (h : m.bucket key now = none) :
    m.allowance key now b = m.limit * ((b - now) / m.windowSecs + 1) := by
  unfold allowance remaining window
  rw [h, Nat.mul_add, Nat.mul_one, Nat.add_comm]
  rfl

/-- A window that runs already can end at any time. -/
theorem Meter.allowance_le (hw : 0 < m.windowSecs) :
    m.allowance key now b ≤ m.limit * ((b - now + (m.windowSecs - 1)) / m.windowSecs + 1) := by
  have hlasts : now - (m.window key now).1 < m.windowSecs := m.window_lasts hw
  have hmost : (b - (m.window key now).1) / m.windowSecs ≤
      (b - now + (m.windowSecs - 1)) / m.windowSecs :=
    Nat.div_le_div_right (by omega)
  have hlimit := Nat.mul_le_mul_left m.limit hmost
  unfold allowance remaining
  rw [Nat.mul_add, Nat.mul_one]
  omega

end span

namespace Machine

variable {S O : Type} {M : Machine S O K} {cap : ℕ}

/-- The key's account is kept. -/
def Accounted (M : Machine S O K) (key : K) (s : S) (now : ℕ) (log : List (ℕ × ℕ)) : Prop :=
  ∃ start old cur, Account (M.meter s).limit (M.meter s).windowSecs ((M.meter s).bucket key now) now log start old cur

theorem Faithful.same (hM : M.Faithful cap) (s : S) (o : O) :
    (M.meter (M.step s o)).limit = (M.meter s).limit ∧
    (M.meter (M.step s o)).windowSecs = (M.meter s).windowSecs := by
  rw [hM.step]
  cases M.op o with
  | charge key cost t =>
    have htidy := (M.meter s).tidy_same cap t
    unfold Meter.step
    dsimp only
    rw [Meter.charge_snd]
    exact htidy
  | sweep t => exact ⟨rfl, rfl⟩

theorem Accounted.step (hM : M.Faithful cap) {key : K} {s : S} {now : ℕ} {log : List (ℕ × ℕ)}
    (hw : 0 < (M.meter s).windowSecs) (h : M.Accounted key s now log) {o : O}
    (ho : now ≤ M.time o) :
    M.Accounted key (M.step s o) (M.time o) (log ++ M.admits key s o) := by
  obtain ⟨start, old, cur, h⟩ := h
  have hthen := h.later ho
  have hbucket : live (M.meter s).windowSecs (M.time o) ((M.meter s).bucket key now) =
      (M.meter s).bucket key (M.time o) :=
    live_live ho
  rw [hbucket] at hthen
  have hsame := hM.same s o
  have hstep := hM.step s o
  have hanswer := hM.answer s o
  have htime : M.time o = (M.op o).time := rfl
  unfold Accounted Machine.admits
  rw [hsame.1, hsame.2]
  rw [htime] at hthen ⊢
  cases hop : M.op o with
  | sweep t =>
    rw [hop] at hthen hstep
    dsimp only [Op.time] at hthen ⊢
    rw [hstep]
    unfold Meter.step
    dsimp only
    rw [(M.meter s).bucket_sweep key le_rfl, List.append_nil]
    exact ⟨start, old, cur, hthen⟩
  | charge k cost t =>
    rw [hop] at hthen hstep hanswer
    dsimp only [Op.time, Meter.step, Meter.answer] at hthen hstep hanswer ⊢
    rw [hstep, hanswer]
    have htidy := (M.meter s).tidy_same cap t
    rw [← (M.meter s).bucket_tidy cap key le_rfl] at hthen
    rw [← htidy.1, ← htidy.2] at hthen ⊢
    rw [← htidy.2] at hw
    generalize (M.meter s).tidy cap t = m at hthen hw ⊢
    by_cases hk : k = key
    · subst hk
      rw [Meter.bucket_charge hw, Meter.charge_fst]
      -- the window that the charge counts in has an account
      obtain ⟨start, old, cur, hwindow⟩ : ∃ start old cur,
          Account m.limit m.windowSecs (some (m.window k t)) t log start old cur := by
        unfold Meter.window
        cases hb : m.bucket k t with
        | none =>
          rw [hb] at hthen
          exact ⟨t, log, [], hthen.opened hw⟩
        | some p =>
          rw [hb] at hthen
          exact ⟨start, old, cur, hthen⟩
      by_cases hfits : (m.window k t).2 + cost ≤ m.limit
      · rw [if_pos hfits, if_pos ⟨rfl, decide_eq_true hfits⟩]
        exact ⟨start, old, _, hwindow.add (m.window_lasts hw) hfits⟩
      · rw [if_neg hfits, if_neg (by simp [hfits]), List.append_nil]
        exact ⟨start, old, cur, hwindow⟩
    · rw [Meter.bucket_charge_ne (fun heq => hk heq.symm) t, if_neg (fun hin => hk hin.1),
        List.append_nil]
      exact ⟨start, old, cur, hthen⟩

theorem run_same (hM : M.Faithful cap) (s : S) (os : List O) :
    (M.meter (Trace.run M.step s os)).limit = (M.meter s).limit ∧
      (M.meter (Trace.run M.step s os)).windowSecs = (M.meter s).windowSecs := by
  induction os using List.reverseRecOn with
  | nil => exact ⟨rfl, rfl⟩
  | append_singleton os o ih =>
    have hstep := hM.same (Trace.run M.step s os) o
    rw [Trace.run_snoc, hstep.1, hstep.2]
    exact ih

theorem accounted_run (hM : M.Faithful cap) {key : K} :
    ∀ (os : List O) {s : S} {now : ℕ} {log : List (ℕ × ℕ)},
    0 < (M.meter s).windowSecs → M.Accounted key s now log → (∀ o ∈ os, now ≤ M.time o) →
    (os.map M.time).Pairwise (· ≤ ·) →
    ∃ now', M.Accounted key (Trace.run M.step s os) now' (log ++ M.admitted key s os)
  | [], _, now, _, _, h, _, _ => ⟨now, by rw [admitted, List.append_nil]; exact h⟩
  | o :: os, s, now, log, hw, h, hnow, hsorted => by
    obtain ⟨hlater, hrest⟩ := List.pairwise_cons.mp hsorted
    have hnext := h.step hM hw (hnow o List.mem_cons_self)
    rw [← (hM.same s o).2] at hw
    obtain ⟨now', hrun⟩ := accounted_run hM os hw hnext
      (fun o' ho' => hlater _ (List.mem_map_of_mem ho')) hrest
    refine ⟨now', ?_⟩
    rw [List.append_assoc] at hrun
    exact hrun

/-- In an interval shorter than a window a key spends at most the limit of two. -/
theorem spentIn_le (hM : M.Faithful cap) {s : S} (hempty : (M.meter s).buckets = ∅) (os : List O)
    (hsorted : (os.map M.time).Pairwise (· ≤ ·)) (key : K) {a b : ℕ}
    (hab : b < a + (M.meter s).windowSecs) :
    spentIn (M.admitted key s os) a b ≤ 2 * (M.meter s).limit := by
  by_cases hw : 0 < (M.meter s).windowSecs
  · have hnone : (M.meter s).bucket key 0 = none := by
      unfold Meter.bucket
      rw [hempty]
      rfl
    have hstart : M.Accounted key s 0 [] := by
      refine ⟨0, [], [], ?_⟩
      rw [hnone]
      exact Account.empty _ _ 0
    obtain ⟨now, start, old, cur, hend⟩ :=
      accounted_run hM os hw hstart (fun _ _ => Nat.zero_le _) hsorted
    rw [(run_same hM s os).1, (run_same hM s os).2] at hend
    exact hend.spentIn_log hab
  · have hzero : spentIn (M.admitted key s os) a b = 0 := spentIn_eq_zero fun e _ hin => by omega
    omega

/-- What is spent in the key's window after a charge. -/
theorem Faithful.spends (hM : M.Faithful cap) {key : K} {s : S} {o : O}
    (hkey : (M.op o).isFor key = true) :
    (((M.meter s).window key (M.time o)).2 ≤ (M.meter s).limit →
      ((M.meter s).window key (M.time o)).2 + spent (M.admits key s o) ≤ (M.meter s).limit) ∧
    ∀ p, (M.meter (M.step s o)).bucket key (M.time o) = some p →
      p.2 = ((M.meter s).window key (M.time o)).2 + spent (M.admits key s o) := by
  have hstep := hM.step s o
  have hanswer := hM.answer s o
  unfold admits
  have htime : M.time o = (M.op o).time := rfl
  rw [htime]
  cases hop : M.op o with
  | sweep t =>
    rw [hop] at hkey
    cases hkey
  | charge k cost t =>
    rw [hop] at hkey hstep hanswer
    have hk : k = key := of_decide_eq_true hkey
    subst hk
    dsimp only [Op.time, Meter.step, Meter.answer] at hstep hanswer ⊢
    have hwindow : ((M.meter s).tidy cap t).window k t = (M.meter s).window k t := by
      unfold Meter.window
      rw [(M.meter s).bucket_tidy cap k le_rfl]
    rw [hstep, hanswer, Meter.charge_snd, Meter.charge_fst, Meter.bucket_put, if_pos rfl, hwindow,
      ((M.meter s).tidy_same cap t).1]
    by_cases hfits : ((M.meter s).window k t).2 + cost ≤ (M.meter s).limit
    · rw [if_pos hfits, if_pos ⟨rfl, decide_eq_true hfits⟩]
      refine ⟨fun _ => hfits, fun p hp => ?_⟩
      rw [← Option.some.inj (live_some hp).1]
      rfl
    · rw [if_neg hfits, if_neg (by simp [hfits])]
      refine ⟨id, fun p hp => ?_⟩
      rw [← Option.some.inj (live_some hp).1]
      rfl

/-- A call that does not charge the key leaves its window. -/
theorem Faithful.spares (hM : M.Faithful cap) {key : K} {s : S} {o : O}
    (hkey : (M.op o).isFor key = false) {t : ℕ} (ht : M.time o ≤ t) :
    M.admits key s o = [] ∧ (M.meter (M.step s o)).bucket key t = (M.meter s).bucket key t := by
  have hstep := hM.step s o
  have htime : M.time o = (M.op o).time := rfl
  unfold admits
  rw [htime] at ht
  cases hop : M.op o with
  | sweep now =>
    rw [hop] at ht hstep
    rw [hstep]
    exact ⟨rfl, (M.meter s).bucket_sweep key ht⟩
  | charge k cost now =>
    rw [hop] at ht hkey hstep
    have hk : k ≠ key := of_decide_eq_false hkey
    dsimp only [Op.time, Meter.step] at ht hstep ⊢
    rw [if_neg (fun hin => hk hin.1), hstep, Meter.bucket_charge_ne (fun heq => hk heq.symm) now]
    exact ⟨rfl, (M.meter s).bucket_tidy cap key ht⟩

/-- Until the key opens another window it spends what is left of this one. -/
theorem spent_window (hM : M.Faithful cap) {key : K} : ∀ (os : List O) {s : S} {now u : ℕ},
    (∀ p, (M.meter s).bucket key now = some p → p.2 = u) → u ≤ (M.meter s).limit →
    (∀ o ∈ os, now ≤ M.time o) →
    (os.map M.time).Pairwise (· ≤ ·) → Trace.Along M.step (fun s o => ¬ M.Opens key s o) s os →
    u + spent (M.admitted key s os) ≤ (M.meter s).limit
  | [], _, _, _, _, hu, _, _, _ => hu
  | o :: os, s, now, u, hbucket, hu, hnow, hsorted, halong => by
    obtain ⟨hlater, hrest⟩ := List.pairwise_cons.mp hsorted
    have hafter : ∀ o' ∈ os, M.time o ≤ M.time o' :=
      fun o' ho' => hlater _ (List.mem_map_of_mem ho')
    have ho := hnow o List.mem_cons_self
    have hthen : ∀ p, (M.meter s).bucket key (M.time o) = some p → p.2 = u := by
      intro p hp
      apply hbucket
      unfold Meter.bucket at hp ⊢
      rw [← live_live ho] at hp
      exact (live_some hp).1
    unfold admitted
    rw [spent_append, ← Nat.add_assoc, ← (hM.same s o).1]
    cases hkey : (M.op o).isFor key with
    | false =>
      obtain ⟨hnone, hleft⟩ := hM.spares hkey (s := s) le_rfl
      rw [hnone]
      refine spent_window hM os (fun p hp => hthen p (hleft ▸ hp)) ?_ hafter hrest halong.2
      rw [(hM.same s o).1]
      exact hu
    | true =>
      -- the window that was there lasts
      have hwindow : ((M.meter s).window key (M.time o)).2 = u := by
        unfold Meter.window
        cases hb : (M.meter s).bucket key (M.time o) with
        | none => exact absurd ⟨hkey, hb⟩ halong.1
        | some p => exact hthen p hb
      obtain ⟨hfits, hspent⟩ := hM.spends hkey (s := s)
      rw [hwindow] at hfits hspent
      refine spent_window hM os hspent ?_ hafter hrest halong.2
      rw [(hM.same s o).1]
      exact hfits hu

theorem remaining_refused (hM : M.Faithful cap) {key : K} {s : S} {o : O}
    (hkey : (M.op o).isFor key = true) (hno : M.answer s o = false) {t : ℕ} (ht : M.time o ≤ t) :
    (M.meter (M.step s o)).remaining key t = (M.meter s).remaining key t := by
  have hstep := hM.step s o
  have hanswer := hM.answer s o
  have htime : M.time o = (M.op o).time := rfl
  unfold Meter.remaining
  rw [(hM.same s o).1]
  rw [htime] at ht
  cases hop : M.op o with
  | sweep now =>
    rw [hop] at hkey
    cases hkey
  | charge k cost now =>
    rw [hop] at ht hkey hstep hanswer
    have hk : k = key := of_decide_eq_true hkey
    subst hk
    dsimp only [Op.time, Meter.step, Meter.answer] at ht hstep hanswer
    rw [hno, Meter.charge_fst] at hanswer
    have hover : ¬ (((M.meter s).tidy cap now).window k now).2 + cost ≤
        ((M.meter s).tidy cap now).limit :=
      of_decide_eq_false hanswer.symm
    have hwindow : ((M.meter s).tidy cap now).window k now = (M.meter s).window k now := by
      unfold Meter.window
      rw [(M.meter s).bucket_tidy cap k le_rfl]
    rw [hstep, Meter.charge_snd, if_neg hover, hwindow]
    congr 1
    -- what was written back is the window that lasted, or one in which nothing was spent
    have hput : (((M.meter s).tidy cap now).put k ((M.meter s).window k now)).bucket k t =
        live (M.meter s).windowSecs t (some ((M.meter s).window k now)) := by
      rw [Meter.bucket_put, if_pos rfl, ((M.meter s).tidy_same cap now).2]
    have hlive : live (M.meter s).windowSecs t ((M.meter s).bucket k now) =
        (M.meter s).bucket k t := live_live ht
    unfold Meter.window at hput ⊢
    rw [hput]
    cases hb : (M.meter s).bucket k now with
    | none =>
      rw [hb] at hlive
      rw [← hlive, Option.getD_none]
      unfold live
      by_cases hlasts : t - now < (M.meter s).windowSecs
      · rw [Option.filter_some_pos (by simpa using hlasts)]
        rfl
      · rw [Option.filter_some_neg (by simpa using hlasts)]
        rfl
    | some p =>
      rw [hb] at hlive
      rw [Option.getD_some, hlive]

/-- **A program that meters as a meter does, and starts with no window, keeps
the promises of a fixed window.** -/
theorem metered (hM : M.Faithful cap) {s : S} (hempty : (M.meter s).buckets = ∅) :
    Metered M s (M.meter s).limit (M.meter s).windowSecs where
  unswept := by
    intro os hsorted
    have hmeter : M.meter s = ⟨(M.meter s).limit, (M.meter s).windowSecs, ∅⟩ := by rw [← hempty]
    have halike : Alike 0 (M.meter s) ⟨(M.meter s).limit, (M.meter s).windowSecs, ∅⟩ := by
      rw [← hmeter]
      exact Alike.refl 0 _
    exact answers_eq_unswept hM os halike (fun _ _ => Nat.zero_le _) hsorted
  interval := fun os hsorted key a b hab => spentIn_le hM hempty os hsorted key hab
  window := by
    intro pre o os key hsorted hopens halong
    have hsame := (run_same hM s pre).1
    rw [List.map_append, List.pairwise_append, List.map_cons, List.pairwise_cons] at hsorted
    obtain ⟨-, ⟨hlater, hrest⟩, -⟩ := hsorted
    rw [Trace.run_snoc] at halong
    generalize Trace.run M.step s pre = before at hopens halong hsame ⊢
    have hwindow : ((M.meter before).window key (M.time o)).2 = 0 := by
      unfold Meter.window
      rw [hopens.2]
      rfl
    obtain ⟨hfits, hspent⟩ := hM.spends hopens.1 (s := before)
    rw [hwindow, Nat.zero_add] at hfits hspent
    unfold admitted
    rw [spent_append, ← hsame, ← (hM.same before o).1]
    refine spent_window hM os hspent ?_
      (fun o' ho' => hlater _ (List.mem_map_of_mem ho')) hrest halong
    rw [(hM.same before o).1]
    exact hfits (Nat.zero_le _)
  refused := by
    intro pre o key hkey hno t ht
    rw [Trace.run_snoc]
    exact remaining_refused hM hkey hno ht

end Machine

end Window
