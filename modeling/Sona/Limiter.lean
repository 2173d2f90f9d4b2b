/-
# Rate limits

`RateLimiter` of `server/src/auth.rs`: a count per key and fixed window,
fail-closed over the limit. The key is a pseudonym of the client's address
behind a prefix that names the surface. `ByteBudget` is the same for bytes.

Both are meters of `Sona.Lib.Window`, with a cost of one or of the bytes
(`RateLimiter.faithful`, `ByteBudget.faithful`), and keep what such a meter
promises (`windows_bound_traffic`).

Key definitions: `RateLimiter.check`, `RateLimiter.sweep`, `ByteBudget.charge`,
`RateLimiter.machine`, `ByteBudget.machine`. Key theorems: `RateLimiter.faithful`,
`ByteBudget.faithful`, `windows_bound_traffic`.
-/
import Sona.Lib.Table
import Sona.Lib.Window

namespace Sona

structure RateLimiter where
  limit : ℕ
  windowSecs : ℕ
  /-- For each key the start of its window and the count in it. -/
  buckets : Table String (ℕ × ℕ) := ∅

/-- Drops the buckets whose window has elapsed. -/
def RateLimiter.sweep (rl : RateLimiter) (now : ℕ) : RateLimiter :=
  { rl with buckets := rl.buckets.filterMap fun _ b => if now - b.1 < rl.windowSecs then some b else none }

/-- Charges one request to `key`: whether it is allowed, and the limiter after. -/
def RateLimiter.check (rl : RateLimiter) (key : String) (now : ℕ) : Bool × RateLimiter :=
  let rl := if rl.buckets.size ≥ 100000 then rl.sweep now else rl
  let entry := (rl.buckets.get key).getD (now, 0)
  let entry := if now - entry.1 ≥ rl.windowSecs then (now, 0) else entry
  if entry.2 ≥ rl.limit then (false, { rl with buckets := rl.buckets.set key entry }) else
  (true, { rl with buckets := rl.buckets.set key (entry.1, entry.2 + 1) })

def RateLimiter.new (limit windowSecs : ℕ) : RateLimiter := { limit, windowSecs }

/-! ### Bytes -/

structure ByteBudget where
  limit : UInt64
  windowSecs : ℕ
  /-- For each key the start of its window and the bytes used in it. -/
  buckets : Table String (ℕ × ℕ) := ∅

/-- Addition of 64-bit words, if it does not overflow. -/
def checkedAdd (a b : ℕ) : Option ℕ := if a + b < 2 ^ 64 then some (a + b) else none

def ByteBudget.new (limit : UInt64) (windowSecs : ℕ) : ByteBudget := { limit, windowSecs }

def ByteBudget.sweep (bb : ByteBudget) (now : ℕ) : ByteBudget :=
  { bb with buckets := bb.buckets.filterMap fun _ b => if now - b.1 < bb.windowSecs then some b else none }

/-- Spends bytes of `key`'s window: whether they are charged, and the budget after. -/
def ByteBudget.charge (bb : ByteBudget) (key : String) (bytes now : ℕ) : Bool × ByteBudget :=
  let bb := if bb.buckets.size ≥ 100000 then bb.sweep now else bb
  let entry := (bb.buckets.get key).getD (now, 0)
  let entry := if now - entry.1 ≥ bb.windowSecs then (now, 0) else entry
  let refused := (false, { bb with buckets := bb.buckets.set key entry })
  match checkedAdd entry.2 bytes with
  | some total =>
    if total ≤ bb.limit.toNat then (true, { bb with buckets := bb.buckets.set key (entry.1, total) }) else refused
  | none => refused

/-! ### Both are meters -/

inductive LimiterOp
  | check (key : String) (now : ℕ)
  | sweep (now : ℕ)

def RateLimiter.meter (rl : RateLimiter) : Window.Meter String :=
  ⟨rl.limit, rl.windowSecs, rl.buckets⟩

/-- A check charges one. -/
def RateLimiter.machine : Window.Machine RateLimiter LimiterOp String where
  step rl := fun
    | .check key now => (rl.check key now).2
    | .sweep now => rl.sweep now
  answer rl := fun
    | .check key now => (rl.check key now).1
    | .sweep _ => true
  op := fun
    | .check key now => .charge key 1 now
    | .sweep now => .sweep now
  meter := RateLimiter.meter

inductive BudgetOp
  | charge (key : String) (bytes now : ℕ)
  | sweep (now : ℕ)

def ByteBudget.meter (bb : ByteBudget) : Window.Meter String :=
  ⟨bb.limit.toNat, bb.windowSecs, bb.buckets⟩

def ByteBudget.machine : Window.Machine ByteBudget BudgetOp String where
  step bb := fun
    | .charge key bytes now => (bb.charge key bytes now).2
    | .sweep now => bb.sweep now
  answer bb := fun
    | .charge key bytes now => (bb.charge key bytes now).1
    | .sweep _ => true
  op := fun
    | .charge key bytes now => .charge key bytes now
    | .sweep now => .sweep now
  meter := ByteBudget.meter

theorem RateLimiter.check_meter (rl : RateLimiter) (key : String) (now : ℕ) :
    (rl.check key now).1 = ((rl.meter.tidy 100000 now).charge key 1 now).1 ∧
      (rl.check key now).2.meter = ((rl.meter.tidy 100000 now).charge key 1 now).2 := by
  have htidy : rl.meter.tidy 100000 now =
      (if rl.buckets.size ≥ 100000 then rl.sweep now else rl).meter := by
    unfold Window.Meter.tidy
    by_cases hmany : rl.buckets.size ≥ 100000
    · rw [if_pos hmany]
      exact if_pos hmany
    · rw [if_neg hmany]
      exact if_neg hmany
  rw [htidy]
  unfold RateLimiter.check Window.Meter.charge
  generalize (if rl.buckets.size ≥ 100000 then rl.sweep now else rl) = rl
  have hwindow : rl.meter.window key now =
      if now - ((rl.buckets.get key).getD (now, 0)).1 ≥ rl.windowSecs
      then (now, 0) else (rl.buckets.get key).getD
      (now, 0) := Window.Meter.window_eq rl.meter key now
  have hlimit : rl.meter.limit = rl.limit := rfl
  rw [hwindow, hlimit]
  dsimp only
  generalize (if now - ((rl.buckets.get key).getD (now, 0)).1 ≥ rl.windowSecs then (now, 0)
    else (rl.buckets.get key).getD (now, 0)) = entry
  by_cases hover : entry.2 ≥ rl.limit
  · rw [if_pos hover, if_neg (by omega)]
    exact ⟨rfl, rfl⟩
  · rw [if_neg hover, if_pos (by omega)]
    exact ⟨rfl, rfl⟩

theorem RateLimiter.check_numbers (rl : RateLimiter) (key : String) (t : ℕ) :
    (rl.check key t).2.limit = rl.limit ∧ (rl.check key t).2.windowSecs = rl.windowSecs := by
  have hmeter := (rl.check_meter key t).2
  have hcharge : ((rl.meter.tidy 100000 t).charge key 1 t).2.limit = rl.limit ∧
      ((rl.meter.tidy 100000 t).charge key 1 t).2.windowSecs = rl.windowSecs := by
    rw [Window.Meter.charge_snd]
    exact rl.meter.tidy_same 100000 t
  rw [← hmeter] at hcharge
  exact hcharge

/-- A check charges one of the allowance of its key, if it is admitted. -/
theorem RateLimiter.allowance_check {rl : RateLimiter} {key : String} {t b : ℕ}
    (hw : 0 < rl.windowSecs) :
    (if (rl.check key t).1 then 1 else 0) + (rl.check key t).2.meter.allowance key t b ≤
      rl.meter.allowance key t b := by
  obtain ⟨hfst, hsnd⟩ := rl.check_meter key t
  have htidy := (rl.meter.tidy_same 100000 t).2
  have hcharge : (if ((rl.meter.tidy 100000 t).charge key 1 t).1 then 1 else 0) +
      ((rl.meter.tidy 100000 t).charge key 1 t).2.allowance key t b ≤
      (rl.meter.tidy 100000 t).allowance key t b :=
    Window.Meter.allowance_charge (htidy ▸ hw)
  rw [Window.Meter.allowance_tidy 100000 le_rfl] at hcharge
  rw [hfst, hsnd]
  exact hcharge

/-- Other keys keep theirs. -/
theorem RateLimiter.allowance_check_ne {rl : RateLimiter} {key k : String} {t b : ℕ}
    (hk : k ≠ key) :
    (rl.check key t).2.meter.allowance k t b = rl.meter.allowance k t b := by
  rw [(rl.check_meter key t).2, Window.Meter.allowance_charge_ne hk,
    Window.Meter.allowance_tidy 100000 le_rfl]

theorem ByteBudget.charge_meter (bb : ByteBudget) (key : String) (bytes now : ℕ) :
    (bb.charge key bytes now).1 = ((bb.meter.tidy 100000 now).charge key bytes now).1 ∧
      (bb.charge key bytes now).2.meter = ((bb.meter.tidy 100000 now).charge key bytes now).2 := by
  have htidy : bb.meter.tidy 100000 now =
      (if bb.buckets.size ≥ 100000 then bb.sweep now else bb).meter := by
    unfold Window.Meter.tidy
    by_cases hmany : bb.buckets.size ≥ 100000
    · rw [if_pos hmany]
      exact if_pos hmany
    · rw [if_neg hmany]
      exact if_neg hmany
  rw [htidy]
  unfold ByteBudget.charge Window.Meter.charge
  generalize (if bb.buckets.size ≥ 100000 then bb.sweep now else bb) = bb
  have hwindow : bb.meter.window key now =
      if now - ((bb.buckets.get key).getD (now, 0)).1 ≥ bb.windowSecs
      then (now, 0) else (bb.buckets.get key).getD
      (now, 0) := Window.Meter.window_eq bb.meter key now
  have hlimit : bb.meter.limit = bb.limit.toNat := rfl
  rw [hwindow, hlimit]
  dsimp only
  generalize (if now - ((bb.buckets.get key).getD (now, 0)).1 ≥ bb.windowSecs then (now, 0)
    else (bb.buckets.get key).getD (now, 0)) = entry
  -- an overflow is over the limit
  have hword : bb.limit.toNat < 2 ^ 64 := bb.limit.toNat_lt
  unfold checkedAdd
  by_cases hfits : entry.2 + bytes ≤ bb.limit.toNat
  · rw [if_pos (by omega)]
    dsimp only
    rw [if_pos hfits, if_pos hfits]
    exact ⟨rfl, rfl⟩
  · rw [if_neg hfits]
    by_cases hsmall : entry.2 + bytes < 2 ^ 64
    · rw [if_pos hsmall]
      dsimp only
      rw [if_neg hfits]
      exact ⟨rfl, rfl⟩
    · rw [if_neg hsmall]
      exact ⟨rfl, rfl⟩

theorem RateLimiter.faithful : RateLimiter.machine.Faithful 100000 where
  step rl op := by
    cases op with
    | check key now => exact (rl.check_meter key now).2
    | sweep now => rfl
  answer rl op := by
    cases op with
    | check key now => exact (rl.check_meter key now).1
    | sweep now => rfl

theorem ByteBudget.faithful : ByteBudget.machine.Faithful 100000 where
  step bb op := by
    cases op with
    | charge key bytes now => exact (bb.charge_meter key bytes now).2
    | sweep now => rfl
  answer bb op := by
    cases op with
    | charge key bytes now => exact (bb.charge_meter key bytes now).1
    | sweep now => rfl

/-- **Sweeps are not seen, an interval shorter than a window admits at most twice the limit, a
window the limit, and what is refused costs nothing.** -/
theorem windows_bound_traffic :
    (∀ limit windowSecs, Window.Metered RateLimiter.machine (RateLimiter.new limit windowSecs) limit windowSecs) ∧
      ∀ (limit : UInt64) (windowSecs : ℕ),
        Window.Metered ByteBudget.machine (ByteBudget.new limit windowSecs) limit.toNat windowSecs :=
  ⟨fun limit windowSecs => Window.Machine.metered RateLimiter.faithful (s := RateLimiter.new limit windowSecs) rfl,
    fun limit windowSecs => Window.Machine.metered ByteBudget.faithful (s := ByteBudget.new limit windowSecs) rfl⟩

end Sona
