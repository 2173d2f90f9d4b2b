/-
# How fast a stock of one-time keys can be drained

`fetch_bundle` takes a key out of the stock of a mailbox for whoever asks. Once
the stock is down to a reserve, and if there is a fallback key to give instead,
the keys are metered by mailbox in fixed windows (`DirectoryEntry.metered`).

The bound is an allowance that every key that is handed out uses up by one
(`drain_step`): what the stock has above the reserve, and what the meter can
still admit (`Window.Meter.allowance`). A window that runs when the requests
begin can end in the middle of them, so a span of time meets one window more
than it would if the first began with it (`drain_over_span`).

Key definitions: `FetchOp`, `handedOut`, `drainBudget`, `DrainFloor`.
Key theorems: `fetch_cases`, `drain_step`, `otk_drain_floor`.
-/
import Sona.Lib.Trace
import Sona.Lib.Window
import Sona.Limiter
import Sona.Relay
import Sona.Handlers
import Sona.Run
import Sona.OneTimeKeys

namespace Sona

/-- Keys that one mailbox hands out in a window while it is metered. -/
def otkDrainPerWindow : ℕ := 2

def otkDrainWindowSecs : ℕ := 600

/-! ### One fetch -/

/-- Whether a fetch is charged to the mailbox: its stock is low, and there is a fallback key. -/
def DirectoryEntry.metered (entry : DirectoryEntry) : Bool :=
  !entry.oneTimeKeys.isEmpty && decide (entry.oneTimeKeys.length ≤ otkDrainReserve) &&
  entry.fallbackKey.isSome

theorem mayConsume_eq (s : Inner) (hash : String) (entry : DirectoryEntry) (t : ℕ) :
    mayConsume s hash entry t = if entry.metered then s.chargeOtkDrain ("otkdrain:" ++ hash) t else (true, s) := rfl

/-- The client is known and within its own rate. -/
def Inner.admits (s : Inner) (client : Option String) (t : ℕ) : Bool :=
  client.any fun key => (s.chargeRate ("bundle:" ++ key) t).1

/-- Whether an admitted fetch may take a key out of the stock. -/
def Inner.maySpend (s : Inner) (hash : String) (entry : DirectoryEntry) (t : ℕ) : Bool :=
  !entry.metered || (s.otkDrainRate.check ("otkdrain:" ++ hash) t).1

/-- What an admitted fetch takes. -/
def Inner.spends (s : Inner) (hash : String) (entry : DirectoryEntry) (t : ℕ) : Option String :=
  if s.maySpend hash entry t then entry.oneTimeKeys.head? else none

def bundleOf (entry : DirectoryEntry) (oneTimeKey : String) : Response :=
  ⟨200, .bundle { identityKey := entry.identityKey, signingKey := entry.signingKey, oneTimeKey }⟩

/-- What a fetch can do. -/
inductive FetchCases (s : Inner) (client : Option String) (hash : String) (t : ℕ) :
    Response × Inner → Prop
  | refused {r : Response} {s' : Inner} (admits : s.admits client t = false)
      (consumed : consumedOtk s client hash t = none) (directory : s'.directory = s.directory)
      (drain : s'.otkDrainRate = s.otkDrainRate) : FetchCases s client hash t (r, s')
  | unknown {r : Response} {s' : Inner} (missing : s.directory.get hash = none)
      (consumed : consumedOtk s client hash t = none) (directory : s'.directory = s.directory)
      (drain : s'.otkDrainRate = s.otkDrainRate) : FetchCases s client hash t (r, s')
  | served {entry : DirectoryEntry} {r : Response} {s' : Inner}
      (found : s.directory.get hash = some entry)
      (consumed : consumedOtk s client hash t = s.spends hash entry t)
      (directory : s'.directory = s.directory.set hash (entry.withKeys
        (if s.maySpend hash entry t then entry.oneTimeKeys.tail else entry.oneTimeKeys)))
      (drain : s'.otkDrainRate =
        if entry.metered then (s.otkDrainRate.check ("otkdrain:" ++ hash) t).2 else s.otkDrainRate)
      (answer : ∀ k, (s.spends hash entry t).or entry.fallbackKey = some k → r = bundleOf entry k) :
      FetchCases s client hash t (r, s')

theorem fetch_cases (s : Inner) (client : Option String) (hash : String) (t : ℕ) :
    FetchCases s client hash t (fetchBundle s client hash t) := by
  cases client with
  | none => exact .refused rfl rfl rfl rfl
  | some key =>
    have hdirectory : (s.chargeRate ("bundle:" ++ key) t).2.directory = s.directory := rfl
    unfold fetchBundle
    dsimp only
    cases hrate : (s.chargeRate ("bundle:" ++ key) t).1 with
    | false =>
      refine .refused hrate ?_ rfl rfl
      unfold consumedOtk
      dsimp only
      rw [hrate, Bool.not_false, if_pos rfl]
    | true =>
      rw [Bool.not_true, if_neg Bool.false_ne_true, hdirectory]
      have hconsumed : consumedOtk s (some key) hash t = (s.directory.get hash).bind fun entry =>
          if (mayConsume (s.chargeRate ("bundle:" ++ key) t).2 hash entry t).1 then entry.oneTimeKeys.head?
          else none := by
        unfold consumedOtk
        cases hget : s.directory.get hash with
        | none => simp [hrate, hdirectory, hget]
        | some entry => simp [hrate, hdirectory, hget]
      cases hentry : s.directory.get hash with
      | none =>
        rw [hentry] at hconsumed
        exact .unknown hentry hconsumed rfl rfl
      | some entry =>
        rw [hentry, Option.bind_some] at hconsumed
        dsimp only
        have htake : (mayConsume (s.chargeRate ("bundle:" ++ key) t).2 hash entry t).1 =
            s.maySpend hash entry t := by
          rw [mayConsume_eq]
          unfold Inner.maySpend
          cases entry.metered <;> rfl
        have hdrain : (mayConsume (s.chargeRate ("bundle:" ++ key) t).2 hash entry t).2.otkDrainRate =
            if entry.metered then (s.otkDrainRate.check ("otkdrain:" ++ hash) t).2 else s.otkDrainRate := by
          rw [mayConsume_eq]
          cases entry.metered <;> rfl
        have hkept : (mayConsume (s.chargeRate ("bundle:" ++ key) t).2 hash entry t).2.directory =
            s.directory := by
          rw [mayConsume_eq]
          cases entry.metered <;> rfl
        rw [htake] at hconsumed
        rw [htake, hkept]
        have hspends : (if s.maySpend hash entry t then entry.oneTimeKeys.head? else none) =
            s.spends hash entry t := rfl
        rw [hspends] at hconsumed ⊢
        have hfallback : ∀ ks, (entry.withKeys ks).fallbackKey = entry.fallbackKey := fun _ => rfl
        rw [hfallback]
        cases hkey : (s.spends hash entry t).or entry.fallbackKey with
        | none => exact .served hentry hconsumed rfl hdrain fun k hk => by rw [hkey] at hk; cases hk
        | some k =>
          dsimp only
          cases hspent : s.spends hash entry t with
          | none => exact .served hentry hconsumed rfl hdrain fun k' hk' => by rw [hkey] at hk'; cases hk'; rfl
          | some _ => exact .served hentry hconsumed rfl hdrain fun k' hk' => by rw [hkey] at hk'; cases hk'; rfl

/-! ### Runs of fetches -/

/-- Requests for bundles, of any mailbox and from any client, and the sweeps of
the relay between them. -/
inductive FetchOp
  | fetch (client : Option String) (hash : String) (now : ℕ)
  | reap (now : ℕ)

def FetchOp.event : FetchOp → Event
  | fetch client hash now => .fetchBundle client hash now
  | reap now => .reap now

def FetchOp.time : FetchOp → ℕ
  | fetch _ _ now => now
  | reap now => now

def fetchStep (R : Relay) (s : Sys) (op : FetchOp) : Sys := sysStep R s op.event

/-- The keys of the stock of `m` that are handed out. -/
def FetchOp.taken (m : String) (s : Sys) : FetchOp → List String
  | fetch client hash now => if hash = m then (consumedOtk s.inner client m now).toList else []
  | reap _ => []

def handedOut (R : Relay) (m : String) : Sys → List FetchOp → List String
  | _, [] => []
  | s, op :: ops => op.taken m s ++ handedOut R m (fetchStep R s op) ops

/-- The drain limiter has the numbers that the relay makes it with. -/
def Inner.DrainMade (s : Inner) : Prop :=
  s.otkDrainRate.limit = otkDrainPerWindow ∧ s.otkDrainRate.windowSecs = otkDrainWindowSecs

def drainKey (m : String) : String := "otkdrain:" ++ m

theorem drainKey_inj {m m' : String} (h : drainKey m = drainKey m') : m = m' := by
  have hchars := congrArg String.toList h
  unfold drainKey at hchars
  rw [String.toList_append, String.toList_append] at hchars
  exact String.toList_injective (List.append_cancel_left hchars)

/-- What the requests until `b` can take out of the stock: what is above the
reserve, and what the meter admits. -/
def drainBudget (s : Inner) (m : String) (now b : ℕ) : ℕ :=
  ((s.core.stock m).length - otkDrainReserve) + s.otkDrainRate.meter.allowance (drainKey m) now b

section run

variable {R : Relay} {s : Sys} {m : String} {entry : DirectoryEntry}

/-- Keys leave the stock from the front, and nothing else of the record changes. -/
theorem fetchStep_record (hentry : s.inner.directory.get m = some entry) (op : FetchOp) :
    ∃ keys, (fetchStep R s op).inner.directory.get m = some (entry.withKeys keys) ∧
      entry.oneTimeKeys = op.taken m s ++ keys := by
  cases op with
  | reap now => exact ⟨entry.oneTimeKeys, hentry, rfl⟩
  | fetch client hash now =>
    have hcases := fetch_cases s.inner client hash now
    have hstep : (fetchStep R s (.fetch client hash now)).inner =
        (fetchBundle s.inner client hash now).2 := rfl
    unfold FetchOp.taken
    rw [hstep]
    cases hresult : fetchBundle s.inner client hash now with
    | mk r s' =>
    rw [hresult] at hcases
    by_cases hm : hash = m
    · subst hm
      dsimp only
      rw [if_pos rfl]
      cases hcases with
      | refused admits consumed directory drain =>
        refine ⟨entry.oneTimeKeys, by rw [directory, hentry]; rfl, ?_⟩
        rw [consumed]
        rfl
      | unknown missing consumed directory drain =>
        rw [hentry] at missing
        cases missing
      | served found consumed directory drain answer =>
        obtain rfl : entry = _ := Option.some.inj (hentry.symm.trans found)
        refine ⟨_, by rw [directory, Table.get_set_self], ?_⟩
        rw [consumed]
        unfold Inner.spends
        cases s.inner.maySpend hash entry now with
        | false => rfl
        | true =>
          rw [if_pos rfl, if_pos rfl]
          cases entry.oneTimeKeys <;> rfl
    · dsimp only
      rw [if_neg hm]
      refine ⟨entry.oneTimeKeys, ?_, rfl⟩
      cases hcases with
      | refused admits consumed directory drain => rw [directory, hentry]; rfl
      | unknown missing consumed directory drain => rw [directory, hentry]; rfl
      | served found consumed directory drain answer =>
        rw [directory, Table.get_set_ne _ _ fun heq => hm heq.symm, hentry]
        rfl

theorem fetchStep_made (hmade : s.inner.DrainMade) (op : FetchOp) :
    (fetchStep R s op).inner.DrainMade := by
  cases op with
  | reap now => exact hmade
  | fetch client hash now =>
    have hcases := fetch_cases s.inner client hash now
    have hstep : (fetchStep R s (.fetch client hash now)).inner =
        (fetchBundle s.inner client hash now).2 := rfl
    unfold Inner.DrainMade
    rw [hstep]
    cases hresult : fetchBundle s.inner client hash now with
    | mk r s' =>
    rw [hresult] at hcases
    dsimp only
    cases hcases with
    | refused admits consumed directory drain => rw [drain]; exact hmade
    | unknown missing consumed directory drain => rw [drain]; exact hmade
    | @served entry _ _ found consumed directory drain answer =>
      rw [drain]
      cases entry.metered with
      | false => exact hmade
      | true =>
        obtain ⟨hlimit, hwindow⟩ := s.inner.otkDrainRate.check_numbers ("otkdrain:" ++ hash) now
        rw [if_pos rfl, hlimit, hwindow]
        exact hmade

theorem Inner.DrainMade.window_pos {s : Inner} (h : s.DrainMade) :
    0 < s.otkDrainRate.windowSecs := by
  rw [h.2]
  decide

/-- Time that passes does not add to the budget. -/
theorem drainBudget_later {s : Inner} (hmade : s.DrainMade) {now t b : ℕ} (ht : now ≤ t)
    (hb : t ≤ b) :
    drainBudget s m t b ≤ drainBudget s m now b :=
  Nat.add_le_add_left (Window.Meter.allowance_later hmade.window_pos ht hb) _

/-- What a fetch of another mailbox does to the allowance of `m`. -/
theorem allowance_other {s s' : Inner} {hash : String} {entry : DirectoryEntry} {t b : ℕ}
    (hm : hash ≠ m)
    (hdrain : s'.otkDrainRate =
      if entry.metered then (s.otkDrainRate.check ("otkdrain:" ++ hash) t).2 else s.otkDrainRate) :
    s'.otkDrainRate.meter.allowance (drainKey m) t b =
      s.otkDrainRate.meter.allowance (drainKey m) t b := by
  rw [hdrain]
  cases entry.metered with
  | false => rfl
  | true => exact RateLimiter.allowance_check_ne fun heq => hm (drainKey_inj heq).symm

/-- What a fetch of `m` takes, it takes from the budget. -/
theorem budget_served {s s' : Inner} {t b : ℕ} (hmade : s.DrainMade)
    (hstock : s.core.stock m = entry.oneTimeKeys) (hfallback : entry.fallbackKey.isSome = true)
    (hleft : s'.core.stock m = if s.maySpend m entry t then entry.oneTimeKeys.tail else entry.oneTimeKeys)
    (hdrain : s'.otkDrainRate = if entry.metered then (s.otkDrainRate.check ("otkdrain:" ++ m) t).2 else s.otkDrainRate) :
    (s.spends m entry t).toList.length + drainBudget s' m t b ≤ drainBudget s m t b := by
  have hcharge : (if (s.otkDrainRate.check (drainKey m) t).1 then 1 else 0) +
      (s.otkDrainRate.check (drainKey m) t).2.meter.allowance (drainKey m) t b ≤
        s.otkDrainRate.meter.allowance (drainKey m) t b := RateLimiter.allowance_check hmade.window_pos
  unfold drainBudget Inner.spends
  rw [hleft, hdrain, hstock]
  unfold Inner.maySpend
  cases hmetered : entry.metered with
  | true =>
    -- nothing is above the reserve: the key is paid for by the charge
    unfold DirectoryEntry.metered at hmetered
    simp only [Bool.and_eq_true, decide_eq_true_eq, Bool.not_eq_true',
      List.isEmpty_eq_false_iff] at hmetered
    have hreserve := hmetered.1.2
    rw [Bool.not_true, Bool.false_or, if_pos rfl]
    change (if (s.otkDrainRate.check (drainKey m) t).1 then entry.oneTimeKeys.head? else none).toList.length +
      ((if (s.otkDrainRate.check (drainKey m) t).1 then entry.oneTimeKeys.tail else entry.oneTimeKeys).length
        - otkDrainReserve + (s.otkDrainRate.check (drainKey m) t).2.meter.allowance
        (drainKey m) t b) ≤ _
    cases hok : (s.otkDrainRate.check (drainKey m) t).1 with
    | true =>
      rw [hok, if_pos rfl] at hcharge
      rw [if_pos rfl, if_pos rfl, List.length_tail]
      have hone : entry.oneTimeKeys.head?.toList.length ≤ 1 := by cases entry.oneTimeKeys <;> simp
      omega
    | false =>
      rw [hok, if_neg Bool.false_ne_true] at hcharge
      rw [if_neg Bool.false_ne_true, if_neg Bool.false_ne_true]
      change 0 + _ ≤ _
      omega
  | false =>
    -- the stock is empty, or above the reserve
    rw [Bool.not_false, Bool.true_or, if_pos rfl, if_pos rfl, if_neg Bool.false_ne_true]
    unfold DirectoryEntry.metered at hmetered
    rw [hfallback, Bool.and_true] at hmetered
    cases hkeys : entry.oneTimeKeys with
    | nil =>
      change 0 + _ ≤ _
      rw [List.tail_nil, Nat.zero_add]
    | cons k ks =>
      rw [hkeys] at hmetered
      have habove : ¬ (k :: ks).length ≤ otkDrainReserve := by simpa using hmetered
      rw [List.length_cons] at habove
      change 1 + (ks.length - otkDrainReserve + _) ≤ (ks.length + 1) - otkDrainReserve + _
      omega

/-- **Every key that is handed out is paid for.** -/
theorem drain_step (hmade : s.inner.DrainMade) (hentry : s.inner.directory.get m = some entry)
    (hfallback : entry.fallbackKey.isSome = true) (op : FetchOp) {b : ℕ} :
    (op.taken m s).length + drainBudget (fetchStep R s op).inner m op.time b ≤
      drainBudget s.inner m op.time b := by
  have hstock : s.inner.core.stock m = entry.oneTimeKeys := stock_found hentry
  cases op with
  | reap now =>
    have hsweep : (s.inner.otkDrainRate.meter.sweep now).allowance (drainKey m) now b =
        s.inner.otkDrainRate.meter.allowance
        (drainKey m) now b := Window.Meter.allowance_sweep le_rfl
    change 0 + ((s.inner.core.stock m).length - otkDrainReserve +
      (s.inner.otkDrainRate.meter.sweep now).allowance (drainKey m) now b) ≤ _
    rw [hsweep, Nat.zero_add]
    exact le_rfl
  | fetch client hash now =>
    have hcases := fetch_cases s.inner client hash now
    have hstep : (fetchStep R s (.fetch client hash now)).inner =
        (fetchBundle s.inner client hash now).2 := rfl
    unfold FetchOp.taken
    rw [hstep]
    cases hresult : fetchBundle s.inner client hash now with
    | mk r s' =>
    rw [hresult] at hcases
    have hstill : s'.directory = s.inner.directory → s'.otkDrainRate = s.inner.otkDrainRate →
        drainBudget s' m now b = drainBudget s.inner m now b := by
      intro hdirectory hdrain
      have hsame : s'.core.stock m = s.inner.core.stock m :=
        stock_of_directory (congrArg (Table.get · m) hdirectory)
      unfold drainBudget
      rw [hsame, hdrain]
    by_cases hm : hash = m
    · subst hm
      dsimp only
      rw [if_pos rfl]
      cases hcases with
      | refused admits consumed directory drain =>
        rw [consumed]
        exact (Nat.zero_add _).trans_le (hstill directory drain).le
      | unknown missing consumed directory drain =>
        rw [consumed]
        exact (Nat.zero_add _).trans_le (hstill directory drain).le
      | served found consumed directory drain answer =>
        obtain rfl : entry = _ := Option.some.inj (hentry.symm.trans found)
        have hleft : s'.core.stock hash =
            if s.inner.maySpend hash entry now then entry.oneTimeKeys.tail else entry.oneTimeKeys :=
          stock_set_self (c := s'.core) directory
        rw [consumed]
        exact budget_served hmade hstock hfallback hleft drain
    · dsimp only
      rw [if_neg hm, List.length_nil, Nat.zero_add]
      cases hcases with
      | refused admits consumed directory drain => exact (hstill directory drain).le
      | unknown missing consumed directory drain => exact (hstill directory drain).le
      | served found consumed directory drain answer =>
        have hsame : s'.core.stock m = s.inner.core.stock m :=
          stock_set_ne directory fun heq => hm heq.symm
        unfold drainBudget
        rw [hsame]
        exact Nat.add_le_add_left (allowance_other hm drain).le _

theorem drain_run :
    ∀ (ops : List FetchOp) {s : Sys} {entry : DirectoryEntry} {now b : ℕ}, s.inner.DrainMade →
    s.inner.directory.get m = some entry → entry.fallbackKey.isSome = true →
    (now :: ops.map FetchOp.time).Pairwise (· ≤ ·) → (∀ op ∈ ops, op.time ≤ b) →
    (handedOut R m s ops).length ≤ drainBudget s.inner m now b
  | [], _, _, _, _, _, _, _, _, _ => Nat.zero_le _
  | op :: ops, s, entry, now, b, hmade, hentry, hfallback, hsorted, hb => by
    obtain ⟨hfirst, hrest⟩ := List.pairwise_cons.mp hsorted
    have hnow : now ≤ op.time := hfirst _ (List.mem_cons_self)
    have hop : op.time ≤ b := hb op List.mem_cons_self
    obtain ⟨keys, hrecord, -⟩ := fetchStep_record hentry op
    have hstep := drain_step (R := R) hmade hentry hfallback op (b := b)
    have hlater := drain_run ops (fetchStep_made (R := R) hmade op) hrecord hfallback hrest
      fun op' hop' => hb op' (List.mem_cons_of_mem op hop')
    have hwait := drainBudget_later (m := m) hmade hnow hop
    unfold handedOut
    rw [List.length_append]
    omega

theorem fifo_run :
    ∀ (ops : List FetchOp) {s : Sys} {entry : DirectoryEntry},
      s.inner.directory.get m = some entry →
    entry.oneTimeKeys = handedOut R m s ops ++ (Trace.run (fetchStep R) s ops).inner.core.stock m
  | [], _, _, hentry => (stock_found hentry).symm
  | op :: ops, s, entry, hentry => by
    obtain ⟨keys, hrecord, hkeys⟩ := fetchStep_record hentry op
    have hrest := fifo_run ops hrecord
    unfold handedOut
    rw [List.append_assoc, Trace.run_cons, ← hrest]
    exact hkeys

/-! ### What a mailbox is promised -/

/-- An admitted request gets a key: the next of the stock, or the fallback key. -/
def GetsKey (m : String) (s : Sys) (op : FetchOp) : Prop :=
  ∀ client now, op = .fetch client m now → s.inner.admits client now = true →
    ∃ entry k, s.inner.directory.get m = some entry ∧
    (fetchBundle s.inner client m now).1 = bundleOf entry k ∧
      (entry.oneTimeKeys.head? = some k ∨ entry.fallbackKey = some k)

/-- An admitted request gets a key, unless the stock is empty. -/
def GetsKeyOrEmpty (m : String) (s : Sys) (op : FetchOp) : Prop :=
  ∀ client now, op = .fetch client m now → s.inner.admits client now = true →
    s.inner.core.stock m = [] ∨
      ∃ entry k, s.inner.directory.get m = some entry ∧
      (fetchBundle s.inner client m now).1 = bundleOf entry k ∧
        entry.oneTimeKeys.head? = some k

/-- What the record of a mailbox with a fallback key promises for requests between `now` and `b`. -/
structure DrainFloor (R : Relay) (m : String) (s : Sys) (ops : List FetchOp) (now b : ℕ) :
    Prop where
  /-- A window that runs at the start can end in the middle. -/
  bound : (handedOut R m s ops).length ≤ ((s.inner.core.stock m).length - otkDrainReserve) +
    otkDrainPerWindow * ((b - now + (otkDrainWindowSecs - 1)) / otkDrainWindowSecs + 1)
  unmetered : s.inner.otkDrainRate.meter.bucket (drainKey m) now = none →
    (handedOut R m s ops).length ≤ ((s.inner.core.stock m).length - otkDrainReserve) +
      otkDrainPerWindow * ((b - now) / otkDrainWindowSecs + 1)
  fifo : s.inner.core.stock m = handedOut R m s ops ++ (Trace.run (fetchStep R) s ops).inner.core.stock m
  served : Trace.Along (fetchStep R) (GetsKey m) s ops

/-- What is spent of a key is a key of the stock. -/
theorem spends_or {s : Inner} {k : String} {now : ℕ}
    (h : (s.spends m entry now).or entry.fallbackKey = some k) :
    entry.oneTimeKeys.head? = some k ∨ entry.fallbackKey = some k := by
  unfold Inner.spends at h
  cases hmay : s.maySpend m entry now with
  | false =>
    rw [hmay] at h
    exact Or.inr h
  | true =>
    rw [hmay, if_pos rfl] at h
    cases hhead : entry.oneTimeKeys.head? with
    | none =>
      rw [hhead] at h
      exact Or.inr h
    | some k' =>
      rw [hhead] at h
      exact Or.inl h

theorem getsKey (hentry : s.inner.directory.get m = some entry)
    (hfallback : entry.fallbackKey.isSome = true) (op : FetchOp) : GetsKey m s op := by
  rintro client now rfl hadmits
  have hcases := fetch_cases s.inner client m now
  cases hresult : fetchBundle s.inner client m now with
  | mk r s' =>
  rw [hresult] at hcases
  cases hcases with
  | refused admits =>
    rw [admits] at hadmits
    cases hadmits
  | unknown missing =>
    rw [hentry] at missing
    cases missing
  | served found consumed directory drain answer =>
    obtain rfl : entry = _ := Option.some.inj (hentry.symm.trans found)
    obtain ⟨f, hf⟩ := Option.isSome_iff_exists.mp hfallback
    have hsome : ∃ k, (s.inner.spends m entry now).or entry.fallbackKey = some k := by
      rw [hf]
      cases s.inner.spends m entry now with
      | none => exact ⟨f, rfl⟩
      | some k => exact ⟨k, rfl⟩
    obtain ⟨k, hk⟩ := hsome
    exact ⟨entry, k, hentry, answer k hk, spends_or hk⟩

theorem getsKeyOrEmpty (hentry : s.inner.directory.get m = some entry)
    (hfallback : entry.fallbackKey = none) (op : FetchOp) : GetsKeyOrEmpty m s op := by
  rintro client now rfl hadmits
  have hcases := fetch_cases s.inner client m now
  cases hresult : fetchBundle s.inner client m now with
  | mk r s' =>
  rw [hresult] at hcases
  cases hcases with
  | refused admits =>
    rw [admits] at hadmits
    cases hadmits
  | unknown missing =>
    rw [hentry] at missing
    cases missing
  | served found consumed directory drain answer =>
    obtain rfl : entry = _ := Option.some.inj (hentry.symm.trans found)
    cases hhead : entry.oneTimeKeys.head? with
    | none =>
      left
      rw [stock_found hentry]
      exact List.head?_eq_none_iff.mp hhead
    | some k =>
      -- a mailbox without a fallback key is not metered
      have hspend : s.inner.maySpend m entry now = true := by
        unfold Inner.maySpend DirectoryEntry.metered
        rw [hfallback, Option.isSome_none, Bool.and_false]
        rfl
      have hspends : s.inner.spends m entry now = some k := by
        unfold Inner.spends
        rw [hspend, if_pos rfl, hhead]
      refine Or.inr ⟨entry, k, hentry, answer k ?_, hhead⟩
      rw [hspends]
      rfl

/-- What holds of every record with this fallback key holds along a run. -/
theorem along_record {C : Sys → FetchOp → Prop}
    (hC : ∀ s entry', s.inner.directory.get m = some entry' →
    entry'.fallbackKey = entry.fallbackKey → ∀ op, C s op)
    (hentry : s.inner.directory.get m = some entry) (ops : List FetchOp) :
    Trace.Along (fetchStep R) C s ops := by
  have hkeep : ∀ (s : Sys) (op : FetchOp),
      (∃ entry', s.inner.directory.get m = some entry' ∧ entry'.fallbackKey = entry.fallbackKey) →
      ∃ entry', (fetchStep R s op).inner.directory.get m = some entry' ∧
      entry'.fallbackKey = entry.fallbackKey := by
    rintro s op ⟨entry', hget, hsame⟩
    obtain ⟨keys, hrecord, -⟩ := fetchStep_record (R := R) hget op
    exact ⟨_, hrecord, hsame⟩
  refine Trace.along_of_split (fetchStep R) C s ops fun pre op post _ => ?_
  obtain ⟨entry', hget, hsame⟩ := Trace.run_inv
    (I := fun s : Sys => ∃ entry', s.inner.directory.get m = some entry' ∧ entry'.fallbackKey = entry.fallbackKey)
    hkeep ⟨entry, hentry, rfl⟩ pre
  exact hC _ entry' hget hsame op

/-- **How fast a stock can be drained.** With a fallback key, the requests between `now` and `b` are
handed at most what is above the reserve, in the order of the stock, and two keys for every window
that can begin; none of them goes away without a key. Without one, none does
unless the stock is empty. -/
theorem otk_drain_floor (R : Relay) (s : Sys) (hmade : s.inner.DrainMade) (m : String)
    (entry : DirectoryEntry) (hentry : s.inner.directory.get m = some entry) (ops : List FetchOp)
    (now b : ℕ) (hsorted : (now :: ops.map FetchOp.time).Pairwise (· ≤ ·))
    (hb : ∀ op ∈ ops, op.time ≤ b) :
    (entry.fallbackKey.isSome = true → DrainFloor R m s ops now b) ∧
    (entry.fallbackKey = none → Trace.Along (fetchStep R) (GetsKeyOrEmpty m) s ops) := by
  have hwindow := hmade.window_pos
  have hlimit : s.inner.otkDrainRate.meter.limit = otkDrainPerWindow := hmade.1
  have hsecs : s.inner.otkDrainRate.meter.windowSecs = otkDrainWindowSecs := hmade.2
  constructor
  · intro hfallback
    have hrun := drain_run (R := R) ops hmade hentry hfallback hsorted hb
    unfold drainBudget at hrun
    refine
      { bound := ?_
        unmetered := fun hnone => ?_
        fifo := (stock_found hentry).trans (fifo_run ops hentry)
        served := along_record (fun s entry' hget hsame op => getsKey hget (hsame ▸ hfallback) op) hentry ops }
    · have hmost : s.inner.otkDrainRate.meter.allowance (drainKey m) now b ≤ _ :=
        Window.Meter.allowance_le hwindow
      rw [hlimit, hsecs] at hmost
      omega
    · rw [Window.Meter.allowance_none hnone, hlimit, hsecs] at hrun
      exact hrun
  · intro hfallback
    exact along_record (fun s entry' hget hsame op => getsKeyOrEmpty hget (hsame.trans hfallback) op) hentry ops

end run

/-! ### A concrete drain -/

/-- The account registers with four keys and a fallback key. -/
def bobStocks : Event :=
  .register (some "10.0.0.1") none
    { entry := bobEntry, oneTimeKeys := ["k1", "k2", "k3", "k4"], fallbackKey := some "f" } 1000

/-- One key was fetched, so a window runs. -/
def bobDrained : Sys :=
  after (sampleRelay uploadSigned) none [bobStocks, .fetchBundle (some "10.0.0.2") bobHash 1000]

/-- Three clients ask within two seconds, at the end of the window and after it. -/
def threeAsk : List FetchOp :=
  [.fetch (some "10.0.0.3") bobHash 1599, .fetch (some "10.0.0.4") bobHash 1600, .fetch (some "10.0.0.5") bobHash 1600]

/-- What is left of the record. -/
def bobStocked : DirectoryEntry :=
  { identityKey := bobEntry.identityKey, signingKey := bobKey, oneTimeKeys := ["k2", "k3", "k4"]
    fallbackKey := some "f" }

theorem bobDrained_made : bobDrained.inner.DrainMade := by
  unfold Inner.DrainMade
  decide +kernel

theorem bobDrained_record :
    bobDrained.inner.directory.get bobHash = some bobStocked := by decide +kernel

/-- **A window that runs already counts.** Three keys of a stock of three go out within one second,
where the first window would admit two. -/
theorem running_window_drains_more :
    ¬ ∀ (R : Relay) (es : List Event) (m : String) (entry : DirectoryEntry)
    (ops : List FetchOp) (now b : ℕ), (after R none es).inner.directory.get m = some entry →
    entry.fallbackKey.isSome = true → (now :: ops.map FetchOp.time).Pairwise (· ≤ ·) →
    (∀ op ∈ ops, op.time ≤ b) →
    (handedOut R m (after R none es) ops).length ≤ (entry.oneTimeKeys.length - otkDrainReserve) +
      otkDrainPerWindow * ((b - now) / otkDrainWindowSecs + 1) := by
  intro h
  have hthree : (handedOut (sampleRelay uploadSigned) bobHash bobDrained threeAsk).length = 3 := by
    decide +kernel
  have htwo := h (sampleRelay uploadSigned) _ bobHash bobStocked threeAsk 1599 1600 bobDrained_record rfl
    (by decide) (by decide)
  have hbound : (bobStocked.oneTimeKeys.length - otkDrainReserve) +
      otkDrainPerWindow * ((1600 - 1599) / otkDrainWindowSecs + 1) = 2 := by decide
  rw [hbound] at htwo
  exact absurd (hthree.symm.trans_le htwo) (by decide)

theorem otk_drain_floor_bob :
    (handedOut (sampleRelay uploadSigned) bobHash bobDrained threeAsk) = ["k2", "k3", "k4"] ∧
    DrainFloor (sampleRelay uploadSigned) bobHash bobDrained threeAsk 1599 1600 :=
  ⟨by decide +kernel, (otk_drain_floor (sampleRelay uploadSigned) bobDrained bobDrained_made bobHash bobStocked
    bobDrained_record threeAsk 1599 1600 (by decide) (by decide)).1 rfl⟩

end Sona
