/-
# The outbox of call controls

An urgent envelope is queued before it is posted first, and posted again until the relay
takes it, its attempts are used up, its time is over or newer ones need its place
(`client-core/src/history/mod.rs`, the `call_outbox` functions). An item is
known by the recipient and the message id of its envelope.

What a call does is said item by item: a batch of results settles each item by itself, in
the order of its results (`callOutboxSettle_eq`), and a push puts new items at the end and
sheds the oldest (`callOutboxPush_eq`). `CallPosts` follows a run of calls with the failed posts of
each key since it was queued. The attempts of an item are these posts and
its deadline is a backoff behind the last one (`Posting`), from which the bounds on what
is due follow (`call_outbox_run`).

Key definitions: `Envelope.key`, `History.callOutboxDue`, `CallOutboxOp`, `CallPosts`,
`CallOutboxOp.Takes`. Key theorems: `callOutboxPush_eq`, `callOutboxSettle_eq`, `callPosts_step`,
`call_outbox_run`.
-/
import Sona.Inbound
import Sona.Lib.Trace

namespace Sona

open History (isFor stillValid settleOne maxCallOutbox maxCallOutboxAttempts)

/-! ### Items by key -/

/-- What an envelope is known by. -/
def Envelope.key (env : Envelope) : IdentityHash × String := (env.recipient, env.msgId)

def CallOutboxItem.key (i : CallOutboxItem) : IdentityHash × String := i.envelope.key

theorem isFor_iff {env : Envelope} {i : CallOutboxItem} : isFor env i = true ↔ i.key = env.key := by
  unfold isFor CallOutboxItem.key Envelope.key
  rw [Bool.and_eq_true, decide_eq_true_eq, decide_eq_true_eq, Prod.mk.injEq, and_comm]

theorem stillValid_iff {now : ℕ} {env : Envelope} :
    stillValid now env = true ↔ ∃ t, env.expiresAt = some t ∧ now < t := by
  unfold stillValid
  cases env.expiresAt <;> simp

/-- Where no item passes the test, none is settled. -/
theorem settle_none {α : Type} {p : α → Bool} (f : α → Option α) {as : List α}
    (hnone : ∀ a ∈ as, p a = false) :
    as.filterMap (fun a => if p a then f a else some a) = as := by
  rw [List.filterMap_congr (g := some) fun a ha => by rw [hnone a ha]; rfl, List.filterMap_some]

/-- Where one item at most passes the test, it can be taken out or changed wherever it stands. -/
theorem settle_some {α : Type} {p : α → Bool} (gone : α → Bool) (f : α → α → α) {a : α} :
    ∀ {as : List α},
    as.Pairwise (fun a b => p a = true → p b = false) → as.find? p = some a →
    (if gone a then as.eraseP p else updateFirst p (f a) as) =
      as.filterMap fun a => if p a then if gone a then none else some (f a a) else some a
  | b :: as, hone, hfind => by
    obtain ⟨hfirst, hrest⟩ := List.pairwise_cons.mp hone
    by_cases hb : p b = true
    · rw [List.find?_cons_of_pos hb] at hfind
      cases hfind
      rw [List.filterMap_cons, settle_none _ fun c hc => hfirst c hc hb]
      by_cases hgone : gone a = true
      · simp [hb, hgone]
      · simp [hb, hgone, updateFirst]
    · rw [List.find?_cons_of_neg hb] at hfind
      rw [List.filterMap_cons, ← settle_some gone f hrest hfind]
      by_cases hgone : gone a = true <;> simp [hgone, hb, updateFirst]

/-- No two items of one key. -/
def DistinctItems (items : List CallOutboxItem) : Prop := (items.map CallOutboxItem.key).Nodup

/-! ### A batch of results -/

/-- One result, for one item. -/
def settledBy (now : ℕ) (env : Envelope) (accepted : Bool) (i : CallOutboxItem) :
    Option CallOutboxItem :=
  if isFor env i then
    let attempts := min (i.attempts + 1) 255
    if accepted || attempts ≥ maxCallOutboxAttempts || !stillValid now i.envelope then none
    else some { i with attempts, dueAt := saturatingAdd now (2 ^ min (attempts - 1) 4) }
  else some i

/-- The results of a batch, for one item. -/
def settledAll (now : ℕ) : List (Envelope × Bool) → CallOutboxItem → Option CallOutboxItem
  | [], i => some i
  | a :: attempted, i => (settledBy now a.1 a.2 i).bind (settledAll now attempted)

theorem settledBy_envelope {now : ℕ} {env : Envelope} {accepted : Bool} {i j : CallOutboxItem}
    (h : settledBy now env accepted i = some j) : j.envelope = i.envelope := by
  unfold settledBy at h
  dsimp only at h
  split at h
  · split at h
    · cases h
    · cases h
      rfl
  · cases h
    rfl

theorem settledAll_envelope {now : ℕ} :
    ∀ (attempted : List (Envelope × Bool)) {i j : CallOutboxItem},
    settledAll now attempted i = some j → j.envelope = i.envelope
  | [], i, j, h => by
    cases h
    rfl
  | a :: attempted, i, j, h => by
    obtain ⟨i', hone, hrest⟩ := Option.bind_eq_some_iff.mp h
    exact (settledAll_envelope attempted hrest).trans (settledBy_envelope hone)

/-- Items that go through a function that keeps their envelopes keep their keys. -/
theorem distinct_filterMap {f : CallOutboxItem → Option CallOutboxItem}
    (hf : ∀ i j, f i = some j → j.envelope = i.envelope) {items : List CallOutboxItem}
    (hd : DistinctItems items) :
    DistinctItems (items.filterMap f) := by
  refine List.Nodup.sublist ?_ hd
  clear hd
  induction items with
  | nil => exact List.Sublist.slnil
  | cons i items ih =>
    rw [List.filterMap_cons]
    cases hi : f i with
    | none => exact ih.cons i.key
    | some j =>
      have hkey : j.key = i.key := congrArg Envelope.key (hf i j hi)
      rw [List.map_cons, List.map_cons, hkey]
      exact ih.cons_cons i.key

theorem settleOne_eq {now : ℕ} {env : Envelope} {accepted : Bool} {items : List CallOutboxItem}
    (hd : DistinctItems items) :
    settleOne now items env accepted = items.filterMap (settledBy now env accepted) := by
  have hone : items.Pairwise fun a b => isFor env a = true → isFor env b = false := by
    refine (List.pairwise_map.mp hd).imp fun hne ha => ?_
    rw [Bool.eq_false_iff]
    exact fun hb => hne ((isFor_iff.mp ha).trans (isFor_iff.mp hb).symm)
  unfold settleOne
  cases hfind : items.find? (isFor env) with
  | none =>
    have hnone : ∀ i ∈ items, isFor env i = false :=
      fun i hi => Bool.eq_false_iff.mpr (List.find?_eq_none.mp hfind i hi)
    exact (settle_none _ hnone).symm
  | some item =>
    exact settle_some
      (fun i => accepted || decide (min (i.attempts + 1) 255 ≥ maxCallOutboxAttempts) || !stillValid now i.envelope)
      (fun found i => { i with
        attempts := min (found.attempts + 1) 255
        dueAt := saturatingAdd now (2 ^ min (min (found.attempts + 1) 255 - 1) 4) }) hone hfind

theorem foldl_settleOne_eq (now : ℕ) :
    ∀ (attempted : List (Envelope × Bool)) {items : List CallOutboxItem},
    DistinctItems items → attempted.foldl (fun items a => settleOne now items a.1 a.2) items =
      items.filterMap (settledAll now attempted)
  | [], items, _ => (List.filterMap_some (l := items)).symm
  | a :: attempted, items, hd => by
    rw [List.foldl_cons, settleOne_eq hd,
      foldl_settleOne_eq now attempted (distinct_filterMap (fun _ _ => settledBy_envelope) hd), List.filterMap_filterMap]
    rfl

/-- **A batch settles each item by itself.** -/
theorem callOutboxSettle_eq {h : History} (hd : DistinctItems h.callOutbox)
    (attempted : List (Envelope × Bool)) (now : ℕ) : (h.callOutboxSettle attempted now).callOutbox =
      h.callOutbox.filterMap fun i => (settledAll now attempted i).filter fun j => stillValid now j.envelope := by
  unfold History.callOutboxSettle History.callOutboxReap
  dsimp only
  rw [foldl_settleOne_eq now attempted hd, List.filter_filterMap]

/-- Some result of the batch accepts the key. -/
def accepts (attempted : List (Envelope × Bool)) (k : IdentityHash × String) : Bool :=
  attempted.any fun a => a.1.key = k && a.2

/-- The failed results of the batch for the key. -/
def failures (attempted : List (Envelope × Bool)) (k : IdentityHash × String) : ℕ :=
  attempted.countP fun a => a.1.key = k && !a.2

/-- The item after `n` failed results at `now`. -/
def CallOutboxItem.failedAt (i : CallOutboxItem) (now n : ℕ) : CallOutboxItem :=
  if n = 0 then i else { i with attempts := i.attempts + n, dueAt := saturatingAdd now (2 ^ (i.attempts + n - 1)) }

theorem failedAt_failedAt (i : CallOutboxItem) (now n : ℕ) :
    (i.failedAt now 1).failedAt now n = i.failedAt now (n + 1) := by
  unfold CallOutboxItem.failedAt
  rw [if_neg Nat.one_ne_zero, if_neg (Nat.succ_ne_zero n)]
  by_cases hn : n = 0
  · rw [if_pos hn, hn]
  · rw [if_neg hn, Nat.add_right_comm, Nat.add_assoc i.attempts n 1]

/-- An item whose time is not over is gone with an accepted result or the sixth failed one. -/
theorem settledAll_eq {now : ℕ} : ∀ (attempted : List (Envelope × Bool)) {i : CallOutboxItem},
    stillValid now i.envelope = true → i.attempts < maxCallOutboxAttempts →
    settledAll now attempted i =
      if accepts attempted i.key = true ∨ maxCallOutboxAttempts ≤ i.attempts + failures attempted i.key then none
      else some (i.failedAt now (failures attempted i.key))
  | [], i, _, hlt => by
    rw [if_neg (by simp [accepts, failures, hlt])]
    rfl
  | (env, accepted) :: attempted, i, hvalid, hlt => by
    have hany : accepts ((env, accepted) :: attempted) i.key =
        ((decide (env.key = i.key) && accepted) || accepts attempted i.key) := rfl
    have hcount : failures ((env, accepted) :: attempted) i.key =
        failures attempted i.key + if (decide (env.key = i.key) && !accepted) = true then 1 else 0 :=
      List.countP_cons
    rw [settledAll, hany, hcount]
    by_cases hkey : env.key = i.key
    · have hfor : isFor env i = true := isFor_iff.mpr hkey.symm
      unfold settledBy
      rw [if_pos hfor, decide_eq_true hkey, hvalid,
        Nat.min_eq_left (by unfold maxCallOutboxAttempts at hlt; omega)]
      dsimp only
      cases accepted with
      | true => rw [if_pos (by simp), if_pos (by simp)]; rfl
      | false =>
        by_cases hlast : maxCallOutboxAttempts ≤ i.attempts + 1
        · rw [if_pos (by simp [hlast]), if_pos (.inr (by simp; omega))]
          rfl
        · have hfirst : i.failedAt now 1 = { i with
              attempts := i.attempts + 1, dueAt := saturatingAdd now (2 ^ min (i.attempts + 1 - 1) 4) } := by
            unfold CallOutboxItem.failedAt maxCallOutboxAttempts at *
            rw [if_neg Nat.one_ne_zero, Nat.min_eq_left (by omega)]
          have ih := settledAll_eq attempted (i := i.failedAt now 1) (by rw [hfirst]; exact hvalid)
            (by rw [hfirst]; exact Nat.lt_of_not_le hlast)
          have hkeys : (i.failedAt now 1).key = i.key := by rw [hfirst]; rfl
          have hattempts : (i.failedAt now 1).attempts = i.attempts + 1 := by rw [hfirst]
          rw [hkeys, hattempts, failedAt_failedAt, Nat.add_assoc, Nat.add_comm 1] at ih
          rw [if_neg (by simp [hlast]), ← hfirst, Option.bind_some, ih]
          simp
    · have hfor : ¬ isFor env i = true := fun h => hkey (isFor_iff.mp h).symm
      unfold settledBy
      rw [if_neg hfor, decide_eq_false hkey]
      exact settledAll_eq attempted hvalid hlt

/-! ### A push -/

/-- The items with the new ones behind them, before any is shed. -/
def pushedItems (envelopes : List Envelope) (now : ℕ) (items : List CallOutboxItem) :
    List CallOutboxItem :=
  envelopes.foldl (fun items env =>
    if env.wake ≠ .callControl || !stillValid now env || items.any (isFor env) then items
    else items ++ [⟨env, now, 0⟩]) items

/-- The newest items are kept. -/
theorem callOutboxPush_eq (h : History) (envelopes : List Envelope) (now : ℕ) :
    (h.callOutboxPush envelopes now).2.callOutbox =
      (pushedItems envelopes now h.callOutbox).drop
        ((pushedItems envelopes now h.callOutbox).length - maxCallOutbox) := by
  unfold History.callOutboxPush pushedItems
  dsimp only

/-- The envelopes that are held afterwards. -/
theorem callOutboxPush_held (h : History) (envelopes : List Envelope) (now : ℕ) :
    (h.callOutboxPush envelopes now).1 =
      envelopes.map fun env => (h.callOutboxPush envelopes now).2.callOutbox.any (isFor env) := by
  unfold History.callOutboxPush
  dsimp only

/-- What a push puts behind the items that were there. -/
structure Pushed (envelopes : List Envelope) (now : ℕ) (items all : List CallOutboxItem) :
    Prop where
  behind : ∃ fresh, all = items ++ fresh
  distinct : DistinctItems all
  fresh : ∀ i ∈ all, i ∈ items ∨ i.key ∉ items.map CallOutboxItem.key ∧ i.envelope ∈ envelopes ∧
    i.envelope.wake = .callControl ∧ stillValid now i.envelope = true ∧
    i.dueAt = now ∧ i.attempts = 0

theorem pushed_pushedItems (now : ℕ) {items : List CallOutboxItem} (hd : DistinctItems items)
    (envelopes : List Envelope) : Pushed envelopes now items (pushedItems envelopes now items) := by
  induction envelopes using List.reverseRecOn with
  | nil => exact ⟨⟨[], (List.append_nil _).symm⟩, hd, fun i hi => .inl hi⟩
  | append_singleton envelopes env ih =>
    obtain ⟨fresh, hbehind⟩ := ih.behind
    have hstep : pushedItems (envelopes ++ [env]) now items =
        if env.wake ≠ .callControl || !stillValid now env || (pushedItems envelopes now items).any (isFor env) then
          pushedItems envelopes now items
        else pushedItems envelopes now items ++ [⟨env, now, 0⟩] := by
      rw [pushedItems, List.foldl_append]
      rfl
    have hbefore : ∀ i ∈ pushedItems envelopes now items, i ∈ items ∨
        i.key ∉ items.map CallOutboxItem.key ∧
        i.envelope ∈ envelopes ++ [env] ∧ i.envelope.wake = .callControl ∧
        stillValid now i.envelope = true ∧
        i.dueAt = now ∧ i.attempts = 0 := fun i hi =>
      (ih.fresh i hi).imp_right fun ⟨hnew, hmem, hrest⟩ =>
        ⟨hnew, List.mem_append_left _ hmem, hrest⟩
    rw [hstep]
    split
    · exact ⟨ih.behind, ih.distinct, hbefore⟩
    · rename_i hadmit
      simp only [Bool.or_eq_true, not_or, decide_eq_true_eq, not_not, Bool.not_eq_true',
        Bool.not_eq_false] at hadmit
      obtain ⟨⟨hwake, hvalid⟩, hheld⟩ := hadmit
      have hnew : env.key ∉ (pushedItems envelopes now items).map CallOutboxItem.key := by
        rintro hkey
        obtain ⟨i, hi, hsame⟩ := List.mem_map.mp hkey
        exact hheld (List.any_eq_true.mpr ⟨i, hi, isFor_iff.mpr hsame⟩)
      refine ⟨⟨fresh ++ [⟨env, now, 0⟩], by rw [hbehind, List.append_assoc]⟩, ?_, fun i hi => ?_⟩
      · unfold DistinctItems
        rw [List.map_append]
        refine List.nodup_append.mpr ⟨ih.distinct, List.nodup_singleton _, ?_⟩
        rintro k hk k' hk' rfl
        have hsame : k = env.key := List.mem_singleton.mp hk'
        exact hnew (hsame ▸ hk)
      · rcases List.mem_append.mp hi with hi | hi
        · exact hbefore i hi
        · rw [List.mem_singleton.mp hi]
          refine .inr ⟨fun hkey => hnew ?_, List.mem_append_right _ List.mem_cons_self, hwake,
            hvalid, rfl, rfl⟩
          rw [hbehind, List.map_append]
          exact List.mem_append_left _ hkey

/-! ### Runs -/

/-- Every call control whose deadline has come, and whose time is not over. -/
def History.callOutboxDue (h : History) (now : ℕ) : List Envelope :=
  (h.callOutbox.filter fun i => i.dueAt ≤ now && stillValid now i.envelope).map (·.envelope)

inductive CallOutboxOp where
  | push (envelopes : List Envelope)
  | due
  | settle (attempted : List (Envelope × Bool))
  | reap

/-- The history, and for each key when its posts failed since it was queued, the last time first. -/
structure CallPosts where
  history : History
  failed : IdentityHash × String → List ℕ := fun _ => []

def CallPosts.items (s : CallPosts) : List CallOutboxItem := s.history.callOutbox

/-- One call, at its time. -/
def CallPosts.step (s : CallPosts) : ℕ × CallOutboxOp → CallPosts
  | (now, .push envelopes) =>
    { history := (s.history.callOutboxPush envelopes now).2
      failed := fun k => if k ∈ s.items.map CallOutboxItem.key then s.failed k else [] }
  | (_, .due) => s
  | (now, .settle attempted) =>
    { history := s.history.callOutboxSettle attempted now
      failed := fun k => List.replicate (failures attempted k) now ++ s.failed k }
  | (now, .reap) => { s with history := (s.history.callOutboxReap now).2 }

/-- The expiry of an envelope is a `u64`. -/
def CallOutboxOp.Typed : CallOutboxOp → Prop
  | .push envelopes => ∀ env ∈ envelopes, ∀ t ∈ env.expiresAt, t ≤ u64Max
  | _ => True

/-- The calls that take an item out: a push that sheds it, as it is one of the oldest, a batch that
accepts it or has its sixth failed result, and a batch or a reap when its time is over. -/
def CallPosts.Takes (s : CallPosts) (i : CallOutboxItem) : ℕ × CallOutboxOp → Prop
  | (now, .push envelopes) => i ∈ (pushedItems envelopes now s.items).take
      ((pushedItems envelopes now s.items).length - maxCallOutbox)
  | (_, .due) => False
  | (now, .settle attempted) => accepts attempted i.key = true ∨
      maxCallOutboxAttempts ≤ (s.failed i.key).length + failures attempted i.key ∨
      stillValid now i.envelope = false
  | (now, .reap) => stillValid now i.envelope = false

/-- An item and its failed posts. -/
structure Posting (s : CallPosts) (i : CallOutboxItem) : Prop where
  urgent : i.envelope.wake = .callControl
  expires : ∃ t, i.envelope.expiresAt = some t ∧ t ≤ u64Max
  counted : i.attempts = (s.failed i.key).length
  left : i.attempts < maxCallOutboxAttempts
  backoff : ∀ t ts, s.failed i.key = t :: ts → i.dueAt = saturatingAdd t (2 ^ ts.length)

structure CallPosts.Ok (s : CallPosts) : Prop where
  capacity : s.items.length ≤ maxCallOutbox
  distinct : DistinctItems s.items
  posting : ∀ i ∈ s.items, Posting s i

theorem failedAt_envelope (i : CallOutboxItem) (now n : ℕ) :
    (i.failedAt now n).envelope = i.envelope := by
  unfold CallOutboxItem.failedAt
  split <;> rfl

theorem failedAt_key (i : CallOutboxItem) (now n : ℕ) : (i.failedAt now n).key = i.key :=
  congrArg Envelope.key (failedAt_envelope i now n)

/-- What is left of the items after a batch. -/
theorem mem_settle {s : CallPosts} (hs : s.Ok) {now : ℕ} {attempted : List (Envelope × Bool)}
    {j : CallOutboxItem} :
    j ∈ (s.step (now, .settle attempted)).items ↔
    ∃ i ∈ s.items, ¬ s.Takes i (now, .settle attempted) ∧
      j = i.failedAt now (failures attempted i.key) := by
  have hitems : (s.step (now, .settle attempted)).items =
      s.items.filterMap fun i => (settledAll now attempted i).filter
      fun j => stillValid now j.envelope :=
    callOutboxSettle_eq hs.distinct attempted now
  rw [hitems, List.mem_filterMap]
  refine exists_congr fun i => and_congr_right fun hi => ?_
  have hposting := hs.posting i hi
  have htakes : s.Takes i (now, .settle attempted) ↔ accepts attempted i.key = true ∨
      maxCallOutboxAttempts ≤ i.attempts + failures attempted i.key ∨
      stillValid now i.envelope = false := by
    rw [hposting.counted]
    rfl
  rw [htakes]
  cases hvalid : stillValid now i.envelope with
  | false =>
    -- whatever the results did to it, its time is over
    refine iff_of_false (fun h => ?_) fun h => h.1 (.inr (.inr rfl))
    obtain ⟨hsettled, hkept⟩ := Option.filter_eq_some_iff.mp h
    rw [settledAll_envelope attempted hsettled, hvalid] at hkept
    cases hkept
  | true =>
    rw [settledAll_eq attempted hvalid hposting.left]
    by_cases hgone : accepts attempted i.key = true ∨ maxCallOutboxAttempts ≤ i.attempts + failures attempted i.key
    · rw [if_pos hgone]
      refine iff_of_false (fun h => by cases h) fun h => h.1 ?_
      exact hgone.imp_right .inl
    · rw [if_neg hgone, Option.filter_some, failedAt_envelope, hvalid, if_pos rfl,
        Option.some.injEq]
      refine ⟨fun h => ⟨fun h' => hgone ?_, h.symm⟩, fun h => h.2.symm⟩
      rcases h' with h' | h' | h'
      · exact .inl h'
      · exact .inr h'
      · cases h'

theorem Posting.failedAt {s s' : CallPosts} {i : CallOutboxItem} (h : Posting s i) {now n : ℕ}
    (hfailed : s'.failed i.key = List.replicate n now ++ s.failed i.key)
    (hleft : i.attempts + n < maxCallOutboxAttempts) :
    Posting s' (i.failedAt now n) where
  urgent := by rw [failedAt_envelope]; exact h.urgent
  expires := by rw [failedAt_envelope]; exact h.expires
  counted := by
    rw [failedAt_key, hfailed, List.length_append, List.length_replicate, ← h.counted]
    unfold CallOutboxItem.failedAt
    split
    · omega
    · exact Nat.add_comm _ _
  left := by
    unfold CallOutboxItem.failedAt
    split
    · exact h.left
    · exact hleft
  backoff := by
    intro t ts hts
    rw [failedAt_key, hfailed] at hts
    unfold CallOutboxItem.failedAt
    cases n with
    | zero => exact h.backoff t ts hts
    | succ n =>
      rw [List.replicate_succ, List.cons_append] at hts
      obtain ⟨rfl, rfl⟩ := List.cons.inj hts
      have hlast : i.attempts + (n + 1) - 1 = n + i.attempts := by omega
      rw [if_neg (Nat.succ_ne_zero n), List.length_append, List.length_replicate,
        ← h.counted, hlast]

/-- **A call keeps the outbox in order.** -/
theorem callPosts_step {s : CallPosts} (hs : s.Ok) {op : ℕ × CallOutboxOp} (htyped : op.2.Typed) :
    (s.step op).Ok := by
  obtain ⟨now, op⟩ := op
  cases op with
  | push envelopes =>
    have hpushed := pushed_pushedItems now hs.distinct envelopes
    have hitems : (s.step (now, .push envelopes)).items = (pushedItems envelopes now s.items).drop
        ((pushedItems envelopes now s.items).length - maxCallOutbox) := callOutboxPush_eq s.history envelopes now
    refine ⟨?_, ?_, fun i hi => ?_⟩
    · rw [hitems, List.length_drop]
      omega
    · rw [hitems]
      exact List.Nodup.sublist ((List.drop_sublist _ _).map _) hpushed.distinct
    · rw [hitems] at hi
      rcases hpushed.fresh i (List.mem_of_mem_drop hi) with hold
        | ⟨hnew, hmem, hwake, hvalid, -, hattempts⟩
      · have hfailed : (s.step (now, .push envelopes)).failed i.key = s.failed i.key :=
          if_pos (List.mem_map_of_mem hold)
        have hposting := hs.posting i hold
        exact ⟨hposting.urgent, hposting.expires,
          by rw [hfailed]; exact hposting.counted, hposting.left, by rw [hfailed]; exact hposting.backoff⟩
      · have hfailed : (s.step (now, .push envelopes)).failed i.key = [] := if_neg hnew
        obtain ⟨t, ht, -⟩ := stillValid_iff.mp hvalid
        exact ⟨hwake, ⟨t, ht, htyped _ hmem t ht⟩,
          by rw [hfailed, hattempts]; rfl, by rw [hattempts]; decide, fun t ts hts => by rw [hfailed] at hts; cases hts⟩
  | due => exact hs
  | settle attempted =>
    have hitems : (s.step (now, .settle attempted)).items =
        s.items.filterMap fun i => (settledAll now attempted i).filter
        fun j => stillValid now j.envelope :=
      callOutboxSettle_eq hs.distinct attempted now
    refine ⟨?_, ?_, fun j hj => ?_⟩
    · rw [hitems]
      exact le_trans (List.length_filterMap_le _ _) hs.capacity
    · rw [hitems]
      refine distinct_filterMap (fun i j h => ?_) hs.distinct
      exact settledAll_envelope attempted (Option.filter_eq_some_iff.mp h).1
    · obtain ⟨i, hi, hkept, rfl⟩ := (mem_settle hs).mp hj
      have hposting := hs.posting i hi
      refine hposting.failedAt rfl (Nat.lt_of_not_le fun hlast => hkept (.inr (.inl ?_)))
      rwa [← hposting.counted]
  | reap =>
    have hitems : (s.step (now, .reap)).items = s.items.filter fun i => stillValid now i.envelope :=
      rfl
    refine ⟨?_, ?_, fun i hi => ?_⟩
    · rw [hitems]
      exact le_trans (List.length_filter_le _ _) hs.capacity
    · rw [hitems]
      exact List.Nodup.sublist (List.filter_sublist.map _) hs.distinct
    · rw [hitems] at hi
      have hposting := hs.posting i (List.mem_of_mem_filter hi)
      exact ⟨hposting.urgent, hposting.expires, hposting.counted, hposting.left, hposting.backoff⟩

theorem callPosts_run :
    ∀ (ops : List (ℕ × CallOutboxOp)) {s : CallPosts}, s.Ok → (∀ op ∈ ops, op.2.Typed) →
    (Trace.run CallPosts.step s ops).Ok
  | [], _, hs, _ => hs
  | op :: ops, _, hs, htyped => callPosts_run ops (callPosts_step hs (htyped op List.mem_cons_self))
      fun op' hop => htyped op' (List.mem_cons_of_mem op hop)

/-! ### What is promised -/

/-- An item is taken out by the calls that take it, and stays through the others. -/
theorem callPosts_takes {s : CallPosts} (hs : s.Ok) (op : ℕ × CallOutboxOp) {i : CallOutboxItem}
    (hi : i ∈ s.items) :
    (s.Takes i op → i.key ∉ (s.step op).items.map CallOutboxItem.key) ∧
      (¬ s.Takes i op → ∃ j ∈ (s.step op).items, j.envelope = i.envelope) := by
  obtain ⟨now, op⟩ := op
  cases op with
  | push envelopes =>
    have hpushed := pushed_pushedItems now hs.distinct envelopes
    have hitems : (s.step (now, .push envelopes)).items = (pushedItems envelopes now s.items).drop
        ((pushedItems envelopes now s.items).length - maxCallOutbox) := callOutboxPush_eq s.history envelopes now
    rw [hitems]
    have hsplit := List.take_append_drop
      ((pushedItems envelopes now s.items).length - maxCallOutbox)
      (pushedItems envelopes now s.items)
    have hkeys := hpushed.distinct
    unfold DistinctItems at hkeys
    rw [← hsplit, List.map_append] at hkeys
    refine ⟨fun htaken hkept => ?_, fun hstays => ?_⟩
    · exact (List.nodup_append.mp hkeys).2.2 _ (List.mem_map_of_mem htaken) _ hkept rfl
    · obtain ⟨fresh, hbehind⟩ := hpushed.behind
      have hall : i ∈ pushedItems envelopes now s.items := by
        rw [hbehind]
        exact List.mem_append_left _ hi
      rw [← hsplit] at hall
      exact ⟨i, (List.mem_append.mp hall).resolve_left hstays, rfl⟩
  | due => exact ⟨fun h => h.elim, fun _ => ⟨i, hi, rfl⟩⟩
  | settle attempted =>
    refine ⟨fun htaken hkept => ?_, fun hstays => ?_⟩
    · obtain ⟨j, hj, hkey⟩ := List.mem_map.mp hkept
      obtain ⟨i', hi', hstays, rfl⟩ := (mem_settle hs).mp hj
      rw [failedAt_key] at hkey
      exact hstays (List.inj_on_of_nodup_map hs.distinct hi' hi hkey ▸ htaken)
    · exact ⟨_, (mem_settle hs).mpr ⟨i, hi, hstays, rfl⟩, failedAt_envelope i _ _⟩
  | reap =>
    have hitems : (s.step (now, .reap)).items = s.items.filter fun i => stillValid now i.envelope :=
      rfl
    rw [hitems]
    refine ⟨fun htaken hkept => ?_, fun hstays => ⟨i, List.mem_filter.mpr ⟨hi, Bool.eq_true_of_not_eq_false hstays⟩, rfl⟩⟩
    obtain ⟨j, hj, hkey⟩ := List.mem_map.mp hkept
    obtain ⟨hj, hvalid⟩ := List.mem_filter.mp hj
    rw [List.inj_on_of_nodup_map hs.distinct hj hi hkey] at hvalid
    exact Bool.false_ne_true (htaken.symm.trans hvalid)

/-- An envelope that is due is in time, and a backoff behind its last failed post. -/
theorem callOutboxDue_bounds {s : CallPosts} (hs : s.Ok) {now : ℕ} {env : Envelope}
    (hdue : env ∈ s.history.callOutboxDue now) : (∃ t, env.expiresAt = some t ∧ now < t) ∧
      ∀ t ts, s.failed env.key = t :: ts → ts.length < 5 ∧ t + 2 ^ ts.length ≤ now := by
  obtain ⟨i, hi, rfl⟩ := List.mem_map.mp hdue
  obtain ⟨hi, hboth⟩ := List.mem_filter.mp hi
  obtain ⟨hreached, hvalid⟩ := Bool.and_eq_true_iff.mp hboth
  have hposting := hs.posting i hi
  obtain ⟨t, ht, hbefore⟩ := stillValid_iff.mp hvalid
  refine ⟨⟨t, ht, hbefore⟩, fun u us hfailed => ?_⟩
  have hcounted := hposting.counted
  have hleft := hposting.left
  have hkey : s.failed i.key = u :: us := hfailed
  rw [hkey, List.length_cons] at hcounted
  have hdeadline := hposting.backoff u us hkey
  obtain ⟨t', ht', hword⟩ := hposting.expires
  cases ht.symm.trans ht'
  unfold maxCallOutboxAttempts at hleft
  unfold saturatingAdd at hdeadline
  rw [decide_eq_true_eq] at hreached
  exact ⟨by omega, by omega⟩

/-- What is promised of the outbox, whatever was called. -/
structure CallOutboxKept (s : CallPosts) : Prop where
  capacity : s.items.length ≤ maxCallOutbox
  distinct : (s.items.map CallOutboxItem.key).Nodup
  urgent : ∀ i ∈ s.items, i.envelope.wake = .callControl ∧ i.envelope.expiresAt.isSome = true
  due : ∀ now, ∀ env ∈ s.history.callOutboxDue now, (∃ t, env.expiresAt = some t ∧ now < t) ∧
    ∀ t ts, s.failed env.key = t :: ts → ts.length < 5 ∧ t + 2 ^ ts.length ≤ now
  taken : ∀ op, ∀ i ∈ s.items, (s.Takes i op → i.key ∉ (s.step op).items.map CallOutboxItem.key) ∧
    (¬ s.Takes i op → ∃ j ∈ (s.step op).items, j.envelope = i.envelope)
  held : ∀ now envelopes, (s.history.callOutboxPush envelopes now).1 =
    envelopes.map fun env => decide (env.key ∈ (s.step (now, .push envelopes)).items.map CallOutboxItem.key)

/-- **Call controls are queued in bounds, posted in time and lost for no other reason**, in every
run of calls on an outbox that was empty. -/
theorem call_outbox_run {h : History} (hempty : h.callOutbox = []) (ops : List (ℕ × CallOutboxOp))
    (htyped : ∀ op ∈ ops, op.2.Typed) :
    CallOutboxKept (Trace.run CallPosts.step { history := h } ops) := by
  have hstart : CallPosts.Ok { history := h } := by
    have hitems : CallPosts.items { history := h } = [] := hempty
    exact ⟨by rw [hitems]; exact Nat.zero_le _, by rw [hitems]; exact List.nodup_nil, by simp [hitems]⟩
  have hok := callPosts_run ops hstart htyped
  generalize Trace.run CallPosts.step { history := h } ops = s at hok
  exact {
    capacity := hok.capacity
    distinct := hok.distinct
    urgent := fun i hi => by
      obtain ⟨t, ht, -⟩ := (hok.posting i hi).expires
      exact ⟨(hok.posting i hi).urgent, by rw [ht]; rfl⟩
    due := fun now env => callOutboxDue_bounds hok
    taken := fun op i => callPosts_takes hok op
    held := fun now envelopes => by
      rw [callOutboxPush_held]
      refine List.map_congr_left fun env _ => ?_
      rw [Bool.eq_iff_iff, List.any_eq_true, decide_eq_true_eq, List.mem_map]
      exact exists_congr fun i => and_congr_right fun _ => isFor_iff }

/-- A call control to one recipient, in time until 1000. -/
def controlEnvelope : Envelope :=
  { recipient := ⟨"aa"⟩, ciphertext := "c", kind := .message, msgId := "m", expiresAt := some 1000,
    wake := .callControl
    rawIdentifier := none }

/-- A call control to another recipient, of which the time is over sooner. -/
def otherEnvelope : Envelope := { controlEnvelope with recipient := ⟨"bb"⟩, expiresAt := some 40 }

/-- Two call controls: one fails and is due again, the other is taken. -/
theorem call_outbox_run_two : CallOutboxKept (Trace.run CallPosts.step { history := {} }
    [(10, .push [controlEnvelope, otherEnvelope]), (11, .settle [(controlEnvelope, false), (otherEnvelope, false)]),
      (12, .due), (12, .settle [(controlEnvelope, false), (otherEnvelope, true)]), (13, .reap), (14, .due)]) :=
  call_outbox_run rfl _ (by
    intro op hop
    simp only [List.mem_cons, List.not_mem_nil, or_false] at hop
    rcases hop with rfl | rfl | rfl | rfl | rfl | rfl
    · intro env henv t ht
      rcases List.mem_pair.mp henv with rfl | rfl
      · cases ht
        decide
      · cases ht
        decide
    all_goals trivial)

end Sona
