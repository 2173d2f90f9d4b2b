/-
# The outbox of declines

A decline is queued in the call store, and posted again until it is reported
delivered, its attempts are used up or its time is over (`client-core/src/callstore.rs`).
`takeDue` charges each entry that is due one attempt and sets the next one behind a
backoff, whatever happens to the post.

`Posted` follows a run of the store's calls with what was queued, what was returned and
when, and which ids were reported. Each call does one of three things to the outbox: it
filters it, charges it or adds an entry (`callStoreStep_outbox`). An entry carries its own
history: as many attempts as it was returned, and no next one before the backoff since the
last (`Carried`); from this follows the budget (`outbox_budget`).

Key definitions: `outboxStep`, `Posted`, `Spaced`, `Carried`, `OutboxBudget`.
Key theorems: `callStoreStep_outbox`, `carried_step`, `outbox_budget`.
-/
import Sona.CallStore
import Sona.Run

namespace Sona

/-! ### What a call does to the outbox -/

/-- The entry that a decline makes, where it is accepted. -/
def CallStoreOp.entry? : CallStoreOp → Option OutboxEntry
  | .queueDecline callMailbox callKey plaintext expiresAt now random =>
    if expiresAt ≤ now || plaintext.length > maxCapsuleBytes || (utf8 callMailbox).length != 64 ||
        !(utf8 callMailbox).all isHexByte || callKey.isEmpty ||
        (utf8 callKey).length > 64 then none else
    some { id := random.callId, post := { callMailbox, callKey, plaintext, expiresAt }
           attempts := 0, nextAttemptAt := now }
  | _ => none

/-- The entry is due, with attempts and time left. -/
def OutboxEntry.due (now : ℕ) (e : OutboxEntry) : Bool := e.alive now && e.nextAttemptAt ≤ now

def outboxStep (outbox : List OutboxEntry) (op : CallStoreOp) : List OutboxEntry :=
  match op with
  | .queueDecline .. =>
    match op.entry? with
    | some e => makeFit maxOutbox outbox ++ [e]
    | none => outbox
  | .takeDue now => (outbox.filter (·.alive now)).map fun e =>
    if e.nextAttemptAt > now then e else e.charge now
  | .delivered ids => outbox.filter fun e => !ids.contains e.id
  | .reconcile now _ | .cleanup now _ => outbox.filter (·.alive now)
  | _ => outbox

/-- The calls on the store do this to its outbox. -/
theorem callStoreStep_outbox (H : Sha256) (s : CallStore) (op : CallStoreOp) :
    (callStoreStep H s op).outbox = outboxStep s.outbox op := by
  cases op with
  | recordOffer capsule now retention =>
    unfold callStoreStep CallStore.recordOffer
    dsimp only
    split
    · rfl
    · split <;> rfl
  | recordTerminal call offer reason now retention =>
    unfold callStoreStep CallStore.recordTerminal
    dsimp only
    split
    · unfold CallStore.takeRing
      dsimp only
      split <;> rfl
    · rfl
  | markPresented call presentedAs =>
    unfold callStoreStep CallStore.markPresented
    dsimp only
    split <;> rfl
  | takeRing call =>
    unfold callStoreStep CallStore.takeRing
    dsimp only
    split <;> rfl
  | queueDecline mailbox key plaintext expiresAt now random =>
    unfold callStoreStep CallStore.queueDecline outboxStep CallStoreOp.entry?
    dsimp only
    split <;> rfl
  | takeDue now => rfl
  | delivered ids => rfl
  | reconcile now retention => rfl
  | cleanup now retention => rfl

/-! ### The history of a run -/

/-- An entry that was returned, and when. -/
structure OutboxReturn where
  id : String
  post : CapsulePost
  now : ℕ
deriving DecidableEq, Repr

/-- The store, and what came of its outbox: the declines it queued, the returns, the last one first,
and the ids that were reported delivered. -/
structure Posted where
  store : CallStore
  queued : List (String × CapsulePost) := []
  taken : List OutboxReturn := []
  confirmed : List String := []

/-- What a call returns of the outbox. -/
def CallStore.returns (s : CallStore) : CallStoreOp → List OutboxReturn
  | .takeDue now => (s.takeDue now).1.map fun p => ⟨p.1, p.2, now⟩
  | _ => []

def Posted.step (H : Sha256) (w : Posted) (op : CallStoreOp) : Posted where
  store := callStoreStep H w.store op
  queued := (op.entry?.map fun e => (e.id, e.post)).toList ++ w.queued
  taken := w.store.returns op ++ w.taken
  confirmed := match op with
    | .delivered ids => (ids.filter fun id => w.queued.any fun q => q.1 == id) ++ w.confirmed
    | _ => w.confirmed

/-- When an entry was returned, the last time first. -/
def Posted.times (w : Posted) (id : String) : List ℕ :=
  (w.taken.filter (·.id = id)).map OutboxReturn.now

/-- Each time is a backoff later than the one before: the first backoff after the first time. -/
def Spaced : List ℕ → Prop
  | later :: t :: ts => t + outboxBackoffSecs.getD ts.length 0 ≤ later ∧ Spaced (t :: ts)
  | _ => True

/-- The id that a decline draws. -/
def CallStoreOp.drawn? : CallStoreOp → Option String
  | .queueDecline _ _ _ _ _ random => some random.callId
  | _ => none

/-- The expiry of a decline is a `u64`. -/
def CallStoreOp.Typed : CallStoreOp → Prop
  | .queueDecline _ _ _ expiresAt _ _ => expiresAt ≤ u64Max
  | _ => True

/-- What an entry in the outbox carries of its history. -/
structure Carried (w : Posted) (e : OutboxEntry) : Prop where
  queued : (e.id, e.post) ∈ w.queued
  waiting : e.id ∉ w.confirmed
  typed : e.post.expiresAt ≤ u64Max
  counted : (w.times e.id).length = e.attempts
  budget : e.attempts ≤ maxOutboxAttempts
  backoff : ∀ t ts, w.times e.id = t :: ts →
    saturatingAdd t (outboxBackoffSecs.getD ts.length 0) ≤ e.nextAttemptAt

/-- The outbox and its history. -/
structure Posted.Ok (w : Posted) : Prop where
  distinct : (w.store.outbox.map OutboxEntry.id).Nodup
  capacity : w.store.outbox.length ≤ maxOutbox
  carried : ∀ e ∈ w.store.outbox, Carried w e
  inTime : ∀ r ∈ w.taken, (r.id, r.post) ∈ w.queued ∧ r.now < r.post.expiresAt
  attempts : ∀ id, (w.times id).length ≤ maxOutboxAttempts
  spaced : ∀ id, Spaced (w.times id)
  known : ∀ id ∈ w.confirmed, ∃ post, (id, post) ∈ w.queued

/-! ### One call -/

/-- Of entries under different keys, one is filtered by its key. -/
theorem filter_key {α β : Type} [DecidableEq β] (key : α → β) {x : α} :
    ∀ {xs : List α}, (xs.map key).Nodup →
    x ∈ xs → (xs.filter fun y => key y = key x) = [x]
  | y :: ys, hnodup, hmem => by
    obtain ⟨hout, hrest⟩ := List.nodup_cons.mp hnodup
    rcases List.mem_cons.mp hmem with rfl | hmem
    · have hnone : (ys.filter fun y => key y = key x) = [] := by
        refine List.filter_eq_nil_iff.mpr fun z hz => ?_
        simp only [decide_eq_true_eq]
        exact fun heq => hout (heq ▸ List.mem_map_of_mem hz)
      rw [List.filter_cons_of_pos (by simp), hnone]
    · have hne : key y ≠ key x := fun heq => hout (heq ▸ List.mem_map_of_mem hmem)
      rw [List.filter_cons_of_neg (by simpa using hne), filter_key key hrest hmem]

/-- `takeDue` returns the entries that are due. -/
theorem returns_takeDue (s : CallStore) (now : ℕ) :
    s.returns (.takeDue now) = (s.outbox.filter (·.due now)).map fun e => ⟨e.id, e.post, now⟩ := by
  unfold CallStore.returns CallStore.takeDue CallStore.reapOutbox
  dsimp only
  rw [List.map_map, List.filter_filter]
  refine congrArg (List.map _) (List.filter_congr fun e _ => ?_)
  exact Bool.and_comm ..

/-- An entry is returned at most once by a call. -/
theorem returns_of_mem {s : CallStore} (hnodup : (s.outbox.map OutboxEntry.id).Nodup)
    {e : OutboxEntry} (he : e ∈ s.outbox) (now : ℕ) :
    ((s.returns (.takeDue now)).filter (·.id = e.id)).map OutboxReturn.now =
      if e.due now then [now] else [] := by
  rw [returns_takeDue, List.filter_map, List.filter_filter, List.map_map]
  have hone := filter_key OutboxEntry.id hnodup he
  have hboth : (s.outbox.filter fun x => decide (x.id = e.id) && x.due now) =
      if e.due now then [e] else [] := by
    have hcomm : (s.outbox.filter fun x => decide (x.id = e.id) && x.due now) =
        (s.outbox.filter fun x => x.id = e.id).filter (·.due now) := by
      rw [List.filter_filter]
      exact List.filter_congr fun x _ => Bool.and_comm ..
    rw [hcomm, hone]
    cases hdue : e.due now with
    | true => rw [List.filter_cons_of_pos hdue, List.filter_nil, if_pos rfl]
    | false => rw [List.filter_cons_of_neg (by simp [hdue]), List.filter_nil, if_neg (by simp)]
  change (List.map _ (s.outbox.filter fun x => decide (x.id = e.id) && x.due now)) = _
  rw [hboth]
  split <;> rfl

/-- What an entry that is returned adds to the times of an id. -/
theorem Posted.times_step (H : Sha256) (w : Posted) (op : CallStoreOp) (id : String) :
    (w.step H op).times id =
    ((w.store.returns op).filter (·.id = id)).map OutboxReturn.now ++ w.times id := by
  unfold Posted.times Posted.step
  dsimp only
  rw [List.filter_append, List.map_append]

theorem Posted.times_same (H : Sha256) (w : Posted) {op : CallStoreOp}
    (hnone : w.store.returns op = []) (id : String) : (w.step H op).times id = w.times id := by
  rw [Posted.times_step, hnone]
  rfl

section step

variable {H : Sha256} {w : Posted}

/-- An entry that is not returned and not reported keeps its history. -/
theorem Carried.keep {w' : Posted} {e : OutboxEntry} (h : Carried w e)
    (hqueued : ∀ q ∈ w.queued, q ∈ w'.queued) (hwaiting : e.id ∉ w'.confirmed)
    (htimes : w'.times e.id = w.times e.id) : Carried w' e where
  queued := hqueued _ h.queued
  waiting := hwaiting
  typed := h.typed
  counted := by
    rw [htimes]
    exact h.counted
  budget := h.budget
  backoff := by
    rw [htimes]
    exact h.backoff

/-- A call that adds and returns nothing. -/
theorem ok_filtered (h : w.Ok) (op : CallStoreOp) (hno : op.entry? = none)
    (hnone : w.store.returns op = []) (hsub : (outboxStep w.store.outbox op).Sublist w.store.outbox)
    (hwaiting : ∀ e ∈ outboxStep w.store.outbox op, e.id ∉ (w.step H op).confirmed)
    (hknown : ∀ id ∈ (w.step H op).confirmed, ∃ post, (id, post) ∈ w.queued) :
    (w.step H op).Ok := by
  have hout : (w.step H op).store.outbox = outboxStep w.store.outbox op :=
    callStoreStep_outbox H w.store op
  have hqueued : (w.step H op).queued = w.queued := by
    unfold Posted.step
    rw [hno]
    rfl
  have htaken : (w.step H op).taken = w.taken := by
    unfold Posted.step
    rw [hnone]
    rfl
  exact {
    distinct := by
      rw [hout]
      exact h.distinct.sublist (hsub.map _)
    capacity := by
      rw [hout]
      exact hsub.length_le.trans h.capacity
    carried := by
      intro e he
      rw [hout] at he
      refine (h.carried e (hsub.subset he)).keep ?_ (hwaiting e he)
        (Posted.times_same H w hnone e.id)
      rw [hqueued]
      exact fun q hq => hq
    inTime := by
      rw [htaken, hqueued]
      exact h.inTime
    attempts := fun id => (congrArg List.length (Posted.times_same H w hnone id)).trans_le
      (h.attempts id)
    spaced := fun id => (Posted.times_same H w hnone id) ▸ h.spaced id
    known := by
      rw [hqueued]
      exact hknown }

theorem entry_queueDecline {op : CallStoreOp} {e : OutboxEntry} (h : op.entry? = some e)
    (htyped : op.Typed) :
    e.attempts = 0 ∧ e.post.expiresAt ≤ u64Max := by
  cases op with
  | queueDecline mailbox key plaintext expiresAt now random =>
    unfold CallStoreOp.entry? at h
    dsimp only at h
    split at h
    · cases h
    · rw [← Option.some.inj h]
      exact ⟨rfl, htyped⟩
  | _ => cases h

/-- An id that was not queued has no history. -/
theorem times_fresh (h : w.Ok) {id : String} (hfresh : ∀ q ∈ w.queued, q.1 ≠ id) :
    w.times id = [] := by
  unfold Posted.times
  rw [List.map_eq_nil_iff, List.filter_eq_nil_iff]
  intro r hr
  simp only [decide_eq_true_eq]
  exact hfresh _ (h.inTime r hr).1

/-- A new entry carries the start of its history. -/
theorem carried_queued (h : w.Ok) {e : OutboxEntry}
    (hnew : e.attempts = 0 ∧ e.post.expiresAt ≤ u64Max) (hfresh : ∀ q ∈ w.queued, q.1 ≠ e.id)
    {w' : Posted} (hqueued : (e.id, e.post) ∈ w'.queued) (hconfirmed : w'.confirmed = w.confirmed)
    (htimes : w'.times e.id = w.times e.id) : Carried w' e where
  queued := hqueued
  waiting := by
    rw [hconfirmed]
    intro hreported
    obtain ⟨post, hpost⟩ := h.known _ hreported
    exact hfresh _ hpost rfl
  typed := hnew.2
  counted := by
    rw [htimes, times_fresh h hfresh, hnew.1]
    rfl
  budget := by
    rw [hnew.1]
    exact Nat.zero_le _
  backoff := by
    intro t ts heq
    rw [htimes, times_fresh h hfresh] at heq
    cases heq

/-- A decline that is queued: its id is new, so it has no history yet. -/
theorem ok_queued (h : w.Ok) {op : CallStoreOp} {e : OutboxEntry} (hentry : op.entry? = some e)
    (htyped : op.Typed) (hfresh : ∀ q ∈ w.queued, q.1 ≠ e.id) : (w.step H op).Ok := by
  cases op with
  | queueDecline mailbox key plaintext expiresAt now random =>
    have hout : (w.step H (.queueDecline mailbox key plaintext expiresAt now random)).store.outbox =
        makeFit maxOutbox w.store.outbox ++ [e] := by
      refine (callStoreStep_outbox H w.store _).trans ?_
      unfold outboxStep
      rw [hentry]
    have hqueued : (w.step H (.queueDecline mailbox key plaintext expiresAt now random)).queued =
        (e.id, e.post) :: w.queued := by
      unfold Posted.step
      rw [hentry]
      rfl
    have hsame : ∀ id, (w.step H (.queueDecline mailbox key plaintext expiresAt now random)).times id = w.times id :=
      Posted.times_same H w rfl
    exact {
      distinct := by
        rw [hout, List.map_append, List.nodup_append]
        refine ⟨h.distinct.sublist ((List.drop_sublist _ _).map _), List.nodup_singleton _, ?_⟩
        intro id hid id' hid' heq
        obtain ⟨old, hold, rfl⟩ := List.mem_map.mp hid
        rw [List.map_singleton, List.mem_singleton] at hid'
        exact hfresh _ (h.carried old (makeFit_subset _ _ hold)).queued (heq.trans hid')
      capacity := by
        rw [hout]
        exact makeFit_length (by decide) _ _
      carried := by
        intro old hold
        rw [hout] at hold
        rcases List.mem_append.mp hold with hold | hold
        · have hcarried := h.carried old (makeFit_subset _ _ hold)
          refine hcarried.keep ?_ hcarried.waiting (hsame old.id)
          rw [hqueued]
          exact fun q hq => List.mem_cons_of_mem _ hq
        · rw [List.mem_singleton.mp hold]
          refine carried_queued h (entry_queueDecline hentry htyped) hfresh ?_ rfl (hsame e.id)
          rw [hqueued]
          exact List.mem_cons_self
      inTime := by
        intro r hr
        obtain ⟨hmem, htime⟩ := h.inTime r hr
        rw [hqueued]
        exact ⟨List.mem_cons_of_mem _ hmem, htime⟩
      attempts := fun id => (congrArg List.length (hsame id)).trans_le (h.attempts id)
      spaced := fun id => (hsame id) ▸ h.spaced id
      known := by
        intro id hid
        obtain ⟨post, hpost⟩ := h.known id hid
        rw [hqueued]
        exact ⟨post, List.mem_cons_of_mem _ hpost⟩ }
  | _ => cases hentry

/-- An id that no entry has is not returned. -/
theorem times_takeDue_notMem (H : Sha256) {now : ℕ} {id : String}
    (hid : ∀ e ∈ w.store.outbox, e.id ≠ id) :
    (w.step H (.takeDue now)).times id = w.times id := by
  have hnone : (w.store.returns (.takeDue now)).filter (·.id = id) = [] := by
    rw [returns_takeDue]
    refine List.filter_eq_nil_iff.mpr fun r hr => ?_
    obtain ⟨e, he, rfl⟩ := List.mem_map.mp hr
    simp only [decide_eq_true_eq]
    exact hid e (List.mem_of_mem_filter he)
  rw [Posted.times_step, hnone]
  rfl

/-- The entry's id is returned if it is due. -/
theorem times_takeDue (h : w.Ok) {e : OutboxEntry} (he : e ∈ w.store.outbox) (now : ℕ) :
    (w.step H (.takeDue now)).times e.id =
      if e.due now then now :: w.times e.id else w.times e.id := by
  rw [Posted.times_step, returns_of_mem h.distinct he]
  split <;> rfl

/-- An entry that is due comes after the backoff, in time. -/
theorem spaced_due {e : OutboxEntry} {now : ℕ} (hcarried : Carried w e) (hdue : e.due now = true)
    (hspaced : Spaced (w.times e.id)) : Spaced (now :: w.times e.id) := by
  simp only [OutboxEntry.due, OutboxEntry.alive, Bool.and_eq_true, decide_eq_true_eq] at hdue
  cases htimes : w.times e.id with
  | nil => trivial
  | cons t ts =>
    have hback := hcarried.backoff t ts htimes
    have hlimit := hcarried.typed
    rw [htimes] at hspaced
    refine ⟨?_, hspaced⟩
    -- a sum that saturates would be past the expiry
    unfold saturatingAdd at hback
    omega

/-- A charged entry has one attempt more, and waits for its backoff. -/
theorem carried_charge (h : w.Ok) {e : OutboxEntry} (he : e ∈ w.store.outbox) {now : ℕ}
    (hdue : e.due now = true) :
    Carried (w.step H (.takeDue now)) (e.charge now) := by
  have hold := h.carried e he
  have htimes : (w.step H (.takeDue now)).times e.id = now :: w.times e.id := by
    rw [times_takeDue h he, if_pos hdue]
  have hleft : e.attempts < maxOutboxAttempts := by
    simp only [OutboxEntry.due, OutboxEntry.alive, Bool.and_eq_true, decide_eq_true_eq] at hdue
    exact hdue.1.1
  have hattempts : (e.charge now).attempts = e.attempts + 1 := by
    have hmax : maxOutboxAttempts = 6 := rfl
    unfold OutboxEntry.charge u32Max
    dsimp only
    omega
  exact {
    queued := hold.queued
    waiting := hold.waiting
    typed := hold.typed
    counted := by
      rw [show (e.charge now).id = e.id from rfl, htimes, hattempts, List.length_cons, hold.counted]
    budget := by
      rw [hattempts]
      exact hleft
    backoff := by
      intro t ts heq
      rw [show (e.charge now).id = e.id from rfl, htimes] at heq
      obtain ⟨rfl, rfl⟩ := List.cons.inj heq
      rw [hold.counted]
      exact le_refl _ }

/-- The entries that are due are returned and charged. -/
theorem ok_taken (h : w.Ok) (now : ℕ) : (w.step H (.takeDue now)).Ok := by
  have hout : (w.step H (.takeDue now)).store.outbox =
      (w.store.outbox.filter (·.alive now)).map
      fun e => if e.nextAttemptAt > now then e else e.charge now := rfl
  have hids : (w.step H (.takeDue now)).store.outbox.map OutboxEntry.id =
      (w.store.outbox.filter (·.alive now)).map OutboxEntry.id := by
    rw [hout, List.map_map]
    refine List.map_congr_left fun e _ => ?_
    dsimp only [Function.comp]
    split <;> rfl
  exact {
    distinct := by
      rw [hids]
      exact h.distinct.sublist (List.filter_sublist.map _)
    capacity := by
      rw [hout, List.length_map]
      exact (List.length_filter_le _ _).trans h.capacity
    carried := by
      intro e' he'
      rw [hout] at he'
      obtain ⟨e, he, rfl⟩ := List.mem_map.mp he'
      obtain ⟨hmem, halive⟩ := List.mem_filter.mp he
      by_cases hlater : e.nextAttemptAt > now
      · have hnot : e.due now = false := by
          simp only [OutboxEntry.due, Bool.and_eq_false_iff, decide_eq_false_iff_not]
          exact Or.inr (Nat.not_le.mpr hlater)
        have hsame : (w.step H (.takeDue now)).times e.id = w.times e.id := by
          rw [times_takeDue h hmem, hnot, if_neg Bool.false_ne_true]
        have hold := h.carried e hmem
        rw [if_pos hlater]
        exact hold.keep (fun q hq => hq) hold.waiting hsame
      · rw [if_neg hlater]
        have hdue : e.due now = true := by
          simp only [OutboxEntry.due, Bool.and_eq_true, decide_eq_true_eq]
          exact ⟨halive, Nat.not_lt.mp hlater⟩
        exact carried_charge h hmem hdue
    inTime := by
      intro r hr
      rcases List.mem_append.mp hr with hnew | hold
      · rw [returns_takeDue] at hnew
        obtain ⟨e, he, rfl⟩ := List.mem_map.mp hnew
        obtain ⟨hmem, hdue⟩ := List.mem_filter.mp he
        simp only [OutboxEntry.due, OutboxEntry.alive, Bool.and_eq_true, decide_eq_true_eq] at hdue
        exact ⟨(h.carried e hmem).queued, hdue.1.2⟩
      · exact h.inTime r hold
    attempts := by
      intro id
      by_cases hheld : ∃ e ∈ w.store.outbox, e.id = id
      · obtain ⟨e, he, rfl⟩ := hheld
        rw [times_takeDue h he]
        cases hdue : e.due now with
        | false => exact h.attempts e.id
        | true =>
          have hcharged := carried_charge (H := H) h he hdue
          have hcount := hcharged.counted
          rw [show (e.charge now).id = e.id from rfl, times_takeDue h he, hdue] at hcount
          rw [hcount]
          exact hcharged.budget
      · rw [times_takeDue_notMem H fun e he heq => hheld ⟨e, he, heq⟩]
        exact h.attempts id
    spaced := by
      intro id
      by_cases hheld : ∃ e ∈ w.store.outbox, e.id = id
      · obtain ⟨e, he, rfl⟩ := hheld
        rw [times_takeDue h he]
        cases hdue : e.due now with
        | false => exact h.spaced e.id
        | true => exact spaced_due (h.carried e he) hdue (h.spaced e.id)
      · rw [times_takeDue_notMem H fun e he heq => hheld ⟨e, he, heq⟩]
        exact h.spaced id
    known := h.known }

/-- What is filtered out by the calls that look at the clock. -/
theorem ok_reaped (h : w.Ok) {op : CallStoreOp} (hno : op.entry? = none)
    (hnone : w.store.returns op = []) (hsub : (outboxStep w.store.outbox op).Sublist w.store.outbox)
    (hconfirmed : (w.step H op).confirmed = w.confirmed) :
    (w.step H op).Ok := by
  refine ok_filtered h op hno hnone hsub (fun e he => ?_) ?_
  · rw [hconfirmed]
    exact (h.carried e (hsub.subset he)).waiting
  · rw [hconfirmed]
    exact h.known

/-- A report takes its ids out of the outbox. -/
theorem ok_delivered (h : w.Ok) (ids : List String) : (w.step H (.delivered ids)).Ok := by
  have hsub : (outboxStep w.store.outbox (.delivered ids)).Sublist w.store.outbox :=
    List.filter_sublist
  refine ok_filtered h _ rfl rfl hsub (fun e he hconfirmed => ?_) fun id hid => ?_
  · obtain ⟨hmem, hother⟩ := List.mem_filter.mp he
    rcases List.mem_append.mp hconfirmed with hnow | hbefore
    · have hreported := List.mem_of_mem_filter hnow
      simp [hreported] at hother
    · exact (h.carried e hmem).waiting hbefore
  · rcases List.mem_append.mp hid with hnow | hbefore
    · obtain ⟨q, hq, heq⟩ := List.any_eq_true.mp (List.mem_filter.mp hnow).2
      exact ⟨q.2, by rwa [← eq_of_beq heq]⟩
    · exact h.known id hbefore

/-- **One call keeps the history.** -/
theorem ok_step (h : w.Ok) {op : CallStoreOp} (htyped : op.Typed)
    (hfresh : ∀ e, op.entry? = some e → ∀ q ∈ w.queued, q.1 ≠ e.id) : (w.step H op).Ok := by
  have hsame : (outboxStep w.store.outbox op) = w.store.outbox →
      (outboxStep w.store.outbox op).Sublist w.store.outbox := fun heq => by
    rw [heq]
  cases op with
  | queueDecline mailbox key plaintext expiresAt now random =>
    cases hentry : CallStoreOp.entry? (.queueDecline mailbox key plaintext expiresAt now random) with
    | some e => exact ok_queued h hentry htyped (hfresh e hentry)
    | none =>
      refine ok_reaped h hentry rfl (hsame ?_) rfl
      unfold outboxStep
      rw [hentry]
  | takeDue now => exact ok_taken h now
  | delivered ids => exact ok_delivered h ids
  | reconcile now retention => exact ok_reaped h rfl rfl List.filter_sublist rfl
  | cleanup now retention => exact ok_reaped h rfl rfl List.filter_sublist rfl
  | recordOffer capsule now retention => exact ok_reaped h rfl rfl (hsame rfl) rfl
  | recordTerminal call offer reason now retention => exact ok_reaped h rfl rfl (hsame rfl) rfl
  | markPresented call presentedAs => exact ok_reaped h rfl rfl (hsame rfl) rfl
  | takeRing call => exact ok_reaped h rfl rfl (hsame rfl) rfl

end step

/-! ### Runs -/

/-- Why an entry leaves the outbox. -/
def LeavesOutbox (s : CallStore) (e : OutboxEntry) (op : CallStoreOp) : Prop :=
  match op with
  | .delivered ids => e.id ∈ ids
  | .takeDue now | .reconcile now _ | .cleanup now _ =>
    e.post.expiresAt ≤ now ∨ maxOutboxAttempts ≤ e.attempts
  | .queueDecline .. => op.entry?.isSome = true ∧ s.outbox.length = maxOutbox ∧ s.outbox.head? = some e
  | _ => False

/-- The budget of the outbox, in one state of a run. -/
structure OutboxBudget (H : Sha256) (w : Posted) : Prop where
  attempts : ∀ id, (w.times id).length ≤ maxOutboxAttempts
  inTime : ∀ r ∈ w.taken, (r.id, r.post) ∈ w.queued ∧ r.now < r.post.expiresAt
  spaced : ∀ id, Spaced (w.times id)
  distinct : (w.store.outbox.map OutboxEntry.id).Nodup
  capacity : w.store.outbox.length ≤ maxOutbox
  /-- What was reported is not returned by the next call, whatever it is. -/
  reported : ∀ op, ∀ r ∈ w.store.returns op, r.id ∉ w.confirmed
  leaves : ∀ op, ∀ e ∈ w.store.outbox, e.id ∉ (w.step H op).store.outbox.map OutboxEntry.id →
    LeavesOutbox w.store e op

/-- An entry that the clock takes out is out of time or of attempts. -/
theorem leaves_reaped {outbox : List OutboxEntry} {e : OutboxEntry} {now : ℕ} (he : e ∈ outbox)
    (hgone : e.id ∉ (outbox.filter (·.alive now)).map OutboxEntry.id) :
    e.post.expiresAt ≤ now ∨ maxOutboxAttempts ≤ e.attempts := by
  have hdead : ¬ e.alive now = true := fun halive =>
    hgone (List.mem_map_of_mem (List.mem_filter.mpr ⟨he, halive⟩))
  simp only [OutboxEntry.alive, Bool.and_eq_true, decide_eq_true_eq] at hdead
  omega

/-- An entry that makes room is the oldest of a full outbox. -/
theorem leaves_evicted {outbox : List OutboxEntry} {e new : OutboxEntry}
    (hcapacity : outbox.length ≤ maxOutbox) (he : e ∈ outbox)
    (hgone : e.id ∉ (makeFit maxOutbox outbox ++ [new]).map OutboxEntry.id) :
    outbox.length = maxOutbox ∧ outbox.head? = some e := by
  have hdropped : e ∉ makeFit maxOutbox outbox := fun hkept =>
    hgone (List.mem_map_of_mem (List.mem_append_left _ hkept))
  unfold makeFit at hdropped
  by_cases hfull : outbox.length = maxOutbox
  · refine ⟨hfull, ?_⟩
    have hone : outbox.length + 1 - maxOutbox = 1 := by omega
    rw [hone] at hdropped
    cases outbox with
    | nil => cases he
    | cons first rest =>
      rcases List.mem_cons.mp he with rfl | hrest
      · rfl
      · exact absurd hrest hdropped
  · have hnone : outbox.length + 1 - maxOutbox = 0 := by omega
    rw [hnone] at hdropped
    exact absurd he hdropped

/-- The history gives the budget. -/
theorem Posted.Ok.budget {H : Sha256} {w : Posted} (h : w.Ok) : OutboxBudget H w where
  attempts := h.attempts
  inTime := h.inTime
  spaced := h.spaced
  distinct := h.distinct
  capacity := h.capacity
  reported := by
    intro op r hr
    cases op with
    | takeDue now =>
      rw [returns_takeDue] at hr
      obtain ⟨e, he, rfl⟩ := List.mem_map.mp hr
      exact (h.carried e (List.mem_of_mem_filter he)).waiting
    | _ => cases hr
  leaves := by
    intro op e he hgone
    have hout : (w.step H op).store.outbox = outboxStep w.store.outbox op :=
      callStoreStep_outbox H w.store op
    rw [hout] at hgone
    cases op with
    | queueDecline mailbox key plaintext expiresAt now random =>
      unfold outboxStep at hgone
      unfold LeavesOutbox
      dsimp only at hgone ⊢
      cases hentry : CallStoreOp.entry? (.queueDecline mailbox key plaintext expiresAt now random) with
      | some new =>
        rw [hentry] at hgone
        exact ⟨rfl, leaves_evicted h.capacity he hgone⟩
      | none =>
        rw [hentry] at hgone
        exact absurd (List.mem_map_of_mem he) hgone
    | takeDue now =>
      refine leaves_reaped he fun hkept => hgone ?_
      obtain ⟨e', he', hid⟩ := List.mem_map.mp hkept
      refine List.mem_map.mpr ⟨_, List.mem_map_of_mem he', ?_⟩
      split <;> exact hid
    | delivered ids =>
      by_contra hnot
      refine hgone (List.mem_map_of_mem (List.mem_filter.mpr ⟨he, ?_⟩))
      change e.id ∉ ids at hnot
      simpa using hnot
    | reconcile now retention => exact leaves_reaped he hgone
    | cleanup now retention => exact leaves_reaped he hgone
    | recordOffer capsule now retention => exact absurd (List.mem_map_of_mem he) hgone
    | recordTerminal call offer reason now retention => exact absurd (List.mem_map_of_mem he) hgone
    | markPresented call presentedAs => exact absurd (List.mem_map_of_mem he) hgone
    | takeRing call => exact absurd (List.mem_map_of_mem he) hgone

/-- The entry of a decline has the id that was drawn. -/
theorem drawn_of_entry {op : CallStoreOp} {e : OutboxEntry} (h : op.entry? = some e) :
    op.drawn? = some e.id := by
  cases op with
  | queueDecline mailbox key plaintext expiresAt now random =>
    unfold CallStoreOp.entry? at h
    dsimp only at h
    split at h
    · cases h
    · rw [← Option.some.inj h]
      rfl
  | _ => cases h

/-- What is queued was drawn. -/
theorem queued_drawn (H : Sha256) (start : CallStore) (ops : List CallStoreOp) :
    ∀ q ∈ (Trace.run (Posted.step H) { store := start } ops).queued,
      q.1 ∈ ops.filterMap CallStoreOp.drawn? := by
  induction ops using List.reverseRecOn with
  | nil =>
    intro q hq
    cases hq
  | append_singleton ops op ih =>
    intro q hq
    rw [Trace.run_snoc] at hq
    rw [List.filterMap_append, List.mem_append]
    rcases List.mem_append.mp hq with hnew | hold
    · obtain ⟨e, hentry, rfl⟩ := Option.map_eq_some_iff.mp (Option.mem_toList.mp hnew)
      refine Or.inr (List.mem_filterMap.mpr ⟨op, List.mem_singleton_self op, drawn_of_entry hentry⟩)
    · exact Or.inl (ih q hold)

/-- **The budget of the outbox.** In every state of every run of the store's calls, whose drawn ids
are distinct: an entry is returned six times at most, in time and a backoff apart, and never once it
is reported; it leaves by a report, its expiry, its last attempt, or as the
oldest of a full outbox. -/
theorem outbox_budget (H : Sha256) (accountHash username deviceId : String) (ops : List CallStoreOp)
    (hdrawn : (ops.filterMap CallStoreOp.drawn?).Nodup) (htyped : ∀ op ∈ ops, op.Typed) :
    ∀ pre, pre <+: ops →
    OutboxBudget H (Trace.run (Posted.step H) { store := CallStore.new accountHash username deviceId } pre) := by
  have hok : ∀ pre, pre <+: ops →
      (Trace.run (Posted.step H) { store := CallStore.new accountHash username deviceId } pre).Ok := by
    intro pre hpre
    induction pre using List.reverseRecOn with
    | nil => exact {
        distinct := List.nodup_nil
        capacity := Nat.zero_le _
        carried := fun e he => by cases he
        inTime := fun r hr => by cases hr
        attempts := fun _ => Nat.zero_le _
        spaced := fun _ => trivial
        known := fun id hid => by cases hid }
    | append_singleton pre op ih =>
      have hbefore := ih ((List.prefix_append pre [op]).trans hpre)
      rw [Trace.run_snoc]
      refine ok_step hbefore (htyped op (hpre.subset (by simp))) fun e hentry q hq heq => ?_
      have hids : (pre.filterMap CallStoreOp.drawn? ++ [e.id]).Nodup := by
        have hsub := hdrawn.sublist (hpre.sublist.filterMap CallStoreOp.drawn?)
        rwa [List.filterMap_append, List.filterMap_cons_some (drawn_of_entry hentry),
          List.filterMap_nil] at hsub
      have hin := queued_drawn H _ pre q hq
      rw [heq] at hin
      exact (List.nodup_append.mp hids).2.2 _ hin _ (List.mem_singleton_self _) rfl
  exact fun pre hpre => (hok pre hpre).budget

def declineRandom : RandomId := ⟨List.replicate 16 9, by decide⟩

/-- A decline that is posted twice before a post is reported, and not returned after that. -/
theorem outbox_budget_twice :
    let ops : List CallStoreOp := [.queueDecline bobHash "k" [123, 125] 1060 1000 declineRandom, .takeDue 1000,
      .takeDue 1000, .takeDue 1001, .delivered [declineRandom.callId], .takeDue 1010]
    let w := Trace.run (Posted.step sampleSha) { store := CallStore.new bobHash "bob" "0" } ops
    OutboxBudget sampleSha w ∧ w.times declineRandom.callId = [1001, 1000] ∧
    w.store.outbox = [] := by
  intro ops w
  have hdrawn : (ops.filterMap CallStoreOp.drawn?).Nodup := by decide +kernel
  have htyped : ∀ op ∈ ops, op.Typed := by simp [ops, CallStoreOp.Typed, u64Max]
  exact ⟨outbox_budget sampleSha bobHash "bob" "0" ops hdrawn htyped ops (List.prefix_refl _),
    by decide +kernel, by decide +kernel⟩

end Sona
