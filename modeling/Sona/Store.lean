/-
# The blind message store

`server/src/store.rs`: mailboxes of queued envelopes, keyed by the recipient's
hash. `enqueue` clamps the expiry, refuses what can never fit, takes a second
envelope of one id for a retry, and otherwise makes room by evicting the
oldest arrivals while the newcomer does not fit (`evictLoop`, which is
`Shed.shed` with a running byte count).

`enqueue_cases` says once what a call can do; the invariant `StoreOk` (distinct
ids, the two bounds, arrival order, the expiry ceiling, the number of
mailboxes) and the exactness of an eviction follow from it
(`store_invariant`). The check for a second envelope of one id comes before the
expired ones are swept, so an expired one is taken for the message too
(`accepted_delivered_iff`).
-/
import Mathlib.Algebra.Order.BigOperators.Group.List
import Mathlib.Algebra.Order.Group.Nat
import Mathlib.Data.List.Induction
import Sona.Lib.Table
import Sona.Lib.Shed
import Sona.Lib.Trace
import Sona.Wire

namespace Sona

/-! ### The store -/

/-- Undelivered messages held per mailbox. -/
def maxMailboxDepth : ℕ := 2000

/-- Bytes held per mailbox. -/
def maxMailboxBytes : ℕ := 4 * 1024 * 1024

/-- The longest a message may live, in seconds. -/
def maxMessageTtlSecs : ℕ := 30 * 24 * 3600

/-- Mailboxes held. -/
def maxMailboxes : ℕ := 500000

/-- The expiry the relay gives a message: the one asked for, never past the
ceiling, and the ceiling when none was asked for. -/
def clampExpiry (now : ℕ) (requested : Option ℕ) : ℕ :=
  let ceiling := saturatingAdd now maxMessageTtlSecs
  match requested with
  | some exp => min exp ceiling
  | none => ceiling

inductive RelayError
  | zkViolation
  | mailboxFull
  | storeFull
deriving DecidableEq, Repr

def RelayError.message : RelayError → String
  | .zkViolation => "rejected: envelope carries a raw identifier (zero-knowledge violation)"
  | .mailboxFull => "rejected: message is too large for a mailbox"
  | .storeFull => "rejected: relay is at capacity"

/-- What one envelope costs against a mailbox's bytes. -/
def envelopeBytes (env : Envelope) : ℕ := env.ciphertext.utf8ByteSize + env.msgId.utf8ByteSize + 256

/-- The outcome of an `enqueue` that did not fail. -/
structure Stored where
  stored : Bool := false
  evicted : List String := []
deriving DecidableEq, Repr

structure MessageStore where
  mailboxes : Table String (List Envelope) := ∅

/-- The envelope is past its expiry. -/
def Envelope.expired (now : ℕ) (env : Envelope) : Bool :=
  match env.expiresAt with
  | some exp => exp ≤ now
  | none => false

/-- The entries a `retain` of the unexpired ones keeps. -/
def unexpired (now : ℕ) (mailbox : List Envelope) : List Envelope :=
  mailbox.filter fun m => !m.expired now

/-- The eviction loop: while the newcomer's `cost` does not fit, the oldest
entry goes and its bytes come off the running count. -/
def evictLoop (cost : ℕ) : List Envelope → ℕ → List String → List Envelope × List String
  | [], _, evicted => ([], evicted)
  | old :: mailbox, held, evicted =>
    if held + cost > maxMailboxBytes ∨ (old :: mailbox).length ≥ maxMailboxDepth then
      evictLoop cost mailbox (held - envelopeBytes old) (evicted ++ [old.msgId])
    else (old :: mailbox, evicted)

def MessageStore.enqueue (st : MessageStore) (env : Envelope) (now : ℕ) :
    Except RelayError Stored × MessageStore :=
  if !env.isZkClean then (.error .zkViolation, st) else
  let env := { env with expiresAt := some (clampExpiry now env.expiresAt) }
  if env.expired now then (.ok {}, st) else
  let cost := envelopeBytes env
  if cost > maxMailboxBytes then (.error .mailboxFull, st) else
  let key := env.recipient.asStr
  if (st.mailboxes.get key).isNone && decide (st.mailboxes.size ≥ maxMailboxes) then
    (.error .storeFull, st) else
  let mailboxes := st.mailboxes.orInsert key []
  let mailbox := (mailboxes.get key).getD []
  -- a retry of a message already held: success, and nothing to store
  if mailbox.any fun m => m.msgId == env.msgId then (.ok {}, ⟨mailboxes⟩) else
  let mailbox := unexpired now mailbox
  let held := (mailbox.map envelopeBytes).sum
  let (mailbox, evicted) := evictLoop cost mailbox held []
  (.ok { stored := true, evicted }, ⟨mailboxes.set key (mailbox ++ [env])⟩)

def MessageStore.prune (st : MessageStore) (now : ℕ) : MessageStore :=
  ⟨st.mailboxes.filterMap fun _ mailbox =>
    let mailbox := unexpired now mailbox
    if mailbox.isEmpty then none else some mailbox⟩

def MessageStore.fetch (st : MessageStore) (recipient : IdentityHash) (now : ℕ) :
    List Envelope × MessageStore :=
  match st.mailboxes.get recipient.asStr with
  | none => ([], st)
  | some mailbox =>
    (unexpired now mailbox, ⟨st.mailboxes.set recipient.asStr (unexpired now mailbox)⟩)

def MessageStore.ack (st : MessageStore) (recipient : IdentityHash) (msgId : String) :
    MessageStore :=
  match st.mailboxes.get recipient.asStr with
  | none => st
  | some mailbox => ⟨st.mailboxes.set recipient.asStr (mailbox.filter fun m => m.msgId ≠ msgId)⟩

def MessageStore.depth (st : MessageStore) (recipient : IdentityHash) : ℕ :=
  match st.mailboxes.get recipient.asStr with
  | none => 0
  | some mailbox => mailbox.length

def MessageStore.purge (st : MessageStore) (recipient : String) : MessageStore :=
  ⟨st.mailboxes.remove recipient⟩

/-- The entries of a mailbox, none where there is no mailbox. -/
def MessageStore.entries (st : MessageStore) (key : String) : List Envelope :=
  (st.mailboxes.get key).getD []

theorem MessageStore.entries_set (st : MessageStore) (key k : String) (mailbox : List Envelope) :
    (MessageStore.mk (st.mailboxes.set k mailbox)).entries key =
      if key = k then mailbox else st.entries key := by
  unfold MessageStore.entries
  rw [Table.get_set]
  split <;> rfl

/-- A mailbox that is rewritten where there is one. -/
theorem MessageStore.entries_rewrite (st : MessageStore) (k key : String)
    {f : List Envelope → List Envelope} (hf : f [] = []) : (match st.mailboxes.get k with
      | none => st
      | some mailbox => ⟨st.mailboxes.set k (f mailbox)⟩ : MessageStore).entries key =
        if key = k then f (st.entries key) else st.entries key := by
  cases hk : st.mailboxes.get k with
  | none =>
    by_cases h : key = k
    · simp [MessageStore.entries, h, hk, hf]
    · simp [h]
  | some mailbox =>
    dsimp only
    rw [MessageStore.entries_set]
    by_cases h : key = k
    · simp [MessageStore.entries, h, hk]
    · simp [h]

theorem MessageStore.entries_fetch (st : MessageStore) (recipient : IdentityHash) (now : ℕ)
    (key : String) :
    (st.fetch recipient now).2.entries key =
      if key = recipient.asStr then unexpired now (st.entries key) else st.entries key := by
  have hrewrite := st.entries_rewrite recipient.asStr key (f := unexpired now) rfl
  rw [← hrewrite]
  unfold MessageStore.fetch
  cases st.mailboxes.get recipient.asStr <;> rfl

/-- A `fetch` returns the unexpired entries of its mailbox. -/
theorem MessageStore.fetch_fst (st : MessageStore) (recipient : IdentityHash) (now : ℕ) :
    (st.fetch recipient now).1 = unexpired now (st.entries recipient.asStr) := by
  unfold MessageStore.fetch MessageStore.entries
  cases st.mailboxes.get recipient.asStr <;> rfl

theorem MessageStore.entries_ack (st : MessageStore) (recipient : IdentityHash)
    (msgId key : String) :
    (st.ack recipient msgId).entries key =
      if key = recipient.asStr then (st.entries key).filter fun m => m.msgId ≠ msgId else st.entries key :=
  st.entries_rewrite recipient.asStr key rfl

theorem MessageStore.entries_prune (st : MessageStore) (now : ℕ) (key : String) :
    (st.prune now).entries key = unexpired now (st.entries key) := by
  unfold MessageStore.prune MessageStore.entries
  rw [Table.get_filterMap]
  cases st.mailboxes.get key with
  | none => rfl
  | some mailbox =>
    simp only [Option.bind_some, Option.getD_some, List.isEmpty_iff]
    split
    · rename_i h; rw [h]; rfl
    · rfl

theorem MessageStore.entries_purge (st : MessageStore) (recipient key : String) :
    (st.purge recipient).entries key = if key = recipient then [] else st.entries key := by
  unfold MessageStore.purge MessageStore.entries
  rw [Table.get_remove]
  split <;> rfl

/-! ### What a call can do -/

/-- The envelope as the store keeps it. -/
def Envelope.clamped (now : ℕ) (env : Envelope) : Envelope :=
  { env with expiresAt := some (clampExpiry now env.expiresAt) }

/-- The newcomer fits behind the entries `l`. -/
def Fits (cost : ℕ) (l : List Envelope) : Prop :=
  (l.map envelopeBytes).sum + cost ≤ maxMailboxBytes ∧ l.length < maxMailboxDepth

instance (cost : ℕ) (l : List Envelope) : Decidable (Fits cost l) :=
  inferInstanceAs (Decidable (_ ∧ _))

/-- The loop is a shedding of the front: its running count is the number of
bytes left, so the subtraction never underflows and the test is `Fits`. -/
theorem evictLoop_eq_shed (cost : ℕ) : ∀ (l : List Envelope) (evicted : List String),
    evictLoop cost l (l.map envelopeBytes).sum evicted =
      ((Shed.shed (fun l => decide (¬ Fits cost l)) l).2,
        evicted ++ (Shed.shed (fun l => decide (¬ Fits cost l)) l).1.map (·.msgId))
  | [], evicted => by simp [evictLoop, Shed.shed]
  | old :: l, evicted => by
    have hover : ((((old :: l).map envelopeBytes).sum + cost > maxMailboxBytes ∨
        (old :: l).length ≥ maxMailboxDepth) ↔ ¬ Fits cost (old :: l)) := by
      unfold Fits; omega
    unfold evictLoop Shed.shed
    by_cases h : Fits cost (old :: l)
    · rw [if_neg (by rw [hover]; simpa using h), if_neg (by simpa using h)]
      simp
    · rw [if_pos (hover.mpr h), if_pos (by simpa using h)]
      have hsub : ((old :: l).map envelopeBytes).sum - envelopeBytes old =
          (l.map envelopeBytes).sum := by
        simp
      rw [hsub, evictLoop_eq_shed cost l]
      simp

theorem fits_nil {cost : ℕ} (h : cost ≤ maxMailboxBytes) : Fits cost [] := by
  simp [Fits, h, maxMailboxDepth]

/-- The mailbox holds a message of this id already. -/
def MessageStore.Holds (st : MessageStore) (key msgId : String) : Prop :=
  ∃ m ∈ st.entries key, m.msgId = msgId

/-- Why an `enqueue` stores nothing. -/
inductive MessageStore.Refused (st : MessageStore) (env : Envelope) (now : ℕ) : Prop
  | unclean (h : env.isZkClean = false)
  | late (h : (env.clamped now).expired now = true)
  | large (h : envelopeBytes (env.clamped now) > maxMailboxBytes)
  | full (hnew : st.mailboxes.get env.recipient.asStr = none) (h : st.mailboxes.size ≥ maxMailboxes)
  | held (h : st.Holds env.recipient.asStr env.msgId)

/-- A message that `enqueue` does not turn away: it is clean, in time and
small, and its mailbox is there or can be. -/
structure MessageStore.Accepts (st : MessageStore) (env : Envelope) (now : ℕ) : Prop where
  clean : env.isZkClean = true
  inTime : (env.clamped now).expired now = false
  small : envelopeBytes (env.clamped now) ≤ maxMailboxBytes
  room : st.mailboxes.get env.recipient.asStr = none → st.mailboxes.size < maxMailboxes

theorem MessageStore.accepts_of_enqueue {st : MessageStore} {env : Envelope} {now : ℕ} {s : Stored}
    (h : (st.enqueue env now).1 = .ok s) (hexp : (env.clamped now).expired now = false) :
    st.Accepts env now := by
  have hlate := hexp
  unfold MessageStore.enqueue at h
  rw [Envelope.clamped] at hlate
  have hzk : env.isZkClean = true := by
    by_contra hno
    rw [Bool.not_eq_true] at hno
    simp [hno] at h
  have hsmall : envelopeBytes (env.clamped now) ≤ maxMailboxBytes := by
    by_contra hno
    rw [Envelope.clamped] at hno
    simp [hzk, hlate, Nat.lt_of_not_le hno] at h
  refine ⟨hzk, hexp, hsmall, fun hnew => ?_⟩
  by_contra hno
  rw [Envelope.clamped] at hsmall
  simp [hzk, hlate, Nat.not_lt_of_le hsmall, hnew, Nat.le_of_not_lt hno] at h

/-- What an `enqueue` can do: nothing, or store the clamped newcomer behind what
is left of the unexpired entries after the shortest prefix that makes room. -/
theorem MessageStore.enqueue_cases (st : MessageStore) (env : Envelope) (now : ℕ) :
    ((st.enqueue env now).2 = st ∧ st.Refused env now ∧
      ∀ s, (st.enqueue env now).1 = .ok s → s = { stored := false, evicted := [] } ∧
        ((env.clamped now).expired now = true ∨ st.Holds env.recipient.asStr env.msgId)) ∨
    (∃ gone kept, gone ++ kept = unexpired now (st.entries env.recipient.asStr) ∧
      st.enqueue env now = (.ok { stored := true, evicted := gone.map (·.msgId) },
        ⟨st.mailboxes.set env.recipient.asStr (kept ++ [env.clamped now])⟩) ∧
      Fits (envelopeBytes (env.clamped now)) kept ∧
      (∀ n < gone.length, ¬ Fits (envelopeBytes (env.clamped now))
        ((unexpired now (st.entries env.recipient.asStr)).drop n)) ∧
      env.isZkClean = true ∧
      (env.clamped now).expired now = false ∧
      (∀ m ∈ st.entries env.recipient.asStr, m.msgId ≠ env.msgId) ∧
      (st.mailboxes.get env.recipient.asStr = none → st.mailboxes.size < maxMailboxes)) := by
  unfold MessageStore.enqueue
  by_cases hzk : env.isZkClean = true
  case neg => exact Or.inl ⟨by simp [hzk], .unclean (by simpa using hzk), by simp [hzk]⟩
  by_cases hexp : (env.clamped now).expired now = true
  case pos =>
    have hlate := hexp
    rw [Envelope.clamped] at hexp
    exact Or.inl ⟨by simp [hzk, hexp], .late hlate, fun s hs => ⟨by simpa [hzk, hexp, eq_comm] using hs, Or.inl hlate⟩⟩
  by_cases hcost : envelopeBytes (env.clamped now) > maxMailboxBytes
  case pos =>
    have hlarge := hcost
    rw [Envelope.clamped] at hexp hcost
    exact Or.inl ⟨by simp [hzk, hexp, hcost], .large hlarge, by simp [hzk, hexp, hcost]⟩
  by_cases hfull : st.mailboxes.get env.recipient.asStr = none ∧ st.mailboxes.size ≥ maxMailboxes
  case pos =>
    rw [Envelope.clamped] at hexp hcost
    exact Or.inl ⟨by simp [hzk, hexp, hcost, hfull.1, hfull.2], .full hfull.1 hfull.2,
      by simp [hzk, hexp, hcost, hfull.1, hfull.2]⟩
  have hget : ((st.mailboxes.orInsert env.recipient.asStr []).get env.recipient.asStr).getD [] =
      st.entries env.recipient.asStr := by
    simp [Table.get_orInsert, MessageStore.entries]
  by_cases hdup : (st.entries env.recipient.asStr).any (fun m => m.msgId == env.msgId) = true
  case pos =>
    -- a mailbox that holds the id is there already, so `entry` adds none
    obtain ⟨mailbox, hm⟩ : ∃ mailbox, st.mailboxes.get env.recipient.asStr = some mailbox := by
      cases h : st.mailboxes.get env.recipient.asStr with
      | none => simp [MessageStore.entries, h] at hdup
      | some mailbox => exact ⟨mailbox, rfl⟩
    have hsame : st.mailboxes.orInsert env.recipient.asStr [] = st.mailboxes :=
      Table.orInsert_of_some _ _ hm
    have hentries : (st.mailboxes.get env.recipient.asStr).getD [] =
        st.entries env.recipient.asStr := rfl
    have hheld : st.Holds env.recipient.asStr env.msgId := by
      obtain ⟨m, hmem, hid⟩ := List.any_eq_true.mp hdup
      exact ⟨m, hmem, by simpa using hid⟩
    rw [Envelope.clamped] at hexp hcost
    refine Or.inl ⟨?_, .held hheld, fun s hs => ⟨?_, Or.inr hheld⟩⟩
    · simp only [hsame, hentries, hdup, if_true]
      simp [hzk, hexp, hcost, hfull]
    · simp only [hsame, hentries, hdup, if_true] at hs
      simp only [hzk, hexp, hcost, Bool.not_true, Bool.false_eq_true, if_false] at hs
      split at hs
      · cases hs
      · exact (Except.ok.inj hs).symm
  refine Or.inr ?_
  rw [Envelope.clamped] at hexp hcost
  have hfull' : ((st.mailboxes.get env.recipient.asStr).isNone &&
      decide (st.mailboxes.size ≥ maxMailboxes)) = false := by
    simpa [Option.isNone_iff_eq_none] using fun h => hfull h
  set cost := envelopeBytes (env.clamped now) with hc
  set live := unexpired now (st.entries env.recipient.asStr) with hlive
  refine ⟨(Shed.shed (fun l => decide (¬ Fits cost l)) live).1,
    (Shed.shed (fun l => decide (¬ Fits cost l)) live).2, Shed.shed_append _ _, ?_, ?_, ?_, hzk, ?_, ?_, ?_⟩
  · simp only [hget, hzk, hexp, hcost, hfull', hdup, Bool.not_true, Bool.false_eq_true, if_false]
    rw [← hlive, show envelopeBytes { env with expiresAt := some (clampExpiry now env.expiresAt) } = cost from rfl,
      evictLoop_eq_shed]
    simp [Table.set_orInsert, Envelope.clamped]
  · rcases Shed.shed_not_full (fun l => decide (¬ Fits cost l)) live with h | h
    · rw [h]; exact fits_nil (by simpa [hc, Envelope.clamped] using hcost)
    · simpa using h
  · intro n hn
    simpa using Shed.shed_minimal (fun l => decide (¬ Fits cost l)) live n hn
  · simpa [Envelope.clamped] using hexp
  · intro m hm heq
    exact hdup (List.any_eq_true.mpr ⟨m, hm, by simpa using heq⟩)
  · intro hn
    by_contra hge
    exact hfull ⟨hn, by omega⟩

/-! ### Runs -/

/-- The calls on the store. -/
inductive StoreOp
  | enqueue (env : Envelope) (now : ℕ)
  | fetch (recipient : IdentityHash) (now : ℕ)
  | ack (recipient : IdentityHash) (msgId : String)
  | prune (now : ℕ)
  | purge (recipient : String)

/-- The store after a call. -/
def StoreOp.apply (st : MessageStore) : StoreOp → MessageStore
  | .enqueue env now => (st.enqueue env now).2
  | .fetch recipient now => (st.fetch recipient now).2
  | .ack recipient msgId => st.ack recipient msgId
  | .prune now => st.prune now
  | .purge recipient => st.purge recipient

/-- What a call adds to the record of arrivals: the time and the envelope it stored. -/
def StoreOp.arrived (st : MessageStore) : StoreOp → List (ℕ × Envelope)
  | .enqueue env now =>
    match (st.enqueue env now).1 with
    | .ok { stored := true, .. } => [(now, env.clamped now)]
    | _ => []
  | _ => []

/-- One call, with the record of what arrived when. -/
def storeStep (s : MessageStore × List (ℕ × Envelope)) (op : StoreOp) :
    MessageStore × List (ℕ × Envelope) :=
  (op.apply s.1, s.2 ++ op.arrived s.1)

/-- A mailbox under `key`, given the record of arrivals. -/
structure MailboxOk (log : List (ℕ × Envelope)) (key : String) (mailbox : List Envelope) :
    Prop where
  distinct : (mailbox.map (·.msgId)).Nodup
  depth : mailbox.length ≤ maxMailboxDepth
  bytes : (mailbox.map envelopeBytes).sum ≤ maxMailboxBytes
  /-- The entries are arrivals, in the order they arrived, addressed to `key`
  and due no later than the ceiling of the time they were stored. -/
  arrival : ∃ arrived : List (ℕ × Envelope), arrived.Sublist log ∧ arrived.map (·.2) = mailbox ∧
    ∀ a ∈ arrived, a.2.recipient.asStr = key ∧
      ∃ exp, a.2.expiresAt = some exp ∧ exp ≤ a.1 + maxMessageTtlSecs

structure StoreOk (st : MessageStore) (log : List (ℕ × Envelope)) : Prop where
  mailbox : ∀ key mailbox, st.mailboxes.get key = some mailbox → MailboxOk log key mailbox
  count : st.mailboxes.size ≤ maxMailboxes

/-- Taking entries out of a mailbox keeps it well formed. -/
theorem MailboxOk.sublist {log : List (ℕ × Envelope)} {key : String} {mb mb' : List Envelope}
    (h : MailboxOk log key mb) (hs : mb'.Sublist mb) : MailboxOk log key mb' where
  distinct := h.distinct.sublist (hs.map _)
  depth := hs.length_le.trans h.depth
  bytes := (List.Sublist.sum_le_sum (hs.map envelopeBytes) (by simp)).trans h.bytes
  arrival := by
    obtain ⟨arrived, hlog, rfl, hall⟩ := h.arrival
    obtain ⟨arrived', hsub, rfl⟩ := List.sublist_map_iff.mp hs
    exact ⟨arrived', hsub.trans hlog, rfl, fun a ha => hall a (hsub.subset ha)⟩

theorem MailboxOk.log_append {log more : List (ℕ × Envelope)} {key : String} {mb : List Envelope}
    (h : MailboxOk log key mb) : MailboxOk (log ++ more) key mb where
  distinct := h.distinct
  depth := h.depth
  bytes := h.bytes
  arrival := by
    obtain ⟨arrived, hlog, hmap, hall⟩ := h.arrival
    exact ⟨arrived, hlog.trans (List.sublist_append_left _ _), hmap, hall⟩

theorem clampExpiry_le (now : ℕ) (requested : Option ℕ) :
    clampExpiry now requested ≤ now + maxMessageTtlSecs := by
  unfold clampExpiry
  have := saturatingAdd_le now maxMessageTtlSecs
  cases requested <;> simp <;> omega

/-- A newcomer with a new id that fits keeps the mailbox well formed. -/
theorem MailboxOk.push {log : List (ℕ × Envelope)} {mb : List Envelope} {env : Envelope} {now : ℕ}
    (h : MailboxOk log env.recipient.asStr mb) (hfit : Fits (envelopeBytes (env.clamped now)) mb)
    (hnew : ∀ m ∈ mb, m.msgId ≠ env.msgId) :
    MailboxOk (log ++ [(now, env.clamped now)]) env.recipient.asStr (mb ++ [env.clamped now]) where
  distinct := by
    rw [List.map_append, List.nodup_append]
    refine ⟨h.distinct, by simp, ?_⟩
    intro x hx y hy
    obtain ⟨m, hm, rfl⟩ := List.mem_map.mp hx
    simp only [List.map_cons, List.map_nil, List.mem_singleton] at hy
    rw [hy]
    exact hnew m hm
  depth := by simpa [Nat.succ_le_iff] using hfit.2
  bytes := by simpa using hfit.1
  arrival := by
    obtain ⟨arrived, hlog, rfl, hall⟩ := h.arrival
    refine ⟨arrived ++ [(now, env.clamped now)], hlog.append (List.Sublist.refl _), by simp, ?_⟩
    intro a ha
    rcases List.mem_append.mp ha with ha | ha
    · exact hall a ha
    · rw [List.mem_singleton.mp ha]
      exact ⟨rfl, _, rfl, clampExpiry_le now env.expiresAt⟩

theorem unexpired_sublist (now : ℕ) (mailbox : List Envelope) :
    (unexpired now mailbox).Sublist mailbox :=
  List.filter_sublist

theorem mailboxOk_nil (log : List (ℕ × Envelope)) (key : String) : MailboxOk log key [] where
  distinct := by simp
  depth := by simp
  bytes := by simp
  arrival := ⟨[], by simp, rfl, by simp⟩

theorem StoreOk.entries {st : MessageStore} {log : List (ℕ × Envelope)} (h : StoreOk st log)
    (key : String) :
    MailboxOk log key (st.entries key) := by
  unfold MessageStore.entries
  cases hk : st.mailboxes.get key with
  | none => exact mailboxOk_nil log key
  | some mailbox => exact h.mailbox key mailbox hk

/-- Replacing one mailbox that is there by a part of it keeps the store well formed. -/
theorem StoreOk.set_sublist {st : MessageStore} {log : List (ℕ × Envelope)} (h : StoreOk st log)
    {key : String} {mb mb' : List Envelope} (hk : st.mailboxes.get key = some mb)
    (hs : mb'.Sublist mb) :
    StoreOk ⟨st.mailboxes.set key mb'⟩ log where
  mailbox := by
    intro k m hm
    rw [Table.get_set] at hm
    split at hm
    · rename_i hkk
      cases hm
      exact hkk ▸ (h.mailbox key mb hk).sublist hs
    · exact h.mailbox k m hm
  count := by rw [Table.size_set_old _ _ hk]; exact h.count

theorem StoreOk.enqueue {st : MessageStore} {log : List (ℕ × Envelope)} (h : StoreOk st log)
    (env : Envelope) (now : ℕ) :
    StoreOk (st.enqueue env now).2 (log ++ (StoreOp.enqueue env now).arrived st) := by
  rcases st.enqueue_cases env now with ⟨hst, -, hno⟩
    | ⟨gone, kept, happ, heq, hfit, -, -, -, hnew, hcount⟩
  · -- nothing was stored, so nothing arrived
    have harr : (StoreOp.enqueue env now).arrived st = [] := by
      simp only [StoreOp.arrived]
      cases hr : (st.enqueue env now).1 with
      | error e => rfl
      | ok s => rw [(hno s hr).1]
    rw [hst, harr, List.append_nil]
    exact h
  · have hsub : kept.Sublist (st.entries env.recipient.asStr) :=
      (List.sublist_append_right gone kept).trans (happ ▸ unexpired_sublist now _)
    have hpush := ((h.entries env.recipient.asStr).sublist hsub).push hfit
      (fun m hm => hnew m (hsub.subset hm))
    simp only [StoreOp.arrived, heq]
    refine ⟨fun k m hm => ?_, ?_⟩
    · rw [Table.get_set] at hm
      split at hm
      · rename_i hk
        cases hm
        exact hk ▸ hpush
      · exact (h.mailbox k m hm).log_append
    · cases hk : st.mailboxes.get env.recipient.asStr with
      | none => rw [Table.size_set_new _ _ hk]; exact hcount hk
      | some mb => rw [Table.size_set_old _ _ hk]; exact h.count

theorem StoreOk.step {s : MessageStore × List (ℕ × Envelope)} (h : StoreOk s.1 s.2) (op : StoreOp) :
    StoreOk (storeStep s op).1 (storeStep s op).2 := by
  cases op with
  | enqueue env now => exact h.enqueue env now
  | fetch recipient now =>
    simp only [storeStep, StoreOp.apply, StoreOp.arrived, List.append_nil, MessageStore.fetch]
    split
    · exact h
    · rename_i mb hk
      exact h.set_sublist hk (unexpired_sublist now mb)
  | ack recipient msgId =>
    simp only [storeStep, StoreOp.apply, StoreOp.arrived, List.append_nil, MessageStore.ack]
    split
    · exact h
    · rename_i mb hk
      exact h.set_sublist hk List.filter_sublist
  | prune now =>
    simp only [storeStep, StoreOp.apply, StoreOp.arrived, List.append_nil, MessageStore.prune]
    refine ⟨fun k m hm => ?_, (Table.size_filterMap_le _ _).trans h.count⟩
    rw [Table.get_filterMap, Option.bind_eq_some_iff] at hm
    obtain ⟨mb, hk, hm⟩ := hm
    simp only [Option.ite_none_left_eq_some, Option.some.injEq] at hm
    exact hm.2 ▸ (h.mailbox k mb hk).sublist (unexpired_sublist now mb)
  | purge recipient =>
    simp only [storeStep, StoreOp.apply, StoreOp.arrived, List.append_nil, MessageStore.purge]
    refine ⟨fun k m hm => ?_, (Table.size_remove_le _ _).trans h.count⟩
    rw [Table.get_remove] at hm
    split at hm
    · cases hm
    · exact h.mailbox k m hm

theorem storeOk_run (ops : List StoreOp) :
    StoreOk (Trace.run storeStep ({}, []) ops).1 (Trace.run storeStep ({}, []) ops).2 := by
  induction ops using List.reverseRecOn with
  | nil => exact ⟨fun k m hm => by simp at hm, by simp [Table.size, maxMailboxes]⟩
  | append_singleton ops op ih =>
    rw [Trace.run_snoc]
    exact ih.step op

/-- An `enqueue` does exactly what it reports: what is left is the unexpired
entries without the evicted ones, in order, and then the newcomer; the evicted
ones are the oldest, and the fewest that make room; and a call that stores
nothing evicts nothing and leaves every mailbox as it was. -/
def EnqueueExact (st : MessageStore) (env : Envelope) (now : ℕ) : Prop :=
  let before := unexpired now (st.entries env.recipient.asStr)
  let cost := envelopeBytes (env.clamped now)
  let after := (st.enqueue env now).2
  (∀ evicted, (st.enqueue env now).1 = .ok { stored := true, evicted } →
    after.mailboxes.get env.recipient.asStr =
      some (before.filter (fun m => m.msgId ∉ evicted) ++ [env.clamped now]) ∧
    (∃ n, evicted = (before.take n).map (·.msgId) ∧
      before.filter (fun m => m.msgId ∉ evicted) = before.drop n ∧
      Fits cost (before.drop n) ∧ ∀ k < n, ¬ Fits cost (before.drop k)) ∧
    ∀ key ≠ env.recipient.asStr, after.mailboxes.get key = st.mailboxes.get key) ∧
  (∀ s, (st.enqueue env now).1 = .ok s → s.stored = false →
    s.evicted = [] ∧ ∀ key, after.mailboxes.get key = st.mailboxes.get key) ∧
  (∀ e, (st.enqueue env now).1 = .error e → ∀ key, after.mailboxes.get key = st.mailboxes.get key)

/-- In a list with distinct ids, the entries whose id is not one of a front
part's are the rest. -/
theorem filter_notMem_front : ∀ {gone kept : List Envelope}, ((gone ++ kept).map (·.msgId)).Nodup →
    (gone ++ kept).filter (fun m => m.msgId ∉ gone.map (·.msgId)) = kept := by
  intro gone kept hn
  rw [List.map_append, List.nodup_append] at hn
  rw [List.filter_append, List.filter_eq_nil_iff.mpr, List.nil_append, List.filter_eq_self.mpr]
  · intro m hm
    simp only [decide_eq_true_eq]
    intro hg
    exact hn.2.2 _ hg _ (List.mem_map_of_mem hm) rfl
  · intro m hm
    simp only [decide_eq_true_eq, not_not]
    exact List.mem_map_of_mem hm

theorem enqueueExact {st : MessageStore} {log : List (ℕ × Envelope)} (h : StoreOk st log)
    (env : Envelope) (now : ℕ) : EnqueueExact st env now := by
  unfold EnqueueExact
  rcases st.enqueue_cases env now with ⟨hst, -, hno⟩
    | ⟨gone, kept, happ, heq, hfit, hmin, -, -, -, -⟩
  · refine ⟨fun evicted hr => ?_, fun s hr _ => ?_, fun e _ key => by rw [hst]⟩
    · simpa using (hno _ hr).1
    · rw [(hno s hr).1, hst]; exact ⟨rfl, fun key => rfl⟩
  · have hn : ((gone ++ kept).map (·.msgId)).Nodup := by
      rw [happ]
      exact ((h.entries _).sublist (unexpired_sublist now _)).distinct
    have hfilter := filter_notMem_front hn
    refine ⟨fun evicted hr => ?_, fun s hr hs => ?_, fun e hr => ?_⟩
    · rw [heq] at hr ⊢
      simp only [Except.ok.injEq, Stored.mk.injEq, true_and] at hr
      subst hr
      rw [happ] at hfilter
      refine ⟨by rw [hfilter]; simp, ⟨gone.length, ?_, ?_, ?_, hmin⟩, fun key hk => ?_⟩
      · rw [← happ]; simp
      · rw [hfilter, ← happ]; simp
      · rw [← happ]; simpa using hfit
      · exact Table.get_set_ne _ _ hk
    · rw [heq] at hr; simp only [Except.ok.injEq] at hr; rw [← hr] at hs; simp at hs
    · rw [heq] at hr; simp at hr

/-- **The store's invariant.** After any calls at any times every mailbox has
distinct ids, is within its two bounds, holds arrivals in arrival order, each
due within the ceiling of the time it was stored, and there are at most
`maxMailboxes`; and a further `enqueue` is exact. -/
theorem store_invariant (ops : List StoreOp) :
    StoreOk (Trace.run storeStep ({}, []) ops).1 (Trace.run storeStep ({}, []) ops).2 ∧
      ∀ env now, EnqueueExact (Trace.run storeStep ({}, []) ops).1 env now :=
  ⟨storeOk_run ops, fun env now => enqueueExact (storeOk_run ops) env now⟩

/-! ### What is accepted -/

/-- The mailbox gives the message out at `now`. -/
def MessageStore.Delivers (st : MessageStore) (recipient : IdentityHash) (msgId : String)
    (now : ℕ) : Prop :=
  ∃ m ∈ (st.fetch recipient now).1, m.msgId = msgId

/-- No message of this id is held that is past its expiry and was not swept yet. -/
def MessageStore.NoneLate (st : MessageStore) (key msgId : String) (now : ℕ) : Prop :=
  ∀ m ∈ st.entries key, m.msgId = msgId → m.expired now = false

theorem MessageStore.delivers_iff (st : MessageStore) (recipient : IdentityHash) (msgId : String)
    (now : ℕ) :
    st.Delivers recipient msgId now ↔ ∃ m ∈ st.entries recipient.asStr,
      m.msgId = msgId ∧ m.expired now = false := by
  unfold MessageStore.Delivers
  rw [MessageStore.fetch_fst]
  simp [unexpired, and_assoc, and_comm]

/-- A mailbox that holds the id gives the message out unless it is past its expiry. -/
theorem StoreOk.delivers_held {st : MessageStore} {log : List (ℕ × Envelope)} (h : StoreOk st log)
    {recipient : IdentityHash} {msgId : String} (now : ℕ) (hheld : st.Holds recipient.asStr msgId) :
    st.Delivers recipient msgId now ↔ st.NoneLate recipient.asStr msgId now := by
  rw [MessageStore.delivers_iff]
  constructor
  · rintro ⟨m, hm, hid, hlive⟩ m' hm' hid'
    have hsame : m' = m := List.inj_on_of_nodup_map (h.entries recipient.asStr).distinct hm' hm
      (hid'.trans hid.symm)
    rw [hsame]
    exact hlive
  · intro hnone
    obtain ⟨m, hm, hid⟩ := hheld
    exact ⟨m, hm, hid, hnone m hm hid⟩

/-- **What a reachable store accepts it gives out, exactly if it holds no expired message
of the same id**: one that waits to be swept is taken for the message. -/
theorem accepted_delivered_iff (ops : List StoreOp) (env : Envelope) (now : ℕ) (stored : Stored)
    (hlive : now < clampExpiry now env.expiresAt)
    (hok : ((Trace.run storeStep ({}, []) ops).1.enqueue env now).1 = .ok stored) :
    ((Trace.run storeStep ({}, []) ops).1.enqueue env now).2.Delivers env.recipient env.msgId now ↔
      (Trace.run storeStep ({}, []) ops).1.NoneLate env.recipient.asStr env.msgId now := by
  have hstore := storeOk_run ops
  generalize (Trace.run storeStep ({}, []) ops).1 = st at hok hstore ⊢
  have hnow : (env.clamped now).expired now = false := by
    simpa [Envelope.expired, Envelope.clamped] using hlive
  rcases st.enqueue_cases env now with ⟨hst, -, hno⟩ | ⟨gone, kept, -, heq, -, -, -, -, hnew, -⟩
  · rcases (hno stored hok).2 with hlate | hheld
    · rw [hlate] at hnow
      cases hnow
    · rw [hst]
      exact hstore.delivers_held now hheld
  · have hout : (st.enqueue env now).2.Delivers env.recipient env.msgId now := by
      rw [MessageStore.delivers_iff, heq]
      dsimp only
      rw [MessageStore.entries_set, if_pos rfl]
      exact ⟨env.clamped now, by simp, rfl, hnow⟩
    exact iff_of_true hout fun m hm hid => absurd hid (hnew m hm)

def heldMailbox : IdentityHash :=
  ⟨"81b637d8fcd2c6da6359e6963113a1170de795e4b725b84d1e0b4cfd9ec58ce9"⟩

/-- A message that lives for ten seconds, and the same id again once they are over. -/
def shortLived (expiresAt : Option ℕ) : Envelope :=
  { recipient := heldMailbox, ciphertext := "sealed", kind := .message, msgId := "m1", expiresAt,
    wake := .none
    rawIdentifier := none }

/-- **The second message is accepted, and the mailbox has none to give out.** -/
theorem accepted_not_delivered :
    (shortLived none).isZkClean = true ∧ 1010 < clampExpiry 1010 (shortLived none).expiresAt ∧
      ((Trace.run storeStep ({}, []) [.enqueue (shortLived (some 1010)) 1000]).1.enqueue (shortLived none) 1010).1 =
        .ok { stored := false, evicted := [] } ∧
      (((Trace.run storeStep ({}, []) [.enqueue (shortLived (some 1010)) 1000]).1.enqueue (shortLived none) 1010).2.fetch
        heldMailbox 1010).1 = [] := by
  decide +kernel

theorem accepted_delivered_iff_again :
    ((Trace.run storeStep ({}, []) [.enqueue (shortLived (some 1010)) 1000]).1.enqueue (shortLived none) 1005).2.Delivers
        heldMailbox "m1" 1005 ↔
      (Trace.run storeStep ({}, []) [.enqueue (shortLived (some 1010)) 1000]).1.NoneLate heldMailbox.asStr "m1" 1005 :=
  accepted_delivered_iff [.enqueue (shortLived (some 1010)) 1000] (shortLived none) 1005 { stored := false, evicted := [] }
    (by decide +kernel) (by decide +kernel)

end Sona
