/-
# Call signaling

`client-core/src/callstate.rs`: the registry of calls of a device. Offers,
resumes and terminals arrive more than once and in any order, and the registry
gives each one decision. A record is live until its call ends and then a
tombstone, which is kept for at least `minTombstoneSecs` whatever retention the
user chooses.

A record of a call that is live, or a tombstone from `t` on, stays until
`t + minTombstoneSecs` (`Watched.step`), and an offer that is new enough to ring
after that was made later than `t + 15` (`ring_is_late`). From these two follows
which offers cannot ring (`no_late_ring`). A duplicate terminal does not renew
the tombstone, and the registry forgets a call whose tombstone is over
(`duplicate_terminal_does_not_renew`).

Key definitions: `CallRegistry`, `CallOp`, `callStep`, `Guarded`, `Watched`.
-/
import Mathlib.Data.List.Induction
import Mathlib.Data.List.Infix
import Sona.Lib.Trace
import Sona.Wire

namespace Sona

/-! ### Records -/

/-- One incoming ring. -/
def callRingTimeoutSecs : ℕ := 45

/-- How long call signaling stays queued. -/
def callSignalTtlSecs : ℕ := 60

/-- How far the clocks of sender and recipient may differ. -/
def callClockSkewSecs : ℕ := 5

/-- The least a tombstone is kept. -/
def minTombstoneSecs : ℕ := callSignalTtlSecs + callClockSkewSecs

/-- Records of the registry. -/
def maxCallRecords : ℕ := 512

/-- Offers before the current one that a record keeps. -/
def maxPriorOffers : ℕ := 128

/-- 32 digits or letters a to f. -/
def validCallId (id : String) : Bool :=
  (utf8 id).length == 32 && (utf8 id).all fun b => (48 ≤ b && b ≤ 57) || (97 ≤ b && b ≤ 102)

def validOfferDeadline (createdAt expiresAt : ℕ) : Bool :=
  expiresAt > createdAt && expiresAt - createdAt ≤ saturatingAdd callRingTimeoutSecs callClockSkewSecs

def validSignalDeadline (createdAt expiresAt : ℕ) : Bool :=
  expiresAt > createdAt && expiresAt - createdAt ≤ saturatingAdd callSignalTtlSecs callClockSkewSecs

def validControlExpiry (expiresAt now : ℕ) : Bool :=
  expiresAt > now - callClockSkewSecs &&
  expiresAt ≤ saturatingAdd now (callSignalTtlSecs + callClockSkewSecs)

inductive CallTerminalReason
  | answeredHere
  | answeredElsewhere
  | declinedHere
  | declinedElsewhere
  | callerCancelled
  | expired
  | busy
  | transportError
deriving DecidableEq, Repr

inductive CallPhase
  | offered
  | ringing
  | answerPendingUnlock
  | claiming
  | winner
  | active
deriving DecidableEq, Repr

/-- The order of the phases. -/
def CallPhase.rank : CallPhase → ℕ
  | .offered => 0
  | .ringing => 1
  | .answerPendingUnlock => 2
  | .claiming => 3
  | .winner => 4
  | .active => 5

inductive CallRecordState
  | live (phase : CallPhase)
  | terminal (reason : CallTerminalReason) (retainUntil : ℕ)
deriving DecidableEq, Repr

structure CallRecord where
  callInstanceId : String
  offerId : String
  priorOfferIds : List String := []
  expiresAt : ℕ
  updatedAt : ℕ
  state : CallRecordState
deriving DecidableEq, Repr

structure CallRegistry where
  records : List CallRecord := []
deriving DecidableEq, Repr

inductive OfferDecision
  | ring
  | duplicate
  | suppressed (reason : CallTerminalReason)
  | expired
  | invalid
  | capacity
deriving DecidableEq, Repr

inductive ResumeDecision
  | accepted
  | duplicate
  | stale
  | suppressed (reason : CallTerminalReason)
  | expired
  | invalid
  | missing
deriving DecidableEq, Repr

inductive TransitionDecision
  | applied
  | duplicate
  | regressive
  | prerequisite
  | terminal (reason : CallTerminalReason)
  | missing
deriving DecidableEq, Repr

inductive TerminalDecision
  | applied (reason : CallTerminalReason)
  | duplicate (reason : CallTerminalReason)
  | conflict
  | invalid
  | capacity
deriving DecidableEq, Repr

/-! ### The registry -/

/-- The record is of this call. -/
def CallRecord.isOf (callInstanceId : String) (r : CallRecord) : Bool :=
  r.callInstanceId == callInstanceId

/-- The offer is the current one of the record or one before it. -/
def CallRecord.hasOffer (r : CallRecord) (offerId : String) : Bool :=
  r.offerId == offerId || r.priorOfferIds.any (· == offerId)

/-- The first record that passes the test is changed in place. -/
def changeFirst (p : CallRecord → Bool) (f : CallRecord → CallRecord) :
    List CallRecord → List CallRecord
  | [] => []
  | r :: rs => if p r then f r :: rs else r :: changeFirst p f rs

def tombstoneDeadline (now retentionSecs : ℕ) : ℕ :=
  saturatingAdd now (max retentionSecs minTombstoneSecs)

/-- A tombstone whose time is over. -/
def CallRecord.due (now : ℕ) (r : CallRecord) : Bool :=
  match r.state with
  | .terminal _ retainUntil => retainUntil ≤ now
  | .live _ => false

def CallRecord.isTerminal (r : CallRecord) : Bool :=
  match r.state with
  | .terminal _ _ => true
  | .live _ => false

def CallRegistry.purge (c : CallRegistry) (now : ℕ) : CallRegistry :=
  { c with records := c.records.filter fun r => !r.due now }

/-- The loop of `make_room`: tombstones go, oldest first, until there is room. -/
def evictTerminals : ℕ → List CallRecord → Bool × List CallRecord
  | 0, records => (true, records)
  | n + 1, records =>
    if records.length ≥ maxCallRecords then
      match records.findIdx? (·.isTerminal) with
      | none => (false, records)
      | some i => evictTerminals n (records.eraseIdx i)
    else (true, records)

def CallRegistry.makeRoom (c : CallRegistry) (now : ℕ) : Bool × CallRegistry :=
  let records := (c.purge now).records
  ((evictTerminals records.length records).1, ⟨(evictTerminals records.length records).2⟩)

def CallRegistry.recordTerminal (c : CallRegistry) (callInstanceId offerId : String)
    (reason : CallTerminalReason) (now retentionSecs : ℕ) : TerminalDecision × CallRegistry :=
  let c := c.purge now
  if !validCallId callInstanceId || !validCallId offerId then (.invalid, c) else
  match c.records.find? (·.isOf callInstanceId) with
  | some record =>
    if !record.hasOffer offerId then (.conflict, c) else
    match record.state with
    | .terminal existing _ => (.duplicate existing, c)
    | .live _ =>
      (.applied reason, ⟨changeFirst (·.isOf callInstanceId) (fun r =>
        { r with
            updatedAt := now,
            state := .terminal reason (tombstoneDeadline now retentionSecs) }) c.records⟩)
  | none =>
    let (room, c) := c.makeRoom now
    if !room then (.capacity, c) else
    (.applied reason, ⟨c.records ++ [{ callInstanceId, offerId, expiresAt := now, updatedAt := now
                                       state := .terminal reason (tombstoneDeadline now retentionSecs) }]⟩)

def CallRegistry.receiveOffer (c : CallRegistry) (callInstanceId offerId : String)
    (createdAt expiresAt now retentionSecs : ℕ) : OfferDecision × CallRegistry :=
  let c := c.purge now
  if !validCallId callInstanceId || !validCallId offerId || !validOfferDeadline createdAt expiresAt ||
      createdAt > saturatingAdd now callClockSkewSecs ||
      expiresAt > saturatingAdd now (callRingTimeoutSecs + callClockSkewSecs) then (.invalid, c) else
  match c.records.find? (·.isOf callInstanceId) with
  | some record =>
    match record.state with
    | .terminal reason _ => if record.hasOffer offerId then (.suppressed reason, c) else (.invalid, c)
    | .live _ => if record.offerId == offerId then (.duplicate, c) else (.invalid, c)
  | none =>
    if expiresAt ≤ now then (.expired, (c.recordTerminal callInstanceId offerId .expired now retentionSecs).2) else
    let (room, c) := c.makeRoom now
    if !room then (.capacity, c) else
    (.ring, ⟨c.records ++ [{ callInstanceId, offerId, expiresAt, updatedAt := now, state := .live .ringing }]⟩)

/-- The record goes over to a new offer, and keeps the last ones before it. -/
def CallRecord.rotate (r : CallRecord) (offerId : String) (expiresAt now : ℕ) : CallRecord :=
  { r with
    priorOfferIds := r.priorOfferIds.drop (r.priorOfferIds.length + 1 - maxPriorOffers) ++ [r.offerId]
    offerId, expiresAt, updatedAt := now }

def CallRegistry.receiveResume (c : CallRegistry) (callInstanceId offerId : String)
    (createdAt expiresAt now : ℕ) :
    ResumeDecision × CallRegistry :=
  let c := c.purge now
  if !validCallId callInstanceId || !validCallId offerId || !validSignalDeadline createdAt expiresAt ||
      !validControlExpiry expiresAt now then (.invalid, c) else
  if expiresAt ≤ now then (.expired, c) else
  match c.records.find? (·.isOf callInstanceId) with
  | none => (.missing, c)
  | some record =>
    match record.state with
    | .terminal reason _ => (.suppressed reason, c)
    | .live _ =>
      if record.offerId == offerId then (.duplicate, c) else
      if record.priorOfferIds.any (· == offerId) then (.stale, c) else
      (.accepted, ⟨changeFirst (·.isOf callInstanceId) (·.rotate offerId expiresAt now) c.records⟩)

def CallRegistry.transition (c : CallRegistry) (callInstanceId offerId : String) (phase : CallPhase)
    (now : ℕ) :
    TransitionDecision × CallRegistry :=
  match c.records.find? fun r => r.isOf callInstanceId && r.offerId == offerId with
  | none => (.missing, c)
  | some record =>
    match record.state with
    | .terminal reason _ => (.terminal reason, c)
    | .live current =>
      if phase = current then (.duplicate, c) else
      if phase.rank < current.rank then (.regressive, c) else
      if phase = .active ∧ current ≠ .winner then (.prerequisite, c) else
      (.applied, ⟨changeFirst (fun r => r.isOf callInstanceId && r.offerId == offerId)
        (fun r => { r with state := .live phase, updatedAt := now }) c.records⟩)

/-- An unanswered offer: the phases that expire. -/
def CallRecord.expirable (r : CallRecord) : Bool :=
  match r.state with
  | .live .offered | .live .ringing | .live .answerPendingUnlock | .live .claiming => true
  | _ => false

/-- A live offer past its deadline becomes a tombstone. -/
def CallRecord.expire (now retentionSecs : ℕ) (r : CallRecord) : CallRecord :=
  if r.expirable && r.expiresAt ≤ now then
    { r with updatedAt := now, state := .terminal .expired (tombstoneDeadline now retentionSecs) }
  else r

def CallRegistry.expire (c : CallRegistry) (now retentionSecs : ℕ) : List String × CallRegistry :=
  ((c.records.filter fun r => r.expirable && r.expiresAt ≤ now).map (·.callInstanceId),
    CallRegistry.purge ⟨c.records.map (·.expire now retentionSecs)⟩ now)

/-- A tombstone gets the shorter of its deadline and the one of a new retention. -/
def CallRecord.retain (retentionSecs : ℕ) (r : CallRecord) : CallRecord :=
  match r.state with
  | .terminal reason retainUntil =>
    { r with state := .terminal reason (min retainUntil (tombstoneDeadline r.updatedAt retentionSecs)) }
  | .live _ => r

def CallRegistry.retainWithin (c : CallRegistry) (now retentionSecs : ℕ) : CallRegistry :=
  CallRegistry.purge ⟨c.records.map (·.retain retentionSecs)⟩ now

/-! ### Runs -/

/-- The calls on the registry. -/
inductive CallOp
  | receiveOffer (callInstanceId offerId : String) (createdAt expiresAt now retentionSecs : ℕ)
  | receiveResume (callInstanceId offerId : String) (createdAt expiresAt now : ℕ)
  | transition (callInstanceId offerId : String) (phase : CallPhase) (now : ℕ)
  | recordTerminal (callInstanceId offerId : String) (reason : CallTerminalReason)
      (now retentionSecs : ℕ)
  | expire (now retentionSecs : ℕ)
  | retainWithin (now retentionSecs : ℕ)
  | purge (now : ℕ)

def CallOp.time : CallOp → ℕ
  | .receiveOffer _ _ _ _ now _ | .receiveResume _ _ _ _ now | .transition _ _ _ now | .recordTerminal _ _ _ now _
  | .expire now _ | .retainWithin now _ | .purge now => now

def callStep (c : CallRegistry) : CallOp → CallRegistry
  | .receiveOffer call offer createdAt expiresAt now retention =>
    (c.receiveOffer call offer createdAt expiresAt now retention).2
  | .receiveResume call offer createdAt expiresAt now =>
    (c.receiveResume call offer createdAt expiresAt now).2
  | .transition call offer phase now => (c.transition call offer phase now).2
  | .recordTerminal call offer reason now retention =>
    (c.recordTerminal call offer reason now retention).2
  | .expire now retention => (c.expire now retention).2
  | .retainWithin now retention => c.retainWithin now retention
  | .purge now => c.purge now

/-- The registry after the calls `ops`. -/
def registryAfter (ops : List CallOp) : CallRegistry := Trace.run callStep {} ops

/-! ### A call that is watched -/

/-- The record is live, or a tombstone from `t` or later that is kept for the
least time at least. -/
def Guarded (t : ℕ) (r : CallRecord) : Prop :=
  match r.state with
  | .live _ => True
  | .terminal _ retainUntil => t ≤ r.updatedAt ∧ saturatingAdd t minTombstoneSecs ≤ retainUntil

/-- The registry has such a record of the call. -/
def Watched (t : ℕ) (call : String) (c : CallRegistry) : Prop :=
  ∃ r ∈ c.records, r.callInstanceId = call ∧ Guarded t r

theorem tombstone_le_deadline {t now : ℕ} (h : t ≤ now) (retention : ℕ) :
    saturatingAdd t minTombstoneSecs ≤ tombstoneDeadline now retention :=
  saturatingAdd_mono h (le_max_right _ _)

/-- A record that just ended. -/
theorem guarded_terminal {t now : ℕ} (h : t ≤ now) (retention : ℕ) {r : CallRecord}
    {reason : CallTerminalReason} (hu : r.updatedAt = now)
    (hs : r.state = .terminal reason (tombstoneDeadline now retention)) : Guarded t r := by
  unfold Guarded
  rw [hs]
  exact ⟨hu ▸ h, tombstone_le_deadline h retention⟩

theorem Guarded.not_due {t now : ℕ} {r : CallRecord} (h : Guarded t r)
    (hn : now < saturatingAdd t minTombstoneSecs) :
    r.due now = false := by
  unfold Guarded at h
  unfold CallRecord.due
  cases hs : r.state with
  | live phase => rfl
  | terminal reason retainUntil =>
    rw [hs] at h
    dsimp only at h ⊢
    simp only [decide_eq_false_iff_not]
    omega

theorem Guarded.expire {t now : ℕ} {r : CallRecord} (h : Guarded t r) (ht : t ≤ now)
    (retention : ℕ) :
    Guarded t (r.expire now retention) := by
  unfold CallRecord.expire
  split
  · exact guarded_terminal ht retention rfl rfl
  · exact h

theorem Guarded.retain {t : ℕ} {r : CallRecord} (h : Guarded t r) (retention : ℕ) :
    Guarded t (r.retain retention) := by
  unfold CallRecord.retain
  unfold Guarded at h ⊢
  cases hs : r.state with
  | live phase => simp only [hs]
  | terminal reason retainUntil =>
    rw [hs] at h
    dsimp only at h ⊢
    exact ⟨h.1, le_min h.2 (tombstone_le_deadline h.1 retention)⟩

/-- The first record that passes is the one that changes, and no other. -/
theorem mem_changeFirst {p : CallRecord → Bool} {f : CallRecord → CallRecord} {r₀ : CallRecord} :
    ∀ {l : List CallRecord}, l.find? p = some r₀ →
      f r₀ ∈ changeFirst p f l ∧ (∀ r ∈ l, r = r₀ ∨ r ∈ changeFirst p f l) ∧
      ∀ r ∈ changeFirst p f l, r = f r₀ ∨ r ∈ l
  | r :: rs, h => by
    unfold changeFirst
    rw [List.find?_cons] at h
    cases hp : p r with
    | true =>
      simp only [hp, Option.some.injEq] at h
      subst h
      simp only [if_true, List.mem_cons, true_or, forall_eq_or_imp, true_and]
      exact ⟨fun r' hr' => Or.inr (Or.inr hr'), fun r' hr' => Or.inr (Or.inr hr')⟩
    | false =>
      simp only [hp] at h
      obtain ⟨hf, hold, hnew⟩ := mem_changeFirst (f := f) h
      simp only [Bool.false_eq_true, if_false, List.mem_cons, true_or, or_true,
        forall_eq_or_imp, true_and]
      refine ⟨Or.inr hf, fun r' hr' => ?_, fun r' hr' => ?_⟩
      · rcases hold r' hr' with h' | h'
        · exact Or.inl h'
        · exact Or.inr (Or.inr h')
      · rcases hnew r' hr' with h' | h'
        · exact Or.inl h'
        · exact Or.inr (Or.inr h')

/-- An offer that is resumed is refused, or it takes the place of the one that its call is at. -/
theorem receiveResume_cases (c : CallRegistry) (call offer : String) (createdAt expiresAt now : ℕ) :
    (∃ answer, c.receiveResume call offer createdAt expiresAt now = (answer, c.purge now)) ∨
    ∃ record phase, (c.purge now).records.find? (·.isOf call) = some record ∧
    record.state = .live phase ∧
      record.offerId ≠ offer ∧ offer ∉ record.priorOfferIds ∧
      c.receiveResume call offer createdAt expiresAt now =
        (.accepted, ⟨Sona.changeFirst (·.isOf call) (·.rotate offer expiresAt now) (c.purge now).records⟩) := by
  unfold CallRegistry.receiveResume
  dsimp only
  split
  · exact Or.inl ⟨_, rfl⟩
  split
  · exact Or.inl ⟨_, rfl⟩
  split
  · exact Or.inl ⟨_, rfl⟩
  rename_i record hfind
  split
  · exact Or.inl ⟨_, rfl⟩
  rename_i phase hlive
  split
  · exact Or.inl ⟨_, rfl⟩
  rename_i hcurrent
  split
  · exact Or.inl ⟨_, rfl⟩
  rename_i hprior
  exact Or.inr ⟨record, phase, hfind, hlive, by simpa using hcurrent, by simpa using hprior, rfl⟩

/-- A transition is refused, or its record goes on to a phase that is not lower. -/
theorem transition_cases (c : CallRegistry) (call offer : String) (phase : CallPhase) (now : ℕ) :
    (∃ answer, c.transition call offer phase now = (answer, c)) ∨
    ∃ record current, c.records.find? (fun r => r.isOf call && r.offerId == offer) = some record ∧
      record.state = .live current ∧ current.rank ≤ phase.rank ∧
      (phase = .active → current = .winner) ∧
      c.transition call offer phase now =
        (.applied, ⟨Sona.changeFirst (fun r => r.isOf call && r.offerId == offer)
        (fun r => { r with state := .live phase, updatedAt := now }) c.records⟩) := by
  unfold CallRegistry.transition
  split
  · exact Or.inl ⟨_, rfl⟩
  rename_i record hfind
  split
  · exact Or.inl ⟨_, rfl⟩
  rename_i current hlive
  split
  · exact Or.inl ⟨_, rfl⟩
  split
  · exact Or.inl ⟨_, rfl⟩
  rename_i hrank
  split
  · exact Or.inl ⟨_, rfl⟩
  rename_i hactive
  refine Or.inr ⟨record, current, hfind, hlive, Nat.le_of_not_lt hrank, fun heq => ?_, rfl⟩
  by_contra hne
  exact hactive ⟨heq, hne⟩

theorem evictTerminals_room {records : List CallRecord} (h : records.length < maxCallRecords) :
    evictTerminals records.length records = (true, records) := by
  cases hn : records.length with
  | zero => rfl
  | succ n =>
    unfold evictTerminals
    rw [if_neg (by omega)]

/-- With room left, `make_room` only purges. -/
theorem makeRoom_eq {c : CallRegistry} {now : ℕ} (h : c.records.length < maxCallRecords) :
    c.makeRoom now = (true, c.purge now) := by
  have hlen : (c.purge now).records.length < maxCallRecords :=
    Nat.lt_of_le_of_lt (List.length_filter_le _ _) h
  unfold CallRegistry.makeRoom
  dsimp only
  rw [evictTerminals_room hlen]

theorem length_purge_le (c : CallRegistry) (now : ℕ) :
    (c.purge now).records.length ≤ c.records.length :=
  List.length_filter_le _ _

section watched

variable {t now : ℕ} {call : String} {c : CallRegistry} (h : Watched t call c)
include h

theorem Watched.purge (hn : now < saturatingAdd t minTombstoneSecs) :
    Watched t call (c.purge now) := by
  obtain ⟨r, hr, hc, hg⟩ := h
  exact ⟨r, List.mem_filter.mpr ⟨hr, by simp [hg.not_due hn]⟩, hc, hg⟩

theorem Watched.push (r : CallRecord) : Watched t call ⟨c.records ++ [r]⟩ := by
  obtain ⟨r', hr', hc, hg⟩ := h
  exact ⟨r', List.mem_append_left _ hr', hc, hg⟩

theorem Watched.map {f : CallRecord → CallRecord} (hf : ∀ r, Guarded t r → Guarded t (f r))
    (hid : ∀ r, (f r).callInstanceId = r.callInstanceId) : Watched t call ⟨c.records.map f⟩ := by
  obtain ⟨r, hr, hc, hg⟩ := h
  exact ⟨f r, List.mem_map_of_mem hr, (hid r).trans hc, hf r hg⟩

theorem Watched.changeFirst {p : CallRecord → Bool} {f : CallRecord → CallRecord} {r₀ : CallRecord}
    (hfind : c.records.find? p = some r₀) (hf : Guarded t r₀ → Guarded t (f r₀))
    (hid : (f r₀).callInstanceId = r₀.callInstanceId) :
    Watched t call ⟨Sona.changeFirst p f c.records⟩ := by
  obtain ⟨r, hr, hc, hg⟩ := h
  obtain ⟨hnew, hrest, -⟩ := mem_changeFirst (f := f) hfind
  rcases hrest r hr with rfl | hkept
  · exact ⟨f r, hnew, hid.trans hc, hf hg⟩
  · exact ⟨r, hkept, hc, hg⟩

/-- A watched call is found. -/
theorem Watched.find : ∃ r, c.records.find? (·.isOf call) = some r := by
  obtain ⟨r, hr, hc, -⟩ := h
  refine Option.isSome_iff_exists.mp (List.find?_isSome.mpr ⟨r, hr, ?_⟩)
  simp [CallRecord.isOf, hc]

theorem Watched.recordTerminal (other offer : String) (reason : CallTerminalReason) (retention : ℕ)
    (ht : t ≤ now) (hn : now < saturatingAdd t minTombstoneSecs)
    (hroom : c.records.length < maxCallRecords) :
    Watched t call (c.recordTerminal other offer reason now retention).2 := by
  have hp := h.purge hn
  have hlen := Nat.lt_of_le_of_lt (length_purge_le c now) hroom
  unfold CallRegistry.recordTerminal
  dsimp only
  split
  · exact hp
  split
  · rename_i record hfind
    split
    · exact hp
    split
    · exact hp
    · exact hp.changeFirst hfind (fun _ => guarded_terminal ht retention rfl rfl) rfl
  · rw [makeRoom_eq hlen]
    exact (hp.purge hn).push _

theorem Watched.receiveOffer (other offer : String) (createdAt expiresAt retention : ℕ)
    (ht : t ≤ now) (hn : now < saturatingAdd t minTombstoneSecs)
    (hroom : c.records.length < maxCallRecords) :
    Watched t call (c.receiveOffer other offer createdAt expiresAt now retention).2 := by
  have hp := h.purge hn
  have hlen := Nat.lt_of_le_of_lt (length_purge_le c now) hroom
  unfold CallRegistry.receiveOffer
  dsimp only
  split
  · exact hp
  split
  · split
    · split <;> exact hp
    · split <;> exact hp
  · split
    · exact hp.recordTerminal other offer .expired retention ht hn hlen
    · rw [makeRoom_eq hlen]
      exact (hp.purge hn).push _

theorem Watched.receiveResume (other offer : String) (createdAt expiresAt : ℕ)
    (hn : now < saturatingAdd t minTombstoneSecs) :
    Watched t call (c.receiveResume other offer createdAt expiresAt now).2 := by
  have hp := h.purge hn
  rcases receiveResume_cases c other offer createdAt expiresAt now with
    ⟨_, heq⟩ | ⟨record, phase, hfind, hlive, -, -, heq⟩
  · rw [heq]
    exact hp
  · rw [heq]
    exact hp.changeFirst hfind (fun _ => by simp [Guarded, CallRecord.rotate, hlive]) rfl

theorem Watched.transition (other offer : String) (phase : CallPhase) :
    Watched t call (c.transition other offer phase now).2 := by
  rcases transition_cases c other offer phase now with ⟨_, heq⟩
    | ⟨record, current, hfind, -, -, -, heq⟩
  · rw [heq]
    exact h
  · rw [heq]
    exact h.changeFirst hfind (fun _ => by simp [Guarded]) rfl

end watched

theorem retain_id (retention : ℕ) (r : CallRecord) :
    (r.retain retention).callInstanceId = r.callInstanceId := by
  unfold CallRecord.retain
  split <;> rfl

theorem expire_id (now retention : ℕ) (r : CallRecord) :
    (r.expire now retention).callInstanceId = r.callInstanceId := by
  unfold CallRecord.expire
  split <;> rfl

/-- **A watched call stays watched** until the least time of a tombstone is over. -/
theorem Watched.step {t : ℕ} {call : String} {c : CallRegistry} (h : Watched t call c) (op : CallOp)
    (ht : t ≤ op.time) (hn : op.time < saturatingAdd t minTombstoneSecs)
    (hroom : c.records.length < maxCallRecords) :
    Watched t call (callStep c op) := by
  cases op with
  | receiveOffer other offer createdAt expiresAt now retention =>
    exact h.receiveOffer other offer createdAt expiresAt retention ht hn hroom
  | receiveResume other offer createdAt expiresAt now =>
    exact h.receiveResume other offer createdAt expiresAt hn
  | transition other offer phase now => exact h.transition other offer phase
  | recordTerminal other offer reason now retention =>
    exact h.recordTerminal other offer reason retention ht hn hroom
  | expire now retention => exact (h.map (fun r hg => hg.expire ht retention) (expire_id now retention)).purge hn
  | retainWithin now retention => exact (h.map (fun r hg => hg.retain retention) (retain_id retention)).purge hn
  | purge now => exact h.purge hn

/-! ### What rings -/

/-- What an offer that rings was checked for, and the record it leaves. -/
theorem receiveOffer_ring {c : CallRegistry} {call offer : String}
    {createdAt expiresAt now retention : ℕ}
    (h : (c.receiveOffer call offer createdAt expiresAt now retention).1 = .ring) :
    (c.purge now).records.find? (·.isOf call) = none ∧ now < expiresAt ∧
    expiresAt ≤ createdAt + 50 ∧
      createdAt ≤ saturatingAdd now callClockSkewSecs ∧
      expiresAt ≤ saturatingAdd now (callRingTimeoutSecs + callClockSkewSecs) ∧
      Watched now call (c.receiveOffer call offer createdAt expiresAt now retention).2 := by
  unfold CallRegistry.receiveOffer at h ⊢
  dsimp only at h ⊢
  split at h
  · cases h
  rename_i hvalid
  rw [if_neg hvalid]
  simp only [Bool.or_eq_true, Bool.not_eq_eq_eq_not, Bool.not_true, decide_eq_true_eq, not_or,
    Bool.not_eq_false, Nat.not_lt, gt_iff_lt] at hvalid
  obtain ⟨⟨⟨-, hdeadline⟩, hcreated⟩, hexpires⟩ := hvalid
  have hwithin : expiresAt ≤ createdAt + 50 := by
    unfold validOfferDeadline at hdeadline
    simp only [Bool.and_eq_true, decide_eq_true_eq] at hdeadline
    have hfifty : saturatingAdd callRingTimeoutSecs callClockSkewSecs = 50 := by decide
    omega
  cases hfind : (c.purge now).records.find? (·.isOf call) with
  | some record =>
    rw [hfind] at h
    dsimp only at h
    split at h
    · split at h <;> cases h
    · split at h <;> cases h
  | none =>
    rw [hfind] at h
    dsimp only at h ⊢
    split at h
    · cases h
    rename_i hlive
    rw [if_neg hlive]
    split at h
    · cases h
    rename_i hroom
    rw [if_neg hroom]
    refine ⟨rfl, by omega, hwithin, hcreated, hexpires, ?_⟩
    exact ⟨_, List.mem_append_right _ (List.mem_singleton.mpr rfl), rfl, trivial⟩

/-- **An offer that rings while nothing was watched was made late.** -/
theorem ring_is_late {c : CallRegistry} {t : ℕ} {call offer : String}
    {createdAt expiresAt now retention : ℕ}
    (h : (c.receiveOffer call offer createdAt expiresAt now retention).1 = .ring)
    (hw : now < saturatingAdd t minTombstoneSecs → Watched t call c) : t + 15 < createdAt := by
  obtain ⟨hnone, hnow, hwithin, -, hmax, -⟩ := receiveOffer_ring h
  by_cases hn : now < saturatingAdd t minTombstoneSecs
  · obtain ⟨r, hr⟩ := ((hw hn).purge hn).find
    rw [hnone] at hr
    cases hr
  · unfold saturatingAdd at hn hmax
    simp only [minTombstoneSecs, callSignalTtlSecs, callClockSkewSecs,
      callRingTimeoutSecs] at hn hmax
    omega

/-- A terminal that is applied leaves the call watched. -/
theorem recordTerminal_applied {c : CallRegistry} {call offer : String}
    {reason reason' : CallTerminalReason} {now retention : ℕ}
    (h : (c.recordTerminal call offer reason now retention).1 = .applied reason') :
    Watched now call (c.recordTerminal call offer reason now retention).2 := by
  unfold CallRegistry.recordTerminal at h ⊢
  dsimp only at h ⊢
  split at h
  · cases h
  rename_i hvalid
  rw [if_neg hvalid]
  cases hfind : (c.purge now).records.find? (·.isOf call) with
  | some record =>
    rw [hfind] at h
    dsimp only at h ⊢
    split at h
    · cases h
    rename_i hoffer
    rw [if_neg hoffer]
    cases hs : record.state with
    | terminal existing until_ =>
      rw [hs] at h
      cases h
    | live phase =>
      have hid : record.callInstanceId = call := by
        have := List.find?_some hfind
        simpa [CallRecord.isOf] using this
      exact ⟨_, (mem_changeFirst hfind).1, hid, guarded_terminal le_rfl retention rfl rfl⟩
  | none =>
    rw [hfind] at h
    dsimp only at h ⊢
    split at h
    · cases h
    rename_i hroom
    rw [if_neg hroom]
    exact ⟨_, List.mem_append_right _ (List.mem_singleton.mpr rfl), rfl,
      guarded_terminal le_rfl retention rfl rfl⟩

/-- A duplicate terminal finds a tombstone and only purges. -/
theorem recordTerminal_duplicate {c : CallRegistry} {call offer : String}
    {reason existing : CallTerminalReason} {now retention : ℕ}
    (h : (c.recordTerminal call offer reason now retention).1 = .duplicate existing) :
    (c.recordTerminal call offer reason now retention).2 = c.purge now := by
  unfold CallRegistry.recordTerminal at h ⊢
  dsimp only at h ⊢
  split at h
  · cases h
  rename_i hvalid
  rw [if_neg hvalid]
  cases hfind : (c.purge now).records.find? (·.isOf call) with
  | some record =>
    rw [hfind] at h
    dsimp only at h ⊢
    split at h
    · cases h
    rename_i hoffer
    rw [if_neg hoffer]
    cases hs : record.state with
    | terminal existing until_ => rfl
    | live phase =>
      rw [hs] at h
      cases h
  | none =>
    rw [hfind] at h
    dsimp only at h
    split at h <;> cases h

/-! ### Every tombstone is kept from its own time on -/

/-- The record is guarded from its own time, which is not in the future. -/
def Dated (now : ℕ) (r : CallRecord) : Prop := Guarded r.updatedAt r ∧ r.updatedAt ≤ now

def AllDated (now : ℕ) (l : List CallRecord) : Prop := ∀ r ∈ l, Dated now r

theorem dated_terminal {now retention : ℕ} {r : CallRecord} {reason : CallTerminalReason}
    (hu : r.updatedAt = now) (hs : r.state = .terminal reason (tombstoneDeadline now retention)) :
    Dated now r :=
  ⟨guarded_terminal (Nat.le_of_eq hu) retention hu hs, Nat.le_of_eq hu⟩

theorem dated_live {now : ℕ} {r : CallRecord} {phase : CallPhase} (hu : r.updatedAt = now)
    (hs : r.state = .live phase) :
    Dated now r := ⟨by simp [Guarded, hs], Nat.le_of_eq hu⟩

theorem AllDated.mono {now now' : ℕ} {l : List CallRecord} (h : AllDated now l) (hn : now ≤ now') :
    AllDated now' l :=
  fun r hr => ⟨(h r hr).1, Nat.le_trans (h r hr).2 hn⟩

theorem AllDated.push {now : ℕ} {l : List CallRecord} (h : AllDated now l) {r : CallRecord}
    (hr : Dated now r) :
    AllDated now (l ++ [r]) := by
  intro r' hr'
  rcases List.mem_append.mp hr' with hr' | hr'
  · exact h r' hr'
  · rw [List.mem_singleton.mp hr']
    exact hr

theorem AllDated.changeFirst {now : ℕ} {l : List CallRecord} (h : AllDated now l)
    {p : CallRecord → Bool} {f : CallRecord → CallRecord} {r₀ : CallRecord}
    (hfind : l.find? p = some r₀) (hf : Dated now (f r₀)) :
    AllDated now (Sona.changeFirst p f l) := by
  intro r hr
  rcases (mem_changeFirst hfind).2.2 r hr with rfl | hr
  · exact hf
  · exact h r hr

theorem evictTerminals_subset : ∀ (n : ℕ) (l : List CallRecord), (evictTerminals n l).2 ⊆ l
  | 0, _ => List.Subset.refl _
  | n + 1, l => by
    unfold evictTerminals
    split
    · split
      · exact List.Subset.refl _
      · exact fun r hr => List.eraseIdx_subset (evictTerminals_subset n _ hr)
    · exact List.Subset.refl _

section dated

variable {now : ℕ} {c : CallRegistry} (h : AllDated now c.records)
include h

theorem AllDated.purge : AllDated now (c.purge now).records :=
  fun r hr => h r (List.mem_filter.mp hr).1

theorem AllDated.makeRoom : AllDated now (c.makeRoom now).2.records :=
  fun r hr => AllDated.purge h r (evictTerminals_subset _ _ hr)

theorem AllDated.recordTerminal (call offer : String) (reason : CallTerminalReason)
    (retention : ℕ) :
    AllDated now (c.recordTerminal call offer reason now retention).2.records := by
  have hp := AllDated.purge h
  unfold CallRegistry.recordTerminal
  dsimp only
  split
  · exact hp
  split
  · rename_i record hfind
    split
    · exact hp
    split
    · exact hp
    · exact hp.changeFirst hfind (dated_terminal rfl rfl)
  · split
    · exact AllDated.makeRoom hp
    · exact (AllDated.makeRoom hp).push (dated_terminal rfl rfl)

theorem AllDated.receiveOffer (call offer : String) (createdAt expiresAt retention : ℕ) :
    AllDated now (c.receiveOffer call offer createdAt expiresAt now retention).2.records := by
  have hp := AllDated.purge h
  unfold CallRegistry.receiveOffer
  dsimp only
  split
  · exact hp
  split
  · split
    · split <;> exact hp
    · split <;> exact hp
  split
  · exact AllDated.recordTerminal hp call offer .expired retention
  split
  · exact AllDated.makeRoom hp
  · exact (AllDated.makeRoom hp).push (dated_live rfl rfl)

theorem AllDated.receiveResume (call offer : String) (createdAt expiresAt : ℕ) :
    AllDated now (c.receiveResume call offer createdAt expiresAt now).2.records := by
  have hp := AllDated.purge h
  rcases receiveResume_cases c call offer createdAt expiresAt now with
    ⟨_, heq⟩ | ⟨record, phase, hfind, hlive, -, -, heq⟩
  · rw [heq]
    exact hp
  · rw [heq]
    exact hp.changeFirst hfind (dated_live rfl hlive)

theorem AllDated.transition (call offer : String) (phase : CallPhase) :
    AllDated now (c.transition call offer phase now).2.records := by
  rcases transition_cases c call offer phase now with ⟨_, heq⟩
    | ⟨record, current, hfind, -, -, -, heq⟩
  · rw [heq]
    exact h
  · rw [heq]
    exact h.changeFirst hfind (dated_live rfl rfl)

end dated

theorem Dated.expire {now : ℕ} {r : CallRecord} (h : Dated now r) (retention : ℕ) :
    Dated now (r.expire now retention) := by
  unfold CallRecord.expire
  split
  · exact dated_terminal rfl rfl
  · exact h

theorem Dated.retain {now : ℕ} {r : CallRecord} (h : Dated now r) (retention : ℕ) :
    Dated now (r.retain retention) := by
  have hu : (r.retain retention).updatedAt = r.updatedAt := by
    unfold CallRecord.retain
    split <;> rfl
  unfold Dated
  rw [hu]
  exact ⟨h.1.retain retention, h.2⟩

theorem AllDated.map {now : ℕ} {l : List CallRecord} (h : AllDated now l)
    {f : CallRecord → CallRecord} (hf : ∀ r, Dated now r → Dated now (f r)) :
    AllDated now (l.map f) := by
  intro r hr
  obtain ⟨r₀, hr₀, rfl⟩ := List.mem_map.mp hr
  exact hf r₀ (h r₀ hr₀)

theorem AllDated.step {c : CallRegistry} (op : CallOp) (h : AllDated op.time c.records) :
    AllDated op.time (callStep c op).records := by
  cases op with
  | receiveOffer call offer createdAt expiresAt now retention =>
    exact h.receiveOffer call offer createdAt expiresAt retention
  | receiveResume call offer createdAt expiresAt now =>
    exact h.receiveResume call offer createdAt expiresAt
  | transition call offer phase now => exact h.transition call offer phase
  | recordTerminal call offer reason now retention =>
    exact h.recordTerminal call offer reason retention
  | expire now retention =>
    exact AllDated.purge (c := ⟨_⟩) (AllDated.map h fun r hr => hr.expire retention)
  | retainWithin now retention =>
    exact AllDated.purge (c := ⟨_⟩) (AllDated.map h fun r hr => hr.retain retention)
  | purge now => exact AllDated.purge h

/-- In a run whose clock does not go back every record is dated. -/
theorem allDated_run {ops : List CallOp} (htime : (ops.map (·.time)).Pairwise (· ≤ ·)) {now : ℕ}
    (hnow : ∀ op ∈ ops, op.time ≤ now) : AllDated now (registryAfter ops).records := by
  induction ops using List.reverseRecOn generalizing now with
  | nil => simp [AllDated, registryAfter]
  | append_singleton ops op ih =>
    rw [List.map_append, List.pairwise_append] at htime
    have hbefore : ∀ o ∈ ops, o.time ≤ op.time := fun o ho =>
      htime.2.2 o.time (List.mem_map_of_mem ho) op.time (by simp)
    have hlast := AllDated.step op (ih htime.1 hbefore)
    rw [registryAfter, Trace.run_snoc]
    exact hlast.mono (hnow op (by simp))

/-! ### The result -/

/-- A run of the registry whose clock does not go back and that never holds the
cap of records. -/
structure SteadyRun (ops : List CallOp) : Prop where
  time : (ops.map (·.time)).Pairwise (· ≤ ·)
  room : ∀ pre, pre <+: ops → (registryAfter pre).records.length < maxCallRecords

section steady

variable {pre mid post : List CallOp} {op : CallOp}

theorem SteadyRun.before (h : SteadyRun (pre ++ op :: post)) : ∀ o ∈ pre, o.time ≤ op.time := by
  have htime := h.time
  rw [List.map_append, List.pairwise_append] at htime
  exact fun o ho => htime.2.2 o.time (List.mem_map_of_mem ho) op.time (by simp)

theorem SteadyRun.after (h : SteadyRun (pre ++ op :: post)) : ∀ o ∈ post, op.time ≤ o.time := by
  have htime := h.time
  rw [List.map_append, List.pairwise_append, List.map_cons, List.pairwise_cons] at htime
  exact fun o ho => htime.2.1.1 o.time (List.mem_map_of_mem ho)

/-- What is watched from `t` on after an operation lets no later offer of the call ring
that was made up to `t + 15`. -/
theorem SteadyRun.ring_is_late {call offer : String} {createdAt expiresAt now retention t : ℕ}
    (h : SteadyRun (pre ++ op :: (mid ++ .receiveOffer call offer createdAt expiresAt now retention :: post)))
    (ht : t ≤ op.time) (hw : Watched t call (registryAfter (pre ++ [op])))
    (hring : ((registryAfter (pre ++ op :: mid)).receiveOffer call offer createdAt expiresAt now retention).1 = .ring) :
    t + 15 < createdAt := by
  refine Sona.ring_is_late hring fun hn => ?_
  have hassoc : pre ++ op ::
      (mid ++ .receiveOffer call offer createdAt expiresAt now retention :: post) =
      (pre ++ op :: mid) ++ .receiveOffer call offer createdAt expiresAt now retention :: post := by
        simp
  have hlast : ∀ o ∈ mid, o.time ≤ now := fun o ho => (hassoc ▸ h).before o (by simp [ho])
  have hfirst : ∀ o ∈ mid, t ≤ o.time := fun o ho => Nat.le_trans ht (h.after o (by simp [ho]))
  have hrun : registryAfter (pre ++ op :: mid) =
      Trace.run callStep (registryAfter (pre ++ [op])) mid := by
    rw [registryAfter, registryAfter, ← Trace.run_append]
    simp
  rw [hrun]
  -- every operation in between comes within the time of the tombstone
  refine Trace.Along.inv (C := fun c o => t ≤ o.time ∧ o.time < saturatingAdd t minTombstoneSecs ∧
    c.records.length < maxCallRecords) (fun c o hc ho => hc.step o ho.1 ho.2.1 ho.2.2) hw ?_
  refine Trace.along_of_split _ _ _ _ fun qs o rest hmid => ?_
  have ho : o ∈ mid := by simp [hmid]
  refine ⟨hfirst o ho, Nat.lt_of_le_of_lt (hlast o ho) hn, ?_⟩
  rw [registryAfter, ← Trace.run_append]
  refine h.room _ ?_
  rw [hmid]
  exact ⟨o :: rest ++ .receiveOffer call offer createdAt expiresAt now retention :: post, by simp⟩

end steady

/-- **No late ring.** In a run whose clock does not go back and that never holds
the cap of records: after a terminal that was applied at `t`, no offer of the
call made up to the skew after `t` rings; after a duplicate terminal, none made
up to the skew after the time the call ended; and after an offer that rang at
`t` no offer of the pair made up to `t + 15` rings, no copy of the first among them. -/
theorem no_late_ring (ops : List CallOp) (h : SteadyRun ops) :
    (∀ pre mid post call offer reason reason' t retention createdAt expiresAt now retention',
      ops = pre ++ .recordTerminal call offer reason t retention ::
        (mid ++ .receiveOffer call offer createdAt expiresAt now retention' :: post) →
      ((registryAfter pre).recordTerminal call offer reason t retention).1 = .applied reason' →
      createdAt ≤ t + callClockSkewSecs →
      ((registryAfter (pre ++ .recordTerminal call offer reason t retention :: mid)).receiveOffer
        call offer createdAt expiresAt now retention').1 ≠ .ring) ∧
    (∀ pre mid post call offer reason existing t retention createdAt expiresAt now retention' record,
      ops = pre ++ .recordTerminal call offer reason t retention ::
        (mid ++ .receiveOffer call offer createdAt expiresAt now retention' :: post) →
      ((registryAfter pre).recordTerminal call offer reason t retention).1 = .duplicate existing →
      ((registryAfter pre).purge t).records.find? (·.isOf call) = some record →
      createdAt ≤ record.updatedAt + callClockSkewSecs →
      ((registryAfter (pre ++ .recordTerminal call offer reason t retention :: mid)).receiveOffer
        call offer createdAt expiresAt now retention').1 ≠ .ring) ∧
    (∀ pre mid post call offer createdAt expiresAt t retention createdAt' expiresAt' now retention',
      ops = pre ++ .receiveOffer call offer createdAt expiresAt t retention ::
        (mid ++ .receiveOffer call offer createdAt' expiresAt' now retention' :: post) →
      ((registryAfter pre).receiveOffer call offer createdAt expiresAt t retention).1 = .ring →
      createdAt' ≤ t + 15 ∨ createdAt' = createdAt →
      ((registryAfter (pre ++ .receiveOffer call offer createdAt expiresAt t retention :: mid)).receiveOffer
        call offer createdAt' expiresAt' now retention').1 ≠ .ring) := by
  refine ⟨?_, ?_, ?_⟩
  · rintro pre mid post call offer reason reason' t retention createdAt expiresAt now retention' rfl happ hc hring
    have hw : Watched t call (registryAfter (pre ++ [.recordTerminal call offer reason t retention])) := by
      rw [registryAfter, Trace.run_snoc]
      exact recordTerminal_applied happ
    have hlate := h.ring_is_late (t := t) le_rfl hw hring
    simp only [callClockSkewSecs] at hc
    omega
  · rintro pre mid post call offer reason existing t retention createdAt expiresAt now retention' record rfl hdup hfind hc
      hring
    have hmem := List.mem_of_find?_eq_some hfind
    have htime := h.time
    rw [List.map_append, List.pairwise_append] at htime
    have hset := AllDated.purge (allDated_run htime.1 h.before) record hmem
    have hw : Watched record.updatedAt call
        (registryAfter (pre ++ [.recordTerminal call offer reason t retention])) := by
      rw [registryAfter, Trace.run_snoc]
      change Watched record.updatedAt call
        ((registryAfter pre).recordTerminal call offer reason t retention).2
      rw [recordTerminal_duplicate hdup]
      have hid := List.find?_some hfind
      exact ⟨record, hmem, by simpa [CallRecord.isOf] using hid, hset.1⟩
    have hlate := h.ring_is_late hset.2 hw hring
    simp only [callClockSkewSecs] at hc
    omega
  · rintro pre mid post call offer createdAt expiresAt t retention createdAt' expiresAt' now retention' rfl hfirst hc hring
    obtain ⟨-, -, -, hcreated, -, hwatched⟩ := receiveOffer_ring hfirst
    have hw : Watched t call
        (registryAfter (pre ++ [.receiveOffer call offer createdAt expiresAt t retention])) := by
      rw [registryAfter, Trace.run_snoc]
      exact hwatched
    have hlate := h.ring_is_late (t := t) le_rfl hw hring
    have hskew := Nat.le_trans hcreated (saturatingAdd_le t callClockSkewSecs)
    simp only [callClockSkewSecs] at hskew
    omega

/-! ### Concrete runs -/

def sampleCall : String := "01010101010101010101010101010101"

def sampleOffer : String := "02020202020202020202020202020202"

/-- The terminal comes before the offer it ends. -/
def terminalFirst : List CallOp :=
  [.recordTerminal sampleCall sampleOffer .callerCancelled 100 0, .receiveOffer sampleCall sampleOffer 98 143 110 0]

theorem steady_of_decided {ops : List CallOp} (ht : (ops.map (·.time)).Pairwise (· ≤ ·))
    (hr : ∀ pre ∈ ops.inits, (registryAfter pre).records.length < maxCallRecords) : SteadyRun ops :=
  ⟨ht, fun pre hpre => hr pre ((List.mem_inits _ _).mpr hpre)⟩

theorem no_late_ring_terminal_first :
    ((registryAfter []).recordTerminal sampleCall sampleOffer .callerCancelled 100 0).1 =
      .applied .callerCancelled ∧
      ((registryAfter [.recordTerminal sampleCall sampleOffer .callerCancelled 100 0]).receiveOffer
        sampleCall sampleOffer 98 143 110 0).1 ≠ .ring := by
  have happ : ((registryAfter []).recordTerminal sampleCall sampleOffer .callerCancelled 100 0).1 =
      .applied .callerCancelled := by decide +kernel
  have hsteady : SteadyRun terminalFirst := steady_of_decided (by decide) (by decide +kernel)
  exact ⟨happ, (no_late_ring terminalFirst hsteady).1 [] [] [] sampleCall sampleOffer .callerCancelled .callerCancelled
    100 0 98 143 110 0 rfl happ (by decide)⟩

/-- After any terminal, applied or duplicate, no offer made up to the skew after it rings. -/
def NoRingAfterTerminal (ops : List CallOp) : Prop :=
  ∀ pre mid post call offer reason reason' t retention createdAt expiresAt now retention',
    ops = pre ++ .recordTerminal call offer reason t retention ::
      (mid ++ .receiveOffer call offer createdAt expiresAt now retention' :: post) →
    ((registryAfter pre).recordTerminal call offer reason t retention).1 = .applied reason' ∨
      ((registryAfter pre).recordTerminal call offer reason t retention).1 = .duplicate reason' →
    createdAt ≤ t + callClockSkewSecs →
    ((registryAfter (pre ++ .recordTerminal call offer reason t retention :: mid)).receiveOffer
      call offer createdAt expiresAt now retention').1 ≠ .ring

/-- No two offers of a pair ring. -/
def RingsOnce (ops : List CallOp) : Prop :=
  ∀ pre mid post call offer createdAt expiresAt t retention createdAt' expiresAt' now retention',
    ops = pre ++ .receiveOffer call offer createdAt expiresAt t retention ::
      (mid ++ .receiveOffer call offer createdAt' expiresAt' now retention' :: post) →
    ((registryAfter pre).receiveOffer call offer createdAt expiresAt t retention).1 = .ring →
    ((registryAfter (pre ++ .receiveOffer call offer createdAt expiresAt t retention :: mid)).receiveOffer
      call offer createdAt' expiresAt' now retention').1 ≠ .ring

/-- The same terminal comes twice; the tombstone of the first is over when the offer comes. -/
def terminalTwice : List CallOp :=
  [.recordTerminal sampleCall sampleOffer .busy 100 0, .recordTerminal sampleCall sampleOffer .busy 160 0,
    .receiveOffer sampleCall sampleOffer 162 200 166 0]

/-- The pair is offered again once its tombstone is over. -/
def offeredAgain : List CallOp :=
  [.receiveOffer sampleCall sampleOffer 100 145 100 0, .recordTerminal sampleCall sampleOffer .busy 101 0,
    .receiveOffer sampleCall sampleOffer 170 215 170 0]

/-- A duplicate terminal does not renew the tombstone, and a call whose tombstone
is over is forgotten: neither property holds of every run. -/
theorem duplicate_terminal_does_not_renew :
    (¬ ∀ ops, SteadyRun ops → NoRingAfterTerminal ops) ∧
    ¬ ∀ ops, SteadyRun ops → RingsOnce ops := by
  constructor
  · intro h
    have hsteady : SteadyRun terminalTwice := steady_of_decided (by decide) (by decide +kernel)
    exact h terminalTwice hsteady [.recordTerminal sampleCall sampleOffer .busy 100 0] [] [] sampleCall sampleOffer .busy
      .busy 160 0 162 200 166 0 rfl (Or.inr (by decide +kernel)) (by decide) (by decide +kernel)
  · intro h
    have hsteady : SteadyRun offeredAgain := steady_of_decided (by decide) (by decide +kernel)
    exact h offeredAgain hsteady [] [.recordTerminal sampleCall sampleOffer .busy 101 0] [] sampleCall sampleOffer 100 145
      100 0 170 215 170 0 rfl (by decide +kernel) (by decide +kernel)

end Sona
