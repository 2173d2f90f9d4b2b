/-
# The call-control store

`client-core/src/callcapsule.rs` and `callstore.rs`: the capsule that makes a
locked device ring, and what the call subsystem keeps over a process death: the
rings that are pending, the registry of calls, and an outbox of declines that
wait for delivery. The store has one list for each, with a bound on its length,
and everything in it has a shape (`CallStore.bounded`) that is checked when a
store is opened and nowhere else.

The shape holds of every store that can be reached (`bounded_run`): what is
pushed was checked as a capsule or as a decline, and the attempts of an entry
are counted up only after the entries that used them up were dropped.

Key definitions: `CallCapsule`, `PendingRing`, `CallStore`, `CallStoreOp`, `callStoreStep`.
-/
import Mathlib.Tactic.IntervalCases
import Sona.Registry

namespace Sona

/-! ### Capsules -/

def capsuleVersion : ℕ := 1

def maxDisplayName : ℕ := 64

/-- Largest capsule that is opened. -/
def maxCapsuleBytes : ℕ := 4096

/-- The primary's id or a random one. -/
def validDeviceId (deviceId : String) : Bool := deviceId == primaryDeviceId || validCallId deviceId

/-- `u8::is_ascii_hexdigit`. -/
def isHexByte (b : UInt8) : Bool := (48 ≤ b && b ≤ 57) || (97 ≤ b && b ≤ 102) || (65 ≤ b && b ≤ 70)

inductive CapsuleKind
  | offer
  | terminal
deriving DecidableEq, Repr

inductive CapsuleSigner
  | roster
  | callKey
deriving DecidableEq, Repr

/-- The sealed contents of a capsule; `caller` is the field `from`. -/
structure CallCapsule where
  v : ℕ
  kind : CapsuleKind
  callInstanceId : String
  offerId : String
  ringHandle : String
  caller : String
  callerIdentityKey : String
  callerDeviceId : String
  toDeviceId : String
  video : Bool
  group : Bool
  displayName : String
  createdAt : ℕ
  ringExpiresAt : ℕ
  expiresAt : ℕ
  replyToMailbox : String
  replyCallMailbox : String
  replyCallKey : String
  signer : CapsuleSigner
  reason : Option CallTerminalReason
  nonce : String
  signature : String
deriving DecidableEq, Repr

/-- The call-only key may end a ring by declining, and do nothing else. -/
def CallCapsule.signerAllowed (c : CallCapsule) : Bool :=
  c.signer == .roster ||
    (c.kind == .terminal && (c.reason == some .declinedHere || c.reason == some .busy))

def CallCapsule.wellFormed (c : CallCapsule) : Bool :=
  c.v == capsuleVersion && validCallId c.callInstanceId && validCallId c.offerId &&
  validCallId c.ringHandle &&
    validCallId c.nonce && validDeviceId c.callerDeviceId && validDeviceId c.toDeviceId &&
    !c.caller.isEmpty &&
    (utf8 c.caller).length ≤ 64 && (!c.callerIdentityKey.isEmpty || c.signer == .callKey) &&
    (utf8 c.callerIdentityKey).length ≤ 64 && (utf8 c.displayName).length ≤ maxDisplayName &&
    (utf8 c.replyToMailbox).length == 64 && (utf8 c.replyToMailbox).all isHexByte &&
    (c.replyCallMailbox.isEmpty ||
      ((utf8 c.replyCallMailbox).length == 64 && (utf8 c.replyCallMailbox).all isHexByte)) &&
    (utf8 c.replyCallKey).length ≤ 64 && !c.signature.isEmpty && (utf8 c.signature).length ≤ 128 &&
    validSignalDeadline c.createdAt c.expiresAt && c.signerAllowed &&
    match c.kind with
    | .offer => c.reason.isNone && validOfferDeadline c.createdAt c.ringExpiresAt
    | .terminal => c.reason.isSome

/-! ### The store -/

def maxPendingRings : ℕ := 8

def maxOutbox : ℕ := 32

def maxOutboxAttempts : ℕ := 6

def outboxBackoffSecs : List ℕ := [1, 2, 4, 8, 16]

/-- How long past its deadline a ring is kept. -/
def crashGraceSecs : ℕ := 30

/-- A ring that is presented, or was when the process died. -/
structure PendingRing where
  callInstanceId : String
  offerId : String
  ringHandle : String
  caller : String
  displayName : String
  video : Bool
  group : Bool
  callerDeviceId : String
  replyToMailbox : String
  replyCallMailbox : String
  replyCallKey : String
  createdAt : ℕ
  ringExpiresAt : ℕ
  presentedAs : Option String
deriving DecidableEq, Repr

/-- The reply route of a capsule, if it is the caller's own. -/
def checkedReplyRoute (H : Sha256) (capsule : CallCapsule) : String :=
  match callMailboxHash H (H.hex (utf8 capsule.caller)) capsule.callerDeviceId with
  | some derived => if derived.asStr == capsule.replyCallMailbox then derived.asStr else ""
  | none => ""

def PendingRing.fromCapsule (H : Sha256) (capsule : CallCapsule) : PendingRing where
  callInstanceId := capsule.callInstanceId
  offerId := capsule.offerId
  ringHandle := capsule.ringHandle
  caller := capsule.caller
  displayName := capsule.displayName
  video := capsule.video
  group := capsule.group
  callerDeviceId := capsule.callerDeviceId
  replyToMailbox := capsule.replyToMailbox
  replyCallMailbox := checkedReplyRoute H capsule
  replyCallKey := capsule.replyCallKey
  createdAt := capsule.createdAt
  ringExpiresAt := capsule.ringExpiresAt
  presentedAs := none

def PendingRing.wellFormed (r : PendingRing) : Bool :=
  validCallId r.callInstanceId && validCallId r.offerId && validCallId r.ringHandle &&
  validDeviceId r.callerDeviceId &&
    !r.caller.isEmpty && (utf8 r.caller).length ≤ 64 &&
    (utf8 r.displayName).length ≤ maxDisplayName &&
    (utf8 r.replyToMailbox).length == 64 && r.ringExpiresAt > r.createdAt

def PendingRing.isOf (callInstanceId : String) (r : PendingRing) : Bool :=
  r.callInstanceId == callInstanceId

/-- The ring is not yet past its crash grace. -/
def PendingRing.inGrace (now : ℕ) (r : PendingRing) : Bool :=
  saturatingAdd r.ringExpiresAt crashGraceSecs > now

structure CapsulePost where
  callMailbox : String
  callKey : String
  plaintext : Bytes
  expiresAt : ℕ
deriving DecidableEq, Repr

structure OutboxEntry where
  id : String
  post : CapsulePost
  attempts : ℕ
  nextAttemptAt : ℕ
deriving DecidableEq, Repr

def CapsulePost.wellFormed (p : CapsulePost) : Bool :=
  p.plaintext.length ≤ maxCapsuleBytes && (utf8 p.callMailbox).length == 64 &&
  (utf8 p.callMailbox).all isHexByte &&
    !p.callKey.isEmpty && (utf8 p.callKey).length ≤ 64

def OutboxEntry.wellFormed (e : OutboxEntry) : Bool :=
  validCallId e.id && e.attempts ≤ maxOutboxAttempts && e.post.wellFormed

/-- The entry has attempts and time left. -/
def OutboxEntry.alive (now : ℕ) (e : OutboxEntry) : Bool :=
  e.attempts < maxOutboxAttempts && e.post.expiresAt > now

structure CallStore where
  accountHash : String
  username : String := ""
  deviceId : String
  rings : List PendingRing := []
  registry : CallRegistry := {}
  outbox : List OutboxEntry := []
deriving DecidableEq, Repr

/-- Every bound and shape. -/
def CallStore.bounded (s : CallStore) : Bool :=
  s.rings.length ≤ maxPendingRings && s.outbox.length ≤ maxOutbox &&
  s.registry.records.length ≤ maxCallRecords &&
    (utf8 s.accountHash).length ≤ 64 && (utf8 s.username).length ≤ 64 && validDeviceId s.deviceId &&
    s.rings.all (·.wellFormed) && s.outbox.all (·.wellFormed)

def CallStore.validated (s : CallStore) : Option CallStore := if s.bounded then some s else none

/-- The oldest items go until one more fits below the cap. -/
def makeFit {α : Type} (cap : ℕ) (items : List α) : List α := items.drop (items.length + 1 - cap)

def CallStore.recordOffer (H : Sha256) (s : CallStore) (capsule : CallCapsule)
    (now retentionSecs : ℕ) :
    OfferDecision × CallStore :=
  if capsule.kind ≠ .offer then (.invalid, s) else
  let (decision, registry) := s.registry.receiveOffer capsule.callInstanceId capsule.offerId capsule.createdAt
    capsule.ringExpiresAt now retentionSecs
  if decision = .ring then
    (decision, { s with registry, rings := makeFit maxPendingRings s.rings ++ [PendingRing.fromCapsule H capsule] })
  else (decision, { s with registry })

def CallStore.takeRing (s : CallStore) (callInstanceId : String) : Option PendingRing × CallStore :=
  match s.rings.findIdx? (·.isOf callInstanceId) with
  | none => (none, s)
  | some i => (s.rings[i]?, { s with rings := s.rings.eraseIdx i })

/-- The decision says that the call is over. -/
def TerminalDecision.ended : TerminalDecision → Bool
  | .applied _ | .duplicate _ => true
  | _ => false

def CallStore.recordTerminal (s : CallStore) (callInstanceId offerId : String)
    (reason : CallTerminalReason) (now retentionSecs : ℕ) :
    TerminalDecision × Option PendingRing × CallStore :=
  let (decision, registry) := s.registry.recordTerminal callInstanceId offerId reason now retentionSecs
  let s := { s with registry }
  if decision.ended then (decision, s.takeRing callInstanceId) else (decision, none, s)

def CallStore.markPresented (s : CallStore) (callInstanceId presentedAs : String) : CallStore :=
  match s.rings.findIdx? (·.isOf callInstanceId) with
  | none => s
  | some i => { s with rings := s.rings.modify i fun r => { r with presentedAs := some presentedAs } }

def CallStore.reapOutbox (s : CallStore) (now : ℕ) : CallStore :=
  { s with outbox := s.outbox.filter (·.alive now) }

/-- What a restart owes the platform. -/
structure Reconciliation where
  present : List PendingRing
  cancel : List String
deriving DecidableEq, Repr

def CallRegistry.terminalReason (c : CallRegistry) (callInstanceId : String) :
    Option CallTerminalReason :=
  match c.records.find? (·.isOf callInstanceId) with
  | some record =>
    match record.state with
    | .terminal reason _ => some reason
    | .live _ => none
  | none => none

/-- The ring's call has ended, or its window has. -/
def PendingRing.over (registry : CallRegistry) (expired : List String) (now : ℕ) (r : PendingRing) :
    Bool :=
  (registry.terminalReason r.callInstanceId).isSome || expired.contains r.callInstanceId ||
  r.ringExpiresAt ≤ now

/-- The id to take down for a ring that is over: of one that was shown, within the grace. -/
def PendingRing.cancels (now : ℕ) (r : PendingRing) : Option String :=
  if r.inGrace now then r.presentedAs else none

def CallStore.reconcile (s : CallStore) (now retentionSecs : ℕ) : Reconciliation × CallStore :=
  let (expired, registry) := s.registry.expire now retentionSecs
  let keep := s.rings.filter fun r => !r.over registry expired now
  let gone := s.rings.filter fun r => r.over registry expired now
  ({ present := keep, cancel := gone.filterMap (·.cancels now) },
    { s with registry, rings := keep }.reapOutbox now)

/-- `random_call_id`: 16 random bytes in hex. -/
structure RandomId where
  bytes : Bytes
  length : bytes.length = 16

def hexLower (bytes : Bytes) : String :=
  String.ofList (bytes.flatMap fun b => [Nat.digitChar (b.toNat / 16), Nat.digitChar (b.toNat % 16)])

def RandomId.callId (r : RandomId) : String := hexLower r.bytes

def CallStore.queueDecline (s : CallStore) (callMailbox callKey : String) (plaintext : Bytes)
    (expiresAt now : ℕ) (random : RandomId) : Bool × CallStore :=
  let post : CapsulePost := { callMailbox, callKey, plaintext, expiresAt }
  if expiresAt ≤ now || post.plaintext.length > maxCapsuleBytes || (utf8 post.callMailbox).length != 64 ||
      !(utf8 post.callMailbox).all isHexByte || post.callKey.isEmpty ||
      (utf8 post.callKey).length > 64 then (false, s) else
  (true, { s with outbox := makeFit maxOutbox s.outbox ++
    [{ id := random.callId, post, attempts := 0, nextAttemptAt := now }] })

/-- The largest `u32`. -/
def u32Max : ℕ := 2 ^ 32 - 1

/-- One attempt is charged and the next is set. -/
def OutboxEntry.charge (now : ℕ) (e : OutboxEntry) : OutboxEntry :=
  { e with
      attempts := min (e.attempts + 1) u32Max,
      nextAttemptAt := saturatingAdd now (outboxBackoffSecs.getD e.attempts 0) }

def CallStore.takeDue (s : CallStore) (now : ℕ) : List (String × CapsulePost) × CallStore :=
  let s := s.reapOutbox now
  ((s.outbox.filter fun e => e.nextAttemptAt ≤ now).map fun e => (e.id, e.post),
    { s with outbox := s.outbox.map fun e => if e.nextAttemptAt > now then e else e.charge now })

def CallStore.delivered (s : CallStore) (ids : List String) : CallStore :=
  { s with outbox := s.outbox.filter fun e => !ids.contains e.id }

def CallStore.cleanup (s : CallStore) (now retentionSecs : ℕ) : Bool × CallStore :=
  let (expired, registry) := s.registry.expire now retentionSecs
  let after := { s with registry := registry.retainWithin now retentionSecs
                        rings := s.rings.filter (·.inGrace now) }.reapOutbox now
  (!expired.isEmpty || after.registry.records.length != s.registry.records.length ||
    after.rings.length != s.rings.length || after.outbox.length != s.outbox.length, after)

/-! ### Runs -/

/-- The calls on the store. -/
inductive CallStoreOp
  | recordOffer (capsule : CallCapsule) (now retentionSecs : ℕ)
  | recordTerminal (callInstanceId offerId : String) (reason : CallTerminalReason)
      (now retentionSecs : ℕ)
  | markPresented (callInstanceId presentedAs : String)
  | takeRing (callInstanceId : String)
  | queueDecline (callMailbox callKey : String) (plaintext : Bytes) (expiresAt now : ℕ)
      (random : RandomId)
  | takeDue (now : ℕ)
  | delivered (ids : List String)
  | reconcile (now retentionSecs : ℕ)
  | cleanup (now retentionSecs : ℕ)

/-- The time an operation is given, if it is given one. -/
def CallStoreOp.now? : CallStoreOp → Option ℕ
  | .recordOffer _ now _ | .recordTerminal _ _ _ now _ | .queueDecline _ _ _ _ now _ | .takeDue now
  | .reconcile now _ | .cleanup now _ => some now
  | .markPresented _ _ | .takeRing _ | .delivered _ => none

/-- The capsule of an offer is well formed, as the one that was decoded is. -/
def CallStoreOp.decoded : CallStoreOp → Prop
  | .recordOffer capsule _ _ => capsule.wellFormed = true
  | _ => True

def callStoreStep (H : Sha256) (s : CallStore) : CallStoreOp → CallStore
  | .recordOffer capsule now retention => (s.recordOffer H capsule now retention).2
  | .recordTerminal call offer reason now retention =>
    (s.recordTerminal call offer reason now retention).2.2
  | .markPresented call presentedAs => s.markPresented call presentedAs
  | .takeRing call => (s.takeRing call).2
  | .queueDecline mailbox key plaintext expiresAt now random =>
    (s.queueDecline mailbox key plaintext expiresAt now random).2
  | .takeDue now => (s.takeDue now).2
  | .delivered ids => s.delivered ids
  | .reconcile now retention => (s.reconcile now retention).2
  | .cleanup now retention => (s.cleanup now retention).2

/-- A store as it is made: `new`, with the name of the account filled in. -/
def CallStore.new (accountHash username deviceId : String) : CallStore :=
  { accountHash, username, deviceId }

/-- The store after the calls `ops`. -/
def callStoreAfter (H : Sha256) (start : CallStore) (ops : List CallStoreOp) : CallStore :=
  Trace.run (callStoreStep H) start ops

/-! ### The shape -/

/-- What the shape asks for that an operation could break. -/
structure CallStore.Shaped (s : CallStore) : Prop where
  rings : s.rings.length ≤ maxPendingRings
  outbox : s.outbox.length ≤ maxOutbox
  registry : RegistryOk s.registry
  ringsOk : ∀ r ∈ s.rings, r.wellFormed = true
  outboxOk : ∀ e ∈ s.outbox, e.wellFormed = true

theorem RegistryOk.step {c : CallRegistry} (h : RegistryOk c) (op : CallOp) :
    RegistryOk (callStep c op) :=
  h.write (callStep_writes h.count op)

theorem makeFit_length {α : Type} {cap : ℕ} (hcap : 0 < cap) (items : List α) (item : α) :
    (makeFit cap items ++ [item]).length ≤ cap := by
  simp only [makeFit, List.length_append, List.length_drop, List.length_singleton]
  omega

theorem makeFit_subset {α : Type} (cap : ℕ) (items : List α) : makeFit cap items ⊆ items :=
  List.drop_subset _ _

/-- The ring of a well formed offer is well formed. -/
theorem fromCapsule_wellFormed (H : Sha256) {capsule : CallCapsule} (hw : capsule.wellFormed = true)
    (hk : capsule.kind = .offer) : (PendingRing.fromCapsule H capsule).wellFormed = true := by
  unfold CallCapsule.wellFormed at hw
  rw [hk] at hw
  simp only [Bool.and_eq_true] at hw
  unfold PendingRing.wellFormed PendingRing.fromCapsule
  have hdeadline : capsule.ringExpiresAt > capsule.createdAt := by
    have hvalid := hw.2.2
    unfold validOfferDeadline at hvalid
    simp only [Bool.and_eq_true, decide_eq_true_eq] at hvalid
    exact hvalid.1
  simp only [Bool.and_eq_true, decide_eq_true_eq]
  simp only [decide_eq_true_eq] at hw
  tauto

theorem isHexByte_digitChar {n : ℕ} (h : n < 16) :
    ∃ b : UInt8, String.utf8EncodeChar (Nat.digitChar n) = [b] ∧
    ((48 ≤ b && b ≤ 57) || (97 ≤ b && b ≤ 102)) = true := by
  interval_cases n <;> exact ⟨_, rfl, by decide⟩

/-- A random id is valid. -/
theorem RandomId.valid (r : RandomId) : validCallId r.callId = true := by
  have hbytes : ∀ l : Bytes, (utf8 (hexLower l)).length = 2 * l.length ∧
      ((utf8 (hexLower l)).all fun b => (48 ≤ b && b ≤ 57) || (97 ≤ b && b ≤ 102)) = true := by
    intro l
    unfold hexLower
    rw [utf8_toList, String.toList_ofList]
    induction l with
    | nil => exact ⟨rfl, rfl⟩
    | cons b l ih =>
      have hhigh : b.toNat / 16 < 16 := by
        have := b.toNat_lt
        omega
      obtain ⟨c, hc, hcok⟩ := isHexByte_digitChar hhigh
      obtain ⟨d, hd, hdok⟩ := isHexByte_digitChar (n := b.toNat % 16) (Nat.mod_lt _ (by decide))
      simp only [List.flatMap_cons, List.cons_append, List.nil_append, hc, hd, List.length_cons,
        List.all_cons, hcok, hdok, Bool.true_and]
      exact ⟨by omega, ih.2⟩
  unfold validCallId RandomId.callId
  rw [(hbytes r.bytes).1, (hbytes r.bytes).2, r.length]
  rfl

theorem mem_modify {α : Type} {f : α → α} {i : ℕ} {a : α} {l : List α} (h : a ∈ l.modify i f) :
    a ∈ l ∨ ∃ b ∈ l, a = f b := by
  obtain ⟨j, hj, rfl⟩ := List.getElem_of_mem h
  rw [List.length_modify] at hj
  rw [List.getElem_modify]
  split
  · exact Or.inr ⟨l[j], List.getElem_mem hj, rfl⟩
  · exact Or.inl (List.getElem_mem hj)

section shape

variable {s : CallStore} (h : s.Shaped)
include h

theorem CallStore.Shaped.withRegistry {registry : CallRegistry} (hr : RegistryOk registry) :
    CallStore.Shaped { s with registry } := { h with registry := hr }

theorem CallStore.Shaped.withRings {rings : List PendingRing} (hr : rings.Sublist s.rings) :
    CallStore.Shaped { s with rings } :=
  { h with
      rings := hr.length_le.trans h.rings,
      ringsOk := fun r hmem => h.ringsOk r (hr.subset hmem) }

theorem CallStore.Shaped.withOutbox {outbox : List OutboxEntry} (ho : outbox.Sublist s.outbox) :
    CallStore.Shaped { s with outbox } :=
  { h with
      outbox := ho.length_le.trans h.outbox,
      outboxOk := fun e hmem => h.outboxOk e (ho.subset hmem) }

theorem CallStore.Shaped.reapOutbox (now : ℕ) : (s.reapOutbox now).Shaped :=
  h.withOutbox List.filter_sublist

theorem CallStore.Shaped.takeRing (call : String) : (s.takeRing call).2.Shaped := by
  unfold CallStore.takeRing
  split
  · exact h
  · exact h.withRings (List.eraseIdx_sublist _ _)

theorem CallStore.Shaped.recordOffer (H : Sha256) {capsule : CallCapsule}
    (hw : capsule.wellFormed = true) (now retention : ℕ) :
    (s.recordOffer H capsule now retention).2.Shaped := by
  have hreg : RegistryOk (s.registry.receiveOffer capsule.callInstanceId capsule.offerId capsule.createdAt
      capsule.ringExpiresAt now retention).2 := h.registry.step (.receiveOffer _ _ _ _ now retention)
  unfold CallStore.recordOffer
  split
  · exact h
  rename_i hkind
  dsimp only
  split
  · have hr := h.withRegistry hreg
    refine { hr with rings := makeFit_length (by decide) _ _, ringsOk := fun r hmem => ?_ }
    rcases List.mem_append.mp hmem with hmem | hmem
    · exact h.ringsOk r (makeFit_subset _ _ hmem)
    · rw [List.mem_singleton.mp hmem]
      exact fromCapsule_wellFormed H hw (by simpa using hkind)
  · exact h.withRegistry hreg

theorem CallStore.Shaped.recordTerminal (call offer : String) (reason : CallTerminalReason)
    (now retention : ℕ) :
    (s.recordTerminal call offer reason now retention).2.2.Shaped := by
  have hreg : RegistryOk (s.registry.recordTerminal call offer reason now retention).2 :=
    h.registry.step (.recordTerminal call offer reason now retention)
  unfold CallStore.recordTerminal
  dsimp only
  split
  · exact (h.withRegistry hreg).takeRing call
  · exact h.withRegistry hreg

theorem CallStore.Shaped.markPresented (call presentedAs : String) :
    (s.markPresented call presentedAs).Shaped := by
  unfold CallStore.markPresented
  split
  · exact h
  refine { h with rings := ?_, ringsOk := fun r hmem => ?_ }
  · rw [List.length_modify]
    exact h.rings
  · rcases mem_modify hmem with hmem | ⟨r₀, hmem₀, rfl⟩
    · exact h.ringsOk r hmem
    · exact h.ringsOk r₀ hmem₀

theorem CallStore.Shaped.queueDecline (mailbox key : String) (plaintext : Bytes) (expiresAt now : ℕ)
    (random : RandomId) :
    (s.queueDecline mailbox key plaintext expiresAt now random).2.Shaped := by
  unfold CallStore.queueDecline
  dsimp only
  split
  · exact h
  rename_i hvalid
  refine { h with outbox := makeFit_length (by decide) _ _, outboxOk := fun e hmem => ?_ }
  rcases List.mem_append.mp hmem with hmem | hmem
  · exact h.outboxOk e (makeFit_subset _ _ hmem)
  · rw [List.mem_singleton.mp hmem]
    simp only [Bool.or_eq_true, decide_eq_true_eq, not_or, bne_iff_ne, ne_eq, not_not,
      Bool.not_eq_true', Bool.not_eq_false, gt_iff_lt, Nat.not_lt] at hvalid
    simp only [OutboxEntry.wellFormed, CapsulePost.wellFormed, random.valid, Bool.and_eq_true,
      Nat.zero_le, decide_true, beq_iff_eq, decide_eq_true_eq, Bool.not_eq_true']
    obtain ⟨⟨⟨⟨⟨-, hplain⟩, hlen⟩, hhex⟩, hkey⟩, hkeylen⟩ := hvalid
    exact ⟨⟨trivial, trivial⟩, ⟨⟨⟨hplain, hlen⟩, hhex⟩, by simpa using hkey⟩, hkeylen⟩

/-- An entry that is charged had attempts left. -/
theorem CallStore.Shaped.takeDue (now : ℕ) : (s.takeDue now).2.Shaped := by
  have hr := h.reapOutbox now
  refine { hr with outbox := ?_, outboxOk := fun e hmem => ?_ }
  · unfold CallStore.takeDue
    rw [List.length_map]
    exact hr.outbox
  · obtain ⟨e₀, hmem₀, rfl⟩ := List.mem_map.mp hmem
    have hok := hr.outboxOk e₀ hmem₀
    split
    · exact hok
    · have halive := (List.mem_filter.mp hmem₀).2
      simp only [OutboxEntry.alive, Bool.and_eq_true, decide_eq_true_eq] at halive
      simp only [OutboxEntry.wellFormed, OutboxEntry.charge, Bool.and_eq_true,
        decide_eq_true_eq] at hok ⊢
      have hle : min (e₀.attempts + 1) u32Max ≤ maxOutboxAttempts :=
        (min_le_left _ _).trans halive.1
      exact ⟨⟨hok.1.1, decide_eq_true hle⟩, hok.2⟩

theorem CallStore.Shaped.reconcile (now retention : ℕ) : (s.reconcile now retention).2.Shaped := by
  have hreg : RegistryOk (s.registry.expire now retention).2 :=
    h.registry.step (.expire now retention)
  exact ((h.withRings List.filter_sublist).withRegistry hreg).reapOutbox now

theorem CallStore.Shaped.cleanup (now retention : ℕ) : (s.cleanup now retention).2.Shaped := by
  have hexp : RegistryOk (s.registry.expire now retention).2 :=
    h.registry.step (.expire now retention)
  have hreg := hexp.step (.retainWithin now retention)
  exact ((h.withRings List.filter_sublist).withRegistry hreg).reapOutbox now

theorem CallStore.Shaped.step (H : Sha256) {op : CallStoreOp} (hop : op.decoded) :
    (callStoreStep H s op).Shaped := by
  cases op with
  | recordOffer capsule now retention => exact h.recordOffer H hop now retention
  | recordTerminal call offer reason now retention =>
    exact h.recordTerminal call offer reason now retention
  | markPresented call presentedAs => exact h.markPresented call presentedAs
  | takeRing call => exact h.takeRing call
  | queueDecline mailbox key plaintext expiresAt now random =>
    exact h.queueDecline mailbox key plaintext expiresAt now random
  | takeDue now => exact h.takeDue now
  | delivered ids => exact h.withOutbox List.filter_sublist
  | reconcile now retention => exact h.reconcile now retention
  | cleanup now retention => exact h.cleanup now retention

end shape

/-- The account a store is of. -/
def CallStore.account (s : CallStore) : String × String × String :=
  (s.accountHash, s.username, s.deviceId)

theorem takeRing_account (s : CallStore) (call : String) :
    (s.takeRing call).2.account = s.account := by
  unfold CallStore.takeRing
  split <;> rfl

theorem callStoreStep_account (H : Sha256) (s : CallStore) (op : CallStoreOp) :
    (callStoreStep H s op).account = s.account := by
  cases op with
  | recordOffer capsule now retention =>
    simp only [callStoreStep, CallStore.recordOffer]
    split
    · rfl
    split <;> rfl
  | recordTerminal call offer reason now retention =>
    simp only [callStoreStep, CallStore.recordTerminal]
    split
    · exact takeRing_account _ call
    · rfl
  | markPresented call presentedAs =>
    simp only [callStoreStep, CallStore.markPresented]
    split <;> rfl
  | takeRing call => exact takeRing_account s call
  | queueDecline mailbox key plaintext expiresAt now random =>
    simp only [callStoreStep, CallStore.queueDecline]
    split <;> rfl
  | _ => rfl

/-- The fields of the account have the shape that a store is opened with. -/
def AccountOk (accountHash username deviceId : String) : Prop :=
  (utf8 accountHash).length ≤ 64 ∧ (utf8 username).length ≤ 64 ∧ validDeviceId deviceId = true

theorem CallStore.Shaped.bounded {s : CallStore} (h : s.Shaped)
    (ha : AccountOk s.accountHash s.username s.deviceId) :
    s.bounded = true := by
  obtain ⟨hhash, hname, hdevice⟩ := ha
  simp only [CallStore.bounded, Bool.and_eq_true, decide_eq_true_eq, List.all_eq_true]
  exact ⟨⟨⟨⟨⟨⟨⟨h.rings, h.outbox⟩, h.registry.count⟩, hhash⟩, hname⟩, hdevice⟩, h.ringsOk⟩,
    h.outboxOk⟩

/-- **Every store that is reached has the shape that a store is opened with.** -/
theorem bounded_run (H : Sha256) {accountHash username deviceId : String}
    (ha : AccountOk accountHash username deviceId) {ops : List CallStoreOp}
    (hops : ∀ op ∈ ops, op.decoded) :
    (callStoreAfter H (.new accountHash username deviceId) ops).bounded = true := by
  have hstart : (CallStore.new accountHash username deviceId).Shaped :=
    ⟨Nat.zero_le _, Nat.zero_le _, ⟨Nat.zero_le _, List.nodup_nil, fun _ hr => by cases hr⟩,
    fun _ hr => (by cases hr),
      fun _ he => by cases he⟩
  have hrun : ∀ s : CallStore, s.Shaped → s.account = (accountHash, username, deviceId) →
      (callStoreAfter H s ops).Shaped ∧ (callStoreAfter H s ops).account =
      (accountHash, username, deviceId) := by
    induction ops with
    | nil => exact fun s hs hacc => ⟨hs, hacc⟩
    | cons op ops ih =>
      intro s hs hacc
      have hstep := hs.step H (hops op List.mem_cons_self)
      exact ih (fun o ho => hops o (List.mem_cons_of_mem _ ho)) _ hstep
        ((callStoreStep_account H s op).trans hacc)
  obtain ⟨hshape, hacc⟩ := hrun _ hstart rfl
  simp only [CallStore.account, Prod.mk.injEq] at hacc
  obtain ⟨hhash, hname, hdevice⟩ := hacc
  refine hshape.bounded ?_
  rw [hhash, hname, hdevice]
  exact ha

end Sona
