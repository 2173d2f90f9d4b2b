/-
# The Key Transparency log

`kt-log`: signed bindings of a username to its keys (`KtEntry`), signed device
rosters (`KtRosterEntry`), the call-control key of a device (`CallKeyBinding`)
and the append-only log (`KtLog`), which checks a record against the chain of
its name before it takes it. The Merkle tree is modelled by its leaves.

`append_cases` and `appendRoster_cases` say once what an accepted record was
checked for. On a well-formed log (`KtLog.Wf`: the indices of a name point at
its own records) the heads of a name move only with its own records
(`latestBindingFor_append`, `latestRosterFor_appendRoster`).

Key definitions: `KtEntry.verifySignature`, `KtRosterEntry.validateAgainst`,
`KtLog.append`, `KtLog.appendRoster`, `KtLog.Wf`.
-/
import Mathlib.Data.List.Basic
import Sona.Lib.Table
import Sona.Wire

namespace Sona

/-! ### Signatures -/

/-- The cryptography this code is given: SHA-256, and the decoding and
verification of base64 Ed25519 keys and signatures by `ed25519-dalek`
(`b64d`, `verifyStrict`) and by `vodozemac` (`base64Decode`, `vodozemacVerify`). -/
structure Crypto where
  sha : Sha256
  b64d : String → Option Bytes
  /-- The bytes are a key under which the signature of the message is good. -/
  verifyStrict : Bytes → Bytes → Bytes → Bool
  base64Decode : String → Option Bytes
  vodozemacVerify : Bytes → Bytes → Bytes → Bool

/-- `verify_ed25519`: keys of 32 bytes, signatures of 64, false on anything malformed. -/
def Crypto.verifyEd25519 (C : Crypto) (verifyingKey : String) (message : Bytes)
    (signature : String) : Bool :=
  match C.b64d verifyingKey, C.b64d signature with
  | some vk, some sig =>
    if vk.length = 32 ∧ sig.length = 64 then C.verifyStrict vk message sig else false
  | _, _ => false

/-- `u64::to_be_bytes`. -/
def beBytes (n : ℕ) : Bytes := (List.range 8).map fun i => UInt8.ofNat (n / 256 ^ (7 - i))

/-- A field behind its length. -/
def pushField (field : String) : Bytes := beBytes (utf8 field).length ++ utf8 field

/-! ### Bindings -/

structure KtEntry where
  seq : ℕ
  usernameHash : String
  identityKey : String
  signingKey : String
  prevSigningKey : Option String
  timestamp : ℕ
  released : Bool
  signature : String
deriving DecidableEq, Repr

def KtEntry.signingPayload (e : KtEntry) : Bytes :=
  utf8 "sona-kt-entry-v1" ++ beBytes e.seq ++ pushField e.usernameHash ++ pushField e.identityKey ++
    pushField e.signingKey ++ pushField (e.prevSigningKey.getD "") ++ beBytes e.timestamp ++
    (if e.released then utf8 "|released" else [])

def KtEntry.leafBytes (e : KtEntry) : Bytes := e.signingPayload ++ utf8 "|sig|" ++ utf8 e.signature

/-- The key that must have signed the entry: its own for a claim, the one it
supersedes for a rotation. -/
def KtEntry.signer (e : KtEntry) : String := e.prevSigningKey.getD e.signingKey

def KtEntry.verifySignature (C : Crypto) (e : KtEntry) : Bool :=
  C.verifyEd25519 e.signer e.signingPayload e.signature

/-! ### Rosters -/

/-- Devices an account may list. -/
def maxDevices : ℕ := 8

structure DeviceRecord where
  deviceId : String
  identityKey : String
  signingKey : String
  addedAt : ℕ
  signature : String
deriving DecidableEq, Repr

def DeviceRecord.signingPayload (d : DeviceRecord) (usernameHash : String) : Bytes :=
  utf8 "sona-kt-device-v1" ++ pushField usernameHash ++ pushField d.deviceId ++ pushField d.identityKey ++
    pushField d.signingKey ++ beBytes d.addedAt

def DeviceRecord.verify (C : Crypto) (d : DeviceRecord) (usernameHash : String) : Bool :=
  C.verifyEd25519 d.signingKey (d.signingPayload usernameHash) d.signature

/-- The shape of a device id: the primary's, or 32 lower-case hex characters. -/
def deviceIdOk (deviceId : String) : Bool :=
  deviceId == primaryDeviceId ||
    ((utf8 deviceId).length == 32 && deviceId.toList.all fun c => isAsciiHexdigit c && !c.isUpper)

def DeviceRecord.deviceIdWellFormed (d : DeviceRecord) : Bool := deviceIdOk d.deviceId

structure KtRosterEntry where
  seq : ℕ
  usernameHash : String
  devices : List DeviceRecord
  timestamp : ℕ
  signature : String
deriving DecidableEq, Repr

def KtRosterEntry.signingPayload (r : KtRosterEntry) : Bytes :=
  utf8 "sona-kt-roster-v1" ++ beBytes r.seq ++ pushField r.usernameHash ++ beBytes r.devices.length ++
    (r.devices.flatMap fun d => pushField d.deviceId ++ pushField d.identityKey ++ pushField d.signingKey ++
      beBytes d.addedAt ++ pushField d.signature) ++
    beBytes r.timestamp

def KtRosterEntry.leafBytes (r : KtRosterEntry) : Bytes :=
  utf8 "sona-kt-leaf-roster-v1|" ++ r.signingPayload ++ utf8 "|sig|" ++ utf8 r.signature

inductive RosterError
  | badRosterSignature
  | badDeviceSignature
  | malformed (why : String)
  | bindingMismatch (why : String)
deriving DecidableEq, Repr

def RosterError.message : RosterError → String
  | .badRosterSignature => "roster signature is not by the account's current signing key"
  | .badDeviceSignature => "device record proof-of-possession signature is invalid"
  | .malformed why => "roster is structurally invalid: " ++ why
  | .bindingMismatch why => "roster does not match the account's current KT binding: " ++ why

/-- The loop over the devices: `seen` are the ones before, `primaries` counts
the primary records met. -/
def checkDevices (C : Crypto) (usernameHash : String) (current : KtEntry) (seen : List DeviceRecord)
    (primaries : ℕ) : List DeviceRecord → Except RosterError ℕ
  | [] => .ok primaries
  | d :: ds =>
    if !d.deviceIdWellFormed then .error (.malformed s!"device {seen.length} has a malformed id") else
    if seen.any fun p => p.deviceId == d.deviceId then
      .error (.malformed s!"duplicate device id {d.deviceId}") else
    if d.deviceId = primaryDeviceId ∧
        (d.identityKey ≠ current.identityKey ∨ d.signingKey ≠ current.signingKey) then
      .error (.bindingMismatch "primary device keys do not match the KT-bound account keys") else
    if !d.verify C usernameHash then .error .badDeviceSignature else
    checkDevices C usernameHash current (seen ++ [d])
      (if d.deviceId = primaryDeviceId then primaries + 1 else primaries) ds

def KtRosterEntry.validateAgainst (C : Crypto) (r : KtRosterEntry) (current : KtEntry) :
    Except RosterError Unit :=
  if r.usernameHash ≠ current.usernameHash then .error (.bindingMismatch "username differs") else
  if r.devices.isEmpty ∨ r.devices.length > maxDevices then
    .error (.malformed s!"device count must be 1..={maxDevices}") else
  match checkDevices C r.usernameHash current [] 0 r.devices with
  | .error e => .error e
  | .ok primaries =>
    if primaries ≠ 1 then .error (.malformed "roster must contain exactly one primary device") else
    if !C.verifyEd25519 current.signingKey r.signingPayload r.signature then .error .badRosterSignature else
    .ok ()

/-! ### Call-control keys -/

structure CallKeyBinding where
  deviceId : String
  callKey : String
  callSigningKey : String
  createdAt : ℕ
  signature : String
deriving DecidableEq, Repr

def CallKeyBinding.signingPayload (b : CallKeyBinding) (usernameHash : String) : Bytes :=
  utf8 "sona-call-key-v1" ++ pushField usernameHash ++ pushField b.deviceId ++ pushField b.callKey ++
    pushField b.callSigningKey ++ beBytes b.createdAt

/-- A base64 key of at most 64 characters that decodes to 32 bytes. -/
def callKeyOk (C : Crypto) (key : String) : Bool :=
  decide ((utf8 key).length ≤ 64) && (C.b64d key).any fun k => k.length == 32

def CallKeyBinding.wellFormed (C : Crypto) (b : CallKeyBinding) : Bool :=
  callKeyOk C b.callKey && callKeyOk C b.callSigningKey && deviceIdOk b.deviceId

/-- The binding against a roster of the account: its device is listed and signed it. -/
def CallKeyBinding.verify (C : Crypto) (b : CallKeyBinding) (usernameHash : String)
    (roster : KtRosterEntry) : Bool :=
  if !b.wellFormed C || roster.usernameHash ≠ usernameHash then false else
  match roster.devices.find? fun d => d.deviceId = b.deviceId with
  | none => false
  | some device => C.verifyEd25519 device.signingKey (b.signingPayload usernameHash) b.signature

def CallKeyBinding.supersedes (b previous : CallKeyBinding) : Bool :=
  b.deviceId == previous.deviceId && decide (b.createdAt > previous.createdAt)

/-! ### The log -/

inductive KtRecord
  | binding (entry : KtEntry)
  | roster (roster : KtRosterEntry)
deriving DecidableEq, Repr

inductive AppendError
  | badSignature
  | brokenChain (why : String)
  | roster (e : RosterError)
  /-- The `expect` on an index that is no binding. -/
  | panic (why : String)
deriving DecidableEq, Repr

/-- How long a released name stays reserved, by default. -/
def defaultReleaseGraceSecs : ℕ := 7 * 86400

structure KtLog where
  tree : List Bytes := []
  records : List KtRecord := []
  byUser : Table String (List ℕ) := ∅
  rostersByUser : Table String (List ℕ) := ∅
  releaseGraceSecs : ℕ := defaultReleaseGraceSecs

def KtLog.bindingAt (kt : KtLog) (index : ℕ) : Option KtEntry :=
  match kt.records[index]? with
  | some (.binding e) => some e
  | _ => none

def KtLog.rosterAt (kt : KtLog) (index : ℕ) : Option KtRosterEntry :=
  match kt.records[index]? with
  | some (.roster r) => some r
  | _ => none

/-- The leaves of a name's bindings. -/
def KtLog.bindingIndices (kt : KtLog) (usernameHash : String) : List ℕ :=
  (kt.byUser.get usernameHash).getD []

/-- The leaves of a name's rosters. -/
def KtLog.rosterIndices (kt : KtLog) (usernameHash : String) : List ℕ :=
  (kt.rostersByUser.get usernameHash).getD []

def KtLog.latestIndexFor (kt : KtLog) (usernameHash : String) : Option ℕ :=
  (kt.bindingIndices usernameHash).getLast?

def KtLog.latestRosterIndexFor (kt : KtLog) (usernameHash : String) : Option ℕ :=
  (kt.rosterIndices usernameHash).getLast?

def KtLog.latestRosterFor (kt : KtLog) (usernameHash : String) : Option KtRosterEntry :=
  (kt.latestRosterIndexFor usernameHash).bind kt.rosterAt

/-- The continuity check of `append`. -/
def KtLog.checkChain (kt : KtLog) (entry : KtEntry) : Except AppendError Unit :=
  match kt.latestIndexFor entry.usernameHash with
  | some lastIdx =>
    match kt.bindingAt lastIdx with
    | none => .error (.panic "by_user indices always point at binding leaves")
    | some last =>
      if entry.seq ≠ last.seq + 1 then .error (.brokenChain "sequence not contiguous") else
      match entry.prevSigningKey with
      | some prev =>
        if prev ≠ last.signingKey then
          .error (.brokenChain "prev_signing_key does not match the current key") else .ok ()
      | none =>
        -- a takeover of a released name, once its grace is over
        if !last.released then
          .error (.brokenChain "username is not released — only its owner can rotate it") else
        if entry.timestamp < saturatingAdd last.timestamp kt.releaseGraceSecs then
          .error (.brokenChain "username is released but still inside its grace period") else .ok ()
  | none =>
    if entry.seq ≠ 0 ∨ entry.prevSigningKey.isSome then
      .error (.brokenChain "first entry for a username must be a seq-0 self-claim") else .ok ()

def KtLog.pushBinding (kt : KtLog) (entry : KtEntry) : KtLog :=
  { kt with
    tree := kt.tree ++ [entry.leafBytes]
    byUser := kt.byUser.set entry.usernameHash (kt.bindingIndices entry.usernameHash ++ [kt.records.length])
    records := kt.records ++ [.binding entry] }

def KtLog.append (C : Crypto) (kt : KtLog) (entry : KtEntry) : Except AppendError (ℕ × KtLog) :=
  if !entry.verifySignature C then .error .badSignature else
  match kt.checkChain entry with
  | .error e => .error e
  | .ok () => .ok (kt.records.length, kt.pushBinding entry)

/-- The leaf that started the ownership era of a name: its last self-signed binding. -/
def KtLog.eraStart (kt : KtLog) (usernameHash : String) : ℕ :=
  ((kt.bindingIndices usernameHash).reverse.find? fun i =>
    (kt.bindingAt i).any fun e => e.prevSigningKey.isNone).getD 0

/-- The epoch the next roster of a name must have. -/
def KtLog.expectedSeq (kt : KtLog) (usernameHash : String) : ℕ :=
  match kt.latestRosterIndexFor usernameHash with
  | some i =>
    if i > kt.eraStart usernameHash then
      match kt.rosterAt i with
      | some r => r.seq + 1
      | none => 0
    else 0
  | none => 0

def KtLog.pushRoster (kt : KtLog) (roster : KtRosterEntry) : KtLog :=
  { kt with
    tree := kt.tree ++ [roster.leafBytes]
    rostersByUser :=
      kt.rostersByUser.set roster.usernameHash (kt.rosterIndices roster.usernameHash ++ [kt.records.length])
    records := kt.records ++ [.roster roster] }

def KtLog.appendRoster (C : Crypto) (kt : KtLog) (roster : KtRosterEntry) :
    Except AppendError (ℕ × KtLog) :=
  match (kt.latestIndexFor roster.usernameHash).bind kt.bindingAt with
  | none => .error (.brokenChain "no binding exists for this username")
  | some current =>
    if current.released then .error (.brokenChain "no roster changes on a released username") else
    match roster.validateAgainst C current with
    | .error e => .error (.roster e)
    | .ok () =>
      if roster.seq ≠ kt.expectedSeq roster.usernameHash then
        .error (.brokenChain s!"roster epoch not contiguous (expected {kt.expectedSeq roster.usernameHash})") else
      .ok (kt.records.length, kt.pushRoster roster)

/-- The binding a name stands at. -/
def KtLog.latestBindingFor (kt : KtLog) (usernameHash : String) : Option KtEntry :=
  (kt.latestIndexFor usernameHash).bind kt.bindingAt

/-- The latest roster of the current ownership era of a name. -/
def KtLog.currentRosterFor (kt : KtLog) (usernameHash : String) : Option KtRosterEntry :=
  match kt.latestRosterIndexFor usernameHash with
  | some i => if i > kt.eraStart usernameHash then kt.rosterAt i else none
  | none => none

theorem KtLog.latestRosterFor_of_current {kt : KtLog} {u : String} {r : KtRosterEntry}
    (h : kt.currentRosterFor u = some r) : kt.latestRosterFor u = some r := by
  unfold KtLog.currentRosterFor at h
  unfold KtLog.latestRosterFor
  split at h
  · rename_i i hi
    split at h
    · simpa [hi] using h
    · cases h
  · cases h

/-! ### What an accepted record was checked for -/

/-- An entry continues the chain of a name whose head is `last`: it names the
current key, or it takes a released name over after its grace. -/
def Continues (grace : ℕ) (last : Option KtEntry) (entry : KtEntry) : Prop :=
  match last with
  | none => entry.seq = 0 ∧ entry.prevSigningKey = none
  | some last => entry.seq = last.seq + 1 ∧
      (entry.prevSigningKey = some last.signingKey ∨
        (entry.prevSigningKey = none ∧ last.released = true ∧
          saturatingAdd last.timestamp grace ≤ entry.timestamp))

/-- The indices of a name point at records of that name. -/
structure KtLog.Wf (kt : KtLog) : Prop where
  binding : ∀ u, ∀ i ∈ kt.bindingIndices u, ∃ e, kt.bindingAt i = some e ∧ e.usernameHash = u
  roster : ∀ u, ∀ i ∈ kt.rosterIndices u, ∃ r, kt.rosterAt i = some r ∧ r.usernameHash = u

theorem KtLog.wf_empty (grace : ℕ) : KtLog.Wf { releaseGraceSecs := grace } where
  binding := by simp [KtLog.bindingIndices]
  roster := by simp [KtLog.rosterIndices]

theorem KtLog.Wf.checkChain {kt : KtLog} (h : kt.Wf) {entry : KtEntry}
    (hc : kt.checkChain entry = .ok ()) :
    Continues kt.releaseGraceSecs (kt.latestBindingFor entry.usernameHash) entry := by
  unfold KtLog.checkChain at hc
  unfold KtLog.latestBindingFor
  cases hi : kt.latestIndexFor entry.usernameHash with
  | none =>
    simp only [hi] at hc
    split at hc
    · cases hc
    · rename_i hno
      simp only [not_or, not_not, Option.not_isSome_iff_eq_none] at hno
      exact hno
  | some i =>
    obtain ⟨last, hl, -⟩ := h.binding _ i (List.mem_of_getLast? hi)
    simp only [hi, hl, Option.bind_some, Continues] at hc ⊢
    split at hc
    · cases hc
    · rename_i hseq
      refine ⟨not_not.mp hseq, ?_⟩
      cases hp : entry.prevSigningKey with
      | some prev =>
        simp only [hp] at hc
        split at hc
        · cases hc
        · rename_i hprev
          exact Or.inl (by rw [not_not.mp hprev])
      | none =>
        simp only [hp] at hc
        split at hc
        · cases hc
        · rename_i hrel
          split at hc
          · cases hc
          · rename_i hgrace
            exact Or.inr ⟨rfl, by simpa using hrel, by omega⟩

/-- An accepted binding is well signed, continues the chain of its name and is
put at the end. -/
theorem KtLog.append_cases {C : Crypto} {kt : KtLog} (h : kt.Wf) {entry : KtEntry} {i : ℕ}
    {kt' : KtLog} (ha : kt.append C entry = .ok (i, kt')) :
    entry.verifySignature C = true ∧
      Continues kt.releaseGraceSecs (kt.latestBindingFor entry.usernameHash) entry ∧
      kt' = kt.pushBinding entry := by
  unfold KtLog.append at ha
  split at ha
  · cases ha
  · rename_i hsig
    split at ha
    · cases ha
    · rename_i hc
      simp only [Except.ok.injEq, Prod.mk.injEq] at ha
      exact ⟨by simpa using hsig, h.checkChain hc, ha.2.symm⟩

/-- The devices that passed the loop have distinct ids, each well formed and
signed by its own key. -/
theorem checkDevices_ok {C : Crypto} {u : String} {current : KtEntry} :
    ∀ {ds seen : List DeviceRecord} {primaries n : ℕ}, (seen.map (·.deviceId)).Nodup →
      checkDevices C u current seen primaries ds = .ok n →
      ((seen ++ ds).map (·.deviceId)).Nodup ∧
        ∀ d ∈ ds, d.deviceIdWellFormed = true ∧ d.verify C u = true ∧
          (d.deviceId = primaryDeviceId →
            d.identityKey = current.identityKey ∧ d.signingKey = current.signingKey)
  | [], seen, _, _, hn, _ => by simpa using hn
  | d :: ds, seen, primaries, n, hn, h => by
    unfold checkDevices at h
    split at h
    · cases h
    rename_i hwf
    split at h
    · cases h
    rename_i hdup
    split at h
    · cases h
    rename_i hprim
    split at h
    · cases h
    rename_i hver
    have hnew : ((seen ++ [d]).map (·.deviceId)).Nodup := by
      simp only [List.any_eq_true, beq_iff_eq, not_exists, not_and] at hdup
      rw [List.map_append, List.nodup_append]
      refine ⟨hn, by simp, ?_⟩
      intro x hx y hy
      obtain ⟨p, hp, rfl⟩ := List.mem_map.mp hx
      simp only [List.map_cons, List.map_nil, List.mem_singleton] at hy
      exact hy ▸ hdup p hp
    obtain ⟨hall, hrest⟩ := checkDevices_ok hnew h
    refine ⟨by simpa using hall, ?_⟩
    intro d' hd'
    rcases List.mem_cons.mp hd' with rfl | hd'
    · refine ⟨by simpa using hwf, by simpa using hver, fun h0 => ?_⟩
      by_contra hne
      exact hprim ⟨h0, by rwa [not_and_or] at hne⟩
    · exact hrest d' hd'

/-- An accepted roster: its name stands at an unreleased binding whose key
signed it, its devices have distinct well-formed ids, and its epoch is the next. -/
structure RosterAccepted (C : Crypto) (kt : KtLog) (roster : KtRosterEntry) (current : KtEntry) :
    Prop where
  latest : kt.latestBindingFor roster.usernameHash = some current
  unreleased : current.released = false
  signed : C.verifyEd25519 current.signingKey roster.signingPayload roster.signature = true
  ids : (roster.devices.map (·.deviceId)).Nodup
  devices : ∀ d ∈ roster.devices, d.deviceIdWellFormed = true ∧
    d.verify C roster.usernameHash = true ∧
    (d.deviceId = primaryDeviceId → d.identityKey = current.identityKey ∧ d.signingKey = current.signingKey)
  epoch : roster.seq = kt.expectedSeq roster.usernameHash

theorem KtRosterEntry.validateAgainst_ok {C : Crypto} {r : KtRosterEntry} {current : KtEntry}
    (h : r.validateAgainst C current = .ok ()) :
    C.verifyEd25519 current.signingKey r.signingPayload r.signature = true ∧
      (r.devices.map (·.deviceId)).Nodup ∧
      ∀ d ∈ r.devices, d.deviceIdWellFormed = true ∧ d.verify C r.usernameHash = true ∧
        (d.deviceId = primaryDeviceId →
          d.identityKey = current.identityKey ∧ d.signingKey = current.signingKey) := by
  unfold KtRosterEntry.validateAgainst at h
  split at h
  · cases h
  split at h
  · cases h
  split at h
  · cases h
  rename_i hdev
  split at h
  · cases h
  split at h
  · cases h
  rename_i hsig
  obtain ⟨hids, hall⟩ := checkDevices_ok (show (([] : List DeviceRecord).map (·.deviceId)).Nodup by simp) hdev
  exact ⟨by simpa using hsig, hids, hall⟩

theorem KtLog.appendRoster_cases {C : Crypto} {kt : KtLog} {roster : KtRosterEntry} {i : ℕ}
    {kt' : KtLog} (ha : kt.appendRoster C roster = .ok (i, kt')) :
    (∃ current, RosterAccepted C kt roster current) ∧ kt' = kt.pushRoster roster := by
  unfold KtLog.appendRoster at ha
  split at ha
  · cases ha
  rename_i current hcur
  split at ha
  · cases ha
  rename_i hrel
  split at ha
  · cases ha
  rename_i hval
  split at ha
  · cases ha
  rename_i hseq
  simp only [Except.ok.injEq, Prod.mk.injEq] at ha
  obtain ⟨hsig, hids, hall⟩ := KtRosterEntry.validateAgainst_ok hval
  exact ⟨⟨current, hcur, by simpa using hrel, hsig, hids, hall, not_not.mp hseq⟩, ha.2.symm⟩

/-! ### How the heads of a name move -/

section push

variable {kt : KtLog} {u : String} (entry : KtEntry) (roster : KtRosterEntry)

theorem KtLog.bindingAt_push {i : ℕ} {e : KtEntry} (h : kt.bindingAt i = some e) (r : KtRecord) :
    (match (kt.records ++ [r])[i]? with | some (.binding e) => some e | _ => none) = some e := by
  unfold KtLog.bindingAt at h
  split at h
  · rename_i hr
    obtain ⟨hlt, -⟩ := List.getElem?_eq_some_iff.mp hr
    rw [List.getElem?_append_left hlt, hr]
    exact h
  · cases h

theorem KtLog.rosterAt_push {i : ℕ} {e : KtRosterEntry} (h : kt.rosterAt i = some e)
    (r : KtRecord) :
    (match (kt.records ++ [r])[i]? with | some (.roster e) => some e | _ => none) = some e := by
  unfold KtLog.rosterAt at h
  split at h
  · rename_i hr
    obtain ⟨hlt, -⟩ := List.getElem?_eq_some_iff.mp hr
    rw [List.getElem?_append_left hlt, hr]
    exact h
  · cases h

theorem KtLog.bindingIndices_pushBinding :
    (kt.pushBinding entry).bindingIndices u =
      if u = entry.usernameHash then kt.bindingIndices u ++ [kt.records.length] else kt.bindingIndices u := by
  unfold KtLog.bindingIndices KtLog.pushBinding
  simp only [Table.get_set]
  split
  · rename_i h; rw [h]; rfl
  · rfl

theorem KtLog.rosterIndices_pushRoster :
    (kt.pushRoster roster).rosterIndices u =
      if u = roster.usernameHash then kt.rosterIndices u ++ [kt.records.length] else kt.rosterIndices u := by
  unfold KtLog.rosterIndices KtLog.pushRoster
  simp only [Table.get_set]
  split
  · rename_i h; rw [h]; rfl
  · rfl

theorem KtLog.bindingAt_last : (kt.pushBinding entry).bindingAt kt.records.length = some entry := by
  simp [KtLog.bindingAt, KtLog.pushBinding]

theorem KtLog.rosterAt_last : (kt.pushRoster roster).rosterAt kt.records.length = some roster := by
  simp [KtLog.rosterAt, KtLog.pushRoster]

theorem KtLog.Wf.pushBinding (h : kt.Wf) : (kt.pushBinding entry).Wf where
  binding := by
    intro v i hi
    rw [KtLog.bindingIndices_pushBinding] at hi
    have hold : i ∈ kt.bindingIndices v →
        ∃ e, (kt.pushBinding entry).bindingAt i = some e ∧ e.usernameHash = v := by
      intro hi
      obtain ⟨e, he, hv⟩ := h.binding v i hi
      exact ⟨e, KtLog.bindingAt_push he _, hv⟩
    split at hi
    · rename_i hv
      rcases List.mem_append.mp hi with hi | hi
      · exact hold hi
      · rw [List.mem_singleton.mp hi]
        exact ⟨entry, KtLog.bindingAt_last entry, hv.symm⟩
    · exact hold hi
  roster := by
    intro v i hi
    obtain ⟨r, hr, hv⟩ := h.roster v i hi
    exact ⟨r, KtLog.rosterAt_push hr _, hv⟩

theorem KtLog.Wf.pushRoster (h : kt.Wf) : (kt.pushRoster roster).Wf where
  binding := by
    intro v i hi
    obtain ⟨e, he, hv⟩ := h.binding v i hi
    exact ⟨e, KtLog.bindingAt_push he _, hv⟩
  roster := by
    intro v i hi
    rw [KtLog.rosterIndices_pushRoster] at hi
    have hold : i ∈ kt.rosterIndices v →
        ∃ r, (kt.pushRoster roster).rosterAt i = some r ∧ r.usernameHash = v := by
      intro hi
      obtain ⟨r, hr, hv⟩ := h.roster v i hi
      exact ⟨r, KtLog.rosterAt_push hr _, hv⟩
    split at hi
    · rename_i hv
      rcases List.mem_append.mp hi with hi | hi
      · exact hold hi
      · rw [List.mem_singleton.mp hi]
        exact ⟨roster, KtLog.rosterAt_last roster, hv.symm⟩
    · exact hold hi

theorem KtLog.latestBindingFor_pushBinding (h : kt.Wf) :
    (kt.pushBinding entry).latestBindingFor u =
      if u = entry.usernameHash then some entry else kt.latestBindingFor u := by
  unfold KtLog.latestBindingFor KtLog.latestIndexFor
  rw [KtLog.bindingIndices_pushBinding]
  split
  · simp [KtLog.bindingAt_last]
  · cases hi : (kt.bindingIndices u).getLast? with
    | none => rfl
    | some i =>
      obtain ⟨e, he, -⟩ := h.binding u i (List.mem_of_getLast? hi)
      simp only [Option.bind_some, he]
      exact KtLog.bindingAt_push he _

theorem KtLog.latestBindingFor_pushRoster (h : kt.Wf) :
    (kt.pushRoster roster).latestBindingFor u = kt.latestBindingFor u := by
  unfold KtLog.latestBindingFor
  change (kt.latestIndexFor u).bind _ = _
  cases hi : kt.latestIndexFor u with
  | none => rfl
  | some i =>
    obtain ⟨e, he, -⟩ := h.binding u i (List.mem_of_getLast? hi)
    simp only [Option.bind_some, he]
    exact KtLog.bindingAt_push he _

theorem KtLog.latestRosterFor_pushBinding (h : kt.Wf) :
    (kt.pushBinding entry).latestRosterFor u = kt.latestRosterFor u := by
  unfold KtLog.latestRosterFor
  change (kt.latestRosterIndexFor u).bind _ = _
  cases hi : kt.latestRosterIndexFor u with
  | none => rfl
  | some i =>
    obtain ⟨r, hr, -⟩ := h.roster u i (List.mem_of_getLast? hi)
    simp only [Option.bind_some, hr]
    exact KtLog.rosterAt_push hr _

theorem KtLog.latestRosterFor_pushRoster (h : kt.Wf) :
    (kt.pushRoster roster).latestRosterFor u =
      if u = roster.usernameHash then some roster else kt.latestRosterFor u := by
  unfold KtLog.latestRosterFor KtLog.latestRosterIndexFor
  rw [KtLog.rosterIndices_pushRoster]
  split
  · simp [KtLog.rosterAt_last]
  · cases hi : (kt.rosterIndices u).getLast? with
    | none => rfl
    | some i =>
      obtain ⟨r, hr, -⟩ := h.roster u i (List.mem_of_getLast? hi)
      simp only [Option.bind_some, hr]
      exact KtLog.rosterAt_push hr _

end push

end Sona
