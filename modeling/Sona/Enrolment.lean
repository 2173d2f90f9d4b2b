/-
# Epochs an account signs

`multidevice/link.rs` and `revoke.rs`: four flows work on the device roster of the
account itself. Each asks the relay for the roster that is published, and all but
the offer of a transfer sign and publish the next epoch, made from what was served. A
roster the relay serves may be of any age: `fetchOwnRoster` says only that it is in
the log.

The offer and the acceptance of a transfer compare what is served with the pin;
`authorizeLink` and `revokeDevice` do not, and then nothing stops the next epoch from
being one that was published before, with the devices it had (`revoked_device_returns`).
`never_reenrols_iff` says when the epochs of a run are newer than the pin and list
known keys only.

Key definitions: `Account`, `authorizeLink`, `revokeDevice`, `offerPrimaryTransfer`,
`acceptPrimaryTransfer`, `NeverReenrols`, `UpToDate`.
-/
import Mathlib.Data.List.Basic
import Sona.Lib.Trace
import Sona.Resolve

namespace Sona

/-! ### An account and what it signs -/

structure Account where
  accountId : String
  identityKey : String
  signingKey : String
  sign : Bytes → String

namespace Account

variable (a : Account)

def deviceRecord (usernameHash deviceId : String) (timestamp : ℕ) : DeviceRecord :=
  let d : DeviceRecord :=
    { deviceId, identityKey := a.identityKey, signingKey := a.signingKey, addedAt := timestamp,
      signature := "" }
  { d with signature := a.sign (d.signingPayload usernameHash) }

def ktRosterEntry (sha : Sha256) (seq : ℕ) (devices : List DeviceRecord) (timestamp : ℕ) :
    KtRosterEntry :=
  let r : KtRosterEntry := { seq, usernameHash := identityHash sha a.accountId, devices, timestamp, signature := "" }
  { r with signature := a.sign r.signingPayload }

end Account

def KtEntry.newRotation (seq : ℕ)
    (usernameHash newIdentityKey newSigningKey prevSigningKey : String) (timestamp : ℕ)
    (released : Bool) (signWithPrev : Bytes → String) : KtEntry :=
  let e : KtEntry :=
    { seq, usernameHash, identityKey := newIdentityKey, signingKey := newSigningKey
      prevSigningKey := some prevSigningKey, timestamp, released, signature := "" }
  { e with signature := signWithPrev e.signingPayload }

/-- What a new device shows the primary. -/
structure LinkRequest where
  deviceId : String
  record : DeviceRecord
  linkSecretB64 : String
  provisioningId : String
deriving DecidableEq, Repr

/-- `LINK_SECRET_LEN` bytes. -/
def linkSecretFromB64 (K : HeadCrypto) (s : String) : Option Bytes :=
  (K.decode (String.ofList (trim s.toList))).filter fun b => b.length = 32

/-- A transfer as it is sealed to the device that is to be the primary. -/
structure PrimaryTransfer where
  mailbox : String
  deviceKey : String
  entry : KtEntry
  demoted : DeviceRecord
deriving DecidableEq, Repr

/-! ### The flows -/

/-- What a flow returns and leaves, the roster it was served, and what it sent: a
roster to the log, a transfer to a device. -/
structure FlowResult (α : Type) where
  result : Except ClientError α
  history : History
  served : Option KtRosterEntry := none
  published : Option KtRosterEntry := none
  offered : Option PrimaryTransfer := none

def FlowResult.failed {α : Type} (e : ClientError) (h : History)
    (served : Option KtRosterEntry := none) : FlowResult α :=
  { result := .error e, history := h, served }

/-- The binding of the pin, carried forward where the binding did not change. -/
def History.pinnedBindingSeq (h : History) (username : String) : ℕ :=
  ((h.contactRosters.get username).map (·.bindingSeq)).getD 0

/-- `let _ = history.pin_roster(..)`: a pin that is refused stays as it was. -/
def History.pinOwnRoster (h : History) (username : String) (bindingSeq : ℕ) (primaryKey : String)
    (roster : KtRosterEntry) :
    History :=
  (h.pinRoster username bindingSeq roster.seq primaryKey (roster.devices.map (·.toRosterDevice))).2

/-- The state of a primary; linking a device and accepting a transfer set the same. -/
def History.adoptPrimaryState (h : History) (bindingSeq : ℕ) (username myIdk : String)
    (roster : KtRosterEntry) : History :=
  (((h.setSelfDevice primaryDeviceId true).setSelfPrimaryKey myIdk).setSelfRosterSeq roster.seq).pinOwnRoster username
    bindingSeq myIdk roster

/-- The check of a transfer against the pin. -/
def History.checkOwnEpoch (h : History) (username : String) (servedSeq : ℕ) :
    Except ClientError Unit :=
  match h.contactRosters.get username with
  | none => .ok ()
  | some pinned =>
    if servedSeq < pinned.seq then .error (.rosterRollback ⟨username, pinned.seq, servedSeq⟩) else .ok ()

/-- The devices to link to, and the next epoch. -/
def linkBase (a : Account) (usernameHash : String) (addedAt : ℕ) :
    Option KtRosterEntry → List DeviceRecord × ℕ
  | some prev => (prev.devices, prev.seq + 1)
  | none => ([a.deviceRecord usernameHash primaryDeviceId addedAt], 0)

/-- `posted` is the answer to the roster, `upload` what comes of sealing the history
under the link secret and of uploading it. -/
def Client.authorizeLink (K : KtClient) (a : Account) (h : History) (req : LinkRequest)
    (addedAt now : ℕ) (answer : RosterAnswer) (posted : Except ClientError Unit)
    (upload : Bytes → String → Except ClientError Unit) : FlowResult ℕ :=
  let usernameHash := identityHash K.crypto.sha a.accountId
  if req.deviceId = primaryDeviceId ∨ !req.record.deviceIdWellFormed then .failed (.protocol "malformed device id") h else
  if req.record.deviceId ≠ req.deviceId ∨ !req.record.verify K.crypto usernameHash then
    .failed (.protocol "device proof-of-possession invalid") h else
  match linkSecretFromB64 K.heads req.linkSecretB64 with
  | none => .failed (.protocol "bad link secret") h
  | some linkSecret =>
    match fetchOwnRoster K answer with
    | .error e => .failed e h
    | .ok previous =>
      let records := (linkBase a usernameHash addedAt previous).1
      let nextSeq := (linkBase a usernameHash addedAt previous).2
      if records.any fun d => d.deviceId = req.record.deviceId then
        .failed (.protocol "device already linked") h previous else
      if records.length + 1 > maxDevices then .failed (.protocol "device limit reached") h previous else
      let roster := a.ktRosterEntry K.crypto.sha nextSeq (records ++ [req.record]) now
      match posted with
      | .error e => { result := .error e, history := h, served := previous, published := some roster }
      | .ok () =>
        { result := (upload linkSecret req.provisioningId).map fun _ => nextSeq
          history := h.adoptPrimaryState (h.pinnedBindingSeq a.accountId) a.accountId a.identityKey roster
          served := previous, published := some roster }

def Client.revokeDevice (K : KtClient) (a : Account) (h : History) (deviceId : String) (now : ℕ)
    (answer : RosterAnswer) (posted : Except ClientError Unit) : FlowResult ℕ :=
  if deviceId = primaryDeviceId then .failed (.protocol "cannot revoke the primary device") h else
  match fetchOwnRoster K answer with
  | .error e => .failed e h
  | .ok none => .failed (.protocol "no roster to revoke from") h
  | .ok (some prev) =>
    if !prev.devices.any fun d => d.deviceId = deviceId then .failed (.protocol "no such device") h (some prev) else
    let nextSeq := prev.seq + 1
    let roster := a.ktRosterEntry K.crypto.sha nextSeq (prev.devices.filter fun d => d.deviceId ≠ deviceId) now
    match posted with
    | .error e => { result := .error e, history := h, served := some prev, published := some roster }
    | .ok () =>
      { result := .ok nextSeq
        history := (h.setSelfRosterSeq nextSeq).pinOwnRoster a.accountId (h.pinnedBindingSeq a.accountId) a.identityKey roster
        served := some prev, published := some roster }

/-- `newDeviceId` is the id that is drawn, `delivered` what comes of the session, the
sealing and the post. -/
def Client.offerPrimaryTransfer (K : KtClient) (a : Account) (h : History)
    (targetDeviceId newDeviceId : String) (rotatedAt addedAt : ℕ) (binding : BindingAnswer)
    (answer : RosterAnswer) (delivered : Except ClientError Unit) :
    FlowResult String :=
  let usernameHash := identityHash K.crypto.sha a.accountId
  if !h.isPrimaryDevice then .failed (.protocol "only the primary device can transfer primary ownership") h else
  if targetDeviceId = primaryDeviceId then .failed (.protocol "target is already the primary") h else
  match fetchVerifiedEntry K usernameHash binding with
  | .error e => .failed e h
  | .ok entry =>
    if entry.identityKey ≠ a.identityKey ∨ entry.signingKey ≠ a.signingKey then
      .failed (.protocol "this device does not hold the KT-bound account keys") h else
    match fetchOwnRoster K answer with
    | .error e => .failed e h
    | .ok none => .failed (.protocol "no roster — link a device first") h
    | .ok (some roster) =>
      match roster.validateAgainst K.crypto entry with
      | .error _ => .failed (.protocol "published roster is stale — try again shortly") h (some roster)
      | .ok () =>
        match h.checkOwnEpoch a.accountId roster.seq with
        | .error e => .failed e h (some roster)
        | .ok () =>
          match roster.devices.find? fun d => d.deviceId = targetDeviceId with
          | none => .failed (.protocol "no such device") h (some roster)
          | some target =>
            let rotation := KtEntry.newRotation (entry.seq + 1) usernameHash target.identityKey target.signingKey
              entry.signingKey rotatedAt false a.sign
            let demoted := a.deviceRecord usernameHash newDeviceId addedAt
            match deviceMailboxHash K.crypto.sha usernameHash targetDeviceId with
            | none => .failed (.protocol "bad device mailbox") h (some roster)
            | some mailbox =>
              match delivered with
              | .error e => .failed e h (some roster)
              | .ok () =>
                { result := .ok newDeviceId, history := h.setPendingDemotion newDeviceId targetDeviceId
                  served := some roster, offered := some ⟨mailbox.asStr, target.identityKey, rotation, demoted⟩ }

/-- The part that is left out when the rotation was published before; `registered` is
the answer to it. -/
def publishRotation (K : KtClient) (usernameHash : String) (rotation : KtEntry)
    (demoted : DeviceRecord) (current : KtEntry) (prev : KtRosterEntry)
    (registered : Except ClientError Unit) : Except ClientError Unit :=
  if rotation.prevSigningKey ≠ some current.signingKey ∨ rotation.seq ≠ current.seq + 1 then
    .error (.protocol "transfer offer is stale — ask your primary to offer again") else
  if demoted.identityKey ≠ current.identityKey ∨ demoted.signingKey ≠ current.signingKey ∨
      !demoted.verify K.crypto usernameHash then
    .error (.protocol "demoted device record invalid") else
  match prev.validateAgainst K.crypto current with
  | .error _ => .error (.protocol "published roster is stale — try again shortly")
  | .ok () => registered

/-- The record that this device had before. -/
def isOwnRecord (a : Account) (myOldDeviceId : String) (d : DeviceRecord) : Bool :=
  d.deviceId = myOldDeviceId && d.identityKey = a.identityKey

/-- The devices after a transfer: this one is the primary, and the old one is demoted. -/
def transferredRecords (a : Account) (usernameHash myOldDeviceId : String) (demoted : DeviceRecord)
    (addedAt : ℕ) (devices : List DeviceRecord) : List DeviceRecord :=
  devices.map fun d =>
    if isOwnRecord a myOldDeviceId d then a.deviceRecord usernameHash primaryDeviceId addedAt
    else if d.deviceId = primaryDeviceId then demoted
    else d

def Client.acceptPrimaryTransfer (K : KtClient) (a : Account) (h : History) (rotation : KtEntry)
    (demoted : DeviceRecord) (addedAt now : ℕ) (binding : BindingAnswer) (answer : RosterAnswer)
    (registered posted : Except ClientError Unit) :
    FlowResult ℕ :=
  let usernameHash := identityHash K.crypto.sha a.accountId
  if h.isPrimaryDevice then .failed (.protocol "this device is already the primary") h else
  if rotation.usernameHash ≠ usernameHash ∨ rotation.identityKey ≠ a.identityKey ∨ rotation.signingKey ≠ a.signingKey ∨
      !rotation.verifySignature K.crypto then
    .failed (.protocol "transfer offer does not promote this device") h else
  if demoted.deviceId = primaryDeviceId ∨ !demoted.deviceIdWellFormed ∨ !demoted.verify K.crypto usernameHash then
    .failed (.protocol "demoted device record invalid") h else
  match fetchVerifiedEntry K usernameHash binding with
  | .error e => .failed e h
  | .ok current =>
    let alreadyRotated := current.identityKey = a.identityKey ∧ current.signingKey = a.signingKey
    match fetchOwnRoster K answer with
    | .error e => .failed e h
    | .ok none => .failed (.protocol "no roster to transfer within") h
    | .ok (some prev) =>
      match h.checkOwnEpoch a.accountId prev.seq with
      | .error e => .failed e h (some prev)
      | .ok () =>
        if alreadyRotated ∧ prev.devices.any fun d => d.deviceId = primaryDeviceId ∧ d.identityKey = a.identityKey then
          { result := .ok prev.seq, history := h.adoptPrimaryState current.seq a.accountId a.identityKey prev
            served := some prev } else
        match (if alreadyRotated then .ok () else
            publishRotation K usernameHash rotation demoted current prev registered) with
        | .error e => .failed e h (some prev)
        | .ok () =>
          if !prev.devices.any (isOwnRecord a h.selfDeviceId) ∨
              !prev.devices.any fun d => !isOwnRecord a h.selfDeviceId d &&
              d.deviceId = primaryDeviceId then
            .failed (.protocol "roster no longer contains this device and the old primary") h (some prev) else
          let nextSeq := prev.seq + 1
          let roster := a.ktRosterEntry K.crypto.sha nextSeq
            (transferredRecords a usernameHash h.selfDeviceId demoted addedAt prev.devices) now
          match posted with
          | .error e => { result := .error e, history := h, served := some prev, published := some roster }
          | .ok () =>
            { result := .ok nextSeq, history := h.adoptPrimaryState rotation.seq a.accountId a.identityKey roster
              served := some prev, published := some roster }

/-! ### What a flow publishes -/

/-- A device is linked: its request is good, and the roster that was served has room for it. -/
structure LinkAccepted (K : KtClient) (a : Account) (req : LinkRequest) (answer : RosterAnswer)
    (previous : Option KtRosterEntry) : Prop where
  linked : req.deviceId ≠ primaryDeviceId
  wellFormed : req.record.deviceIdWellFormed = true
  same : req.record.deviceId = req.deviceId
  possession : req.record.verify K.crypto (identityHash K.crypto.sha a.accountId) = true
  secret : linkSecretFromB64 K.heads req.linkSecretB64 ≠ none
  asked : fetchOwnRoster K answer = .ok previous
  unlisted : ∀ prev, previous = some prev → ∀ d ∈ prev.devices, d.deviceId ≠ req.record.deviceId
  room : ∀ prev, previous = some prev → prev.devices.length < maxDevices

/-- A device is removed: the roster that was served lists it. -/
structure RevokeAccepted (K : KtClient) (deviceId : String) (answer : RosterAnswer)
    (prev : KtRosterEntry) : Prop where
  linked : deviceId ≠ primaryDeviceId
  asked : fetchOwnRoster K answer = .ok (some prev)
  listed : ∃ d ∈ prev.devices, d.deviceId = deviceId

/-- A transfer that the account offered, for this device. -/
structure GoodOffer (K : KtClient) (a : Account) (h : History) (rotation : KtEntry)
    (demoted : DeviceRecord) : Prop where
  notPrimary : h.isPrimaryDevice = false
  name : rotation.usernameHash = identityHash K.crypto.sha a.accountId
  keys : rotation.identityKey = a.identityKey ∧ rotation.signingKey = a.signingKey
  signed : rotation.verifySignature K.crypto = true
  linked : demoted.deviceId ≠ primaryDeviceId
  wellFormed : demoted.deviceIdWellFormed = true
  possession : demoted.verify K.crypto (identityHash K.crypto.sha a.accountId) = true

/-- A transfer comes to the roster that names this device: the answers are good, not
behind the pin, and list this device and an old primary. -/
structure TransferServed (K : KtClient) (a : Account) (h : History) (binding : BindingAnswer)
    (answer : RosterAnswer) (current : KtEntry) (prev : KtRosterEntry) : Prop where
  presented : fetchVerifiedEntry K (identityHash K.crypto.sha a.accountId) binding = .ok current
  asked : fetchOwnRoster K answer = .ok (some prev)
  notBehind : ∀ P, h.contactRosters.get a.accountId = some P → P.seq ≤ prev.seq
  own : ∃ d ∈ prev.devices, isOwnRecord a h.selfDeviceId d = true
  primary : ∃ d ∈ prev.devices, isOwnRecord a h.selfDeviceId d = false ∧
    d.deviceId = primaryDeviceId

/-- The binding is this device's already, and the roster is not: a transfer that
stopped between the two is taken up. -/
structure Resumed (K : KtClient) (a : Account) (h : History) (rotation : KtEntry)
    (demoted : DeviceRecord) (binding : BindingAnswer) (answer : RosterAnswer) (current : KtEntry)
    (prev : KtRosterEntry) : Prop where
  offer : GoodOffer K a h rotation demoted
  served : TransferServed K a h binding answer current prev
  rotated : current.identityKey = a.identityKey ∧ current.signingKey = a.signingKey
  unnamed : ∀ d ∈ prev.devices, d.deviceId = primaryDeviceId → d.identityKey ≠ a.identityKey

/-- The binding is not this device's yet, and the rotation that makes it so is registered. -/
structure Rotates (K : KtClient) (a : Account) (h : History) (rotation : KtEntry)
    (demoted : DeviceRecord) (binding : BindingAnswer) (answer : RosterAnswer)
    (registered : Except ClientError Unit) (current : KtEntry) (prev : KtRosterEntry) : Prop where
  offer : GoodOffer K a h rotation demoted
  served : TransferServed K a h binding answer current prev
  other : ¬ (current.identityKey = a.identityKey ∧ current.signingKey = a.signingKey)
  accepted : publishRotation K (identityHash K.crypto.sha a.accountId) rotation demoted current prev registered = .ok ()

/-- The binding is this device's, and the roster names it: only this client does not know yet. -/
structure TransferDone (K : KtClient) (a : Account) (h : History) (rotation : KtEntry)
    (demoted : DeviceRecord) (binding : BindingAnswer) (answer : RosterAnswer) (current : KtEntry)
    (prev : KtRosterEntry) : Prop where
  offer : GoodOffer K a h rotation demoted
  presented : fetchVerifiedEntry K (identityHash K.crypto.sha a.accountId) binding = .ok current
  asked : fetchOwnRoster K answer = .ok (some prev)
  notBehind : ∀ P, h.contactRosters.get a.accountId = some P → P.seq ≤ prev.seq
  rotated : current.identityKey = a.identityKey ∧ current.signingKey = a.signingKey
  named : ∃ d ∈ prev.devices, d.deviceId = primaryDeviceId ∧ d.identityKey = a.identityKey

/-- What a transfer comes to that publishes a roster. -/
def transferPublished (K : KtClient) (a : Account) (h : History) (rotation : KtEntry)
    (demoted : DeviceRecord) (addedAt now : ℕ) (prev : KtRosterEntry)
    (posted : Except ClientError Unit) : FlowResult ℕ :=
  let roster := a.ktRosterEntry K.crypto.sha (prev.seq + 1)
    (transferredRecords a (identityHash K.crypto.sha a.accountId) h.selfDeviceId demoted addedAt prev.devices) now
  match posted with
  | .error e => { result := .error e, history := h, served := some prev, published := some roster }
  | .ok () =>
    { result := .ok (prev.seq + 1), history := h.adoptPrimaryState rotation.seq a.accountId a.identityKey roster
      served := some prev, published := some roster }

/-- The answers that a transfer goes on with: the account's binding, and a
roster that is not behind the pin. -/
structure TransferAsked (K : KtClient) (a : Account) (h : History) (binding : BindingAnswer)
    (answer : RosterAnswer) (current : KtEntry) (prev : KtRosterEntry) : Prop where
  presented : fetchVerifiedEntry K (identityHash K.crypto.sha a.accountId) binding = .ok current
  asked : fetchOwnRoster K answer = .ok (some prev)
  notBehind : ∀ P, h.contactRosters.get a.accountId = some P → P.seq ≤ prev.seq

/-- What `accept_primary_transfer` does with these answers. -/
def transferOn (K : KtClient) (a : Account) (h : History) (rotation : KtEntry)
    (demoted : DeviceRecord) (addedAt now : ℕ) (registered posted : Except ClientError Unit)
    (current : KtEntry) (prev : KtRosterEntry) :
    FlowResult ℕ :=
  let usernameHash := identityHash K.crypto.sha a.accountId
  let alreadyRotated := current.identityKey = a.identityKey ∧ current.signingKey = a.signingKey
  if alreadyRotated ∧ prev.devices.any fun d => d.deviceId = primaryDeviceId ∧ d.identityKey = a.identityKey then
    { result := .ok prev.seq, history := h.adoptPrimaryState current.seq a.accountId a.identityKey prev
      served := some prev } else
  match (if alreadyRotated then .ok () else
      publishRotation K usernameHash rotation demoted current prev registered) with
  | .error e => .failed e h (some prev)
  | .ok () =>
    if !prev.devices.any (isOwnRecord a h.selfDeviceId) ∨
        !prev.devices.any fun d => !isOwnRecord a h.selfDeviceId d &&
        d.deviceId = primaryDeviceId then
      .failed (.protocol "roster no longer contains this device and the old primary") h (some prev) else
    transferPublished K a h rotation demoted addedAt now prev posted

section flows

variable {K : KtClient} {a : Account} {h : History}

theorem checkOwnEpoch_ok {username : String} {seq : ℕ} :
    h.checkOwnEpoch username seq = .ok () ↔
    ∀ P, h.contactRosters.get username = some P → P.seq ≤ seq := by
  unfold History.checkOwnEpoch
  cases hpin : h.contactRosters.get username with
  | none => simp
  | some pinned =>
    dsimp only
    by_cases hlt : seq < pinned.seq
    · rw [if_pos hlt]
      constructor
      · intro hok
        cases hok
      · intro hle
        have := hle pinned rfl
        omega
    · rw [if_neg hlt]
      refine ⟨fun _ P hP => ?_, fun _ => rfl⟩
      cases hP
      omega

theorem authorizeLink_cases (req : LinkRequest) (addedAt now : ℕ) (answer : RosterAnswer)
    (posted : Except ClientError Unit) (upload : Bytes → String → Except ClientError Unit) :
    (∃ previous, LinkAccepted K a req answer previous ∧
        (Client.authorizeLink K a h req addedAt now answer posted upload).served = previous ∧
        (Client.authorizeLink K a h req addedAt now answer posted upload).published =
          some (a.ktRosterEntry K.crypto.sha (linkBase a (identityHash K.crypto.sha a.accountId) addedAt previous).2
            ((linkBase a (identityHash K.crypto.sha a.accountId) addedAt previous).1 ++ [req.record]) now)) ∨
      ((∀ previous, ¬ LinkAccepted K a req answer previous) ∧
        (Client.authorizeLink K a h req addedAt now answer posted upload).published = none) := by
  unfold Client.authorizeLink
  dsimp only
  split
  · rename_i hid
    refine Or.inr ⟨fun previous hacc => ?_, rfl⟩
    rcases hid with hid | hid
    · exact hacc.linked hid
    · rw [hacc.wellFormed] at hid
      cases hid
  rename_i hid
  split
  · rename_i hrec
    refine Or.inr ⟨fun previous hacc => ?_, rfl⟩
    rcases hrec with hrec | hrec
    · exact hrec hacc.same
    · rw [hacc.possession] at hrec
      cases hrec
  rename_i hrec
  simp only [not_or, Bool.not_eq_true', Bool.not_eq_false, ne_eq, not_not] at hid hrec
  split
  · rename_i hsecret
    exact Or.inr ⟨fun previous hacc => hacc.secret hsecret, rfl⟩
  rename_i linkSecret hsecret
  split
  · rename_i e hasked
    refine Or.inr ⟨fun previous hacc => ?_, rfl⟩
    cases hasked.symm.trans hacc.asked
  rename_i previous hasked
  split
  · rename_i hlisted
    refine Or.inr ⟨fun previous' hacc => ?_, rfl⟩
    cases hasked.symm.trans hacc.asked
    obtain ⟨d, hd, hid'⟩ := List.any_eq_true.mp hlisted
    simp only [decide_eq_true_eq] at hid'
    cases previous with
    | none =>
      rw [List.mem_singleton.mp hd] at hid'
      exact hacc.linked (hacc.same ▸ hid'.symm)
    | some prev => exact hacc.unlisted prev rfl d hd hid'
  rename_i hunlisted
  split
  · rename_i hfull
    refine Or.inr ⟨fun previous' hacc => ?_, rfl⟩
    cases hasked.symm.trans hacc.asked
    cases previous with
    | none => simp [linkBase, maxDevices] at hfull
    | some prev =>
      have hroom := hacc.room prev rfl
      dsimp only [linkBase] at hfull
      omega
  rename_i hroom
  refine Or.inl ⟨previous, ?_, ?_⟩
  · refine ⟨hid.1, hid.2, hrec.1, hrec.2, by rw [hsecret]; simp, hasked, ?_, ?_⟩
    · rintro prev rfl d hd hsame
      exact hunlisted (List.any_eq_true.mpr ⟨d, hd, by simpa using hsame⟩)
    · rintro prev rfl
      dsimp only [linkBase] at hroom
      omega
  · cases posted with
    | error e => exact ⟨rfl, rfl⟩
    | ok u => exact ⟨rfl, rfl⟩

theorem revokeDevice_cases (deviceId : String) (now : ℕ) (answer : RosterAnswer)
    (posted : Except ClientError Unit) :
    (∃ prev, RevokeAccepted K deviceId answer prev ∧
        (Client.revokeDevice K a h deviceId now answer posted).served = some prev ∧
        (Client.revokeDevice K a h deviceId now answer posted).published =
          some (a.ktRosterEntry K.crypto.sha (prev.seq + 1) (prev.devices.filter fun d => d.deviceId ≠ deviceId) now)) ∨
      ((∀ prev, ¬ RevokeAccepted K deviceId answer prev) ∧
        (Client.revokeDevice K a h deviceId now answer posted).published = none) := by
  unfold Client.revokeDevice
  dsimp only
  split
  · rename_i hid
    exact Or.inr ⟨fun prev hacc => hacc.linked hid, rfl⟩
  rename_i hid
  split
  · rename_i e hasked
    refine Or.inr ⟨fun prev hacc => ?_, rfl⟩
    cases hasked.symm.trans hacc.asked
  · rename_i hasked
    refine Or.inr ⟨fun prev hacc => ?_, rfl⟩
    cases hasked.symm.trans hacc.asked
  rename_i prev hasked
  split
  · rename_i hunlisted
    refine Or.inr ⟨fun prev' hacc => ?_, rfl⟩
    cases hasked.symm.trans hacc.asked
    obtain ⟨d, hd, hsame⟩ := hacc.listed
    simp only [Bool.not_eq_true', List.any_eq_false] at hunlisted
    exact hunlisted d hd (by simpa using hsame)
  · rename_i hlisted
    simp only [Bool.not_eq_true', Bool.not_eq_false, List.any_eq_true, decide_eq_true_eq] at hlisted
    refine Or.inl ⟨prev, ⟨hid, hasked, hlisted⟩, ?_⟩
    cases posted with
    | error e => exact ⟨rfl, rfl⟩
    | ok u => exact ⟨rfl, rfl⟩

/-- An offer goes to a device, and nothing to the log. -/
theorem offerPrimaryTransfer_published (targetDeviceId newDeviceId : String) (rotatedAt addedAt : ℕ)
    (binding : BindingAnswer) (answer : RosterAnswer) (delivered : Except ClientError Unit) :
    (Client.offerPrimaryTransfer K a h targetDeviceId newDeviceId rotatedAt addedAt binding answer delivered).published =
      none := by
  unfold Client.offerPrimaryTransfer
  dsimp only
  repeat' split
  all_goals rfl

/-- A rotation is published by the demoted key, under a roster that goes with it. -/
theorem publishRotation_ok {usernameHash : String} {rotation : KtEntry} {demoted : DeviceRecord}
    {current : KtEntry} {prev : KtRosterEntry} {registered : Except ClientError Unit}
    (hok : publishRotation K usernameHash rotation demoted current prev registered = .ok ()) :
    rotation.seq = current.seq + 1 ∧ demoted.identityKey = current.identityKey ∧
    demoted.signingKey = current.signingKey ∧
      prev.validateAgainst K.crypto current = .ok () ∧ registered = .ok () := by
  unfold publishRotation at hok
  split at hok
  · cases hok
  rename_i hchain
  split at hok
  · cases hok
  rename_i hdemoted
  split at hok
  · cases hok
  rename_i hval
  simp only [not_or, ne_eq, not_not] at hchain hdemoted
  exact ⟨hchain.2, hdemoted.1, hdemoted.2.1, hval, hok⟩

theorem isOwnRecord_iff {id : String} {d : DeviceRecord} :
    isOwnRecord a id d = true ↔ d.deviceId = id ∧ d.identityKey = a.identityKey := by
  unfold isOwnRecord
  simp

/-- **A transfer is done already, or it publishes a roster, or it fails** and
leaves all as it is. -/
theorem TransferDone.found {rotation : KtEntry} {demoted : DeviceRecord} {binding : BindingAnswer}
    {answer : RosterAnswer} {current : KtEntry} {prev : KtRosterEntry}
    (hd : TransferDone K a h rotation demoted binding answer current prev) :
    TransferAsked K a h binding answer current prev := ⟨hd.presented, hd.asked, hd.notBehind⟩

theorem TransferServed.found {binding : BindingAnswer} {answer : RosterAnswer} {current : KtEntry}
    {prev : KtRosterEntry} (hs : TransferServed K a h binding answer current prev) :
    TransferAsked K a h binding answer current prev :=
  ⟨hs.presented, hs.asked, hs.notBehind⟩

theorem TransferAsked.unique {binding : BindingAnswer} {answer : RosterAnswer}
    {current current' : KtEntry} {prev prev' : KtRosterEntry}
    (hs : TransferAsked K a h binding answer current prev)
    (hs' : TransferAsked K a h binding answer current' prev') :
    current = current' ∧ prev = prev' := by
  obtain ⟨hp, ha, -⟩ := hs
  cases hp.symm.trans hs'.presented
  cases ha.symm.trans hs'.asked
  exact ⟨rfl, rfl⟩

/-- An offer that is not good is refused. -/
theorem acceptPrimaryTransfer_refused {rotation : KtEntry} {demoted : DeviceRecord}
    (hbad : ¬ GoodOffer K a h rotation demoted) (addedAt now : ℕ) (binding : BindingAnswer)
    (answer : RosterAnswer) (registered posted : Except ClientError Unit) : ∃ e,
      Client.acceptPrimaryTransfer K a h rotation demoted addedAt now binding answer registered posted = .failed e h := by
  unfold Client.acceptPrimaryTransfer
  dsimp only
  split
  · exact ⟨_, rfl⟩
  rename_i hprimary
  split
  · exact ⟨_, rfl⟩
  rename_i hoffer
  split
  · exact ⟨_, rfl⟩
  rename_i hdemoted
  simp only [not_or, Bool.not_eq_true, Bool.not_eq_true', Bool.not_eq_false, ne_eq,
    not_not] at hprimary hoffer hdemoted
  exact absurd ⟨hprimary, hoffer.1, ⟨hoffer.2.1, hoffer.2.2.1⟩, hoffer.2.2.2, hdemoted.1,
    hdemoted.2.1, hdemoted.2.2⟩ hbad

/-- A good offer goes on with the answers, or fails for them. -/
theorem acceptPrimaryTransfer_good {rotation : KtEntry} {demoted : DeviceRecord}
    (hgood : GoodOffer K a h rotation demoted) (addedAt now : ℕ) (binding : BindingAnswer)
    (answer : RosterAnswer) (registered posted : Except ClientError Unit) :
    (∃ current prev, TransferAsked K a h binding answer current prev ∧
        Client.acceptPrimaryTransfer K a h rotation demoted addedAt now binding answer registered posted =
          transferOn K a h rotation demoted addedAt now registered posted current prev) ∨
      ((∀ current prev, ¬ TransferAsked K a h binding answer current prev) ∧
        ∃ e served, Client.acceptPrimaryTransfer K a h rotation demoted addedAt now binding answer registered posted =
          .failed e h served) := by
  obtain ⟨hprimary, hname, ⟨hidk, hsgk⟩, hsigned, hlinked, hwellFormed, hpossession⟩ := hgood
  unfold Client.acceptPrimaryTransfer
  dsimp only
  rw [if_neg (by simp [hprimary]), if_neg (by simp [hname, hidk, hsgk, hsigned]),
    if_neg (by simp [hlinked, hwellFormed, hpossession])]
  split
  · rename_i e hentry
    refine Or.inr ⟨fun current prev hs => ?_, _, _, rfl⟩
    cases hentry.symm.trans hs.presented
  rename_i current hentry
  split
  · rename_i e hasked
    refine Or.inr ⟨fun current prev hs => ?_, _, _, rfl⟩
    cases hasked.symm.trans hs.asked
  · rename_i hasked
    refine Or.inr ⟨fun current prev hs => ?_, _, _, rfl⟩
    cases hasked.symm.trans hs.asked
  rename_i prev hasked
  split
  · rename_i e hbehind
    refine Or.inr ⟨fun current' prev' hs => ?_, _, _, rfl⟩
    cases hasked.symm.trans hs.asked
    cases hbehind.symm.trans (checkOwnEpoch_ok.mpr hs.notBehind)
  · rename_i hahead
    refine Or.inl ⟨current, prev, ⟨hentry, hasked, checkOwnEpoch_ok.mp hahead⟩, ?_⟩
    unfold transferOn transferPublished
    rfl

/-- This device and an old primary are listed. -/
def BothListed (a : Account) (h : History) (prev : KtRosterEntry) : Prop :=
  (∃ d ∈ prev.devices, isOwnRecord a h.selfDeviceId d = true) ∧
    ∃ d ∈ prev.devices, isOwnRecord a h.selfDeviceId d = false ∧ d.deviceId = primaryDeviceId

/-- What a transfer comes to with good answers: nothing is left to do, the next roster
is published, or it fails. -/
theorem transferOn_ways (rotation : KtEntry) (demoted : DeviceRecord) (addedAt now : ℕ)
    (registered posted : Except ClientError Unit) (current : KtEntry) (prev : KtRosterEntry) :
    ((current.identityKey = a.identityKey ∧ current.signingKey = a.signingKey) ∧
        (∃ d ∈ prev.devices, d.deviceId = primaryDeviceId ∧ d.identityKey = a.identityKey) ∧
        transferOn K a h rotation demoted addedAt now registered posted current prev =
          { result := .ok prev.seq, history := h.adoptPrimaryState current.seq a.accountId a.identityKey prev
            served := some prev }) ∨
      ((current.identityKey = a.identityKey ∧ current.signingKey = a.signingKey →
          ∀ d ∈ prev.devices, d.deviceId = primaryDeviceId → d.identityKey ≠ a.identityKey) ∧
        ((current.identityKey = a.identityKey ∧ current.signingKey = a.signingKey ∨ publishRotation K
            (identityHash K.crypto.sha a.accountId) rotation demoted current prev registered = .ok ()) ∧
          BothListed a h prev ∧
          transferOn K a h rotation demoted addedAt now registered posted current prev =
            transferPublished K a h rotation demoted addedAt now prev posted ∨
        ¬ ((current.identityKey = a.identityKey ∧ current.signingKey = a.signingKey ∨ publishRotation K
            (identityHash K.crypto.sha a.accountId) rotation demoted current prev registered = .ok ()) ∧
          BothListed a h prev) ∧
          ∃ e, transferOn K a h rotation demoted addedAt now registered posted current prev =
            .failed e h (some prev))) := by
  unfold transferOn
  dsimp only
  split
  · rename_i hdone
    obtain ⟨d, hd, hnamed⟩ := List.any_eq_true.mp hdone.2
    exact Or.inl ⟨hdone.1, ⟨d, hd, of_decide_eq_true hnamed⟩, rfl⟩
  rename_i hnotDone
  refine Or.inr ⟨fun hrotated d hd hid hmine =>
    hnotDone ⟨hrotated, List.any_eq_true.mpr ⟨d, hd, by simp [hid, hmine]⟩⟩, ?_⟩
  split
  · rename_i e hrotate
    refine Or.inr ⟨fun hway => ?_, e, rfl⟩
    by_cases hrotated : current.identityKey = a.identityKey ∧ current.signingKey = a.signingKey
    · rw [if_pos hrotated] at hrotate
      cases hrotate
    · rw [if_neg hrotated] at hrotate
      rcases hway.1 with hmine | hpublished
      · exact hrotated hmine
      · cases hrotate.symm.trans hpublished
  rename_i hrotate
  have hpublished : current.identityKey = a.identityKey ∧ current.signingKey = a.signingKey ∨
      publishRotation K
      (identityHash K.crypto.sha a.accountId) rotation demoted current prev registered = .ok
      () := by
    by_cases hrotated : current.identityKey = a.identityKey ∧ current.signingKey = a.signingKey
    · exact Or.inl hrotated
    · rw [if_neg hrotated] at hrotate
      exact Or.inr hrotate
  split
  · rename_i hmissing
    refine Or.inr ⟨fun ⟨_, ⟨d, hd, hown⟩, d', hd', hother, hid⟩ => ?_, _, rfl⟩
    simp only [Bool.not_eq_true', List.any_eq_false] at hmissing
    rcases hmissing with hmissing | hmissing
    · exact hmissing d hd hown
    · exact hmissing d' hd' (by simp [hother, hid])
  · rename_i hlisted
    simp only [not_or, Bool.not_eq_true', Bool.not_eq_false, List.any_eq_true, Bool.and_eq_true,
      decide_eq_true_eq] at hlisted
    exact Or.inl ⟨hpublished, hlisted, rfl⟩

theorem acceptPrimaryTransfer_ways (rotation : KtEntry) (demoted : DeviceRecord) (addedAt now : ℕ)
    (binding : BindingAnswer) (answer : RosterAnswer)
    (registered posted : Except ClientError Unit) :
    (∃ current prev, TransferDone K a h rotation demoted binding answer current prev ∧
        Client.acceptPrimaryTransfer K a h rotation demoted addedAt now binding answer registered posted =
          { result := .ok prev.seq, history := h.adoptPrimaryState current.seq a.accountId a.identityKey prev
            served := some prev }) ∨
      (∃ current prev, (Resumed K a h rotation demoted binding answer current prev ∨
          Rotates K a h rotation demoted binding answer registered current prev) ∧
        Client.acceptPrimaryTransfer K a h rotation demoted addedAt now binding answer registered posted =
          transferPublished K a h rotation demoted addedAt now prev posted) ∨
      ((∀ current prev, ¬ (TransferDone K a h rotation demoted binding answer current prev ∨
          Resumed K a h rotation demoted binding answer current prev ∨
          Rotates K a h rotation demoted binding answer registered current prev)) ∧
        ∃ e served, Client.acceptPrimaryTransfer K a h rotation demoted addedAt now binding answer registered posted =
          .failed e h served) := by
  by_cases hgood : GoodOffer K a h rotation demoted
  swap
  · obtain ⟨e, hfailed⟩ := acceptPrimaryTransfer_refused hgood addedAt now binding answer registered posted
    refine Or.inr (Or.inr ⟨?_, e, none, hfailed⟩)
    rintro current prev (hd | hr | hr)
    · exact hgood hd.offer
    · exact hgood hr.offer
    · exact hgood hr.offer
  obtain ⟨current, prev, hasked, hon⟩ | ⟨hnone, e, served, hfailed⟩ :=
    acceptPrimaryTransfer_good hgood addedAt now binding answer registered posted
  swap
  · refine Or.inr (Or.inr ⟨?_, e, served, hfailed⟩)
    rintro current prev (hd | hr | hr)
    · exact hnone current prev hd.found
    · exact hnone current prev hr.served.found
    · exact hnone current prev hr.served.found
  obtain ⟨hrotated, hnamed, hdone⟩ | ⟨hunnamed, ⟨hpublished, hlisted, hnext⟩ | ⟨hno, e, hfailed⟩⟩ :=
    transferOn_ways rotation demoted addedAt now registered posted current prev (K := K)
    (a := a) (h := h)
  · exact Or.inl ⟨current, prev,
      ⟨hgood, hasked.presented, hasked.asked, hasked.notBehind, hrotated, hnamed⟩, hon.trans hdone⟩
  · have hserved : TransferServed K a h binding answer current prev :=
      ⟨hasked.presented, hasked.asked, hasked.notBehind, hlisted.1, hlisted.2⟩
    refine Or.inr (Or.inl ⟨current, prev, ?_, hon.trans hnext⟩)
    by_cases hrotated : current.identityKey = a.identityKey ∧ current.signingKey = a.signingKey
    · exact Or.inl ⟨hgood, hserved, hrotated, hunnamed hrotated⟩
    · exact Or.inr ⟨hgood, hserved, hrotated, hpublished.resolve_left hrotated⟩
  · refine Or.inr (Or.inr ⟨?_, e, some prev, hon.trans hfailed⟩)
    rintro current' prev' (hd | hr | hr)
    · obtain ⟨rfl, rfl⟩ := hasked.unique hd.found
      obtain ⟨d, hmem, hid, hmine⟩ := hd.named
      exact hunnamed hd.rotated d hmem hid hmine
    · obtain ⟨rfl, rfl⟩ := hasked.unique hr.served.found
      exact hno ⟨Or.inl hr.rotated, hr.served.own, hr.served.primary⟩
    · obtain ⟨rfl, rfl⟩ := hasked.unique hr.served.found
      exact hno ⟨Or.inr hr.accepted, hr.served.own, hr.served.primary⟩

theorem acceptPrimaryTransfer_cases (rotation : KtEntry) (demoted : DeviceRecord) (addedAt now : ℕ)
    (binding : BindingAnswer) (answer : RosterAnswer)
    (registered posted : Except ClientError Unit) :
    (∃ current prev, TransferServed K a h binding answer current prev ∧
        (Resumed K a h rotation demoted binding answer current prev ∨
          demoted.identityKey = current.identityKey ∧
          prev.validateAgainst K.crypto current = .ok ()) ∧
        (Client.acceptPrimaryTransfer K a h rotation demoted addedAt now binding answer registered posted).served = some prev ∧
        (Client.acceptPrimaryTransfer K a h rotation demoted addedAt now binding answer registered posted).published =
          some (a.ktRosterEntry K.crypto.sha (prev.seq + 1)
            (transferredRecords a (identityHash K.crypto.sha a.accountId) h.selfDeviceId demoted addedAt prev.devices) now)) ∨
      ((∀ current prev, ¬ Resumed K a h rotation demoted binding answer current prev) ∧
        (Client.acceptPrimaryTransfer K a h rotation demoted addedAt now binding answer registered posted).published = none) := by
  rcases acceptPrimaryTransfer_ways (K := K) (a := a) (h := h) rotation demoted addedAt now binding answer registered posted
    with ⟨current, prev, hdone, heq⟩ | ⟨current, prev, hpublishes, heq⟩ | ⟨hnone, e, served, heq⟩
  · rw [heq]
    refine Or.inr ⟨fun current' prev' hres => ?_, rfl⟩
    cases hdone.asked.symm.trans hres.served.asked
    obtain ⟨d, hd, hid, hmine⟩ := hdone.named
    exact hres.unnamed d hd hid hmine
  · rw [heq]
    refine Or.inl ⟨current, prev, ?_, ?_, ?_, ?_⟩
    · rcases hpublishes with hres | hrot
      · exact hres.served
      · exact hrot.served
    · rcases hpublishes with hres | hrot
      · exact Or.inl hres
      · obtain ⟨-, hkey, -, hval, -⟩ := publishRotation_ok hrot.accepted
        exact Or.inr ⟨hkey, hval⟩
    · unfold transferPublished
      cases posted <;> rfl
    · unfold transferPublished
      cases posted <;> rfl
  · rw [heq]
    exact Or.inr ⟨fun current prev hres => hnone current prev (Or.inr (Or.inl hres)), rfl⟩

end flows

/-! ### Runs -/

inductive EnrolOp
  | authorizeLink (req : LinkRequest) (addedAt now : ℕ) (answer : RosterAnswer)
      (posted : Except ClientError Unit)
    (upload : Bytes → String → Except ClientError Unit)
  | revokeDevice (deviceId : String) (now : ℕ) (answer : RosterAnswer)
      (posted : Except ClientError Unit)
  | offerPrimaryTransfer (targetDeviceId newDeviceId : String) (rotatedAt addedAt : ℕ)
      (binding : BindingAnswer)
    (answer : RosterAnswer) (delivered : Except ClientError Unit)
  | acceptPrimaryTransfer (rotation : KtEntry) (demoted : DeviceRecord) (addedAt now : ℕ)
      (binding : BindingAnswer)
    (answer : RosterAnswer) (registered posted : Except ClientError Unit)

/-- A flow without what it returns. -/
def FlowResult.void {α : Type} (f : FlowResult α) : FlowResult Unit :=
  { result := f.result.map fun _ => (), history := f.history, served := f.served,
    published := f.published
    offered := f.offered }

@[simp] theorem FlowResult.void_served {α : Type} (f : FlowResult α) : f.void.served = f.served :=
  rfl

@[simp] theorem FlowResult.void_published {α : Type} (f : FlowResult α) :
    f.void.published = f.published := rfl

def EnrolOp.flow (K : KtClient) (a : Account) (h : History) : EnrolOp → FlowResult Unit
  | .authorizeLink req addedAt now answer posted upload =>
    (Client.authorizeLink K a h req addedAt now answer posted upload).void
  | .revokeDevice deviceId now answer posted =>
    (Client.revokeDevice K a h deviceId now answer posted).void
  | .offerPrimaryTransfer target newDeviceId rotatedAt addedAt binding answer delivered =>
    (Client.offerPrimaryTransfer K a h target newDeviceId rotatedAt addedAt binding answer delivered).void
  | .acceptPrimaryTransfer rotation demoted addedAt now binding answer registered posted =>
    (Client.acceptPrimaryTransfer K a h rotation demoted addedAt now binding answer registered posted).void

/-- The key of the device that is being linked. -/
def EnrolOp.newKey : EnrolOp → Option String
  | .authorizeLink req _ _ _ _ _ => some req.record.identityKey
  | _ => none

/-- The history, and the rosters of the account that were served so far. -/
structure EnrolState where
  history : History
  served : List KtRosterEntry

def enrolStep (K : KtClient) (a : Account) (s : EnrolState) (op : EnrolOp) : EnrolState :=
  { history := (op.flow K a s.history).history,
    served := s.served ++ (op.flow K a s.history).served.toList }

/-- The key is in the pin, or in a served roster that is not behind it. -/
def KnownKey (P : RosterPin) (served : List KtRosterEntry) (key : String) : Prop :=
  (∃ d ∈ P.devices, d.identityKey = key) ∨
  ∃ r ∈ served, P.seq ≤ r.seq ∧ ∃ d ∈ r.devices, d.identityKey = key

/-- **What is published under a pin is newer, and lists the device that is being
linked and known keys.** -/
def NeverReenrols (K : KtClient) (a : Account) (s : EnrolState) (op : EnrolOp) : Prop :=
  ∀ P roster, s.history.contactRosters.get a.accountId = some P →
  (op.flow K a s.history).published = some roster →
    P.seq < roster.seq ∧
      ∀ d ∈ roster.devices, op.newKey = some d.identityKey ∨
      KnownKey P (enrolStep K a s op).served d.identityKey

/-- A roster that a device is linked to or removed from is not behind the pin; a
transfer that is taken up demotes a known key. -/
def UpToDate (K : KtClient) (a : Account) (s : EnrolState) (op : EnrolOp) : Prop :=
  ∀ P, s.history.contactRosters.get a.accountId = some P →
    match op with
    | .authorizeLink req _ _ answer _ _ =>
      ∀ previous, LinkAccepted K a req answer previous →
      ∃ prev, previous = some prev ∧ P.seq ≤ prev.seq
    | .revokeDevice deviceId _ answer _ =>
      ∀ prev, RevokeAccepted K deviceId answer prev → P.seq ≤ prev.seq
    | .offerPrimaryTransfer .. => True
    | .acceptPrimaryTransfer rotation demoted _ _ binding answer _ _ =>
      ∀ current prev, Resumed K a s.history rotation demoted binding answer current prev →
        KnownKey P (s.served ++ [prev]) demoted.identityKey

section steps

variable {K : KtClient} {a : Account} {s : EnrolState} {P : RosterPin}

/-- The devices of a roster that is served now, and not behind the pin. -/
theorem KnownKey.of_served {served : List KtRosterEntry} {prev : KtRosterEntry} {d : DeviceRecord}
    (hle : P.seq ≤ prev.seq) (hd : d ∈ prev.devices) :
    KnownKey P (served ++ [prev]) d.identityKey :=
  Or.inr ⟨prev, List.mem_append_right _ List.mem_cons_self, hle, d, hd, rfl⟩

theorem enrolStep_served {op : EnrolOp} {prev : KtRosterEntry}
    (hserved : (op.flow K a s.history).served = some prev) :
    (enrolStep K a s op).served = s.served ++ [prev] := by
  unfold enrolStep
  rw [hserved]
  rfl

theorem neverReenrols_authorizeLink (req : LinkRequest) (addedAt now : ℕ) (answer : RosterAnswer)
    (posted : Except ClientError Unit) (upload : Bytes → String → Except ClientError Unit) :
    NeverReenrols K a s (.authorizeLink req addedAt now answer posted upload) ↔
      UpToDate K a s (.authorizeLink req addedAt now answer posted upload) := by
  have hcases := authorizeLink_cases (K := K) (a := a)
    (h := s.history) req addedAt now answer posted upload
  constructor
  · intro hnever P hpin previous hacc
    rcases hcases with ⟨previous', hacc', -, hpublished⟩ | ⟨hnone, -⟩
    · cases hacc.asked.symm.trans hacc'.asked
      have hseq := (hnever P _ hpin hpublished).1
      cases previous with
      | none =>
        -- the first epoch is behind every pin
        exact absurd hseq (Nat.not_lt_zero _)
      | some prev => exact ⟨prev, rfl, Nat.le_of_lt_succ hseq⟩
    · exact absurd hacc (hnone previous)
  · intro hfresh P roster hpin hpublished
    rcases hcases with ⟨previous, hacc, hserved, hroster⟩ | ⟨-, hnone⟩
    · obtain ⟨prev, rfl, hle⟩ := hfresh P hpin previous hacc
      cases Option.some.inj (hroster.symm.trans hpublished)
      refine ⟨Nat.lt_succ_of_le hle, fun d hd => ?_⟩
      rcases List.mem_append.mp hd with hd | hd
      · refine Or.inr ?_
        have hstep : (enrolStep K a s (.authorizeLink req addedAt now answer posted upload)).served = s.served ++ [prev] :=
          enrolStep_served hserved
        rw [hstep]
        exact .of_served hle hd
      · rw [List.mem_singleton.mp hd]
        exact Or.inl rfl
    · cases hnone.symm.trans hpublished

theorem neverReenrols_revokeDevice (deviceId : String) (now : ℕ) (answer : RosterAnswer)
    (posted : Except ClientError Unit) :
    NeverReenrols K a s (.revokeDevice deviceId now answer posted) ↔
      UpToDate K a s (.revokeDevice deviceId now answer posted) := by
  have hcases := revokeDevice_cases (K := K) (a := a) (h := s.history) deviceId now answer posted
  constructor
  · intro hnever P hpin prev hacc
    rcases hcases with ⟨prev', hacc', -, hpublished⟩ | ⟨hnone, -⟩
    · cases hacc.asked.symm.trans hacc'.asked
      exact Nat.le_of_lt_succ (hnever P _ hpin hpublished).1
    · exact absurd hacc (hnone prev)
  · intro hfresh P roster hpin hpublished
    rcases hcases with ⟨prev, hacc, hserved, hroster⟩ | ⟨-, hnone⟩
    · have hle : P.seq ≤ prev.seq := hfresh P hpin prev hacc
      cases Option.some.inj (hroster.symm.trans hpublished)
      refine ⟨Nat.lt_succ_of_le hle, fun d hd => Or.inr ?_⟩
      have hstep : (enrolStep K a s (.revokeDevice deviceId now answer posted)).served =
          s.served ++ [prev] :=
        enrolStep_served hserved
      rw [hstep]
      exact .of_served hle (List.mem_of_mem_filter hd)
    · cases hnone.symm.trans hpublished

theorem neverReenrols_acceptPrimaryTransfer (rotation : KtEntry) (demoted : DeviceRecord)
    (addedAt now : ℕ) (binding : BindingAnswer) (answer : RosterAnswer)
    (registered posted : Except ClientError Unit) :
    NeverReenrols K a s (.acceptPrimaryTransfer rotation demoted addedAt now binding answer registered posted) ↔
      UpToDate K a s (.acceptPrimaryTransfer rotation demoted addedAt now binding answer registered posted) := by
  have hcases := acceptPrimaryTransfer_cases (K := K) (a := a)
    (h := s.history) rotation demoted addedAt now binding answer
    registered posted
  have hstep : ∀ prev, (Client.acceptPrimaryTransfer K a s.history rotation demoted addedAt now binding answer registered
      posted).served = some prev → (enrolStep K a s
      (.acceptPrimaryTransfer rotation demoted addedAt now binding answer
      registered posted)).served = s.served ++ [prev] :=
    fun prev hserved => enrolStep_served hserved
  constructor
  · intro hnever P hpin current prev hres
    rcases hcases with ⟨current', prev', htransfer, -, hserved, hpublished⟩ | ⟨hnone, -⟩
    · cases hres.served.asked.symm.trans htransfer.asked
      -- the old primary's record makes place for the demoted one
      obtain ⟨d, hd, hother, hid⟩ := htransfer.primary
      have hdemoted : demoted ∈ transferredRecords a
          (identityHash K.crypto.sha a.accountId) s.history.selfDeviceId demoted
          addedAt prev.devices := by
        refine List.mem_map.mpr ⟨d, hd, ?_⟩
        rw [if_neg (by simp [hother]), if_pos hid]
      rcases (hnever P _ hpin hpublished).2 demoted hdemoted with hnew | hauth
      · cases hnew
      · rwa [hstep prev hserved] at hauth
    · exact absurd hres (hnone current prev)
  · intro hfresh P roster hpin hpublished
    rcases hcases with ⟨current, prev, htransfer, hdemoted, hserved, hroster⟩ | ⟨-, hnone⟩
    · have hle : P.seq ≤ prev.seq := htransfer.notBehind P hpin
      cases Option.some.inj (hroster.symm.trans hpublished)
      refine ⟨Nat.lt_succ_of_le hle, fun d' hd' => Or.inr ?_⟩
      rw [hstep prev hserved]
      obtain ⟨d, hd, rfl⟩ := List.mem_map.mp hd'
      by_cases hown : isOwnRecord a s.history.selfDeviceId d = true
      · rw [if_pos hown]
        have hkey : d.identityKey = a.identityKey := (isOwnRecord_iff.mp hown).2
        have hauth : KnownKey P (s.served ++ [prev]) d.identityKey := .of_served hle hd
        rwa [hkey] at hauth
      rw [if_neg hown]
      by_cases hid : d.deviceId = primaryDeviceId
      · rw [if_pos hid]
        rcases hdemoted with hres | ⟨hkey, hval⟩
        · exact hfresh P hpin current prev hres
        · -- the demoted key is the one that the old primary is listed with
          have hlisted := ((KtRosterEntry.validateAgainst_ok hval).2.2 d hd).2.2 hid
          have hauth : KnownKey P (s.served ++ [prev]) d.identityKey := .of_served hle hd
          rwa [hlisted.1, ← hkey] at hauth
      · rw [if_neg hid]
        exact .of_served hle hd
    · cases hnone.symm.trans hpublished

/-- **A step publishes newer epochs with known keys exactly if it is up to date.** -/
theorem neverReenrols_step (op : EnrolOp) : NeverReenrols K a s op ↔ UpToDate K a s op := by
  cases op with
  | authorizeLink req addedAt now answer posted upload =>
    exact neverReenrols_authorizeLink req addedAt now answer posted upload
  | revokeDevice deviceId now answer posted =>
    exact neverReenrols_revokeDevice deviceId now answer posted
  | offerPrimaryTransfer target newDeviceId rotatedAt addedAt binding answer delivered =>
    refine ⟨fun _ P _ => trivial, fun _ P roster _ hpublished => ?_⟩
    cases (offerPrimaryTransfer_published target newDeviceId rotatedAt addedAt binding answer delivered).symm.trans
      hpublished
  | acceptPrimaryTransfer rotation demoted addedAt now binding answer registered posted =>
    exact neverReenrols_acceptPrimaryTransfer rotation demoted addedAt now binding answer registered posted

end steps

/-- **A run never enrols a device again exactly if each of its steps is up to date.** -/
theorem never_reenrols_iff (K : KtClient) (a : Account) (s : EnrolState) (ops : List EnrolOp) :
    Trace.Along (enrolStep K a) (NeverReenrols K a) s ops ↔
    Trace.Along (enrolStep K a) (UpToDate K a) s ops :=
  ⟨Trace.Along.imp (I := fun _ => True) (fun _ _ _ _ => trivial) (fun _ op _ => (neverReenrols_step op).mp) trivial,
    Trace.Along.imp (I := fun _ => True) (fun _ _ _ _ => trivial) (fun _ op _ => (neverReenrols_step op).mpr) trivial⟩

/-! ### A device that returns -/

def tabletKey : String := "VSywJxediKeqV8eR2j1UNfKXppkd6Qb6ABJkNTSMGK0"

/-- Another device of the account. -/
def tabletRecord : DeviceRecord :=
  { deviceId := "fedcba9876543210fedcba9876543210",
    identityKey := "iQ2thcPjNnHURavri5O1+QW/SL158QmEDxoZ3GgVHU0"
    signingKey := tabletKey, addedAt := 2900
    signature := "hM2fNFa9HY/9jm3ZMAoO8ozn9vDrXzpxj85wSDaPyKBYX6qeXEy8mozwN425Lo0U1tlua2xmPvyDnCuDe0QvBg" }

/-- The roster that links it to the first roster of the account. -/
def relinkedRoster : KtRosterEntry :=
  { seq := 1, usernameHash := bobHash, devices := [primaryRecord, deviceRecord, tabletRecord],
    timestamp := 3000
    signature := "JQmVAvQq+at8v6AntRfsYAZTl+m5znmZDAzFKCCpRpwiu/FMImHTQH1WqJb9oZSImgSHXFv0PqnqHgPEqOUAAg" }

/-- The account, with the signatures it makes below. -/
def bobAccount : Account :=
  { accountId := "bob", identityKey := bobEntry.identityKey, signingKey := bobKey
    sign := fun payload => if payload = droppingRoster.signingPayload then droppingRoster.signature else
      if payload = relinkedRoster.signingPayload then relinkedRoster.signature else "" }

def relinkClient : KtClient :=
  sampleClient ((tabletKey, tabletRecord.signingPayload bobHash, tabletRecord.signature) :: rosterSigned) [bobRosterProof]

def dropsDevice : EnrolOp :=
  .revokeDevice sampleDevice 1500 (bobRosterProof.roster bobRoster) (.ok ())

def linksTablet : EnrolOp :=
  .authorizeLink ⟨tabletRecord.deviceId, tabletRecord, sampleNonce, sampleDevice⟩ 2900 3000 (bobRosterProof.roster bobRoster)
    (.ok ()) fun _ _ => .ok ()

/-- The roster from before is in the log. -/
theorem bobRoster_asked :
    fetchOwnRoster relinkClient (bobRosterProof.roster bobRoster) = .ok (some bobRoster) :=
  (sampleClient_served List.mem_cons_self bobRosterProof_reads rfl).own

/-- The account makes the two rosters from the one that is listed. -/
theorem rosters_signed :
    bobAccount.ktRosterEntry relinkClient.crypto.sha (bobRoster.seq + 1)
        (bobRoster.devices.filter fun d => d.deviceId ≠ sampleDevice) 1500 = droppingRoster ∧
      bobAccount.ktRosterEntry relinkClient.crypto.sha (bobRoster.seq + 1) (bobRoster.devices ++ [tabletRecord]) 3000 =
        relinkedRoster := by
  decide +kernel

/-- The device is removed, and the epoch without it is pinned. -/
theorem dropsDevice_flow : dropsDevice.flow relinkClient bobAccount pinnedBob =
    { result := .ok (), served := some bobRoster, published := some droppingRoster
      history := (pinnedBob.setSelfRosterSeq 1).pinOwnRoster "bob" 0 bobEntry.identityKey droppingRoster } := by
  have hbinding : pinnedBob.pinnedBindingSeq "bob" = 0 := by
    unfold History.pinnedBindingSeq
    rw [pinnedBob_pin]
    rfl
  change (Client.revokeDevice relinkClient bobAccount pinnedBob sampleDevice 1500 (bobRosterProof.roster bobRoster)
    (.ok ())).void = _
  unfold Client.revokeDevice
  rw [bobRoster_asked]
  dsimp only
  rw [if_neg (by decide), if_neg (by decide), rosters_signed.1]
  unfold FlowResult.void
  dsimp only [bobAccount]
  rw [hbinding]
  rfl

/-- The account removed its device. -/
def droppedState : EnrolState := enrolStep relinkClient bobAccount ⟨pinnedBob, []⟩ dropsDevice

def droppedPin : RosterPin :=
  ⟨1, 0, bobEntry.identityKey, droppingRoster.devices.map (·.toRosterDevice)⟩

theorem droppedState_pin : droppedState.history.contactRosters.get "bob" = some droppedPin := by
  unfold droppedState enrolStep
  rw [dropsDevice_flow]
  decide +kernel

/-- The tablet's request is good, and the roster from before has room for it. -/
theorem linksTablet_accepted :
    LinkAccepted relinkClient bobAccount ⟨tabletRecord.deviceId, tabletRecord, sampleNonce, sampleDevice⟩
      (bobRosterProof.roster bobRoster) (some bobRoster) where
  linked := by decide
  wellFormed := by decide +kernel
  same := rfl
  possession := by
    have hname : identityHash relinkClient.crypto.sha bobAccount.accountId = bobHash := namedSha_bob
    rw [hname]
    exact sampleClient_verifies List.mem_cons_self (by decide +kernel) (by decide +kernel)
  secret := by decide +kernel
  asked := bobRoster_asked
  unlisted prev hprev := by
    cases hprev
    decide
  room prev hprev := by
    cases hprev
    decide

/-- The epoch is published again, in any history. -/
theorem linksTablet_flow (h : History) :
    (linksTablet.flow relinkClient bobAccount h).served = some bobRoster ∧
    (linksTablet.flow relinkClient bobAccount h).published = some relinkedRoster := by
  have hflow : linksTablet.flow relinkClient bobAccount h =
      (Client.authorizeLink relinkClient bobAccount h
      ⟨tabletRecord.deviceId, tabletRecord, sampleNonce,
      sampleDevice⟩ 2900 3000 (bobRosterProof.roster bobRoster)
      (.ok ()) fun _ _ => .ok ()).void := rfl
  rw [hflow, FlowResult.void_served, FlowResult.void_published]
  rcases authorizeLink_cases (K := relinkClient) (a := bobAccount) (h := h)
      ⟨tabletRecord.deviceId, tabletRecord, sampleNonce,
      sampleDevice⟩ 2900 3000 (bobRosterProof.roster bobRoster)
      (.ok ()) (fun _ _ => .ok ()) with ⟨previous, hacc, hserved, hpublished⟩ | ⟨hnone, -⟩
  · cases linksTablet_accepted.asked.symm.trans hacc.asked
    dsimp only [linkBase] at hpublished
    rw [rosters_signed.2] at hpublished
    exact ⟨hserved, hpublished⟩
  · exact absurd linksTablet_accepted (hnone _)

/-- **A device is removed, and the next device is linked to the roster from before**:
the epoch is published a second time, with the removed device. -/
theorem revoked_device_returns :
    (dropsDevice.flow relinkClient bobAccount pinnedBob).published = some droppingRoster ∧
      droppedState.history.contactRosters.get "bob" = some droppedPin ∧
      (linksTablet.flow relinkClient bobAccount droppedState.history).published =
        some relinkedRoster ∧
      relinkedRoster.seq = droppedPin.seq ∧ deviceRecord ∈ relinkedRoster.devices ∧
      ¬ KnownKey droppedPin (enrolStep relinkClient bobAccount droppedState linksTablet).served deviceRecord.identityKey ∧
      ¬ Trace.Along (enrolStep relinkClient bobAccount) (NeverReenrols relinkClient bobAccount) ⟨pinnedBob, []⟩
        [dropsDevice, linksTablet] := by
  obtain ⟨hserved, hpublished⟩ := linksTablet_flow droppedState.history
  refine ⟨congrArg FlowResult.published dropsDevice_flow, droppedState_pin, hpublished, rfl,
    by simp [relinkedRoster], ?_, ?_⟩
  · have hdropped : droppedState.served = [bobRoster] :=
      enrolStep_served (congrArg FlowResult.served dropsDevice_flow)
    have hlinked : (enrolStep relinkClient bobAccount droppedState linksTablet).served =
        droppedState.served ++ [bobRoster] :=
      enrolStep_served hserved
    rw [hlinked, hdropped]
    rintro (⟨d, hd, hkey⟩ | ⟨r, hr, hle, -⟩)
    · rw [List.mem_singleton.mp hd] at hkey
      exact absurd hkey (by decide)
    · have hr : r = bobRoster := by simpa using hr
      rw [hr] at hle
      exact absurd hle (by decide)
  · rintro ⟨-, hlink, -⟩
    exact absurd (hlink droppedPin relinkedRoster droppedState_pin hpublished).1 (by decide)

end Sona
