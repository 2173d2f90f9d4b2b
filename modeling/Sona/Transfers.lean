/-
# Transfers that are taken up again

`accept_primary_transfer` publishes twice: the rotation that gives the account this
device's keys, and the roster that names it the primary. It may fail or be cut off
before, between and after, and is called again until it returns. A call finds in the
log how far the others came, and leaves out what is published.

It leaves out the checks that go with it, too. Once the rotation is published nothing
compares the demoted record with the old primary, so another offer puts another device
into the roster (`transfer_smuggles_device`), and nothing compares the offer's rotation
with the one that is published. `transfer_run_iff` says when the calls of a run keep the
devices, and when the last one leaves the pin that it should.

Key definitions: `TransferCall`, `Transferred`, `TransferSound`, `TransferFits`.
Key theorems: `pinOwnRoster_iff`, `transferred_iff`, `transfer_sound_iff`, `transfer_run_iff`.
-/
import Mathlib.Data.List.Forall2
import Sona.Lib.Trace
import Sona.Enrolment

namespace Sona

/-! ### Calls -/

/-- A call, with what the relay answers to it, and whether the client lives to save what
it comes to. -/
structure TransferCall where
  rotation : KtEntry
  demoted : DeviceRecord
  addedAt : ℕ
  now : ℕ
  binding : BindingAnswer
  answer : RosterAnswer
  registered : Except ClientError Unit
  posted : Except ClientError Unit
  saved : Bool

section calls

variable (K : KtClient) (a : Account) (h : History) (c : TransferCall)

def TransferCall.flow : FlowResult ℕ :=
  Client.acceptPrimaryTransfer K a h c.rotation c.demoted c.addedAt c.now c.binding c.answer c.registered c.posted

/-- A client that crashes has what it saved before. -/
def transferStep : History := if c.saved then (c.flow K a h).history else h

/-- The rotation is published, and this call goes on to the roster. -/
def TransferCall.Resumes : KtEntry → KtRosterEntry → Prop :=
  Resumed K a h c.rotation c.demoted c.binding c.answer

/-- The call publishes the rotation, and goes on to the roster. -/
def TransferCall.Rotates : KtEntry → KtRosterEntry → Prop :=
  Sona.Rotates K a h c.rotation c.demoted c.binding c.answer c.registered

/-- Both are published. -/
def TransferCall.Done : KtEntry → KtRosterEntry → Prop :=
  TransferDone K a h c.rotation c.demoted c.binding c.answer

/-- The roster that a call publishes behind `prev`. -/
def TransferCall.roster (prev : KtRosterEntry) : KtRosterEntry :=
  a.ktRosterEntry K.crypto.sha (prev.seq + 1)
    (transferredRecords a (identityHash K.crypto.sha a.accountId) h.selfDeviceId c.demoted c.addedAt prev.devices) c.now

/-- A device before and after: the keys are the same, this device is the primary, and
the old primary has the id of the offer. -/
def Transferred (d d' : DeviceRecord) : Prop :=
  (d'.identityKey = d.identityKey ∧ d'.signingKey = d.signingKey) ∧
    d'.deviceId = if isOwnRecord a h.selfDeviceId d then primaryDeviceId
      else if d.deviceId = primaryDeviceId then c.demoted.deviceId else d.deviceId

/-- The pin is this roster. -/
def PinIs (h : History) (username primaryKey : String) (roster : KtRosterEntry) : Prop :=
  ∃ P, h.contactRosters.get username = some P ∧ P.seq = roster.seq ∧ P.primaryKey = primaryKey ∧
    P.devices = roster.devices.map (·.toRosterDevice)

/-- **What a call must not get wrong**, whatever became of the ones before it. -/
structure TransferSound : Prop where
  kept : ∀ roster, (c.flow K a h).published = some roster →
    ∃ prev, (c.flow K a h).served = some prev ∧
    prev.usernameHash = identityHash K.crypto.sha a.accountId ∧
    List.Forall₂ (Transferred a h c) prev.devices roster.devices ∧
    (∃ d ∈ prev.devices, isOwnRecord a h.selfDeviceId d = true) ∧
    ∃ d ∈ prev.devices, isOwnRecord a h.selfDeviceId d = false ∧ d.deviceId = primaryDeviceId
  unchanged : (c.flow K a h).history ≠ h → ∃ current prev,
    fetchVerifiedEntry K (identityHash K.crypto.sha a.accountId) c.binding = .ok current ∧
    fetchOwnRoster K c.answer = .ok (some prev) ∧
    ((current.identityKey = a.identityKey ∧ current.signingKey = a.signingKey) ∨ c.registered = .ok ()) ∧
    ((∃ d ∈ prev.devices, d.deviceId = primaryDeviceId ∧ d.identityKey = a.identityKey) ∨
      (c.flow K a h).published.isSome = true ∧ c.posted = .ok ())
  completed : ∀ seq, (c.flow K a h).result = .ok seq →
    (c.flow K a h).history.isPrimaryDevice = true ∧
    (c.flow K a h).history.selfPrimaryKey = some a.identityKey ∧
    ∃ roster, ((c.flow K a h).published <|> (c.flow K a h).served) = some roster ∧
    roster.seq = seq ∧
      roster.usernameHash = identityHash K.crypto.sha a.accountId ∧
      PinIs (c.flow K a h).history a.accountId a.identityKey roster

/-- The pin takes a roster, or has it. -/
def PinTakes (username : String) (bindingSeq : ℕ) (primaryKey : String) (roster : KtRosterEntry) :
    Prop :=
  (∀ P, h.contactRosters.get username = some P → P.rolledBack bindingSeq roster.seq primaryKey = false) ∨
    PinIs h username primaryKey roster

/-- **What a call has to find.** This device is listed with the keys it has. Where the rotation is
published, the roster that is served is the account's, and its primary has the keys of the demoted
record. And the pin takes what the call comes to. -/
structure TransferFits : Prop where
  own : ∀ current prev, c.Resumes K a h current prev ∨ c.Rotates K a h current prev →
    ∀ d ∈ prev.devices, isOwnRecord a h.selfDeviceId d = true → d.signingKey = a.signingKey
  resumed : ∀ current prev, c.Resumes K a h current prev →
    prev.usernameHash = identityHash K.crypto.sha a.accountId ∧
    ∀ d ∈ prev.devices, isOwnRecord a h.selfDeviceId d = false → d.deviceId = primaryDeviceId →
      c.demoted.identityKey = d.identityKey ∧ c.demoted.signingKey = d.signingKey
  pinned : ∀ current prev, c.Resumes K a h current prev ∨ c.Rotates K a h current prev →
    c.posted = .ok () →
    PinTakes h a.accountId c.rotation.seq a.identityKey (c.roster K a h prev)
  done : ∀ current prev, c.Done K a h current prev →
    prev.usernameHash = identityHash K.crypto.sha a.accountId ∧
    PinTakes h a.accountId current.seq a.identityKey prev

end calls

/-! ### Pins -/

section pins

variable {h : History} {username primaryKey : String} {bindingSeq : ℕ} {roster : KtRosterEntry}

/-- **The pin is the roster afterwards exactly if it takes it**, or had it. -/
theorem pinOwnRoster_iff :
    PinIs (h.pinOwnRoster username bindingSeq primaryKey roster) username primaryKey roster ↔
    PinTakes h username bindingSeq primaryKey roster := by
  unfold PinTakes History.pinOwnRoster History.pinRoster
  cases hpin : h.contactRosters.get username with
  | none =>
    refine iff_of_true ⟨_, Table.get_set_self _ _ _, rfl, rfl, rfl⟩ (Or.inl ?_)
    simp
  | some P =>
    dsimp only
    cases hback : P.rolledBack bindingSeq roster.seq primaryKey with
    | true =>
      rw [if_pos rfl]
      simp [hback]
    | false =>
      rw [if_neg (by simp)]
      refine iff_of_true ⟨_, Table.get_set_self _ _ _, rfl, rfl, rfl⟩ (Or.inl ?_)
      simpa using hback

theorem adoptPrimaryState_pin :
    PinIs (h.adoptPrimaryState bindingSeq username primaryKey roster) username primaryKey roster ↔
    PinTakes h username bindingSeq primaryKey roster := by
  have hsame : PinTakes (((h.setSelfDevice primaryDeviceId true).setSelfPrimaryKey primaryKey).setSelfRosterSeq roster.seq)
      username bindingSeq primaryKey roster ↔
      PinTakes h username bindingSeq primaryKey roster := Iff.rfl
  rw [← hsame]
  exact pinOwnRoster_iff

theorem adoptPrimaryState_primary :
    (h.adoptPrimaryState bindingSeq username primaryKey roster).isPrimaryDevice = true ∧
    (h.adoptPrimaryState bindingSeq username primaryKey roster).selfPrimaryKey =
      some primaryKey := by
  have hpin : ∀ h : History, (h.pinOwnRoster username bindingSeq primaryKey roster).selfDevice = h.selfDevice ∧
      (h.pinOwnRoster username bindingSeq primaryKey roster).selfPrimaryKey = h.selfPrimaryKey := by
    intro h
    unfold History.pinOwnRoster History.pinRoster
    split
    · exact ⟨rfl, rfl⟩
    · split <;> exact ⟨rfl, rfl⟩
  unfold History.adoptPrimaryState History.isPrimaryDevice
  rw [(hpin _).1, (hpin _).2]
  exact ⟨rfl, rfl⟩

end pins

/-! ### One call -/

section call

variable {K : KtClient} {a : Account} {h : History} {c : TransferCall} {current : KtEntry}
  {prev : KtRosterEntry}

/-- The roster has the devices of the one before exactly if it keeps the keys
of the two that change their ids. -/
theorem transferred_iff :
    List.Forall₂ (Transferred a h c) prev.devices (c.roster K a h prev).devices ↔
    (∀ d ∈ prev.devices, isOwnRecord a h.selfDeviceId d = true → d.signingKey = a.signingKey) ∧
      ∀ d ∈ prev.devices, isOwnRecord a h.selfDeviceId d = false → d.deviceId = primaryDeviceId →
        c.demoted.identityKey = d.identityKey ∧ c.demoted.signingKey = d.signingKey := by
  have hdevices : (c.roster K a h prev).devices =
      transferredRecords a (identityHash K.crypto.sha a.accountId)
      h.selfDeviceId c.demoted c.addedAt prev.devices := rfl
  rw [hdevices]
  unfold transferredRecords
  rw [List.forall₂_map_right_iff, List.forall₂_same, ← forall₂_and]
  refine forall₂_congr fun d _ => ?_
  unfold Transferred
  cases hown : isOwnRecord a h.selfDeviceId d with
  | true =>
    have hkey : d.identityKey = a.identityKey := (isOwnRecord_iff.mp hown).2
    simp only [if_true, Account.deviceRecord]
    simp [hkey, eq_comm]
  | false =>
    simp only [Bool.false_eq_true, if_false]
    by_cases hid : d.deviceId = primaryDeviceId
    · simp [hid]
    · simp [hid]

theorem publishes_served (hp : c.Resumes K a h current prev ∨ c.Rotates K a h current prev) :
    TransferServed K a h c.binding c.answer current prev := by
  rcases hp with hp | hp
  · exact hp.served
  · exact hp.served

theorem publishes_asked (hp : c.Resumes K a h current prev ∨ c.Rotates K a h current prev) :
    fetchOwnRoster K c.answer = .ok (some prev) := (publishes_served hp).asked

/-- A call that finds both published goes no further. -/
theorem done_publishes_nothing {current' : KtEntry} {prev' : KtRosterEntry}
    (hd : c.Done K a h current' prev')
    (hp : c.Resumes K a h current prev ∨ c.Rotates K a h current prev) : False := by
  cases hd.asked.symm.trans (publishes_asked hp)
  rcases hp with hp | hp
  · obtain ⟨d, hd, hid, hmine⟩ := hd.named
    exact hp.unnamed d hd hid hmine
  · cases hd.presented.symm.trans hp.served.presented
    exact hp.other hd.rotated

theorem flow_ways (K : KtClient) (a : Account) (h : History) (c : TransferCall) :
    (∃ current prev, c.Done K a h current prev ∧ c.flow K a h =
      { result := .ok prev.seq, history := h.adoptPrimaryState current.seq a.accountId a.identityKey prev
        served := some prev }) ∨
    (∃ current prev, (c.Resumes K a h current prev ∨ c.Rotates K a h current prev) ∧ c.flow K a h =
      transferPublished K a h c.rotation c.demoted c.addedAt c.now prev c.posted) ∨
    ((∀ current prev, ¬ (c.Done K a h current prev ∨ c.Resumes K a h current prev ∨ c.Rotates K a h current prev)) ∧
      ∃ e served, c.flow K a h = .failed e h served) :=
  acceptPrimaryTransfer_ways c.rotation c.demoted c.addedAt c.now c.binding c.answer c.registered c.posted

/-- What both publications are found to be is taken over. -/
theorem flow_done (hd : c.Done K a h current prev) : c.flow K a h =
    { result := .ok prev.seq, history := h.adoptPrimaryState current.seq a.accountId a.identityKey prev
      served := some prev } := by
  rcases flow_ways K a h c with ⟨current', prev', hd', heq⟩ | ⟨current', prev', hp, -⟩ | ⟨hnone, -⟩
  · cases hd.presented.symm.trans hd'.presented
    cases hd.asked.symm.trans hd'.asked
    exact heq
  · exact (done_publishes_nothing hd hp).elim
  · exact absurd (Or.inl hd) (hnone current prev)

/-- A call that goes on to the roster publishes it. -/
theorem flow_publishes (hp : c.Resumes K a h current prev ∨ c.Rotates K a h current prev) :
    c.flow K a h =
    transferPublished K a h c.rotation c.demoted c.addedAt c.now prev c.posted := by
  rcases flow_ways K a h c with ⟨current', prev', hd, -⟩ | ⟨current', prev', hp', heq⟩ | ⟨hnone, -⟩
  · exact (done_publishes_nothing hd hp).elim
  · cases (publishes_asked hp).symm.trans (publishes_asked hp')
    exact heq
  · exact absurd (Or.inr hp) (hnone current prev)

theorem publishes_roster (hp : c.Resumes K a h current prev ∨ c.Rotates K a h current prev) :
    (c.flow K a h).published = some (c.roster K a h prev) ∧ (c.flow K a h).served = some prev := by
  rw [flow_publishes hp]
  unfold transferPublished
  cases c.posted <;> exact ⟨rfl, rfl⟩

/-- A rotation that is published now: the roster is the account's, and the
demoted record is the old primary's. -/
theorem rotates_kept (hr : c.Rotates K a h current prev) :
    prev.usernameHash = identityHash K.crypto.sha a.accountId ∧
    ∀ d ∈ prev.devices, isOwnRecord a h.selfDeviceId d = false → d.deviceId = primaryDeviceId →
      c.demoted.identityKey = d.identityKey ∧ c.demoted.signingKey = d.signingKey := by
  obtain ⟨-, hidk, hsgk, hval, -⟩ := publishRotation_ok hr.accepted
  refine ⟨?_, fun d hd _ hid => ?_⟩
  · have hname := (fetchVerifiedEntry_ok.mp hr.served.presented).name
    rw [← hname]
    unfold KtRosterEntry.validateAgainst at hval
    by_contra hother
    rw [if_pos hother] at hval
    cases hval
  · have hlisted := ((KtRosterEntry.validateAgainst_ok hval).2.2 d hd).2.2 hid
    rw [hlisted.1, hlisted.2]
    exact ⟨hidk, hsgk⟩

/-- A sound call that publishes keeps the devices. -/
theorem TransferSound.kept_devices (hs : TransferSound K a h c)
    (hp : c.Resumes K a h current prev ∨ c.Rotates K a h current prev) :
    prev.usernameHash = identityHash K.crypto.sha a.accountId ∧
      List.Forall₂ (Transferred a h c) prev.devices (c.roster K a h prev).devices := by
  obtain ⟨hpublished, hserved⟩ := publishes_roster hp
  obtain ⟨prev', hprev, hhash, hall, -⟩ := hs.kept _ hpublished
  cases hserved.symm.trans hprev
  exact ⟨hhash, hall⟩

theorem TransferSound.fits (hs : TransferSound K a h c) : TransferFits K a h c := by
  constructor
  · intro current prev hp
    exact (transferred_iff.mp (hs.kept_devices hp).2).1
  · intro current prev hp
    obtain ⟨hhash, hall⟩ := hs.kept_devices (Or.inl hp)
    exact ⟨hhash, (transferred_iff.mp hall).2⟩
  · intro current prev hp hposted
    have hflow := flow_publishes hp
    unfold transferPublished at hflow
    rw [hposted] at hflow
    dsimp only at hflow
    obtain ⟨-, -, roster, hroster, -, -, hpin⟩ := hs.completed (prev.seq + 1) (by rw [hflow])
    rw [hflow] at hroster hpin
    cases hroster
    exact adoptPrimaryState_pin.mp hpin
  · intro current prev hd
    have hflow := flow_done hd
    obtain ⟨-, -, roster, hroster, -, hhash, hpin⟩ := hs.completed prev.seq (by rw [hflow])
    rw [hflow] at hroster hpin
    cases hroster
    exact ⟨hhash, adoptPrimaryState_pin.mp hpin⟩

/-- A call that finds both published is sound. -/
theorem TransferFits.sound_done (hf : TransferFits K a h c) (hd : c.Done K a h current prev) :
    TransferSound K a h c := by
  obtain ⟨hhash, htakes⟩ := hf.done current prev hd
  have heq := flow_done hd
  constructor
  · intro roster hroster
    rw [heq] at hroster
    cases hroster
  · intro _
    exact ⟨current, prev, hd.presented, hd.asked, Or.inl hd.rotated, Or.inl hd.named⟩
  · intro seq hok
    rw [heq] at hok ⊢
    cases hok
    exact ⟨adoptPrimaryState_primary.1, adoptPrimaryState_primary.2, prev, rfl, rfl, hhash,
      adoptPrimaryState_pin.mpr htakes⟩

/-- The roster is the account's, and the demoted record is the old primary's,
in a call that publishes. -/
theorem TransferFits.old_primary (hf : TransferFits K a h c)
    (hp : c.Resumes K a h current prev ∨ c.Rotates K a h current prev) :
    prev.usernameHash = identityHash K.crypto.sha a.accountId ∧
      ∀ d ∈ prev.devices, isOwnRecord a h.selfDeviceId d = false → d.deviceId = primaryDeviceId →
        c.demoted.identityKey = d.identityKey ∧ c.demoted.signingKey = d.signingKey := by
  rcases hp with hp | hp
  · exact hf.resumed current prev hp
  · exact rotates_kept hp

theorem publishes_rotated (hp : c.Resumes K a h current prev ∨ c.Rotates K a h current prev) :
    (current.identityKey = a.identityKey ∧ current.signingKey = a.signingKey) ∨
    c.registered = .ok () := by
  rcases hp with hp | hp
  · exact Or.inl hp.rotated
  · exact Or.inr (publishRotation_ok hp.accepted).2.2.2.2

/-- A call that publishes the next roster is sound. -/
theorem TransferFits.sound_publishes (hf : TransferFits K a h c)
    (hp : c.Resumes K a h current prev ∨ c.Rotates K a h current prev) : TransferSound K a h c := by
  have hserved := publishes_served hp
  obtain ⟨hhash, hold⟩ := hf.old_primary hp
  obtain ⟨hpublished, hprev⟩ := publishes_roster hp
  have heq := flow_publishes hp
  unfold transferPublished at heq
  constructor
  · intro roster hroster
    cases hpublished.symm.trans hroster
    exact ⟨prev, hprev, hhash, transferred_iff.mpr ⟨hf.own current prev hp, hold⟩, hserved.own,
      hserved.primary⟩
  · intro hchanged
    refine ⟨current, prev, hserved.presented, hserved.asked, publishes_rotated hp,
      Or.inr ⟨by rw [hpublished]; rfl, ?_⟩⟩
    by_contra hposted
    cases hok : c.posted with
    | error e =>
      rw [heq, hok] at hchanged
      exact hchanged rfl
    | ok u => exact hposted hok
  · intro seq hok
    rw [heq] at hok ⊢
    cases hposted : c.posted with
    | error e =>
      rw [hposted] at hok
      cases hok
    | ok u =>
      rw [hposted] at hok
      cases hok
      exact ⟨adoptPrimaryState_primary.1, adoptPrimaryState_primary.2, c.roster K a h prev,
        rfl, rfl, rfl, adoptPrimaryState_pin.mpr (hf.pinned current prev hp hposted)⟩

/-- A call that fails is sound. -/
theorem transferSound_failed {e : ClientError} {served : Option KtRosterEntry}
    (heq : c.flow K a h = .failed e h served) : TransferSound K a h c := by
  constructor
  · intro roster hroster
    rw [heq] at hroster
    cases hroster
  · intro hchanged
    rw [heq] at hchanged
    exact absurd rfl hchanged
  · intro seq hok
    rw [heq] at hok
    cases hok

/-- **A call is sound exactly if it finds what it has to.** -/
theorem transfer_sound_iff : TransferSound K a h c ↔ TransferFits K a h c := by
  refine ⟨TransferSound.fits, fun hf => ?_⟩
  rcases flow_ways K a h c with ⟨current, prev, hd, -⟩ | ⟨current, prev, hp, -⟩
    | ⟨-, e, served, heq⟩
  · exact hf.sound_done hd
  · exact hf.sound_publishes hp
  · exact transferSound_failed heq

end call

/-- **A run of calls keeps the devices and the pin exactly if every call of it finds what it
has to**, in the state that the ones before it left. -/
theorem transfer_run_iff (K : KtClient) (a : Account) (h : History) (calls : List TransferCall) :
    Trace.Along (transferStep K a) (TransferSound K a) h calls ↔
    Trace.Along (transferStep K a) (TransferFits K a) h calls :=
  ⟨Trace.Along.imp (I := fun _ => True) (fun _ _ _ _ => trivial) (fun _ _ _ => transfer_sound_iff.mp) trivial,
    Trace.Along.imp (I := fun _ => True) (fun _ _ _ _ => trivial) (fun _ _ _ => transfer_sound_iff.mpr) trivial⟩

/-! ### Another offer -/

def otherDevice : String := "00112233445566778899aabbccddeeff"

/-- The account makes its linked device the primary. -/
def transferEntry : KtEntry :=
  { seq := 1, usernameHash := bobHash, identityKey := deviceRecord.identityKey,
    signingKey := deviceKey
    prevSigningKey := some bobKey, timestamp := 2000, released := false
    signature := "bg48VoOGg8hbaSx5WgRftGwD+63MfEXRuzpMEmYy0lkcDm6kfnsqeppcqX40TH+Y3RZCrkXjbFFtFeT/65++CA" }

/-- A rotation to the same keys, from before the account had any. -/
def outdatedEntry : KtEntry :=
  { seq := 0, usernameHash := bobHash, identityKey := deviceRecord.identityKey,
    signingKey := deviceKey
    prevSigningKey := none, timestamp := 2000, released := false
    signature := "ojynPCUVblFJR2x/HLo2BeWde+4/FEU3e+heZ4dmCjuCqDOCcvMZ3s0Gg1PXw36yqI/Bh4q0Wb5t46ayBWEvBw" }

def demotedRecord : DeviceRecord :=
  { deviceId := otherDevice, identityKey := bobEntry.identityKey, signingKey := bobKey,
    addedAt := 2000
    signature := "P/oZEqz35+O2PLekO4pHEa6IMRjF6i88JfQ2T+HcOuH/+0Xffw0pIhGWoSVS9lnW+Q2A76ws4NvghDNImCBNBQ" }

/-- A record of keys that are not the account's. -/
def smuggledRecord : DeviceRecord :=
  { deviceId := otherDevice, identityKey := malloryIdentity, signingKey := malloryKey,
    addedAt := 2000
    signature := "3h4dQ7ROXjuZy4FD3B4wX7IKwh0Ir4siUqbunL5umcul7BvnF3pJWO97dXG+VFh4hj6o9XTNLV29XHQoqAkSAA" }

def promotedRecord : DeviceRecord :=
  { deviceId := primaryDeviceId, identityKey := deviceRecord.identityKey, signingKey := deviceKey,
    addedAt := 2500
    signature := "oJ+0yVZe76Vs+fAsal8ATtsCs3br9nosytJh+/rKptExVpJ0VSeTrrXmhYmFVz7SqMP26XRzNwvwaMAg5T1WCA" }

def smuggledRoster : KtRosterEntry :=
  { seq := 1, usernameHash := bobHash, devices := [smuggledRecord, promotedRecord],
    timestamp := 2500
    signature := "jE49qwmItoaAH3TaTUWyOnKx68wREq4Cd457KPbs6pq7gS/y5I0PYjxsRGFsducryuhEFY9L2h1cK13F2tclBw" }

/-- The head of the log once the rotation is in it. -/
def transferProof : SampleProof :=
  { sth :=
      { treeSize := 3, rootB64 := "Tt6olYg7nTWbw03Guen1wCiZGaQPAGyFZcDlw3bH4IM", timestamp := 2100
        signatureB64 := "TOJUi3/rkG6oyaMb1KbFTnCXtVTJ4G8z7oMdwge1kfLhmeFFahW9nqQ0IWZxJIPtOmO+Z1MpVEf8SqvfrzOACg" }
    leaf := transferEntry.leafBytes, index := 2,
    proofB64 := "STkKri8808V0YQDWjYNX2E5gIK52bWuHwKbE31POFaM" }

def transferSigned : Signatures :=
  [(bobKey, transferEntry.signingPayload, transferEntry.signature),
    (deviceKey, outdatedEntry.signingPayload, outdatedEntry.signature),
    (bobKey, demotedRecord.signingPayload bobHash, demotedRecord.signature),
    (malloryKey, smuggledRecord.signingPayload bobHash, smuggledRecord.signature)] ++ rosterSigned

def transferClient : KtClient :=
  sampleClient transferSigned [bobEntryProof, bobRosterProof, transferProof]

/-- The linked device, with the signatures it makes below. -/
def deviceAccount : Account :=
  { accountId := "bob", identityKey := deviceRecord.identityKey, signingKey := deviceKey
    sign := fun payload => if payload = promotedRecord.signingPayload bobHash then promotedRecord.signature else
      if payload = smuggledRoster.signingPayload then smuggledRoster.signature else "" }

def linkedBob : History :=
  (pinnedBob.setSelfDevice sampleDevice false).setSelfPrimaryKey bobEntry.identityKey

/-- The rotation is sent, and the answer does not come. -/
def cutOff : TransferCall :=
  { rotation := transferEntry, demoted := demotedRecord, addedAt := 2400, now := 2400
    binding := bobEntryProof.binding bobEntry, answer := bobRosterProof.roster bobRoster
    registered := .error (.http none), posted := .ok (), saved := true }

/-- The retry, with another offer. -/
def retriesWith (rotation : KtEntry) (demoted : DeviceRecord) : TransferCall :=
  { rotation, demoted, addedAt := 2500, now := 2500
    binding := transferProof.binding transferEntry, answer := bobRosterProof.roster bobRoster
    registered := .ok (), posted := .ok (), saved := true }

theorem retriesWith_resumes {rotation : KtEntry} {demoted : DeviceRecord}
    (hoffer : GoodOffer transferClient deviceAccount linkedBob rotation demoted) :
    (retriesWith rotation demoted).Resumes transferClient deviceAccount linkedBob transferEntry bobRoster where
  offer := hoffer
  served :=
    { presented := fetchVerifiedEntry_ok.mpr (sampleClient_presented (by simp)
        ⟨by decide +kernel, by decide +kernel, by decide +kernel⟩ rfl
        (by simp [transferSigned, KtEntry.signer, transferEntry]) (by decide +kernel) (by decide +kernel) namedSha_bob.symm)
      asked := (sampleClient_served (by simp) bobRosterProof_reads rfl).own
      notBehind := fun P hpin => by
        have hsame : linkedBob.contactRosters.get "bob" = some bobPin := pinnedBob_pin
        cases hsame.symm.trans hpin
        exact le_rfl
      own := ⟨deviceRecord, by simp [bobRoster], by decide⟩
      primary := ⟨primaryRecord, by simp [bobRoster], by decide⟩ }
  rotated := ⟨rfl, rfl⟩
  unnamed := by decide

/-- Both offers are good: the rotation that is in the log with another demoted
record, and another rotation. -/
theorem retries_offer :
    GoodOffer transferClient deviceAccount linkedBob transferEntry smuggledRecord ∧
      GoodOffer transferClient deviceAccount linkedBob outdatedEntry demotedRecord := by
  have hname : identityHash transferClient.crypto.sha deviceAccount.accountId = bobHash :=
    namedSha_bob
  constructor
  · exact
      { notPrimary := rfl
        name := namedSha_bob.symm
        keys := ⟨rfl, rfl⟩
        signed := sampleClient_verifies (by simp [transferSigned, KtEntry.signer, transferEntry])
          (by decide +kernel)
          (by decide +kernel)
        linked := by decide
        wellFormed := by decide +kernel
        possession := by
          rw [hname]
          exact sampleClient_verifies (by simp [transferSigned, smuggledRecord]) (by decide +kernel) (by decide +kernel) }
  · exact
      { notPrimary := rfl
        name := namedSha_bob.symm
        keys := ⟨rfl, rfl⟩
        signed := sampleClient_verifies (by simp [transferSigned, KtEntry.signer, outdatedEntry])
          (by decide +kernel)
          (by decide +kernel)
        linked := by decide
        wellFormed := by decide +kernel
        possession := by
          rw [hname]
          exact sampleClient_verifies (by simp [transferSigned, demotedRecord]) (by decide +kernel) (by decide +kernel) }

theorem smuggled_offer :
    GoodOffer transferClient deviceAccount linkedBob transferEntry smuggledRecord := retries_offer.1

theorem outdated_offer :
    GoodOffer transferClient deviceAccount linkedBob outdatedEntry demotedRecord := retries_offer.2

/-- The call that is cut off leaves the device as it is. -/
theorem cutOff_step : transferStep transferClient deviceAccount linkedBob cutOff = linkedBob := by
  have hother : ∀ {current}, fetchVerifiedEntry transferClient
      (identityHash transferClient.crypto.sha
      deviceAccount.accountId) cutOff.binding = .ok current → current = bobEntry := by
    intro current hpresented
    obtain ⟨sth, index, proofB64, hserved, -⟩ := (fetchVerifiedEntry_ok.mp hpresented).served
    cases hserved
    rfl
  have hsaved : cutOff.saved = true := rfl
  unfold transferStep
  rw [if_pos hsaved]
  rcases flow_ways transferClient deviceAccount linkedBob cutOff with
    ⟨current, prev, hd, -⟩ | ⟨current, prev, hr | hr, -⟩ | ⟨-, e, served, heq⟩
  · cases hother hd.presented
    exact absurd hd.rotated.1 (by decide)
  · cases hother hr.served.presented
    exact absurd hr.rotated.1 (by decide)
  · cases (publishRotation_ok hr.accepted).2.2.2.2
  · rw [heq]
    rfl

/-- **The retry comes with another demoted record, or with another rotation**: the first puts a
device of mallory's in the place of the old primary, and after the second the
pin is still the old one. -/
theorem transfer_smuggles_device :
    ((retriesWith transferEntry smuggledRecord).flow transferClient deviceAccount
        (transferStep transferClient deviceAccount linkedBob cutOff)).served = some bobRoster ∧
      ((retriesWith transferEntry smuggledRecord).flow transferClient deviceAccount
        (transferStep transferClient deviceAccount linkedBob cutOff)).published = some smuggledRoster ∧
      (malloryIdentity, malloryKey) ∈ smuggledRoster.devices.map (fun d => (d.identityKey, d.signingKey)) ∧
      (malloryIdentity, malloryKey) ∉ bobRoster.devices.map (fun d => (d.identityKey, d.signingKey)) ∧
      (bobEntry.identityKey, bobKey) ∉ smuggledRoster.devices.map (fun d => (d.identityKey, d.signingKey)) ∧
      ¬ Trace.Along (transferStep transferClient deviceAccount) (TransferSound transferClient deviceAccount) linkedBob
        [cutOff, retriesWith transferEntry smuggledRecord] ∧
      ((retriesWith outdatedEntry demotedRecord).flow transferClient deviceAccount linkedBob).result = .ok 1 ∧
      ((retriesWith outdatedEntry demotedRecord).flow transferClient deviceAccount
        linkedBob).history.contactRosters.get "bob" = some bobPin ∧
      ¬ Trace.Along (transferStep transferClient deviceAccount) (TransferSound transferClient deviceAccount) linkedBob
        [cutOff, retriesWith outdatedEntry demotedRecord] := by
  have hsmuggles := retriesWith_resumes smuggled_offer
  have houtdates := retriesWith_resumes outdated_offer
  obtain ⟨hpublished, hserved⟩ := publishes_roster (Or.inl hsmuggles)
  have hroster :
      (retriesWith transferEntry smuggledRecord).roster transferClient deviceAccount linkedBob bobRoster =
      smuggledRoster := by
    decide +kernel
  have hflow := flow_publishes (Or.inl houtdates)
  rw [cutOff_step]
  refine ⟨hserved, hpublished.trans (congrArg some hroster),
    by decide, by decide, by decide, ?_, ?_, ?_, ?_⟩
  · rintro ⟨-, hsound, -⟩
    rw [cutOff_step] at hsound
    have hfits := (transfer_sound_iff.mp hsound).resumed _ _ hsmuggles
    exact absurd (hfits.2 primaryRecord (by simp [bobRoster]) (by decide) rfl).1 (by decide)
  · rw [hflow]
    rfl
  · rw [hflow]
    decide +kernel
  · rintro ⟨-, hsound, -⟩
    rw [cutOff_step] at hsound
    have hfits := (transfer_sound_iff.mp hsound).pinned _ _ (Or.inl houtdates) rfl
    rcases hfits with hnew | ⟨P, hpin, hseq, -⟩
    · exact absurd (hnew bobPin pinnedBob_pin) (by decide)
    · have hsame : linkedBob.contactRosters.get "bob" = some bobPin := pinnedBob_pin
      cases hsame.symm.trans hpin
      exact absurd hseq (by decide)

end Sona
