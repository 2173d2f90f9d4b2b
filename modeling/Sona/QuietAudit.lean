/-
# Audits over an honest history

`multidevice/roster.rs` with `http/kt.rs` and the flows of `multidevice/link.rs` and
`revoke.rs`: the name of an account from before its first binding on, where every binding
of the name is the account's and every roster is published by a flow of the client that
is primary then, which pins it (`OwnStep`). The relay is honest: it answers with every
leaf of the name (`leavesFor`), in a log that proves them.

The audit compares the leaves of all times with the keys and the pin of now, so it is
content with such a history as long as nothing ever goes: every epoch lists the devices of
the one before it, and an identity key keeps its signing key (`Publication.Lasts`). A
device that is revoked is in the log for good, and from then on the audit reports it as
one that was never enrolled (`revocation_alarms`).

Key definitions: `KtLog.leavesFor`, `OwnState`, `OwnStep`, `Publication.Lasts`, `OwnRun`.
Key theorems: `OwnStep.steps`, `audit_iff_quiet`, `quiet_step_iff`, `audit_quiet_run`.
-/
import Mathlib.Data.List.Basic
import Sona.LeafAudit
import Sona.Chain
import Sona.Transfers

namespace Sona

/-! ### The answer of the relay -/

def KtRecord.shown : KtRecord → LeafRecord
  | .binding e => .binding (some e)
  | .roster r => .roster (some r)

/-- `kt_leaves`: every leaf of the name with its proof. -/
def KtLog.leavesFor (kt : KtLog) (proofB64 : ℕ → String) (usernameHash : String) : List Leaf :=
  (kt.allIndicesFor usernameHash).filterMap fun index =>
    kt.records[index]?.map fun r => ⟨some index, r.shown, some (proofB64 index)⟩

theorem KtLog.Indexed.mem_leavesFor {kt : KtLog} (h : kt.Indexed) {proofB64 : ℕ → String}
    {u : String} {leaf : Leaf} :
    leaf ∈ kt.leavesFor proofB64 u ↔
      ∃ i r, kt.records[i]? = some r ∧ r.usernameHash = u ∧
      leaf = ⟨some i, r.shown, some (proofB64 i)⟩ := by
  unfold KtLog.leavesFor
  rw [List.mem_filterMap]
  constructor
  · rintro ⟨i, hi, hleaf⟩
    obtain ⟨r, hr, hu⟩ := h.mem_allIndicesFor.mp hi
    rw [hr] at hleaf
    exact ⟨i, r, hr, hu, (Option.some.inj hleaf).symm⟩
  · rintro ⟨i, r, hr, hu, rfl⟩
    exact ⟨i, h.mem_allIndicesFor.mpr ⟨r, hr, hu⟩, by rw [hr]; rfl⟩

/-! ### The account and its log -/

/-- The log of the relay, with the account as it is on the device that is primary, and the
history there. -/
structure OwnState where
  log : KtLog
  account : Account
  history : History

namespace OwnState

variable (K : KtClient) (s : OwnState)

def name : String := identityHash K.crypto.sha s.account.accountId

/-- The bindings of the name in log order. -/
def bindings : List KtEntry := bindingsOf (s.name K) s.log.records

def rosters : List KtRosterEntry := rostersOf (s.name K) s.log.records

def known : List String := s.history.knownDevices s.account.accountId

/-- The audit, with a head and the proofs that the relay made under it. -/
def audit (sth : SignedTreeHead) (proofB64 : ℕ → String) : Except ClientError LeafAudit :=
  Client.auditOwnLeaves K s.account s.history (.served (some sth) (s.log.leavesFor proofB64 (s.name K)))

/-- The head is signed by the log, and the proofs are good under it. -/
structure Proved (sth : SignedTreeHead) (proofB64 : ℕ → String) : Prop where
  head : verifySthB64 K.heads K.pinnedKtKey sth = true
  included : ∀ i r, s.log.records[i]? = some r → r.usernameHash = s.name K →
    K.included sth r.leafBytes i (proofB64 i) = true

/-- Before the first binding: nothing of the name is in the log, and no roster is pinned. -/
structure Fresh : Prop where
  indexed : s.log.Indexed
  bindings : s.bindings K = []
  rosters : s.rosters K = []
  unpinned : s.history.contactRosters.get s.account.accountId = none

end OwnState

/-- What a step puts into the log under the name. -/
structure Publication where
  entry : Option KtEntry := none
  roster : Option KtRosterEntry := none

/-- The name of a record that a call would append. -/
def KtCall.usernameHash : KtCall → String
  | .append entry => entry.usernameHash
  | .appendRoster roster => roster.usernameHash

/-- **A step of an honest history.** -/
inductive OwnStep (K : KtClient) (s : OwnState) : Publication → OwnState → Prop
  /-- A binding of the account to its keys: the name is claimed, given up or
  taken back, or the keys change. -/
  | binds (entry : KtEntry) (account : Account) (i : ℕ) (log : KtLog)
      (same : account.accountId = s.account.accountId) (own : entry.usernameHash = s.name K)
      (keys : entry.identityKey = account.identityKey ∧ entry.signingKey = account.signingKey)
      (appended : s.log.call K.crypto (.append entry) = (.ok i, log)) :
      OwnStep K s { entry := some entry } ⟨log, account, s.history⟩
  /-- A device is linked or revoked: the flow publishes the next epoch, and pins it. -/
  | enrols (op : EnrolOp) (roster : KtRosterEntry) (i : ℕ) (log : KtLog)
      (published : (op.flow K s.account s.history).published = some roster)
      (appended : s.log.call K.crypto (.appendRoster roster) = (.ok i, log))
      (pinned : PinIs (op.flow K s.account s.history).history s.account.accountId s.account.identityKey roster) :
      OwnStep K s { roster := some roster } ⟨log, s.account, (op.flow K s.account s.history).history⟩
  /-- Another device becomes the primary: the rotation to its keys is in the log, and it publishes
  and pins the epoch that names it. -/
  | transfers (account : Account) (history : History) (c : TransferCall)
      (roster : KtRosterEntry) (i j : ℕ)
      (rotated log : KtLog) (same : account.accountId = s.account.accountId)
      (published : (c.flow K account history).published = some roster)
      (rotation : s.log.call K.crypto (.append c.rotation) = (.ok i, rotated))
      (appended : rotated.call K.crypto (.appendRoster roster) = (.ok j, log))
      (pinned : PinIs (c.flow K account history).history account.accountId account.identityKey roster) :
      OwnStep K s { entry := some c.rotation, roster := some roster } ⟨log, account, (c.flow K account history).history⟩
  /-- What others ask of the log, and what else the client does. -/
  | elsewhere (call : KtCall) (history : History) (other : call.usernameHash ≠ s.name K)
      (pin : history.contactRosters.get s.account.accountId = s.history.contactRosters.get s.account.accountId) :
      OwnStep K s {} ⟨(s.log.call K.crypto call).2, s.account, history⟩

/-- **Nothing goes**: an epoch lists every identity key of the one before it, and an identity key
that was bound keeps its signing key. -/
structure Publication.Lasts (K : KtClient) (s : OwnState) (p : Publication) : Prop where
  keys : ∀ entry, p.entry = some entry → ∀ e ∈ s.bindings K,
    e.identityKey = entry.identityKey → e.signingKey = entry.signingKey
  devices : ∀ roster last, p.roster = some roster → (s.rosters K).getLast? = some last →
    ∀ d ∈ last.devices, ∃ d' ∈ roster.devices, d'.identityKey = d.identityKey

/-- The states that a history reaches whose steps all meet `P`. -/
inductive OwnRun (K : KtClient) (P : OwnState → Publication → Prop) : OwnState → Prop
  | fresh {s : OwnState} (h : s.Fresh K) : OwnRun K P s
  | step {s s' : OwnState} {p : Publication} (before : OwnRun K P s) (h : OwnStep K s p s')
      (meets : P s p) :
      OwnRun K P s'

/-! ### What a step does -/

/-- A step as the name sees it. -/
structure Steps (K : KtClient) (s : OwnState) (p : Publication) (s' : OwnState) : Prop where
  indexed : s'.log.Indexed
  bindings : s'.bindings K = s.bindings K ++ p.entry.toList
  rosters : s'.rosters K = s.rosters K ++ p.roster.toList
  signed : ∀ entry, p.entry = some entry → entry.verifySignature K.crypto = true
  rebound : ∀ entry, p.entry = some entry →
    entry.identityKey = s'.account.identityKey ∧ entry.signingKey = s'.account.signingKey
  unbound : p.entry = none → s'.account = s.account
  listed : ∀ roster, p.roster = some roster → roster.devices ≠ []
  pinned : ∀ roster, p.roster = some roster → s'.known = roster.devices.map (·.identityKey)
  unpinned : p.roster = none → s'.known = s.known

section steps

variable {C : Crypto} {kt kt' : KtLog} {u : String} {i : ℕ} {entry : KtEntry}
  {roster : KtRosterEntry}

theorem append_accepted (h : kt.Indexed) (ha : kt.call C (.append entry) = (.ok i, kt')) :
    entry.verifySignature C = true ∧ kt' = kt.pushBinding entry := by
  rcases KtLog.call_cases C h.wf (.append entry) with ⟨e, hcall, -⟩ | ⟨entry', heq, hcall, hsig, -⟩
    | ⟨r, current, heq, -⟩
  · rw [hcall] at ha
    cases ha
  · cases heq
    rw [hcall] at ha
    cases ha
    exact ⟨hsig, rfl⟩
  · cases heq

theorem appendRoster_accepted (h : kt.Indexed)
    (ha : kt.call C (.appendRoster roster) = (.ok i, kt')) :
    (∃ current, roster.validateAgainst C current = .ok ()) ∧ kt' = kt.pushRoster roster := by
  rcases KtLog.call_cases C h.wf (.appendRoster roster) with
    ⟨e, hcall, -⟩ | ⟨entry', heq, -⟩ | ⟨r, current, heq, hcall, -, -, hval, -⟩
  · rw [hcall] at ha
    cases ha
  · cases heq
  · cases heq
    rw [hcall] at ha
    cases ha
    exact ⟨⟨current, hval⟩, rfl⟩

theorem append_valid (hsig : entry.verifySignature C = true)
    (hchain : kt.checkChain entry = .ok ()) :
    kt.call C (.append entry) = (.ok kt.records.length, kt.pushBinding entry) := by
  unfold KtLog.call appendInPlace
  dsimp only
  rw [hsig, hchain]
  rfl

theorem appendRoster_valid {current : KtEntry}
    (hlatest : kt.latestBindingFor roster.usernameHash = some current)
    (hrel : current.released = false) (hval : roster.validateAgainst C current = .ok ())
    (hseq : roster.seq = kt.expectedSeq roster.usernameHash) :
    kt.call C (.appendRoster roster) = (.ok kt.records.length, kt.pushRoster roster) := by
  unfold KtLog.call appendRosterInPlace
  dsimp only
  rw [hlatest]
  dsimp only
  rw [hrel, hval, if_neg (by simp)]
  dsimp only
  rw [if_neg (not_not.mpr hseq)]
  rfl

theorem bindingsOf_pushBinding : bindingsOf u (kt.pushBinding entry).records =
    bindingsOf u kt.records ++ if entry.usernameHash = u then [entry] else [] := by
  change bindingsOf u (kt.records ++ [.binding entry]) = _
  rw [bindingsOf_snoc]
  dsimp only [KtRecord.bindingOf]
  split <;> rfl

theorem bindingsOf_pushRoster :
    bindingsOf u (kt.pushRoster roster).records = bindingsOf u kt.records := by
  change bindingsOf u (kt.records ++ [.roster roster]) = _
  rw [bindingsOf_snoc]
  exact List.append_nil _

theorem rostersOf_pushBinding :
    rostersOf u (kt.pushBinding entry).records = rostersOf u kt.records := by
  change rostersOf u (kt.records ++ [.binding entry]) = _
  rw [rostersOf_append]
  exact List.append_nil _

theorem rostersOf_pushRoster : rostersOf u (kt.pushRoster roster).records =
    rostersOf u kt.records ++ if roster.usernameHash = u then [roster] else [] := by
  change rostersOf u (kt.records ++ [.roster roster]) = _
  rw [rostersOf_append]
  unfold rostersOf KtRecord.rosterOf
  split
  · rename_i hu
    simp [hu]
  · rename_i hu
    simp [hu]

theorem KtLog.Indexed.call (h : kt.Indexed) (c : KtCall) : (kt.call C c).2.Indexed := by
  rcases KtLog.call_cases C h.wf c with ⟨e, hcall, -⟩ | ⟨e, -, hcall, -⟩ | ⟨r, current, -, hcall, -⟩
  · rw [hcall]
    exact h
  · rw [hcall]
    exact h.pushBinding e
  · rw [hcall]
    exact h.pushRoster r

/-- A call for another name leaves the records of this one as they are. -/
theorem call_other (h : kt.Indexed) {c : KtCall} (hother : c.usernameHash ≠ u) :
    bindingsOf u (kt.call C c).2.records = bindingsOf u kt.records ∧
      rostersOf u (kt.call C c).2.records = rostersOf u kt.records := by
  rcases KtLog.call_cases C h.wf c with ⟨e, hcall, -⟩ | ⟨e, rfl, hcall, -⟩
    | ⟨r, current, rfl, hcall, -⟩
  · rw [hcall]
    exact ⟨rfl, rfl⟩
  · rw [hcall, bindingsOf_pushBinding, if_neg (show e.usernameHash ≠ u from hother)]
    exact ⟨List.append_nil _, rostersOf_pushBinding⟩
  · rw [hcall, rostersOf_pushRoster, if_neg (show r.usernameHash ≠ u from hother)]
    exact ⟨bindingsOf_pushRoster, List.append_nil _⟩

end steps

section flows

variable {K : KtClient} {a : Account} {h : History} {roster : KtRosterEntry}

/-- What a flow publishes is a roster of the account. -/
theorem EnrolOp.published_name {op : EnrolOp} (hp : (op.flow K a h).published = some roster) :
    roster.usernameHash = identityHash K.crypto.sha a.accountId := by
  cases op with
  | authorizeLink req addedAt now answer posted upload =>
    rcases authorizeLink_cases (K := K) (a := a) (h := h) req addedAt now answer posted upload with
      ⟨previous, -, -, heq⟩ | ⟨-, heq⟩
    · cases hp.symm.trans heq
      rfl
    · cases hp.symm.trans heq
  | revokeDevice deviceId now answer posted =>
    rcases revokeDevice_cases (K := K) (a := a) (h := h) deviceId now answer posted with ⟨prev, -, -, heq⟩ | ⟨-, heq⟩
    · cases hp.symm.trans heq
      rfl
    · cases hp.symm.trans heq
  | offerPrimaryTransfer target newDeviceId rotatedAt addedAt binding answer delivered =>
    cases hp.symm.trans (offerPrimaryTransfer_published (K := K) (a := a) (h := h) target newDeviceId rotatedAt addedAt
      binding answer delivered)
  | acceptPrimaryTransfer rotation demoted addedAt now binding answer registered posted =>
    rcases acceptPrimaryTransfer_cases (K := K) (a := a) (h := h) rotation demoted addedAt now binding answer registered
      posted with ⟨current, prev, -, -, -, heq⟩ | ⟨-, heq⟩
    · cases hp.symm.trans heq
      rfl
    · cases hp.symm.trans heq

/-- A transfer that publishes a roster was offered to the account, for the
account's name and keys. -/
theorem TransferCall.published_offer {c : TransferCall}
    (hp : (c.flow K a h).published = some roster) :
    GoodOffer K a h c.rotation c.demoted ∧
    roster.usernameHash = identityHash K.crypto.sha a.accountId := by
  rcases flow_ways K a h c with ⟨current, prev, -, heq⟩ | ⟨current, prev, hways, -⟩
    | ⟨-, e, served, heq⟩
  · rw [heq] at hp
    cases hp
  · cases hp.symm.trans (publishes_roster hways).1
    refine ⟨?_, rfl⟩
    rcases hways with hres | hrot
    · exact hres.offer
    · exact hrot.offer
  · rw [heq] at hp
    cases hp

theorem PinIs.known {username primaryKey : String} (hpin : PinIs h username primaryKey roster) :
    h.knownDevices username = roster.devices.map (·.identityKey) := by
  obtain ⟨P, hP, -, -, hdevices⟩ := hpin
  rw [knownDevices_pinned hP, hdevices, List.map_map]
  rfl

end flows

/-- **What a step does**: it puts its publication behind the records of the
name, and the pin is the roster of it. -/
theorem OwnStep.steps {K : KtClient} {s s' : OwnState} {p : Publication} (hi : s.log.Indexed)
    (h : OwnStep K s p s') :
    Steps K s p s' := by
  cases h with
  | binds entry account i log same own keys appended =>
    obtain ⟨hsig, rfl⟩ := append_accepted hi appended
    unfold OwnState.name at own
    exact
      { indexed := hi.pushBinding entry
        bindings := by
          unfold OwnState.bindings OwnState.name
          rw [same, bindingsOf_pushBinding, if_pos own]
          rfl
        rosters := by
          unfold OwnState.rosters OwnState.name
          rw [same, rostersOf_pushBinding]
          exact (List.append_nil _).symm
        signed := by
          rintro _ ⟨⟩
          exact hsig
        rebound := by
          rintro _ ⟨⟩
          exact keys
        unbound := nofun
        listed := nofun
        pinned := nofun
        unpinned := fun _ => congrArg s.history.knownDevices same }
  | enrols op roster i log published appended pinned =>
    obtain ⟨⟨current, hval⟩, rfl⟩ := appendRoster_accepted hi appended
    exact
      { indexed := hi.pushRoster roster
        bindings := by
          unfold OwnState.bindings
          exact bindingsOf_pushRoster.trans (List.append_nil _).symm
        rosters := by
          unfold OwnState.rosters OwnState.name
          rw [rostersOf_pushRoster, if_pos (EnrolOp.published_name published)]
          rfl
        signed := nofun
        rebound := nofun
        unbound := fun _ => rfl
        listed := by
          rintro _ ⟨⟩
          exact devices_of_validateAgainst hval
        pinned := by
          rintro _ ⟨⟩
          exact pinned.known
        unpinned := nofun }
  | transfers account history c roster i j rotated log same published rotation appended pinned =>
    obtain ⟨hsig, rfl⟩ := append_accepted hi rotation
    obtain ⟨⟨current, hval⟩, rfl⟩ := appendRoster_accepted (hi.pushBinding c.rotation) appended
    obtain ⟨hoffer, hname⟩ := TransferCall.published_offer published
    rw [same] at hname
    exact
      { indexed := (hi.pushBinding c.rotation).pushRoster roster
        bindings := by
          unfold OwnState.bindings OwnState.name
          rw [same, bindingsOf_pushRoster, bindingsOf_pushBinding, if_pos (same ▸ hoffer.name)]
          rfl
        rosters := by
          unfold OwnState.rosters OwnState.name
          rw [same, rostersOf_pushRoster, rostersOf_pushBinding, if_pos hname]
          rfl
        signed := by
          rintro _ ⟨⟩
          exact hsig
        rebound := by
          rintro _ ⟨⟩
          exact hoffer.keys
        unbound := nofun
        listed := by
          rintro _ ⟨⟩
          exact devices_of_validateAgainst hval
        pinned := by
          rintro _ ⟨⟩
          exact pinned.known
        unpinned := nofun }
  | elsewhere call history other pin =>
    obtain ⟨hbindings, hrosters⟩ := call_other (C := K.crypto) hi other
    exact
      { indexed := hi.call call
        bindings := hbindings.trans (List.append_nil _).symm
        rosters := hrosters.trans (List.append_nil _).symm
        signed := nofun
        rebound := nofun
        unbound := fun _ => rfl
        listed := nofun
        pinned := nofun
        unpinned := fun _ => by
          unfold OwnState.known History.knownDevices
          rw [pin] }

/-! ### When the audit is content -/

/-- What holds of every honest history: the bindings are signed, and the pin is
the last roster, if there is one. -/
structure Followed (K : KtClient) (s : OwnState) : Prop where
  indexed : s.log.Indexed
  signed : ∀ e ∈ s.bindings K, e.verifySignature K.crypto = true
  listed : ∀ r ∈ s.rosters K, r.devices ≠ []
  pinned : s.known = (((s.rosters K).getLast?).map fun r => r.devices.map (·.identityKey)).getD []

/-- The log says nothing of the account but what it is now. -/
structure Quiet (K : KtClient) (s : OwnState) : Prop where
  keys : ∀ e ∈ s.bindings K, e.identityKey = s.account.identityKey →
    e.signingKey = s.account.signingKey
  devices : ∀ last, (s.rosters K).getLast? = some last →
    ∀ r ∈ s.rosters K, ∀ d ∈ r.devices, ∃ d' ∈ last.devices, d'.identityKey = d.identityKey

section quiet

variable {K : KtClient} {s s' : OwnState} {p : Publication}

theorem OwnState.mem_bindings {e : KtEntry} :
    e ∈ s.bindings K ↔ ∃ i : ℕ, s.log.records[i]? = some (.binding e) ∧
    e.usernameHash = s.name K := by
  unfold OwnState.bindings bindingsOf
  rw [List.mem_filterMap]
  constructor
  · rintro ⟨r, hr, he⟩
    obtain ⟨rfl, hu⟩ := KtRecord.bindingOf_eq_some.mp he
    obtain ⟨i, hi⟩ := List.mem_iff_getElem?.mp hr
    exact ⟨i, hi, hu⟩
  · rintro ⟨i, hi, hu⟩
    exact ⟨_, List.mem_of_getElem? hi, KtRecord.bindingOf_eq_some.mpr ⟨rfl, hu⟩⟩

theorem OwnState.mem_rosters {r : KtRosterEntry} :
    r ∈ s.rosters K ↔ ∃ i : ℕ, s.log.records[i]? = some (.roster r) ∧
    r.usernameHash = s.name K := by
  unfold OwnState.rosters rostersOf
  rw [List.mem_filterMap]
  constructor
  · rintro ⟨r', hr, he⟩
    obtain ⟨rfl, hu⟩ := KtRecord.rosterOf_eq_some.mp he
    obtain ⟨i, hi⟩ := List.mem_iff_getElem?.mp hr
    exact ⟨i, hi, hu⟩
  · rintro ⟨i, hi, hu⟩
    exact ⟨_, List.mem_of_getElem? hi, KtRecord.rosterOf_eq_some.mpr ⟨rfl, hu⟩⟩

theorem exists_last {r : KtRosterEntry} (hr : r ∈ s.rosters K) :
    ∃ last, (s.rosters K).getLast? = some last :=
  Option.isSome_iff_exists.mp (List.getLast?_isSome.mpr (List.ne_nil_of_mem hr))

theorem followed_fresh (h : s.Fresh K) : Followed K s where
  indexed := h.indexed
  signed e he := by
    rw [h.bindings] at he
    cases he
  listed r hr := by
    rw [h.rosters] at hr
    cases hr
  pinned := by
    unfold OwnState.known History.knownDevices
    rw [h.unpinned, h.rosters]
    rfl

theorem quiet_fresh (h : s.Fresh K) : Quiet K s where
  keys e he := by
    rw [h.bindings] at he
    cases he
  devices last hlast := by
    rw [h.rosters] at hlast
    cases hlast

theorem Followed.step (hf : Followed K s) (h : OwnStep K s p s') : Followed K s' := by
  have hs := h.steps hf.indexed
  refine ⟨hs.indexed, fun e he => ?_, fun r hr => ?_, ?_⟩
  · rw [hs.bindings, List.mem_append, Option.mem_toList] at he
    exact he.elim (hf.signed e) (hs.signed e)
  · rw [hs.rosters, List.mem_append, Option.mem_toList] at hr
    exact hr.elim (hf.listed r) (hs.listed r)
  · rw [hs.rosters]
    cases hroster : p.roster with
    | none => simpa [hs.unpinned hroster] using hf.pinned
    | some roster => simp [hs.pinned roster hroster]

/-- The last roster that is pinned lists a device. -/
theorem Followed.known (hf : Followed K s) {last : KtRosterEntry}
    (hlast : (s.rosters K).getLast? = some last) :
    s.known = last.devices.map (·.identityKey) ∧ s.known ≠ [] := by
  have hknown : s.known = last.devices.map (·.identityKey) := by
    rw [hf.pinned, hlast]
    rfl
  refine ⟨hknown, ?_⟩
  rw [hknown]
  simpa using hf.listed last (List.mem_of_getLast? hlast)

section leaves

variable {sth : SignedTreeHead} {proofB64 : ℕ → String} (hproved : s.Proved K sth proofB64) {i : ℕ}
include hproved

theorem OwnState.Proved.binding_leaf (hf : Followed K s) {e : KtEntry}
    (hr : s.log.records[i]? = some (.binding e)) (hu : e.usernameHash = s.name K)
    (hown : e.identityKey = s.account.identityKey → e.signingKey = s.account.signingKey) :
    auditLeaf K s.account s.known sth ⟨some i, .binding (some e), some (proofB64 i)⟩ = some [] := by
  refine auditLeaf_clean.mpr (.binding e rfl ?_ hown)
  unfold KtClient.verifyInclusionB64
  rw [hf.signed e (OwnState.mem_bindings.mpr ⟨i, hr, hu⟩)]
  exact hproved.included i _ hr hu

theorem OwnState.Proved.roster_leaf {r : KtRosterEntry} (hr : s.log.records[i]? = some (.roster r))
    (hu : r.usernameHash = s.name K) :
    auditLeaf K s.account s.known sth ⟨some i, .roster (some r), some (proofB64 i)⟩ =
      some ((r.devices.filter fun d => !s.known.isEmpty && !s.known.contains d.identityKey).map fun d =>
        foreignDevice i r.seq d.deviceId) :=
  auditLeaf_roster rfl (hproved.included i _ hr hu)

end leaves

/-- **With all leaves and good proofs the audit is content exactly if the history is quiet.** -/
theorem audit_iff_quiet (hf : Followed K s) {sth : SignedTreeHead} {proofB64 : ℕ → String}
    (hproved : s.Proved K sth proofB64) :
    (∃ n, s.audit K sth proofB64 = .ok (.ok n)) ↔ Quiet K s := by
  unfold OwnState.audit
  rw [auditOwnLeaves_ok]
  constructor
  · intro hp
    constructor
    · intro e he
      obtain ⟨i, hi, hu⟩ := OwnState.mem_bindings.mp he
      exact hp.binding ⟨_, hf.indexed.mem_leavesFor.mpr ⟨i, _, hi, hu, rfl⟩, rfl⟩
    · intro last hlast r hr d hd
      obtain ⟨i, hi, hu⟩ := OwnState.mem_rosters.mp hr
      obtain ⟨hknown, hne⟩ := hf.known hlast
      have hmem := hp.enrolled ⟨_, hf.indexed.mem_leavesFor.mpr ⟨i, _, hi, hu, rfl⟩, rfl⟩ hne d hd
      rw [← OwnState.known, hknown] at hmem
      exact List.mem_map.mp hmem
  · intro hq
    refine ⟨hproved.head, fun leaf hleaf => ?_⟩
    obtain ⟨i, r, hr, hu, rfl⟩ := hf.indexed.mem_leavesFor.mp hleaf
    have hin := hproved.included i r hr hu
    cases r with
    | binding e =>
      have he := OwnState.mem_bindings.mpr ⟨i, hr, hu⟩
      refine .binding e rfl ?_ (hq.keys e he)
      unfold KtClient.verifyInclusionB64
      rw [hf.signed e he]
      exact hin
    | roster r =>
      have hmem := OwnState.mem_rosters.mpr ⟨i, hr, hu⟩
      refine .roster r rfl hin fun _ d hd => ?_
      obtain ⟨last, hlast⟩ := exists_last hmem
      obtain ⟨d', hd', heq⟩ := hq.devices last hlast r hmem d hd
      rw [← OwnState.known, (hf.known hlast).1, ← heq]
      exact List.mem_map_of_mem hd'

/-- **From a quiet history, a step comes to a quiet one exactly if nothing goes.** -/
theorem quiet_step_iff (hf : Followed K s) (hq : Quiet K s) (h : OwnStep K s p s') :
    Quiet K s' ↔ p.Lasts K s := by
  have hs := h.steps hf.indexed
  constructor
  · intro hq'
    constructor
    · intro entry hentry e he heq
      obtain ⟨hidk, hsgk⟩ := hs.rebound entry hentry
      have hmem : e ∈ s'.bindings K := by
        rw [hs.bindings]
        exact List.mem_append_left _ he
      rw [hsgk]
      exact hq'.keys e hmem (heq.trans hidk)
    · intro roster last hroster hlast
      have hlast' : (s'.rosters K).getLast? = some roster := by
        rw [hs.rosters, hroster]
        simp
      have hmem : last ∈ s'.rosters K := by
        rw [hs.rosters]
        exact List.mem_append_left _ (List.mem_of_getLast? hlast)
      exact hq'.devices roster hlast' last hmem
  · intro hl
    constructor
    · intro e he heq
      rw [hs.bindings, List.mem_append, Option.mem_toList] at he
      cases hentry : p.entry with
      | none =>
        rw [hentry] at he
        rw [hs.unbound hentry] at heq ⊢
        exact hq.keys e (he.resolve_right nofun) heq
      | some entry =>
        obtain ⟨hidk, hsgk⟩ := hs.rebound entry hentry
        rcases he with he | he
        · rw [← hsgk]
          exact hl.keys entry hentry e he (heq.trans hidk.symm)
        · exact (hs.rebound e he).2
    · intro last hlast r hr d hd
      rw [hs.rosters] at hlast hr
      cases hroster : p.roster with
      | none =>
        rw [hroster] at hlast hr
        simp only [Option.toList_none, List.append_nil] at hlast hr
        exact hq.devices last hlast r hr d hd
      | some roster =>
        rw [hroster] at hlast hr
        simp only [Option.toList_some, List.getLast?_append, List.getLast?_singleton,
          Option.some_or, Option.some.injEq, List.mem_append, List.mem_singleton] at hlast hr
        subst hlast
        rcases hr with hr | rfl
        · obtain ⟨before, hbefore⟩ := exists_last hr
          obtain ⟨d', hd', heq⟩ := hq.devices before hbefore r hr d hd
          obtain ⟨d'', hd'', heq'⟩ := hl.devices roster before hroster hbefore d' hd'
          exact ⟨d'', hd'', heq'.trans heq⟩
        · exact ⟨d, hd, rfl⟩

end quiet

section runs

variable {K : KtClient} {s : OwnState} {P : OwnState → Publication → Prop}

theorem OwnRun.followed (h : OwnRun K P s) : Followed K s := by
  induction h with
  | fresh h => exact followed_fresh h
  | step _ h _ ih => exact ih.step h

theorem OwnRun.quiet (h : OwnRun K (fun s p => p.Lasts K s) s) : Quiet K s := by
  induction h with
  | fresh h => exact quiet_fresh h
  | step before h meets ih => exact (quiet_step_iff before.followed ih h).mpr meets

end runs

/-- **In a history in which nothing goes, every audit is content**, and the first step with which
something goes is the first one after which no audit is. -/
theorem audit_quiet_run (K : KtClient) :
    (∀ s, OwnRun K (fun s p => p.Lasts K s) s → ∀ sth proofB64, s.Proved K sth proofB64 →
      ∃ n, s.audit K sth proofB64 = .ok (.ok n)) ∧
    ∀ s p s', OwnRun K (fun s p => p.Lasts K s) s → OwnStep K s p s' →
    ∀ sth proofB64, s'.Proved K sth proofB64 →
      ((∃ n, s'.audit K sth proofB64 = .ok (.ok n)) ↔ p.Lasts K s) := by
  constructor
  · intro s hrun sth proofB64 hproved
    exact (audit_iff_quiet hrun.followed hproved).mpr hrun.quiet
  · intro s p s' hrun h sth proofB64 hproved
    rw [audit_iff_quiet (hrun.followed.step h) hproved]
    exact quiet_step_iff hrun.followed hrun.quiet h

/-! ### With which flows something goes -/

section flows

variable {K : KtClient} {s : OwnState} {last roster : KtRosterEntry}

/-- A binding to the keys that the account has keeps them. -/
theorem same_keys_last (hq : Quiet K s) {entry : KtEntry}
    (hidk : entry.identityKey = s.account.identityKey)
    (hsgk : entry.signingKey = s.account.signingKey) :
    Publication.Lasts K s { entry := some entry } where
  keys := by
    rintro _ ⟨⟩ e he heq
    rw [hsgk]
    exact hq.keys e he (heq.trans hidk)
  devices := nofun

/-- A device that is linked to the last epoch goes behind the others. -/
theorem link_lasts {req : LinkRequest} {addedAt now : ℕ} {answer : RosterAnswer}
    {posted : Except ClientError Unit} {upload : Bytes → String → Except ClientError Unit}
    (hserved : (Client.authorizeLink K s.account s.history req addedAt now answer posted upload).served =
      (s.rosters K).getLast?)
    (hpublished : (Client.authorizeLink K s.account s.history req addedAt now answer posted upload).published =
      some roster) :
    Publication.Lasts K s { roster := some roster } where
  keys := nofun
  devices := by
    rintro _ last ⟨⟩ hlast d hd
    rcases authorizeLink_cases (K := K) (a := s.account) (h := s.history) req addedAt now answer posted upload with
      ⟨previous, -, hprev, heq⟩ | ⟨-, heq⟩
    · cases (hprev.symm.trans hserved).trans hlast
      cases hpublished.symm.trans heq
      exact ⟨d, List.mem_append_left _ hd, rfl⟩
    · cases hpublished.symm.trans heq

/-- A device that is revoked goes, unless another one has its key. -/
theorem revoke_lasts_iff {deviceId : String} {now : ℕ} {answer : RosterAnswer}
    {posted : Except ClientError Unit} (hlast : (s.rosters K).getLast? = some last)
    (hserved : (Client.revokeDevice K s.account s.history deviceId now answer posted).served = some last)
    (hpublished : (Client.revokeDevice K s.account s.history deviceId now answer posted).published = some roster) :
    Publication.Lasts K s { roster := some roster } ↔
      ∀ d ∈ last.devices, d.deviceId = deviceId →
        ∃ d' ∈ last.devices, d'.deviceId ≠ deviceId ∧ d'.identityKey = d.identityKey := by
  have hdevices : roster.devices = last.devices.filter fun d => d.deviceId ≠ deviceId := by
    rcases revokeDevice_cases (K := K) (a := s.account) (h := s.history) deviceId now answer posted with
      ⟨prev, -, hprev, heq⟩ | ⟨-, heq⟩
    · cases hprev.symm.trans hserved
      cases hpublished.symm.trans heq
      rfl
    · cases hpublished.symm.trans heq
  constructor
  · intro hl d hd _
    obtain ⟨d', hd', heq⟩ := hl.devices roster last rfl hlast d hd
    rw [hdevices, List.mem_filter, decide_eq_true_eq] at hd'
    exact ⟨d', hd'.1, hd'.2, heq⟩
  · intro hother
    refine ⟨nofun, ?_⟩
    rintro _ last' ⟨⟩ hlast' d hd
    cases hlast.symm.trans hlast'
    rw [hdevices]
    by_cases hid : d.deviceId = deviceId
    · obtain ⟨d', hd', hne, heq⟩ := hother d hd hid
      exact ⟨d', List.mem_filter.mpr ⟨hd', by simpa using hne⟩, heq⟩
    · exact ⟨d, List.mem_filter.mpr ⟨hd, by simpa using hid⟩, rfl⟩

/-- A transfer keeps the identity keys of the last epoch: the device had its key before, and the
record that is demoted has the key of the old primary. -/
theorem transfer_lasts {account : Account} {history : History} {c : TransferCall}
    {current : KtEntry} (hlast : (s.rosters K).getLast? = some last)
    (hrot : c.Rotates K account history current last)
    (hkeys : ∀ e ∈ s.bindings K, e.identityKey = c.rotation.identityKey → e.signingKey = c.rotation.signingKey) :
    Publication.Lasts K s { entry := some c.rotation, roster := some (c.roster K account history last) } where
  keys := by
    rintro _ ⟨⟩
    exact hkeys
  devices := by
    rintro _ last' ⟨⟩ hlast' d hd
    cases hlast.symm.trans hlast'
    refine ⟨_, List.mem_map_of_mem hd, ?_⟩
    cases hown : isOwnRecord account history.selfDeviceId d with
    | true => exact (isOwnRecord_iff.mp hown).2.symm
    | false =>
      rw [if_neg (by simp)]
      split
      · rename_i hid
        exact ((rotates_kept hrot).2 d hd hown hid).1
      · rfl

end flows

/-! ### A device that was linked and revoked -/

/-- The account, with the signatures that it makes below. -/
def ownerBob : Account :=
  { accountId := "bob", identityKey := bobEntry.identityKey, signingKey := bobKey
    sign := fun payload => if payload = primaryRecord.signingPayload bobHash then primaryRecord.signature else
      if payload = bobRoster.signingPayload then bobRoster.signature else droppingRoster.signature }

/-- The head of the log once the device is revoked. -/
def revokedHead : SignedTreeHead :=
  { treeSize := 3, rootB64 := "DM3t+oprkz+vLgqnPqXcia7gHvDmK6lzPF7228eMSoI", timestamp := 1600
    signatureB64 := "bIJkGjV9KJSOebvLPGaTeD7FsLrizuRDBYdQu6zl8WnYlv9fREs6YeQOiCoZzuiOA+7MiKMDHUkfykgChs+aAw" }

def revokedEntryProof : SampleProof :=
  ⟨revokedHead, bobEntry.leafBytes, 0,
    "EVTtVRkcImp02nOsThjSJiAR9oZ3+UTJwm7FKEXNk9ah4vwJSeutOz5Wt5uD0IJoTXvnJU2jb5pSz0+XCRD/7A"⟩

def revokedRosterProof : SampleProof :=
  ⟨revokedHead, bobRoster.leafBytes, 1,
    "8eBwpP0DvwdO7dNbRLp8S1jQJ8JKsb7mBD5BWu1XTqih4vwJSeutOz5Wt5uD0IJoTXvnJU2jb5pSz0+XCRD/7A"⟩

def droppingProof : SampleProof :=
  ⟨revokedHead, droppingRoster.leafBytes, 2, "STkKri8808V0YQDWjYNX2E5gIK52bWuHwKbE31POFaM"⟩

def ownerClient : KtClient :=
  sampleClient ((bobKey, droppingRoster.signingPayload, droppingRoster.signature) :: rosterSigned)
    [bobEntryProof, bobRosterProof, revokedEntryProof, revokedRosterProof, droppingProof]

def linksDevice : EnrolOp :=
  .authorizeLink ⟨sampleDevice, deviceRecord, sampleNonce, sampleDevice⟩ 1000 1000 .notFound (.ok ()) fun _ _ => .ok ()

def freshState : OwnState := ⟨freshLog defaultReleaseGraceSecs, ownerBob, {}⟩

def boundState : OwnState := ⟨freshState.log.pushBinding bobEntry, ownerBob, {}⟩

/-- The device is linked, and the first epoch is pinned. -/
def linkedState : OwnState :=
  ⟨boundState.log.pushRoster bobRoster, ownerBob, History.adoptPrimaryState {} 0 "bob" bobEntry.identityKey bobRoster⟩

/-- The device is revoked, and the epoch without it is pinned. -/
def revokedState : OwnState :=
  ⟨linkedState.log.pushRoster droppingRoster, ownerBob,
    (linkedState.history.setSelfRosterSeq 1).pinOwnRoster "bob" 0 bobEntry.identityKey droppingRoster⟩

theorem ownerPayloads_ne : bobRoster.signingPayload ≠ primaryRecord.signingPayload bobHash ∧
    droppingRoster.signingPayload ≠ primaryRecord.signingPayload bobHash ∧
      droppingRoster.signingPayload ≠ bobRoster.signingPayload := by
  decide +kernel

/-- What the log says of the name, before the device is linked, before it is revoked, and then. -/
theorem ownerLogs :
    (boundState.log.latestBindingFor bobHash = some bobEntry ∧
      boundState.log.expectedSeq bobHash = 0 ∧
      (boundState.rosters ownerClient).getLast? = none) ∧
    (linkedState.log.latestBindingFor bobHash = some bobEntry ∧
      linkedState.log.expectedSeq bobHash = 1 ∧
      linkedState.history.contactRosters.get "bob" = some bobPin) ∧
    revokedState.log.bindingIndices bobHash ++ revokedState.log.rosterIndices bobHash = [0, 1, 2] ∧
      revokedState.known = [bobEntry.identityKey] := by
  decide +kernel

theorem unknown_devices : ((bobRoster.devices.filter fun d =>
      !([bobEntry.identityKey].isEmpty) && !([bobEntry.identityKey].contains d.identityKey)) = [deviceRecord]) ∧
    (droppingRoster.devices.filter fun d =>
      !([bobEntry.identityKey].isEmpty) && !([bobEntry.identityKey].contains d.identityKey)) = [] := by
  decide

/-- The texts of the account and of the proofs can be read. -/
theorem ownerTexts_read :
    (∀ made ∈ (bobKey, droppingRoster.signingPayload, droppingRoster.signature) :: rosterSigned,
      readable (· = 32) made.1 = true ∧ readable (· = 64) made.2.2 = true) ∧
    (∀ p ∈ [bobEntryProof, revokedEntryProof, revokedRosterProof, droppingProof],
      readable (· = 32) p.sth.rootB64 = true ∧ readable (· = 64) p.sth.signatureB64 = true ∧
        readable (· % 32 = 0) p.proofB64 = true) ∧
    linkSecretFromB64 ownerClient.heads sampleNonce ≠ none := by
  decide +kernel

theorem ownerProofs_read {p : SampleProof}
    (hp : p ∈ [bobEntryProof, revokedEntryProof, revokedRosterProof, droppingProof]) : p.Reads :=
  have hread := ownerTexts_read.2.1 p hp
  ⟨hread.1, hread.2.1, hread.2.2⟩

/-- The step of a flow that posted its roster, from what the flow comes to. -/
theorem enrolled_step {K : KtClient} {s : OwnState} (op : EnrolOp) {roster : KtRosterEntry} {i : ℕ}
    {log : KtLog} {history : History} {served : Option KtRosterEntry}
    (hflow : op.flow K s.account s.history = { result := .ok (), history, served, published := some roster })
    (appended : s.log.call K.crypto (.appendRoster roster) = (.ok i, log))
    (pinned : PinIs history s.account.accountId s.account.identityKey roster) :
    OwnStep K s { roster := some roster } ⟨log, s.account, history⟩ := by
  have hstep := OwnStep.enrols (K := K) (s := s) op roster i log (by rw [hflow]) appended
    (by rw [hflow]; exact pinned)
  rwa [hflow] at hstep

theorem ownerClient_verifies {key signature : String} {message : Bytes}
    (hmade : (key, message, signature) ∈
      (bobKey, droppingRoster.signingPayload, droppingRoster.signature) :: rosterSigned) :
    ownerClient.crypto.verifyEd25519 key message signature = true :=
  sampleClient_verifies hmade (ownerTexts_read.1 _ hmade).1 (ownerTexts_read.1 _ hmade).2

theorem ownerBob_name : identityHash ownerClient.crypto.sha ownerBob.accountId = bobHash :=
  namedSha_bob

/-- The record that an account makes is the one whose signature is its own. -/
theorem deviceRecord_eq {a : Account} {h : String} {d : DeviceRecord}
    (hidk : a.identityKey = d.identityKey) (hsgk : a.signingKey = d.signingKey)
    (hsigned : a.sign (d.signingPayload h) = d.signature) :
    a.deviceRecord h d.deviceId d.addedAt = d := by
  unfold Account.deviceRecord
  rw [hidk, hsgk]
  change ({ d with signature := a.sign (d.signingPayload h) } : DeviceRecord) = d
  rw [hsigned]

theorem ktRosterEntry_eq {a : Account} {sha : Sha256} {r : KtRosterEntry}
    (hname : identityHash sha a.accountId = r.usernameHash)
    (hsigned : a.sign r.signingPayload = r.signature) :
    a.ktRosterEntry sha r.seq r.devices r.timestamp = r := by
  unfold Account.ktRosterEntry
  rw [hname]
  change ({ r with signature := a.sign r.signingPayload } : KtRosterEntry) = r
  rw [hsigned]

theorem ownerBob_sign (payload : Bytes) : ownerBob.sign payload =
    if payload = primaryRecord.signingPayload bobHash then primaryRecord.signature else
      if payload = bobRoster.signingPayload then bobRoster.signature else droppingRoster.signature :=
  rfl

theorem ownerBob_record : ownerBob.deviceRecord bobHash primaryDeviceId 1000 = primaryRecord :=
  deviceRecord_eq rfl rfl (by rw [ownerBob_sign, if_pos rfl])

theorem ownerBob_roster :
    ownerBob.ktRosterEntry ownerClient.crypto.sha 0 [primaryRecord, deviceRecord] 1000 =
      bobRoster := by
  have hsigned : ownerBob.sign bobRoster.signingPayload = bobRoster.signature := by
    rw [ownerBob_sign, if_neg ownerPayloads_ne.1, if_pos rfl]
  exact ktRosterEntry_eq ownerBob_name hsigned

theorem ownerBob_dropping :
    ownerBob.ktRosterEntry ownerClient.crypto.sha 1 [primaryRecord] 1500 = droppingRoster := by
  obtain ⟨-, hne, hnew⟩ := ownerPayloads_ne
  have hsigned : ownerBob.sign droppingRoster.signingPayload = droppingRoster.signature := by
    rw [ownerBob_sign, if_neg hne, if_neg hnew]
  exact ktRosterEntry_eq ownerBob_name hsigned

theorem bound_step : OwnStep ownerClient freshState { entry := some bobEntry } boundState :=
  .binds bobEntry ownerBob 0 _ rfl ownerBob_name.symm ⟨rfl, rfl⟩
    (append_valid (ownerClient_verifies (List.mem_cons_of_mem _ List.mem_cons_self)) rfl)

theorem primaryRecord_signed : primaryRecord.verify ownerClient.crypto bobHash = true :=
  ownerClient_verifies (List.mem_cons_of_mem _ (List.mem_cons_of_mem _ List.mem_cons_self))

theorem deviceRecord_signed : deviceRecord.verify ownerClient.crypto bobHash = true :=
  ownerClient_verifies (List.mem_cons_of_mem _ (List.mem_cons_of_mem _ (List.mem_cons_of_mem _ List.mem_cons_self)))

theorem linksDevice_flow : linksDevice.flow ownerClient ownerBob {} =
    { result := .ok (), served := none, published := some bobRoster, history := linkedState.history } := by
  have hsigned : ownerBob.ktRosterEntry ownerClient.crypto.sha 0
      ([ownerBob.deviceRecord bobHash primaryDeviceId 1000] ++ [deviceRecord]) 1000 = bobRoster := by
    rw [ownerBob_record]
    exact ownerBob_roster
  change (Client.authorizeLink ownerClient ownerBob {} ⟨sampleDevice, deviceRecord, sampleNonce, sampleDevice⟩ 1000 1000
    .notFound (.ok ()) fun _ _ => .ok ()).void = _
  unfold Client.authorizeLink
  dsimp only
  rw [if_neg (by decide), ownerBob_name, deviceRecord_signed, if_neg (by decide)]
  cases hsecret : linkSecretFromB64 ownerClient.heads sampleNonce with
  | none => exact absurd hsecret ownerTexts_read.2.2
  | some secret =>
    dsimp only [fetchOwnRoster, linkBase]
    rw [hsigned]
    rfl

/-- A device that passes its checks leaves the rest of the list to check. -/
theorem checkDevices_pass {C : Crypto} {h : String} {current : KtEntry}
    {seen ds : List DeviceRecord} {n : ℕ} {d : DeviceRecord} (hformed : d.deviceIdWellFormed = true)
    (hnew : (seen.any fun p => p.deviceId == d.deviceId) = false)
    (hkeys : d.deviceId = primaryDeviceId → d.identityKey = current.identityKey ∧ d.signingKey = current.signingKey)
    (hsigned : d.verify C h = true) :
    checkDevices C h current seen n (d :: ds) =
      checkDevices C h current (seen ++ [d]) (if d.deviceId =
        primaryDeviceId then n + 1 else n) ds := by
  have hbound : ¬(d.deviceId = primaryDeviceId ∧
      (d.identityKey ≠ current.identityKey ∨ d.signingKey ≠ current.signingKey)) := by
    rintro ⟨hid, hne⟩
    exact hne.elim (· (hkeys hid).1) (· (hkeys hid).2)
  conv => lhs; unfold checkDevices
  simp only [hformed, hnew, hsigned, Bool.not_true, Bool.false_eq_true, if_false, if_neg hbound]

theorem validateAgainst_of_checks {C : Crypto} {r : KtRosterEntry} {current : KtEntry}
    (hname : r.usernameHash = current.usernameHash)
    (hcount : r.devices ≠ [] ∧ r.devices.length ≤ maxDevices)
    (hdevices : checkDevices C r.usernameHash current [] 0 r.devices = .ok 1)
    (hsigned : C.verifyEd25519 current.signingKey r.signingPayload r.signature = true) :
    r.validateAgainst C current = .ok () := by
  unfold KtRosterEntry.validateAgainst
  simp [← hname, hcount, hdevices, hsigned]

theorem bobRoster_valid : bobRoster.validateAgainst ownerClient.crypto bobEntry = .ok () := by
  refine validateAgainst_of_checks rfl (by decide) ?_
    (ownerClient_verifies
      (List.mem_cons_of_mem _ (List.mem_cons_of_mem _ (List.mem_cons_of_mem _ (List.mem_cons_of_mem _ List.mem_cons_self)))))
  refine (checkDevices_pass (by decide) rfl (fun _ => ⟨rfl, rfl⟩) primaryRecord_signed).trans ?_
  exact checkDevices_pass (by decide) (by decide)
    (fun hid => absurd hid (by decide)) deviceRecord_signed

theorem linked_step : OwnStep ownerClient boundState { roster := some bobRoster } linkedState := by
  have hcall : boundState.log.call ownerClient.crypto (.appendRoster bobRoster) =
      (.ok 1, linkedState.log) :=
    appendRoster_valid ownerLogs.1.1 rfl bobRoster_valid ownerLogs.1.2.1.symm
  exact enrolled_step linksDevice linksDevice_flow hcall (adoptPrimaryState_pin.mpr (Or.inl nofun))

theorem dropsDevice_owner : dropsDevice.flow ownerClient ownerBob linkedState.history =
    { result := .ok (), served := some bobRoster, published := some droppingRoster
      history := revokedState.history } := by
  have hasked : fetchOwnRoster ownerClient (bobRosterProof.roster bobRoster) =
      .ok (some bobRoster) :=
    (sampleClient_served (List.mem_cons_of_mem _ List.mem_cons_self) bobRosterProof_reads rfl).own
  have hkept : (bobRoster.devices.filter fun d => d.deviceId ≠ sampleDevice) = [primaryRecord] := by
    decide
  have hsigned : ownerBob.ktRosterEntry ownerClient.crypto.sha (bobRoster.seq + 1)
      (bobRoster.devices.filter fun d => d.deviceId ≠ sampleDevice) 1500 = droppingRoster := by
    rw [hkept]
    exact ownerBob_dropping
  have hbinding : linkedState.history.pinnedBindingSeq "bob" = 0 := by
    unfold History.pinnedBindingSeq
    rw [ownerLogs.2.1.2.2]
    rfl
  change (Client.revokeDevice ownerClient ownerBob linkedState.history sampleDevice 1500 (bobRosterProof.roster bobRoster)
    (.ok ())).void = _
  unfold Client.revokeDevice
  rw [hasked]
  dsimp only
  rw [if_neg (by decide), if_neg (by decide), hsigned]
  unfold FlowResult.void
  dsimp only [ownerBob]
  rw [hbinding]
  rfl

theorem droppingRoster_valid :
    droppingRoster.validateAgainst ownerClient.crypto bobEntry = .ok () :=
  validateAgainst_of_checks rfl (by decide) (checkDevices_pass (by decide) rfl (fun _ => ⟨rfl, rfl⟩) primaryRecord_signed)
    (ownerClient_verifies List.mem_cons_self)

theorem revoked_step :
    OwnStep ownerClient linkedState { roster := some droppingRoster } revokedState := by
  have hcall : linkedState.log.call ownerClient.crypto (.appendRoster droppingRoster) =
      (.ok 2, revokedState.log) :=
    appendRoster_valid ownerLogs.2.1.1 rfl droppingRoster_valid ownerLogs.2.1.2.1.symm
  refine enrolled_step dropsDevice dropsDevice_owner hcall
    (pinOwnRoster_iff.mpr (Or.inl fun P hP => ?_))
  cases ownerLogs.2.1.2.2.symm.trans hP
  decide

/-- The proofs that the relay makes. -/
def revokedProofs : ℕ → String
  | 0 => revokedEntryProof.proofB64
  | 1 => revokedRosterProof.proofB64
  | _ => droppingProof.proofB64

/-- The relay lists the three leaves of the name. -/
theorem revokedState_leaves : revokedState.log.leavesFor revokedProofs bobHash =
    [⟨some 0, .binding (some bobEntry), some (revokedProofs 0)⟩,
      ⟨some 1, .roster (some bobRoster), some (revokedProofs 1)⟩,
      ⟨some 2, .roster (some droppingRoster), some (revokedProofs 2)⟩] := by
  unfold KtLog.leavesFor KtLog.allIndicesFor
  rw [ownerLogs.2.2.1, List.mergeSort_of_pairwise (by decide)]
  rfl

theorem revokedState_proved : revokedState.Proved ownerClient revokedHead revokedProofs where
  head := sampleClient_head (p := droppingProof) (by simp) (ownerProofs_read (by simp))
  included i r hr _ := by
    change [KtRecord.binding bobEntry, .roster bobRoster, .roster droppingRoster][i]? = some r at hr
    match i with
    | 0 =>
      cases hr
      exact sampleClient_included (p := revokedEntryProof) (by simp) (ownerProofs_read (by simp))
    | 1 =>
      cases hr
      exact sampleClient_included (p := revokedRosterProof) (by simp) (ownerProofs_read (by simp))
    | 2 =>
      cases hr
      exact sampleClient_included (p := droppingProof) (by simp) (ownerProofs_read (by simp))
    | i + 3 => cases hr

theorem freshState_fresh : freshState.Fresh ownerClient := ⟨indexed_fresh _, rfl, rfl, rfl⟩

/-- Until then, nothing goes. -/
theorem linked_run : OwnRun ownerClient (fun s p => p.Lasts ownerClient s) linkedState := by
  refine .step (.step (.fresh freshState_fresh) bound_step ?_) linked_step ?_
  · exact same_keys_last (quiet_fresh freshState_fresh) rfl rfl
  · refine ⟨nofun, ?_⟩
    rintro _ last ⟨⟩ hlast
    cases ownerLogs.1.2.2.symm.trans hlast

/-- The proofs that the relay makes before the device is revoked. -/
def linkedProofs : ℕ → String
  | 0 => bobEntryProof.proofB64
  | _ => bobRosterProof.proofB64

theorem linkedState_proved : linkedState.Proved ownerClient linkedHead linkedProofs where
  head := sampleClient_head (p := bobRosterProof) (by simp) bobRosterProof_reads
  included i r hr _ := by
    change [KtRecord.binding bobEntry, .roster bobRoster][i]? = some r at hr
    match i with
    | 0 =>
      cases hr
      exact sampleClient_included (p := bobEntryProof) (by simp) (ownerProofs_read (by simp))
    | 1 =>
      cases hr
      exact sampleClient_included (p := bobRosterProof) (by simp) bobRosterProof_reads
    | i + 2 => cases hr

theorem audit_quiet_run_linked :
    ∃ n, linkedState.audit ownerClient linkedHead linkedProofs = .ok (.ok n) :=
  (audit_quiet_run ownerClient).1 linkedState linked_run linkedHead linkedProofs linkedState_proved

/-- **An account links a device and revokes it**: every audit from then on reports the device as one
that was never enrolled. -/
theorem revocation_alarms :
    OwnRun ownerClient (fun _ _ => True) revokedState ∧
    revokedState.Proved ownerClient revokedHead revokedProofs ∧
      revokedState.audit ownerClient revokedHead revokedProofs =
        .ok (.unrecognized [foreignDevice 1 0 sampleDevice]) := by
  refine ⟨.step (.step (.step (.fresh freshState_fresh) bound_step trivial) linked_step trivial) revoked_step trivial,
    revokedState_proved, ?_⟩
  have hname : revokedState.name ownerClient = bobHash := ownerBob_name
  have hf : Followed ownerClient revokedState := linked_run.followed.step revoked_step
  have hknown := ownerLogs.2.2.2
  have hbound := revokedState_proved.binding_leaf hf (i := 0) (e := bobEntry) rfl hname.symm
    fun _ => rfl
  have hlinked := revokedState_proved.roster_leaf (i := 1) (r := bobRoster) rfl hname.symm
  have hdropped := revokedState_proved.roster_leaf (i := 2) (r := droppingRoster) rfl hname.symm
  have hdevices : (bobRoster.devices.filter fun d =>
      !revokedState.known.isEmpty && !revokedState.known.contains d.identityKey) = [deviceRecord] := by
    rw [hknown]
    exact unknown_devices.1
  have hnone : (droppingRoster.devices.filter fun d =>
      !revokedState.known.isEmpty && !revokedState.known.contains d.identityKey) = [] := by
    rw [hknown]
    exact unknown_devices.2
  rw [hdevices] at hlinked
  rw [hnone] at hdropped
  unfold OwnState.audit
  rw [hname, revokedState_leaves, auditOwnLeaves_of_head revokedState_proved.head]
  unfold OwnState.known at hbound hlinked hdropped
  rw [auditLeaves_cons hbound, auditLeaves_cons hlinked, auditLeaves_cons hdropped]
  rfl

end Sona
