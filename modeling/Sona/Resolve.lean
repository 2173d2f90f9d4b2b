/-
# What a resolution may be

`Client::resolve_account_devices` on a name whose roster is pinned, and
`verify_device_revocation`, which reads its verdict off the devices it returns. The
relay chooses the binding and the roster, each of any age. A resolution that does
not fail is one of three (`Resolution`): the devices of a roster that goes with the
binding and does not go back behind the pin, the one device of a new owner, or,
where the roster does not go with the binding, the one device of the binding,
without a look at the pin.

The third is meant for sending. Read as a verdict it is not one: between the two
publications of a primary transfer every other device finds itself missing
(`stale_roster_revokes`), and `revocation_proved_iff` says that this is the only
verdict that is not proved.

Key definitions: `Resolution`, `verifyDeviceRevocation`, `RevocationProved`.
-/
import Mathlib.Data.List.Basic
import Sona.Pins
import Sona.Routes

namespace Sona

/-! ### Resolutions -/

/-- What is left of the devices of a name that was pinned at `P`. -/
inductive Resolution (K : KtClient) (h : History) (answer : RosterAnswer) (P : RosterPin)
    (entry : KtEntry) (resolved : ResolvedDevices) (h' : History) : Prop
  | roster (r : KtRosterEntry) : Served K answer r → r.validateAgainst K.crypto entry = .ok () →
      resolved = rosterDevices entry r → P.bindingSeq ≤ entry.seq →
      (P.primaryKey = entry.identityKey → P.seq ≤ r.seq) →
      (P.primaryKey ≠ entry.identityKey → P.bindingSeq < entry.seq) →
      Resolution K h answer P entry resolved h'
  | newOwner : answer = .notFound → resolved = singleDevice entry → P.primaryKey ≠ entry.identityKey →
      P.bindingSeq < entry.seq → Resolution K h answer P entry resolved h'
  /-- What comes of a binding older than the pin is left open. -/
  | fallback (r : KtRosterEntry) : Served K answer r → r.validateAgainst K.crypto entry ≠ .ok () → h' = h →
      (P.bindingSeq ≤ entry.seq → resolved = singleDevice entry) →
      Resolution K h answer P entry resolved h'

theorem resolve_ok {K : KtClient} {h h' : History} {username : String} {binding : BindingAnswer}
    {answer : RosterAnswer} {entry : KtEntry} {resolved : ResolvedDevices} {update : RosterUpdate}
    (hentry : Presented K username binding entry)
    (hfetched : Fetched K answer entry resolved update)
    (happly : h.applyRosterUpdate username update = (.ok (), h')) :
    resolveAccountDevices K h username binding answer = (.ok resolved, h') := by
  unfold resolveAccountDevices
  rw [fetchAccountDevices_ok.mpr ⟨entry, hentry, hfetched⟩]
  dsimp only
  rw [happly]

/-- **A resolution fails, with the history as it was, or it is what was fetched and applied.** -/
theorem resolve_cases (K : KtClient) (h : History) (username : String) (binding : BindingAnswer)
    (answer : RosterAnswer) :
    (∃ e, resolveAccountDevices K h username binding answer = (.error e, h)) ∨
      ∃ entry resolved update h', Presented K username binding entry ∧
      Fetched K answer entry resolved update ∧
        h.applyRosterUpdate username update = (.ok (), h') ∧
        resolveAccountDevices K h username binding answer = (.ok resolved, h') := by
  cases hfetch : fetchAccountDevices K username binding answer with
  | error e =>
    refine Or.inl ⟨e, ?_⟩
    unfold resolveAccountDevices
    rw [hfetch]
  | ok p =>
    obtain ⟨resolved, update⟩ := p
    obtain ⟨entry, hentry, hfetched⟩ := fetchAccountDevices_ok.mp hfetch
    rcases applyRosterUpdate_cases h username update with ⟨e, happly⟩ | ⟨h', happly, -⟩
    · refine Or.inl ⟨.rosterRollback e, ?_⟩
      unfold resolveAccountDevices
      rw [hfetch]
      dsimp only
      rw [happly]
    · exact Or.inr ⟨entry, resolved, update, h', hentry, hfetched, happly,
        resolve_ok hentry hfetched happly⟩

/-- What was applied to a pin says which resolution it is. -/
theorem Fetched.resolution {K : KtClient} {h h' : History} {username : String}
    {answer : RosterAnswer} {P : RosterPin} {entry : KtEntry} {resolved : ResolvedDevices}
    {update : RosterUpdate} (hpin : h.contactRosters.get username = some P)
    (hfetched : Fetched K answer entry resolved update)
    (happly : h.applyRosterUpdate username update = (.ok (), h')) :
    Resolution K h answer P entry resolved h' := by
  cases hfetched with
  | absent ha =>
    unfold History.applyRosterUpdate at happly
    dsimp only at happly
    rw [hpin] at happly
    dsimp only at happly
    split at happly
    · rename_i hmoved
      exact .newOwner ha rfl hmoved.1 hmoved.2
    · cases happly
  | stale r hserved hval =>
    cases happly
    exact .fallback r hserved hval rfl fun _ => rfl
  | verified r hserved hval =>
    have hback : ¬ P.rolledBack entry.seq r.seq entry.identityKey = true := by
      intro hback
      unfold verifiedUpdate History.applyRosterUpdate History.pinRoster at happly
      dsimp only at happly
      rw [hpin] at happly
      dsimp only at happly
      rw [if_pos hback] at happly
      cases happly
    have hadv : P.Advances ⟨r.seq, entry.seq, entry.identityKey, []⟩ :=
      not_not.mp fun hnot => hback (RosterPin.rolledBack_iff.mpr hnot)
    refine .roster r hserved hval rfl hadv.bindingSeq_le (fun hkey => ?_) fun hkey => ?_
    · unfold RosterPin.Advances at hadv
      rw [if_pos hkey] at hadv
      exact hadv.2
    · unfold RosterPin.Advances at hadv
      rwa [if_neg hkey] at hadv

/-- **The resolution of a pinned name fails closed, or is one of three.** -/
theorem resolution_fails_closed (K : KtClient) (h : History) (username : String)
    (binding : BindingAnswer) (answer : RosterAnswer) {P : RosterPin}
    (hpin : h.contactRosters.get username = some P) :
    (∃ e, resolveAccountDevices K h username binding answer = (.error e, h)) ∨
      ∃ entry resolved h', Presented K username binding entry ∧
        resolveAccountDevices K h username binding answer = (.ok resolved, h') ∧
        Resolution K h answer P entry resolved h' := by
  rcases resolve_cases K h username binding answer with herr
    | ⟨entry, resolved, update, h', hentry, hfetched, happly, hok⟩
  · exact Or.inl herr
  · exact Or.inr ⟨entry, resolved, h', hentry, hok, hfetched.resolution hpin happly⟩

/-- A client that pinned the first roster of the account. -/
def pinnedBob : History :=
  (History.applyRosterUpdate {} "bob" (verifiedUpdate bobEntry bobRoster)).2

def bobPin : RosterPin := ⟨0, 0, bobEntry.identityKey, bobRoster.devices.map (·.toRosterDevice)⟩

theorem pinnedBob_pin : pinnedBob.contactRosters.get "bob" = some bobPin := by decide +kernel

theorem resolution_fails_closed_bob :
    (∃ e, resolveAccountDevices rotatedClient pinnedBob "bob" (bobEntryProof.binding bobEntry) .notFound = (.error e, pinnedBob)) ∨
      ∃ entry resolved h', Presented rotatedClient "bob" (bobEntryProof.binding bobEntry) entry ∧
        resolveAccountDevices rotatedClient pinnedBob "bob" (bobEntryProof.binding bobEntry) .notFound = (.ok resolved, h') ∧
        Resolution rotatedClient pinnedBob .notFound bobPin entry resolved h' :=
  resolution_fails_closed rotatedClient pinnedBob "bob" (bobEntryProof.binding bobEntry) .notFound pinnedBob_pin

/-! The account changed its key, and its roster is the one from before. -/

theorem rotation_presented :
    Presented rotatedClient "bob" (rotationProof.binding rotationEntry) rotationEntry :=
  sampleClient_presented (by simp) rotationProof_reads rfl List.mem_cons_self (by decide +kernel) (by decide +kernel)
    namedSha_bob.symm

theorem bobRoster_served : Served rotatedClient (bobRosterProof.roster bobRoster) bobRoster :=
  sampleClient_served (by simp) bobRosterProof_reads rfl

theorem bobRoster_stale :
    bobRoster.validateAgainst rotatedClient.crypto rotationEntry ≠ .ok () := by decide +kernel

theorem old_roster_resolved :
    resolveAccountDevices rotatedClient pinnedBob "bob" (rotationProof.binding rotationEntry)
    (bobRosterProof.roster bobRoster) = (.ok (singleDevice rotationEntry), pinnedBob) :=
  resolve_ok rotation_presented (.stale bobRoster bobRoster_served bobRoster_stale) rfl

/-- **The account changed its key, and its roster is the one from before**: the
resolution is the one device of the binding, and no roster that goes with it was served. -/
theorem old_roster_resolves_to_one :
    (resolveAccountDevices rotatedClient pinnedBob "bob" (rotationProof.binding rotationEntry)
        (bobRosterProof.roster bobRoster)).1 = .ok (singleDevice rotationEntry) ∧
      bobRosterProof.roster bobRoster ≠ .notFound ∧
      ∀ r, Served rotatedClient (bobRosterProof.roster bobRoster) r →
        r.validateAgainst rotatedClient.crypto rotationEntry ≠ .ok () := by
  refine ⟨congrArg Prod.fst old_roster_resolved, by simp [SampleProof.roster], fun r hr => ?_⟩
  rw [hr.unique bobRoster_served]
  exact bobRoster_stale

/-! ### Revocation -/

inductive RevocationCheck
  | revoked
  | stillActive
deriving DecidableEq, Repr

/-- What the device learns of itself when it is listed. -/
def History.stillActive (h : History) (resolved : ResolvedDevices) (d : RosterDevice) : History :=
  let h := (h.setSelfDevice d.deviceId (d.deviceId = primaryDeviceId)).setSelfPrimaryKey resolved.primaryKey
  let h := match resolved.rosterSeq with
    | some seq => h.setSelfRosterSeq seq
    | none => h
  h.setRevoked false

def verifyDeviceRevocation (K : KtClient) (h : History) (username myIdk : String)
    (binding : BindingAnswer) (answer : RosterAnswer) :
    Except ClientError RevocationCheck × History :=
  match resolveAccountDevices K h username binding answer with
  | (.error e, h) => (.error e, h)
  | (.ok resolved, h) =>
    match resolved.devices.find? (·.identityKey = myIdk) with
    | some d => (.ok .stillActive, h.stillActive resolved d)
    | none => (.ok .revoked, h)

/-- The device was removed: a roster that goes with the binding, and is not older
than the pin, does not list it, or the name went to another owner who has no roster. -/
def RevocationProved (K : KtClient) (username myIdk : String) (binding : BindingAnswer)
    (answer : RosterAnswer) (P : RosterPin) : Prop :=
  ∃ entry, Presented K username binding entry ∧
    ((∃ r, Served K answer r ∧ r.validateAgainst K.crypto entry = .ok () ∧ P.bindingSeq ≤ entry.seq ∧
        (P.primaryKey = entry.identityKey → P.seq ≤ r.seq) ∧
        (P.primaryKey ≠ entry.identityKey → P.bindingSeq < entry.seq) ∧
        ∀ d ∈ r.devices, d.identityKey ≠ myIdk) ∨
      (answer = .notFound ∧ P.primaryKey ≠ entry.identityKey ∧ P.bindingSeq < entry.seq))

/-- The device is told revoked when it is missing from what was resolved. -/
theorem verifyDeviceRevocation_revoked {K : KtClient} {h : History} {username myIdk : String}
    {binding : BindingAnswer} {answer : RosterAnswer} :
    (verifyDeviceRevocation K h username myIdk binding answer).1 = .ok .revoked ↔
      ∃ resolved h', resolveAccountDevices K h username binding answer = (.ok resolved, h') ∧
        ∀ d ∈ resolved.devices, d.identityKey ≠ myIdk := by
  unfold verifyDeviceRevocation
  constructor
  · intro hrevoked
    split at hrevoked
    · cases hrevoked
    · rename_i resolved h' hresolve
      refine ⟨resolved, h', hresolve, ?_⟩
      cases hfind : resolved.devices.find? (·.identityKey = myIdk) with
      | some d =>
        rw [hfind] at hrevoked
        cases hrevoked
      | none =>
        intro d hd
        have := List.find?_eq_none.mp hfind d hd
        simpa using this
  · rintro ⟨resolved, h', hresolve, hmissing⟩
    have hfind : resolved.devices.find? (·.identityKey = myIdk) = none :=
      List.find?_eq_none.mpr fun d hd => by simpa using hmissing d hd
    rw [hresolve]
    dsimp only
    rw [hfind]

/-- **A revocation is believed only when it is proved exactly if no roster that does
not go with the binding is served**, but for a binding that names the device itself. -/
theorem revocation_proved_iff (K : KtClient) (h : History) (username myIdk : String)
    (binding : BindingAnswer) (answer : RosterAnswer) {P : RosterPin}
    (hpin : h.contactRosters.get username = some P) :
    ((verifyDeviceRevocation K h username myIdk binding answer).1 = .ok .revoked →
        RevocationProved K username myIdk binding answer P) ↔
      ∀ entry r, Presented K username binding entry → Served K answer r →
        r.validateAgainst K.crypto entry ≠ .ok () → entry.identityKey = myIdk := by
  rw [verifyDeviceRevocation_revoked]
  constructor
  · intro hproved entry r hentry hserved hval
    by_contra hother
    -- the resolution is the one device of the binding, which is not this one
    have hresolve := resolve_ok (h := h) hentry (Fetched.stale r hserved hval) rfl
    have hmissing : ∀ d ∈ (singleDevice entry).devices, d.identityKey ≠ myIdk := by
      intro d hd
      rw [List.mem_singleton.mp hd]
      exact hother
    obtain ⟨entry', hentry', ⟨r', hserved', hval', -⟩ | ⟨hnone, -⟩⟩ :=
      hproved ⟨_, _, hresolve, hmissing⟩
    · rw [hentry.unique hentry', hserved.unique hserved'] at hval
      exact hval hval'
    · obtain ⟨_, _, _, rfl, -⟩ := hserved
      cases hnone
  · rintro honly ⟨resolved, h', hresolve, hmissing⟩
    rcases resolve_cases K h username binding answer with
      ⟨e, herr⟩ | ⟨entry, resolved', update, h'', hentry, hfetched, happly, hok⟩
    · rw [herr] at hresolve
      cases hresolve
    · rw [hok] at hresolve
      cases hresolve
      refine ⟨entry, hentry, ?_⟩
      cases hfetched.resolution hpin happly with
      | roster r hserved hval hresolved hle hseq hlt =>
        refine Or.inl ⟨r, hserved, hval, hle, hseq, hlt, fun d hd => ?_⟩
        rw [hresolved] at hmissing
        exact hmissing d.toRosterDevice (List.mem_map_of_mem hd)
      | newOwner hnone _ hkey hlt => exact Or.inr ⟨hnone, hkey, hlt⟩
      | fallback r hserved hval _ _ =>
        exfalso
        have hmine : entry.identityKey = myIdk := honly entry r hentry hserved hval
        cases hfetched with
        | absent hnone =>
          obtain ⟨_, _, _, rfl, -⟩ := hserved
          cases hnone
        | stale _ _ _ => exact hmissing _ (List.mem_singleton.mpr rfl) hmine
        | verified r' hserved' hval' => exact hval (hserved.unique hserved' ▸ hval')

theorem revocation_proved_iff_dropped :
    ((verifyDeviceRevocation rotatedClient pinnedBob "bob" deviceRecord.identityKey (bobEntryProof.binding bobEntry)
          (bobRosterProof.roster bobRoster)).1 = .ok .revoked →
        RevocationProved rotatedClient "bob" deviceRecord.identityKey (bobEntryProof.binding bobEntry)
          (bobRosterProof.roster bobRoster) bobPin) ↔
      ∀ entry r, Presented rotatedClient "bob" (bobEntryProof.binding bobEntry) entry →
        Served rotatedClient (bobRosterProof.roster bobRoster) r →
        r.validateAgainst rotatedClient.crypto entry ≠ .ok () →
        entry.identityKey = deviceRecord.identityKey :=
  revocation_proved_iff rotatedClient pinnedBob "bob" deviceRecord.identityKey (bobEntryProof.binding bobEntry)
    (bobRosterProof.roster bobRoster) pinnedBob_pin

/-- **The linked device, between the two publications of a transfer to another one**, is
told that it was revoked. -/
theorem stale_roster_revokes :
    (verifyDeviceRevocation rotatedClient pinnedBob "bob" deviceRecord.identityKey (rotationProof.binding rotationEntry)
        (bobRosterProof.roster bobRoster)).1 = .ok .revoked ∧
      ¬ RevocationProved rotatedClient "bob" deviceRecord.identityKey (rotationProof.binding rotationEntry)
        (bobRosterProof.roster bobRoster) bobPin := by
  refine ⟨verifyDeviceRevocation_revoked.mpr ⟨_, _, old_roster_resolved, fun d hd => ?_⟩, ?_⟩
  · rw [List.mem_singleton.mp hd]
    decide
  · rintro ⟨entry, hentry, ⟨r, hserved, hval, -⟩ | ⟨hnone, -⟩⟩
    · rw [hentry.unique rotation_presented, hserved.unique bobRoster_served] at hval
      exact bobRoster_stale hval
    · cases hnone

end Sona
