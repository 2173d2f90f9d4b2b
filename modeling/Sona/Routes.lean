/-
# Which devices an account has

`multidevice/routes.rs`, `roster.rs` and `api/kt.rs`: a client asks its relay for the
binding and the roster of a name, checks both against the log it pinned, and
decides what they mean for the pin (`fetchAccountDevices`). The relay is not
trusted: an answer is anything it may send, of any age.

A roster that is not there, one that does not go with the binding, and one that
does are three different answers (`Fetched`, `fetchAccountDevices_ok`); only the first and
the last are compared with the pin.

Key definitions: `KtClient`, `fetchVerifiedEntry`, `fetchAccountDevices`, `fetchOwnRoster`,
`resolveAccountDevices`. Key theorems: `fetchVerifiedEntry_ok`, `fetchAccountDevices_ok`.
-/
import Mathlib.Data.List.Basic
import Sona.Heads
import Sona.History
import Sona.Run

namespace Sona

/-! ### Answers and errors -/

/-- What a client checks the answers of a relay with: the key of the log, the
cryptography, and `RootHash::verify_inclusion` of `ct-merkle` (size, root, leaf, index, digests). -/
structure KtClient where
  crypto : Crypto
  heads : HeadCrypto
  pinnedKtKey : String
  verifyInclusion : ℕ → Bytes → Bytes → ℕ → List Bytes → Bool

inductive KtCheck
  | verified
  | badTreeHead
  | notInLog
  | wrongUsername
  | keyMismatch
deriving DecidableEq, Repr

inductive ClientError
  /-- `reqwest::Error`, with the status if there is one. -/
  | http (status : Option ℕ)
  | status (code : ℕ)
  | userNotFound
  | protocol (why : String)
  | crypto (why : String)
  | ktVerification (check : KtCheck)
  | rosterRollback (r : RosterRollback)
deriving DecidableEq, Repr

/-- The answer to a request for the binding of a name. -/
inductive BindingAnswer
  | notFound
  | failed (status : Option ℕ)
  | served (entry : KtEntry) (sth : SignedTreeHead) (index : ℕ) (proofB64 : String)
deriving DecidableEq, Repr

/-- The answer to a request for the roster of a name; a field that is not there or
does not parse is `none` (the parser's message is not modelled). -/
inductive RosterAnswer
  | notFound
  | failed (status : Option ℕ)
  | served (roster : Option KtRosterEntry) (sth : Option SignedTreeHead) (index : Option ℕ)
      (proofB64 : Option String)
deriving DecidableEq, Repr

/-! ### Inclusion -/

/-- A proof as it is sent: a whole number of digests. -/
def inclusionFromB64 (K : HeadCrypto) (s : String) : Option (List Bytes) := do
  let bytes ← K.b64d s
  if bytes.length % 32 ≠ 0 then none else some (bytes.toChunks 32)

/-- The leaf is in the log of the head. -/
def KtClient.included (K : KtClient) (sth : SignedTreeHead) (leaf : Bytes) (index : ℕ)
    (proofB64 : String) : Bool :=
  match inclusionFromB64 K.heads proofB64, sth.rootBytes K.heads with
  | some proof, some root => K.verifyInclusion sth.treeSize root leaf index proof
  | _, _ => false

def KtClient.verifyInclusionB64 (K : KtClient) (sth : SignedTreeHead) (entry : KtEntry) (index : ℕ)
    (proofB64 : String) : Bool :=
  entry.verifySignature K.crypto && K.included sth entry.leafBytes index proofB64

def KtClient.verifyRosterInclusionB64 (K : KtClient) (sth : SignedTreeHead) (roster : KtRosterEntry)
    (index : ℕ) (proofB64 : String) : Bool :=
  K.included sth roster.leafBytes index proofB64

/-! ### Fetching -/

/-- `IdentityHash::from_identifier`. -/
def identityHash (sha : Sha256) (username : String) : String := sha.hex (utf8 username)

def fetchVerifiedEntry (K : KtClient) (hash : String) : BindingAnswer → Except ClientError KtEntry
  | .notFound => .error .userNotFound
  | .failed status => .error (.http status)
  | .served entry sth index proofB64 =>
    if !verifySthB64 K.heads K.pinnedKtKey sth then .error (.ktVerification .badTreeHead) else
    if !K.verifyInclusionB64 sth entry index proofB64 then .error (.ktVerification .notInLog) else
    if entry.usernameHash ≠ hash then .error (.ktVerification .wrongUsername) else
    .ok entry

structure ResolvedDevices where
  primaryKey : String
  rosterSeq : Option ℕ
  devices : List RosterDevice
deriving DecidableEq, Repr

/-- The one device of an account without a roster. -/
def singleDevice (entry : KtEntry) : ResolvedDevices :=
  { primaryKey := entry.identityKey, rosterSeq := none
    devices := [⟨primaryDeviceId, entry.identityKey, entry.signingKey⟩] }

def DeviceRecord.toRosterDevice (d : DeviceRecord) : RosterDevice :=
  ⟨d.deviceId, d.identityKey, d.signingKey⟩

/-- The devices of a roster that goes with the binding. -/
def rosterDevices (entry : KtEntry) (roster : KtRosterEntry) : ResolvedDevices :=
  { primaryKey := entry.identityKey, rosterSeq := some roster.seq,
    devices := roster.devices.map (·.toRosterDevice) }

def verifiedUpdate (entry : KtEntry) (roster : KtRosterEntry) : RosterUpdate :=
  .verified entry.seq roster.seq entry.identityKey (roster.devices.map (·.toRosterDevice))

def fetchAccountDevices (K : KtClient) (username : String) (binding : BindingAnswer)
    (answer : RosterAnswer) :
    Except ClientError (ResolvedDevices × RosterUpdate) :=
  match fetchVerifiedEntry K (identityHash K.crypto.sha username) binding with
  | .error e => .error e
  | .ok entry =>
    match answer with
    | .notFound => .ok (singleDevice entry, .absent entry.identityKey entry.seq)
    | .failed status => .error (.http status)
    | .served none _ _ _ => .error (.protocol "roster")
    | .served _ none _ _ => .error (.protocol "sth")
    | .served _ _ none _ => .error (.protocol "missing index")
    | .served _ _ _ none => .error (.protocol "missing proof")
    | .served (some roster) (some sth) (some index) (some proofB64) =>
      if !verifySthB64 K.heads K.pinnedKtKey sth then .error (.ktVerification .badTreeHead) else
      if !K.verifyRosterInclusionB64 sth roster index proofB64 then .error (.ktVerification .notInLog) else
      match roster.validateAgainst K.crypto entry with
      | .error _ => .ok (singleDevice entry, .stale)
      | .ok () => .ok (rosterDevices entry roster, verifiedUpdate entry roster)

/-- A roster for the account itself: only that it is in the log. -/
def fetchOwnRoster (K : KtClient) : RosterAnswer → Except ClientError (Option KtRosterEntry)
  | .notFound => .ok none
  | .failed status => .error (.http status)
  | .served none _ _ _ => .error (.protocol "roster")
  | .served _ none _ _ => .error (.protocol "sth")
  | .served (some roster) (some sth) index proofB64 =>
    if !verifySthB64 K.heads K.pinnedKtKey sth ||
        !K.verifyRosterInclusionB64 sth roster (index.getD 0) (proofB64.getD "") then
      .error (.ktVerification .badTreeHead)
    else .ok (some roster)

/-- The pin is compared with the history as it is when the answers are there. -/
def resolveAccountDevices (K : KtClient) (h : History) (username : String) (binding : BindingAnswer)
    (answer : RosterAnswer) : Except ClientError ResolvedDevices × History :=
  match fetchAccountDevices K username binding answer with
  | .error e => (.error e, h)
  | .ok (resolved, update) =>
    match h.applyRosterUpdate username update with
    | (.error r, h') => (.error (.rosterRollback r), h')
    | (.ok (), h') => (.ok resolved, h')

/-! ### What an answer is worth -/

/-- A binding that is in the log of a head the log signed, for the name. -/
structure Presented (K : KtClient) (username : String) (binding : BindingAnswer) (entry : KtEntry) :
    Prop where
  served : ∃ sth index proofB64, binding = .served entry sth index proofB64 ∧
    verifySthB64 K.heads K.pinnedKtKey sth = true ∧
    K.included sth entry.leafBytes index proofB64 = true
  signed : entry.verifySignature K.crypto = true
  name : entry.usernameHash = identityHash K.crypto.sha username

/-- A roster that is in the log of a head the log signed. -/
def Served (K : KtClient) (answer : RosterAnswer) (roster : KtRosterEntry) : Prop :=
  ∃ sth index proofB64, answer = .served (some roster) (some sth) (some index) (some proofB64) ∧
    verifySthB64 K.heads K.pinnedKtKey sth = true ∧
    K.verifyRosterInclusionB64 sth roster index proofB64 = true

theorem fetchVerifiedEntry_ok {K : KtClient} {username : String} {binding : BindingAnswer}
    {entry : KtEntry} :
    fetchVerifiedEntry K (identityHash K.crypto.sha username) binding = .ok entry ↔
    Presented K username binding entry := by
  constructor
  · intro h
    unfold fetchVerifiedEntry at h
    cases binding with
    | notFound => cases h
    | failed status => cases h
    | served e sth index proofB64 =>
      dsimp only at h
      split at h
      · cases h
      rename_i hsth
      split at h
      · cases h
      rename_i hin
      split at h
      · cases h
      rename_i hname
      cases h
      simp only [Bool.not_eq_true', Bool.not_eq_false] at hsth hin
      simp only [KtClient.verifyInclusionB64, Bool.and_eq_true] at hin
      exact { served := ⟨sth, index, proofB64, rfl, hsth, hin.2⟩, signed := hin.1, name := not_not.mp hname }
  · rintro ⟨⟨sth, index, proofB64, rfl, hsth, hin⟩, hsigned, hname⟩
    simp [fetchVerifiedEntry, KtClient.verifyInclusionB64, hsth, hin, hsigned, hname]

/-- What the answers for a name come to: no roster, one that does not go with the
binding, or one that does. -/
inductive Fetched (K : KtClient) (answer : RosterAnswer) (entry : KtEntry) :
    ResolvedDevices → RosterUpdate → Prop
  | absent : answer = .notFound → Fetched K answer entry (singleDevice entry)
      (.absent entry.identityKey entry.seq)
  | stale (roster : KtRosterEntry) : Served K answer roster → roster.validateAgainst K.crypto entry ≠ .ok () →
      Fetched K answer entry (singleDevice entry) .stale
  | verified (roster : KtRosterEntry) : Served K answer roster → roster.validateAgainst K.crypto entry = .ok () →
      Fetched K answer entry (rosterDevices entry roster) (verifiedUpdate entry roster)

/-- **What `fetchAccountDevices` returns.** -/
theorem fetchAccountDevices_ok {K : KtClient} {username : String} {binding : BindingAnswer}
    {answer : RosterAnswer} {resolved : ResolvedDevices} {update : RosterUpdate} :
    fetchAccountDevices K username binding answer = .ok (resolved, update) ↔
      ∃ entry, Presented K username binding entry ∧ Fetched K answer entry resolved update := by
  unfold fetchAccountDevices
  constructor
  · intro h
    cases hentry : fetchVerifiedEntry K (identityHash K.crypto.sha username) binding with
    | error e =>
      rw [hentry] at h
      cases h
    | ok entry =>
      rw [hentry] at h
      refine ⟨entry, fetchVerifiedEntry_ok.mp hentry, ?_⟩
      dsimp only at h
      split at h
      · cases h
        exact .absent rfl
      · cases h
      · cases h
      · cases h
      · cases h
      · cases h
      · rename_i roster sth index proofB64
        split at h
        · cases h
        rename_i hsth
        split at h
        · cases h
        rename_i hin
        simp only [Bool.not_eq_true', Bool.not_eq_false] at hsth hin
        have hserved :
            Served K (.served (some roster) (some sth) (some index) (some proofB64)) roster :=
          ⟨sth, index, proofB64, rfl, hsth, hin⟩
        split at h
        · rename_i e hval
          cases h
          exact .stale roster hserved (by rw [hval]; simp)
        · rename_i hval
          cases h
          exact .verified roster hserved hval
  · rintro ⟨entry, hpresented, hfetched⟩
    rw [fetchVerifiedEntry_ok.mpr hpresented]
    cases hfetched with
    | absent ha => rw [ha]
    | stale roster hserved hval =>
      obtain ⟨sth, index, proofB64, rfl, hsth, hin⟩ := hserved
      dsimp only
      rw [hsth, hin]
      cases hv : roster.validateAgainst K.crypto entry with
      | error e => rfl
      | ok u => exact absurd hv hval
    | verified roster hserved hval =>
      obtain ⟨sth, index, proofB64, rfl, hsth, hin⟩ := hserved
      dsimp only
      rw [hsth, hin, hval]
      rfl

/-- The answer of a relay has one roster. -/
theorem Served.unique {K : KtClient} {answer : RosterAnswer} {roster roster' : KtRosterEntry}
    (h : Served K answer roster) (h' : Served K answer roster') : roster = roster' := by
  obtain ⟨_, _, _, rfl, -⟩ := h
  obtain ⟨_, _, _, heq, -⟩ := h'
  cases heq
  rfl

/-- The account takes a roster that is served as its own. -/
theorem Served.own {K : KtClient} {answer : RosterAnswer} {roster : KtRosterEntry}
    (h : Served K answer roster) :
    fetchOwnRoster K answer = .ok (some roster) := by
  obtain ⟨sth, index, proofB64, rfl, hsth, hin⟩ := h
  unfold fetchOwnRoster
  dsimp only
  rw [Option.getD_some, Option.getD_some, hsth, hin]
  rfl

theorem Presented.unique {K : KtClient} {username : String} {binding : BindingAnswer}
    {entry entry' : KtEntry} (h : Presented K username binding entry)
    (h' : Presented K username binding entry') : entry = entry' := by
  obtain ⟨_, _, _, rfl, -⟩ := h.served
  obtain ⟨_, _, _, heq, -⟩ := h'.served
  cases heq
  rfl

/-! ### A client for concrete answers -/

/-- The known digests, and that of the account's name. -/
def namedSha : Sha256 where
  hex bytes := if bytes = utf8 "bob" then bobHash else sampleHex bytes
  hex_injective := by
    have hne : ∀ bytes, sampleHex bytes ≠ bobHash :=
      sampleHex_ne (by decide +kernel) (by decide +kernel)
    intro a b h
    dsimp only at h
    split at h
    · rename_i ha
      split at h
      · rename_i hb
        rw [ha, hb]
      · exact absurd h.symm (hne b)
    · split at h
      · exact absurd h (hne a)
      · exact sampleHex_injective h

theorem namedSha_bob : namedSha.hex (utf8 "bob") = bobHash := by
  simp [namedSha]

/-- A proof that was made: the head, the leaf and its index, and the digests. -/
structure SampleProof where
  sth : SignedTreeHead
  leaf : Bytes
  index : ℕ
  proofB64 : String

def SampleProof.signed (p : SampleProof) : String × Bytes × String :=
  (ktKey, headPayload p.sth.treeSize ((decodeBase64 (utf8 p.sth.rootB64)).getD []) p.sth.timestamp, p.sth.signatureB64)

def SampleProof.binding (p : SampleProof) (entry : KtEntry) : BindingAnswer :=
  .served entry p.sth p.index p.proofB64

def SampleProof.roster (p : SampleProof) (roster : KtRosterEntry) : RosterAnswer :=
  .served (some roster) (some p.sth) (some p.index) (some p.proofB64)

/-- A client that knows the signatures and the proofs that were made, and no others. -/
def sampleClient (signed : Signatures) (proofs : List SampleProof) : KtClient :=
  { crypto := { (sampleRelay signed).crypto with sha := namedSha }
    heads :=
      { decode := fun s => decodeBase64 (utf8 s)
        keyOk := fun _ => true
        verifyStrict := sampleVerify (proofs.map (·.signed))
        verifyConsistency := fun _ _ _ _ _ => false }
    pinnedKtKey := ktKey
    verifyInclusion := fun size root leaf index digests => proofs.any fun p =>
      p.sth.treeSize = size && decodeBase64 (utf8 p.sth.rootB64) = some root && p.leaf = leaf &&
      p.index = index &&
        (decodeBase64 (utf8 p.proofB64)).map (·.toChunks 32) = some digests }

section sampleClient

variable {signed : Signatures} {proofs : List SampleProof}

theorem sampleClient_heads : MadeHeads (sampleClient signed proofs).heads (proofs.map (·.signed)) :=
  { decode := rfl, keyOk := fun _ => rfl, verifyStrict := rfl }

theorem sampleClient_verifies {key signature : String} {message : Bytes}
    (hmade : (key, message, signature) ∈ signed) (hkey : readable (· = 32) key = true)
    (hsig : readable (· = 64) signature = true) :
    (sampleClient signed proofs).crypto.verifyEd25519 key message signature = true :=
  sampleRelay_verifies hmade hkey hsig

/-- The texts of a proof are base64 of the sizes they should have. -/
structure SampleProof.Reads (p : SampleProof) : Prop where
  root : readable (· = 32) p.sth.rootB64 = true
  signature : readable (· = 64) p.sth.signatureB64 = true
  digests : readable (· % 32 = 0) p.proofB64 = true

variable {p : SampleProof} (hp : p ∈ proofs) (hreads : p.Reads)
include hp hreads

/-- The head of a proof that was made is signed by the log. -/
theorem sampleClient_head : verifySthB64 (sampleClient signed proofs).heads ktKey p.sth = true :=
  sampleClient_heads.verified (List.mem_map_of_mem hp) hreads.root hreads.signature

/-- Its leaf is in the log. -/
theorem sampleClient_included :
    (sampleClient signed proofs).included p.sth p.leaf p.index p.proofB64 = true := by
  obtain ⟨root, hroot, hlen⟩ := readable_iff.mp hreads.root
  obtain ⟨bytes, hbytes, hmod⟩ := readable_iff.mp hreads.digests
  simp only [decide_eq_true_eq] at hlen hmod
  have hdigests : inclusionFromB64 (sampleClient signed proofs).heads p.proofB64 =
      some (bytes.toChunks 32) := by
    unfold inclusionFromB64
    rw [sampleClient_heads.b64d hbytes]
    exact if_neg (not_not.mpr hmod)
  unfold KtClient.included SignedTreeHead.rootBytes
  rw [hdigests, sampleClient_heads.decodeTo hroot hlen]
  refine List.any_eq_true.mpr ⟨p, hp, ?_⟩
  simp [hroot, hbytes]

theorem sampleClient_served {roster : KtRosterEntry} (hleaf : p.leaf = roster.leafBytes) :
    Served (sampleClient signed proofs) (p.roster roster) roster :=
  ⟨p.sth, p.index, p.proofB64, rfl, sampleClient_head hp hreads, by
    unfold KtClient.verifyRosterInclusionB64
    rw [← hleaf]
    exact sampleClient_included hp hreads⟩

theorem sampleClient_presented {username : String} {entry : KtEntry}
    (hleaf : p.leaf = entry.leafBytes)
    (hmade : (entry.signer, entry.signingPayload, entry.signature) ∈ signed)
    (hkey : readable (· = 32) entry.signer = true) (hsig : readable (· = 64) entry.signature = true)
    (hname : entry.usernameHash = namedSha.hex (utf8 username)) :
    Presented (sampleClient signed proofs) username (p.binding entry) entry where
  served := ⟨p.sth, p.index, p.proofB64, rfl, sampleClient_head hp hreads, hleaf ▸ sampleClient_included hp hreads⟩
  signed := sampleClient_verifies hmade hkey hsig
  name := hname

end sampleClient

/-- The head of the log with the first binding and roster of the account. -/
def linkedHead : SignedTreeHead :=
  { treeSize := 2, rootB64 := "STkKri8808V0YQDWjYNX2E5gIK52bWuHwKbE31POFaM", timestamp := 1150
    signatureB64 := "uIkGht2UwGWJyLvOkiSn0Xbl8dMnwpUHZU/cK6+CRTEu4Y7BO1dz7Z1bAnC+ZShnfnIIOpfiFLKIRpUdqAXHCg" }

def bobEntryProof : SampleProof :=
  ⟨linkedHead, bobEntry.leafBytes, 0, "EVTtVRkcImp02nOsThjSJiAR9oZ3+UTJwm7FKEXNk9Y"⟩

def bobRosterProof : SampleProof :=
  ⟨linkedHead, bobRoster.leafBytes, 1, "8eBwpP0DvwdO7dNbRLp8S1jQJ8JKsb7mBD5BWu1XTqg"⟩

theorem bobRosterProof_reads : bobRosterProof.Reads :=
  ⟨by decide +kernel, by decide +kernel, by decide +kernel⟩

/-- The head of the log once the account changed its key as well. -/
def rotatedHead : SignedTreeHead :=
  { treeSize := 3, rootB64 := "cTI1txFrxuGC4wmvk9n2TUEdJlQJokl1MVdrvDUeaQQ", timestamp := 2100
    signatureB64 := "vFRxaignntnMsNwb6XsjUqKKyWJgeTBi+eL0d/JVXafNj6CIkEeD1Ii2p+zZH9W90swVjucXc6UoWCACrDU/CA" }

def rotationProof : SampleProof :=
  ⟨rotatedHead, rotationEntry.leafBytes, 2, "STkKri8808V0YQDWjYNX2E5gIK52bWuHwKbE31POFaM"⟩

theorem rotationProof_reads : rotationProof.Reads :=
  ⟨by decide +kernel, by decide +kernel, by decide +kernel⟩

/-- The client of an account that linked a device and changed its key. -/
def rotatedClient : KtClient :=
  sampleClient ((bobKey, rotationEntry.signingPayload, rotationEntry.signature) :: rosterSigned)
    [bobEntryProof, bobRosterProof, rotationProof]

end Sona
