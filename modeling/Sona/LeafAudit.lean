/-
# Auditing one's own leaves

`multidevice/roster.rs`: a client asks its relay for every leaf of its own name, with a
proof for each against one head, and compares them with what it knows
(`auditOwnLeaves`): its keys, and the devices of its pinned roster. The relay is not
trusted; the answer is anything it may send.

A binding is reported if it names the account's identity key under another signing
key. Earlier rotations name other keys and are no fault, so a binding with a foreign
identity key is passed over, whether the account ever held its keys or not, also where
it is the one the name stands at: a rotation that takes the whole account over is the
one that is not reported (`rotation_unreported`). Of the answers with good proofs under
a good head `misses_nothing_iff` says where the audit misses nothing.

Key definitions: `Leaf`, `auditLeaf`, `auditOwnLeaves`, `Leaf.Clean`, `Passes`, `ValidAnswer`,
`MissesNothing`, `Flagged`, `Overlooked`.
Key theorems: `auditLeaf_clean`, `auditOwnLeaves_ok`, `passes_iff`, `misses_nothing_iff`.
-/
import Mathlib.Data.List.Basic
import Sona.Enrolment

namespace Sona

/-! ### Leaves -/

/-- The kind of a leaf and its record; a record that does not parse is `none`. -/
inductive LeafRecord
  | binding (entry : Option KtEntry)
  | roster (roster : Option KtRosterEntry)
  /-- Another kind, or none. -/
  | other
deriving DecidableEq, Repr

structure Leaf where
  index : Option ℕ
  record : LeafRecord
  proofB64 : Option String
deriving DecidableEq, Repr

/-- The answer to a request for the leaves of a name; leaves that are no list are none. -/
inductive LeavesAnswer
  | failed (status : Option ℕ)
  | served (sth : Option SignedTreeHead) (leaves : List Leaf)
deriving DecidableEq, Repr

inductive LeafAudit
  | ok (leaves : ℕ)
  | unrecognized (findings : List String)
  | badProof
deriving DecidableEq, Repr

/-- The identity keys of the pinned roster of the account, none if there is no pin. -/
def History.knownDevices (h : History) (username : String) : List String :=
  ((h.contactRosters.get username).map fun p => p.devices.map (·.identityKey)).getD []

def foreignBinding (index : ℕ) : String :=
  s!"leaf {index}: a binding for our identity key under a signing key we do not hold"

def foreignDevice (index seq : ℕ) (deviceId : String) : String :=
  s!"leaf {index}: roster epoch {seq} lists device {deviceId} we never enrolled"

/-- What is found at a leaf, and `none` if it is not shown to be in the log of the head. -/
def auditLeaf (K : KtClient) (a : Account) (known : List String) (sth : SignedTreeHead)
    (leaf : Leaf) :
    Option (List String) :=
  let index := leaf.index.getD 0
  let proof := leaf.proofB64.getD ""
  match leaf.record with
  | .binding none => none
  | .binding (some entry) =>
    if !K.verifyInclusionB64 sth entry index proof then none else
    some (if entry.signingKey ≠ a.signingKey ∧ entry.identityKey = a.identityKey then [foreignBinding index] else [])
  | .roster none => none
  | .roster (some roster) =>
    if !K.verifyRosterInclusionB64 sth roster index proof then none else
    some ((roster.devices.filter fun d => !known.isEmpty && !known.contains d.identityKey).map fun d =>
      foreignDevice index roster.seq d.deviceId)
  | .other => none

/-- The loop over the leaves: `findings` are those of the ones before. -/
def auditLeaves (K : KtClient) (a : Account) (known : List String) (sth : SignedTreeHead)
    (findings : List String) :
    List Leaf → Option (List String)
  | [] => some findings
  | leaf :: leaves =>
    match auditLeaf K a known sth leaf with
    | none => none
    | some found => auditLeaves K a known sth (findings ++ found) leaves

def Client.auditOwnLeaves (K : KtClient) (a : Account) (h : History) :
    LeavesAnswer → Except ClientError LeafAudit
  | .failed status => .error (.http status)
  | .served none _ => .error (.protocol "sth")
  | .served (some sth) leaves =>
    if !verifySthB64 K.heads K.pinnedKtKey sth then .ok .badProof else
    match auditLeaves K a (h.knownDevices a.accountId) sth [] leaves with
    | none => .ok .badProof
    | some findings => .ok (if findings.isEmpty then .ok leaves.length else .unrecognized findings)

/-! ### What passes -/

/-- A leaf that is in the log, and that the account has nothing to say against. -/
inductive Leaf.Clean (K : KtClient) (a : Account) (known : List String) (sth : SignedTreeHead)
    (leaf : Leaf) : Prop
  | binding (entry : KtEntry) (record : leaf.record = .binding (some entry))
      (included : K.verifyInclusionB64 sth entry (leaf.index.getD 0) (leaf.proofB64.getD "") = true)
      (own : entry.identityKey = a.identityKey → entry.signingKey = a.signingKey)
  | roster (roster : KtRosterEntry) (record : leaf.record = .roster (some roster))
      (included : K.verifyRosterInclusionB64 sth roster (leaf.index.getD 0) (leaf.proofB64.getD "") = true)
      (enrolled : known ≠ [] → ∀ d ∈ roster.devices, d.identityKey ∈ known)

/-- The head is signed, and every leaf is clean. -/
structure Passes (K : KtClient) (a : Account) (h : History) (sth : SignedTreeHead)
    (leaves : List Leaf) : Prop where
  head : verifySthB64 K.heads K.pinnedKtKey sth = true
  leaves : ∀ leaf ∈ leaves, leaf.Clean K a (h.knownDevices a.accountId) sth

section audit

variable {K : KtClient} {a : Account} {h : History} {known : List String} {sth : SignedTreeHead}
  {leaf : Leaf}

/-- What is found at a roster that is in the log. -/
theorem auditLeaf_roster {roster : KtRosterEntry} (hrecord : leaf.record = .roster (some roster))
    (hin : K.verifyRosterInclusionB64 sth roster (leaf.index.getD 0) (leaf.proofB64.getD "") = true) :
    auditLeaf K a known sth leaf =
      some ((roster.devices.filter fun d => !known.isEmpty && !known.contains d.identityKey).map fun d =>
        foreignDevice (leaf.index.getD 0) roster.seq d.deviceId) := by
  unfold auditLeaf
  rw [hrecord]
  dsimp only
  rw [hin]
  rfl

/-- **A leaf is passed over exactly if it is clean.** -/
theorem auditLeaf_clean : auditLeaf K a known sth leaf = some [] ↔ leaf.Clean K a known sth := by
  constructor
  · intro haudit
    unfold auditLeaf at haudit
    dsimp only at haudit
    split at haudit
    · cases haudit
    · rename_i entry hrecord
      split at haudit
      · cases haudit
      rename_i hin
      refine .binding entry hrecord (by simpa using hin) fun hown => ?_
      by_contra hforeign
      rw [if_pos ⟨hforeign, hown⟩] at haudit
      cases haudit
    · cases haudit
    · rename_i roster hrecord
      split at haudit
      · cases haudit
      rename_i hin
      refine .roster roster hrecord (by simpa using hin) fun hknown d hd => ?_
      simp only [Option.some.injEq, List.map_eq_nil_iff, List.filter_eq_nil_iff] at haudit
      simpa [hknown] using haudit d hd
    · cases haudit
  · rintro (⟨entry, hrecord, hin, hown⟩ | ⟨roster, hrecord, hin, henrolled⟩)
    · unfold auditLeaf
      rw [hrecord]
      dsimp only
      have hforeign : ¬ (entry.signingKey ≠ a.signingKey ∧ entry.identityKey = a.identityKey) :=
        fun hf =>
        hf.1 (hown hf.2)
      rw [hin, if_neg hforeign]
      rfl
    · rw [auditLeaf_roster hrecord hin, List.filter_eq_nil_iff.mpr]
      · rfl
      intro d hd
      by_cases hknown : known = []
      · simp [hknown]
      · simp [henrolled hknown d hd]

theorem auditLeaves_cons {found findings : List String} {leaves : List Leaf}
    (hleaf : auditLeaf K a known sth leaf = some found) :
    auditLeaves K a known sth findings (leaf :: leaves) =
      auditLeaves K a known sth (findings ++ found) leaves := by
  rw [auditLeaves, hleaf]

theorem auditLeaves_eq (findings : List String) (leaves : List Leaf) :
    auditLeaves K a known sth findings leaves = some [] ↔
      findings = [] ∧ ∀ leaf ∈ leaves, auditLeaf K a known sth leaf = some [] := by
  induction leaves generalizing findings with
  | nil => simp [auditLeaves]
  | cons leaf leaves ih =>
    rw [List.forall_mem_cons]
    cases hleaf : auditLeaf K a known sth leaf with
    | none => simp [auditLeaves, hleaf]
    | some found => rw [auditLeaves_cons hleaf, ih, List.append_eq_nil_iff, Option.some.injEq, and_assoc]

theorem auditLeaves_clean (leaves : List Leaf) :
    auditLeaves K a known sth [] leaves = some [] ↔ ∀ leaf ∈ leaves, leaf.Clean K a known sth := by
  rw [auditLeaves_eq, and_iff_right rfl]
  exact forall₂_congr fun leaf _ => auditLeaf_clean

theorem auditOwnLeaves_of_head {leaves : List Leaf}
    (hhead : verifySthB64 K.heads K.pinnedKtKey sth = true) :
    Client.auditOwnLeaves K a h (.served (some sth) leaves) =
      match auditLeaves K a (h.knownDevices a.accountId) sth [] leaves with
      | none => .ok .badProof
      | some findings => .ok (if findings.isEmpty then .ok leaves.length else .unrecognized findings) := by
  unfold Client.auditOwnLeaves
  dsimp only
  rw [hhead]
  rfl

theorem Passes.audit {leaves : List Leaf} (hp : Passes K a h sth leaves) :
    Client.auditOwnLeaves K a h (.served (some sth) leaves) = .ok (.ok leaves.length) := by
  rw [auditOwnLeaves_of_head hp.head, (auditLeaves_clean leaves).mpr hp.leaves]
  rfl

/-- **The audit is content exactly if the head and every leaf pass.** -/
theorem auditOwnLeaves_ok {leaves : List Leaf} :
    (∃ n, Client.auditOwnLeaves K a h (.served (some sth) leaves) = .ok (.ok n)) ↔
    Passes K a h sth leaves := by
  refine ⟨?_, fun hp => ⟨leaves.length, hp.audit⟩⟩
  rintro ⟨n, hn⟩
  cases hhead : verifySthB64 K.heads K.pinnedKtKey sth with
  | false =>
    unfold Client.auditOwnLeaves at hn
    dsimp only at hn
    rw [hhead] at hn
    cases hn
  | true =>
    refine ⟨hhead, (auditLeaves_clean leaves).mp ?_⟩
    rw [auditOwnLeaves_of_head hhead] at hn
    cases haudit : auditLeaves K a (h.knownDevices a.accountId) sth [] leaves with
    | none =>
      rw [haudit] at hn
      cases hn
    | some findings =>
      rw [haudit] at hn
      cases findings with
      | nil => rfl
      | cons f fs => cases hn

end audit

/-! ### What may be missed -/

/-- The answer lists the binding. -/
def ListsBinding (leaves : List Leaf) (entry : KtEntry) : Prop :=
  ∃ leaf ∈ leaves, leaf.record = .binding (some entry)

def ListsRoster (leaves : List Leaf) (roster : KtRosterEntry) : Prop :=
  ∃ leaf ∈ leaves, leaf.record = .roster (some roster)

/-- The binding that the name stands at, by what the answer lists. -/
structure HeadBinding (usernameHash : String) (leaves : List Leaf) (entry : KtEntry) : Prop where
  listed : ListsBinding leaves entry
  name : entry.usernameHash = usernameHash
  highest : ∀ e, ListsBinding leaves e → e.usernameHash = usernameHash → e.seq ≤ entry.seq

/-- The record of the leaf can be read, and its proof is good. -/
inductive Leaf.Proved (K : KtClient) (sth : SignedTreeHead) (leaf : Leaf) : Prop
  | binding (entry : KtEntry) (record : leaf.record = .binding (some entry))
      (included : K.verifyInclusionB64 sth entry (leaf.index.getD 0) (leaf.proofB64.getD "") = true)
  | roster (roster : KtRosterEntry) (record : leaf.record = .roster (some roster))
      (included : K.verifyRosterInclusionB64 sth roster (leaf.index.getD 0) (leaf.proofB64.getD "") = true)

/-- Leaves with good proofs, under a head that is signed. -/
structure ValidAnswer (K : KtClient) (sth : SignedTreeHead) (leaves : List Leaf) : Prop where
  head : verifySthB64 K.heads K.pinnedKtKey sth = true
  proved : ∀ leaf ∈ leaves, leaf.Proved K sth

/-- If the audit is content, the name stands at the keys of the account, with a pinned roster every
roster that goes with them lists devices of the pin, and no binding of the name is to keys that the
account never held; `held` has the pairs of an identity key and a signing key
that it holds or held. -/
structure MissesNothing (K : KtClient) (a : Account) (h : History) (held : List (String × String))
    (sth : SignedTreeHead) (leaves : List Leaf) : Prop where
  binding : ∀ n entry, Client.auditOwnLeaves K a h (.served (some sth) leaves) = .ok (.ok n) →
    HeadBinding (identityHash K.crypto.sha a.accountId) leaves entry →
    entry.identityKey = a.identityKey ∧ entry.signingKey = a.signingKey
  rosters : ∀ n entry pin roster, Client.auditOwnLeaves K a h (.served (some sth) leaves) = .ok (.ok n) →
    HeadBinding (identityHash K.crypto.sha a.accountId) leaves entry →
    h.contactRosters.get a.accountId = some pin →
    ListsRoster leaves roster → roster.validateAgainst K.crypto entry = .ok () →
    ∀ d ∈ roster.devices, d.identityKey ∈ pin.devices.map (·.identityKey)
  injected : ∀ n entry, Client.auditOwnLeaves K a h (.served (some sth) leaves) = .ok (.ok n) →
    ListsBinding leaves entry → entry.usernameHash = identityHash K.crypto.sha a.accountId →
    (entry.identityKey, entry.signingKey) ∈ held

/-- The answer has something that the loop looks for: the account's identity key under another
signing key, or a device that the pin does not list. -/
inductive Flagged (a : Account) (known : List String) (leaves : List Leaf) : Prop
  | binding (entry : KtEntry) (listed : ListsBinding leaves entry)
      (identity : entry.identityKey = a.identityKey)
      (signing : entry.signingKey ≠ a.signingKey)
  | device (roster : KtRosterEntry) (listed : ListsRoster leaves roster) (pinned : known ≠ [])
      (d : DeviceRecord)
      (device : d ∈ roster.devices) (unknown : d.identityKey ∉ known)

/-- The answer has something that the loop does not look for. -/
inductive Overlooked (K : KtClient) (a : Account) (h : History) (held : List (String × String))
    (leaves : List Leaf) : Prop
  /-- A binding to keys that the account never held, of which the identity key is another one. -/
  | injected (entry : KtEntry) (listed : ListsBinding leaves entry)
      (name : entry.usernameHash = identityHash K.crypto.sha a.accountId)
      (identity : entry.identityKey ≠ a.identityKey) (keys : (entry.identityKey, entry.signingKey) ∉ held)
  /-- The name stands at another identity key. -/
  | highest (entry : KtEntry) (head : HeadBinding (identityHash K.crypto.sha a.accountId) leaves entry)
      (identity : entry.identityKey ≠ a.identityKey)
  /-- A roster that goes with the binding, where the pin lists no device. -/
  | unpinned (entry : KtEntry) (head : HeadBinding (identityHash K.crypto.sha a.accountId) leaves entry)
      (pin : RosterPin) (pinned : h.contactRosters.get a.accountId = some pin) (noDevice : pin.devices = [])
      (roster : KtRosterEntry) (listed : ListsRoster leaves roster)
      (validates : roster.validateAgainst K.crypto entry = .ok ())

section missed

variable {K : KtClient} {a : Account} {h : History} {sth : SignedTreeHead} {leaves : List Leaf}

theorem Passes.binding (hp : Passes K a h sth leaves) {entry : KtEntry}
    (hl : ListsBinding leaves entry) :
    entry.identityKey = a.identityKey → entry.signingKey = a.signingKey := by
  obtain ⟨leaf, hleaf, hrecord⟩ := hl
  rcases hp.leaves leaf hleaf with ⟨e, he, -, hown⟩ | ⟨r, hr, -, -⟩
  · cases hrecord.symm.trans he
    exact hown
  · cases hrecord.symm.trans hr

theorem Passes.enrolled (hp : Passes K a h sth leaves) {roster : KtRosterEntry}
    (hl : ListsRoster leaves roster) (hknown : h.knownDevices a.accountId ≠ []) :
    ∀ d ∈ roster.devices, d.identityKey ∈ h.knownDevices a.accountId := by
  obtain ⟨leaf, hleaf, hrecord⟩ := hl
  rcases hp.leaves leaf hleaf with ⟨e, he, -, hown⟩ | ⟨r, hr, -, henrolled⟩
  · cases hrecord.symm.trans he
  · cases hrecord.symm.trans hr
    exact henrolled hknown

/-- **Of a valid answer the audit is content exactly if there is nothing in it
that it looks for.** -/
theorem passes_iff (hv : ValidAnswer K sth leaves) :
    Passes K a h sth leaves ↔ ¬ Flagged a (h.knownDevices a.accountId) leaves := by
  constructor
  · rintro hp (⟨entry, hl, hidentity, hsigning⟩ | ⟨roster, hl, hpin, d, hd, hno⟩)
    · exact hsigning (hp.binding hl hidentity)
    · exact hno (hp.enrolled hl hpin d hd)
  · intro hclear
    refine ⟨hv.head, fun leaf hleaf => ?_⟩
    rcases hv.proved leaf hleaf with ⟨entry, hrecord, hin⟩ | ⟨roster, hrecord, hin⟩
    · refine .binding entry hrecord hin fun hidentity => ?_
      by_contra hsigning
      exact hclear (.binding entry ⟨leaf, hleaf, hrecord⟩ hidentity hsigning)
    · refine .roster roster hrecord hin fun hpin d hd => ?_
      by_contra hno
      exact hclear (.device roster ⟨leaf, hleaf, hrecord⟩ hpin d hd hno)

/-- When the audit is content with a valid answer. -/
theorem content_iff (hv : ValidAnswer K sth leaves) :
    (∃ n, Client.auditOwnLeaves K a h (.served (some sth) leaves) = .ok (.ok n)) ↔
      ¬ Flagged a (h.knownDevices a.accountId) leaves :=
  auditOwnLeaves_ok.trans (passes_iff hv)

theorem knownDevices_pinned {username : String} {pin : RosterPin}
    (hpin : h.contactRosters.get username = some pin) :
    h.knownDevices username = pin.devices.map (·.identityKey) := by
  unfold History.knownDevices
  rw [hpin]
  rfl

/-- A roster that goes with a binding lists a device. -/
theorem devices_of_validateAgainst {roster : KtRosterEntry} {entry : KtEntry}
    (hval : roster.validateAgainst K.crypto entry = .ok ()) : roster.devices ≠ [] := by
  intro hnil
  unfold KtRosterEntry.validateAgainst at hval
  split at hval
  · cases hval
  · rw [if_pos (Or.inl (by rw [hnil]; rfl))] at hval
    cases hval

/-- A binding that names the account's identity key, and is not reported, is to
the account's keys. -/
theorem signingKey_of_clear (hclear : ¬ Flagged a (h.knownDevices a.accountId) leaves)
    {entry : KtEntry} (hl : ListsBinding leaves entry)
    (hidentity : entry.identityKey = a.identityKey) :
    entry.signingKey = a.signingKey := by
  by_contra hsigning
  exact hclear (.binding entry hl hidentity hsigning)

end missed

/-- **The audit misses nothing** of a valid answer exactly if there is something in it that it looks
for, or nothing that it does not look for. -/
theorem misses_nothing_iff (K : KtClient) (a : Account) (h : History)
    (held : List (String × String)) (hheld : (a.identityKey, a.signingKey) ∈ held)
    (sth : SignedTreeHead) (leaves : List Leaf) (hv : ValidAnswer K sth leaves) :
    MissesNothing K a h held sth leaves ↔
      (Flagged a (h.knownDevices a.accountId) leaves ∨ ¬ Overlooked K a h held leaves) := by
  constructor
  · intro hm
    by_cases hflag : Flagged a (h.knownDevices a.accountId) leaves
    · exact Or.inl hflag
    obtain ⟨n, hn⟩ := (content_iff hv).mpr hflag
    refine Or.inr ?_
    rintro (⟨entry, hl, hname, -, hkeys⟩ | ⟨entry, hhead, hidentity⟩ | ⟨entry, hhead, pin, hpin, hnil, roster, hl, hval⟩)
    · exact hkeys (hm.injected n entry hn hl hname)
    · exact hidentity (hm.binding n entry hn hhead).1
    · have hdevices := hm.rosters n entry pin roster hn hhead hpin hl hval
      rw [hnil] at hdevices
      obtain ⟨d, hd⟩ := List.exists_mem_of_ne_nil _ (devices_of_validateAgainst hval)
      exact absurd (hdevices d hd) List.not_mem_nil
  · rintro (hflag | hnone)
    · have hno : ∀ n, Client.auditOwnLeaves K a h (.served (some sth) leaves) ≠ .ok (.ok n) :=
        fun n hn =>
        (content_iff hv).mp ⟨n, hn⟩ hflag
      exact {
        binding := fun n _ hn => absurd hn (hno n)
        rosters := fun n _ _ _ hn => absurd hn (hno n)
        injected := fun n _ hn => absurd hn (hno n) }
    · constructor
      · intro n entry hn hhead
        have hclear := (content_iff hv).mp ⟨n, hn⟩
        have hidentity : entry.identityKey = a.identityKey := by
          by_contra hforeign
          exact hnone (.highest entry hhead hforeign)
        exact ⟨hidentity, signingKey_of_clear hclear hhead.listed hidentity⟩
      · intro n entry pin roster hn hhead hpin hl hval d hd
        have hclear := (content_iff hv).mp ⟨n, hn⟩
        have hlisted : pin.devices ≠ [] :=
          fun hnil => hnone (.unpinned entry hhead pin hpin hnil roster hl hval)
        rw [← knownDevices_pinned hpin]
        by_contra hno
        refine hclear (.device roster hl ?_ d hd hno)
        rw [knownDevices_pinned hpin]
        simpa using hlisted
      · intro n entry hn hl hname
        have hclear := (content_iff hv).mp ⟨n, hn⟩
        by_cases hidentity : entry.identityKey = a.identityKey
        · rw [hidentity, signingKey_of_clear hclear hl hidentity]
          exact hheld
        · by_contra hkeys
          exact hnone (.injected entry hl hname hidentity hkeys)

/-! ### A takeover that is not reported -/

/-- The leaf of a proof, as an answer lists it. -/
def SampleProof.shows (p : SampleProof) (record : LeafRecord) : Leaf :=
  ⟨some p.index, record, some p.proofB64⟩

section shows

variable {signed : Signatures} {proofs : List SampleProof} {p : SampleProof} {a : Account}
  {known : List String}
variable (hp : p ∈ proofs) (hreads : p.Reads)
include hp hreads

theorem shows_binding {entry : KtEntry} (hleaf : p.leaf = entry.leafBytes)
    (hsigned : entry.verifySignature (sampleClient signed proofs).crypto = true)
    (hown : entry.identityKey = a.identityKey → entry.signingKey = a.signingKey) :
    (p.shows (.binding (some entry))).Clean (sampleClient signed proofs) a known p.sth := by
  refine .binding entry rfl ?_ hown
  unfold KtClient.verifyInclusionB64
  rw [hsigned, ← hleaf]
  exact sampleClient_included hp hreads

theorem shows_roster {roster : KtRosterEntry} (hleaf : p.leaf = roster.leafBytes)
    (henrolled : known ≠ [] → ∀ d ∈ roster.devices, d.identityKey ∈ known) :
    (p.shows (.roster (some roster))).Clean (sampleClient signed proofs) a known p.sth := by
  refine .roster roster rfl ?_ henrolled
  unfold KtClient.verifyRosterInclusionB64
  rw [← hleaf]
  exact sampleClient_included hp hreads

end shows

/-- The first leaves of the account, shown in the log as it is after the rotation. -/
def rotatedEntryProof : SampleProof :=
  ⟨rotatedHead, bobEntry.leafBytes, 0,
    "EVTtVRkcImp02nOsThjSJiAR9oZ3+UTJwm7FKEXNk9bToE4qptDqV1RnZzJGtLOU02fqidJkpIIAM1Yf+NHYbQ"⟩

def rotatedRosterProof : SampleProof :=
  ⟨rotatedHead, bobRoster.leafBytes, 1,
    "8eBwpP0DvwdO7dNbRLp8S1jQJ8JKsb7mBD5BWu1XTqjToE4qptDqV1RnZzJGtLOU02fqidJkpIIAM1Yf+NHYbQ"⟩

/-- The client of the account that is audited. -/
def auditClient : KtClient :=
  sampleClient ((bobKey, rotationEntry.signingPayload, rotationEntry.signature) :: rosterSigned)
    [rotatedEntryProof, rotatedRosterProof, rotationProof]

/-- All leaves of the account; the last one is a rotation to keys that it does not hold. -/
def rotatedLeaves : List Leaf :=
  [rotatedEntryProof.shows (.binding (some bobEntry)), rotatedRosterProof.shows (.roster (some bobRoster)),
    rotationProof.shows (.binding (some rotationEntry))]

theorem rotatedProofs_read : rotatedEntryProof.Reads ∧ rotatedRosterProof.Reads :=
  ⟨⟨by decide +kernel, by decide +kernel, by decide +kernel⟩, by decide +kernel, by decide +kernel, by decide +kernel⟩

theorem rotated_audited :
    bobEntry.verifySignature auditClient.crypto = true ∧
    rotationEntry.verifySignature auditClient.crypto = true :=
  ⟨sampleClient_verifies (List.mem_cons_of_mem _ List.mem_cons_self) (by decide +kernel) (by decide +kernel),
    sampleClient_verifies List.mem_cons_self (by decide +kernel) (by decide +kernel)⟩

/-- The audit has nothing to say against any leaf. -/
theorem rotated_passes : Passes auditClient bobAccount pinnedBob rotatedHead rotatedLeaves where
  head := sampleClient_head (p := rotationProof) (by simp) rotationProof_reads
  leaves := by
    intro leaf hleaf
    simp only [rotatedLeaves, List.mem_cons, List.not_mem_nil, or_false] at hleaf
    rcases hleaf with rfl | rfl | rfl
    · exact shows_binding (by simp) rotatedProofs_read.1 rfl rotated_audited.1 fun _ => rfl
    · refine shows_roster (by simp) rotatedProofs_read.2 rfl fun _ d hd => ?_
      have hknown : pinnedBob.knownDevices bobAccount.accountId =
          bobRoster.devices.map (·.identityKey) := by
        decide +kernel
      rw [hknown]
      exact List.mem_map_of_mem hd
    · exact shows_binding (by simp) rotationProof_reads rfl rotated_audited.2
        fun hown => absurd hown (by decide)

/-- The name stands at the rotation. -/
theorem rotated_head :
    HeadBinding (identityHash auditClient.crypto.sha bobAccount.accountId) rotatedLeaves rotationEntry where
  listed := ⟨rotationProof.shows (.binding (some rotationEntry)), by simp [rotatedLeaves], rfl⟩
  name := namedSha_bob.symm
  highest := by
    rintro e ⟨leaf, hleaf, hrecord⟩ -
    simp only [rotatedLeaves, List.mem_cons, List.not_mem_nil, or_false] at hleaf
    rcases hleaf with rfl | rfl | rfl
    · cases hrecord
      decide
    · cases hrecord
    · cases hrecord
      exact le_rfl

/-- A leaf that is clean is proved. -/
theorem Leaf.Clean.proved {K : KtClient} {a : Account} {known : List String} {sth : SignedTreeHead}
    {leaf : Leaf} (h : leaf.Clean K a known sth) : leaf.Proved K sth := by
  rcases h with ⟨entry, hrecord, hin, -⟩ | ⟨roster, hrecord, hin, -⟩
  · exact .binding entry hrecord hin
  · exact .roster roster hrecord hin

theorem rotated_valid : ValidAnswer auditClient rotatedHead rotatedLeaves :=
  ⟨rotated_passes.head, fun leaf hleaf => (rotated_passes.leaves leaf hleaf).proved⟩

/-- The keys that Bob holds, and he held no others. -/
def bobHeld : List (String × String) := [(bobAccount.identityKey, bobAccount.signingKey)]

/-- Of the answer without the rotation the audit misses nothing. -/
theorem misses_nothing_bob :
    MissesNothing auditClient bobAccount pinnedBob bobHeld rotatedHead (rotatedLeaves.take 2) := by
  have hvalid : ValidAnswer auditClient rotatedHead (rotatedLeaves.take 2) :=
    ⟨rotated_valid.head, fun leaf hleaf => rotated_valid.proved leaf (List.mem_of_mem_take hleaf)⟩
  have hlists : ∀ entry, ListsBinding (rotatedLeaves.take 2) entry → entry = bobEntry := by
    rintro entry ⟨leaf, hleaf, hrecord⟩
    rcases List.mem_pair.mp hleaf with rfl | rfl <;> cases hrecord
    rfl
  refine (misses_nothing_iff auditClient bobAccount pinnedBob bobHeld (List.mem_singleton_self _) rotatedHead _
    hvalid).mpr (Or.inr ?_)
  rintro (⟨entry, hl, -, hidentity, -⟩ | ⟨entry, hhead, hidentity⟩ | ⟨entry, -, pin, hpin, hnil, -, -, -⟩)
  · exact hidentity (hlists entry hl ▸ rfl)
  · exact hidentity (hlists entry hhead.listed ▸ rfl)
  · have hdevices : (pinnedBob.contactRosters.get bobAccount.accountId).map (·.devices.isEmpty) =
        some false := by
      decide +kernel
    rw [hpin, Option.map_some, hnil] at hdevices
    cases hdevices

/-- **A rotation to keys the account does not hold**: the audit is content with it. -/
theorem rotation_unreported :
    ValidAnswer auditClient rotatedHead rotatedLeaves ∧
      Client.auditOwnLeaves auditClient bobAccount pinnedBob (.served (some rotatedHead) rotatedLeaves) = .ok (.ok 3) ∧
      ¬ MissesNothing auditClient bobAccount pinnedBob bobHeld rotatedHead rotatedLeaves := by
  refine ⟨rotated_valid, rotated_passes.audit, fun hm => ?_⟩
  exact absurd (hm.binding 3 rotationEntry rotated_passes.audit rotated_head).1 (by decide)

end Sona
