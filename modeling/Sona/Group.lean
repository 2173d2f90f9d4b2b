/-
# Group epochs

`kt-log/src/group.rs`: who is in a group is decided by a chain of signed epochs
that the members exchange among themselves. An epoch lists all members and the
admin from there on; it is signed by the admin before it, the first one by its
own. `verifySuccession` checks an epoch against the sequence number and the
admin key that are pinned, `validateBaseline` one that is the first to be seen.

`validateStructure_ok`, `verifySuccession_ok` and `validateBaseline_ok` say what
an epoch that passed was checked for.

Key definitions: `GroupEpoch`, `GroupEpoch.validateStructure`, `GroupEpoch.verifySuccession`,
`GroupEpoch.validateBaseline`.
-/
import Mathlib.Data.List.Basic
import Sona.Wire
import Sona.Kt

namespace Sona

/-- Members of one epoch. -/
def maxGroupMembers : ℕ := 256

inductive GroupEpochError
  | badSignature
  | malformed (why : String)
  | rollback (pinned got : ℕ)
  | brokenContinuity
deriving DecidableEq, Repr

def GroupEpochError.message : GroupEpochError → String
  | .badSignature => "group epoch signature is invalid"
  | .malformed why => "group epoch is structurally invalid: " ++ why
  | .rollback pinned got => s!"group epoch rollback: pinned seq {pinned}, got {got}"
  | .brokenContinuity => "group epoch does not chain from the pinned admin key"

structure GroupMemberEntry where
  username : String
  identityKey : String
deriving DecidableEq, Repr

structure GroupEpoch where
  groupId : String
  seq : ℕ
  members : List GroupMemberEntry
  adminKey : String
  adminIdentityKey : String
  prevAdminKey : Option String
  timestamp : ℕ
  signature : String
deriving DecidableEq, Repr

def GroupEpoch.signingPayload (e : GroupEpoch) : Bytes :=
  utf8 "sona-group-epoch-v1" ++ pushField e.groupId ++ beBytes e.seq ++ beBytes e.members.length ++
    (e.members.flatMap fun m => pushField m.username ++ pushField m.identityKey) ++
    pushField e.adminKey ++ pushField e.adminIdentityKey ++ pushField (e.prevAdminKey.getD "") ++
    beBytes e.timestamp

/-- The key that must have signed the epoch. -/
def GroupEpoch.signer (e : GroupEpoch) : String := e.prevAdminKey.getD e.adminKey

def GroupEpoch.verifySignature (C : Crypto) (e : GroupEpoch) : Bool :=
  C.verifyEd25519 e.signer e.signingPayload e.signature

def GroupEpoch.genesis (groupId : String) (members : List GroupMemberEntry)
    (adminKey adminIdentityKey : String) (timestamp : ℕ) (sign : Bytes → String) : GroupEpoch :=
  let e : GroupEpoch :=
    { groupId, seq := 0, members, adminKey, adminIdentityKey, prevAdminKey := none, timestamp,
      signature := "" }
  { e with signature := sign e.signingPayload }

def GroupEpoch.next (seq : ℕ) (groupId : String) (members : List GroupMemberEntry)
    (adminKey adminIdentityKey prevAdminKey : String) (timestamp : ℕ)
    (signWithPrev : Bytes → String) : GroupEpoch :=
  let e : GroupEpoch :=
    { groupId, seq, members, adminKey, adminIdentityKey, prevAdminKey := some prevAdminKey,
      timestamp, signature := "" }
  { e with signature := signWithPrev e.signingPayload }

/-- The loop over the members: `seen` are the ones before. -/
def checkMembers (seen : List GroupMemberEntry) :
    List GroupMemberEntry → Except GroupEpochError Unit
  | [] => .ok ()
  | m :: ms =>
    if m.username = "" ∨ m.identityKey = "" then .error (.malformed s!"member {seen.length} has an empty field") else
    if seen.any fun p => p.identityKey == m.identityKey then
      .error (.malformed s!"duplicate member identity key at {seen.length}") else
    checkMembers (seen ++ [m]) ms

def GroupEpoch.validateStructure (e : GroupEpoch) : Except GroupEpochError Unit :=
  if e.groupId = "" then .error (.malformed "empty group_id") else
  if e.adminKey = "" ∨ e.adminIdentityKey = "" then .error (.malformed "empty admin key") else
  if e.members.isEmpty ∨ e.members.length > maxGroupMembers then
    .error (.malformed s!"member count must be 1..={maxGroupMembers}") else
  match checkMembers [] e.members with
  | .error err => .error err
  | .ok () =>
    if !e.members.any fun m => m.identityKey == e.adminIdentityKey then
      .error (.malformed "admin is not one of the members") else
    match e.seq, e.prevAdminKey with
    | 0, some _ => .error (.malformed "genesis epoch must be self-signed (no prev admin)")
    | 0, none => .ok ()
    | _ + 1, none => .error (.malformed "successor epoch must name a previous admin")
    | _ + 1, some prev => if prev = "" then .error (.malformed "empty prev admin key") else .ok ()

/-- The epoch as the successor of a pinned one. -/
def GroupEpoch.verifySuccession (C : Crypto) (e : GroupEpoch) (pinnedSeq : ℕ)
    (pinnedAdminKey : String) :
    Except GroupEpochError Unit :=
  match e.validateStructure with
  | .error err => .error err
  | .ok () =>
    if e.seq ≤ pinnedSeq then .error (.rollback pinnedSeq e.seq) else
    if e.prevAdminKey ≠ some pinnedAdminKey then .error .brokenContinuity else
    if !e.verifySignature C then .error .badSignature else
    .ok ()

/-- The epoch as the first one to be seen. -/
def GroupEpoch.validateBaseline (C : Crypto) (e : GroupEpoch) : Except GroupEpochError Unit :=
  match e.validateStructure with
  | .error err => .error err
  | .ok () => if !e.verifySignature C then .error .badSignature else .ok ()

/-! ### What an epoch that passed was checked for -/

theorem checkMembers_ok : ∀ {ms seen : List GroupMemberEntry}, (seen.map (·.identityKey)).Nodup →
    checkMembers seen ms = .ok () → ((seen ++ ms).map (·.identityKey)).Nodup
  | [], seen, hn, _ => by simpa using hn
  | m :: ms, seen, hn, h => by
    unfold checkMembers at h
    split at h
    · cases h
    split at h
    · cases h
    rename_i hdup
    have hnew : ((seen ++ [m]).map (·.identityKey)).Nodup := by
      simp only [List.any_eq_true, beq_iff_eq, not_exists, not_and] at hdup
      rw [List.map_append, List.nodup_append]
      refine ⟨hn, by simp, fun x hx y hy => ?_⟩
      obtain ⟨p, hp, rfl⟩ := List.mem_map.mp hx
      simp only [List.map_cons, List.map_nil, List.mem_singleton] at hy
      exact hy ▸ hdup p hp
    simpa using checkMembers_ok hnew h

/-- A well-formed epoch: its members are distinct, the admin is one of them, and
it names a previous admin exactly when it is no genesis, never an empty one. -/
structure GroupEpoch.WellFormed (e : GroupEpoch) : Prop where
  groupId : e.groupId ≠ ""
  adminKey : e.adminKey ≠ ""
  count : 0 < e.members.length ∧ e.members.length ≤ maxGroupMembers
  distinct : (e.members.map (·.identityKey)).Nodup
  admin : ∃ m ∈ e.members, m.identityKey = e.adminIdentityKey
  genesis : e.seq = 0 ↔ e.prevAdminKey = none
  prev : e.prevAdminKey ≠ some ""

theorem GroupEpoch.validateStructure_ok {e : GroupEpoch} (h : e.validateStructure = .ok ()) :
    e.WellFormed := by
  unfold GroupEpoch.validateStructure at h
  split at h
  · cases h
  rename_i hid
  split at h
  · cases h
  rename_i hkey
  split at h
  · cases h
  rename_i hcount
  split at h
  · cases h
  rename_i hmembers
  split at h
  · cases h
  rename_i hadmin
  have hnodup := checkMembers_ok (by simp : (([] : List GroupMemberEntry).map (·.identityKey)).Nodup) hmembers
  simp only [not_or, List.isEmpty_iff, not_lt] at hcount hkey
  have hadmin : ∃ m ∈ e.members, m.identityKey = e.adminIdentityKey := by simpa using hadmin
  have hprev : (e.seq = 0 ↔ e.prevAdminKey = none) ∧ e.prevAdminKey ≠ some "" := by
    revert h
    cases e.seq with
    | zero => cases e.prevAdminKey <;> simp
    | succ n =>
      cases e.prevAdminKey with
      | none => simp
      | some prev =>
        by_cases hp : prev = ""
        · simp [hp]
        · simp [hp]
  exact ⟨hid, hkey.1, ⟨List.length_pos_iff.mpr hcount.1, hcount.2⟩, hnodup, hadmin,
    hprev.1, hprev.2⟩

theorem GroupEpoch.verifySuccession_ok {C : Crypto} {e : GroupEpoch} {pinnedSeq : ℕ}
    {pinnedAdminKey : String} :
    e.verifySuccession C pinnedSeq pinnedAdminKey = .ok () ↔
      e.validateStructure = .ok () ∧ pinnedSeq < e.seq ∧ e.prevAdminKey = some pinnedAdminKey ∧
        e.verifySignature C = true := by
  unfold GroupEpoch.verifySuccession
  cases e.validateStructure with
  | error err => simp
  | ok u =>
    dsimp only
    by_cases hseq : e.seq ≤ pinnedSeq
    · simp [hseq, Nat.not_lt.mpr hseq]
    by_cases hprev : e.prevAdminKey = some pinnedAdminKey
    · cases hv : e.verifySignature C <;> simp [hseq, hprev, Nat.not_le.mp hseq]
    · simp [hseq, hprev]

theorem GroupEpoch.validateBaseline_ok {C : Crypto} {e : GroupEpoch} :
    e.validateBaseline C = .ok () ↔ e.validateStructure = .ok () ∧ e.verifySignature C = true := by
  unfold GroupEpoch.validateBaseline
  cases e.validateStructure with
  | error err => simp
  | ok u => cases e.verifySignature C <;> simp

end Sona
