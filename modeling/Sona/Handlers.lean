/-
# What each handler does to ownership

One lemma for each handler of `Sona.Relay`: what a request can do to the core
of the state (`Inner.core`). A refused request leaves the core as it was, and
an accepted one makes the one change stated; the budgets, the nonces and the
database play no part in it. Everything about runs of the relay starts here.

Key definitions: `Core.takeMailbox`, `Core.mirrorRoster`, `Core.dropMailboxes`.
Key theorems: `register_core`, `publishRoster_core`, `publishCallKey_core`,
`deleteAccount_core`, `uploadOneTimeKeys_core`, `sendMessage_core`.
-/
import Sona.Relay

namespace Sona

variable {R : Relay} {s : Inner}

@[simp] theorem core_withDb (s : Inner) (f : Db → Db) : (s.withDb f).core = s.core := rfl

@[simp] theorem core_chargeRate (s : Inner) (key : String) (now : ℕ) :
    (s.chargeRate key now).2.core = s.core := rfl

@[simp] theorem core_chargeAuth (s : Inner) (key : String) (now : ℕ) :
    (s.chargeAuth key now).2.core = s.core := rfl

@[simp] theorem core_burnInvite (s : Inner) (d : Option String) :
    (burnInvite s d).core = s.core := by
  unfold burnInvite
  split
  · rfl
  · split <;> rfl

/-- The channels that are live for a mailbox. -/
def Core.liveOn (c : Core) (m : String) : List ChannelId := (c.live.get m).getD []

/-! ### Registration -/

/-- The gates charge budgets and touch nothing else. -/
theorem releaseGate_frame (entry : KtEntry) (now : ℕ) :
    ∃ renameRate, (releaseGate R s entry now).2 = { s with renameRate } := by
  unfold releaseGate
  split
  · split
    · exact ⟨s.renameRate, rfl⟩
    · dsimp only
      split <;> exact ⟨_, rfl⟩
  · exact ⟨s.renameRate, rfl⟩

theorem registerGate_frame (client invite : Option String) (req : RegisterRequest) (now : ℕ) :
    ∃ authRate ktGrowthRate renameRate,
      (registerGate R s client invite req now).2 =
        { s with authRate, ktGrowthRate, renameRate } := by
  unfold registerGate
  split
  · exact ⟨s.authRate, s.ktGrowthRate, s.renameRate, rfl⟩
  rename_i key
  split
  · exact ⟨s.authRate, s.ktGrowthRate, s.renameRate, rfl⟩
  split
  · exact ⟨s.authRate, s.ktGrowthRate, s.renameRate, rfl⟩
  dsimp only
  split
  · exact ⟨_, s.ktGrowthRate, s.renameRate, rfl⟩
  split
  · exact ⟨_, _, s.renameRate, rfl⟩
  -- the release is charged last
  obtain ⟨renameRate, h⟩ := releaseGate_frame (R := R)
    (s := ((s.chargeAuth ("register:" ++ key) now).2.chargeKtGrowth ("kt:" ++ key) now).2) req.entry now
  split
  · rename_i heq
    rw [heq] at h
    exact ⟨_, _, renameRate, h⟩
  · rename_i heq
    rw [heq] at h
    exact ⟨_, _, renameRate, h⟩

theorem core_registerGate (client invite : Option String) (req : RegisterRequest) (now : ℕ) :
    (registerGate R s client invite req now).2.core = s.core := by
  obtain ⟨_, _, _, h⟩ := registerGate_frame (R := R) (s := s) client invite req now
  rw [h]
  rfl

theorem inviteGate_error {hash : String} {invite : Option String} {r : Response}
    (h : inviteGate R s hash invite = .error r) : r.status ≠ 200 := by
  unfold inviteGate at h
  dsimp only at h
  repeat' split at h
  all_goals cases h
  all_goals simp [Response.err]

theorem releaseGate_error {entry : KtEntry} {now : ℕ} {r : Response}
    (h : (releaseGate R s entry now).1 = .error r) : r.status ≠ 200 := by
  unfold releaseGate at h
  dsimp only at h
  repeat' split at h
  all_goals cases h
  all_goals simp [Response.err]

theorem registerGate_error {client invite : Option String} {req : RegisterRequest} {now : ℕ}
    {r : Response} (h : (registerGate R s client invite req now).1 = .error r) :
    r.status ≠ 200 := by
  unfold registerGate at h
  dsimp only at h
  split at h
  · cases h; simp [Response.err]
  split at h
  · cases h; simp [Response.err]
  split at h
  · cases h; simp [Response.err]
  split at h
  · cases h; simp [Response.err]
  split at h
  · cases h; simp [Response.err]
  split at h
  · rename_i heq
    cases h
    exact releaseGate_error (congrArg Prod.fst heq)
  · exact inviteGate_error h

/-- The new keys take the mailbox over, in the core. -/
def Core.takeMailbox (c : Core) (hash : String) (entry : DirectoryEntry) : Core :=
  { c with
    live := match c.directory.get hash with
      | some prev => if prev.signingKey ≠ entry.signingKey then c.live.remove hash else c.live
      | none => c.live
    directory := c.directory.set hash entry }

theorem core_takeMailbox (s : Inner) (hash : String) (entry : DirectoryEntry) :
    (Sona.takeMailbox s hash entry).core = s.core.takeMailbox hash entry := rfl

/-- A registration is refused and changes nothing, or its entry is appended; then a release
changes nothing else, and any other entry takes the mailbox. -/
theorem register_core (client invite : Option String) (req : RegisterRequest) (now : ℕ) :
    ((register R s client invite req now).2.core = s.core ∧
      (register R s client invite req now).1.status ≠ 200) ∨
    ∃ i kt, s.kt.append R.crypto req.entry = .ok (i, kt) ∧
      (register R s client invite req now).1.status = 200 ∧
      (register R s client invite req now).2.core =
        if req.entry.released then { s.core with kt }
        else { s.core with kt }.takeMailbox req.entry.usernameHash req.record := by
  have hg := core_registerGate (R := R) (s := s) client invite req now
  unfold register
  cases hgate : registerGate R s client invite req now with
  | mk result s' =>
  rw [hgate] at hg
  have hkt : s'.kt = s.kt := congrArg Core.kt hg
  cases result with
  | error r => exact Or.inl ⟨hg, registerGate_error (by rw [hgate])⟩
  | ok consume =>
    dsimp only
    rw [hkt]
    cases ha : s.kt.append R.crypto req.entry with
    | error e => cases e <;> exact Or.inl ⟨hg, by simp [Response.err]⟩
    | ok r =>
      obtain ⟨i, kt⟩ := r
      right
      refine ⟨i, kt, rfl, ?_, ?_⟩
      · dsimp only
        split <;> rfl
      · have hcore : (burnInvite { s' with kt } consume).core = { s.core with kt } := by
          rw [core_burnInvite, show ({ s' with kt } : Inner).core = { s'.core with kt } from rfl,
            hg]
        dsimp only
        split
        · rw [core_withDb, hcore]
        · rw [core_withDb, core_takeMailbox, core_withDb, hcore]

/-- The gate lets an accepted registration pass. -/
theorem registerGate_of_accepted {client invite : Option String} {req : RegisterRequest} {now : ℕ}
    (h : (register R s client invite req now).1.status = 200) :
    ∃ consume, (registerGate R s client invite req now).1 = .ok consume := by
  unfold register at h
  cases hgate : registerGate R s client invite req now with
  | mk result s' =>
    cases result with
    | error r =>
      rw [hgate] at h
      exact absurd h (registerGate_error (by rw [hgate]))
    | ok consume => exact ⟨consume, rfl⟩

/-! ### Rosters -/

/-- The directory with the record of a linked device, kept if it has these keys already. -/
def mirrored (R : Relay) (hash : String) (directory : Table String DirectoryEntry)
    (d : DeviceRecord) :
    Table String DirectoryEntry :=
  if d.deviceId = primaryDeviceId then directory else
  match deviceMailboxHash R.crypto.sha hash d.deviceId with
  | none => directory
  | some mailbox =>
    if (directory.get mailbox.asStr).any fun e => e.identityKey = d.identityKey && e.signingKey = d.signingKey then
      directory
    else directory.set mailbox.asStr { identityKey := d.identityKey, signingKey := d.signingKey }

theorem core_mirrorDevice (hash : String) (s : Inner) (d : DeviceRecord) :
    (mirrorDevice R hash s d).core = { s.core with directory := mirrored R hash s.directory d } := by
  unfold mirrorDevice mirrored
  by_cases hp : d.deviceId = primaryDeviceId
  · rw [if_pos hp, if_pos hp]
    rfl
  rw [if_neg hp, if_neg hp]
  cases deviceMailboxHash R.crypto.sha hash d.deviceId with
  | none => rfl
  | some mailbox =>
    dsimp only
    split <;> rfl

theorem core_mirrorDevices (hash : String) : ∀ (ds : List DeviceRecord) (s : Inner),
    (ds.foldl (mirrorDevice R hash) s).core =
      { s.core with directory := ds.foldl (mirrored R hash) s.directory }
  | [], _ => rfl
  | d :: ds, s => by
    have hd := core_mirrorDevice (R := R) hash s d
    rw [List.foldl_cons, core_mirrorDevices hash ds, hd, List.foldl_cons]
    rw [show (mirrorDevice R hash s d).directory = mirrored R hash s.directory d from congrArg Core.directory hd]

/-- The message mailbox of a device id, none for a malformed name. -/
def deviceMailboxes (R : Relay) (hash : String) (ids : List String) : List String :=
  ids.flatMap fun id => ((deviceMailboxHash R.crypto.sha hash id).map (·.asStr)).toList

/-- Both mailboxes of a device id. -/
def bothMailboxes (R : Relay) (hash : String) (ids : List String) : List String :=
  ids.flatMap fun id => ((deviceMailboxHash R.crypto.sha hash id).map (·.asStr)).toList ++
    ((callMailboxHash R.crypto.sha hash id).map (·.asStr)).toList

/-- The core without the records of the dropped devices: the directory loses both
mailboxes, the other tables the message mailbox. -/
def Core.revoke (R : Relay) (c : Core) (hash : String) (ids : List String) : Core :=
  { c with
    directory := c.directory.removeAll (bothMailboxes R hash ids)
    push := c.push.removeAll (deviceMailboxes R hash ids)
    callKeys := c.callKeys.removeAll (deviceMailboxes R hash ids)
    live := c.live.removeAll (deviceMailboxes R hash ids) }

/-- A name has a message mailbox for a device exactly when it has a call-control one. -/
theorem callMailboxHash_isSome {sha : Sha256} {hash id : String} {mailbox : IdentityHash}
    (h : deviceMailboxHash sha hash id = some mailbox) :
    ∃ c, callMailboxHash sha hash id = some c := by
  unfold deviceMailboxHash at h
  unfold callMailboxHash
  cases hb : IdentityHash.fromHex hash with
  | none => simp [hb] at h
  | some base => exact ⟨_, rfl⟩

theorem core_revokeDevice (hash : String) (currentKeys : List String)
    (st : Inner × List (ChannelId × ServerFrame)) (dropped : String × String) :
    (revokeDevice R hash currentKeys st dropped).1.core = st.1.core.revoke R hash [dropped.1] := by
  obtain ⟨s, sent⟩ := st
  unfold revokeDevice Core.revoke bothMailboxes deviceMailboxes
  dsimp only
  cases hm : deviceMailboxHash R.crypto.sha hash dropped.1 with
  | none =>
    have hc : callMailboxHash R.crypto.sha hash dropped.1 = none := by
      cases hb : IdentityHash.fromHex hash with
      | none => simp [callMailboxHash, hb]
      | some base =>
        unfold deviceMailboxHash at hm
        simp only [hb, Option.bind_eq_bind, Option.bind_some] at hm
        split at hm <;> cases hm
    simp [hm, hc, Table.removeAll, Inner.core]
  | some mailbox =>
    obtain ⟨c, hc⟩ := callMailboxHash_isSome hm
    simp [hm, hc, Table.removeAll, Inner.core, Inner.withDb]

theorem Core.revoke_cons (c : Core) (hash id : String) (ids : List String) :
    c.revoke R hash (id :: ids) = (c.revoke R hash [id]).revoke R hash ids := by
  simp [Core.revoke, bothMailboxes, deviceMailboxes, Table.removeAll, List.foldl_append]

theorem core_revokeDevices (hash : String) (currentKeys : List String) :
    ∀ (dropped : List (String × String))
    (st : Inner × List (ChannelId × ServerFrame)),
    (dropped.foldl (revokeDevice R hash currentKeys) st).1.core =
      st.1.core.revoke R hash (dropped.map (·.1))
  | [], st => by simp [Core.revoke, bothMailboxes, deviceMailboxes, Table.removeAll]
  | p :: dropped, st => by
    rw [List.foldl_cons, core_revokeDevices hash currentKeys dropped, core_revokeDevice,
      List.map_cons, ← Core.revoke_cons]

/-- The ids that a roster drops: those of the linked devices of the epoch
before that it does not list. -/
def droppedIds (previous : Option KtRosterEntry) (roster : KtRosterEntry) : List String :=
  ((previous.map (·.devices)).getD []).map (·.deviceId) |>.filter fun id =>
    id ≠ primaryDeviceId && !(roster.devices.map (·.deviceId)).contains id

theorem droppedDevices_ids (s : Inner) (roster : KtRosterEntry) :
    (droppedDevices (previousDevices s roster.usernameHash) roster).map (·.1) =
      droppedIds (s.kt.latestRosterFor roster.usernameHash) roster := by
  unfold droppedDevices previousDevices droppedIds
  cases s.kt.latestRosterFor roster.usernameHash with
  | none => rfl
  | some r =>
    simp only [Option.map_some, Option.getD_some, List.filter_map, List.map_map]
    rfl

/-- The mirroring of an accepted roster, in the core. -/
def Core.mirrorRoster (R : Relay) (c : Core) (previous : Option KtRosterEntry)
    (roster : KtRosterEntry) : Core :=
  Core.revoke R { c with directory := roster.devices.foldl (mirrored R roster.usernameHash) c.directory }
    roster.usernameHash (droppedIds previous roster)

theorem core_rosterGate (client : Option String) (roster : KtRosterEntry) (now : ℕ) :
    (rosterGate s client roster now).2.core = s.core := by
  unfold rosterGate
  split
  · rfl
  split
  · rfl
  dsimp only
  split
  · rfl
  split <;> rfl

theorem rosterGate_error {client : Option String} {roster : KtRosterEntry} {now : ℕ} {r : Response}
    (h : (rosterGate s client roster now).1 = .error r) : r.status ≠ 200 := by
  unfold rosterGate at h
  repeat' split at h
  all_goals cases h
  all_goals simp [Response.err]

/-- A roster changes nothing, or it is appended and mirrored. -/
theorem publishRoster_core (client : Option String) (roster : KtRosterEntry) (now : ℕ) :
    ((publishRoster R s client roster now).2.1.core = s.core ∧
      (publishRoster R s client roster now).1.status ≠ 200) ∨
    ∃ i kt, s.kt.appendRoster R.crypto roster = .ok (i, kt) ∧
      (IdentityHash.fromHex roster.usernameHash).isSome ∧
      (publishRoster R s client roster now).1.status = 200 ∧
      (publishRoster R s client roster now).2.1.core =
        Core.mirrorRoster R { s.core with kt } (s.kt.latestRosterFor roster.usernameHash) roster := by
  have hg := core_rosterGate (s := s) client roster now
  have hhex : (rosterGate s client roster now).1 = .ok () →
      (IdentityHash.fromHex roster.usernameHash).isSome := by
    intro h
    unfold rosterGate at h
    split at h
    · cases h
    split at h
    · cases h
    · rename_i hn
      exact Option.isSome_iff_ne_none.mpr (by simpa using hn)
  unfold publishRoster
  cases hgate : rosterGate s client roster now with
  | mk result s' =>
  rw [hgate] at hg hhex
  have hkt : s'.kt = s.kt := congrArg Core.kt hg
  cases result with
  | error r =>
    exact Or.inl ⟨hg, rosterGate_error (by rw [hgate])⟩
  | ok u =>
    dsimp only
    rw [hkt]
    cases ha : s.kt.appendRoster R.crypto roster with
    | error e => cases e <;> exact Or.inl ⟨hg, by simp [Response.err]⟩
    | ok r =>
      obtain ⟨i, kt⟩ := r
      right
      refine ⟨i, kt, rfl, hhex rfl, rfl, ?_⟩
      have hprev : previousDevices s' roster.usernameHash =
          previousDevices s roster.usernameHash := by
        unfold previousDevices; rw [hkt]
      dsimp only
      rw [core_withDb]
      unfold mirrorRoster Core.mirrorRoster
      dsimp only
      rw [core_revokeDevices, core_mirrorDevices, hprev, droppedDevices_ids,
        show ({ s' with kt } : Inner).core = { s'.core with kt } from rfl, hg,
        show s'.directory = s.directory from congrArg Core.directory hg]
      rfl

/-! ### Signed requests -/

/-- The nonce is spent and the core is left alone; a request that passes was
signed by the key the directory has for its hash. -/
theorem consumeAndVerify_cases (R : Relay) (s : Inner) (hash nonce : String) (message : Bytes)
    (signature : String) (t : ℕ) :
    ∃ s', s'.core = s.core ∧
      ((∃ r, consumeAndVerify R s hash nonce message signature t = (.error r, s') ∧ r.status ≠ 200) ∨
        (consumeAndVerify R s hash nonce message signature t = (.ok (), s') ∧
          ∃ entry, s.directory.get hash = some entry ∧
            R.crypto.verify entry.signingKey message signature = true)) := by
  unfold consumeAndVerify
  refine ⟨{ s with challenges := (s.challenges.consume hash nonce t).2 }, rfl, ?_⟩
  dsimp only
  split
  · exact Or.inl ⟨_, rfl, by simp [Response.err]⟩
  cases he : s.directory.get hash with
  | none => exact Or.inl ⟨_, rfl, by simp [Response.err]⟩
  | some entry =>
    dsimp only
    split
    · exact Or.inl ⟨_, rfl, by simp [Response.err]⟩
    · rename_i hv
      exact Or.inr ⟨rfl, entry, rfl, by simpa using hv⟩

/-- The message a call-key publication signs. -/
def CallKeyPublishRequest.message (req : CallKeyPublishRequest) : Bytes :=
  callKeyPublishSigningMessage req.hash req.binding.callKey req.binding.createdAt req.nonce

/-- A call-key publication changes nothing, or it is signed by the key of its
mailbox, is no step back, and is stored with the record of the call mailbox. -/
theorem publishCallKey_core (req : CallKeyPublishRequest) (t : ℕ) :
    ((publishCallKey R s req t).2.core = s.core ∧ (publishCallKey R s req t).1.status ≠ 200) ∨
    ∃ callMailbox entry,
      (deviceMailboxHash R.crypto.sha req.accountHash req.binding.deviceId).map (·.asStr) =
        some req.hash ∧
      callMailboxHash R.crypto.sha req.accountHash req.binding.deviceId = some callMailbox ∧
      s.directory.get req.hash = some entry ∧
      R.crypto.verify entry.signingKey req.message req.signature = true ∧
      (∀ current, s.callKeys.get req.hash = some current →
        req.binding.supersedes current = true ∨ current = req.binding) ∧
      (publishCallKey R s req t).1.status = 200 ∧
      (publishCallKey R s req t).2.core =
        { s.core with directory := s.directory.set callMailbox.asStr req.binding.record
                      callKeys := s.callKeys.set req.hash req.binding } := by
  unfold publishCallKey
  split
  · exact Or.inl ⟨rfl, by simp [Response.err]⟩
  split
  · exact Or.inl ⟨rfl, by simp [Response.err]⟩
  split
  · exact Or.inl ⟨rfl, by simp [Response.err]⟩
  rename_i hmailbox
  cases hcall : callMailboxHash R.crypto.sha req.accountHash req.binding.deviceId with
  | none => exact Or.inl ⟨rfl, by simp [Response.err]⟩
  | some callMailbox =>
    dsimp only
    split
    · exact Or.inl ⟨rfl, by simp [Response.err]⟩
    obtain ⟨s', hcore, ⟨r, heq, hr⟩ | ⟨heq, entry, he, hv⟩⟩ :=
      consumeAndVerify_cases R s req.hash req.nonce req.message req.signature t
    · rw [CallKeyPublishRequest.message] at heq
      rw [heq]
      exact Or.inl ⟨hcore, hr⟩
    · rw [CallKeyPublishRequest.message] at heq
      rw [heq]
      have hkeys : s'.callKeys = s.callKeys := congrArg Core.callKeys hcore
      have hdir : s'.directory = s.directory := congrArg Core.directory hcore
      dsimp only
      split
      · exact Or.inl ⟨hcore, by simp [Response.err]⟩
      rename_i hold
      refine Or.inr ⟨callMailbox, entry, not_not.mp hmailbox, rfl, he, hv, ?_, rfl, ?_⟩
      · intro current hcur
        rw [hkeys, hcur] at hold
        by_contra hno
        rw [not_or] at hno
        exact hold (by simpa using hno)
      · rw [← hdir, ← hkeys, ← hcore]
        rfl

/-! ### Account deletion -/

/-- The core without anything of the mailboxes. -/
def Core.dropMailboxes (c : Core) (mbs : List String) : Core :=
  { c with
    directory := c.directory.removeAll mbs
    push := c.push.removeAll mbs
    callKeys := c.callKeys.removeAll mbs
    live := c.live.removeAll mbs
    store := mbs.foldl MessageStore.purge c.store }

section dropMailboxes

variable (c : Core) (mbs : List String)

@[simp] theorem Core.dropMailboxes_directory :
    (c.dropMailboxes mbs).directory = c.directory.removeAll mbs := rfl
@[simp] theorem Core.dropMailboxes_callKeys :
    (c.dropMailboxes mbs).callKeys = c.callKeys.removeAll mbs := rfl
@[simp] theorem Core.dropMailboxes_live : (c.dropMailboxes mbs).live = c.live.removeAll mbs := rfl
@[simp] theorem Core.dropMailboxes_store :
    (c.dropMailboxes mbs).store = mbs.foldl MessageStore.purge c.store := rfl
@[simp] theorem Core.dropMailboxes_kt : (c.dropMailboxes mbs).kt = c.kt := rfl

end dropMailboxes

theorem core_dropMailboxes : ∀ (mbs : List String) (st : Inner × List (ChannelId × ServerFrame)),
    (mbs.foldl dropMailbox st).1.core = st.1.core.dropMailboxes mbs
  | [], _ => rfl
  | mb :: mbs, st => by
    rw [List.foldl_cons, core_dropMailboxes mbs]
    rfl

/-- The message an account deletion signs. -/
def AccountDeleteRequest.message (req : AccountDeleteRequest) : Bytes :=
  accountDeleteSigningMessage req.hash req.aliasHashes req.nonce

/-- An account deletion changes nothing, or it is signed by the key of its
mailbox and drops the account's mailboxes and the aliases of the same key. -/
theorem deleteAccount_core (client : Option String) (req : AccountDeleteRequest) (now : ℕ) :
    (deleteAccount R s client req now).2.1.core = s.core ∨
    ∃ account, s.directory.get req.hash = some account ∧
      R.crypto.verify account.signingKey req.message req.signature = true ∧
      (deleteAccount R s client req now).2.1.core =
        s.core.dropMailboxes
          (accountMailboxes R s.kt req.hash ++ ownedAliases s.directory account.signingKey req.aliasHashes) := by
  unfold deleteAccount
  split
  · exact Or.inl rfl
  rename_i key
  split
  · exact Or.inl rfl
  split
  · exact Or.inl rfl
  dsimp only
  split
  · exact Or.inl rfl
  obtain ⟨s', hcore, ⟨r, heq, -⟩ | ⟨heq, entry, he, hv⟩⟩ :=
    consumeAndVerify_cases R (s.chargeAuth ("delete:" ++ key) now).2 req.hash req.nonce req.message req.signature now
  · rw [AccountDeleteRequest.message] at heq
    rw [heq]
    exact Or.inl hcore
  · rw [AccountDeleteRequest.message] at heq
    rw [heq]
    rw [core_chargeAuth] at hcore
    have hdir : s'.directory = s.directory := congrArg Core.directory hcore
    have he : s.directory.get req.hash = some entry := he
    refine Or.inr ⟨entry, he, hv, ?_⟩
    dsimp only
    rw [hdir, he]
    dsimp only
    rw [core_dropMailboxes, hcore, show s'.kt = s.kt from congrArg Core.kt hcore]

/-! ### Keys, challenges and push -/

theorem core_challenge (client : Option String) (hash nonce : String) (now : ℕ) :
    (challenge s client hash nonce now).2.core = s.core := by
  unfold challenge
  split
  · rfl
  split
  · rfl
  dsimp only
  split <;> rfl

/-- The upload comes from an address whose rate is not used up, and names a mailbox. -/
def UploadAdmitted (s : Inner) (client : Option String) (req : OneTimeKeysRequest) (now : ℕ) :
    Prop :=
  (∃ key, client = some key ∧ (s.chargeRate ("otk:" ++ key) now).1 = true) ∧
    (IdentityHash.fromHex req.identityHash).isSome = true

/-- An upload changes nothing, or it is admitted, signed by the key of its
mailbox, and changes only the one-time keys of the record. -/
theorem uploadOneTimeKeys_core (client : Option String) (req : OneTimeKeysRequest) (now : ℕ) :
    (uploadOneTimeKeys R s client req now).2.core = s.core ∨
    ∃ entry, UploadAdmitted s client req now ∧ s.directory.get req.identityHash = some entry ∧
      R.crypto.verify entry.signingKey (oneTimeKeysSigningMessage req.identityHash req.oneTimeKeys)
        req.signature = true ∧
      (uploadOneTimeKeys R s client req now).2.core = { s.core with
        directory := s.directory.set req.identityHash
          (entry.withKeys (addOneTimeKeys entry.oneTimeKeys req.oneTimeKeys)) } := by
  unfold uploadOneTimeKeys
  split
  · exact Or.inl rfl
  rename_i key
  split
  · exact Or.inl rfl
  rename_i hhash
  dsimp only
  split
  · exact Or.inl rfl
  rename_i hrate
  have hadmitted : UploadAdmitted s (some key) req now :=
    ⟨⟨key, rfl, by simpa using hrate⟩, by simpa [Option.isSome_iff_ne_none] using hhash⟩
  rw [show ∀ key, (s.chargeRate key now).2.directory = s.directory from fun _ => rfl]
  cases he : s.directory.get req.identityHash with
  | none => exact Or.inl rfl
  | some entry =>
    dsimp only
    split
    · exact Or.inl rfl
    · rename_i hv
      exact Or.inr ⟨entry, hadmitted, rfl, by simpa using hv, rfl⟩

theorem core_mayConsume (s : Inner) (hash : String) (entry : DirectoryEntry) (t : ℕ) :
    (mayConsume s hash entry t).2.core = s.core := by
  unfold mayConsume
  dsimp only
  split <;> rfl

/-- A bundle fetch changes nothing but the one-time keys of a record. -/
theorem fetchBundle_core (client : Option String) (hash : String) (t : ℕ) :
    (fetchBundle s client hash t).2.core = s.core ∨
    ∃ entry keys, s.directory.get hash = some entry ∧
      (fetchBundle s client hash t).2.core =
        { s.core with directory := s.directory.set hash (entry.withKeys keys) } := by
  unfold fetchBundle
  split
  · exact Or.inl rfl
  rename_i key
  dsimp only
  split
  · exact Or.inl rfl
  rw [show ∀ key, (s.chargeRate key t).2.directory = s.directory from fun _ => rfl]
  cases he : s.directory.get hash with
  | none => exact Or.inl rfl
  | some entry =>
    right
    have hcore := core_mayConsume (s.chargeRate ("bundle:" ++ key) t).2 hash entry t
    rw [core_chargeRate] at hcore
    cases hm : mayConsume (s.chargeRate ("bundle:" ++ key) t).2 hash entry t with
    | mk take s' =>
    rw [hm] at hcore
    have hset : ∀ entry', ({ s' with directory := s'.directory.set hash entry' } : Inner).core =
        { s.core with directory := s.directory.set hash entry' } := by
      intro entry'
      rw [← hcore, ← show s'.directory = s.directory from congrArg Core.directory hcore]
      rfl
    refine ⟨entry, if take then entry.oneTimeKeys.tail else entry.oneTimeKeys, rfl, ?_⟩
    simp only [hm]
    -- the key handed out, if any
    generalize (if take = true then entry.oneTimeKeys.head? else none) = consumed
    cases consumed.or (entry.withKeys (if take = true then entry.oneTimeKeys.tail else entry.oneTimeKeys)).fallbackKey with
    | none => exact hset _
    | some oneTimeKey =>
      cases consumed with
      | none => exact hset _
      | some k => exact hset _

/-- A push registration changes nothing, or it is signed by the key of its
mailbox and sets the subscription. -/
theorem pushRegister_core (req : PushRegisterRequest) (now : ℕ) :
    (pushRegister R s req now).2.core = s.core ∨
    (pushRegister R s req now).2.core =
      { s.core with push := s.push.set req.hash { endpoint := req.endpoint } } := by
  unfold pushRegister
  split
  · exact Or.inl rfl
  split
  · exact Or.inl rfl
  dsimp only
  obtain ⟨s', hcore, ⟨r, heq, -⟩ | ⟨heq, -⟩⟩ := consumeAndVerify_cases R s req.hash req.nonce
    (pushRegisterSigningMessage req.hash req.endpoint req.nonce) req.signature now
  · rw [heq]; exact Or.inl hcore
  · rw [heq]
    refine Or.inr ?_
    rw [← hcore, ← show s'.push = s.push from congrArg Core.push hcore]
    rfl

theorem pushUnregister_core (req : PushUnregisterRequest) (now : ℕ) :
    (pushUnregister R s req now).2.core = s.core ∨
    (pushUnregister R s req now).2.core = { s.core with push := s.push.remove req.hash } := by
  unfold pushUnregister
  split
  · exact Or.inl rfl
  dsimp only
  obtain ⟨s', hcore, ⟨r, heq, -⟩ | ⟨heq, -⟩⟩ := consumeAndVerify_cases R s req.hash req.nonce
    (pushUnregisterSigningMessage req.hash req.nonce) req.signature now
  · rw [heq]; exact Or.inl hcore
  · rw [heq]
    refine Or.inr ?_
    rw [← hcore, ← show s'.push = s.push from congrArg Core.push hcore]
    rfl

theorem deadToken_core (s : Inner) (recipient endpoint : String) :
    ∃ push, (deadToken s recipient endpoint).core = { s.core with push } := by
  unfold deadToken
  split
  · exact ⟨_, rfl⟩
  · exact ⟨_, rfl⟩

/-! ### Messages and sockets -/

theorem decideWake_core (s : Inner) (env : Envelope) (channels : List ChannelId) (t : ℕ) :
    ∃ push, (decideWake R s env channels t).2.core = { s.core with push } := by
  unfold decideWake
  split
  · exact ⟨_, rfl⟩
  split
  · exact ⟨_, rfl⟩
  cases s.push.get env.recipient.asStr with
  | none => exact ⟨_, rfl⟩
  | some sub =>
    dsimp only
    split <;> exact ⟨_, rfl⟩

/-- A message is queued or not, and may spend a wake; the channels it is then
pushed to are the ones that are live for its recipient. -/
theorem sendMessage_core (client : Option String) (env : Envelope) (t : ℕ) :
    ∃ store push, (sendMessage R s client env t).2.1.core = { s.core with store, push } ∧
      (store = s.store ∨ store = (s.store.enqueue (env.clamped t) t).2) ∧
      ∀ d, (sendMessage R s client env t).2.2 = some d →
        d.env = env.clamped t ∧ d.channels = (s.live.get env.recipient.asStr).getD [] := by
  unfold sendMessage
  split
  · exact ⟨s.store, s.push, rfl, Or.inl rfl, fun d h => by cases h⟩
  rename_i key
  dsimp only
  split
  · exact ⟨s.store, s.push, rfl, Or.inl rfl, fun d h => by cases h⟩
  have hstore := queueMessage_store s.store s.db (env.clamped t) t
  rw [show ∀ key, (s.chargeRate key t).2.store = s.store from fun _ => rfl,
    show ∀ key, (s.chargeRate key t).2.db = s.db from fun _ => rfl]
  cases hq : queueMessage s.store s.db (env.clamped t) t with
  | mk result rest =>
  obtain ⟨store, db⟩ := rest
  rw [hq] at hstore
  cases result with
  | error e => exact ⟨store, s.push, rfl, Or.inr hstore, fun d h => by cases h⟩
  | ok st =>
    obtain ⟨stored, evicted⟩ := st
    cases stored with
    | false => exact ⟨store, s.push, rfl, Or.inr hstore, fun d h => by cases h⟩
    | true =>
      obtain ⟨push, hpush⟩ := decideWake_core (R := R) { (s.chargeRate key t).2 with store, db } (env.clamped t)
        ((s.live.get env.recipient.asStr).getD []) t
      refine ⟨store, push, hpush, Or.inr hstore, ?_⟩
      intro d hd
      cases hd
      exact ⟨rfl, rfl⟩

/-- An authentication spends a nonce; one that succeeds was signed by the key
the directory has for the hash as it was sent. -/
theorem authenticate_cases (R : Relay) (s : Inner) (frame : AuthFrame) (now : ℕ) :
    (authenticate R s frame now).2.core = s.core ∧
    ∀ hash key, (authenticate R s frame now).1 = .ok hash key →
      hash = frame.hash ∧ (∃ entry, s.directory.get hash = some entry ∧ entry.signingKey = key) ∧
      R.crypto.verify key (wsAuthSigningMessage frame.hash frame.nonce) frame.signature = true := by
  unfold authenticate
  dsimp only
  split
  · exact ⟨rfl, fun hash key h => by cases h⟩
  cases he : s.directory.get frame.hash with
  | none => exact ⟨rfl, fun hash key h => by cases h⟩
  | some entry =>
    dsimp only
    split
    · exact ⟨rfl, fun hash key h => by cases h⟩
    split
    · rename_i hv
      refine ⟨rfl, fun hash key h => ?_⟩
      cases h
      exact ⟨rfl, ⟨entry, he, rfl⟩, hv⟩
    · exact ⟨rfl, fun hash key h => by cases h⟩

end Sona
