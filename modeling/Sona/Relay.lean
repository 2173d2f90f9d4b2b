/-
# The relay's handlers

`server/src/state.rs` and `server/src/http`: everything behind the global lock
(`Inner`) and the handlers that take it, each one critical section. A handler
returns its response and the state after it; what it sends into live channels
is returned beside. The trusted client address of a request (`client_key`), the
clock and the random nonce are arguments.

`Inner.core` is the part of the state that says who owns a mailbox and what is
in it: the directory, the store, the live channels, the push subscriptions, the
call keys and the KT log.

Key definitions: `Inner`, `Core`, `register`, `publishRoster`, `publishCallKey`,
`deleteAccount`, `authenticate`, `sendMessage`.
-/
import Sona.Lib.Table
import Sona.Store
import Sona.Challenge
import Sona.Limiter
import Sona.Kt
import Sona.Db
import Sona.Durable
import Sona.Wake

namespace Sona

/-! ### State -/

/-- A live delivery channel: the sending half of one socket task's queue. -/
abbrev ChannelId := ℕ

structure PreKeyBundle where
  identityKey : String
  signingKey : String
  oneTimeKey : String
deriving DecidableEq, Repr

/-- The frames the relay sends over a delivery socket. -/
inductive ServerFrame
  | ready
  | authFailed
  | revoked
  | message (envelope : Envelope)
deriving DecidableEq, Repr

inductive Body
  | empty
  | text (s : String)
  | nonce (n : String)
  | bundle (b : PreKeyBundle)
deriving DecidableEq, Repr

structure Response where
  status : ℕ
  body : Body := .empty
deriving DecidableEq, Repr

def Response.err (status : ℕ) (text : String) : Response := ⟨status, .text text⟩

/-- Everything behind the global lock. -/
structure Inner where
  directory : Table String DirectoryEntry := ∅
  store : MessageStore := {}
  challenges : ChallengeStore := {}
  live : Table String (List ChannelId) := ∅
  rate : RateLimiter := { limit := 60, windowSecs := 60 }
  authRate : RateLimiter := { limit := 20, windowSecs := 60 }
  ktGrowthRate : RateLimiter := { limit := 50, windowSecs := 86400 }
  otkDrainRate : RateLimiter := { limit := 2, windowSecs := 600 }
  renameRate : RateLimiter := { limit := 5, windowSecs := 7 * 86400 }
  kt : KtLog := {}
  db : Option Db := none
  push : Table String PushSub := ∅
  wsCount : Table String ℕ := ∅
  callKeys : Table String CallKeyBinding := ∅
  usedInvites : List String := []

/-- What `AppState` holds beside the lock, and the code it calls. -/
structure Relay where
  config : Config := {}
  fcm : Bool := false
  crypto : Crypto
  parseUrl : String → Option Url
  scan : Scan := id

/-- Who owns a mailbox and what is in it. -/
structure Core where
  directory : Table String DirectoryEntry := ∅
  store : MessageStore := {}
  live : Table String (List ChannelId) := ∅
  push : Table String PushSub := ∅
  callKeys : Table String CallKeyBinding := ∅
  kt : KtLog := {}

def Inner.core (s : Inner) : Core :=
  { directory := s.directory, store := s.store, live := s.live, push := s.push,
    callKeys := s.callKeys, kt := s.kt }

theorem Inner.callKeys_of_core {s : Inner} {c : Core} (h : s.core = c) : s.callKeys = c.callKeys :=
  congrArg Core.callKeys h

theorem Inner.directory_of_core {s : Inner} {c : Core} (h : s.core = c) :
    s.directory = c.directory :=
  congrArg Core.directory h

/-- The statement runs on the database, if there is one. -/
def Inner.withDb (s : Inner) (f : Db → Db) : Inner := { s with db := s.db.map f }

/-! ### Limits -/

def Inner.chargeRate (s : Inner) (key : String) (now : ℕ) : Bool × Inner :=
  ((s.rate.check key now).1, { s with rate := (s.rate.check key now).2 })

def Inner.chargeAuth (s : Inner) (key : String) (now : ℕ) : Bool × Inner :=
  ((s.authRate.check key now).1, { s with authRate := (s.authRate.check key now).2 })

def Inner.chargeKtGrowth (s : Inner) (key : String) (now : ℕ) : Bool × Inner :=
  ((s.ktGrowthRate.check key now).1, { s with ktGrowthRate := (s.ktGrowthRate.check key now).2 })

def Inner.chargeRename (s : Inner) (key : String) (now : ℕ) : Bool × Inner :=
  ((s.renameRate.check key now).1, { s with renameRate := (s.renameRate.check key now).2 })

def Inner.chargeOtkDrain (s : Inner) (key : String) (now : ℕ) : Bool × Inner :=
  ((s.otkDrainRate.check key now).1, { s with otkDrainRate := (s.otkDrainRate.check key now).2 })

/-! ### Signatures of requests -/

/-- `auth::verify`: keys and signatures in base64, false on anything malformed. -/
def Crypto.verify (C : Crypto) (signingKey : String) (message : Bytes) (signature : String) :
    Bool :=
  match C.base64Decode signingKey, C.base64Decode signature with
  | some key, some sig => if key.length = 32 ∧ sig.length = 64 then C.vodozemacVerify key message sig else false
  | _, _ => false

/-- The nonce is consumed first, so a failed attempt burns it too. -/
def consumeAndVerify (R : Relay) (s : Inner) (hash nonce : String) (message : Bytes)
    (signature : String) (t : ℕ) : Except Response Unit × Inner :=
  let (ok, challenges) := s.challenges.consume hash nonce t
  let s := { s with challenges }
  if !ok then (.error (.err 401 "bad or expired nonce"), s) else
  match s.directory.get hash with
  | none => (.error (.err 404 "no such identity"), s)
  | some entry =>
    if !R.crypto.verify entry.signingKey message signature then (.error (.err 401 "bad signature"), s) else
    (.ok (), s)

/-! ### Registration -/

structure RegisterRequest where
  entry : KtEntry
  oneTimeKeys : List String
  fallbackKey : Option String

/-- The invite a fresh claim must present, when codes are configured: the digest to burn. -/
def inviteGate (R : Relay) (s : Inner) (hash : String) (invite : Option String) :
    Except Response (Option String) :=
  if (s.kt.latestIndexFor hash).isNone && !R.config.registrationCodeHashes.isEmpty then
    match invite.map fun c => R.crypto.sha.hex (utf8 (String.ofList (trim c.toList))) with
    | some d =>
      if R.config.registrationCodeHashes.contains d then
        let used := match s.db with
          | some db => db.inviteUsed d
          | none => s.usedInvites.contains d
        if used then .error (.err 403 "invite code already used") else .ok (some d)
      else .error (.err 403 "registration requires an invite code")
    | none => .error (.err 403 "registration requires an invite code")
  else .ok none

/-- A release is verified before it is charged to the key that signed it. -/
def releaseGate (R : Relay) (s : Inner) (entry : KtEntry) (now : ℕ) :
    Except Response Unit × Inner :=
  if entry.released then
    if !entry.verifySignature R.crypto then (.error (.err 401 "bad entry signature"), s) else
    let (ok, s) := s.chargeRename ("rename:" ++ entry.signer) now
    if !ok then (.error (.err 429 "username-change limit reached (5 per week)"), s) else (.ok (), s)
  else (.ok (), s)

/-- What `register` checks before the log: address, shape, clock, budgets and invite. -/
def registerGate (R : Relay) (s : Inner) (client invite : Option String) (req : RegisterRequest)
    (now : ℕ) :
    Except Response (Option String) × Inner :=
  match client with
  | none => (.error (.err 403 "no trusted client address"), s)
  | some key =>
    if (IdentityHash.fromHex req.entry.usernameHash).isNone then
      (.error (.err 400 "malformed username_hash"), s) else
    if req.entry.timestamp > now + 600 then (.error (.err 400 "entry timestamp in the future"), s) else
    let (ok, s) := s.chargeAuth ("register:" ++ key) now
    if !ok then (.error (.err 429 "rate limited"), s) else
    let (ok, s) := s.chargeKtGrowth ("kt:" ++ key) now
    if !ok then (.error (.err 429 "rate limited"), s) else
    match releaseGate R s req.entry now with
    | (.error r, s) => (.error r, s)
    | (.ok (), s) => (inviteGate R s req.entry.usernameHash invite, s)

def burnInvite (s : Inner) : Option String → Inner
  | none => s
  | some d =>
    match s.db with
    | some _ => s.withDb fun db => db.consumeInvite d
    | none => { s with usedInvites := s.usedInvites.insert d }

/-- The directory record of a registration. -/
def RegisterRequest.record (req : RegisterRequest) : DirectoryEntry :=
  { identityKey := req.entry.identityKey, signingKey := req.entry.signingKey
    oneTimeKeys := req.oneTimeKeys, fallbackKey := req.fallbackKey }

/-- The new keys take the mailbox over: the channels of another key are dropped. -/
def takeMailbox (s : Inner) (hash : String) (entry : DirectoryEntry) : Inner :=
  let live := match s.directory.get hash with
    | some prev => if prev.signingKey ≠ entry.signingKey then s.live.remove hash else s.live
    | none => s.live
  { s with live, directory := s.directory.set hash entry }

def register (R : Relay) (s : Inner) (client invite : Option String) (req : RegisterRequest)
    (now : ℕ) :
    Response × Inner :=
  match registerGate R s client invite req now with
  | (.error r, s) => (r, s)
  | (.ok consumeInvite, s) =>
    match s.kt.append R.crypto req.entry with
    | .error .badSignature => (.err 401 "bad entry signature", s)
    | .error (.brokenChain why) => (.err 409 ("key continuity broken: " ++ why), s)
    | .error (.roster _) => (.err 400 "not a binding entry", s)
    | .error (.panic why) => (.err 500 why, s)
    | .ok (_, kt) =>
      let s := burnInvite { s with kt } consumeInvite
      let s := s.withDb fun db => db.appendKtEntry req.entry
      -- a release changes only the log
      if req.entry.released then (⟨200, .empty⟩, s) else
      let s := takeMailbox s req.entry.usernameHash req.record
      (⟨200, .empty⟩, s.withDb fun db => db.upsertDirectory req.entry.usernameHash req.record)

/-! ### Rosters -/

/-- The mailbox record of a linked device in the roster, kept if it has these keys already. -/
def mirrorDevice (R : Relay) (hash : String) (s : Inner) (d : DeviceRecord) : Inner :=
  if d.deviceId = primaryDeviceId then s else
  match deviceMailboxHash R.crypto.sha hash d.deviceId with
  | none => s
  | some mailbox =>
    let keep := (s.directory.get mailbox.asStr).any fun e =>
      e.identityKey = d.identityKey && e.signingKey = d.signingKey
    if keep then s else
    let entry : DirectoryEntry := { identityKey := d.identityKey, signingKey := d.signingKey }
    let s := s.withDb fun db => db.upsertDirectory mailbox.asStr entry
    { s with directory := s.directory.set mailbox.asStr entry }

/-- A device that left the roster loses its records; unless its key moved to
another id, its channels are told first. -/
def revokeDevice (R : Relay) (hash : String) (currentKeys : List String)
    (st : Inner × List (ChannelId × ServerFrame)) (dropped : String × String) :
    Inner × List (ChannelId × ServerFrame) :=
  let (s, sent) := st
  match deviceMailboxHash R.crypto.sha hash dropped.1 with
  | none => (s, sent)
  | some mailbox =>
    let mailbox := mailbox.asStr
    let directory := s.directory.remove mailbox
    let callMailbox := (callMailboxHash R.crypto.sha hash dropped.1).map (·.asStr)
    let directory := match callMailbox with
      | some c => directory.remove c
      | none => directory
    let s := { s with directory, push := s.push.remove mailbox, callKeys := s.callKeys.remove mailbox }
    let s := s.withDb fun db =>
      let db := ((db.deleteDirectory mailbox).deletePush mailbox).deleteCallKey mailbox
      match callMailbox with
      | some c => db.deleteDirectory c
      | none => db
    let kicked := if currentKeys.contains dropped.2 then [] else
      ((s.live.get mailbox).getD []).map fun ch => (ch, ServerFrame.revoked)
    ({ s with live := s.live.remove mailbox }, sent ++ kicked)

/-- The devices of the epoch before, by id and key. -/
def previousDevices (s : Inner) (hash : String) : List (String × String) :=
  match s.kt.latestRosterFor hash with
  | some r => r.devices.map fun d => (d.deviceId, d.identityKey)
  | none => []

/-- The linked devices of the epoch before whose id is not in the new roster. -/
def droppedDevices (previous : List (String × String)) (roster : KtRosterEntry) :
    List (String × String) :=
  previous.filter fun p => p.1 ≠ primaryDeviceId && !(roster.devices.map (·.deviceId)).contains p.1

/-- The mirroring of an accepted roster into the directory. -/
def mirrorRoster (R : Relay) (s : Inner) (previous : List (String × String))
    (roster : KtRosterEntry) :
    Inner × List (ChannelId × ServerFrame) :=
  let s := roster.devices.foldl (mirrorDevice R roster.usernameHash) s
  (droppedDevices previous roster).foldl
    (revokeDevice R roster.usernameHash (roster.devices.map (·.identityKey))) (s, [])

def rosterGate (s : Inner) (client : Option String) (roster : KtRosterEntry) (now : ℕ) :
    Except Response Unit × Inner :=
  match client with
  | none => (.error (.err 403 "no trusted client address"), s)
  | some key =>
    if (IdentityHash.fromHex roster.usernameHash).isNone then
      (.error (.err 400 "malformed username_hash"), s) else
    let (ok, s) := s.chargeAuth ("roster:" ++ key) now
    if !ok then (.error (.err 429 "rate limited"), s) else
    let (ok, s) := s.chargeKtGrowth ("kt:" ++ key) now
    if !ok then (.error (.err 429 "rate limited"), s) else (.ok (), s)

def publishRoster (R : Relay) (s : Inner) (client : Option String) (roster : KtRosterEntry)
    (now : ℕ) :
    Response × Inner × List (ChannelId × ServerFrame) :=
  match rosterGate s client roster now with
  | (.error r, s) => (r, s, [])
  | (.ok (), s) =>
    let previous := previousDevices s roster.usernameHash
    match s.kt.appendRoster R.crypto roster with
    | .error (.roster e) => (.err 401 ("roster rejected: " ++ e.message), s, [])
    | .error .badSignature => (.err 401 "bad signature", s, [])
    | .error (.brokenChain why) => (.err 409 ("roster continuity: " ++ why), s, [])
    | .error (.panic why) => (.err 500 why, s, [])
    | .ok (_, kt) =>
      let (s, sent) := mirrorRoster R { s with kt } previous roster
      (⟨200, .empty⟩, s.withDb fun db => db.appendKtRoster roster, sent)

/-! ### Call-control keys -/

/-- Clock skew tolerated on a published call key. -/
def callKeySkewSecs : ℕ := 300

structure CallKeyPublishRequest where
  hash : String
  accountHash : String
  nonce : String
  signature : String
  binding : CallKeyBinding

/-- The record of a call-control mailbox. -/
def CallKeyBinding.record (b : CallKeyBinding) : DirectoryEntry :=
  { identityKey := b.callKey, signingKey := b.callSigningKey }

def publishCallKey (R : Relay) (s : Inner) (req : CallKeyPublishRequest) (t : ℕ) :
    Response × Inner :=
  if (IdentityHash.fromHex req.hash).isNone then (.err 400 "malformed hash", s) else
  if !req.binding.wellFormed R.crypto then (.err 400 "malformed binding", s) else
  if (deviceMailboxHash R.crypto.sha req.accountHash req.binding.deviceId).map (·.asStr) ≠ some req.hash then
    (.err 400 "mailbox does not match the account", s) else
  match callMailboxHash R.crypto.sha req.accountHash req.binding.deviceId with
  | none => (.err 400 "malformed account hash", s)
  | some callMailbox =>
    if req.binding.createdAt > saturatingAdd t callKeySkewSecs then
      (.err 400 "binding is from the future", s) else
    let msg := callKeyPublishSigningMessage req.hash req.binding.callKey req.binding.createdAt req.nonce
    match consumeAndVerify R s req.hash req.nonce msg req.signature t with
    | (.error r, s) => (r, s)
    | (.ok (), s) =>
      if (s.callKeys.get req.hash).any fun current => !req.binding.supersedes current && current ≠ req.binding then
        (.err 409 "a newer call key is published", s) else
      let s := s.withDb fun db =>
        (db.upsertCallKey req.hash req.binding).upsertDirectory callMailbox.asStr req.binding.record
      (⟨200, .empty⟩, { s with directory := s.directory.set callMailbox.asStr req.binding.record
                               callKeys := s.callKeys.set req.hash req.binding })

/-! ### Account deletion -/

/-- Aliases deletable in one request. -/
def maxDeleteAliases : ℕ := 16

structure AccountDeleteRequest where
  hash : String
  aliasHashes : List String
  nonce : String
  signature : String

/-- The mailboxes of the account itself: its own, the call-control mailbox of
the primary, and both mailboxes of every device of its latest roster. -/
def accountMailboxes (R : Relay) (kt : KtLog) (hash : String) : List String :=
  let ofDevice (d : DeviceRecord) : List String :=
    ((callMailboxHash R.crypto.sha hash d.deviceId).map (·.asStr)).toList ++
      (if d.deviceId = primaryDeviceId then [] else
        ((deviceMailboxHash R.crypto.sha hash d.deviceId).map (·.asStr)).toList)
  [hash] ++ ((callMailboxHash R.crypto.sha hash primaryDeviceId).map (·.asStr)).toList ++
    (match kt.latestRosterFor hash with
      | some roster => roster.devices.flatMap ofDevice
      | none => [])

/-- The aliases whose record carries the account's key. -/
def ownedAliases (directory : Table String DirectoryEntry) (signingKey : String)
    (aliases : List String) : List String :=
  aliases.filter fun a => (directory.get a).any fun e => e.signingKey = signingKey

/-- Everything the relay holds for a mailbox goes; its channels are told first. -/
def dropMailbox (st : Inner × List (ChannelId × ServerFrame)) (mb : String) :
    Inner × List (ChannelId × ServerFrame) :=
  let (s, sent) := st
  let kicked := ((s.live.get mb).getD []).map fun ch => (ch, ServerFrame.revoked)
  let s := { s with directory := s.directory.remove mb, push := s.push.remove mb
                    callKeys := s.callKeys.remove mb, store := s.store.purge mb,
                    live := s.live.remove mb }
  (s.withDb fun db => (((db.deleteDirectory mb).deletePush mb).deleteCallKey mb).deleteMessagesFor mb,
    sent ++ kicked)

def deleteAccount (R : Relay) (s : Inner) (client : Option String) (req : AccountDeleteRequest)
    (now : ℕ) :
    Response × Inner × List (ChannelId × ServerFrame) :=
  match client with
  | none => (.err 403 "no trusted client address", s, [])
  | some key =>
    if (IdentityHash.fromHex req.hash).isNone then (.err 400 "malformed hash", s, []) else
    if req.aliasHashes.length > maxDeleteAliases ∨
        (req.aliasHashes.any fun a => (IdentityHash.fromHex a).isNone) then
      (.err 400 "malformed alias hashes", s, []) else
    let msg := accountDeleteSigningMessage req.hash req.aliasHashes req.nonce
    let (ok, s) := s.chargeAuth ("delete:" ++ key) now
    if !ok then (.err 429 "rate limited", s, []) else
    match consumeAndVerify R s req.hash req.nonce msg req.signature now with
    | (.error r, s) => (r, s, [])
    | (.ok (), s) =>
      match s.directory.get req.hash with
      | none => (.err 404 "no such identity", s, [])
      | some account =>
        let mailboxes := accountMailboxes R s.kt req.hash ++ ownedAliases s.directory account.signingKey req.aliasHashes
        let (s, sent) := mailboxes.foldl dropMailbox (s, [])
        (⟨200, .empty⟩, s, sent)

/-! ### Challenges and keys -/

def challenge (s : Inner) (client : Option String) (hash nonce : String) (now : ℕ) :
    Response × Inner :=
  match client with
  | none => (.err 403 "no trusted client address", s)
  | some key =>
    if (IdentityHash.fromHex hash).isNone then (.err 400 "malformed hash", s) else
    let (ok, s) := s.chargeAuth ("challenge:" ++ key) now
    if !ok then (.err 429 "rate limited", s) else
    let (nonce, challenges) := s.challenges.issue hash nonce now
    (⟨200, .nonce nonce⟩, { s with challenges })

/-- The record with other one-time keys. -/
def DirectoryEntry.withKeys (entry : DirectoryEntry) (keys : List String) : DirectoryEntry :=
  { entry with oneTimeKeys := keys }

/-- Stored one-time keys of one user. -/
def maxOneTimeKeys : ℕ := 100

structure OneTimeKeysRequest where
  identityHash : String
  oneTimeKeys : List String
  signature : String

/-- New keys go to the end, without repeats, up to the cap. -/
def addOneTimeKeys (stock : List String) : List String → List String
  | [] => stock
  | k :: ks =>
    if stock.length ≥ maxOneTimeKeys then stock else
    addOneTimeKeys (if stock.contains k then stock else stock ++ [k]) ks

def uploadOneTimeKeys (R : Relay) (s : Inner) (client : Option String) (req : OneTimeKeysRequest)
    (now : ℕ) :
    Response × Inner :=
  match client with
  | none => (.err 403 "no trusted client address", s)
  | some key =>
    if (IdentityHash.fromHex req.identityHash).isNone then (.err 400 "malformed hash", s) else
    let (ok, s) := s.chargeRate ("otk:" ++ key) now
    if !ok then (.err 429 "rate limited", s) else
    match s.directory.get req.identityHash with
    | none => (.err 404 "no such identity", s)
    | some entry =>
      let msg := oneTimeKeysSigningMessage req.identityHash req.oneTimeKeys
      if !R.crypto.verify entry.signingKey msg req.signature then (.err 401 "bad signature", s) else
      let entry := entry.withKeys (addOneTimeKeys entry.oneTimeKeys req.oneTimeKeys)
      let s := { s with directory := s.directory.set req.identityHash entry }
      (⟨200, .empty⟩, s.withDb fun db => db.upsertDirectory req.identityHash entry)

/-- Stock at or below which hand-outs are metered per mailbox. -/
def otkDrainReserve : ℕ := 32

/-- Whether a fetch may take a fresh key: only a low stock with a fallback key is metered. -/
def mayConsume (s : Inner) (hash : String) (entry : DirectoryEntry) (t : ℕ) : Bool × Inner :=
  let metered := !entry.oneTimeKeys.isEmpty && decide (entry.oneTimeKeys.length ≤ otkDrainReserve) &&
    entry.fallbackKey.isSome
  if metered then s.chargeOtkDrain ("otkdrain:" ++ hash) t else (true, s)

def fetchBundle (s : Inner) (client : Option String) (hash : String) (t : ℕ) : Response × Inner :=
  match client with
  | none => (.err 403 "no trusted client address", s)
  | some key =>
    let (ok, s) := s.chargeRate ("bundle:" ++ key) t
    if !ok then (.err 429 "rate limited", s) else
    match s.directory.get hash with
    | none => (.err 404 "no such identity", s)
    | some entry =>
      let (take, s) := mayConsume s hash entry t
      let consumed := if take then entry.oneTimeKeys.head? else none
      let entry := entry.withKeys (if take then entry.oneTimeKeys.tail else entry.oneTimeKeys)
      let s := { s with directory := s.directory.set hash entry }
      match consumed.or entry.fallbackKey with
      | none => (.err 409 "no keys available", s)
      | some oneTimeKey =>
        let s := if consumed.isSome then s.withDb fun db => db.upsertDirectory hash entry else s
        (⟨200, .bundle { identityKey := entry.identityKey, signingKey := entry.signingKey, oneTimeKey }⟩, s)

/-! ### Push subscriptions -/

structure PushRegisterRequest where
  hash : String
  endpoint : String
  nonce : String
  signature : String

def pushRegister (R : Relay) (s : Inner) (req : PushRegisterRequest) (now : ℕ) : Response × Inner :=
  if (IdentityHash.fromHex req.hash).isNone then (.err 400 "malformed hash", s) else
  if !acceptablePushEndpoint R.parseUrl req.endpoint R.config.prod R.fcm then
    (.err 400 "unacceptable endpoint", s) else
  let msg := pushRegisterSigningMessage req.hash req.endpoint req.nonce
  match consumeAndVerify R s req.hash req.nonce msg req.signature now with
  | (.error r, s) => (r, s)
  | (.ok (), s) =>
    let s := { s with push := s.push.set req.hash { endpoint := req.endpoint } }
    (⟨200, .empty⟩, s.withDb fun db => db.upsertPush req.hash req.endpoint)

structure PushUnregisterRequest where
  hash : String
  nonce : String
  signature : String

def pushUnregister (R : Relay) (s : Inner) (req : PushUnregisterRequest) (now : ℕ) :
    Response × Inner :=
  if (IdentityHash.fromHex req.hash).isNone then (.err 400 "malformed hash", s) else
  let msg := pushUnregisterSigningMessage req.hash req.nonce
  match consumeAndVerify R s req.hash req.nonce msg req.signature now with
  | (.error r, s) => (r, s)
  | (.ok (), s) =>
    let s := { s with push := s.push.remove req.hash }
    (⟨200, .empty⟩, s.withDb fun db => db.deletePush req.hash)

/-- A wake whose transport answered that the token is dead: the row goes if it still holds it. -/
def deadToken (s : Inner) (recipient endpoint : String) : Inner :=
  if (s.push.get recipient).any fun sub => sub.endpoint = endpoint then
    let s := { s with push := s.push.remove recipient }
    s.withDb fun db => db.deletePush recipient
  else s

/-! ### Messages -/

/-- The wake a stored message earns, and the state after. -/
def decideWake (R : Relay) (s : Inner) (env : Envelope) (liveSenders : List ChannelId) (t : ℕ) :
    WakeDecision × Inner :=
  if env.wake = .none then (.classSilent, s) else
  if !liveSenders.isEmpty then (.subscriberLive, s) else
  match s.push.get env.recipient.asStr with
  | none => (.unregistered, s)
  | some sub =>
    let (endpoint, sub) := claimWake sub env.wake t R.config
    let s := { s with push := s.push.set env.recipient.asStr sub }
    match endpoint with
    | some endpoint => (.claimed endpoint, s)
    | none => (.budgeted, s)

/-- What a stored message still has to do once the lock is released: the pushes
to the channels that were live, and the wake. -/
structure Delivery where
  env : Envelope
  channels : List ChannelId
  wake : WakeDecision

def sendMessage (R : Relay) (s : Inner) (client : Option String) (env : Envelope) (t : ℕ) :
    Response × Inner × Option Delivery :=
  match client with
  | none => (.err 403 "no trusted client address", s, none)
  | some key =>
    let env := env.clamped t
    let (ok, s) := s.chargeRate key t
    if !ok then (.err 429 "rate limited", s, none) else
    match queueMessage s.store s.db env t with
    | (.error e, store, db) => (.err 400 e.message, { s with store, db }, none)
    | (.ok { stored := false, .. }, store, db) => (⟨202, .empty⟩, { s with store, db }, none)
    | (.ok { stored := true, .. }, store, db) =>
      let s := { s with store, db }
      let channels := (s.live.get env.recipient.asStr).getD []
      let (wake, s) := decideWake R s env channels t
      (⟨202, .empty⟩, s, some { env, channels, wake })

/-! ### Delivery sockets -/

/-- The first frame of a delivery socket. -/
structure AuthFrame where
  hash : String
  nonce : String
  signature : String

/-- The outcome of `authenticate`: the mailbox and the directory key it was proved under. -/
inductive AuthOutcome
  | ok (hash signingKey : String)
  | revoked
  | failed
deriving DecidableEq, Repr

def authenticate (R : Relay) (s : Inner) (frame : AuthFrame) (now : ℕ) : AuthOutcome × Inner :=
  let (ok, challenges) := s.challenges.consume frame.hash frame.nonce now
  let s := { s with challenges }
  if !ok then (.failed, s) else
  match s.directory.get frame.hash with
  | none => (.revoked, s)
  | some entry =>
    if !((R.crypto.base64Decode frame.nonce).any fun bytes => bytes.length == wsAuthNonceLen) then (.failed, s) else
    let message := wsAuthSigningMessage frame.hash frame.nonce
    if R.crypto.verify entry.signingKey message frame.signature then (.ok frame.hash entry.signingKey, s)
    else (.failed, s)

/-- The second critical section of `handle_socket`: the channel becomes live and
what is queued is flushed into it. -/
def subscribe (s : Inner) (hash : String) (channel : ChannelId) (now : ℕ) : List Envelope × Inner :=
  let s := { s with live := s.live.set hash ((s.live.get hash).getD [] ++ [channel]) }
  match IdentityHash.fromHex hash with
  | none => ([], s)
  | some recipient =>
    let (envelopes, store) := s.store.fetch recipient now
    (envelopes, { s with store })

/-- An Ack frame on a socket authenticated for `hash`. -/
def ackMessage (s : Inner) (hash msgId : String) : Inner :=
  match IdentityHash.fromHex hash with
  | none => s
  | some recipient =>
    let s := { s with store := s.store.ack recipient msgId }
    s.withDb fun db => db.deleteMessage recipient.asStr msgId

/-- The cleanup of a socket: its channel is dropped from the live ones. -/
def unsubscribe (s : Inner) (hash : String) (channel : ChannelId) : Inner :=
  match s.live.get hash with
  | none => s
  | some senders =>
    let senders := senders.filter fun c => c ≠ channel
    { s with live := if senders.isEmpty then s.live.remove hash else s.live.set hash senders }

/-- A slot of the per-client socket cap. -/
def claimSlot (R : Relay) (s : Inner) (client : String) : Bool × Inner :=
  let n := (s.wsCount.get client).getD 0
  if n ≥ R.config.maxWsPerClient then (false, { s with wsCount := s.wsCount.set client n }) else
  (true, { s with wsCount := s.wsCount.set client (n + 1) })

def releaseSlot (s : Inner) (client : String) : Inner :=
  match s.wsCount.get client with
  | none => s
  | some n => { s with wsCount := if n - 1 = 0 then s.wsCount.remove client else s.wsCount.set client (n - 1) }

/-! ### The reaper -/

def reap (s : Inner) (t : ℕ) : Inner :=
  let s := { s with store := s.store.prune t, challenges := s.challenges.sweep t, rate := s.rate.sweep t
                    authRate := s.authRate.sweep t, otkDrainRate := s.otkDrainRate.sweep t }
  s.withDb fun db => (db.pruneExpired t).clampNullExpiry (t + maxMessageTtlSecs)

end Sona
