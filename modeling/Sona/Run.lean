/-
# The relay as a system

The handlers of `Sona.Relay` and the delivery sockets of `handle_socket`
(`server/src/http/ws.rs`) as one step function on one state. What runs under
one lock is one event; a socket's task takes the lock several times (its auth,
its subscription, each Ack, its cleanup), and `send_message` pushes to the
channels it collected after it released the lock, so these are events of their
own and any order of them is a run.

A socket is known by its channel. Channels are never reused (`Sys.Fresh`), so
a socket that is closed stays closed. `recordStep` says once what an event can
do to the records of the relay: the directory, the call keys and the log.

Key definitions: `Socket`, `Sys`, `Event`, `sysStep`, `RecordStep`, `Sys.Fresh`.
Key theorems: `recordStep`, `fresh_step`.
-/
import Mathlib.Data.List.DropRight
import Sona.Lib.Base64
import Sona.Lib.Table
import Sona.Lib.Trace
import Sona.Durable
import Sona.Heads
import Sona.Relay
import Sona.Handlers

namespace Sona

/-! ### State -/

/-- A delivery socket. `client` is its slot of the cap, `party` whoever is at
the other end; `auth` is the mailbox it proved and the key it proved it with;
`frames` is what its channel was sent. -/
structure Socket where
  client : String
  party : ℕ
  auth : Option (String × String) := none
  subscribed : Bool := false
  frames : List ServerFrame := []

/-- The relay, its open sockets, and the pushes that messages still have to make. -/
structure Sys where
  inner : Inner := {}
  sockets : Table ChannelId Socket := ∅
  next : ℕ := 0
  flight : List (Envelope × ChannelId) := []

/-- A relay at its start, with its database if it has one. -/
def start (R : Relay) (db : Option Db) : Sys :=
  { inner := { db, kt := { releaseGraceSecs := R.config.releaseGraceSecs } } }

/-- A frame goes into a channel; nobody hears it once the socket is gone. -/
def transmit (sockets : Table ChannelId Socket) (p : ChannelId × ServerFrame) :
    Table ChannelId Socket :=
  match sockets.get p.1 with
  | none => sockets
  | some sock => sockets.set p.1 { sock with frames := sock.frames ++ [p.2] }

def transmitAll (sockets : Table ChannelId Socket) (sent : List (ChannelId × ServerFrame)) :
    Table ChannelId Socket :=
  sent.foldl transmit sockets

/-! ### Events -/

inductive Event
  | register (client invite : Option String) (req : RegisterRequest) (now : ℕ)
  | publishRoster (client : Option String) (roster : KtRosterEntry) (now : ℕ)
  | publishCallKey (req : CallKeyPublishRequest) (now : ℕ)
  | deleteAccount (client : Option String) (req : AccountDeleteRequest) (now : ℕ)
  | challenge (client : Option String) (hash nonce : String) (now : ℕ)
  | uploadOneTimeKeys (client : Option String) (req : OneTimeKeysRequest) (now : ℕ)
  | fetchBundle (client : Option String) (hash : String) (now : ℕ)
  | pushRegister (req : PushRegisterRequest) (now : ℕ)
  | pushUnregister (req : PushUnregisterRequest) (now : ℕ)
  | deadToken (recipient endpoint : String)
  | send (client : Option String) (env : Envelope) (now : ℕ)
  /-- One push of a message that was sent before. -/
  | push (i : ℕ)
  | connect (client : String) (party : ℕ)
  | auth (channel : ChannelId) (frame : AuthFrame) (now : ℕ)
  | subscribe (channel : ChannelId) (now : ℕ)
  | ack (channel : ChannelId) (msgId : String)
  | close (channel : ChannelId)
  | reap (now : ℕ)

/-- The end of a socket's task: its channel leaves the live ones, its slot is free. -/
def hangUp (s : Sys) (channel : ChannelId) (sock : Socket) (inner : Inner) : Sys :=
  let inner := match sock.auth with
    | some (hash, _) => unsubscribe inner hash channel
    | none => inner
  { s with inner := releaseSlot inner sock.client, sockets := s.sockets.remove channel }

/-- The first frame of a socket. A refused one ends the task. -/
def authSocket (R : Relay) (s : Sys) (channel : ChannelId) (frame : AuthFrame) (now : ℕ) : Sys :=
  match s.sockets.get channel with
  | none => s
  | some sock =>
    if sock.auth.isSome then s else
    match authenticate R s.inner frame now with
    | (.ok hash key, inner) =>
      { s with inner, sockets := s.sockets.set channel { sock with auth := some (hash, key) } }
    | (_, inner) => hangUp s channel sock inner

/-- The subscription of a socket that authenticated. -/
def subscribeSocket (s : Sys) (channel : ChannelId) (now : ℕ) : Sys :=
  match s.sockets.get channel with
  | none => s
  | some sock =>
    match sock.auth with
    | none => s
    | some (hash, _) =>
      if sock.subscribed then s else
      let (envelopes, inner) := subscribe s.inner hash channel now
      { s with
        inner
        sockets := s.sockets.set channel { sock with
          subscribed := true
          frames := sock.frames ++ envelopes.map .message ++ [.ready] } }

/-- An Ack frame, read once the socket is subscribed. -/
def ackSocket (s : Sys) (channel : ChannelId) (msgId : String) : Sys :=
  match s.sockets.get channel with
  | none => s
  | some sock =>
    match sock.auth with
    | none => s
    | some (hash, _) => if sock.subscribed then { s with inner := ackMessage s.inner hash msgId } else s

/-- The message is stored and the pushes it has to make are left for later. -/
def sendSys (R : Relay) (s : Sys) (client : Option String) (env : Envelope) (now : ℕ) : Sys :=
  let (_, inner, delivery) := sendMessage R s.inner client env now
  { s with
    inner
    flight := s.flight ++ match delivery with
      | some d => d.channels.map fun channel => (d.env, channel)
      | none => [] }

def pushSys (s : Sys) (i : ℕ) : Sys :=
  match s.flight[i]? with
  | none => s
  | some (env, channel) =>
    { s with sockets := transmit s.sockets (channel, .message env), flight := s.flight.eraseIdx i }

def connectSys (R : Relay) (s : Sys) (client : String) (party : ℕ) : Sys :=
  match claimSlot R s.inner client with
  | (false, inner) => { s with inner }
  | (true, inner) => { s with inner, sockets := s.sockets.set s.next { client, party }, next := s.next + 1 }

def sysStep (R : Relay) (s : Sys) : Event → Sys
  | .register client invite req now =>
    { s with inner := (register R s.inner client invite req now).2 }
  | .publishRoster client roster now =>
    let (_, inner, sent) := publishRoster R s.inner client roster now
    { s with inner, sockets := transmitAll s.sockets sent }
  | .publishCallKey req now => { s with inner := (publishCallKey R s.inner req now).2 }
  | .deleteAccount client req now =>
    let (_, inner, sent) := deleteAccount R s.inner client req now
    { s with inner, sockets := transmitAll s.sockets sent }
  | .challenge client hash nonce now =>
    { s with inner := (challenge s.inner client hash nonce now).2 }
  | .uploadOneTimeKeys client req now =>
    { s with inner := (uploadOneTimeKeys R s.inner client req now).2 }
  | .fetchBundle client hash now => { s with inner := (fetchBundle s.inner client hash now).2 }
  | .pushRegister req now => { s with inner := (pushRegister R s.inner req now).2 }
  | .pushUnregister req now => { s with inner := (pushUnregister R s.inner req now).2 }
  | .deadToken recipient endpoint => { s with inner := deadToken s.inner recipient endpoint }
  | .send client env now => sendSys R s client env now
  | .push i => pushSys s i
  | .connect client party => connectSys R s client party
  | .auth channel frame now => authSocket R s channel frame now
  | .subscribe channel now => subscribeSocket s channel now
  | .ack channel msgId => ackSocket s channel msgId
  | .close channel =>
    match s.sockets.get channel with
    | none => s
    | some sock => hangUp s channel sock s.inner
  | .reap now => { s with inner := reap s.inner now }

/-- The state after the events `es` of a relay that starts on `db`. -/
def after (R : Relay) (db : Option Db) (es : List Event) : Sys :=
  Trace.run (sysStep R) (start R db) es

@[simp] theorem after_nil (R : Relay) (db : Option Db) : after R db [] = start R db := rfl

theorem after_append (R : Relay) (db : Option Db) (es fs : List Event) :
    after R db (es ++ fs) = Trace.run (sysStep R) (after R db es) fs := Trace.run_append _ _ _ _

theorem after_snoc (R : Relay) (db : Option Db) (es : List Event) (e : Event) :
    after R db (es ++ [e]) = sysStep R (after R db es) e := Trace.run_snoc _ _ _ _

/-! ### What an event does to the records -/

/-- The directory, the call keys and the log are the same. -/
def Core.SameRecords (c c' : Core) : Prop :=
  c'.directory = c.directory ∧ c'.callKeys = c.callKeys ∧ c'.kt = c.kt

theorem Core.SameRecords.of_eq {c c' : Core} (h : c' = c) : c.SameRecords c' := by
  rw [h]; exact ⟨rfl, rfl, rfl⟩

/-- What an event can do to the records of the relay. -/
inductive RecordStep (R : Relay) (c : Core) : Event → Core → Prop
  | same {e : Event} {c' : Core} (h : c.SameRecords c') : RecordStep R c e c'
  | bundle {client : Option String} {hash : String} {now : ℕ} {entry : DirectoryEntry}
      {keys : List String}
      {c' : Core} (found : c.directory.get hash = some entry)
      (core : c' = { c with directory := c.directory.set hash (entry.withKeys keys) }) :
      RecordStep R c (.fetchBundle client hash now) c'
  | upload {client : Option String} {req : OneTimeKeysRequest} {now : ℕ} {entry : DirectoryEntry}
      {keys : List String} {c' : Core} (found : c.directory.get req.identityHash = some entry)
      (signed : R.crypto.verify entry.signingKey (oneTimeKeysSigningMessage req.identityHash req.oneTimeKeys)
        req.signature = true)
      (core : c' = { c with directory := c.directory.set req.identityHash (entry.withKeys keys) }) :
      RecordStep R c (.uploadOneTimeKeys client req now) c'
  | register {client invite : Option String} {req : RegisterRequest} {now i : ℕ} {kt : KtLog}
      {c' : Core}
      (appended : c.kt.append R.crypto req.entry = .ok (i, kt))
      (core : c' = if req.entry.released then { c with kt }
        else { c with kt }.takeMailbox req.entry.usernameHash req.record) :
      RecordStep R c (.register client invite req now) c'
  | roster {client : Option String} {roster : KtRosterEntry} {now i : ℕ} {kt : KtLog} {c' : Core}
      (appended : c.kt.appendRoster R.crypto roster = .ok (i, kt))
      (hex : (IdentityHash.fromHex roster.usernameHash).isSome)
      (core : c' = Core.mirrorRoster R { c with kt } (c.kt.latestRosterFor roster.usernameHash) roster) :
      RecordStep R c (.publishRoster client roster now) c'
  | callKey {req : CallKeyPublishRequest} {now : ℕ} {callMailbox : IdentityHash}
      {entry : DirectoryEntry} {c' : Core}
      (mailbox : (deviceMailboxHash R.crypto.sha req.accountHash req.binding.deviceId).map (·.asStr) = some req.hash)
      (call : callMailboxHash R.crypto.sha req.accountHash req.binding.deviceId = some callMailbox)
      (found : c.directory.get req.hash = some entry)
      (signed : R.crypto.verify entry.signingKey req.message req.signature = true)
      (newer : ∀ current, c.callKeys.get req.hash = some current →
        req.binding.supersedes current = true ∨ current = req.binding)
      (core : c' = { c with directory := c.directory.set callMailbox.asStr req.binding.record
                            callKeys := c.callKeys.set req.hash req.binding }) :
      RecordStep R c (.publishCallKey req now) c'
  | delete {client : Option String} {req : AccountDeleteRequest} {now : ℕ}
      {account : DirectoryEntry} {c' : Core}
      (found : c.directory.get req.hash = some account)
      (signed : R.crypto.verify account.signingKey req.message req.signature = true)
      (core : c' = c.dropMailboxes
        (accountMailboxes R c.kt req.hash ++ ownedAliases c.directory account.signingKey req.aliasHashes)) :
      RecordStep R c (.deleteAccount client req now) c'

@[simp] theorem core_releaseSlot (s : Inner) (client : String) :
    (releaseSlot s client).core = s.core := by
  unfold releaseSlot
  split <;> rfl

@[simp] theorem core_claimSlot (R : Relay) (s : Inner) (client : String) :
    (claimSlot R s client).2.core = s.core := by
  unfold claimSlot
  dsimp only
  split <;> rfl

theorem unsubscribe_records (s : Inner) (hash : String) (channel : ChannelId) :
    s.core.SameRecords (unsubscribe s hash channel).core := by
  unfold unsubscribe
  split <;> exact ⟨rfl, rfl, rfl⟩

theorem hangUp_records (s : Sys) (channel : ChannelId) (sock : Socket) (inner : Inner) :
    inner.core.SameRecords (hangUp s channel sock inner).inner.core := by
  unfold hangUp
  cases sock.auth with
  | none =>
    dsimp only
    rw [core_releaseSlot]
    exact ⟨rfl, rfl, rfl⟩
  | some p =>
    dsimp only
    rw [core_releaseSlot]
    exact unsubscribe_records inner p.1 channel

theorem authSocket_records (R : Relay) (s : Sys) (channel : ChannelId) (frame : AuthFrame)
    (now : ℕ) :
    s.inner.core.SameRecords (authSocket R s channel frame now).inner.core := by
  have hcore := (authenticate_cases R s.inner frame now).1
  unfold authSocket
  split
  · exact ⟨rfl, rfl, rfl⟩
  split
  · exact ⟨rfl, rfl, rfl⟩
  cases ha : authenticate R s.inner frame now with
  | mk outcome inner =>
  rw [ha] at hcore
  have hhang := hangUp_records s channel
  cases outcome with
  | ok hash key => exact .of_eq hcore
  | revoked => exact hcore ▸ hhang _ inner
  | failed => exact hcore ▸ hhang _ inner

theorem subscribe_records (s : Inner) (hash : String) (channel : ChannelId) (now : ℕ) :
    s.core.SameRecords (subscribe s hash channel now).2.core := by
  unfold subscribe
  dsimp only
  split <;> exact ⟨rfl, rfl, rfl⟩

theorem subscribeSocket_records (s : Sys) (channel : ChannelId) (now : ℕ) :
    s.inner.core.SameRecords (subscribeSocket s channel now).inner.core := by
  unfold subscribeSocket
  split
  · exact ⟨rfl, rfl, rfl⟩
  split
  · exact ⟨rfl, rfl, rfl⟩
  split
  · exact ⟨rfl, rfl, rfl⟩
  · exact subscribe_records _ _ _ _

theorem ackSocket_records (s : Sys) (channel : ChannelId) (msgId : String) :
    s.inner.core.SameRecords (ackSocket s channel msgId).inner.core := by
  unfold ackSocket ackMessage
  repeat' split
  all_goals exact ⟨rfl, rfl, rfl⟩

/-- **What an event can do to the records.** Only six requests touch them. -/
theorem recordStep (R : Relay) (s : Sys) (e : Event) :
    RecordStep R s.inner.core e (sysStep R s e).inner.core := by
  cases e with
  | register client invite req now =>
    obtain ⟨h, -⟩ | ⟨i, kt, ha, -, h⟩ := register_core (R := R) (s := s.inner) client invite req now
    · exact .same (.of_eq h)
    · exact .register ha h
  | publishRoster client roster now =>
    obtain ⟨h, -⟩ | ⟨i, kt, ha, hx, -, h⟩ :=
      publishRoster_core (R := R) (s := s.inner) client roster now
    · exact .same (.of_eq h)
    · exact .roster ha hx h
  | publishCallKey req now =>
    obtain ⟨h, -⟩ | ⟨mb, entry, hm, hc, hf, hs, hn, -, h⟩ :=
      publishCallKey_core (R := R) (s := s.inner) req now
    · exact .same (.of_eq h)
    · exact .callKey hm hc hf hs hn h
  | deleteAccount client req now =>
    obtain h | ⟨account, hf, hs, h⟩ := deleteAccount_core (R := R) (s := s.inner) client req now
    · exact .same (.of_eq h)
    · exact .delete hf hs h
  | challenge client hash nonce now => exact .same (.of_eq (core_challenge client hash nonce now))
  | uploadOneTimeKeys client req now =>
    obtain h | ⟨entry, -, hf, hs, h⟩ :=
      uploadOneTimeKeys_core (R := R) (s := s.inner) client req now
    · exact .same (.of_eq h)
    · exact .upload hf hs h
  | fetchBundle client hash now =>
    obtain h | ⟨entry, keys, hf, h⟩ := fetchBundle_core (s := s.inner) client hash now
    · exact .same (.of_eq h)
    · exact .bundle hf h
  | pushRegister req now =>
    obtain h | h := pushRegister_core (R := R) (s := s.inner) req now
    · exact .same (.of_eq h)
    · exact .same (by rw [show (sysStep R s (.pushRegister req now)).inner.core = _ from h]; exact ⟨rfl, rfl, rfl⟩)
  | pushUnregister req now =>
    obtain h | h := pushUnregister_core (R := R) (s := s.inner) req now
    · exact .same (.of_eq h)
    · exact .same (by rw [show (sysStep R s (.pushUnregister req now)).inner.core = _ from h]; exact ⟨rfl, rfl, rfl⟩)
  | deadToken recipient endpoint =>
    obtain ⟨push, h⟩ := deadToken_core s.inner recipient endpoint
    exact .same (by rw [show (sysStep R s (.deadToken recipient endpoint)).inner.core = _ from h]; exact ⟨rfl, rfl, rfl⟩)
  | send client env now =>
    obtain ⟨store, push, h, -, -⟩ := sendMessage_core (R := R) (s := s.inner) client env now
    exact .same (by rw [show (sysStep R s (.send client env now)).inner.core = _ from h]; exact ⟨rfl, rfl, rfl⟩)
  | push i =>
    refine .same ?_
    change s.inner.core.SameRecords (pushSys s i).inner.core
    unfold pushSys
    split <;> exact ⟨rfl, rfl, rfl⟩
  | connect client party =>
    refine .same (.of_eq ?_)
    have h := core_claimSlot R s.inner client
    change (connectSys R s client party).inner.core = _
    unfold connectSys
    split
    · rename_i heq; rw [heq] at h; exact h
    · rename_i heq; rw [heq] at h; exact h
  | auth channel frame now => exact .same (authSocket_records R s channel frame now)
  | subscribe channel now => exact .same (subscribeSocket_records s channel now)
  | ack channel msgId => exact .same (ackSocket_records s channel msgId)
  | close channel =>
    refine .same ?_
    dsimp only [sysStep]
    split
    · exact ⟨rfl, rfl, rfl⟩
    · exact hangUp_records s channel _ s.inner
  | reap now => exact .same ⟨rfl, rfl, rfl⟩

/-! ### A relay for concrete runs

The digests and the Ed25519 keys and signatures below are real ones; a relay
knows those it is given and no others. -/

def sampleDevice : String := "0123456789abcdef0123456789abcdef"

/-- The SHA-256 digests that the runs below compute: the mailboxes derived from one account. -/
def knownDigests : List (Bytes × String) :=
  [(utf8 "sona-device-mailbox-v1|" ++ utf8 bobHash ++ utf8 "|" ++ utf8 sampleDevice,
      "997b47093f611691aa36a9c6bedf25d516cfbf846e2a7f1a4685ba0860cfc114"),
    (utf8 "sona-call-mailbox-v1|" ++ utf8 bobHash ++ utf8 "|" ++ utf8 sampleDevice,
      "e7453ccac12f097e682e9cf8b09c00e6060826802cbb66701df17a23bfd6f534"),
    (utf8 "sona-call-mailbox-v1|" ++ utf8 bobHash ++ utf8 "|" ++ utf8 primaryDeviceId,
      "8852370ca7fb03502475bd984d30cf5359435599f7c8eb73ff00f986d0303e19")]

/-- The known digests, and anything else set apart by a mark. -/
def sampleHex (bytes : Bytes) : String :=
  match knownDigests.find? fun p => p.1 = bytes with
  | some p => p.2
  | none => String.ofList ('!' :: bytes.map fun b => Char.ofNat b.toNat)

theorem charOfByte_injective : Function.Injective fun b : UInt8 => Char.ofNat b.toNat := by
  intro a b h
  have hval : ∀ x : UInt8, (Char.ofNat x.toNat).toNat = x.toNat := by
    intro x
    have hx := x.toNat_lt
    unfold Char.ofNat
    rw [dif_pos (Or.inl (by omega))]
    rfl
  exact UInt8.toNat_inj.mp (by rw [← hval a, ← hval b]; exact congrArg Char.toNat h)

theorem sampleHex_injective : Function.Injective sampleHex := by
  have hdist : ∀ p ∈ knownDigests, ∀ p' ∈ knownDigests, p.2 = p'.2 → p.1 = p'.1 := by decide +kernel
  have hmark : ∀ p ∈ knownDigests, p.2.toList.head? ≠ some '!' := by decide +kernel
  have hfound : ∀ {bytes p}, knownDigests.find? (fun p => p.1 = bytes) = some p →
      p ∈ knownDigests ∧ p.1 = bytes :=
    fun h => ⟨List.mem_of_find?_eq_some h, by simpa using List.find?_some h⟩
  intro a b h
  unfold sampleHex at h
  split at h
  · rename_i p hp
    obtain ⟨hmem, rfl⟩ := hfound hp
    split at h
    · rename_i p' hp'
      obtain ⟨hmem', rfl⟩ := hfound hp'
      exact hdist p hmem p' hmem' h
    · exact (hmark p hmem (by rw [h, String.toList_ofList]; rfl)).elim
  · split at h
    · rename_i p' hp'
      obtain ⟨hmem', rfl⟩ := hfound hp'
      exact (hmark p' hmem' (by rw [← h, String.toList_ofList]; rfl)).elim
    · have h := congrArg String.toList h
      simp only [String.toList_ofList, List.cons.injEq, true_and] at h
      exact List.map_injective_iff.mpr charOfByte_injective h

/-- A string without the mark is a digest only if it is a known one. -/
theorem sampleHex_ne {s : String} (hs : s ∉ knownDigests.map (·.2))
    (hmark : s.toList.head? ≠ some '!') (bytes : Bytes) :
    sampleHex bytes ≠ s := by
  unfold sampleHex
  split
  · rename_i p hp
    rintro rfl
    exact hs (List.mem_map_of_mem (List.mem_of_find?_eq_some hp))
  · rintro rfl
    rw [String.toList_ofList] at hmark
    exact hmark rfl

def sampleSha : Sha256 := ⟨sampleHex, sampleHex_injective⟩

/-- Signatures that were made: key, message, signature. -/
abbrev Signatures := List (String × Bytes × String)

/-- The signature is one of those made under the key. -/
def sampleVerify (signed : Signatures) (key message signature : Bytes) : Bool :=
  signed.any fun p => decodeBase64 (utf8 p.1) = some key && p.2.1 = message &&
  decodeBase64 (utf8 p.2.2) = some signature

/-- A relay with the known digests, whose clients made the signatures `signed`. -/
def sampleRelay (signed : Signatures) : Relay :=
  { crypto := { sha := sampleSha
                b64d := fun s => decodeBase64 ((utf8 s).reverse.dropWhile (· = 61)).reverse
                verifyStrict := sampleVerify signed
                base64Decode := fun s => decodeBase64 (utf8 s)
                vodozemacVerify := sampleVerify signed }
    parseUrl := fun _ => none }

/-- Base64 without padding has no padding character. -/
theorem no_pads_of_decode {s : String} {v : Bytes} (h : decodeBase64 (utf8 s) = some v) :
    (61 : UInt8) ∉ utf8 s ∧ '=' ∉ s.toList := by
  have hbyte : (61 : UInt8) ∉ utf8 s := by
    intro hmem
    obtain ⟨n, hn⟩ := decodeBase64_digits h _ hmem
    cases hn
  refine ⟨hbyte, fun hmem => hbyte ?_⟩
  rw [utf8_toList]
  exact List.mem_flatMap.mpr ⟨'=', hmem, by decide⟩

/-- The text is base64 of a length that is wanted. -/
def readable (ok : ℕ → Bool) (s : String) : Bool :=
  (decodeBase64 (utf8 s)).any fun bytes => ok bytes.length

theorem readable_iff {ok : ℕ → Bool} {s : String} :
    readable ok s = true ↔ ∃ v, decodeBase64 (utf8 s) = some v ∧ ok v.length = true := by
  unfold readable
  rw [Option.any_eq_true]

/-- A signature that was made is good. -/
theorem sampleRelay_verifies {signed : Signatures} {key signature : String} {message : Bytes}
    (hmade : (key, message, signature) ∈ signed) (hkey : readable (· = 32) key = true)
    (hsig : readable (· = 64) signature = true) :
    (sampleRelay signed).crypto.verifyEd25519 key message signature = true := by
  obtain ⟨k, hk, hklen⟩ := readable_iff.mp hkey
  obtain ⟨v, hv, hvlen⟩ := readable_iff.mp hsig
  have hplain : ∀ {s : String} {w : Bytes}, decodeBase64 (utf8 s) = some w →
      (sampleRelay signed).crypto.b64d s = some w := by
    intro s w hs
    have hlast : (utf8 s).rdropWhile (· = 61) = utf8 s := by
      refine List.rdropWhile_eq_self_iff.mpr fun hne hpad => (no_pads_of_decode hs).1 ?_
      exact of_decide_eq_true hpad ▸ List.getLast_mem hne
    exact (congrArg decodeBase64 hlast).trans hs
  unfold Crypto.verifyEd25519
  rw [hplain hk, hplain hv]
  dsimp only
  rw [if_pos ⟨by simpa using hklen, by simpa using hvlen⟩]
  refine List.any_eq_true.mpr ⟨_, hmade, ?_⟩
  simp [hk, hv]

/-- Two spellings of one key. -/
def SameKey (key key' : String) : Prop := decodeBase64 (utf8 key) = decodeBase64 (utf8 key')

/-- Only who made a signature has it. -/
theorem verify_made {signed : Signatures} {key signature : String} {message : Bytes}
    (h : (sampleRelay signed).crypto.verify key message signature = true) :
    ∃ p ∈ signed, p.2.1 = message ∧ SameKey key p.1 := by
  unfold Crypto.verify at h
  split at h
  · rename_i k s hk hs
    split at h
    · obtain ⟨p, hp, hmatch⟩ := List.any_eq_true.mp (show sampleVerify signed k message s = true from h)
      simp only [Bool.and_eq_true, decide_eq_true_eq] at hmatch
      exact ⟨p, hp, hmatch.1.2, (show decodeBase64 (utf8 key) = some k from hk).trans hmatch.1.1.symm⟩
    · cases h
  · cases h

def bobKey : String := "7lBTv9+e98vSfo9KhBLFm4WVdmcRxAL7tNyXWgmZdhs"

/-- The first binding of one account. -/
def bobEntry : KtEntry :=
  { seq := 0, usernameHash := bobHash, identityKey := "8ekZExL47Y1Q818/S9a9hlfiDL0jPlpW12phvpdult0",
    signingKey := bobKey
    prevSigningKey := none, timestamp := 1000, released := false
    signature := "fn2lwXAtNUXRZx5NtC+vYyml3kv7DxFevpsrRHAsVgJPALdQV20uzzaixViyHI15yeNtXYjrJkK40d0e7quzAA" }

def bobRegisters : Event :=
  .register (some "10.0.0.1") none { entry := bobEntry, oneTimeKeys := [], fallbackKey := none } 1000

def sampleNonce : String := "eDd7UldXtJRCf4kBT5fXmSjzk40U61HiD7XeyYNOswQ"

/-- The account proves its key to a socket. -/
def bobAuth : AuthFrame :=
  { hash := bobHash, nonce := sampleNonce
    signature := "acLTH8S9R0tI0LBEMoYXDtAbh/Uk+Y7c+0PXTIKH/fXoOrhL+HcKooZrDG1caqYLVB+E1b97MOYDZ95H3efUDA" }

def bobSigned : Signatures :=
  [(bobKey, bobEntry.signingPayload, bobEntry.signature),
    (bobKey, wsAuthSigningMessage bobHash sampleNonce, bobAuth.signature)]

/-- The account registers and subscribes; a message was queued for it before. -/
def bobSubscribes : List Event :=
  [bobRegisters, .send (some "10.0.0.9") (mailTo bobHash "hello" "m1" none) 1010,
    .challenge (some "10.0.0.1") bobHash sampleNonce 1020, .connect "10.0.0.1" 0, .auth 0 bobAuth 1021,
    .subscribe 0 1021]

/-- The device the account was registered from. -/
def primaryRecord : DeviceRecord :=
  { deviceId := primaryDeviceId, identityKey := bobEntry.identityKey, signingKey := bobKey,
    addedAt := 1000
    signature := "hqpHtxvi6lvp65ivM4DeuDZuyFdqnHl/oumA9Pv7T7ITxBnL7YL+uIKLZrRd21wRFOvYVSIl9DxNZVm6GqR8Bw" }

def deviceKey : String := "zhwLS/DBhGnh1g7cGYrlr+dE9nWIVhpgCMBseWRzvRg"

/-- A linked device of the account. -/
def deviceRecord : DeviceRecord :=
  { deviceId := sampleDevice, identityKey := "1LP+WccArBhuaXpAwhoZtoNvai4ljg2naeY1ZnmtTdA",
    signingKey := deviceKey, addedAt := 1000
    signature := "u6WWfaDLVHQYA3APih7pCHaq3i0pHhllPVyObbFKZlivwXY8Vs1AZP6nxJ8dbVoq9EK0n8/n4c+ysdVfwT7oDw" }

/-- The first roster of the account. -/
def bobRoster : KtRosterEntry :=
  { seq := 0, usernameHash := bobHash, devices := [primaryRecord, deviceRecord], timestamp := 1000
    signature := "pfAPYkRsrL64YbwtZFqD627lC1NaLzYH/fmvOnqN5rfMaPXC4oAKGTwkynrkRuipkvtZgScZW2zRfI9P7XlIDg" }

/-- What the account and its device sign for the roster. -/
def rosterSigned : Signatures :=
  [(bobKey, bobEntry.signingPayload, bobEntry.signature),
    (bobKey, primaryRecord.signingPayload bobHash, primaryRecord.signature),
    (deviceKey, deviceRecord.signingPayload bobHash, deviceRecord.signature),
    (bobKey, bobRoster.signingPayload, bobRoster.signature)]

/-- The account registers and links the device. -/
def bobLinks : List Event := [bobRegisters, .publishRoster (some "10.0.0.1") bobRoster 1100]

/-- The mailboxes of the linked device. -/
def deviceMailbox : String := "997b47093f611691aa36a9c6bedf25d516cfbf846e2a7f1a4685ba0860cfc114"

def deviceCallMailbox : String := "e7453ccac12f097e682e9cf8b09c00e6060826802cbb66701df17a23bfd6f534"

theorem deviceMailboxHash_bob :
    deviceMailboxHash sampleSha bobHash sampleDevice = some ⟨deviceMailbox⟩ := by
  decide +kernel

theorem callMailboxHash_bob :
    callMailboxHash sampleSha bobHash sampleDevice = some ⟨deviceCallMailbox⟩ := by
  decide +kernel

/-- The key of another party, and its identity key. -/
def malloryKey : String := "8WpWnBG2OVVq93eK5wu0u7ZfSNL9PTR/y43Xv+Bc4GU"

def malloryIdentity : String := "TJOeSDFu3bgQrrPnn+tj6uv9CC+kGpKWo3+Henv0fMg"

/-- The account changes its key. -/
def rotationEntry : KtEntry :=
  { seq := 1, usernameHash := bobHash, identityKey := "797WJ6H/dFtTLQ2q0HgcFH5QdYqiLslY/UBZGmw7hjQ"
    signingKey := "6jRhRXf6FNGLt81QcabFaEDnq6KEHOr3IdS8vgISScE", prevSigningKey := some bobKey, timestamp := 2000
    released := false
    signature := "s/lTKo6UGCPLZjxs6sOiXdzooUIWUMIl3EmoUqP0I2cgUINjqzPTWJY7FRZMqC4yuwzKTVOKH1G4Nx7QH2+RBw" }

/-- The roster that drops the linked device. -/
def droppingRoster : KtRosterEntry :=
  { seq := 1, usernameHash := bobHash, devices := [primaryRecord], timestamp := 1500
    signature := "4gWBa+af3QsmaduVxlYRasn3XZjiSqySQSQgHrL0+tBd0BzwiNC31Aozqs00X4VsbWpxafqqFqSO4pzvELmKDA" }

/-- The account gives its name up. -/
def releaseEntry : KtEntry :=
  { seq := 1, usernameHash := bobHash, identityKey := bobEntry.identityKey, signingKey := bobKey
    prevSigningKey := some bobKey, timestamp := 2000, released := true
    signature := "J0DGFyJ9Zts66rp8YNDtai/xV5VpImkn4lCgnErYsD+b18BYtmj+mk5xvZHSqBcTkZ6u2o7isLa4mJQwIL0+Dw" }

/-- Another key claims the name when its grace is over. -/
def takeoverEntry : KtEntry :=
  { seq := 2, usernameHash := bobHash, identityKey := malloryIdentity, signingKey := malloryKey
    prevSigningKey := none, timestamp := 606800, released := false
    signature := "38TjBf3aaf/6OrEY25I9v5WWLZrXnyzFMVQl43rsIBiBUPXeJrBENBhNI/HUosA8ufDaonBp8I7sGTcr3A8dBw" }

/-- The key of the log. -/
def ktKey : String := "y29Sfl5nLqjhieiGDjFtcCBpQaV3ZzbXpxhGC/lPn7w"

/-- Heads are read as strict base64, and checked against the signatures that were made. -/
structure MadeHeads (K : HeadCrypto) (signed : Signatures) : Prop where
  decode : K.decode = fun s => decodeBase64 (utf8 s)
  keyOk : ∀ k, K.keyOk k = true
  verifyStrict : K.verifyStrict = sampleVerify signed

namespace MadeHeads

variable {K : HeadCrypto} {signed : Signatures} (hK : MadeHeads K signed)
include hK

theorem b64d {s : String} {v : Bytes} (h : decodeBase64 (utf8 s) = some v) : K.b64d s = some v := by
  unfold HeadCrypto.b64d
  rw [trimPads_of_notMem (no_pads_of_decode h).2, hK.decode]
  exact h

theorem decodeTo {n : ℕ} {s : String} {v : Bytes} (h : decodeBase64 (utf8 s) = some v)
    (hn : v.length = n) :
    K.decodeTo n s = some v := by
  unfold HeadCrypto.decodeTo
  rw [hK.b64d h, Option.filter_some, if_pos (by simpa using hn)]

/-- A head that was signed is verified. -/
theorem verified {sth : SignedTreeHead}
    (hmade : (ktKey, headPayload sth.treeSize ((decodeBase64 (utf8 sth.rootB64)).getD []) sth.timestamp, sth.signatureB64) ∈
      signed) (hroot : readable (· = 32) sth.rootB64 = true)
    (hsig : readable (· = 64) sth.signatureB64 = true) :
    verifySthB64 K ktKey sth = true := by
  obtain ⟨root, hr, hlen⟩ := readable_iff.mp hroot
  obtain ⟨v, hv, hvlen⟩ := readable_iff.mp hsig
  obtain ⟨k, hk, hklen⟩ := readable_iff.mp (show readable (· = 32) ktKey = true by decide +kernel)
  simp only [decide_eq_true_eq] at hlen hvlen hklen
  unfold verifySthB64 verifyingKeyFromB64 SignedTreeHead.verify SignedTreeHead.rootBytes
  rw [hK.decodeTo hk hklen, Option.filter_some, if_pos (hK.keyOk k), hK.decodeTo hr hlen,
    hK.decodeTo hv hvlen]
  dsimp only
  rw [hK.verifyStrict]
  refine List.any_eq_true.mpr ⟨_, hmade, ?_⟩
  simp [hk, hv, hr]

end MadeHeads

end Sona
