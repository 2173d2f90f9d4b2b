/-
# The log after a restart

A relay with a database writes every leaf of its log into one table, in the
order of the log (`append_kt_entry`, `append_kt_roster` in `server/src/db`), and
a restart reads the rows back and appends them again under the rules of a live
append (`AppState::persistent`). A row is plain JSON: an entry as it is, a
roster behind a tag.

`readRow_row` says that a row is read back as what was written. `Persisted` is
kept by every request and by the restart itself: the rows are the records of the
log, and replaying them on a fresh log skips none and gives the log back. So no
number of restarts changes a leaf (`replay_rebuilds_log`).

Key definitions: `KtRecord.row`, `readRow`, `replayRecords`, `persistent`, `lifeStep`, `Persisted`.
-/
import Sona.Lib.Json
import Sona.Lib.Trace
import Sona.Kt
import Sona.Db
import Sona.Durable
import Sona.Wake
import Sona.Relay
import Sona.Heads
import Sona.Run

namespace Sona

/-! ### Rows -/

def KtEntry.toJson (e : KtEntry) : Json :=
  .obj [("seq", .num e.seq), ("username_hash", .str e.usernameHash), ("identity_key", .str e.identityKey),
    ("signing_key", .str e.signingKey), ("prev_signing_key", .ofOptStr e.prevSigningKey),
    ("timestamp", .num e.timestamp), ("released", .bool e.released), ("signature", .str e.signature)]

/-- An entry of a JSON value: `prev_signing_key` may be missing, and so may
`released` in an old row. -/
def KtEntry.ofJson (j : Json) : Option KtEntry := do
  let seq ← (← j.field "seq").asNat
  let usernameHash ← (← j.field "username_hash").asStr
  let identityKey ← (← j.field "identity_key").asStr
  let signingKey ← (← j.field "signing_key").asStr
  let prevSigningKey ← ((← j.optField "prev_signing_key").getD .null).asOptStr
  let timestamp ← (← j.field "timestamp").asNat
  let released ← ((← j.optField "released").getD (.bool false)).asBool
  let signature ← (← j.field "signature").asStr
  some { seq, usernameHash, identityKey, signingKey, prevSigningKey, timestamp, released, signature }

def DeviceRecord.toJson (d : DeviceRecord) : Json :=
  .obj [("device_id", .str d.deviceId), ("identity_key", .str d.identityKey), ("signing_key", .str d.signingKey),
    ("added_at", .num d.addedAt), ("signature", .str d.signature)]

def DeviceRecord.ofJson (j : Json) : Option DeviceRecord := do
  let deviceId ← (← j.field "device_id").asStr
  let identityKey ← (← j.field "identity_key").asStr
  let signingKey ← (← j.field "signing_key").asStr
  let addedAt ← (← j.field "added_at").asNat
  let signature ← (← j.field "signature").asStr
  some { deviceId, identityKey, signingKey, addedAt, signature }

def KtRosterEntry.toJson (r : KtRosterEntry) : Json :=
  .obj [("seq", .num r.seq), ("username_hash", .str r.usernameHash),
    ("devices", .arr (r.devices.map DeviceRecord.toJson)), ("timestamp", .num r.timestamp),
    ("signature", .str r.signature)]

def KtRosterEntry.ofJson (j : Json) : Option KtRosterEntry := do
  let seq ← (← j.field "seq").asNat
  let usernameHash ← (← j.field "username_hash").asStr
  let devices ← Json.readAll DeviceRecord.ofJson (← (← j.field "devices").asArr)
  let timestamp ← (← j.field "timestamp").asNat
  let signature ← (← j.field "signature").asStr
  some { seq, usernameHash, devices, timestamp, signature }

/-- The row of a record: what `append_kt_entry` and `append_kt_roster` insert. -/
def KtRecord.row : KtRecord → Json
  | .binding e => e.toJson
  | .roster r => .obj [("roster", r.toJson)]

/-- A row of the table, tried as an entry first; a row that is neither is passed over. -/
def readRow (j : Json) : Option KtRecord :=
  match KtEntry.ofJson j with
  | some e => some (.binding e)
  | none => ((j.field "roster").bind KtRosterEntry.ofJson).map .roster

/-- The `json` column of the table, in the order of the rows. -/
def Db.ktRows (db : Db) : List Json := db.ktEntries.map KtRecord.row

def Db.loadKtRecords (db : Db) : List KtRecord := db.ktRows.filterMap readRow

theorem KtEntry.ofJson_toJson (e : KtEntry) : KtEntry.ofJson e.toJson = some e := by
  simp [KtEntry.ofJson, KtEntry.toJson, Json.field, Json.optField]

theorem DeviceRecord.ofJson_toJson (d : DeviceRecord) : DeviceRecord.ofJson d.toJson = some d := by
  simp [DeviceRecord.ofJson, DeviceRecord.toJson, Json.field, Json.optField]

theorem KtRosterEntry.ofJson_toJson (r : KtRosterEntry) :
    KtRosterEntry.ofJson r.toJson = some r := by
  simp [KtRosterEntry.ofJson, KtRosterEntry.toJson, Json.field, Json.optField,
    Json.readAll_map DeviceRecord.ofJson_toJson]

/-- A tagged roster has no sequence number of its own, so it is no entry. -/
theorem KtEntry.ofJson_tagged (v : Json) : KtEntry.ofJson (.obj [("roster", v)]) = none := by
  simp [KtEntry.ofJson, Json.field, Json.optField]

/-- **A row is read back as what was written.** -/
theorem readRow_row (r : KtRecord) : readRow r.row = some r := by
  cases r with
  | binding e => simp only [readRow, KtRecord.row, KtEntry.ofJson_toJson]
  | roster r =>
    have hfield : (Json.obj [("roster", r.toJson)]).field "roster" = some r.toJson := by
      simp [Json.field, Json.optField]
    simp only [readRow, KtRecord.row, KtEntry.ofJson_tagged, hfield, Option.bind_some,
      KtRosterEntry.ofJson_toJson, Option.map_some]

theorem Db.loadKtRecords_eq (db : Db) : db.loadKtRecords = db.ktEntries := by
  unfold Db.loadKtRecords Db.ktRows
  rw [List.filterMap_map, show readRow ∘ KtRecord.row = some from funext readRow_row,
    List.filterMap_some]

/-! ### Replay -/

/-- A record is appended under the rules of a live append. -/
def KtLog.appendRecord (C : Crypto) (kt : KtLog) : KtRecord → Except AppendError (ℕ × KtLog)
  | .binding entry => kt.append C entry
  | .roster roster => kt.appendRoster C roster

/-- A record that is refused is skipped, and its error noted. -/
def replayRecord (C : Crypto) (st : KtLog × List AppendError) (record : KtRecord) :
    KtLog × List AppendError :=
  match st.1.appendRecord C record with
  | .ok (_, kt) => (kt, st.2)
  | .error e => (st.1, st.2 ++ [e])

/-- The log that the records build, and the errors of those it skipped. -/
def replayRecords (C : Crypto) (kt : KtLog) (records : List KtRecord) : KtLog × List AppendError :=
  records.foldl (replayRecord C) (kt, [])

/-- An accepted record is put at the end, and the grace stays. -/
theorem KtLog.of_appendRecord {C : Crypto} {kt kt' : KtLog} {record : KtRecord} {i : ℕ}
    (h : kt.appendRecord C record = .ok (i, kt')) :
    kt'.records = kt.records ++ [record] ∧ kt'.releaseGraceSecs = kt.releaseGraceSecs := by
  cases record with
  | binding entry =>
    simp only [KtLog.appendRecord, KtLog.append] at h
    repeat' split at h
    all_goals cases h
    exact ⟨rfl, rfl⟩
  | roster roster =>
    obtain ⟨-, rfl⟩ := KtLog.appendRoster_cases h
    exact ⟨rfl, rfl⟩

/-- The log is what its records build on a fresh log, and none of them is skipped. -/
def Replays (C : Crypto) (grace : ℕ) (kt : KtLog) : Prop :=
  replayRecords C { releaseGraceSecs := grace } kt.records = (kt, [])

theorem replays_fresh (C : Crypto) (grace : ℕ) : Replays C grace { releaseGraceSecs := grace } :=
  rfl

/-- A record that a log accepts is accepted again behind the others. -/
theorem Replays.appendRecord {C : Crypto} {grace : ℕ} {kt kt' : KtLog} (h : Replays C grace kt)
    {record : KtRecord} {i : ℕ} (ha : kt.appendRecord C record = .ok (i, kt')) :
    Replays C grace kt' := by
  unfold Replays replayRecords at h ⊢
  rw [(KtLog.of_appendRecord ha).1, List.foldl_append, h]
  simp only [List.foldl_cons, List.foldl_nil, replayRecord, ha]

/-! ### The life of a relay -/

/-- `AppState::persistent`: what is expired is pruned, the log is replayed on
`kt` under the configured grace, the tables are loaded; everything else is new. -/
def persistent (R : Relay) (kt : KtLog) (db : Db) (t : ℕ) : Inner :=
  let db := db.pruneExpired t
  let kt := { kt with releaseGraceSecs := R.config.releaseGraceSecs }
  let kt := (replayRecords R.crypto kt db.loadKtRecords).1
  { directory := db.directory
    store := rebuild R.scan db t
    push := db.push.entries.foldl (fun push row => push.set row.1 { endpoint := row.2 }) ∅
    callKeys := db.callKeys
    kt := { kt with releaseGraceSecs := R.config.releaseGraceSecs }
    db := some db }

/-- The relay runs, or it is stopped and started again on its database. -/
inductive Life
  | event (e : Event)
  | restart (now : ℕ)

/-- At a restart the sockets and the pushes in flight are gone. -/
def lifeStep (R : Relay) (s : Sys) : Life → Sys
  | .event e => sysStep R s e
  | .restart now =>
    match s.inner.db with
    | some db => { inner := persistent R {} db now, next := s.next }
    | none => { start R none with next := s.next }

/-- A relay that was started at `t` on an empty database, after the events and restarts `ls`. -/
def lifeAfter (R : Relay) (t : ℕ) (ls : List Life) : Sys :=
  Trace.run (lifeStep R) { inner := persistent R {} {} t } ls

/-! ### What a request does to the log and its rows -/

/-- The log, and the rows of its table. -/
def Inner.ktSide (s : Inner) : KtLog × Option (List KtRecord) := (s.kt, s.db.map (·.ktEntries))

section frame

variable {R : Relay} {s : Inner}

/-- A step that leaves the log alone and runs a statement on another table. -/
theorem ktSide_of_db {s s' : Inner} {f : Db → Db} (hkt : s'.kt = s.kt) (hdb : s'.db = s.db.map f)
    (hf : ∀ db, (f db).ktEntries = db.ktEntries) : s'.ktSide = s.ktSide := by
  unfold Inner.ktSide
  rw [hkt, hdb, Option.map_map, show (fun db : Db => db.ktEntries) ∘ f = (·.ktEntries) from funext hf]

theorem ktSide_registerGate (client invite : Option String) (req : RegisterRequest) (now : ℕ) :
    (registerGate R s client invite req now).2.ktSide = s.ktSide := by
  obtain ⟨_, _, _, h⟩ := registerGate_frame (R := R) (s := s) client invite req now
  rw [h]
  rfl

theorem ktSide_burnInvite (s : Inner) (d : Option String) : (burnInvite s d).ktSide = s.ktSide := by
  unfold burnInvite
  split
  · rfl
  · split
    · exact ktSide_of_db rfl rfl fun _ => rfl
    · rfl

theorem ktSide_rosterGate (client : Option String) (roster : KtRosterEntry) (now : ℕ) :
    (rosterGate s client roster now).2.ktSide = s.ktSide := by
  unfold rosterGate
  dsimp only
  repeat' split
  all_goals rfl

theorem ktSide_mirrorDevice (hash : String) (s : Inner) (d : DeviceRecord) :
    (mirrorDevice R hash s d).ktSide = s.ktSide := by
  unfold mirrorDevice
  dsimp only
  repeat' split
  · rfl
  · rfl
  · rfl
  · exact ktSide_of_db rfl rfl fun _ => rfl

theorem ktSide_revokeDevice (hash : String) (keys : List String)
    (st : Inner × List (ChannelId × ServerFrame)) (dropped : String × String) :
    (revokeDevice R hash keys st dropped).1.ktSide = st.1.ktSide := by
  unfold revokeDevice
  dsimp only
  cases deviceMailboxHash R.crypto.sha hash dropped.1 with
  | none => rfl
  | some mailbox =>
    refine ktSide_of_db rfl rfl fun db => ?_
    split <;> rfl

/-- What every step of a loop keeps is kept by the loop. -/
theorem ktSide_foldl {α β : Type} {f : α → β → α} {g : α → Inner}
    (h : ∀ a b, (g (f a b)).ktSide = (g a).ktSide) : ∀ (bs : List β) (a : α),
    (g (bs.foldl f a)).ktSide = (g a).ktSide
  | [], _ => rfl
  | b :: bs, a => (ktSide_foldl h bs (f a b)).trans (h a b)

theorem ktSide_mirrorRoster (s : Inner) (previous : List (String × String))
    (roster : KtRosterEntry) :
    (mirrorRoster R s previous roster).1.ktSide = s.ktSide := by
  unfold mirrorRoster
  dsimp only
  rw [ktSide_foldl (g := Prod.fst) (ktSide_revokeDevice _ _)]
  exact ktSide_foldl (g := id) (ktSide_mirrorDevice _) _ _

theorem ktSide_consumeAndVerify (hash nonce : String) (message : Bytes) (signature : String)
    (t : ℕ) :
    (consumeAndVerify R s hash nonce message signature t).2.ktSide = s.ktSide := by
  unfold consumeAndVerify
  dsimp only
  repeat' split
  all_goals rfl

/-- What comes after a signature is checked leaves the log alone if it does so
where the check passes. -/
theorem ktSide_afterVerify (hash nonce : String) (message : Bytes) (signature : String) (t : ℕ)
    {accept : Inner → Response × Inner} (haccept : ∀ s, (accept s).2.ktSide = s.ktSide) :
    (match consumeAndVerify R s hash nonce message signature t with
      | (.error r, s) => (r, s)
      | (.ok (), s) => accept s).2.ktSide = s.ktSide := by
  have hv := ktSide_consumeAndVerify (R := R) (s := s) hash nonce message signature t
  rcases hverify : consumeAndVerify R s hash nonce message signature t with ⟨_ | _, s'⟩
  · rw [hverify] at hv
    exact hv
  · rw [hverify] at hv
    exact (haccept s').trans hv

theorem ktSide_publishCallKey (req : CallKeyPublishRequest) (t : ℕ) :
    (publishCallKey R s req t).2.ktSide = s.ktSide := by
  unfold publishCallKey
  dsimp only
  split
  · rfl
  split
  · rfl
  split
  · rfl
  split
  · rfl
  split
  · rfl
  refine ktSide_afterVerify req.hash req.nonce _ req.signature t fun s' => ?_
  split
  · rfl
  · exact ktSide_of_db rfl rfl fun _ => rfl

theorem ktSide_dropMailbox (st : Inner × List (ChannelId × ServerFrame)) (mb : String) :
    (dropMailbox st mb).1.ktSide = st.1.ktSide :=
  ktSide_of_db rfl rfl fun _ => rfl

theorem ktSide_deleteAccount (client : Option String) (req : AccountDeleteRequest) (now : ℕ) :
    (deleteAccount R s client req now).2.1.ktSide = s.ktSide := by
  unfold deleteAccount
  dsimp only
  split
  · rfl
  rename_i key
  split
  · rfl
  split
  · rfl
  split
  · rfl
  have hv := ktSide_consumeAndVerify (R := R)
    (s := (s.chargeAuth ("delete:" ++ key) now).2) req.hash req.nonce
    (accountDeleteSigningMessage req.hash req.aliasHashes req.nonce) req.signature now
  split
  · rename_i heq
    rw [heq] at hv
    exact hv
  rename_i heq
  rw [heq] at hv
  split
  · exact hv
  · exact (ktSide_foldl (g := Prod.fst) ktSide_dropMailbox _ _).trans hv

theorem ktSide_challenge (client : Option String) (hash nonce : String) (now : ℕ) :
    (challenge s client hash nonce now).2.ktSide = s.ktSide := by
  unfold challenge
  dsimp only
  repeat' split
  all_goals rfl

theorem ktSide_uploadOneTimeKeys (client : Option String) (req : OneTimeKeysRequest) (now : ℕ) :
    (uploadOneTimeKeys R s client req now).2.ktSide = s.ktSide := by
  unfold uploadOneTimeKeys
  dsimp only
  repeat' split
  · rfl
  · rfl
  · rfl
  · rfl
  · rfl
  · exact ktSide_of_db rfl rfl fun _ => rfl

theorem ktSide_fetchBundle (client : Option String) (hash : String) (t : ℕ) :
    (fetchBundle s client hash t).2.ktSide = s.ktSide := by
  unfold fetchBundle
  dsimp only
  split
  · rfl
  split
  · rfl
  split
  · rfl
  rename_i key _ _ entry _
  have htake : (mayConsume (s.chargeRate ("bundle:" ++ key) t).2 hash entry t).2.ktSide = s.ktSide := by
    unfold mayConsume
    dsimp only
    split <;> rfl
  rw [← htake]
  generalize mayConsume (s.chargeRate ("bundle:" ++ key) t).2 hash entry t = taken
  generalize (if taken.1 = true then entry.oneTimeKeys.head? else none) = consumed
  cases consumed with
  | none =>
    dsimp only [Option.or]
    split <;> rfl
  | some k => exact ktSide_of_db rfl rfl fun _ => rfl

theorem ktSide_pushRegister (req : PushRegisterRequest) (now : ℕ) :
    (pushRegister R s req now).2.ktSide = s.ktSide := by
  unfold pushRegister
  dsimp only
  split
  · rfl
  split
  · rfl
  exact ktSide_afterVerify req.hash req.nonce _ req.signature now fun _ => ktSide_of_db rfl rfl
    fun _ => rfl

theorem ktSide_pushUnregister (req : PushUnregisterRequest) (now : ℕ) :
    (pushUnregister R s req now).2.ktSide = s.ktSide := by
  unfold pushUnregister
  dsimp only
  split
  · rfl
  exact ktSide_afterVerify req.hash req.nonce _ req.signature now fun _ => ktSide_of_db rfl rfl
    fun _ => rfl

theorem ktSide_deadToken (recipient endpoint : String) :
    (deadToken s recipient endpoint).ktSide = s.ktSide := by
  unfold deadToken
  split
  · exact ktSide_of_db rfl rfl fun _ => rfl
  · rfl

theorem ktEntries_insertMessage (db : Db) (env : Envelope) (expiresAt : Option ℕ) :
    (db.insertMessage env expiresAt).ktEntries = db.ktEntries := by
  unfold Db.insertMessage
  split <;> rfl

theorem ktEntries_deleteMessages (target : String) : ∀ (ids : List String) (db : Db),
    (ids.foldl (fun db msgId => db.deleteMessage target msgId) db).ktEntries = db.ktEntries
  | [], _ => rfl
  | id :: ids, db => ktEntries_deleteMessages target ids (db.deleteMessage target id)

theorem ktEntries_queueMessage (store : MessageStore) (db : Option Db) (env : Envelope) (now : ℕ) :
    (queueMessage store db env now).2.2.map (·.ktEntries) = db.map (·.ktEntries) := by
  unfold queueMessage
  dsimp only
  split
  · rw [Option.map_map]
    refine congrArg (fun f => db.map f) (funext fun db => ?_)
    exact (ktEntries_deleteMessages _ _ _).trans (ktEntries_insertMessage _ _ _)
  · rfl

theorem ktSide_decideWake (env : Envelope) (live : List ChannelId) (t : ℕ) :
    (decideWake R s env live t).2.ktSide = s.ktSide := by
  unfold decideWake
  dsimp only
  repeat' split
  all_goals rfl

theorem ktSide_sendMessage (client : Option String) (env : Envelope) (t : ℕ) :
    (sendMessage R s client env t).2.1.ktSide = s.ktSide := by
  unfold sendMessage
  dsimp only
  split
  · rfl
  split
  · rfl
  have hq := ktEntries_queueMessage s.store s.db (env.clamped t) t
  split
  · rename_i heq
    change queueMessage s.store s.db (env.clamped t) t = _ at heq
    rw [heq] at hq
    exact Prod.ext rfl hq
  · rename_i heq
    change queueMessage s.store s.db (env.clamped t) t = _ at heq
    rw [heq] at hq
    exact Prod.ext rfl hq
  · rename_i heq
    change queueMessage s.store s.db (env.clamped t) t = _ at heq
    rw [heq] at hq
    exact (ktSide_decideWake _ _ _).trans (Prod.ext rfl hq)

theorem ktSide_authenticate (frame : AuthFrame) (now : ℕ) :
    (authenticate R s frame now).2.ktSide = s.ktSide := by
  unfold authenticate
  dsimp only
  repeat' split
  all_goals rfl

theorem ktSide_subscribe (hash : String) (channel : ChannelId) (now : ℕ) :
    (subscribe s hash channel now).2.ktSide = s.ktSide := by
  unfold subscribe
  dsimp only
  split <;> rfl

theorem ktSide_ackMessage (hash msgId : String) : (ackMessage s hash msgId).ktSide = s.ktSide := by
  unfold ackMessage
  dsimp only
  split
  · rfl
  · exact ktSide_of_db rfl rfl fun _ => rfl

theorem ktSide_releaseSlot (client : String) : (releaseSlot s client).ktSide = s.ktSide := by
  unfold releaseSlot
  split <;> rfl

theorem ktSide_claimSlot (client : String) : (claimSlot R s client).2.ktSide = s.ktSide := by
  unfold claimSlot
  dsimp only
  split <;> rfl

theorem ktSide_unsubscribe (hash : String) (channel : ChannelId) :
    (unsubscribe s hash channel).ktSide = s.ktSide := by
  unfold unsubscribe
  split <;> rfl

theorem ktSide_hangUp (s : Sys) (channel : ChannelId) (sock : Socket) (inner : Inner) :
    (hangUp s channel sock inner).inner.ktSide = inner.ktSide := by
  unfold hangUp
  dsimp only
  rw [ktSide_releaseSlot]
  split
  · exact ktSide_unsubscribe _ _
  · rfl

theorem ktSide_authSocket (s : Sys) (channel : ChannelId) (frame : AuthFrame) (now : ℕ) :
    (authSocket R s channel frame now).inner.ktSide = s.inner.ktSide := by
  have ha := ktSide_authenticate (R := R) (s := s.inner) frame now
  unfold authSocket
  split
  · rfl
  split
  · rfl
  split
  · rename_i heq
    rw [heq] at ha
    exact ha
  · rename_i heq
    rw [heq] at ha
    rw [ktSide_hangUp]
    exact ha

theorem ktSide_subscribeSocket (s : Sys) (channel : ChannelId) (now : ℕ) :
    (subscribeSocket s channel now).inner.ktSide = s.inner.ktSide := by
  unfold subscribeSocket
  split
  · rfl
  split
  · rfl
  split
  · rfl
  exact ktSide_subscribe _ _ _

theorem ktSide_ackSocket (s : Sys) (channel : ChannelId) (msgId : String) :
    (ackSocket s channel msgId).inner.ktSide = s.inner.ktSide := by
  unfold ackSocket
  repeat' split
  · rfl
  · rfl
  · exact ktSide_ackMessage _ _
  · rfl

theorem ktSide_connectSys (s : Sys) (client : String) (party : ℕ) :
    (connectSys R s client party).inner.ktSide = s.inner.ktSide := by
  have hc := ktSide_claimSlot (R := R) (s := s.inner) client
  unfold connectSys
  split
  all_goals
    rename_i heq
    rw [heq] at hc
    exact hc

end frame

/-- **What an event can do to the log and its rows.** Nothing; or a record is
appended to the log and put behind the rows. -/
inductive KtStep (C : Crypto) (side : KtLog × Option (List KtRecord)) :
    KtLog × Option (List KtRecord) → Prop
  | same : KtStep C side side
  | append {record : KtRecord} {i : ℕ} {kt : KtLog}
      (accepted : side.1.appendRecord C record = .ok (i, kt)) :
      KtStep C side (kt, side.2.map (· ++ [record]))

theorem KtStep.of_eq {C : Crypto} {side side' : KtLog × Option (List KtRecord)} (h : side' = side) :
    KtStep C side side' := by
  rw [h]
  exact .same

/-- The record that was appended to the log is inserted behind the rows. -/
theorem ktSide_written {s : Inner} {kt : KtLog} {rows : Option (List KtRecord)}
    (h : s.ktSide = (kt, rows)) {f : Db → Db} {r : KtRecord}
    (hf : ∀ db, (f db).ktEntries = db.ktEntries ++ [r]) :
    (s.withDb f).ktSide = (kt, rows.map (· ++ [r])) := by
  obtain ⟨hkt, hrows⟩ := Prod.mk.inj h
  refine Prod.ext hkt ?_
  change (s.db.map f).map (·.ktEntries) = rows.map (· ++ [r])
  rw [← hrows, Option.map_map, Option.map_map]
  exact congrArg (fun g => s.db.map g) (funext hf)

theorem ktStep_register (R : Relay) (s : Inner) (client invite : Option String)
    (req : RegisterRequest) (now : ℕ) :
    KtStep R.crypto s.ktSide (register R s client invite req now).2.ktSide := by
  have hg := ktSide_registerGate (R := R) (s := s) client invite req now
  unfold register
  split
  · rename_i heq
    rw [heq] at hg
    exact .of_eq hg
  rename_i consume s' heq
  rw [heq] at hg
  cases ha : s'.kt.append R.crypto req.entry with
  | error e => cases e <;> exact .of_eq hg
  | ok r =>
    obtain ⟨i, kt⟩ := r
    rw [← hg]
    have hburn : (burnInvite { s' with kt } consume).ktSide = (kt, s'.ktSide.2) :=
      ktSide_burnInvite _ _
    have hside := ktSide_written hburn (f := fun db => db.appendKtEntry req.entry)
      (r := .binding req.entry)
      fun _ => rfl
    have hstep : KtStep R.crypto s'.ktSide
        (kt, s'.ktSide.2.map (· ++ [KtRecord.binding req.entry])) :=
      .append (i := i) ha
    rw [← hside] at hstep
    dsimp only
    split
    · exact hstep
    · refine (congrArg (KtStep R.crypto s'.ktSide) ?_).mpr hstep
      exact ktSide_of_db rfl rfl fun _ => rfl

theorem ktStep_publishRoster (R : Relay) (s : Inner) (client : Option String)
    (roster : KtRosterEntry) (now : ℕ) :
    KtStep R.crypto s.ktSide (publishRoster R s client roster now).2.1.ktSide := by
  have hg := ktSide_rosterGate (s := s) client roster now
  unfold publishRoster
  split
  · rename_i heq
    rw [heq] at hg
    exact .of_eq hg
  rename_i s' heq
  rw [heq] at hg
  dsimp only
  cases ha : s'.kt.appendRoster R.crypto roster with
  | error e => cases e <;> exact .of_eq hg
  | ok r =>
    obtain ⟨i, kt⟩ := r
    rw [← hg]
    have hmirror :
        (mirrorRoster R { s' with kt } (previousDevices s' roster.usernameHash) roster).1.ktSide =
        (kt, s'.ktSide.2) := ktSide_mirrorRoster _ _ _
    have hside := ktSide_written hmirror (f := fun db => db.appendKtRoster roster)
      (r := .roster roster) fun _ => rfl
    have hstep : KtStep R.crypto s'.ktSide (kt, s'.ktSide.2.map (· ++ [KtRecord.roster roster])) :=
      .append (i := i) ha
    rwa [← hside] at hstep

theorem ktStep (R : Relay) (s : Sys) (e : Event) :
    KtStep R.crypto s.inner.ktSide (sysStep R s e).inner.ktSide := by
  cases e with
  | register client invite req now => exact ktStep_register R s.inner client invite req now
  | publishRoster client roster now => exact ktStep_publishRoster R s.inner client roster now
  | publishCallKey req now => exact .of_eq (ktSide_publishCallKey req now)
  | deleteAccount client req now => exact .of_eq (ktSide_deleteAccount client req now)
  | challenge client hash nonce now => exact .of_eq (ktSide_challenge client hash nonce now)
  | uploadOneTimeKeys client req now => exact .of_eq (ktSide_uploadOneTimeKeys client req now)
  | fetchBundle client hash now => exact .of_eq (ktSide_fetchBundle client hash now)
  | pushRegister req now => exact .of_eq (ktSide_pushRegister req now)
  | pushUnregister req now => exact .of_eq (ktSide_pushUnregister req now)
  | deadToken recipient endpoint => exact .of_eq (ktSide_deadToken recipient endpoint)
  | send client env now => exact .of_eq (ktSide_sendMessage client env now)
  | push i =>
    refine .of_eq ?_
    dsimp only [sysStep, pushSys]
    split <;> rfl
  | connect client party => exact .of_eq (ktSide_connectSys s client party)
  | auth channel frame now => exact .of_eq (ktSide_authSocket s channel frame now)
  | subscribe channel now => exact .of_eq (ktSide_subscribeSocket s channel now)
  | ack channel msgId => exact .of_eq (ktSide_ackSocket s channel msgId)
  | close channel =>
    refine .of_eq ?_
    dsimp only [sysStep]
    split
    · rfl
    · exact ktSide_hangUp s channel _ s.inner
  | reap now => exact .of_eq (ktSide_of_db rfl rfl fun _ => rfl)

/-! ### What the table keeps of the log -/

/-- The rows are the records of the log, and the log is what they build. -/
structure Persisted (R : Relay) (s : Inner) : Prop where
  rows : s.db.map (·.ktEntries) = some s.kt.records
  grace : s.kt.releaseGraceSecs = R.config.releaseGraceSecs
  replays : Replays R.crypto R.config.releaseGraceSecs s.kt

theorem Persisted.step {R : Relay} {s s' : Inner} (h : Persisted R s)
    (hs : KtStep R.crypto s.ktSide s'.ktSide) :
    Persisted R s' := by
  generalize hside : s'.ktSide = side' at hs
  obtain ⟨hkt, hrows⟩ := Prod.mk.inj hside
  cases hs with
  | same => exact ⟨by rw [hrows, hkt]; exact h.rows, by rw [hkt]; exact h.grace, by rw [hkt]; exact h.replays⟩
  | @append record i kt accepted =>
    have hold : s.ktSide.2 = some s.kt.records := h.rows
    obtain ⟨hrecords, hgrace⟩ := KtLog.of_appendRecord accepted
    refine ⟨?_, ?_, ?_⟩
    · rw [hrows, hkt, hold, hrecords]
      rfl
    · rw [hkt, hgrace]
      exact h.grace
    · rw [hkt]
      exact h.replays.appendRecord accepted

/-- A restart gives the log back. -/
theorem Persisted.kt_persistent {R : Relay} {s : Inner} (h : Persisted R s) {db : Db}
    (hdb : s.db = some db) (now : ℕ) :
    (persistent R {} db now).kt = s.kt := by
  have hrows : db.ktEntries = s.kt.records := by
    have := h.rows
    rwa [hdb, Option.map_some, Option.some.injEq] at this
  have hreplay := h.replays
  unfold Replays at hreplay
  unfold persistent
  dsimp only
  rw [Db.loadKtRecords_eq, show (db.pruneExpired now).ktEntries = s.kt.records from hrows, hreplay,
    ← h.grace]

theorem Persisted.restart {R : Relay} {s : Inner} (h : Persisted R s) {db : Db}
    (hdb : s.db = some db) (now : ℕ) :
    Persisted R (persistent R {} db now) := by
  have hkt := h.kt_persistent hdb now
  have hrows : (persistent R {} db now).db.map (·.ktEntries) = s.db.map (·.ktEntries) := by
    rw [hdb]
    rfl
  exact ⟨by rw [hrows, hkt]; exact h.rows, by rw [hkt]; exact h.grace, by rw [hkt]; exact h.replays⟩

theorem persisted_life (R : Relay) (t : ℕ) (ls : List Life) :
    Persisted R (lifeAfter R t ls).inner := by
  refine Trace.run_inv (I := fun s : Sys => Persisted R s.inner) (fun s l h => ?_) ?_ ls
  · cases l with
    | event e => exact h.step (ktStep R s e)
    | restart now =>
      cases hdb : s.inner.db with
      | none =>
        have := h.rows
        rw [hdb] at this
        cases this
      | some db =>
        dsimp only [lifeStep]
        rw [hdb]
        exact h.restart hdb now
  · exact ⟨rfl, rfl, replays_fresh _ _⟩

/-! ### Heads -/

/-- The head of the log. -/
def KtLog.sth (S : HeadSigner) (kt : KtLog) (now : ℕ) : SignedTreeHead :=
  SignedTreeHead.create S kt.tree.length (S.root kt.tree) now

/-- The head that the log had when it had `size` leaves. -/
def KtLog.sthAt (S : HeadSigner) (kt : KtLog) (size now : ℕ) : SignedTreeHead :=
  { kt with tree := kt.tree.take size }.sth S now

/-- The startup path on the database `db`: every stored record is loaded in its
order and accepted, and the log that comes out is `kt` in its records, its indices,
its leaves and the heads of every size. -/
structure Rebuilds (R : Relay) (db : Db) (kt : KtLog) : Prop where
  loaded : db.loadKtRecords = kt.records
  accepted : (replayRecords R.crypto { releaseGraceSecs := R.config.releaseGraceSecs } db.loadKtRecords).2 = []
  records : ∀ now, (persistent R {} db now).kt.records = kt.records
  byUser : ∀ now u, (persistent R {} db now).kt.bindingIndices u = kt.bindingIndices u
  rostersByUser : ∀ now u, (persistent R {} db now).kt.rosterIndices u = kt.rosterIndices u
  leaves : ∀ now, (persistent R {} db now).kt.tree = kt.tree
  heads : ∀ now S size t, (persistent R {} db now).kt.sthAt S size t = kt.sthAt S size t

/-- **Replay.** Whatever was requested of a relay with a database and however
often it was started again, the rows of the log rebuild the log. -/
theorem replay_rebuilds_log (R : Relay) (t : ℕ) (ls : List Life) :
    ∃ db, (lifeAfter R t ls).inner.db = some db ∧ Rebuilds R db (lifeAfter R t ls).inner.kt := by
  have h := persisted_life R t ls
  obtain ⟨db, hdb, hrows⟩ := Option.map_eq_some_iff.mp h.rows
  refine ⟨db, hdb, ?_⟩
  have hload : db.loadKtRecords = (lifeAfter R t ls).inner.kt.records := by
    rw [Db.loadKtRecords_eq, hrows]
  have hkt := h.kt_persistent hdb
  constructor
  · exact hload
  · rw [hload]
    exact congrArg Prod.snd h.replays
  all_goals
    intro now
    rw [hkt now]
  · exact fun _ => rfl
  · exact fun _ => rfl
  · exact fun _ _ _ => rfl

end Sona
