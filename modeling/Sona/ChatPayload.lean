/-
# What travels inside the ratchet

`ChatPayload` of `client-core/src/wire/mod.rs`: the payload of a ciphertext, of
forty-six shapes. As JSON a payload is an object whose field `t` names the shape;
fields that came later have a default, so that what an older client wrote is still
read. The ten shapes of calls are the same in the payload and in the event it
becomes, and stand in a type of their own (`CallSignal`).

What a client writes is read back as it was, whatever the shape, and so is what an
older or a newer client may have written for it: with the later fields left out,
with fields that are not known yet, in any order (`ChatPayload.payload_compatible`).
The relay is told two things of a payload: how urgent it is (`wakeClassFor`) and,
for calls only, when it is stale (`envelopeExpiryFor`).

Records are read from objects only, not from the arrays that serde takes as well.

Key definitions: `ChatPayload`, `CallSignal`, `ChatPayload.shape`, `ChatPayload.toJson`,
`ChatPayload.ofJson`.
-/
import Sona.Capsules
import Sona.History
import Sona.Lib.JsonRecord
import Sona.Replay

namespace Sona

/-! ### Calls -/

structure CallOfferV2 where
  callInstanceId : String
  offerId : String
  callId : String
  keyB64 : String
  createdAt : ℕ
  ringExpiresAt : ℕ
  expiresAt : ℕ
  username : String
  callerDeviceId : String
  replyToMailbox : String
  caps : List String
  /-- Not empty where a call goes on in a new room. -/
  resumeOf : String

structure CallAnswerClaimV2 where
  callInstanceId : String
  offerId : String
  claimNonce : String
  answeringDeviceId : String
  replyToMailbox : String
  caps : List String
  expiresAt : ℕ

structure CallWinnerV2 where
  callInstanceId : String
  offerId : String
  claimNonce : String
  winnerDeviceId : String
  expiresAt : ℕ

structure CallBusyV2 where
  callInstanceId : String
  offerId : String
  deviceId : String
  expiresAt : ℕ

structure CallTerminalV2 where
  callInstanceId : String
  offerId : String
  reason : CallTerminalReason
  username : String
  actorDeviceId : String
  expiresAt : ℕ

structure GroupCallOfferV2 where
  groupId : String
  callInstanceId : String
  ringId : String
  offerId : String
  callId : String
  keyB64 : String
  createdAt : ℕ
  ringExpiresAt : ℕ
  expiresAt : ℕ
  username : String
  callerDeviceId : String
  coordinatorUsername : String
  coordinatorIdentityKey : String
  coordinatorDeviceId : String
  coordinatorReplyToMailbox : String
  resume : Bool

structure GroupCallAnswerClaimV2 where
  groupId : String
  callInstanceId : String
  ringId : String
  claimNonce : String
  answeringDeviceId : String
  replyToMailbox : String
  expiresAt : ℕ

structure GroupCallWinnerV2 where
  groupId : String
  callInstanceId : String
  ringId : String
  claimNonce : String
  winnerDeviceId : String
  expiresAt : ℕ

structure GroupCallTerminalV2 where
  groupId : String
  callInstanceId : String
  ringId : String
  reason : CallTerminalReason
  actorDeviceId : String
  coordinatorUsername : String
  coordinatorIdentityKey : String
  coordinatorDeviceId : String
  expiresAt : ℕ

structure SelfCallTerminalV2 where
  callInstanceId : String
  offerId : String
  reason : CallTerminalReason
  actorDeviceId : String
  expiresAt : ℕ

inductive CallSignal
  | callOfferV2 (s : CallOfferV2)
  | callAnswerClaimV2 (s : CallAnswerClaimV2)
  | callWinnerV2 (s : CallWinnerV2)
  | callBusyV2 (s : CallBusyV2)
  | callTerminalV2 (s : CallTerminalV2)
  | groupCallOfferV2 (s : GroupCallOfferV2)
  | groupCallAnswerClaimV2 (s : GroupCallAnswerClaimV2)
  | groupCallWinnerV2 (s : GroupCallWinnerV2)
  | groupCallTerminalV2 (s : GroupCallTerminalV2)
  | selfCallTerminalV2 (s : SelfCallTerminalV2)

def CallSignal.expiresAt : CallSignal → ℕ
  | callOfferV2 s => s.expiresAt
  | callAnswerClaimV2 s => s.expiresAt
  | callWinnerV2 s => s.expiresAt
  | callBusyV2 s => s.expiresAt
  | callTerminalV2 s => s.expiresAt
  | groupCallOfferV2 s => s.expiresAt
  | groupCallAnswerClaimV2 s => s.expiresAt
  | groupCallWinnerV2 s => s.expiresAt
  | groupCallTerminalV2 s => s.expiresAt
  | selfCallTerminalV2 s => s.expiresAt

/-! ### Payloads -/

/-- `username` is the field `from` of the wire format. -/
inductive ChatPayload
  | text (body : String) (ts : ℕ) (username : String) (reply : Option ReplyRef)
      (expireSecs : Option ℕ) (fwd : Bool)
  | edit (msgId body : String)
  | deleteMsg (msgId : String)
  | timer (secs : Option ℕ)
  | file (attachment : AttachmentRef) (username : String) (expireSecs : Option ℕ) (fwd : Bool)
  | deleteChat
  | knock (username : String)
  | receipt (ids : List String) (seen : Bool)
  | gossip (head : SignedTreeHead)
  | groupRoster (epoch : GroupEpoch) (name : String) (disappearingSecs : Option ℕ)
      (avatar : Option String)
  | groupText (groupId body : String) (ts : ℕ) (expireSecs : Option ℕ) (reply : Option ReplyRef)
      (fwd : Bool)
  | groupEdit (groupId msgId body : String)
  | groupDeleteMsg (groupId msgId : String)
  | groupRename (groupId name : String)
  | groupLeave (groupId : String)
  | groupFile (groupId : String) (attachment : AttachmentRef) (ts : ℕ) (expireSecs : Option ℕ)
      (fwd : Bool)
  | groupTimer (groupId : String) (secs : Option ℕ)
  | rename (newUsername : String)
  | profile (avatar : Option String)
  | groupAvatar (groupId : String) (avatar : Option String)
  | call (signal : CallSignal)
  | selfText (peerKey peerUsername msgId body : String) (ts : ℕ) (reply : Option ReplyRef)
      (expireSecs : Option ℕ)
      (fwd : Bool)
  | selfFile (peerKey peerUsername msgId : String) (attachment : AttachmentRef)
      (expireSecs : Option ℕ) (fwd : Bool)
  | selfSeen (peerKey : String) (ids : List String)
  | syncRequest (provisioningId linkSecretB64 : String)
  | primaryTransfer (entry : KtEntry) (demoted : DeviceRecord)
  | forwardIncoming (fromKey fromUsername msgId body : String) (ts : ℕ) (reply : Option ReplyRef)
      (attachment : Option AttachmentRef) (expireSecs : Option ℕ)
  | reaction (targetMsgId emoji : String) (add : Bool) (ts : ℕ)
  | selfReaction (peerKey targetMsgId emoji : String) (add : Bool)
  | selfTimer (peerKey : String) (secs : Option ℕ)
  | selfProfile (avatar : Option String)
  | groupReaction (groupId targetMsgId emoji : String) (add : Bool) (ts : ℕ)
  | pinMsg (msgId : String) (pin : Bool)
  | selfPinMsg (peerKey msgId : String) (pin : Bool)
  | groupPinMsg (groupId msgId : String) (pin : Bool)
  | typing (on : Bool)
  | groupTyping (groupId : String) (on : Bool)

/-! ### Fields -/

section fields

open JsonCodec JsonField JsonRecord

def strField (name : String) : JsonField String := required name str
def strsField (name : String) : JsonField (List String) := required name str.list
def u64Field (name : String) : JsonField ℕ := required name (uint u64Max)
def boolField (name : String) : JsonField Bool := required name bool

/-- The field `from`, which the first clients did not write. -/
def fromField : JsonField String := defaulted "from" str ""
def fwdField : JsonField Bool := defaulted "fwd" bool false

/-- A number of seconds that may be missing or `null`. -/
def secsField (name : String) : JsonField (Option ℕ) :=
  defaulted name ((uint u64Max).option (fun _ => nofun)) none
def avatarField : JsonField (Option String) := defaulted "avatar" (str.option (fun _ => nofun)) none

def replyRefRecord : JsonRecord (String × String × Unit) :=
  .cons (strField "msg_id") <| .cons (strField "preview") .nil

def replyRefCodec : JsonCodec ReplyRef :=
  (replyRefRecord.codec (by decide)).map (fun r => ⟨r.1, r.2.1⟩) (fun r => (r.msgId, r.preview, ())) fun _ => rfl

def replyField : JsonField (Option ReplyRef) :=
  defaulted "reply" (replyRefCodec.option (fun _ => nofun)) none

/-- The fields from `voice` on came later; an empty caption and empty peaks are not written. -/
def attachmentRecord :
    JsonRecord (String × String × String × ℕ × String × ℕ × Bool × ℕ × Option String × List ℕ × Unit) :=
  .cons (strField "blob_id") <| .cons (strField "key") <| .cons (strField "filename") <| .cons (u64Field "size") <|
    .cons (strField "content_hash") <| .cons (u64Field "ts") <| .cons (defaulted "voice" bool false) <|
    .cons (defaulted "duration_secs" (uint (2 ^ 32 - 1)) 0) <|
    .cons (skipped "caption" (str.option (fun _ => nofun)) none) <| .cons (skipped "peaks" (uint 255).list []) .nil

def attachmentCodec : JsonCodec AttachmentRef :=
  (attachmentRecord.codec (by decide)).map
    (fun (blobId, key, filename, size, contentHash, ts, voice, durationSecs, caption, peaks, ()) =>
      { blobId, key, filename, size, contentHash, ts, voice, durationSecs, caption, peaks })
    (fun a => (a.blobId, a.key, a.filename, a.size, a.contentHash, a.ts, a.voice, a.durationSecs, a.caption, a.peaks, ()))
    fun _ => rfl

def attachmentField : JsonField AttachmentRef := required "attachment" attachmentCodec

def headRecord : JsonRecord (ℕ × String × ℕ × String × Unit) :=
  .cons (u64Field "tree_size") <| .cons (strField "root_b64") <| .cons (u64Field "timestamp") <|
    .cons (strField "signature_b64") .nil

def headCodec : JsonCodec SignedTreeHead :=
  (headRecord.codec (by decide)).map (fun (treeSize, rootB64, timestamp, signatureB64, ()) =>
    { treeSize, rootB64, timestamp, signatureB64 }) (fun h => (h.treeSize, h.rootB64, h.timestamp, h.signatureB64, ()))
    fun _ => rfl

def memberRecord : JsonRecord (String × String × Unit) :=
  .cons (strField "username") <| .cons (strField "identity_key") .nil

def memberCodec : JsonCodec GroupMemberEntry :=
  (memberRecord.codec (by decide)).map (fun (username, identityKey, ()) => { username, identityKey })
    (fun m => (m.username, m.identityKey, ())) fun _ => rfl

def epochRecord :
    JsonRecord (String × ℕ × List GroupMemberEntry × String × String × Option String × ℕ × String × Unit) :=
  .cons (strField "group_id") <| .cons (u64Field "seq") <| .cons (required "members" memberCodec.list) <|
    .cons (strField "admin_key") <| .cons (strField "admin_identity_key") <|
    .cons (defaulted "prev_admin_key" (str.option (fun _ => nofun)) none) <| .cons (u64Field "timestamp") <|
    .cons (strField "signature") .nil

def epochCodec : JsonCodec GroupEpoch :=
  (epochRecord.codec (by decide)).map
    (fun (groupId, seq, members, adminKey, adminIdentityKey, prevAdminKey, timestamp, signature, ()) =>
      { groupId, seq, members, adminKey, adminIdentityKey, prevAdminKey, timestamp, signature })
    (fun e => (e.groupId, e.seq, e.members, e.adminKey, e.adminIdentityKey, e.prevAdminKey, e.timestamp, e.signature, ()))
    fun _ => rfl

def ktEntryCodec : JsonCodec KtEntry where
  write := KtEntry.toJson
  read := KtEntry.ofJson
  ok _ := True
  read_write e _ := KtEntry.ofJson_toJson e

def deviceRecordCodec : JsonCodec DeviceRecord where
  write := DeviceRecord.toJson
  read := DeviceRecord.ofJson
  ok _ := True
  read_write d _ := DeviceRecord.ofJson_toJson d

def reasonCodec : JsonCodec CallTerminalReason :=
  text CallTerminalReason.text CallTerminalReason.ofText fun r => by cases r <;> rfl

def reasonField : JsonField CallTerminalReason := required "reason" reasonCodec

end fields

/-! ### Shapes -/

namespace Shape

open JsonRecord

def textMsg : JsonVariant ChatPayload where
  tag := "text"
  record := .cons (strField "body") <| .cons (u64Field "ts") <| .cons fromField <| .cons replyField <|
    .cons (secsField "expire_secs") <| .cons fwdField .nil
  make := fun (body, ts, username, reply, expireSecs, fwd, ()) => .text body ts username reply expireSecs fwd

def edit : JsonVariant ChatPayload where
  tag := "edit"
  record := .cons (strField "msg_id") <| .cons (strField "body") .nil
  make := fun (msgId, body, ()) => .edit msgId body

def deleteMsg : JsonVariant ChatPayload where
  tag := "delete_msg"
  record := .cons (strField "msg_id") .nil
  make := fun (msgId, ()) => .deleteMsg msgId

def timer : JsonVariant ChatPayload where
  tag := "timer"
  record := .cons (secsField "secs") .nil
  make := fun (secs, ()) => .timer secs

def file : JsonVariant ChatPayload where
  tag := "file"
  record := .cons attachmentField <| .cons fromField <| .cons (secsField "expire_secs") <| .cons fwdField .nil
  make := fun (attachment, username, expireSecs, fwd, ()) => .file attachment username expireSecs fwd

def deleteChat : JsonVariant ChatPayload where
  tag := "delete_chat"
  record := .nil
  make := fun () => .deleteChat

def knock : JsonVariant ChatPayload where
  tag := "knock"
  record := .cons (strField "from") .nil
  make := fun (username, ()) => .knock username

def receipt : JsonVariant ChatPayload where
  tag := "receipt"
  record := .cons (strsField "ids") <| .cons (boolField "seen") .nil
  make := fun (ids, seen, ()) => .receipt ids seen

def gossip : JsonVariant ChatPayload where
  tag := "gossip"
  record := .cons (.required "head" headCodec) .nil
  make := fun (head, ()) => .gossip head

def groupRoster : JsonVariant ChatPayload where
  tag := "group_roster"
  record := .cons (.required "epoch" epochCodec) <| .cons (strField "name") <| .cons (secsField "disappearing_secs") <|
    .cons avatarField .nil
  make := fun (epoch, name, disappearingSecs, avatar, ()) => .groupRoster epoch name disappearingSecs avatar

def groupText : JsonVariant ChatPayload where
  tag := "group_text"
  record := .cons (strField "group_id") <| .cons (strField "body") <| .cons (u64Field "ts") <|
    .cons (secsField "expire_secs") <| .cons replyField <| .cons fwdField .nil
  make := fun (groupId, body, ts, expireSecs, reply, fwd, ()) => .groupText groupId body ts expireSecs reply fwd

def groupEdit : JsonVariant ChatPayload where
  tag := "group_edit"
  record := .cons (strField "group_id") <| .cons (strField "msg_id") <| .cons (strField "body") .nil
  make := fun (groupId, msgId, body, ()) => .groupEdit groupId msgId body

def groupDeleteMsg : JsonVariant ChatPayload where
  tag := "group_delete_msg"
  record := .cons (strField "group_id") <| .cons (strField "msg_id") .nil
  make := fun (groupId, msgId, ()) => .groupDeleteMsg groupId msgId

def groupRename : JsonVariant ChatPayload where
  tag := "group_rename"
  record := .cons (strField "group_id") <| .cons (strField "name") .nil
  make := fun (groupId, name, ()) => .groupRename groupId name

def groupLeave : JsonVariant ChatPayload where
  tag := "group_leave"
  record := .cons (strField "group_id") .nil
  make := fun (groupId, ()) => .groupLeave groupId

def groupFile : JsonVariant ChatPayload where
  tag := "group_file"
  record := .cons (strField "group_id") <| .cons attachmentField <| .cons (u64Field "ts") <|
    .cons (secsField "expire_secs") <| .cons fwdField .nil
  make := fun (groupId, attachment, ts, expireSecs, fwd, ()) => .groupFile groupId attachment ts expireSecs fwd

def groupTimer : JsonVariant ChatPayload where
  tag := "group_timer"
  record := .cons (strField "group_id") <| .cons (secsField "secs") .nil
  make := fun (groupId, secs, ()) => .groupTimer groupId secs

def rename : JsonVariant ChatPayload where
  tag := "rename"
  record := .cons (strField "new_username") .nil
  make := fun (newUsername, ()) => .rename newUsername

def profile : JsonVariant ChatPayload where
  tag := "profile"
  record := .cons avatarField .nil
  make := fun (avatar, ()) => .profile avatar

def groupAvatar : JsonVariant ChatPayload where
  tag := "group_avatar"
  record := .cons (strField "group_id") <| .cons avatarField .nil
  make := fun (groupId, avatar, ()) => .groupAvatar groupId avatar

def callOfferV2 : JsonVariant ChatPayload where
  tag := "call_offer_v2"
  record := .cons (strField "call_instance_id") <| .cons (strField "offer_id") <| .cons (strField "call_id") <|
    .cons (strField "key_b64") <| .cons (u64Field "created_at") <| .cons (u64Field "ring_expires_at") <|
    .cons (u64Field "expires_at") <| .cons (strField "from") <| .cons (strField "caller_device_id") <|
    .cons (strField "reply_to_mailbox") <| .cons (strsField "caps") <| .cons (strField "resume_of") .nil
  make := fun (callInstanceId, offerId, callId, keyB64, createdAt, ringExpiresAt, expiresAt, username, callerDeviceId,
      replyToMailbox, caps, resumeOf, ()) =>
    .call (.callOfferV2 { callInstanceId, offerId, callId, keyB64, createdAt, ringExpiresAt, expiresAt, username
                          callerDeviceId, replyToMailbox, caps, resumeOf })

def callAnswerClaimV2 : JsonVariant ChatPayload where
  tag := "call_answer_claim_v2"
  record := .cons (strField "call_instance_id") <| .cons (strField "offer_id") <| .cons (strField "claim_nonce") <|
    .cons (strField "answering_device_id") <| .cons (strField "reply_to_mailbox") <| .cons (strsField "caps") <|
    .cons (u64Field "expires_at") .nil
  make := fun (callInstanceId, offerId, claimNonce, answeringDeviceId, replyToMailbox, caps, expiresAt, ()) =>
    .call (.callAnswerClaimV2 { callInstanceId, offerId, claimNonce, answeringDeviceId, replyToMailbox, caps
                                expiresAt })

def callWinnerV2 : JsonVariant ChatPayload where
  tag := "call_winner_v2"
  record := .cons (strField "call_instance_id") <| .cons (strField "offer_id") <| .cons (strField "claim_nonce") <|
    .cons (strField "winner_device_id") <| .cons (u64Field "expires_at") .nil
  make := fun (callInstanceId, offerId, claimNonce, winnerDeviceId, expiresAt, ()) =>
    .call (.callWinnerV2 { callInstanceId, offerId, claimNonce, winnerDeviceId, expiresAt })

def callBusyV2 : JsonVariant ChatPayload where
  tag := "call_busy_v2"
  record := .cons (strField "call_instance_id") <| .cons (strField "offer_id") <| .cons (strField "device_id") <|
    .cons (u64Field "expires_at") .nil
  make := fun (callInstanceId, offerId, deviceId, expiresAt, ()) =>
    .call (.callBusyV2 { callInstanceId, offerId, deviceId, expiresAt })

def callTerminalV2 : JsonVariant ChatPayload where
  tag := "call_terminal_v2"
  record := .cons (strField "call_instance_id") <| .cons (strField "offer_id") <| .cons reasonField <|
    .cons (strField "from") <| .cons (strField "actor_device_id") <| .cons (u64Field "expires_at") .nil
  make := fun (callInstanceId, offerId, reason, username, actorDeviceId, expiresAt, ()) =>
    .call (.callTerminalV2 { callInstanceId, offerId, reason, username, actorDeviceId, expiresAt })

def groupCallOfferV2 : JsonVariant ChatPayload where
  tag := "group_call_offer_v2"
  record := .cons (strField "group_id") <| .cons (strField "call_instance_id") <| .cons (strField "ring_id") <|
    .cons (strField "offer_id") <| .cons (strField "call_id") <| .cons (strField "key_b64") <|
    .cons (u64Field "created_at") <| .cons (u64Field "ring_expires_at") <| .cons (u64Field "expires_at") <|
    .cons (strField "from") <| .cons (strField "caller_device_id") <| .cons (strField "coordinator_username") <|
    .cons (strField "coordinator_identity_key") <| .cons (strField "coordinator_device_id") <|
    .cons (strField "coordinator_reply_to_mailbox") <| .cons (boolField "resume") .nil
  make := fun (groupId, callInstanceId, ringId, offerId, callId, keyB64, createdAt, ringExpiresAt, expiresAt, username,
      callerDeviceId, coordinatorUsername, coordinatorIdentityKey, coordinatorDeviceId, coordinatorReplyToMailbox,
      resume, ()) =>
    .call (.groupCallOfferV2 { groupId, callInstanceId, ringId, offerId, callId, keyB64, createdAt, ringExpiresAt
                               expiresAt, username, callerDeviceId, coordinatorUsername, coordinatorIdentityKey
                               coordinatorDeviceId, coordinatorReplyToMailbox, resume })

def groupCallAnswerClaimV2 : JsonVariant ChatPayload where
  tag := "group_call_answer_claim_v2"
  record := .cons (strField "group_id") <| .cons (strField "call_instance_id") <| .cons (strField "ring_id") <|
    .cons (strField "claim_nonce") <| .cons (strField "answering_device_id") <|
    .cons (strField "reply_to_mailbox") <| .cons (u64Field "expires_at") .nil
  make := fun (groupId, callInstanceId, ringId, claimNonce, answeringDeviceId, replyToMailbox, expiresAt, ()) =>
    .call (.groupCallAnswerClaimV2 { groupId, callInstanceId, ringId, claimNonce, answeringDeviceId, replyToMailbox
                                     expiresAt })

def groupCallWinnerV2 : JsonVariant ChatPayload where
  tag := "group_call_winner_v2"
  record := .cons (strField "group_id") <| .cons (strField "call_instance_id") <| .cons (strField "ring_id") <|
    .cons (strField "claim_nonce") <| .cons (strField "winner_device_id") <| .cons (u64Field "expires_at") .nil
  make := fun (groupId, callInstanceId, ringId, claimNonce, winnerDeviceId, expiresAt, ()) =>
    .call (.groupCallWinnerV2 { groupId, callInstanceId, ringId, claimNonce, winnerDeviceId, expiresAt })

def groupCallTerminalV2 : JsonVariant ChatPayload where
  tag := "group_call_terminal_v2"
  record := .cons (strField "group_id") <| .cons (strField "call_instance_id") <| .cons (strField "ring_id") <|
    .cons reasonField <| .cons (strField "actor_device_id") <| .cons (strField "coordinator_username") <|
    .cons (strField "coordinator_identity_key") <| .cons (strField "coordinator_device_id") <|
    .cons (u64Field "expires_at") .nil
  make := fun (groupId, callInstanceId, ringId, reason, actorDeviceId, coordinatorUsername, coordinatorIdentityKey,
      coordinatorDeviceId, expiresAt, ()) =>
    .call (.groupCallTerminalV2 { groupId, callInstanceId, ringId, reason, actorDeviceId, coordinatorUsername
                                  coordinatorIdentityKey, coordinatorDeviceId, expiresAt })

def selfCallTerminalV2 : JsonVariant ChatPayload where
  tag := "self_call_terminal_v2"
  record := .cons (strField "call_instance_id") <| .cons (strField "offer_id") <| .cons reasonField <|
    .cons (strField "actor_device_id") <| .cons (u64Field "expires_at") .nil
  make := fun (callInstanceId, offerId, reason, actorDeviceId, expiresAt, ()) =>
    .call (.selfCallTerminalV2 { callInstanceId, offerId, reason, actorDeviceId, expiresAt })

def selfText : JsonVariant ChatPayload where
  tag := "self_text"
  record := .cons (strField "peer_key") <| .cons (.defaulted "peer_username" .str "") <| .cons (strField "msg_id") <|
    .cons (strField "body") <| .cons (u64Field "ts") <| .cons replyField <| .cons (secsField "expire_secs") <|
    .cons fwdField .nil
  make := fun (peerKey, peerUsername, msgId, body, ts, reply, expireSecs, fwd, ()) =>
    .selfText peerKey peerUsername msgId body ts reply expireSecs fwd

def selfFile : JsonVariant ChatPayload where
  tag := "self_file"
  record := .cons (strField "peer_key") <| .cons (.defaulted "peer_username" .str "") <| .cons (strField "msg_id") <|
    .cons attachmentField <| .cons (secsField "expire_secs") <| .cons fwdField .nil
  make := fun (peerKey, peerUsername, msgId, attachment, expireSecs, fwd, ()) =>
    .selfFile peerKey peerUsername msgId attachment expireSecs fwd

def selfSeen : JsonVariant ChatPayload where
  tag := "self_seen"
  record := .cons (strField "peer_key") <| .cons (strsField "ids") .nil
  make := fun (peerKey, ids, ()) => .selfSeen peerKey ids

def syncRequest : JsonVariant ChatPayload where
  tag := "sync_request"
  record := .cons (strField "provisioning_id") <| .cons (strField "link_secret_b64") .nil
  make := fun (provisioningId, linkSecretB64, ()) => .syncRequest provisioningId linkSecretB64

def primaryTransfer : JsonVariant ChatPayload where
  tag := "primary_transfer"
  record := .cons (.required "entry" ktEntryCodec) <| .cons (.required "demoted" deviceRecordCodec) .nil
  make := fun (entry, demoted, ()) => .primaryTransfer entry demoted

def forwardIncoming : JsonVariant ChatPayload where
  tag := "forward_incoming"
  record := .cons (strField "from_key") <| .cons (.defaulted "from_username" .str "") <| .cons (strField "msg_id") <|
    .cons (strField "body") <| .cons (u64Field "ts") <| .cons replyField <|
    .cons (.defaulted "attachment" (attachmentCodec.option (fun _ => nofun)) none) <|
    .cons (secsField "expire_secs") .nil
  make := fun (fromKey, fromUsername, msgId, body, ts, reply, attachment, expireSecs, ()) =>
    .forwardIncoming fromKey fromUsername msgId body ts reply attachment expireSecs

def reaction : JsonVariant ChatPayload where
  tag := "reaction"
  record := .cons (strField "target_msg_id") <| .cons (strField "emoji") <| .cons (boolField "add") <|
    .cons (u64Field "ts") .nil
  make := fun (targetMsgId, emoji, add, ts, ()) => .reaction targetMsgId emoji add ts

def selfReaction : JsonVariant ChatPayload where
  tag := "self_reaction"
  record := .cons (strField "peer_key") <| .cons (strField "target_msg_id") <| .cons (strField "emoji") <|
    .cons (boolField "add") .nil
  make := fun (peerKey, targetMsgId, emoji, add, ()) => .selfReaction peerKey targetMsgId emoji add

def selfTimer : JsonVariant ChatPayload where
  tag := "self_timer"
  record := .cons (strField "peer_key") <| .cons (secsField "secs") .nil
  make := fun (peerKey, secs, ()) => .selfTimer peerKey secs

def selfProfile : JsonVariant ChatPayload where
  tag := "self_profile"
  record := .cons avatarField .nil
  make := fun (avatar, ()) => .selfProfile avatar

def groupReaction : JsonVariant ChatPayload where
  tag := "group_reaction"
  record := .cons (strField "group_id") <| .cons (strField "target_msg_id") <| .cons (strField "emoji") <|
    .cons (boolField "add") <| .cons (u64Field "ts") .nil
  make := fun (groupId, targetMsgId, emoji, add, ts, ()) => .groupReaction groupId targetMsgId emoji add ts

def pinMsg : JsonVariant ChatPayload where
  tag := "pin_msg"
  record := .cons (strField "msg_id") <| .cons (boolField "pin") .nil
  make := fun (msgId, pin, ()) => .pinMsg msgId pin

def selfPinMsg : JsonVariant ChatPayload where
  tag := "self_pin_msg"
  record := .cons (strField "peer_key") <| .cons (strField "msg_id") <| .cons (boolField "pin") .nil
  make := fun (peerKey, msgId, pin, ()) => .selfPinMsg peerKey msgId pin

def groupPinMsg : JsonVariant ChatPayload where
  tag := "group_pin_msg"
  record := .cons (strField "group_id") <| .cons (strField "msg_id") <| .cons (boolField "pin") .nil
  make := fun (groupId, msgId, pin, ()) => .groupPinMsg groupId msgId pin

def typing : JsonVariant ChatPayload where
  tag := "typing"
  record := .cons (boolField "typing") .nil
  make := fun (on, ()) => .typing on

def groupTyping : JsonVariant ChatPayload where
  tag := "group_typing"
  record := .cons (strField "group_id") <| .cons (boolField "typing") .nil
  make := fun (groupId, on, ()) => .groupTyping groupId on

/-- In the order of the source. -/
def all : List (JsonVariant ChatPayload) :=
  [textMsg, edit, deleteMsg, timer, file, deleteChat, knock, receipt, gossip, groupRoster, groupText, groupEdit,
    groupDeleteMsg, groupRename, groupLeave, groupFile, groupTimer, rename, profile, groupAvatar, callOfferV2,
    callAnswerClaimV2, callWinnerV2, callBusyV2, callTerminalV2, groupCallOfferV2, groupCallAnswerClaimV2,
    groupCallWinnerV2, groupCallTerminalV2, selfText, selfFile, selfSeen, selfCallTerminalV2, syncRequest,
    primaryTransfer, forwardIncoming, reaction, selfReaction, selfTimer, selfProfile, groupReaction, pinMsg,
    selfPinMsg, groupPinMsg, typing, groupTyping]

end Shape

namespace ChatPayload

/-- The shape of a payload and its fields. -/
def shape : ChatPayload → (v : JsonVariant ChatPayload) × v.Fields
  | text body ts username reply expireSecs fwd =>
    ⟨Shape.textMsg, body, ts, username, reply, expireSecs, fwd, ()⟩
  | edit msgId body => ⟨Shape.edit, msgId, body, ()⟩
  | deleteMsg msgId => ⟨Shape.deleteMsg, msgId, ()⟩
  | timer secs => ⟨Shape.timer, secs, ()⟩
  | file attachment username expireSecs fwd =>
    ⟨Shape.file, attachment, username, expireSecs, fwd, ()⟩
  | deleteChat => ⟨Shape.deleteChat, ()⟩
  | knock username => ⟨Shape.knock, username, ()⟩
  | receipt ids seen => ⟨Shape.receipt, ids, seen, ()⟩
  | gossip head => ⟨Shape.gossip, head, ()⟩
  | groupRoster epoch name disappearingSecs avatar =>
    ⟨Shape.groupRoster, epoch, name, disappearingSecs, avatar, ()⟩
  | groupText groupId body ts expireSecs reply fwd =>
    ⟨Shape.groupText, groupId, body, ts, expireSecs, reply, fwd, ()⟩
  | groupEdit groupId msgId body => ⟨Shape.groupEdit, groupId, msgId, body, ()⟩
  | groupDeleteMsg groupId msgId => ⟨Shape.groupDeleteMsg, groupId, msgId, ()⟩
  | groupRename groupId name => ⟨Shape.groupRename, groupId, name, ()⟩
  | groupLeave groupId => ⟨Shape.groupLeave, groupId, ()⟩
  | groupFile groupId attachment ts expireSecs fwd =>
    ⟨Shape.groupFile, groupId, attachment, ts, expireSecs, fwd, ()⟩
  | groupTimer groupId secs => ⟨Shape.groupTimer, groupId, secs, ()⟩
  | rename newUsername => ⟨Shape.rename, newUsername, ()⟩
  | profile avatar => ⟨Shape.profile, avatar, ()⟩
  | groupAvatar groupId avatar => ⟨Shape.groupAvatar, groupId, avatar, ()⟩
  | call (.callOfferV2 s) =>
    ⟨Shape.callOfferV2, s.callInstanceId, s.offerId, s.callId, s.keyB64, s.createdAt, s.ringExpiresAt, s.expiresAt,
      s.username, s.callerDeviceId, s.replyToMailbox, s.caps, s.resumeOf, ()⟩
  | call (.callAnswerClaimV2 s) =>
    ⟨Shape.callAnswerClaimV2, s.callInstanceId, s.offerId, s.claimNonce, s.answeringDeviceId, s.replyToMailbox, s.caps,
      s.expiresAt, ()⟩
  | call (.callWinnerV2 s) =>
    ⟨Shape.callWinnerV2, s.callInstanceId, s.offerId, s.claimNonce, s.winnerDeviceId, s.expiresAt, ()⟩
  | call (.callBusyV2 s) => ⟨Shape.callBusyV2, s.callInstanceId, s.offerId, s.deviceId, s.expiresAt, ()⟩
  | call (.callTerminalV2 s) =>
    ⟨Shape.callTerminalV2, s.callInstanceId, s.offerId, s.reason, s.username, s.actorDeviceId, s.expiresAt, ()⟩
  | call (.groupCallOfferV2 s) =>
    ⟨Shape.groupCallOfferV2, s.groupId, s.callInstanceId, s.ringId, s.offerId, s.callId, s.keyB64, s.createdAt,
      s.ringExpiresAt, s.expiresAt, s.username, s.callerDeviceId, s.coordinatorUsername, s.coordinatorIdentityKey,
      s.coordinatorDeviceId, s.coordinatorReplyToMailbox, s.resume, ()⟩
  | call (.groupCallAnswerClaimV2 s) =>
    ⟨Shape.groupCallAnswerClaimV2, s.groupId, s.callInstanceId, s.ringId, s.claimNonce, s.answeringDeviceId,
      s.replyToMailbox, s.expiresAt, ()⟩
  | call (.groupCallWinnerV2 s) =>
    ⟨Shape.groupCallWinnerV2, s.groupId, s.callInstanceId, s.ringId, s.claimNonce, s.winnerDeviceId, s.expiresAt, ()⟩
  | call (.groupCallTerminalV2 s) =>
    ⟨Shape.groupCallTerminalV2, s.groupId, s.callInstanceId, s.ringId, s.reason, s.actorDeviceId,
      s.coordinatorUsername, s.coordinatorIdentityKey, s.coordinatorDeviceId, s.expiresAt, ()⟩
  | call (.selfCallTerminalV2 s) =>
    ⟨Shape.selfCallTerminalV2, s.callInstanceId, s.offerId, s.reason, s.actorDeviceId, s.expiresAt, ()⟩
  | selfText peerKey peerUsername msgId body ts reply expireSecs fwd =>
    ⟨Shape.selfText, peerKey, peerUsername, msgId, body, ts, reply, expireSecs, fwd, ()⟩
  | selfFile peerKey peerUsername msgId attachment expireSecs fwd =>
    ⟨Shape.selfFile, peerKey, peerUsername, msgId, attachment, expireSecs, fwd, ()⟩
  | selfSeen peerKey ids => ⟨Shape.selfSeen, peerKey, ids, ()⟩
  | syncRequest provisioningId linkSecretB64 =>
    ⟨Shape.syncRequest, provisioningId, linkSecretB64, ()⟩
  | primaryTransfer entry demoted => ⟨Shape.primaryTransfer, entry, demoted, ()⟩
  | forwardIncoming fromKey fromUsername msgId body ts reply attachment expireSecs =>
    ⟨Shape.forwardIncoming, fromKey, fromUsername, msgId, body, ts, reply, attachment, expireSecs, ()⟩
  | reaction targetMsgId emoji add ts => ⟨Shape.reaction, targetMsgId, emoji, add, ts, ()⟩
  | selfReaction peerKey targetMsgId emoji add =>
    ⟨Shape.selfReaction, peerKey, targetMsgId, emoji, add, ()⟩
  | selfTimer peerKey secs => ⟨Shape.selfTimer, peerKey, secs, ()⟩
  | selfProfile avatar => ⟨Shape.selfProfile, avatar, ()⟩
  | groupReaction groupId targetMsgId emoji add ts =>
    ⟨Shape.groupReaction, groupId, targetMsgId, emoji, add, ts, ()⟩
  | pinMsg msgId pin => ⟨Shape.pinMsg, msgId, pin, ()⟩
  | selfPinMsg peerKey msgId pin => ⟨Shape.selfPinMsg, peerKey, msgId, pin, ()⟩
  | groupPinMsg groupId msgId pin => ⟨Shape.groupPinMsg, groupId, msgId, pin, ()⟩
  | .typing on => ⟨Shape.typing, on, ()⟩
  | groupTyping groupId on => ⟨Shape.groupTyping, groupId, on, ()⟩

def toJson (p : ChatPayload) : Json := p.shape.1.write "t" p.shape.2

def ofJson (j : Json) : Option ChatPayload := readTagged "t" Shape.all j

/-- The numbers of a payload are values of their types. -/
def Typed (p : ChatPayload) : Prop := p.shape.1.record.ok p.shape.2

/-- The fields that the shape of a payload has. -/
def names (p : ChatPayload) : List String := p.shape.1.record.names

/-- The fields as they are written, without the tag. -/
def fields (p : ChatPayload) : List (String × Json) := p.shape.1.record.write p.shape.2

/-- The payload has in the field what is read where the field is missing. -/
def Optional (p : ChatPayload) (name : String) : Prop := p.shape.1.record.Optional p.shape.2 name

/-- What a client of another version may write for a payload: fields that are not known here are
added, some of the optional ones are left out, and they stand in any order. -/
structure Spells (p : ChatPayload) (kept added written : List (String × Json)) : Prop where
  sublist : kept.Sublist p.fields
  missing : ∀ f ∈ p.fields, f ∉ kept → p.Optional f.1
  unknown : ∀ f ∈ added, f.1 ∉ "t" :: p.names
  order : written.Perm (("t", .str p.shape.1.tag) :: (kept ++ added))

theorem shape_make (p : ChatPayload) : p.shape.1.make p.shape.2 = p := by
  cases p with
  | call s => cases s <;> rfl
  | _ => rfl

theorem shape_mem (p : ChatPayload) : p.shape.1 ∈ Shape.all := by
  cases p with
  | call s => cases s <;> simp [shape, Shape.all]
  | _ => simp [shape, Shape.all]

theorem shapes_differ : TagsDiffer "t" Shape.all where
  tags := by decide +kernel
  names := by decide +kernel

theorem ofJson_toJson {p : ChatPayload} (h : p.Typed) : ofJson p.toJson = some p := by
  have hread := readTagged_write shapes_differ p.shape_mem h
  rwa [shape_make] at hread

/-- **A payload is read back as it was written**, by whatever version of the client. -/
theorem payload_compatible (p : ChatPayload) (h : p.Typed) :
    ofJson p.toJson = some p ∧
      ∀ kept added written, p.Spells kept added written → ofJson (.obj written) = some p := by
  refine ⟨ofJson_toJson h, fun kept added written hs => ?_⟩
  have hsame : p.shape.1.Same "t" p.shape.2 (.obj written) :=
    JsonVariant.same_of_perm (shapes_differ.names _ p.shape_mem) hs.sublist hs.missing hs.unknown hs.order
  have hread := readTagged_of_same shapes_differ p.shape_mem h hsame
  rwa [shape_make] at hread

/-- A text as the first clients sent it. -/
def firstText : ChatPayload := text "hi" 7 "" none none false

theorem firstText_typed : firstText.Typed := by
  simp [firstText, Typed, shape, Shape.textMsg, JsonRecord.cons, JsonRecord.nil, strField, u64Field,
    fromField, replyField, secsField, fwdField, JsonField.required, JsonField.defaulted, JsonCodec.str, JsonCodec.uint, JsonCodec.bool, JsonCodec.option, u64Max]

/-- They wrote a body and a time, and a later one may write what is not known yet. -/
theorem payload_compatible_first :
    ofJson (.obj [("colour", .str "red"), ("t", .str "text"), ("body", .str "hi"), ("ts", .num 7)]) = some firstText := by
  refine (payload_compatible _ firstText_typed).2 [("body", .str "hi"),
    ("ts", .num 7)] [("colour", .str "red")] _ ?_
  constructor
  · exact ((List.nil_sublist _).cons_cons _).cons_cons _
  · intro f hf hout
    have hfields : firstText.fields = [("body", .str "hi"), ("ts", .num 7), ("from", .str ""),
      ("reply", .null),
        ("expire_secs", .null), ("fwd", .bool false)] := rfl
    rw [hfields] at hf
    simp only [List.mem_cons, List.not_mem_nil, or_false] at hf hout
    rcases hf with rfl | rfl | rfl | rfl | rfl | rfl
    · exact absurd (Or.inl rfl) hout
    · exact absurd (Or.inr rfl) hout
    all_goals simp [firstText, Optional, shape, Shape.textMsg, JsonRecord.cons, JsonRecord.nil,
      fromField, replyField, secsField, fwdField, strField, u64Field, JsonField.required, JsonField.defaulted]
  · decide
  · exact (List.perm_append_singleton _ [("t", Json.str "text"), ("body", Json.str "hi"), ("ts", Json.num 7)]).symm

/-! ### What the relay is told -/

def wakeClassFor : ChatPayload → WakeClass
  | text .. | file .. | groupText .. | groupFile .. | groupRoster .. | knock .. | forwardIncoming .. => .normal
  | call (.callOfferV2 s) => if s.resumeOf.isEmpty then .call else .callControl
  | call (.groupCallOfferV2 s) => if s.resume then .callControl else .call
  | call _ => .callControl
  | _ => .none

def envelopeExpiryFor : ChatPayload → Option ℕ
  | call s => some s.expiresAt
  | _ => none

end ChatPayload

end Sona
