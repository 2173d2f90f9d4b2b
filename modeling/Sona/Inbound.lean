/-
# Events that come in

`History::apply`: what an event that was decrypted does to the history. The
sending device is attributed to its account first. A message or a file of a
stranger goes through the gate, a copy of what the user sent is honored only
from a device of their own, and what is sent to a group only from a member:
content of anyone else is held back, a change of the group is ignored.

`HistoryOp` are the operations of `History` that change it, `History.step`
carries one out and `History.run` a list of them.

Key definitions: `InboundEvent`, `History.apply`, `HistoryOp`, `History.step`, `History.run`.
-/
import Mathlib.Data.List.Basic
import Sona.Lib.Trace
import Sona.Requests

namespace Sona

/-- `other` stands for the events that do not touch the history: the heads of
peers, typing, the signals of calls, and the requests of linked devices. -/
inductive InboundEvent
  | message (sender username msgId body : String) (sentAt : ℕ) (reply : Option ReplyRef)
      (expireSecs : Option ℕ)
      (forwarded : Bool)
  | messageEdited (sender msgId body : String)
  | messageDeleted (sender msgId : String)
  | timerUpdate (sender : String) (disappearingSecs : Option ℕ)
  | chatDeleted (sender : String)
  | knock (sender username : String)
  | receipt (sender : String) (ids : List String) (seen : Bool)
  | attachment (sender username msgId : String) (attachment : AttachmentRef) (sentAt : ℕ)
      (expireSecs : Option ℕ)
      (forwarded : Bool)
  | groupRosterUpdate (sender : String) (epoch : GroupEpoch) (name : String)
      (disappearingSecs : Option ℕ)
      (avatar : Option String)
  | groupMessage (sender groupId msgId body : String) (sentAt : ℕ) (expireSecs : Option ℕ)
      (reply : Option ReplyRef)
      (forwarded : Bool)
  | groupMessageEdited (sender groupId msgId body : String)
  | groupMessageDeleted (sender groupId msgId : String)
  | groupRenamed (sender groupId name : String)
  | groupMemberLeft (sender groupId : String)
  | groupAttachment (sender groupId msgId : String) (attachment : AttachmentRef) (sentAt : ℕ)
      (expireSecs : Option ℕ) (forwarded : Bool)
  | groupTimerUpdate (sender groupId : String) (disappearingSecs : Option ℕ)
  | renamed (sender newUsername : String)
  | profileUpdate (sender : String) (avatar : Option String)
  | groupAvatarUpdate (sender groupId : String) (avatar : Option String)
  | selfProfileUpdate (sender : String) (avatar : Option String)
  | selfSentText (sender peerKey peerUsername msgId body : String) (sentAt : ℕ)
      (reply : Option ReplyRef)
      (expireSecs : Option ℕ) (forwarded : Bool)
  | selfSentFile (sender peerKey peerUsername msgId : String) (attachment : AttachmentRef)
      (expireSecs : Option ℕ)
      (forwarded : Bool)
  | selfReadSeen (sender peerKey : String) (ids : List String)
  | forwardedIncoming (sender fromKey fromUsername msgId body : String) (sentAt : ℕ)
      (reply : Option ReplyRef)
      (attachment : Option AttachmentRef) (expireSecs : Option ℕ)
  | reaction (sender targetMsgId emoji : String) (add : Bool)
  | selfReaction (sender peerKey targetMsgId emoji : String) (add : Bool)
  | selfTimerUpdate (sender peerKey : String) (disappearingSecs : Option ℕ)
  | groupReaction (sender groupId targetMsgId emoji : String) (add : Bool)
  | messagePinned (sender msgId : String) (pin : Bool)
  | selfMessagePinned (sender peerKey msgId : String) (pin : Bool)
  | groupMessagePinned (sender groupId msgId : String) (pin : Bool)
  | other
deriving DecidableEq, Repr

namespace History

variable (h : History)

/-! ### Parts of the arms -/

/-- The sender of something that was let in becomes a contact, if they gave a name. -/
def autoPinNamed (username identityKey : String) : History :=
  if username = "" then h else h.autoPinContact username identityKey

def markForwarded (forwarded : Bool) (peer msgId : String) : History :=
  if forwarded then h.setForwarded peer msgId else h

def markGroupForwarded (forwarded : Bool) (groupId msgId : String) : History :=
  if forwarded then h.setGroupForwarded groupId msgId else h

/-- Content of a conversation: dropped at the gate, or recorded by `f`. -/
def screened (now : ℕ) (convo claimed : String) (f : History → History) : History :=
  match h.screenInbound convo claimed now with
  | (.dropped, h) => h
  | (_, h) => f (h.autoPinNamed claimed convo)

/-- Content of a group: held back, or written by `f` for a member. -/
def rosterGated (now : ℕ) (groupId sender : String) (content : HeldGroupContent)
    (f : History → History) : History :=
  if (h.groupMemberLabel groupId sender).isNone then h.holdGroupContent groupId sender content now else f h

/-- A change of a group: only a member makes one. -/
def fromMember (groupId sender : String) (f : History → History) : History :=
  if (h.groupMemberLabel groupId sender).isSome then f h else h

/-- A copy of what the user did elsewhere: only a device of their own sends one. -/
def fromOwnDevice (sender : String) (f : History → History) : History :=
  if h.isOwnDevice sender then f h else h

def selfIsMember (groupId : String) : Bool :=
  match h.selfPrimaryKey, h.groups.get groupId with
  | some me, some g => g.members.any fun m => m.identityKey = me
  | _, _ => false

/-- After the chain advanced: was the user put out, or taken back in? -/
def noteMembership (now : ℕ) (epoch : GroupEpoch) (wasMember : Bool) : History :=
  let isMember := h.selfPrimaryKey.any epoch.isMember
  if wasMember && !isMember then
    (h.setGroupLeft epoch.groupId true).2.recordGroupSystem epoch.groupId "You were removed from the group" now
  else if !wasMember && isMember then
    (h.setGroupLeft epoch.groupId false).2.recordGroupSystem epoch.groupId "You were added back to the group" now
  else h

/-- An epoch whose sender passed the gate. -/
def rosterUpdate (C : Crypto) (now : ℕ) (epoch : GroupEpoch) (name : String)
    (disappearingSecs : Option ℕ) (avatar : Option String) : History :=
  let wasMember := h.selfIsMember epoch.groupId
  match h.adoptGroupEpoch C now epoch with
  | (.created, h) => h.adoptCarried epoch.groupId name avatar disappearingSecs
  | (.advanced, h) => h.noteMembership now epoch wasMember
  | (.refused _, h) => h

/-- The gate for an epoch of a group that is not known: whether it was taken. -/
def screenRosterUpdate (now : ℕ) (sender : String) (epoch : GroupEpoch) (name : String)
    (disappearingSecs : Option ℕ) (avatar : Option String) : Bool × History :=
  if h.hasGroup epoch.groupId then (false, h) else
  h.screenGroupInvite (h.attributeDevice sender)
    { groupId := epoch.groupId, name, members := membersFromEpoch epoch, disappearingSecs
      avatar := sanitizeAvatar avatar, epoch } now

def groupRename (now : ℕ) (sender groupId name : String) : History :=
  match h.groupMemberLabel groupId sender with
  | none => h
  | some who =>
    if (trim name.toList).isEmpty then h else
    match h.renameGroup groupId name with
    | (true, h) =>
      h.recordGroupSystem groupId (who ++ " renamed the group to \"" ++ String.ofList (trim name.toList) ++ "\"") now
    | (false, h) => h

def groupLeave (now : ℕ) (sender groupId : String) : History :=
  match h.groupMemberLabel groupId sender with
  | none => h
  | some who =>
    if who = "You" then (h.setGroupLeft groupId true).2.recordGroupSystem groupId "You left the group" now else
    match h.removeGroupMember groupId sender with
    | (some _, h) => h.recordGroupSystem groupId (who ++ " left the group") now
    | (none, h) => h

/-! ### The event -/

def apply (C : Crypto) (now : ℕ) : InboundEvent → History
  | .message sender username msgId body sentAt reply expireSecs forwarded =>
    let convo := h.attributeDevice sender
    h.screened now convo username fun h =>
      (h.recordFull now convo .incoming msgId body sentAt reply expireSecs).markForwarded forwarded convo msgId
  | .messageEdited sender msgId body => h.applyIncomingEdit (h.attributeDevice sender) msgId body
  | .messageDeleted sender msgId => h.applyIncomingDelete (h.attributeDevice sender) msgId
  | .timerUpdate sender disappearingSecs =>
    let convo := h.attributeDevice sender
    if h.controlGated convo then h else h.setTimer convo disappearingSecs
  | .attachment sender username msgId attachment sentAt expireSecs forwarded =>
    let convo := h.attributeDevice sender
    h.screened now convo username fun h =>
      (h.recordAttachment now convo .incoming msgId attachment sentAt expireSecs).markForwarded forwarded convo msgId
  | .receipt sender ids seen => h.markReceipt (h.attributeDevice sender) ids seen
  | .chatDeleted sender => h.deleteConversation (h.attributeDevice sender)
  | .knock sender username => h.screenKnock (h.attributeDevice sender) username now
  | .selfSentText sender peerKey peerUsername msgId body sentAt reply expireSecs forwarded =>
    h.fromOwnDevice sender fun h =>
      let h := (h.acceptRequestForKey C now peerKey).2.autoPinNamed peerUsername peerKey
      (h.recordFull now peerKey .outgoing msgId body sentAt reply expireSecs).markForwarded forwarded peerKey msgId
  | .selfSentFile sender peerKey peerUsername msgId attachment expireSecs forwarded =>
    h.fromOwnDevice sender fun h =>
      let h := (h.acceptRequestForKey C now peerKey).2.autoPinNamed peerUsername peerKey
      (h.recordAttachment now peerKey .outgoing msgId attachment attachment.ts expireSecs).markForwarded
        forwarded peerKey msgId
  | .selfReadSeen sender peerKey ids => h.fromOwnDevice sender fun h =>
    h.markSeenReceipted peerKey ids
  | .forwardedIncoming sender fromKey fromUsername msgId body sentAt reply attachment expireSecs =>
    h.fromOwnDevice sender fun h =>
      -- the gate screens who sent it first, not the device that passes it on
      let convo := h.attributeDevice fromKey
      h.screened now convo fromUsername fun h =>
        match attachment with
        | some att => h.recordAttachment now convo .incoming msgId att sentAt expireSecs
        | none => h.recordFull now convo .incoming msgId body sentAt reply expireSecs
  | .groupRosterUpdate sender epoch name disappearingSecs avatar =>
    match h.screenRosterUpdate now sender epoch name disappearingSecs avatar with
    | (true, h) => h
    | (false, h) => h.rosterUpdate C now epoch name disappearingSecs avatar
  | .groupMessage sender groupId msgId body sentAt expireSecs reply forwarded =>
    let sender := h.attributeDevice sender
    h.rosterGated now groupId sender (.message msgId body sentAt expireSecs reply forwarded) fun h =>
      (h.recordGroupMessage now groupId sender msgId body sentAt expireSecs reply).markGroupForwarded
        forwarded groupId msgId
  | .groupMessageEdited sender groupId msgId body =>
    let sender := h.attributeDevice sender
    h.rosterGated now groupId sender (.edit msgId body) fun h => h.applyIncomingGroupEdit groupId msgId body sender
  | .groupMessageDeleted sender groupId msgId =>
    let sender := h.attributeDevice sender
    h.rosterGated now groupId sender (.delete msgId) fun h => h.applyIncomingGroupDelete groupId msgId sender
  | .groupRenamed sender groupId name => h.groupRename now (h.attributeDevice sender) groupId name
  | .groupMemberLeft sender groupId => h.groupLeave now (h.attributeDevice sender) groupId
  | .groupAttachment sender groupId msgId attachment sentAt expireSecs forwarded =>
    let sender := h.attributeDevice sender
    h.rosterGated now groupId sender (.attachment msgId attachment sentAt expireSecs forwarded) fun h =>
      (h.recordGroupAttachment now groupId sender msgId attachment sentAt expireSecs).markGroupForwarded
        forwarded groupId msgId
  | .groupTimerUpdate sender groupId disappearingSecs =>
    h.fromMember groupId (h.attributeDevice sender) fun h => (h.setGroupTimer groupId disappearingSecs).2
  | .renamed sender newUsername =>
    if (trim newUsername.toList).isEmpty then h
    else (h.renameContact (h.attributeDevice sender) (String.ofList (trim newUsername.toList))).2
  | .reaction sender targetMsgId emoji add =>
    let convo := h.attributeDevice sender
    (h.react convo targetMsgId convo emoji add).2
  | .selfTimerUpdate sender peerKey disappearingSecs =>
    h.fromOwnDevice sender fun h => h.setTimer peerKey disappearingSecs
  | .selfReaction sender peerKey targetMsgId emoji add =>
    h.fromOwnDevice sender fun h => (h.react peerKey targetMsgId "" emoji add).2
  | .groupReaction sender groupId targetMsgId emoji add =>
    if h.isOwnDevice sender then (h.reactGroup groupId targetMsgId "" emoji add).2 else
    let sender := h.attributeDevice sender
    h.rosterGated now groupId sender (.reaction targetMsgId emoji add) fun h =>
      (h.reactGroup groupId targetMsgId sender emoji add).2
  | .profileUpdate sender avatar => (h.setContactAvatar (h.attributeDevice sender) avatar).2
  | .groupAvatarUpdate sender groupId avatar =>
    h.fromMember groupId (h.attributeDevice sender) fun h => (h.setGroupAvatar groupId avatar).2
  | .selfProfileUpdate sender avatar => h.fromOwnDevice sender fun h => h.setMyAvatar avatar
  | .messagePinned sender msgId pin =>
    let convo := h.attributeDevice sender
    if h.controlGated convo then h else (h.setMsgPinned convo msgId pin).2
  | .selfMessagePinned sender peerKey msgId pin =>
    h.fromOwnDevice sender fun h => (h.setMsgPinned peerKey msgId pin).2
  | .groupMessagePinned sender groupId msgId pin =>
    h.fromMember groupId (h.attributeDevice sender) fun h => (h.setGroupMsgPinned groupId msgId pin).2
  | .other => h

end History

/-! ### Runs -/

/-- What may be done to a history. `reopen` is to seal it and open it again. -/
inductive HistoryOp
  | adoptGroupEpoch (epoch : GroupEpoch)
  | apply (event : InboundEvent)
  | deleteGroup (groupId : String)
  -- conversations
  | setTimer (peer : String) (secs : Option ℕ)
  | recordFull (peer : String) (direction : Direction) (msgId body : String) (sentAt : ℕ)
      (reply : Option ReplyRef)
      (expireSecs : Option ℕ)
  | recordAttachment (peer : String) (direction : Direction) (msgId : String)
      (attachment : AttachmentRef)
      (sentAt : ℕ) (expireSecs : Option ℕ)
  | recordSystem (peer text : String) (at_ : ℕ)
  | recordCallEvent (peer text : String) (at_ : ℕ)
  | react (peer targetMsgId reactor emoji : String) (add : Bool)
  | setMsgPinned (peer msgId : String) (pin : Bool)
  | setForwarded (peer msgId : String)
  | editLocal (peer msgId body : String)
  | applyIncomingEdit (peer msgId body : String)
  | deleteMessage (peer msgId : String)
  | applyIncomingDelete (peer msgId : String)
  | markReceipt (peer : String) (ids : List String) (seen : Bool)
  | markSeenReceipted (peer : String) (ids : List String)
  | deleteConversation (peer : String)
  -- groups
  | setGroupTimer (groupId : String) (secs : Option ℕ)
  | setGroupAvatar (groupId : String) (avatar : Option String)
  | setGroupMuted (groupId : String) (mutedUntil : Option ℕ)
  | setGroupLeft (groupId : String) (left : Bool)
  | setGroupPinned (groupId : String) (pinned : Bool)
  | setGroupArchived (groupId : String) (archived : Bool)
  | setGroupManualUnread (groupId : String) (unread : Bool)
  | setGroupName (groupId name : String)
  | renameGroup (groupId name : String)
  | removeGroupMember (groupId memberKey : String)
  | recordGroupMessage (groupId sender msgId body : String) (sentAt : ℕ) (expireSecs : Option ℕ)
      (reply : Option ReplyRef)
  | recordGroupAttachment (groupId sender msgId : String) (attachment : AttachmentRef) (sentAt : ℕ)
      (expireSecs : Option ℕ)
  | recordGroupSystem (groupId text : String) (at_ : ℕ)
  | recordGroupCallEvent (groupId text : String) (at_ : ℕ)
  | reactGroup (groupId targetMsgId reactor emoji : String) (add : Bool)
  | setGroupMsgPinned (groupId msgId : String) (pin : Bool)
  | setGroupForwarded (groupId msgId : String)
  | editGroupLocal (groupId msgId body : String)
  | applyIncomingGroupEdit (groupId msgId body sender : String)
  | deleteGroupMessage (groupId msgId : String)
  | applyIncomingGroupDelete (groupId msgId sender : String)
  | markGroupSeen (groupId : String)
  -- contacts and requests
  | pinContact (username identityKey : String) (verified : Bool)
  | autoPinContact (username identityKey : String)
  | renameContact (identityKey newUsername : String)
  | withContactMut (username : String) (f : ContactPin → ContactPin)
  | setVoiceGain (username : String) (percent : ℕ)
  | setContactAvatar (identityKey : String) (avatar : Option String)
  | markSessionReset (peer : String)
  | markProfileSent (username : String)
  | removeContact (username : String)
  | screenInbound (convo claimed : String)
  | screenKnock (convo claimed : String)
  | screenCallOffer (senderKey claimed : String)
  | setRequestPrefs (enabled allowText : Bool)
  | acceptRequest (key : String)
  | acceptRequestForKey (convo : String)
  | declineRequest (key : String) (block : Bool)
  | markRequestsSeen
  | requestNeedsNotify (convo : String)
  -- the user and their devices
  | setWitness (head : SignedTreeHead)
  | setMyAvatar (avatar : Option String)
  | noteOwnRename (oldUsername newUsername : String)
  | removePreviousUsername (username : String)
  | noteRenameTime
  | setSelfDevice (deviceId : String) (isPrimary : Bool)
  | setSelfPrimaryKey (key : String)
  | setSelfRosterSeq (seq : ℕ)
  | setPendingDemotion (newDeviceId targetDeviceId : String)
  | clearPendingDemotion
  | setPendingPromotion (entry : KtEntry) (demoted : DeviceRecord)
  | clearPendingPromotion
  | setCallKeyPublished (publicKey : String) (createdAt : ℕ) (deviceId : String)
  | clearCallKeyPublished
  | setRevoked (revoked : Bool)
  | clearPinnedRoster (username : String)
  | pinRoster (username : String) (bindingSeq seq : ℕ) (primaryKey : String)
      (devices : List RosterDevice)
  | applyRosterUpdate (username : String) (update : RosterUpdate)
  | outboxPush (envelopes : List Envelope) (dueAt : ℕ)
  | outboxAck (env : Envelope)
  | callOutboxPush (envelopes : List Envelope)
  | callOutboxReap
  | callOutboxSettle (attempted : List (Envelope × Bool))
  -- the whole history
  | reap
  | normalizeMessageOrder
  | mergeFrom (history : History)
  | reopen

/-- One operation at the time `now`; what it returns is left out. -/
def History.step (C : Crypto) (h : History) (now : ℕ) : HistoryOp → History
  | .adoptGroupEpoch epoch => (h.adoptGroupEpoch C now epoch).2
  | .apply event => h.apply C now event
  | .deleteGroup groupId => h.deleteGroup groupId
  | .setTimer peer secs => h.setTimer peer secs
  | .recordFull peer direction msgId body sentAt reply expireSecs =>
    h.recordFull now peer direction msgId body sentAt reply expireSecs
  | .recordAttachment peer direction msgId attachment sentAt expireSecs =>
    h.recordAttachment now peer direction msgId attachment sentAt expireSecs
  | .recordSystem peer text at_ => h.recordSystem peer text at_
  | .recordCallEvent peer text at_ => h.recordCallEvent peer text at_
  | .react peer targetMsgId reactor emoji add => (h.react peer targetMsgId reactor emoji add).2
  | .setMsgPinned peer msgId pin => (h.setMsgPinned peer msgId pin).2
  | .setForwarded peer msgId => h.setForwarded peer msgId
  | .editLocal peer msgId body => (h.editLocal peer msgId body).2
  | .applyIncomingEdit peer msgId body => h.applyIncomingEdit peer msgId body
  | .deleteMessage peer msgId => h.deleteMessage peer msgId
  | .applyIncomingDelete peer msgId => h.applyIncomingDelete peer msgId
  | .markReceipt peer ids seen => h.markReceipt peer ids seen
  | .markSeenReceipted peer ids => h.markSeenReceipted peer ids
  | .deleteConversation peer => h.deleteConversation peer
  | .setGroupTimer groupId secs => (h.setGroupTimer groupId secs).2
  | .setGroupAvatar groupId avatar => (h.setGroupAvatar groupId avatar).2
  | .setGroupMuted groupId mutedUntil => (h.setGroupMuted groupId mutedUntil).2
  | .setGroupLeft groupId left => (h.setGroupLeft groupId left).2
  | .setGroupPinned groupId pinned => (h.setGroupPinned groupId pinned).2
  | .setGroupArchived groupId archived => (h.setGroupArchived groupId archived).2
  | .setGroupManualUnread groupId unread => (h.setGroupManualUnread groupId unread).2
  | .setGroupName groupId name => h.setGroupName groupId name
  | .renameGroup groupId name => (h.renameGroup groupId name).2
  | .removeGroupMember groupId memberKey => (h.removeGroupMember groupId memberKey).2
  | .recordGroupMessage groupId sender msgId body sentAt expireSecs reply =>
    h.recordGroupMessage now groupId sender msgId body sentAt expireSecs reply
  | .recordGroupAttachment groupId sender msgId attachment sentAt expireSecs =>
    h.recordGroupAttachment now groupId sender msgId attachment sentAt expireSecs
  | .recordGroupSystem groupId text at_ => h.recordGroupSystem groupId text at_
  | .recordGroupCallEvent groupId text at_ => h.recordGroupCallEvent groupId text at_
  | .reactGroup groupId targetMsgId reactor emoji add =>
    (h.reactGroup groupId targetMsgId reactor emoji add).2
  | .setGroupMsgPinned groupId msgId pin => (h.setGroupMsgPinned groupId msgId pin).2
  | .setGroupForwarded groupId msgId => h.setGroupForwarded groupId msgId
  | .editGroupLocal groupId msgId body => (h.editGroupLocal groupId msgId body).2
  | .applyIncomingGroupEdit groupId msgId body sender =>
    h.applyIncomingGroupEdit groupId msgId body sender
  | .deleteGroupMessage groupId msgId => h.deleteGroupMessage groupId msgId
  | .applyIncomingGroupDelete groupId msgId sender =>
    h.applyIncomingGroupDelete groupId msgId sender
  | .markGroupSeen groupId => h.markGroupSeen groupId
  | .pinContact username identityKey verified => h.pinContact username identityKey verified
  | .autoPinContact username identityKey => h.autoPinContact username identityKey
  | .renameContact identityKey newUsername => (h.renameContact identityKey newUsername).2
  | .withContactMut username f => (h.withContactMut username f).2
  | .setVoiceGain username percent => (h.setVoiceGain username percent).2
  | .setContactAvatar identityKey avatar => (h.setContactAvatar identityKey avatar).2
  | .markSessionReset peer => h.markSessionReset peer now
  | .markProfileSent username => h.markProfileSent C.sha username
  | .removeContact username => h.removeContact username
  | .screenInbound convo claimed => (h.screenInbound convo claimed now).2
  | .screenKnock convo claimed => h.screenKnock convo claimed now
  | .screenCallOffer senderKey claimed => (h.screenCallOffer senderKey claimed now).2
  | .setRequestPrefs enabled allowText => h.setRequestPrefs C now enabled allowText
  | .acceptRequest key => (h.acceptRequest C now key).2
  | .acceptRequestForKey convo => (h.acceptRequestForKey C now convo).2
  | .declineRequest key block => (h.declineRequest key block).2
  | .markRequestsSeen => h.markRequestsSeen
  | .requestNeedsNotify convo => (h.requestNeedsNotify convo).2
  | .setWitness head => h.setWitness head
  | .setMyAvatar avatar => h.setMyAvatar avatar
  | .noteOwnRename oldUsername newUsername => h.noteOwnRename oldUsername newUsername
  | .removePreviousUsername username => h.removePreviousUsername username
  | .noteRenameTime => h.noteRenameTime now
  | .setSelfDevice deviceId isPrimary => h.setSelfDevice deviceId isPrimary
  | .setSelfPrimaryKey key => h.setSelfPrimaryKey key
  | .setSelfRosterSeq seq => h.setSelfRosterSeq seq
  | .setPendingDemotion newDeviceId targetDeviceId =>
    h.setPendingDemotion newDeviceId targetDeviceId
  | .clearPendingDemotion => h.clearPendingDemotion
  | .setPendingPromotion entry demoted => h.setPendingPromotion entry demoted
  | .clearPendingPromotion => h.clearPendingPromotion
  | .setCallKeyPublished publicKey createdAt deviceId =>
    h.setCallKeyPublished publicKey createdAt deviceId
  | .clearCallKeyPublished => h.clearCallKeyPublished
  | .setRevoked revoked => h.setRevoked revoked
  | .clearPinnedRoster username => h.clearPinnedRoster username
  | .pinRoster username bindingSeq seq primaryKey devices =>
    (h.pinRoster username bindingSeq seq primaryKey devices).2
  | .applyRosterUpdate username update => (h.applyRosterUpdate username update).2
  | .outboxPush envelopes dueAt => h.outboxPush envelopes dueAt
  | .outboxAck env => h.outboxAck env
  | .callOutboxPush envelopes => (h.callOutboxPush envelopes now).2
  | .callOutboxReap => (h.callOutboxReap now).2
  | .callOutboxSettle attempted => h.callOutboxSettle attempted now
  | .reap => (h.reapWithChats now).2
  | .normalizeMessageOrder => h.normalizeMessageOrder
  | .mergeFrom history => h.mergeFrom history
  | .reopen => h.migrateRequestsToKeyAddressing

/-- A run: operations, each at its time. -/
def History.run (C : Crypto) (h : History) (ops : List (ℕ × HistoryOp)) : History :=
  Trace.run (fun h op => History.step C h op.1 op.2) h ops

end Sona
