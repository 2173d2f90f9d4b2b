/-
# The history of a client

`client-core/src/history`: everything a client keeps of its conversations, its
contacts, its groups and its own devices, in one record that is sealed on disk.
A conversation is found by the key of the peer, a contact by its username (a
pending request by the requester's key), a group by its id, and a device of an
account leads to the key of the account (`attributeDevice`).

This module has the data and the operations that change one part of it; the
gate for strangers, the membership of groups and the handling of an event that
came in are built from them. A hash map is a table, and a search through its
values takes the first in the table's order. The clock is an argument.

Key definitions: `History`, `GroupRecord`, `GroupAdmin`, `ContactPin`, `History.pinRoster`,
`History.mergeFrom`.
-/
import Mathlib.Data.List.Basic
import Mathlib.Data.List.AList
import Sona.Lib.Table
import Sona.Wire
import Sona.Kt
import Sona.Heads
import Sona.Group
import Sona.Thread

namespace Sona

/-! ### What is kept -/

structure Conversation where
  disappearingSecs : Option ℕ := none
  messages : List StoredMessage := []
deriving DecidableEq, Repr

structure GroupMember where
  username : String
  identityKey : String
deriving DecidableEq, Repr

/-- What is pinned of the epoch that was adopted last. -/
structure GroupAdmin where
  epochSeq : ℕ
  adminKey : String
  adminIdentityKey : String
  /-- The admin of the genesis, if that is where the pin began. -/
  creatorAdminKey : Option String
deriving DecidableEq, Repr

structure GroupRecord where
  name : String := ""
  members : List GroupMember := []
  messages : List StoredMessage := []
  avatar : Option String := none
  mutedUntil : Option ℕ := none
  disappearingSecs : Option ℕ := none
  pinned : Bool := false
  archived : Bool := false
  unread : Bool := false
  left : Bool := false
  admin : Option GroupAdmin := none
deriving DecidableEq, Repr

/-- An invite to a group that waits for the request of who sent it. -/
structure HeldInvite where
  groupId : String
  name : String
  members : List GroupMember
  disappearingSecs : Option ℕ
  avatar : Option String
  epoch : GroupEpoch
deriving DecidableEq, Repr

inductive HeldGroupContent
  | message (msgId body : String) (sentAt : ℕ) (expireSecs : Option ℕ) (reply : Option ReplyRef)
      (forwarded : Bool)
  | attachment (msgId : String) (attachment : AttachmentRef) (sentAt : ℕ) (expireSecs : Option ℕ)
      (forwarded : Bool)
  | reaction (targetMsgId emoji : String) (add : Bool)
  | edit (msgId body : String)
  | delete (msgId : String)
deriving DecidableEq, Repr

/-- Content of a sender that the roster does not vouch for. -/
structure HeldGroupEvent where
  sender : String
  receivedAt : ℕ
  content : HeldGroupContent
deriving DecidableEq, Repr

structure PendingRequest where
  claimed : String := ""
  since : ℕ := 0
  last : ℕ := 0
  withheld : ℕ := 0
  calls : ℕ := 0
  notified : Bool := false
  seen : Bool := false
  invites : List HeldInvite := []
deriving DecidableEq, Repr

structure ContactPin where
  identityKey : String := ""
  verified : Bool := false
  pinned : Bool := false
  mutedUntil : Option ℕ := none
  nickname : Option String := none
  avatar : Option String := none
  blocked : Bool := false
  voiceGain : Option ℕ := none
  archived : Bool := false
  unread : Bool := false
  profileSent : Option String := none
  /-- The contact is pending. -/
  request : Option PendingRequest := none
  lastSessionReset : Option ℕ := none
deriving DecidableEq, Repr

structure SelfDevice where
  deviceId : String
  isPrimary : Bool
deriving DecidableEq, Repr

structure PendingDemotion where
  newDeviceId : String
  targetDeviceId : String
deriving DecidableEq, Repr

structure PendingPromotion where
  entry : KtEntry
  demoted : DeviceRecord
deriving DecidableEq, Repr

structure CallKeyPublication where
  publicKey : String
  createdAt : ℕ
  deviceId : String
deriving DecidableEq, Repr

structure RosterDevice where
  deviceId : String
  identityKey : String
  signingKey : String
deriving DecidableEq, Repr

structure RosterPin where
  seq : ℕ
  bindingSeq : ℕ
  primaryKey : String
  devices : List RosterDevice
deriving DecidableEq, Repr

structure OutboxItem where
  envelope : Envelope
  dueAt : ℕ
deriving DecidableEq, Repr

structure CallOutboxItem where
  envelope : Envelope
  dueAt : ℕ
  attempts : ℕ
deriving DecidableEq, Repr

structure History where
  conversations : Table String Conversation := ∅
  contacts : Table String ContactPin := ∅
  groups : Table String GroupRecord := ∅
  witness : Option SignedTreeHead := none
  previousUsernames : List String := []
  ownRenameTimes : List ℕ := []
  selfDevice : Option SelfDevice := none
  selfRosterSeq : Option ℕ := none
  contactRosters : Table String RosterPin := ∅
  deviceOwner : Table String String := ∅
  selfPrimaryKey : Option String := none
  pendingDemotion : Option PendingDemotion := none
  pendingPromotion : Option PendingPromotion := none
  revoked : Bool := false
  outbox : List OutboxItem := []
  callKeyPublished : Option CallKeyPublication := none
  callOutbox : List CallOutboxItem := []
  myAvatar : Option String := none
  openMessaging : Bool := false
  requestTextAllowed : Bool := false
  heldGroupContent : Table String (List HeldGroupEvent) := ∅

namespace History

variable (h : History)

/-! ### Conversations -/

/-- `entry(peer).or_default()` and a change of it. -/
def intoConversation (peer : String) (f : Conversation → Conversation) : History :=
  { h with conversations := h.conversations.set peer (f ((h.conversations.get peer).getD {})) }

/-- `get_mut(peer)` and a change of its messages. -/
def updateMessages (peer : String) (f : List StoredMessage → List StoredMessage) : History :=
  { h with conversations := h.conversations.modify peer fun c => { c with messages := f c.messages } }

/-- The messages of a conversation. -/
def messages (peer : String) : List StoredMessage :=
  ((h.conversations.get peer).map (·.messages)).getD []

def hasMessage (peer : String) (p : StoredMessage → Bool) : Bool := (h.messages peer).any p

def timer (peer : String) : Option ℕ := (h.conversations.get peer).bind (·.disappearingSecs)

def setTimer (peer : String) (secs : Option ℕ) : History :=
  h.intoConversation peer fun c => { c with disappearingSecs := secs }

def recordFull (now : ℕ) (peer : String) (direction : Direction) (msgId body : String) (sentAt : ℕ)
    (reply : Option ReplyRef) (expireSecs : Option ℕ) : History :=
  h.intoConversation peer fun c =>
    { c with
      messages := recordOnce c.messages
        { msgId, direction, body, sentAt, deleteAt := carriedDeleteAt now c.disappearingSecs expireSecs sentAt, reply } }

def record (now : ℕ) (peer : String) (direction : Direction) (msgId body : String) (sentAt : ℕ) :
    History :=
  h.recordFull now peer direction msgId body sentAt none none

def recordAttachment (now : ℕ) (peer : String) (direction : Direction) (msgId : String)
    (attachment : AttachmentRef) (sentAt : ℕ) (expireSecs : Option ℕ) : History :=
  h.intoConversation peer fun c =>
    { c with
      messages := recordOnce c.messages
        { msgId, direction, body := attachment.filename, sentAt
          deleteAt := carriedDeleteAt now c.disappearingSecs expireSecs sentAt,
          attachment := some attachment } }

def recordSystem (peer text : String) (at_ : ℕ) : History :=
  h.intoConversation peer fun c => { c with messages := recordChip c.messages text at_ }

def recordCallEvent (peer text : String) (at_ : ℕ) : History :=
  h.intoConversation peer fun c => { c with messages := recordCallChip c.messages text at_ }

def react (peer targetMsgId reactor emoji : String) (add : Bool) : Bool × History :=
  (h.hasMessage peer (·.msgId = targetMsgId), h.updateMessages peer (reactIn · targetMsgId reactor emoji add))

def setMsgPinned (peer msgId : String) (pin : Bool) : Bool × History :=
  (h.hasMessage peer (·.msgId = msgId), h.updateMessages peer (setPinnedIn · msgId pin))

def setForwarded (peer msgId : String) : History := h.updateMessages peer (setForwardedIn · msgId)

/-- The user edits a message of their own. -/
def editLocal (peer msgId body : String) : Bool × History :=
  let own : StoredMessage → Bool := fun m => m.msgId = msgId && m.direction = .outgoing
  (h.hasMessage peer own, h.updateMessages peer (editIn · own body))

def applyIncomingEdit (peer msgId body : String) : History :=
  h.updateMessages peer (editIn · (fun m => m.msgId = msgId && m.direction = .incoming) body)

def deleteMessage (peer msgId : String) : History :=
  h.updateMessages peer (·.filter fun m => m.msgId ≠ msgId)

def applyIncomingDelete (peer msgId : String) : History :=
  h.updateMessages peer (·.filter fun m => !(m.msgId = msgId && m.direction = .incoming))

def markReceipt (peer : String) (ids : List String) (seen : Bool) : History :=
  let target := if seen then DeliveryStatus.seen else .delivered
  h.updateMessages peer (·.map fun m =>
    if m.direction = .outgoing ∧ m.msgId ∈ ids then { m with status := m.status.upgrade target } else m)

def markSeenReceipted (peer : String) (ids : List String) : History :=
  h.updateMessages peer (·.map fun m =>
    if m.direction = .incoming ∧ m.msgId ∈ ids then { m with seenReceipted := true } else m)

def deleteConversation (peer : String) : History :=
  { h with conversations := h.conversations.remove peer }

/-! ### Groups -/

/-- `get_mut(group_id)` and a change of it. -/
def updateGroup (groupId : String) (f : GroupRecord → GroupRecord) : History :=
  { h with groups := h.groups.modify groupId f }

/-- A change of the messages of a group. -/
def updateThread (groupId : String) (f : List StoredMessage → List StoredMessage) : History :=
  h.updateGroup groupId fun g => { g with messages := f g.messages }

def hasGroup (groupId : String) : Bool := (h.groups.get groupId).isSome

def hasGroupMessage (groupId : String) (p : StoredMessage → Bool) : Bool :=
  (h.groups.get groupId).any fun g => g.messages.any p

/-- The setters of a group say whether the group is known. -/
def changeGroup (groupId : String) (f : GroupRecord → GroupRecord) : Bool × History :=
  (h.hasGroup groupId, h.updateGroup groupId f)

def groupAdmin (groupId : String) : Option GroupAdmin := (h.groups.get groupId).bind (·.admin)

def isGroupAdmin (myIdentityKey groupId : String) : Bool :=
  (h.groupAdmin groupId).any fun a => a.adminIdentityKey = myIdentityKey

def groupTimer (groupId : String) : Option ℕ := (h.groups.get groupId).bind (·.disappearingSecs)

def setGroupTimer (groupId : String) (secs : Option ℕ) : Bool × History :=
  h.changeGroup groupId fun g => { g with disappearingSecs := secs }

def setGroupAvatar (groupId : String) (avatar : Option String) : Bool × History :=
  h.changeGroup groupId fun g => { g with avatar := sanitizeAvatar avatar }

def setGroupMuted (groupId : String) (mutedUntil : Option ℕ) : Bool × History :=
  h.changeGroup groupId fun g => { g with mutedUntil }

def setGroupLeft (groupId : String) (left : Bool) : Bool × History :=
  h.changeGroup groupId fun g => { g with left }

def setGroupPinned (groupId : String) (pinned : Bool) : Bool × History :=
  h.changeGroup groupId fun g => { g with pinned }

/-- A group that is archived is not marked unread any more. -/
def setGroupArchived (groupId : String) (archived : Bool) : Bool × History :=
  h.changeGroup groupId fun g => { g with archived, unread := g.unread && !archived }

/-- And one that is marked unread is not archived any more. -/
def setGroupManualUnread (groupId : String) (unread : Bool) : Bool × History :=
  h.changeGroup groupId fun g => { g with unread, archived := g.archived && !unread }

def setGroupName (groupId name : String) : History :=
  if (trim name.toList).isEmpty then h else h.updateGroup groupId fun g => { g with name }

def renameGroup (groupId name : String) : Bool × History :=
  if (trim name.toList).isEmpty then (false, h) else
  h.changeGroup groupId fun g => { g with name := String.ofList (trim name.toList) }

/-- The first member with the key goes; what was removed is the result. -/
def removeGroupMember (groupId memberKey : String) : Option GroupMember × History :=
  ((h.groups.get groupId).bind fun g => g.members.find? (·.identityKey = memberKey),
    h.updateGroup groupId fun g => { g with members := g.members.eraseP (·.identityKey = memberKey) })

def recordGroupMessage (now : ℕ) (groupId sender msgId body : String) (sentAt : ℕ)
    (expireSecs : Option ℕ) (reply : Option ReplyRef) : History :=
  h.updateGroup groupId fun g =>
    { g with
      messages := recordOnce g.messages
        { msgId, direction := .incoming, body, sentAt
          deleteAt := carriedDeleteAt now g.disappearingSecs expireSecs sentAt,
          sender := some sender, reply } }

def recordGroupAttachment (now : ℕ) (groupId sender msgId : String) (attachment : AttachmentRef)
    (sentAt : ℕ) (expireSecs : Option ℕ) : History :=
  h.updateGroup groupId fun g =>
    { g with
      messages := recordOnce g.messages
        { msgId, direction := .incoming, body := attachment.filename, sentAt
          deleteAt := carriedDeleteAt now g.disappearingSecs expireSecs sentAt
          attachment := some attachment, sender := some sender } }

def recordGroupSystem (groupId text : String) (at_ : ℕ) : History :=
  h.updateThread groupId (recordChip · text at_)

def recordGroupCallEvent (groupId text : String) (at_ : ℕ) : History :=
  h.updateThread groupId (recordCallChip · text at_)

def reactGroup (groupId targetMsgId reactor emoji : String) (add : Bool) : Bool × History :=
  (h.hasGroupMessage groupId (·.msgId = targetMsgId), h.updateThread groupId (reactIn · targetMsgId reactor emoji add))

def setGroupMsgPinned (groupId msgId : String) (pin : Bool) : Bool × History :=
  (h.hasGroupMessage groupId (·.msgId = msgId), h.updateThread groupId (setPinnedIn · msgId pin))

def setGroupForwarded (groupId msgId : String) : History :=
  h.updateThread groupId (setForwardedIn · msgId)

def editGroupLocal (groupId msgId body : String) : Bool × History :=
  (h.hasGroupMessage groupId (·.msgId = msgId), h.updateThread groupId (editIn · (·.msgId = msgId) body))

/-- A member edits only what is stored under their key. -/
def applyIncomingGroupEdit (groupId msgId body sender : String) : History :=
  h.updateThread groupId (editIn · (fun m => m.msgId = msgId && m.sender = some sender) body)

def deleteGroupMessage (groupId msgId : String) : History :=
  h.updateThread groupId (·.filter fun m => m.msgId ≠ msgId)

def applyIncomingGroupDelete (groupId msgId sender : String) : History :=
  h.updateThread groupId (·.filter fun m => !(m.msgId = msgId && m.sender = some sender))

def markGroupSeen (groupId : String) : History :=
  h.updateThread groupId (·.map fun m => { m with seenReceipted := true })

def deleteGroup (groupId : String) : History :=
  { h with
      groups := h.groups.remove groupId,
      heldGroupContent := h.heldGroupContent.remove groupId }

/-! ### Contacts -/

/-- The first contact with the key. -/
def contactByKey (identityKey : String) : Option (String × ContactPin) :=
  h.contacts.find fun _ p => p.identityKey = identityKey

/-- `values_mut().find(..)` and a change of the contact. -/
def updateContactByKey (identityKey : String) (f : ContactPin → ContactPin) : History :=
  match h.contactByKey identityKey with
  | none => h
  | some (username, _) => { h with contacts := h.contacts.modify username f }

def requestPendingForKey (convo : String) : Bool :=
  (h.contacts.find fun _ p => p.identityKey = convo && p.request.isSome).isSome

def pinContact (username identityKey : String) (verified : Bool) : History :=
  { h with contacts := h.contacts.set username { (h.contacts.get username).getD {} with identityKey, verified } }

/-- A name that is taken stays with its key, and a pending requester gets none here. -/
def autoPinContact (username identityKey : String) : History :=
  if (h.contacts.get username).isSome then h else
  if h.requestPendingForKey identityKey then h else
  { h with contacts := h.contacts.set username { identityKey } }

/-- A rename is refused when the name belongs to another key. -/
def renameContact (identityKey newUsername : String) : Bool × History :=
  match h.contacts.get newUsername with
  | some existing => (existing.identityKey = identityKey, h)
  | none =>
    match h.contactByKey identityKey with
    | none => (false, h)
    | some (old, pin) => (true, { h with contacts := (h.contacts.remove old).set newUsername pin })

def withContactMut (username : String) (f : ContactPin → ContactPin) : Bool × History :=
  ((h.contacts.get username).isSome, { h with contacts := h.contacts.modify username f })

def gainMax : ℕ := 200

def setVoiceGain (username : String) (percent : ℕ) : Bool × History :=
  h.withContactMut username fun c => { c with voiceGain := some (min percent gainMax) }

def setContactAvatar (identityKey : String) (avatar : Option String) : Bool × History :=
  ((h.contactByKey identityKey).isSome,
    h.updateContactByKey identityKey fun p => { p with avatar := sanitizeAvatar avatar })

def markSessionReset (peer : String) (now : ℕ) : History :=
  h.updateContactByKey peer fun p => { p with lastSessionReset := some now }

def removeContact (username : String) : History := { h with contacts := h.contacts.remove username }

/-! ### The user -/

def setWitness (head : SignedTreeHead) : History := { h with witness := some head }

def setMyAvatar (avatar : Option String) : History := { h with myAvatar := sanitizeAvatar avatar }

/-- Twelve bytes of the hash, in hex. -/
def myAvatarFingerprint (H : Sha256) : String :=
  match h.myAvatar with
  | some a => String.ofList ((H.hex (utf8 a)).toList.take 24)
  | none => ""

def markProfileSent (H : Sha256) (username : String) : History :=
  { h with contacts := h.contacts.modify username fun p => { p with profileSent := some (h.myAvatarFingerprint H) } }

def maxPreviousUsernames : ℕ := 5

def noteOwnRename (oldUsername newUsername : String) : History :=
  let names := (h.previousUsernames.filter fun u => u ≠ oldUsername && u ≠ newUsername) ++ [oldUsername]
  { h with previousUsernames := names.drop (names.length - maxPreviousUsernames) }

def removePreviousUsername (username : String) : History :=
  { h with previousUsernames := h.previousUsernames.filter (· ≠ username) }

def renameLimitWindowSecs : ℕ := 7 * 86400

def noteRenameTime (now : ℕ) : History :=
  { h with ownRenameTimes := (h.ownRenameTimes ++ [now]).filter fun t => t ≥ now - renameLimitWindowSecs }

/-! ### Devices -/

/-- A device of the user's own account, as the roster has it. -/
def isOwnDevice (deviceKey : String) : Bool :=
  match h.selfPrimaryKey with
  | some pk => h.deviceOwner.get deviceKey = some pk
  | none => false

/-- The account of a device, or the device itself. -/
def attributeDevice (deviceKey : String) : String := (h.deviceOwner.get deviceKey).getD deviceKey

/-- Without a roster a device is the primary one. -/
def selfDeviceId : String := ((h.selfDevice).map (·.deviceId)).getD primaryDeviceId

def isPrimaryDevice : Bool := ((h.selfDevice).map (·.isPrimary)).getD true

def setSelfDevice (deviceId : String) (isPrimary : Bool) : History :=
  { h with selfDevice := some ⟨deviceId, isPrimary⟩ }

def setSelfPrimaryKey (key : String) : History := { h with selfPrimaryKey := some key }

def setSelfRosterSeq (seq : ℕ) : History := { h with selfRosterSeq := some seq }

def setPendingDemotion (newDeviceId targetDeviceId : String) : History :=
  { h with pendingDemotion := some ⟨newDeviceId, targetDeviceId⟩ }

def clearPendingDemotion : History := { h with pendingDemotion := none }

def setPendingPromotion (entry : KtEntry) (demoted : DeviceRecord) : History :=
  { h with pendingPromotion := some ⟨entry, demoted⟩ }

def clearPendingPromotion : History := { h with pendingPromotion := none }

def setCallKeyPublished (publicKey : String) (createdAt : ℕ) (deviceId : String) : History :=
  { h with callKeyPublished := some ⟨publicKey, createdAt, deviceId⟩ }

def clearCallKeyPublished : History := { h with callKeyPublished := none }

def setRevoked (revoked : Bool) : History := { h with revoked }

def clearPinnedRoster (username : String) : History :=
  match h.contactRosters.get username with
  | none => h
  | some pin =>
    { h with
      contactRosters := h.contactRosters.remove username
      deviceOwner := h.deviceOwner.removeAll (pin.devices.map (·.identityKey)) }

end History

structure RosterRollback where
  username : String
  pinnedSeq : ℕ
  servedSeq : ℕ
deriving DecidableEq, Repr

def RosterRollback.message (r : RosterRollback) : String :=
  s!"roster rollback for {r.username}: pinned epoch {r.pinnedSeq}, server served {r.servedSeq}"

/-- What a fetched roster means for the pin. -/
inductive RosterUpdate
  | absent (primaryKey : String) (bindingSeq : ℕ)
  | verified (bindingSeq seq : ℕ) (primaryKey : String) (devices : List RosterDevice)
  | stale
deriving DecidableEq, Repr

/-- Within one account key neither number goes back; another key needs a higher binding. -/
def RosterPin.rolledBack (existing : RosterPin) (bindingSeq seq : ℕ) (primaryKey : String) : Bool :=
  if existing.primaryKey = primaryKey then bindingSeq < existing.bindingSeq || seq < existing.seq
  else bindingSeq ≤ existing.bindingSeq

namespace History

variable (h : History)

def pinRoster (username : String) (bindingSeq seq : ℕ) (primaryKey : String)
    (devices : List RosterDevice) :
    Except RosterRollback Unit × History :=
  let owned (owner : Table String String) : History :=
    { h with
      deviceOwner := devices.foldl (fun t d => t.set d.identityKey primaryKey) owner
      contactRosters := h.contactRosters.set username { seq, bindingSeq, primaryKey, devices } }
  match h.contactRosters.get username with
  | none => (.ok (), owned h.deviceOwner)
  | some existing =>
    if existing.rolledBack bindingSeq seq primaryKey then
      (.error ⟨username, existing.seq, seq⟩, h)
    else
      -- the devices that left are attributed to the account no longer
      let gone := existing.devices.filter fun old => !devices.any fun d => d.identityKey = old.identityKey
      (.ok (), owned (h.deviceOwner.removeAll (gone.map (·.identityKey))))

def applyRosterUpdate (username : String) : RosterUpdate → Except RosterRollback Unit × History
  | .stale => (.ok (), h)
  | .absent primaryKey bindingSeq =>
    match h.contactRosters.get username with
    | none => (.ok (), h)
    | some pinned =>
      if pinned.primaryKey ≠ primaryKey ∧ bindingSeq > pinned.bindingSeq then (.ok (), h.clearPinnedRoster username)
      else (.error ⟨username, pinned.seq, 0⟩, h)
  | .verified bindingSeq seq primaryKey devices =>
    h.pinRoster username bindingSeq seq primaryKey devices

/-! ### Envelopes that wait -/

def maxOutbox : ℕ := 512

def outboxPush (envelopes : List Envelope) (dueAt : ℕ) : History :=
  let outbox := h.outbox ++ envelopes.map fun envelope => ⟨envelope, dueAt⟩
  { h with outbox := outbox.drop (outbox.length - maxOutbox) }

def outboxAck (env : Envelope) : History :=
  { h with
    outbox := h.outbox.filter fun i => !(i.envelope.msgId = env.msgId && i.envelope.recipient = env.recipient) }

def maxCallOutbox : ℕ := 128

def maxCallOutboxAttempts : ℕ := 6

/-- The item is for this envelope: the same recipient and message. -/
def isFor (env : Envelope) (i : CallOutboxItem) : Bool :=
  i.envelope.msgId = env.msgId && i.envelope.recipient = env.recipient

/-- The envelope has a deadline, and it is not over. -/
def stillValid (now : ℕ) (env : Envelope) : Bool := env.expiresAt.any fun t => t > now

def callOutboxPush (envelopes : List Envelope) (now : ℕ) : List Bool × History :=
  let items := envelopes.foldl (fun items env =>
    if env.wake ≠ .callControl || !stillValid now env || items.any (isFor env) then items
    else items ++ [⟨env, now, 0⟩]) h.callOutbox
  let kept := items.drop (items.length - maxCallOutbox)
  (envelopes.map fun env => kept.any (isFor env), { h with callOutbox := kept })

def callOutboxReap (now : ℕ) : ℕ × History :=
  let kept := h.callOutbox.filter fun i => stillValid now i.envelope
  (h.callOutbox.length - kept.length, { h with callOutbox := kept })

/-- One result of a batch: an accepted envelope is gone, another one waits for
its next attempt, if it has one. -/
def settleOne (now : ℕ) (items : List CallOutboxItem) (env : Envelope) (accepted : Bool) :
    List CallOutboxItem :=
  match items.find? (isFor env) with
  | none => items
  | some item =>
    let attempts := min (item.attempts + 1) 255
    if accepted || attempts ≥ maxCallOutboxAttempts || !stillValid now item.envelope then items.eraseP (isFor env)
    else updateFirst (isFor env)
      (fun i => { i with attempts, dueAt := saturatingAdd now (2 ^ min (attempts - 1) 4) }) items

def callOutboxSettle (attempted : List (Envelope × Bool)) (now : ℕ) : History :=
  let settled := attempted.foldl (fun items a => settleOne now items a.1 a.2) h.callOutbox
  ({ h with callOutbox := settled }.callOutboxReap now).2

/-! ### The whole history -/

def heldGroupContentTtlSecs : ℕ := 600

def heldGroupContentUnknownTtlSecs : ℕ := 7 * 24 * 3600

/-- Content in quarantine gets old, for a group that is not known much later. -/
def pruneHeldGroupContent (now : ℕ) : History :=
  { h with
    heldGroupContent := h.heldGroupContent.filterMap fun gid held =>
      let ttl := if h.hasGroup gid then heldGroupContentTtlSecs else heldGroupContentUnknownTtlSecs
      let kept := held.filter fun e => now - e.receivedAt ≤ ttl
      if kept.isEmpty then none else some kept }

/-- How many messages went, and from which chats. -/
def reapWithChats (now : ℕ) : (ℕ × List String) × History :=
  let lost (msgs : List StoredMessage) : ℕ := msgs.countP (·.expired now)
  let live (msgs : List StoredMessage) : List StoredMessage := msgs.filter fun m => !m.expired now
  let peers := (h.conversations.entries.filter fun e => lost e.2.messages ≠ 0).map (·.1)
  let groups := (h.groups.entries.filter fun e => lost e.2.messages ≠ 0).map (·.1)
  let removed := (h.conversations.total fun c => lost c.messages) + h.groups.total fun g => lost g.messages
  let reaped : History :=
    { h with
      conversations := h.conversations.mapValues fun c => { c with messages := live c.messages }
      groups := h.groups.mapValues fun g => { g with messages := live g.messages } }
  ((removed, peers ++ groups), reaped.pruneHeldGroupContent now)

def normalizeMessageOrder : History :=
  { h with
    conversations := h.conversations.mapValues fun c => { c with messages := sortThread c.messages }
    groups := h.groups.mapValues fun g => { g with messages := sortThread g.messages } }

/-- A conversation of another device, with its timer if there is none yet. -/
def mergeConversation (dst convo : Conversation) : Conversation :=
  let messages := convo.messages.foldl (fun msgs m =>
    if msgs.any fun x => x.msgId = m.msgId then msgs else msgs ++ [m]) dst.messages
  { disappearingSecs := dst.disappearingSecs.or convo.disappearingSecs,
    messages := sortThread messages }

def mergeFrom (other : History) : History :=
  { h with
    conversations := other.conversations.entries.foldl
      (fun t e => t.set e.1 (mergeConversation ((t.get e.1).getD {}) e.2)) h.conversations
    contacts := h.contacts.orInsertAll other.contacts
    groups := h.groups.orInsertAll other.groups }

/-- A pending request of an older vault stands under the claimed name: it moves
to the requester's key, unless that is taken. -/
def migrateRequest (contacts : Table String ContactPin) (name : String) : Table String ContactPin :=
  match contacts.get name with
  | none => contacts
  | some pin =>
    let pin := { pin with request := pin.request.map fun r => { r with claimed := name } }
    let rest := contacts.remove name
    if (rest.get pin.identityKey).isSome then rest.set name pin else rest.set pin.identityKey pin

def migrateRequestsToKeyAddressing : History :=
  let stale := h.contacts.entries.filter fun e =>
    (e.2.request.any fun r => r.claimed = "") && e.1 ≠ e.2.identityKey && e.2.identityKey ≠ ""
  { h with contacts := (stale.map (·.1)).foldl migrateRequest h.contacts }

end History

end Sona
