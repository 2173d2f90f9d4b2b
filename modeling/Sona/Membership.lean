/-
# Membership of a group

`History::adopt_group_epoch` and what it needs: the only way in which a group
comes to be or its members change is a signed epoch. For a group that is known
it must be a successor of the pin (`GroupEpoch.verifySuccession`), else it is
taken as the first one (`GroupEpoch.validateBaseline`).

What a sender writes to a group whose roster does not vouch for them is held
back (`holdGroupContent`) and written down when an epoch names them
(`replayHeldGroupContent`). An epoch that is refused changes nothing.

Key definitions: `History.adoptGroupEpoch`, `History.replayHeldGroupContent`,
`History.holdGroupContent`.
-/
import Mathlib.Data.List.MinMax
import Sona.Group
import Sona.History

namespace Sona

def membersFromEpoch (epoch : GroupEpoch) : List GroupMember :=
  epoch.members.map fun m => ⟨m.username, m.identityKey⟩

def GroupEpoch.isMember (e : GroupEpoch) (identityKey : String) : Bool :=
  e.members.any fun m => m.identityKey = identityKey

/-- What is pinned of an epoch. -/
def GroupEpoch.pin (e : GroupEpoch) (creatorAdminKey : Option String) : GroupAdmin :=
  { epochSeq := e.seq, adminKey := e.adminKey, adminIdentityKey := e.adminIdentityKey,
    creatorAdminKey }

/-- A group with the members and the pin of an epoch. -/
def GroupRecord.install (g : GroupRecord) (e : GroupEpoch) (creatorAdminKey : Option String) :
    GroupRecord :=
  { g with members := membersFromEpoch e, admin := some (e.pin creatorAdminKey) }

inductive GroupEpochOutcome
  | created
  | advanced
  | refused (e : GroupEpochError)
deriving DecidableEq, Repr

namespace History

variable (h : History)

/-- The name of who acts on a group: the user's own account, or a member. -/
def groupMemberLabel (groupId accountKey : String) : Option String :=
  if h.selfPrimaryKey = some accountKey ∨ h.isOwnDevice accountKey then some "You" else
  (h.groups.get groupId).bind fun g => (g.members.find? (·.identityKey = accountKey)).map (·.username)

/-! ### The quarantine -/

def maxHeldGroupEvents : ℕ := 64

def maxHeldGroupContentGroups : ℕ := 32

/-- The group whose last event is the oldest. -/
def stalestHeld (held : Table String (List HeldGroupEvent)) : Option String :=
  (held.entries.argmin fun e => (e.2.getLast?.map (·.receivedAt)).getD 0).map (·.1)

/-- Over the limit the stalest group loses its place. -/
def capHeld (held : Table String (List HeldGroupEvent)) : Table String (List HeldGroupEvent) :=
  if held.size > maxHeldGroupContentGroups then
    match stalestHeld held with
    | some stalest => held.remove stalest
    | none => held
  else held

def holdGroupContent (groupId sender : String) (content : HeldGroupContent) (now : ℕ) : History :=
  let h := h.pruneHeldGroupContent now
  let held := (h.heldGroupContent.get groupId).getD []
  let room := if held.length ≥ maxHeldGroupEvents then held.drop 1 else held
  { h with heldGroupContent := capHeld (h.heldGroupContent.set groupId (room ++ [⟨sender, now, content⟩])) }

/-- A held event is written down as if it came now. -/
def replayOne (now : ℕ) (groupId : String) (e : HeldGroupEvent) : History :=
  match e.content with
  | .message msgId body sentAt expireSecs reply forwarded =>
    let h := h.recordGroupMessage now groupId e.sender msgId body sentAt expireSecs reply
    if forwarded then h.setGroupForwarded groupId msgId else h
  | .attachment msgId attachment sentAt expireSecs forwarded =>
    let h := h.recordGroupAttachment now groupId e.sender msgId attachment sentAt expireSecs
    if forwarded then h.setGroupForwarded groupId msgId else h
  | .reaction targetMsgId emoji add => (h.reactGroup groupId targetMsgId e.sender emoji add).2
  | .edit msgId body => h.applyIncomingGroupEdit groupId msgId body e.sender
  | .delete msgId => h.applyIncomingGroupDelete groupId msgId e.sender

/-- The loop over the held events: those of no member are kept. -/
def replayHeld (now : ℕ) (groupId : String) :
    List HeldGroupEvent → History → List HeldGroupEvent × History
  | [], h => ([], h)
  | e :: es, h =>
    if (h.groupMemberLabel groupId e.sender).isNone then
      let r := replayHeld now groupId es h
      (e :: r.1, r.2)
    else replayHeld now groupId es (h.replayOne now groupId e)

def replayHeldGroupContent (groupId : String) (now : ℕ) : History :=
  let h := h.pruneHeldGroupContent now
  match h.heldGroupContent.get groupId with
  | none => h
  | some held =>
    let r := replayHeld now groupId held { h with heldGroupContent := h.heldGroupContent.remove groupId }
    if r.1.isEmpty then r.2 else { r.2 with heldGroupContent := r.2.heldGroupContent.set groupId r.1 }

/-! ### Adoption -/

def adoptGroupEpoch (C : Crypto) (now : ℕ) (epoch : GroupEpoch) : GroupEpochOutcome × History :=
  match h.groupAdmin epoch.groupId with
  | some pin =>
    match epoch.verifySuccession C pin.epochSeq pin.adminKey with
    | .error e => (.refused e, h)
    | .ok () =>
      (.advanced, (h.updateGroup epoch.groupId (·.install epoch pin.creatorAdminKey)).replayHeldGroupContent
        epoch.groupId now)
  | none =>
    match epoch.validateBaseline C with
    | .error e => (.refused e, h)
    | .ok () =>
      let creatorAdminKey := if epoch.seq = 0 then some epoch.adminKey else none
      let g := ((h.groups.get epoch.groupId).getD {}).install epoch creatorAdminKey
      (.created, { h with groups := h.groups.set epoch.groupId g }.replayHeldGroupContent epoch.groupId now)

end History

end Sona
