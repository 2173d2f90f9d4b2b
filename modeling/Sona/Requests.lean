/-
# Message requests

What comes from someone who is no contact is screened: the sender becomes a
pending request, kept under their key, and the content waits behind it until
the user accepts. An invite to a group waits in the request itself, and its
epoch is adopted when the request is accepted (`acceptRequest`), under the same
checks as any other. `claimed` is the name the sender goes by; nothing vouches
for it until then.

Key definitions: `History.screenInbound`, `History.screenGroupInvite`, `History.acceptRequest`,
`History.declineRequest`.
-/
import Mathlib.Data.List.Basic
import Sona.Membership

namespace Sona

inductive InboundScreen
  | allow
  | held
  | dropped
deriving DecidableEq, Repr

/-- The conversation of the user with themselves. -/
def noteToSelfPeer : String := "note:self"

/-- `u32::saturating_add(1)`. -/
def saturatingSucc32 (n : ℕ) : ℕ := min (n + 1) (2 ^ 32 - 1)

namespace History

variable (h : History)

def requestsEnabled : Bool := !h.openMessaging

def requestExempt (convo : String) : Bool := h.isOwnDevice convo || h.selfPrimaryKey = some convo

def isRequestPending (key : String) : Bool := (h.contacts.get key).any fun p => p.request.isSome

/-- A name no stranger may come in under. -/
def claimedNameUnavailable (claimed : String) : Bool :=
  claimed = "" || claimed = noteToSelfPeer || (h.contacts.get claimed).any fun p => p.request.isNone

def openRequest (convo claimed : String) (req : PendingRequest) : History :=
  { h with contacts := h.contacts.set convo { identityKey := convo, request := some { req with claimed } } }

/-- The request of the first contact with the key changes, if it has one. -/
def updateRequest (convo : String) (f : PendingRequest → PendingRequest) : History :=
  h.updateContactByKey convo fun p => { p with request := p.request.map f }

/-! ### The screens -/

def screenInbound (convo claimed : String) (now : ℕ) : InboundScreen × History :=
  if !h.requestsEnabled || h.requestExempt convo then (.allow, h) else
  match h.contactByKey convo with
  | some (_, pin) =>
    if pin.request.isNone then (.allow, h) else
    (.held, h.updateRequest convo fun req =>
      { req with
        last := now, seen := false
        withheld := if h.requestTextAllowed then req.withheld else saturatingSucc32 req.withheld })
  | none =>
    if h.claimedNameUnavailable claimed then (.dropped, h) else
    (.held, h.openRequest convo claimed
      { since := now, last := now, withheld := if h.requestTextAllowed then 0 else 1 })

def screenKnock (convo claimed : String) (now : ℕ) : History :=
  if !h.requestsEnabled || h.requestExempt convo then h else
  match h.contactByKey convo with
  | some _ => h.updateRequest convo fun req => { req with last := now, seen := false }
  | none =>
    if h.claimedNameUnavailable claimed then h else h.openRequest convo claimed { since := now, last := now }

/-- Whether the call may ring. -/
def screenCallOffer (senderKey claimed : String) (now : ℕ) : Bool × History :=
  let convo := h.attributeDevice senderKey
  if !h.requestsEnabled || h.requestExempt convo then (true, h) else
  match h.contactByKey convo with
  | some (_, pin) =>
    (pin.request.isNone, h.updateRequest convo fun req =>
      { req with last := now, seen := false, calls := saturatingSucc32 req.calls })
  | none =>
    if h.claimedNameUnavailable claimed then (false, h) else
    (false, h.openRequest convo claimed { since := now, last := now, calls := 1 })

def maxHeldInvites : ℕ := 8

/-- The invite replaces one to the same group, and is left out when there are enough. -/
def holdInvite (invites : List HeldInvite) (invite : HeldInvite) : List HeldInvite :=
  let others := invites.filter fun i => i.groupId ≠ invite.groupId
  if others.length < maxHeldInvites then others ++ [invite] else others

/-- Whether the gate took the invite. -/
def screenGroupInvite (convo : String) (invite : HeldInvite) (now : ℕ) : Bool × History :=
  if !h.requestsEnabled || h.requestExempt convo then (false, h) else
  match h.contactByKey convo with
  | none => (true, h)
  | some (_, pin) =>
    (pin.request.isSome, h.updateRequest convo fun req =>
      { req with last := now, seen := false, invites := holdInvite req.invites invite })

def controlGated (convo : String) : Bool :=
  if !h.requestsEnabled || h.requestExempt convo then false else
  match h.contactByKey convo with
  | none => true
  | some (_, pin) => pin.request.isSome

/-! ### Accepting and declining -/

/-- The name, picture and timer that an invite carries; a timer of zero is off. -/
def adoptCarried (groupId name : String) (avatar : Option String) (disappearingSecs : Option ℕ) :
    History :=
  let h := h.setGroupName groupId name
  let h := match avatar with
    | some a => (h.setGroupAvatar groupId (some a)).2
    | none => h
  match disappearingSecs with
  | none => h
  | some 0 => (h.setGroupTimer groupId none).2
  | some (n + 1) => (h.setGroupTimer groupId (some (n + 1))).2

/-- A held invite goes through adoption like any epoch. -/
def acceptInvite (C : Crypto) (now : ℕ) (inv : HeldInvite) : History :=
  match h.adoptGroupEpoch C now inv.epoch with
  | (.refused _, h) => h
  | (_, h) => h.adoptCarried inv.groupId inv.name inv.avatar inv.disappearingSecs

/-- The name a requester is accepted under; one without a claimed name keeps its key. -/
def acceptedName (req : PendingRequest) (key : String) : String :=
  if req.claimed = "" then key else req.claimed

/-- The first half of an acceptance: the row moves from the key to the claimed
name, unless a different contact has it. -/
def promote (key : String) : Option (PendingRequest × String × History) :=
  match h.contacts.get key with
  | none => none
  | some pin =>
    match pin.request with
    | none => none
    | some req =>
      let name := acceptedName req key
      if name ≠ key ∧ (h.contacts.get name).isSome then none else
      some (req, pin.identityKey,
        { h with contacts := (h.contacts.remove key).set name { pin with request := none } })

def acceptRequest (C : Crypto) (now : ℕ) (key : String) : Bool × History :=
  match h.promote key with
  | none => (false, h)
  | some (req, peer, h) =>
    let h := req.invites.foldl (fun h inv => h.acceptInvite C now inv) h
    (true, h.recordSystem peer "You accepted the message request" now)

/-- The key of the pending row of a conversation. -/
def pendingKey (convo : String) : Option String :=
  (h.contacts.find fun _ p => p.identityKey = convo && p.request.isSome).map (·.1)

def acceptRequestForKey (C : Crypto) (now : ℕ) (convo : String) : Bool × History :=
  match h.pendingKey convo with
  | some key => h.acceptRequest C now key
  | none => (false, h)

/-- The keys of the requests that are pending. -/
def pendingKeys : List String := (h.contacts.entries.filter fun e => e.2.request.isSome).map (·.1)

def setRequestPrefs (C : Crypto) (now : ℕ) (enabled allowText : Bool) : History :=
  let h := { h with openMessaging := !enabled, requestTextAllowed := allowText }
  if enabled then h else h.pendingKeys.foldl (fun h key => (h.acceptRequest C now key).2) h

def declineRequest (key : String) (block : Bool) : Bool × History :=
  match h.contacts.get key with
  | none => (false, h)
  | some pin =>
    match pin.request with
    | none => (false, h)
    | some req =>
      let dead := (req.invites.map (·.groupId)).filter fun gid => !h.hasGroup gid
      let contacts :=
        if block then h.contacts.modify key fun p => { p with request := none, blocked := true }
        else h.contacts.remove key
      let h := { h with contacts, heldGroupContent := h.heldGroupContent.removeAll dead }
      (true, h.deleteConversation pin.identityKey)

def markRequestsSeen : History :=
  { h with
    contacts := h.contacts.mapValues fun p => { p with request := p.request.map fun r => { r with seen := true } } }

/-- Whether the user is to be told of the request, which happens once. -/
def requestNeedsNotify (convo : String) : Bool × History :=
  match h.contactByKey convo with
  | none => (false, h)
  | some (_, pin) =>
    (pin.request.any fun r => !r.notified, h.updateRequest convo fun r => { r with notified := true })

end History

end Sona
