/-
# Messages and threads

`client-core/src/history/model.rs` and the message part of `mod.rs`: what a
client stores of a message, and what it does to one list of messages, be it a
conversation or the thread of a group. A thread is kept in the order of the
senders' timestamps (`insertMessageOrdered`), a message that carries a timer
gets its time of deletion from it (`carriedDeleteAt`), and a change of one
message is a change of the first that matches (`updateFirst`).

The clock is an argument, read once for each operation.

Key definitions: `StoredMessage`, `insertMessageOrdered`, `carriedDeleteAt`, `applyReaction`,
`sanitizeAvatar`.
-/
import Mathlib.Data.List.Basic
import Sona.Wire

namespace Sona

/-! ### Messages -/

structure AttachmentRef where
  blobId : String
  key : String
  filename : String
  size : ℕ
  contentHash : String
  ts : ℕ
  voice : Bool := false
  durationSecs : ℕ := 0
  caption : Option String := none
  peaks : List ℕ := []
deriving DecidableEq, Repr

/-- The message that another one quotes. -/
structure ReplyRef where
  msgId : String
  preview : String
deriving DecidableEq, Repr

inductive Direction
  | outgoing
  | incoming
deriving DecidableEq, Repr

/-- How far an outgoing message got, in this order. -/
inductive DeliveryStatus
  | sent
  | delivered
  | seen
deriving DecidableEq, Repr

def DeliveryStatus.rank : DeliveryStatus → ℕ
  | .sent => 0
  | .delivered => 1
  | .seen => 2

/-- The later of two. -/
def DeliveryStatus.upgrade (a b : DeliveryStatus) : DeliveryStatus :=
  if a.rank < b.rank then b else a

/-- A reaction; the empty reactor is the user. -/
structure Reaction where
  reactor : String
  emoji : String
deriving DecidableEq, Repr

structure StoredMessage where
  msgId : String
  direction : Direction
  body : String
  sentAt : ℕ
  deleteAt : Option ℕ
  attachment : Option AttachmentRef := none
  sender : Option String := none
  status : DeliveryStatus := .sent
  seenReceipted : Bool := false
  edited : Bool := false
  reply : Option ReplyRef := none
  reactions : List Reaction := []
  system : Bool := false
  pinned : Bool := false
  forwarded : Bool := false
deriving DecidableEq, Repr

/-! ### Timers -/

/-- How far a sender's clock may run ahead. -/
def maxFutureTsSkewSecs : ℕ := 300

def disappearAt (now : ℕ) (disappearingSecs : Option ℕ) (sentAt : ℕ) : Option ℕ :=
  disappearingSecs.map fun d => saturatingAdd (min sentAt (saturatingAdd now maxFutureTsSkewSecs)) d

/-- A timer that the message carries wins over the stored one; zero is no timer. -/
def carriedDeleteAt (now : ℕ) (storedSecs expireSecs : Option ℕ) (sentAt : ℕ) : Option ℕ :=
  match expireSecs with
  | some 0 => none
  | some (n + 1) => disappearAt now (some (n + 1)) sentAt
  | none => disappearAt now storedSecs sentAt

def StoredMessage.expired (now : ℕ) (m : StoredMessage) : Bool :=
  match m.deleteAt with
  | some t => t ≤ now
  | none => false

/-! ### Reactions -/

def maxReactionsPerMessage : ℕ := 64

def applyReaction (reactions : List Reaction) (reactor emoji : String) (add : Bool) :
    List Reaction :=
  if emoji = "" ∨ emoji.toList.length > 8 then reactions else
  let existing := reactions.any fun r => r.reactor = reactor && r.emoji = emoji
  if add && !existing && decide (reactions.length ≥ maxReactionsPerMessage) then reactions else
  match add, existing with
  | true, false => reactions ++ [⟨reactor, emoji⟩]
  | false, true => reactions.eraseP fun r => r.reactor = reactor && r.emoji = emoji
  | _, _ => reactions

/-! ### Avatars -/

def maxAvatarBytes : ℕ := 262144

/-- `str::split_once`: what stands before and behind the first `sep`. -/
def splitOnce (sep : List Char) : List Char → Option (List Char × List Char)
  | [] => if sep.isEmpty then some ([], []) else none
  | c :: cs =>
    if sep.isPrefixOf (c :: cs) then some ([], (c :: cs).drop sep.length) else
    (splitOnce sep cs).map fun p => (c :: p.1, p.2)

/-- A `data:` URI of an image in base64, of a known type and not too long. -/
def validAvatar (s : String) : Bool :=
  if (utf8 s).length > maxAvatarBytes then false else
  let start := "data:image/".toList
  if !start.isPrefixOf s.toList then false else
  match splitOnce ";base64,".toList (s.toList.drop start.length) with
  | none => false
  | some (kind, data) =>
    ["png", "jpeg", "jpg", "webp", "gif"].contains (String.ofList kind) && !data.isEmpty &&
      data.all fun c => c.isAlphanum || c = '+' || c = '/' || c = '='

def sanitizeAvatar (avatar : Option String) : Option String :=
  avatar.filter fun a => !(trim a.toList).isEmpty && validAvatar a

/-! ### Threads -/

/-- The message goes before those that were sent after it, at the end of the thread. -/
def insertMessageOrdered (msgs : List StoredMessage) (m : StoredMessage) : List StoredMessage :=
  (msgs.reverse.dropWhile fun x => x.sentAt > m.sentAt).reverse ++
    m :: (msgs.reverse.takeWhile fun x => x.sentAt > m.sentAt).reverse

/-- `iter_mut().find(..)` and a change of what it found. -/
def updateFirst {α : Type} (p : α → Bool) (f : α → α) : List α → List α
  | [] => []
  | a :: as => if p a then f a :: as else a :: updateFirst p f as

/-- The message is stored unless its id is there already. -/
def recordOnce (msgs : List StoredMessage) (m : StoredMessage) : List StoredMessage :=
  if msgs.any fun x => x.msgId = m.msgId then msgs else insertMessageOrdered msgs m

/-- A chip of the client's own, with the name `tag` in its id. -/
def chip (tag text : String) (at_ : ℕ) (n : ℕ) : StoredMessage :=
  { msgId := s!"{tag}-{at_}-{n}", direction := .incoming, body := text, sentAt := at_,
    deleteAt := none
    seenReceipted := true, system := true }

/-- A system chip, unless the last entry says the same. -/
def recordChip (msgs : List StoredMessage) (text : String) (at_ : ℕ) : List StoredMessage :=
  if msgs.getLast?.any fun m => m.system && m.body = text then msgs else msgs ++ [chip "sys" text at_ msgs.length]

/-- A chip for a call: never left out. -/
def recordCallChip (msgs : List StoredMessage) (text : String) (at_ : ℕ) : List StoredMessage :=
  msgs ++ [chip "call" text at_ msgs.length]

def reactIn (msgs : List StoredMessage) (targetMsgId reactor emoji : String) (add : Bool) :
    List StoredMessage :=
  updateFirst (·.msgId = targetMsgId) (fun m => { m with reactions := applyReaction m.reactions reactor emoji add }) msgs

def setPinnedIn (msgs : List StoredMessage) (msgId : String) (pin : Bool) : List StoredMessage :=
  updateFirst (·.msgId = msgId) (fun m => { m with pinned := pin }) msgs

def setForwardedIn (msgs : List StoredMessage) (msgId : String) : List StoredMessage :=
  updateFirst (·.msgId = msgId) (fun m => { m with forwarded := true }) msgs

/-- The first message that matches gets a new body. -/
def editIn (msgs : List StoredMessage) (p : StoredMessage → Bool) (body : String) :
    List StoredMessage :=
  updateFirst p (fun m => { m with body, edited := true }) msgs

/-- `sort_by_key`, which is stable. -/
def sortThread (msgs : List StoredMessage) : List StoredMessage :=
  msgs.mergeSort fun a b => a.sentAt ≤ b.sentAt

end Sona
