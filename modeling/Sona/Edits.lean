/-
# What is done to the threads

The messages of a history lie in threads, one for each peer and one for each
group. This is the abstract side of `History.apply`: an event makes a list of
edits, each to one thread, and `History.applyEdits` says which. A thread that
an event finds is all that an edit looks at, so a statement about threads (that
they stay sorted, that a chip stays as it is, that an order of two events does
not matter) is one about edits, and `edited_apply` takes it to the code.

Content of a group is one edit, be it written down when it comes or when it is
replayed from the quarantine: `renderIn` is its effect on the thread.

Key definitions: `Chat`, `History.thread`, `Edit`, `renderIn`, `History.applyEdits`, `Edited`.
Key theorems: `replayOne_eq`, `replay_eq`, `edited_replayHeldGroupContent`, `edited_acceptRequest`,
`edited_apply`.
-/
import Mathlib.Data.List.Basic
import Mathlib.Logic.Function.Basic
import Sona.Lib.Table
import Sona.Lib.Trace
import Sona.Inbound
import Sona.Epochs

namespace Sona

/-! ### Threads and edits -/

/-- A thread is that of a peer or that of a group. -/
inductive Chat
  | peer (key : String)
  | group (id : String)
deriving DecidableEq, Repr

/-- The messages of a chat, if it is there. -/
def History.thread (h : History) : Chat → Option (List StoredMessage)
  | .peer key => (h.conversations.get key).map (·.messages)
  | .group id => (h.groups.get id).map (·.messages)

theorem thread_peer (h : History) (key : String) :
    h.thread (.peer key) = (h.conversations.get key).map (·.messages) := rfl

theorem thread_group (h : History) (id : String) :
    h.thread (.group id) = (h.groups.get id).map (·.messages) := rfl

/-- What may be done to one message. -/
inductive Change
  | body (text : String)
  | reaction (reactor emoji : String) (add : Bool)
  | pinned (pin : Bool)
  | forwarded
deriving DecidableEq, Repr

def Change.on (m : StoredMessage) : Change → StoredMessage
  | .body text => { m with body := text, edited := true }
  | .reaction reactor emoji add => { m with reactions := applyReaction m.reactions reactor emoji add }
  | .pinned pin => { m with pinned := pin }
  | .forwarded => { m with forwarded := true }

/-- A message as it is stored when it comes. -/
def textMessage (now : ℕ) (timer : Option ℕ) (direction : Direction) (msgId body : String)
    (sentAt : ℕ) (reply : Option ReplyRef) (expireSecs : Option ℕ) : StoredMessage :=
  { msgId, direction, body, sentAt, deleteAt := carriedDeleteAt now timer expireSecs sentAt, reply }

def fileMessage (now : ℕ) (timer : Option ℕ) (direction : Direction) (msgId : String)
    (attachment : AttachmentRef) (sentAt : ℕ) (expireSecs : Option ℕ) : StoredMessage :=
  { msgId, direction, body := attachment.filename, sentAt
    deleteAt := carriedDeleteAt now timer expireSecs sentAt, attachment := some attachment }

/-- What is a sender's own in a thread: stored under their key. -/
def sentBy (sender msgId : String) (m : StoredMessage) : Bool :=
  m.msgId = msgId && m.sender = some sender

/-- The effect of group content on the thread. -/
def renderIn (now : ℕ) (timer : Option ℕ) (sender : String) (msgs : List StoredMessage) :
    HeldGroupContent → List StoredMessage
  | .message msgId body sentAt expireSecs reply forwarded =>
    let m := { textMessage now timer .incoming msgId body sentAt reply expireSecs with sender := some sender }
    if forwarded then setForwardedIn (recordOnce msgs m) msgId else recordOnce msgs m
  | .attachment msgId attachment sentAt expireSecs forwarded =>
    let m := { fileMessage now timer .incoming msgId attachment sentAt expireSecs with sender := some sender }
    if forwarded then setForwardedIn (recordOnce msgs m) msgId else recordOnce msgs m
  | .reaction targetMsgId emoji add => reactIn msgs targetMsgId sender emoji add
  | .edit msgId body => editIn msgs (sentBy sender msgId) body
  | .delete msgId => msgs.filter fun m => !sentBy sender msgId m

inductive Edit
  /-- The thread is there from now on. -/
  | create
  /-- And from now on it is not. -/
  | clear
  | record (m : StoredMessage)
  | content (now : ℕ) (timer : Option ℕ) (sender : String) (content : HeldGroupContent)
  | chip (text : String) (at_ : ℕ)
  | callChip (text : String) (at_ : ℕ)
  | change (p : StoredMessage → Bool) (c : Change)
  | receipt (ids : List String) (target : DeliveryStatus)
  | seen (ids : List String)
  | drop (p : StoredMessage → Bool)

namespace Edit

/-- The effect on a thread that is there. -/
def on (msgs : List StoredMessage) : Edit → List StoredMessage
  | create | clear => msgs
  | record m => recordOnce msgs m
  | content now timer sender c => renderIn now timer sender msgs c
  | chip text at_ => recordChip msgs text at_
  | callChip text at_ => recordCallChip msgs text at_
  | change p c => updateFirst p (Change.on · c) msgs
  | receipt ids target => msgs.map fun m =>
      if m.direction = .outgoing ∧ m.msgId ∈ ids then { m with status := m.status.upgrade target } else m
  | seen ids => msgs.map fun m => if m.direction = .incoming ∧ m.msgId ∈ ids then { m with seenReceipted := true } else m
  | drop p => msgs.filter fun m => !p m

def run (e : Edit) (t : Option (List StoredMessage)) : Option (List StoredMessage) :=
  match e with
  | create => some (t.getD [])
  | clear => none
  | e => t.map (on · e)

end Edit

/-- One edit of one chat. -/
def editStep (threads : Chat → Option (List StoredMessage)) (e : Chat × Edit) :
    Chat → Option (List StoredMessage) :=
  Function.update threads e.1 (e.2.run (threads e.1))

/-! ### The edits of an operation -/

/-- A message of a chat, and its tag if it was forwarded. -/
def storedEdits (c : Chat) (m : StoredMessage) (forwarded : Bool) : List (Chat × Edit) :=
  if forwarded then [(c, .create), (c, .record m), (c, .change (·.msgId = m.msgId) .forwarded)]
  else [(c, .create), (c, .record m)]

namespace History

variable (h : History)

/-- The held content that an adoption at the time `now` writes down. -/
def rendered (groupId : String) (now : ℕ) : List HeldGroupEvent :=
  (((h.pruneHeldGroupContent now).heldGroupContent.get groupId).getD []).filter fun e =>
    (h.groupMemberLabel groupId e.sender).isSome

def replayEdits (groupId : String) (now : ℕ) (es : List HeldGroupEvent) : List (Chat × Edit) :=
  es.map fun e => (.group groupId, .content now (h.groupTimer groupId) e.sender e.content)

/-- The group with the roster of an epoch that passes, before anything is replayed. -/
def installed (C : Crypto) (epoch : GroupEpoch) : Option History :=
  match h.groupAdmin epoch.groupId with
  | some pin =>
    match epoch.verifySuccession C pin.epochSeq pin.adminKey with
    | .error _ => none
    | .ok () => some (h.updateGroup epoch.groupId (·.install epoch pin.creatorAdminKey))
  | none =>
    match epoch.validateBaseline C with
    | .error _ => none
    | .ok () =>
      let creatorAdminKey := if epoch.seq = 0 then some epoch.adminKey else none
      some { h with
        groups := h.groups.set epoch.groupId
          (((h.groups.get epoch.groupId).getD {}).install epoch creatorAdminKey) }

def adoptEdits (C : Crypto) (now : ℕ) (epoch : GroupEpoch) : List (Chat × Edit) :=
  match h.installed C epoch with
  | none => []
  | some h => (.group epoch.groupId, .create) :: h.replayEdits epoch.groupId now (h.rendered epoch.groupId now)

def inviteEdits (C : Crypto) (now : ℕ) : List HeldInvite → History → List (Chat × Edit)
  | [], _ => []
  | inv :: invs, h => h.adoptEdits C now inv.epoch ++ inviteEdits C now invs (h.acceptInvite C now inv)

def chipEdits (c : Chat) (text : String) (at_ : ℕ) : List (Chat × Edit) :=
  [(c, .create), (c, .chip text at_)]

def acceptEdits (C : Crypto) (now : ℕ) (key : String) : List (Chat × Edit) :=
  match h.promote key with
  | none => []
  | some (req, peer, h) =>
    inviteEdits C now req.invites h ++ chipEdits (.peer peer) "You accepted the message request" now

def acceptForKeyEdits (C : Crypto) (now : ℕ) (convo : String) : List (Chat × Edit) :=
  match h.pendingKey convo with
  | some key => h.acceptEdits C now key
  | none => []

/-- The chip for the user's own way in or out of a group. -/
def membershipEdits (now : ℕ) (epoch : GroupEpoch) (wasMember : Bool) : List (Chat × Edit) :=
  let isMember := h.selfPrimaryKey.any epoch.isMember
  if wasMember && !isMember then [(.group epoch.groupId, .chip "You were removed from the group" now)]
  else if !wasMember && isMember then [(.group epoch.groupId, .chip "You were added back to the group" now)]
  else []

def rosterEdits (C : Crypto) (now : ℕ) (epoch : GroupEpoch) : List (Chat × Edit) :=
  h.adoptEdits C now epoch ++
    if (h.groupAdmin epoch.groupId).isSome ∧ (h.installed C epoch).isSome then
      h.membershipEdits now epoch (h.selfIsMember epoch.groupId)
    else []

/-- Content of a conversation that the gate let in. -/
def screenedEdits (now : ℕ) (convo claimed : String) (edits : List (Chat × Edit)) :
    List (Chat × Edit) :=
  match (h.screenInbound convo claimed now).1 with
  | .dropped => []
  | _ => edits

/-- Content of a group, of a member. -/
def gatedEdits (now : ℕ) (groupId sender : String) (content : HeldGroupContent) :
    List (Chat × Edit) :=
  if (h.groupMemberLabel groupId sender).isNone then []
  else [(.group groupId, .content now (h.groupTimer groupId) sender content)]

def renameEdits (now : ℕ) (sender groupId name : String) : List (Chat × Edit) :=
  match h.groupMemberLabel groupId sender with
  | none => []
  | some who =>
    if (trim name.toList).isEmpty then [] else
    if (h.renameGroup groupId name).1 then
      [(.group groupId, .chip (who ++ " renamed the group to \"" ++ String.ofList (trim name.toList) ++ "\"") now)]
    else []

def leaveEdits (now : ℕ) (sender groupId : String) : List (Chat × Edit) :=
  match h.groupMemberLabel groupId sender with
  | none => []
  | some who =>
    if who = "You" then [(.group groupId, .chip "You left the group" now)]
    else if (h.removeGroupMember groupId sender).1.isSome then [(.group groupId, .chip (who ++ " left the group") now)]
    else []

/-- The edits that an event makes, in their order. -/
def applyEdits (C : Crypto) (now : ℕ) : InboundEvent → List (Chat × Edit)
  | .message sender username msgId body sentAt reply expireSecs forwarded =>
    let convo := h.attributeDevice sender
    h.screenedEdits now convo username
      (storedEdits (.peer convo) (textMessage now (h.timer convo) .incoming msgId body sentAt reply expireSecs) forwarded)
  | .messageEdited sender msgId body =>
    [(.peer (h.attributeDevice sender), .change (fun m => m.msgId = msgId && m.direction = .incoming) (.body body))]
  | .messageDeleted sender msgId =>
    [(.peer (h.attributeDevice sender), .drop fun m => m.msgId = msgId && m.direction = .incoming)]
  | .timerUpdate sender _ =>
    let convo := h.attributeDevice sender
    if h.controlGated convo then [] else [(.peer convo, .create)]
  | .attachment sender username msgId attachment sentAt expireSecs forwarded =>
    let convo := h.attributeDevice sender
    h.screenedEdits now convo username
      (storedEdits (.peer convo) (fileMessage now (h.timer convo) .incoming msgId attachment sentAt expireSecs) forwarded)
  | .receipt sender ids seen =>
    [(.peer (h.attributeDevice sender), .receipt ids (if seen then DeliveryStatus.seen else .delivered))]
  | .chatDeleted sender => [(.peer (h.attributeDevice sender), .clear)]
  | .selfSentText sender peerKey _ msgId body sentAt reply expireSecs forwarded =>
    if h.isOwnDevice sender then
      h.acceptForKeyEdits C now peerKey ++ storedEdits (.peer peerKey)
        (textMessage now (h.timer peerKey) .outgoing msgId body sentAt reply expireSecs) forwarded
    else []
  | .selfSentFile sender peerKey _ msgId attachment expireSecs forwarded =>
    if h.isOwnDevice sender then
      h.acceptForKeyEdits C now peerKey ++ storedEdits (.peer peerKey)
        (fileMessage now (h.timer peerKey) .outgoing msgId attachment attachment.ts expireSecs) forwarded
    else []
  | .selfReadSeen sender peerKey ids =>
    if h.isOwnDevice sender then [(.peer peerKey, .seen ids)] else []
  | .forwardedIncoming sender fromKey fromUsername msgId body sentAt reply attachment expireSecs =>
    if h.isOwnDevice sender then
      let convo := h.attributeDevice fromKey
      h.screenedEdits now convo fromUsername (storedEdits (.peer convo)
        (match attachment with
        | some att => fileMessage now (h.timer convo) .incoming msgId att sentAt expireSecs
        | none => textMessage now (h.timer convo) .incoming msgId body sentAt reply expireSecs) false)
    else []
  | .groupRosterUpdate sender epoch name disappearingSecs avatar =>
    match h.screenRosterUpdate now sender epoch name disappearingSecs avatar with
    | (true, _) => []
    | (false, h) => h.rosterEdits C now epoch
  | .groupMessage sender groupId msgId body sentAt expireSecs reply forwarded =>
    h.gatedEdits now groupId (h.attributeDevice sender) (.message msgId body sentAt expireSecs reply forwarded)
  | .groupMessageEdited sender groupId msgId body =>
    h.gatedEdits now groupId (h.attributeDevice sender) (.edit msgId body)
  | .groupMessageDeleted sender groupId msgId =>
    h.gatedEdits now groupId (h.attributeDevice sender) (.delete msgId)
  | .groupRenamed sender groupId name => h.renameEdits now (h.attributeDevice sender) groupId name
  | .groupMemberLeft sender groupId => h.leaveEdits now (h.attributeDevice sender) groupId
  | .groupAttachment sender groupId msgId attachment sentAt expireSecs forwarded =>
    h.gatedEdits now groupId (h.attributeDevice sender) (.attachment msgId attachment sentAt expireSecs forwarded)
  | .reaction sender targetMsgId emoji add =>
    let convo := h.attributeDevice sender
    [(.peer convo, .change (·.msgId = targetMsgId) (.reaction convo emoji add))]
  | .selfTimerUpdate sender peerKey _ =>
    if h.isOwnDevice sender then [(.peer peerKey, .create)] else []
  | .selfReaction sender peerKey targetMsgId emoji add =>
    if h.isOwnDevice sender then [(.peer peerKey, .change (·.msgId = targetMsgId) (.reaction "" emoji add))] else []
  | .groupReaction sender groupId targetMsgId emoji add =>
    if h.isOwnDevice sender then [(.group groupId, .change (·.msgId = targetMsgId) (.reaction "" emoji add))] else
    h.gatedEdits now groupId (h.attributeDevice sender) (.reaction targetMsgId emoji add)
  | .messagePinned sender msgId pin =>
    let convo := h.attributeDevice sender
    if h.controlGated convo then [] else [(.peer convo, .change (·.msgId = msgId) (.pinned pin))]
  | .selfMessagePinned sender peerKey msgId pin =>
    if h.isOwnDevice sender then [(.peer peerKey, .change (·.msgId = msgId) (.pinned pin))] else []
  | .groupMessagePinned sender groupId msgId pin =>
    if (h.groupMemberLabel groupId (h.attributeDevice sender)).isSome then
      [(.group groupId, .change (·.msgId = msgId) (.pinned pin))]
    else []
  | .knock .. | .groupTimerUpdate .. | .renamed .. | .profileUpdate .. | .groupAvatarUpdate .. | .selfProfileUpdate ..
  | .other => []

end History

/-! ### Operations that make edits -/

/-- Who renames a group or leaves it puts a chip there, or nothing. -/
theorem renameEdits_cases (h : History) (now : ℕ) (sender gid name : String) :
    h.renameEdits now sender gid name = [] ∨
    ∃ text, h.renameEdits now sender gid name = [(.group gid, .chip text now)] := by
  unfold History.renameEdits
  split
  · exact Or.inl rfl
  split
  · exact Or.inl rfl
  split
  · exact Or.inr ⟨_, rfl⟩
  · exact Or.inl rfl

theorem leaveEdits_cases (h : History) (now : ℕ) (sender gid : String) :
    h.leaveEdits now sender gid = [] ∨
    ∃ text, h.leaveEdits now sender gid = [(.group gid, .chip text now)] := by
  unfold History.leaveEdits
  split
  · exact Or.inl rfl
  split
  · exact Or.inr ⟨_, rfl⟩
  split
  · exact Or.inr ⟨_, rfl⟩
  · exact Or.inl rfl

/-- From `h` to `h'` the threads go through the edits `es`. -/
def Edited (h : History) (es : List (Chat × Edit)) (h' : History) : Prop :=
  h'.thread = Trace.run editStep h.thread es

theorem Edited.of_thread {h h' : History} (ht : h'.thread = h.thread) : Edited h [] h' := ht

theorem Edited.trans {h h' h'' : History} {es fs : List (Chat × Edit)} (he : Edited h es h')
    (hf : Edited h' fs h'') :
    Edited h (es ++ fs) h'' := by
  unfold Edited at he hf ⊢
  rw [Trace.run_append, ← he, hf]

/-- Nothing more is done to the threads. -/
theorem Edited.behind {h h' h'' : History} {es : List (Chat × Edit)} (he : Edited h es h')
    (ht : h''.thread = h'.thread) : Edited h es h'' := by
  unfold Edited at he ⊢
  rw [ht, he]

/-- Nothing was done to the threads before. -/
theorem Edited.before {h h' h'' : History} {es : List (Chat × Edit)} (ht : h'.thread = h.thread)
    (he : Edited h' es h'') : Edited h es h'' := by
  unfold Edited at he ⊢
  rw [he, ht]

/-- One edit of one thread. -/
theorem Edited.single {h h' : History} {c : Chat} {e : Edit}
    (ht : ∀ d, h'.thread d = if d = c then e.run (h.thread c) else h.thread d) :
    Edited h [(c, e)] h' := by
  funext d
  rw [ht d, Trace.run_cons, Trace.run_nil, editStep, Function.update_apply]

/-! ### Operations that leave the threads alone -/

section kept

variable {h h' : History}

theorem thread_of (hc : h'.conversations = h.conversations) (hg : h'.groups = h.groups) :
    h'.thread = h.thread := by
  funext c
  cases c with
  | peer key => simp only [History.thread, hc]
  | group id => simp only [History.thread, hg]

theorem thread_updateGroup {f : GroupRecord → GroupRecord}
    (k : List StoredMessage → List StoredMessage) (hf : ∀ g, (f g).messages = k g.messages)
    (gid : String) (c : Chat) :
    (h.updateGroup gid f).thread c = if c = .group gid then (h.thread c).map k else h.thread c := by
  cases c with
  | peer key => rw [if_neg (by simp)]; rfl
  | group id =>
    have hget : (h.updateGroup gid f).groups.get id = (h.groups.modify gid f).get id := rfl
    rw [thread_group, thread_group, hget, Table.get_modify]
    by_cases hid : id = gid
    · subst hid
      rw [if_pos rfl, if_pos rfl]
      cases h.groups.get id with
      | none => rfl
      | some g => exact congrArg some (hf g)
    · rw [if_neg hid, if_neg (by simp [hid])]

/-- A change of a group that is none of its messages. -/
theorem thread_updateGroup_same {f : GroupRecord → GroupRecord}
    (hf : ∀ g, (f g).messages = g.messages) (gid : String) :
    (h.updateGroup gid f).thread = h.thread := by
  funext c
  rw [thread_updateGroup id hf]
  split
  · exact Option.map_id_apply
  · rfl

theorem edited_updateThread {e : Edit} (f : List StoredMessage → List StoredMessage)
    (hrun : ∀ t, e.run t = t.map f) (gid : String) :
    Edited h [(.group gid, e)] (h.updateThread gid f) := by
  apply Edited.single
  intro d
  unfold History.updateThread
  rw [thread_updateGroup f (fun _ => rfl)]
  split
  · rename_i hd
    rw [hd, hrun]
  · rfl

theorem edited_updateMessages {e : Edit} (f : List StoredMessage → List StoredMessage)
    (hrun : ∀ t, e.run t = t.map f) (peer : String) :
    Edited h [(.peer peer, e)] (h.updateMessages peer f) := by
  apply Edited.single
  intro d
  cases d with
  | group id => rw [if_neg (by simp)]; rfl
  | peer key =>
    have hget : (h.updateMessages peer f).conversations.get key =
        (h.conversations.modify peer fun c => { c with messages := f c.messages }).get key := rfl
    rw [thread_peer, hget, Table.get_modify]
    by_cases hkey : key = peer
    · subst hkey
      rw [if_pos rfl, if_pos rfl, hrun, thread_peer]
      cases h.conversations.get key <;> rfl
    · rw [if_neg hkey, if_neg (by simp [hkey]), thread_peer]

theorem thread_intoConversation {f : Conversation → Conversation} (peer : String) (d : Chat) :
    (h.intoConversation peer f).thread d =
      if d = .peer peer then some (f ((h.conversations.get peer).getD {})).messages else h.thread d := by
  cases d with
  | group id => rw [if_neg (by simp)]; rfl
  | peer key =>
    have hget : (h.intoConversation peer f).conversations.get key =
        (h.conversations.set peer (f ((h.conversations.get peer).getD {}))).get key := rfl
    rw [thread_peer, hget, Table.get_set]
    by_cases hkey : key = peer
    · rw [if_pos hkey, if_pos (by simp [hkey])]
      rfl
    · rw [if_neg hkey, if_neg (by simp [hkey]), thread_peer]

/-- A conversation is made if it is not there, and edited. -/
theorem edited_intoConversation {e : Edit} {f : Conversation → Conversation} (peer : String)
    (hrun : ∀ msgs, e.run (some msgs) = some (e.on msgs))
    (hf : (f ((h.conversations.get peer).getD {})).messages = e.on (h.messages peer)) :
    Edited h [(.peer peer, .create), (.peer peer, e)] (h.intoConversation peer f) := by
  have hmsgs : h.messages peer = (h.thread (.peer peer)).getD [] := rfl
  funext d
  rw [thread_intoConversation]
  simp only [Trace.run_cons, Trace.run_nil, editStep, Function.update_apply]
  by_cases hd : d = .peer peer
  · rw [if_pos hd, if_pos hd, if_pos trivial, hf, hmsgs]
    exact (hrun _).symm
  · rw [if_neg hd, if_neg hd, if_neg hd]

/-- Or it is made, and nothing else. -/
theorem edited_setTimer (h : History) (peer : String) (secs : Option ℕ) :
    Edited h [(.peer peer, .create)] (h.setTimer peer secs) := by
  apply Edited.single
  intro d
  unfold History.setTimer
  rw [thread_intoConversation]
  split
  · rw [thread_peer]
    cases h.conversations.get peer <;> rfl
  · rfl

end kept

/-! ### Operations on contacts only -/

/-- Nothing but the contacts differs. -/
def OnlyContacts (h h' : History) : Prop := h' = { h with contacts := h'.contacts }

namespace OnlyContacts

variable {h h' h'' : History}

theorem refl (h : History) : OnlyContacts h h := rfl

theorem trans (hf : OnlyContacts h h') (hg : OnlyContacts h' h'') : OnlyContacts h h'' := by
  unfold OnlyContacts at hf hg ⊢
  rw [hg, hf]

theorem thread_eq (hf : OnlyContacts h h') : h'.thread = h.thread := by
  rw [hf]
  exact thread_of rfl rfl

theorem timer_eq (hf : OnlyContacts h h') (peer : String) : h'.timer peer = h.timer peer := by
  rw [hf]
  rfl

theorem updateContactByKey (h : History) (key : String) (f : ContactPin → ContactPin) :
    OnlyContacts h (h.updateContactByKey key f) := by
  unfold History.updateContactByKey
  split <;> rfl

theorem autoPinNamed (h : History) (username key : String) :
    OnlyContacts h (h.autoPinNamed username key) := by
  unfold History.autoPinNamed History.autoPinContact
  split
  · rfl
  split
  · rfl
  split <;> rfl

theorem screenInbound (h : History) (convo claimed : String) (now : ℕ) :
    OnlyContacts h (h.screenInbound convo claimed now).2 := by
  unfold History.screenInbound
  split
  · rfl
  split
  · split
    · rfl
    · exact updateContactByKey h _ _
  · split <;> rfl

theorem screenKnock (h : History) (convo claimed : String) (now : ℕ) :
    OnlyContacts h (h.screenKnock convo claimed now) := by
  unfold History.screenKnock
  split
  · rfl
  split
  · exact updateContactByKey h _ _
  · split <;> rfl

theorem screenGroupInvite (h : History) (convo : String) (invite : HeldInvite) (now : ℕ) :
    OnlyContacts h (h.screenGroupInvite convo invite now).2 := by
  unfold History.screenGroupInvite
  split
  · rfl
  split
  · rfl
  · exact updateContactByKey h _ _

theorem screenRosterUpdate (h : History) (now : ℕ) (sender : String) (epoch : GroupEpoch)
    (name : String) (secs : Option ℕ) (avatar : Option String) :
    OnlyContacts h (h.screenRosterUpdate now sender epoch name secs avatar).2 := by
  unfold History.screenRosterUpdate
  split
  · rfl
  · exact screenGroupInvite h _ _ _

theorem renameContact (h : History) (key newUsername : String) :
    OnlyContacts h (h.renameContact key newUsername).2 := by
  unfold History.renameContact
  split
  · rfl
  split <;> rfl

theorem promote {key peer : String} {req : PendingRequest}
    (hp : h.promote key = some (req, peer, h')) :
    OnlyContacts h h' := promote_contacts hp

end OnlyContacts

/-! ### Content of a group -/

section content

variable {h : History}

theorem updateGroup_congr {gid : String} {f g : GroupRecord → GroupRecord}
    (hfg : ∀ r, h.groups.get gid = some r → f r = g r) :
    h.updateGroup gid f = h.updateGroup gid g := by
  unfold History.updateGroup
  rw [Table.modify_congr hfg]

theorem updateThread_updateThread (gid : String) (f k : List StoredMessage → List StoredMessage) :
    (h.updateThread gid f).updateThread gid k = h.updateThread gid fun msgs => k (f msgs) := by
  unfold History.updateThread History.updateGroup
  rw [Table.modify_modify]

theorem updateThread_groupTimer (gid : String) (f : List StoredMessage → List StoredMessage)
    (j : String) :
    (h.updateThread gid f).groupTimer j = h.groupTimer j := by
  unfold History.updateThread History.updateGroup History.groupTimer
  rw [Table.get_modify]
  by_cases hj : j = gid
  · subst hj
    rw [if_pos rfl]
    cases h.groups.get j <;> rfl
  · rw [if_neg hj]

/-- The label is read off the roster and the user's own account. -/
theorem groupMemberLabel_congr {h h' : History} (hself : h'.selfPrimaryKey = h.selfPrimaryKey)
    (howner : h'.deviceOwner = h.deviceOwner) {gid : String}
    (hroster : h'.roster gid = h.roster gid) (key : String) :
    h'.groupMemberLabel gid key = h.groupMemberLabel gid key := by
  have hlabel : ∀ h : History, (h.groups.get gid).bind
      (fun g => (g.members.find? (·.identityKey = key)).map (·.username)) =
      (h.roster gid).bind fun r => (r.members.find? (·.identityKey = key)).map (·.username) := by
    intro h
    unfold History.roster
    cases h.groups.get gid <;> rfl
  unfold History.groupMemberLabel History.isOwnDevice
  rw [hself, howner, hlabel h, hlabel h', hroster]

theorem groupMemberLabel_updateThread (gid : String) (f : List StoredMessage → List StoredMessage)
    (j key : String) :
    (h.updateThread gid f).groupMemberLabel j key = h.groupMemberLabel j key := by
  apply groupMemberLabel_congr
  · rfl
  · rfl
  · rw [roster_of_standing (standing_updateThread h gid f)]

theorem recordGroupMessage_eq (now : ℕ) (gid sender msgId body : String) (sentAt : ℕ)
    (expireSecs : Option ℕ) (reply : Option ReplyRef) :
    h.recordGroupMessage now gid sender msgId body sentAt expireSecs reply =
      h.updateThread gid (recordOnce ·
      { textMessage now (h.groupTimer gid) .incoming msgId body sentAt reply expireSecs with sender := some sender }) := by
  apply updateGroup_congr
  intro g hg
  have htimer : h.groupTimer gid = g.disappearingSecs := by simp [History.groupTimer, hg]
  rw [htimer]
  rfl

theorem recordGroupAttachment_eq (now : ℕ) (gid sender msgId : String) (attachment : AttachmentRef)
    (sentAt : ℕ) (expireSecs : Option ℕ) :
    h.recordGroupAttachment now gid sender msgId attachment sentAt expireSecs =
      h.updateThread gid (recordOnce ·
      { fileMessage now (h.groupTimer gid) .incoming msgId attachment sentAt expireSecs with sender := some sender }) := by
  apply updateGroup_congr
  intro g hg
  have htimer : h.groupTimer gid = g.disappearingSecs := by simp [History.groupTimer, hg]
  rw [htimer]
  rfl

/-- A held event is rendered with the timer of the group. -/
theorem replayOne_eq (now : ℕ) (gid : String) (e : HeldGroupEvent) :
    h.replayOne now gid e = h.updateThread gid (renderIn now (h.groupTimer gid) e.sender · e.content) := by
  unfold History.replayOne
  cases e.content with
  | message msgId body sentAt expireSecs reply forwarded =>
    cases forwarded with
    | false => exact recordGroupMessage_eq now gid e.sender msgId body sentAt expireSecs reply
    | true =>
      dsimp only
      rw [if_pos rfl, recordGroupMessage_eq, History.setGroupForwarded, updateThread_updateThread]
      rfl
  | attachment msgId attachment sentAt expireSecs forwarded =>
    cases forwarded with
    | false => exact recordGroupAttachment_eq now gid e.sender msgId attachment sentAt expireSecs
    | true =>
      dsimp only
      rw [if_pos rfl, recordGroupAttachment_eq, History.setGroupForwarded,
        updateThread_updateThread]
      rfl
  | reaction targetMsgId emoji add => rfl
  | edit msgId body => rfl
  | delete msgId => rfl

end content

/-! ### Replay -/

section replay

variable (h : History)

/-- The effect of held content on the thread, in the order of arrival. -/
def renderAll (now : ℕ) (timer : Option ℕ) (es : List HeldGroupEvent) (msgs : List StoredMessage) :
    List StoredMessage :=
  es.foldl (fun msgs e => renderIn now timer e.sender msgs e.content) msgs

theorem updateThread_id (gid : String) : h.updateThread gid (fun msgs => msgs) = h := by
  unfold History.updateThread History.updateGroup
  rw [Table.modify_id]

/-- The loop over the held events keeps those of no member and renders the others. -/
theorem replayHeld_eq (now : ℕ) (gid : String) : ∀ (es : List HeldGroupEvent) (h : History),
    History.replayHeld now gid es h =
      (es.filter fun e => (h.groupMemberLabel gid e.sender).isNone,
        h.updateThread gid (renderAll now (h.groupTimer gid) (es.filter fun e => (h.groupMemberLabel gid e.sender).isSome)))
  | [], h => by
    have hid := updateThread_id h gid
    exact Prod.ext rfl hid.symm
  | e :: es, h => by
    have ih := replayHeld_eq now gid es
    unfold History.replayHeld
    cases hlabel : h.groupMemberLabel gid e.sender with
    | none =>
      rw [if_pos (by rfl), ih h, List.filter_cons_of_pos (by simp [hlabel]),
        List.filter_cons_of_neg (by simp [hlabel])]
    | some who =>
      have hnot : ¬ (some who).isNone = true := by simp
      rw [if_neg hnot, ih (h.replayOne now gid e), replayOne_eq]
      simp only [groupMemberLabel_updateThread, updateThread_groupTimer, updateThread_updateThread]
      rw [List.filter_cons_of_neg (by simp [hlabel]), List.filter_cons_of_pos (by simp [hlabel])]
      rfl

/-- What a replay leaves in quarantine. -/
def History.leftHeld (gid : String) (now : ℕ) : Table String (List HeldGroupEvent) :=
  let held := (h.pruneHeldGroupContent now).heldGroupContent
  match held.get gid with
  | none => held
  | some es =>
    let kept := es.filter fun e => (h.groupMemberLabel gid e.sender).isNone
    if kept.isEmpty then held.remove gid else (held.remove gid).set gid kept

/-- A replay writes to the thread of the group, and takes what it wrote out of quarantine. -/
theorem replay_eq (gid : String) (now : ℕ) : h.replayHeldGroupContent gid now =
    { h.updateThread gid (renderAll now (h.groupTimer gid) (h.rendered gid now)) with
      heldGroupContent := h.leftHeld gid now } := by
  unfold History.replayHeldGroupContent History.rendered History.leftHeld
  dsimp only
  cases hget : (h.pruneHeldGroupContent now).heldGroupContent.get gid with
  | none =>
    have hid := updateThread_id h gid
    have hnone : renderAll now (h.groupTimer gid) [] = fun msgs => msgs := rfl
    dsimp only [Option.getD_none, List.filter_nil]
    rw [hnone, hid]
    rfl
  | some es =>
    dsimp only [Option.getD_some]
    rw [replayHeld_eq]
    dsimp only
    have hlabel : ∀ key, History.groupMemberLabel { h.pruneHeldGroupContent now with
        heldGroupContent := (h.pruneHeldGroupContent now).heldGroupContent.remove gid } gid key =
          h.groupMemberLabel gid key := fun _ => rfl
    simp only [hlabel]
    by_cases hempty : (es.filter fun e => (h.groupMemberLabel gid e.sender).isNone).isEmpty = true
    · rw [if_pos hempty, if_pos hempty]
      rfl
    · rw [if_neg hempty, if_neg hempty]
      rfl

/-- What is rendered is one edit for each event. -/
theorem edited_renderAll (gid : String) (now : ℕ) : ∀ (es : List HeldGroupEvent) (h : History),
    Edited h (h.replayEdits gid now es) (h.updateThread gid (renderAll now (h.groupTimer gid) es))
  | [], h => by
    have hid : h.updateThread gid (renderAll now (h.groupTimer gid) []) = h := updateThread_id h gid
    rw [hid]
    exact Edited.of_thread rfl
  | e :: es, h => by
    have hone := edited_updateThread (h := h)
      (e := .content now (h.groupTimer gid) e.sender e.content)
      (renderIn now (h.groupTimer gid) e.sender · e.content) (fun _ => rfl) gid
    have hrest := edited_renderAll gid now es
      (h.updateThread gid (renderIn now (h.groupTimer gid) e.sender · e.content))
    rw [updateThread_groupTimer, updateThread_updateThread] at hrest
    simp only [History.replayEdits, updateThread_groupTimer] at hrest
    exact hone.trans hrest

theorem edited_replayHeldGroupContent {h : History} (gid : String) (now : ℕ) :
    Edited h (h.replayEdits gid now (h.rendered gid now)) (h.replayHeldGroupContent gid now) := by
  rw [replay_eq]
  exact (edited_renderAll gid now (h.rendered gid now) h).behind (thread_of rfl rfl)

/-- An adoption writes groups, and what is in quarantine. -/
theorem adopt_frame (C : Crypto) (now : ℕ) (e : GroupEpoch) : ∃ groups heldGroupContent,
    (h.adoptGroupEpoch C now e).2 = { h with groups, heldGroupContent } := by
  unfold History.adoptGroupEpoch
  split
  · split
    · exact ⟨h.groups, h.heldGroupContent, rfl⟩
    · dsimp only
      rw [replay_eq]
      exact ⟨_, _, rfl⟩
  · split
    · exact ⟨h.groups, h.heldGroupContent, rfl⟩
    · dsimp only
      rw [replay_eq]
      exact ⟨_, _, rfl⟩

end replay

/-! ### Adoptions -/

section adoptions

variable {C : Crypto}

/-- An adoption is refused, or it installs the roster and replays what is held. -/
theorem adopt_installed (h : History) (now : ℕ) (e : GroupEpoch) :
    (h.installed C e = none ∧ ∃ err, h.adoptGroupEpoch C now e = (.refused err, h)) ∨
      ∃ h', h.installed C e = some h' ∧
        h.adoptGroupEpoch C now e = (if (h.groupAdmin e.groupId).isSome then .advanced else .created,
          h'.replayHeldGroupContent e.groupId now) := by
  unfold History.adoptGroupEpoch History.installed
  cases hpin : h.groupAdmin e.groupId with
  | some pin =>
    dsimp only
    cases hv : e.verifySuccession C pin.epochSeq pin.adminKey with
    | error err => exact Or.inl ⟨rfl, err, rfl⟩
    | ok u => exact Or.inr ⟨_, rfl, rfl⟩
  | none =>
    dsimp only
    cases hv : e.validateBaseline C with
    | error err => exact Or.inl ⟨rfl, err, rfl⟩
    | ok u => exact Or.inr ⟨_, rfl, rfl⟩

/-- The roster that is installed makes the group, and no message. -/
theorem edited_installed {h h' : History} {e : GroupEpoch} (hi : h.installed C e = some h') :
    Edited h [(.group e.groupId, .create)] h' := by
  apply Edited.single
  intro d
  unfold History.installed at hi
  split at hi
  · rename_i pin hpin
    obtain ⟨g, hg, -⟩ := groupAdmin_some hpin
    split at hi
    · cases hi
    · cases hi
      have hthread :
          (h.updateGroup e.groupId (·.install e pin.creatorAdminKey)).thread = h.thread := by
        apply thread_updateGroup_same
        intro g
        rfl
      rw [hthread]
      split
      · rename_i hd
        subst hd
        rw [thread_group, hg]
        rfl
      · rfl
  · split at hi
    · cases hi
    · cases hi
      cases d with
      | peer key =>
        have hne : Chat.peer key ≠ .group e.groupId := by simp
        rw [if_neg hne]
        rfl
      | group id =>
        rw [thread_group]
        dsimp only
        rw [Table.get_set]
        by_cases hid : id = e.groupId
        · subst hid
          rw [if_pos rfl, if_pos rfl, thread_group]
          cases h.groups.get e.groupId <;> rfl
        · rw [if_neg hid, if_neg (fun heq => hid (Chat.group.inj heq)), thread_group]

theorem edited_adopt (h : History) (now : ℕ) (e : GroupEpoch) :
    Edited h (h.adoptEdits C now e) (h.adoptGroupEpoch C now e).2 := by
  unfold History.adoptEdits
  rcases adopt_installed h now e with ⟨hnone, err, heq⟩ | ⟨h', hsome, heq⟩
  · rw [hnone, heq]
    exact Edited.of_thread rfl
  · rw [hsome, heq]
    exact (edited_installed hsome).trans (edited_replayHeldGroupContent e.groupId now)

theorem thread_setGroupName (h : History) (gid name : String) :
    (h.setGroupName gid name).thread = h.thread := by
  unfold History.setGroupName
  split
  · rfl
  · apply thread_updateGroup_same
    intro g
    rfl

theorem thread_adoptCarried (h : History) (gid name : String) (avatar : Option String)
    (secs : Option ℕ) :
    (h.adoptCarried gid name avatar secs).thread = h.thread := by
  have htimer : ∀ (h : History) (secs : Option ℕ),
      (h.setGroupTimer gid secs).2.thread = h.thread := by
    intro h secs
    apply thread_updateGroup_same
    intro g
    rfl
  have havatar :
      ∀ (h : History) (a : Option String), (h.setGroupAvatar gid a).2.thread = h.thread := by
    intro h a
    apply thread_updateGroup_same
    intro g
    rfl
  have hname := thread_setGroupName h gid name
  have hboth := fun a => (havatar (h.setGroupName gid name) (some a)).trans hname
  unfold History.adoptCarried
  dsimp only
  cases avatar with
  | none =>
    dsimp only
    split
    · exact hname
    · exact (htimer _ _).trans hname
    · exact (htimer _ _).trans hname
  | some a =>
    dsimp only
    split
    · exact hboth a
    · exact (htimer _ _).trans (hboth a)
    · exact (htimer _ _).trans (hboth a)

theorem edited_acceptInvite (h : History) (now : ℕ) (inv : HeldInvite) :
    Edited h (h.adoptEdits C now inv.epoch) (h.acceptInvite C now inv) := by
  refine (edited_adopt h now inv.epoch).behind ?_
  unfold History.acceptInvite
  split
  · rename_i heq
    rw [heq]
  · rename_i heq
    rw [heq]
    exact thread_adoptCarried _ _ _ _ _

theorem edited_invites (now : ℕ) : ∀ (invs : List HeldInvite) (h : History),
    Edited h (History.inviteEdits C now invs h) (invs.foldl (fun h inv => h.acceptInvite C now inv) h)
  | [], _ => rfl
  | inv :: invs, h => (edited_acceptInvite h now inv).trans (edited_invites now invs _)

theorem edited_recordSystem (h : History) (peer text : String) (at_ : ℕ) :
    Edited h (History.chipEdits (.peer peer) text at_) (h.recordSystem peer text at_) := by
  apply edited_intoConversation peer (fun _ => rfl)
  unfold History.messages
  cases h.conversations.get peer <;> rfl

theorem edited_acceptRequest (h : History) (now : ℕ) (key : String) :
    Edited h (h.acceptEdits C now key) (h.acceptRequest C now key).2 := by
  unfold History.acceptEdits History.acceptRequest
  rcases hp : h.promote key with _ | ⟨req, peer, h'⟩
  · exact Edited.of_thread rfl
  · exact Edited.before (OnlyContacts.promote hp).thread_eq
      ((edited_invites now req.invites h').trans (edited_recordSystem _ peer _ now))

theorem edited_acceptRequestForKey (h : History) (now : ℕ) (convo : String) :
    Edited h (h.acceptForKeyEdits C now convo) (h.acceptRequestForKey C now convo).2 := by
  unfold History.acceptForKeyEdits History.acceptRequestForKey
  cases h.pendingKey convo with
  | none => exact Edited.of_thread rfl
  | some key => exact edited_acceptRequest h now key

end adoptions

/-! ### Timers of conversations -/

section timers

variable {C : Crypto}

theorem timer_replayHeldGroupContent (h : History) (gid : String) (now : ℕ) (peer : String) :
    (h.replayHeldGroupContent gid now).timer peer = h.timer peer := by
  rw [replay_eq]
  rfl

theorem timer_installed {h h' : History} {e : GroupEpoch} (hi : h.installed C e = some h')
    (peer : String) :
    h'.timer peer = h.timer peer := by
  unfold History.installed at hi
  split at hi
  · split at hi <;> cases hi
    rfl
  · split at hi <;> cases hi
    rfl

theorem timer_adoptCarried (h : History) (gid name : String) (avatar : Option String)
    (secs : Option ℕ) (peer : String) :
    (h.adoptCarried gid name avatar secs).timer peer = h.timer peer := by
  have hname : (h.setGroupName gid name).timer peer = h.timer peer := by
    unfold History.setGroupName
    split <;> rfl
  have havatar : ∀ (h : History) (avatar : Option String),
      (h.setGroupAvatar gid avatar).2.timer peer = h.timer peer :=
    fun _ _ => rfl
  have htimer : ∀ (h : History) (secs : Option ℕ), (h.setGroupTimer gid secs).2.timer peer =
      h.timer peer :=
    fun _ _ => rfl
  unfold History.adoptCarried
  dsimp only
  cases avatar with
  | none =>
    split
    · exact hname
    · exact (htimer _ _).trans hname
    · exact (htimer _ _).trans hname
  | some a =>
    have hboth := (havatar (h.setGroupName gid name) (some a)).trans hname
    split
    · exact hboth
    · exact (htimer _ _).trans hboth
    · exact (htimer _ _).trans hboth

theorem timer_acceptInvite (h : History) (now : ℕ) (inv : HeldInvite) (peer : String) :
    (h.acceptInvite C now inv).timer peer = h.timer peer := by
  unfold History.acceptInvite
  rcases adopt_installed h now inv.epoch with ⟨-, err, heq⟩ | ⟨h', hsome, heq⟩
  · rw [heq]
  · have hreplay := (timer_replayHeldGroupContent h' inv.epoch.groupId now peer).trans
      (timer_installed hsome peer)
    have hcarried := (timer_adoptCarried (h'.replayHeldGroupContent inv.epoch.groupId now) inv.groupId inv.name
      inv.avatar inv.disappearingSecs peer).trans hreplay
    rw [heq]
    cases (h.groupAdmin inv.epoch.groupId).isSome with
    | true => exact hcarried
    | false => exact hcarried

theorem timer_invites (now : ℕ) (peer : String) : ∀ (invs : List HeldInvite) (h : History),
    (invs.foldl (fun h inv => h.acceptInvite C now inv) h).timer peer = h.timer peer
  | [], _ => rfl
  | inv :: invs, h => (timer_invites now peer invs _).trans (timer_acceptInvite h now inv peer)

theorem timer_recordSystem (h : History) (peer text : String) (at_ : ℕ) (j : String) :
    (h.recordSystem peer text at_).timer j = h.timer j := by
  unfold History.recordSystem History.intoConversation History.timer
  rw [Table.get_set]
  by_cases hj : j = peer
  · rw [if_pos hj, hj]
    cases h.conversations.get peer <;> rfl
  · rw [if_neg hj]

theorem timer_acceptRequestForKey (h : History) (now : ℕ) (convo peer : String) :
    (h.acceptRequestForKey C now convo).2.timer peer = h.timer peer := by
  unfold History.acceptRequestForKey
  cases h.pendingKey convo with
  | none => rfl
  | some key =>
    dsimp only
    unfold History.acceptRequest
    rcases hp : h.promote key with _ | ⟨req, peer', h'⟩
    · rfl
    · exact (timer_recordSystem _ _ _ _ _).trans ((timer_invites now peer req.invites h').trans
        ((OnlyContacts.promote hp).timer_eq peer))

end timers

/-! ### Events -/

section events

variable {C : Crypto} {h : History}

/-- The code writes a message into a conversation, and tags it if it was forwarded. -/
theorem edited_stored {h' : History} {peer : String} {m : StoredMessage}
    (hr : Edited h [(.peer peer, .create), (.peer peer, .record m)] h') (forwarded : Bool) :
    Edited h (storedEdits (.peer peer) m forwarded) (h'.markForwarded forwarded peer m.msgId) := by
  unfold storedEdits History.markForwarded
  cases forwarded with
  | false => exact hr
  | true => exact hr.trans (edited_updateMessages _ (fun _ => rfl) peer)

theorem edited_recordFull (now : ℕ) (peer : String) (direction : Direction) (msgId body : String)
    (sentAt : ℕ) (reply : Option ReplyRef) (expireSecs : Option ℕ) :
    Edited h [(.peer peer, .create),
        (.peer peer, .record (textMessage now (h.timer peer) direction msgId body sentAt reply expireSecs))]
      (h.recordFull now peer direction msgId body sentAt reply expireSecs) := by
  apply edited_intoConversation peer (fun _ => rfl)
  unfold History.messages History.timer
  cases h.conversations.get peer <;> rfl

theorem edited_recordAttachment (now : ℕ) (peer : String) (direction : Direction) (msgId : String)
    (attachment : AttachmentRef) (sentAt : ℕ) (expireSecs : Option ℕ) :
    Edited h [(.peer peer, .create),
        (.peer peer, .record (fileMessage now (h.timer peer) direction msgId attachment sentAt expireSecs))]
      (h.recordAttachment now peer direction msgId attachment sentAt expireSecs) := by
  apply edited_intoConversation peer (fun _ => rfl)
  unfold History.messages History.timer
  cases h.conversations.get peer <;> rfl

/-- A text is stored under the timer that the event found. -/
theorem edited_storedText {h' : History} (hc : OnlyContacts h h') (now : ℕ) (peer : String)
    (direction : Direction) (msgId body : String) (sentAt : ℕ) (reply : Option ReplyRef)
    (expireSecs : Option ℕ) (forwarded : Bool) :
    Edited h' (storedEdits (.peer peer)
        (textMessage now (h.timer peer) direction msgId body sentAt reply expireSecs) forwarded)
      ((h'.recordFull now peer direction msgId body sentAt reply expireSecs).markForwarded forwarded peer msgId) := by
  have hrecord := edited_recordFull (h := h') now peer direction msgId body sentAt reply expireSecs
  rw [hc.timer_eq] at hrecord
  exact edited_stored hrecord forwarded

theorem edited_storedFile {h' : History} (hc : OnlyContacts h h') (now : ℕ) (peer : String)
    (direction : Direction) (msgId : String) (attachment : AttachmentRef) (sentAt : ℕ)
    (expireSecs : Option ℕ) (forwarded : Bool) :
    Edited h' (storedEdits (.peer peer)
        (fileMessage now (h.timer peer) direction msgId attachment sentAt expireSecs) forwarded)
      ((h'.recordAttachment now peer direction msgId attachment sentAt expireSecs).markForwarded
        forwarded peer msgId) := by
  have hrecord := edited_recordAttachment
    (h := h') now peer direction msgId attachment sentAt expireSecs
  rw [hc.timer_eq] at hrecord
  exact edited_stored hrecord forwarded

/-- What is behind the gate finds the threads and the timers that the event found. -/
theorem edited_screened {now : ℕ} {convo claimed : String} {edits : List (Chat × Edit)}
    {f : History → History} (hf : ∀ h', OnlyContacts h h' → Edited h' edits (f h')) :
    Edited h (h.screenedEdits now convo claimed edits) (h.screened now convo claimed f) := by
  have hscreen := OnlyContacts.screenInbound h convo claimed now
  unfold History.screenedEdits History.screened
  rcases hs : h.screenInbound convo claimed now with ⟨screen, h'⟩
  rw [hs] at hscreen
  have hpin := hscreen.trans (OnlyContacts.autoPinNamed h' claimed convo)
  cases screen with
  | dropped => exact Edited.of_thread hscreen.thread_eq
  | held => exact (hf _ hpin).before hpin.thread_eq
  | allow => exact (hf _ hpin).before hpin.thread_eq

theorem edited_fromOwnDevice {sender : String} {edits : List (Chat × Edit)} {f : History → History}
    (hf : Edited h edits (f h)) :
    Edited h (if h.isOwnDevice sender then edits else []) (h.fromOwnDevice sender f) := by
  unfold History.fromOwnDevice
  split
  · exact hf
  · exact Edited.of_thread rfl

theorem edited_fromMember {gid sender : String} {edits : List (Chat × Edit)} {f : History → History}
    (hf : Edited h edits (f h)) :
    Edited h (if (h.groupMemberLabel gid sender).isSome then edits else []) (h.fromMember gid sender f) := by
  unfold History.fromMember
  split
  · exact hf
  · exact Edited.of_thread rfl

theorem edited_unless {gate : Prop} [Decidable gate] {edits : List (Chat × Edit)} {h' : History}
    (hf : Edited h edits h') : Edited h (if gate then [] else edits) (if gate then h else h') := by
  split
  · exact Edited.of_thread rfl
  · exact hf

theorem edited_rosterGated {now : ℕ} {gid sender : String} {content : HeldGroupContent}
    {f : History → History} (hf : f h = h.replayOne now gid ⟨sender, now, content⟩) :
    Edited h (h.gatedEdits now gid sender content) (h.rosterGated now gid sender content f) := by
  unfold History.gatedEdits History.rosterGated
  split
  · exact Edited.of_thread (thread_of rfl rfl)
  · rw [hf, replayOne_eq]
    exact edited_updateThread _ (fun _ => rfl) gid

theorem thread_renameGroup (gid name : String) : (h.renameGroup gid name).2.thread = h.thread := by
  unfold History.renameGroup
  split
  · rfl
  · apply thread_updateGroup_same
    intro g
    rfl

theorem edited_groupRename (now : ℕ) (sender gid name : String) :
    Edited h (h.renameEdits now sender gid name) (h.groupRename now sender gid name) := by
  have hthread := thread_renameGroup (h := h) gid name
  unfold History.renameEdits History.groupRename
  cases h.groupMemberLabel gid sender with
  | none => exact Edited.of_thread rfl
  | some who =>
    dsimp only
    by_cases hname : (trim name.toList).isEmpty = true
    · rw [if_pos hname, if_pos hname]
      exact Edited.of_thread rfl
    · rw [if_neg hname, if_neg hname]
      rcases hr : h.renameGroup gid name with ⟨known, h'⟩
      rw [hr] at hthread
      cases known with
      | true => exact (edited_updateThread _ (fun _ => rfl) gid).before hthread
      | false => exact Edited.of_thread hthread

theorem edited_groupLeave (now : ℕ) (sender gid : String) :
    Edited h (h.leaveEdits now sender gid) (h.groupLeave now sender gid) := by
  have hleft : (h.setGroupLeft gid true).2.thread = h.thread := by
    apply thread_updateGroup_same
    intro g
    rfl
  have hremove : (h.removeGroupMember gid sender).2.thread = h.thread := by
    apply thread_updateGroup_same
    intro g
    rfl
  unfold History.leaveEdits History.groupLeave
  cases h.groupMemberLabel gid sender with
  | none => exact Edited.of_thread rfl
  | some who =>
    dsimp only
    by_cases hyou : who = "You"
    · rw [if_pos hyou, if_pos hyou]
      exact (edited_updateThread _ (fun _ => rfl) gid).before hleft
    · rw [if_neg hyou, if_neg hyou]
      rcases hr : h.removeGroupMember gid sender with ⟨removed, h'⟩
      rw [hr] at hremove
      cases removed with
      | some m => exact (edited_updateThread _ (fun _ => rfl) gid).before hremove
      | none => exact Edited.of_thread hremove

/-- The chip for the user's own way in or out. -/
theorem edited_noteMembership (now : ℕ) (epoch : GroupEpoch) (wasMember : Bool) :
    Edited h (h.membershipEdits now epoch wasMember) (h.noteMembership now epoch wasMember) := by
  have hleft : ∀ left, (h.setGroupLeft epoch.groupId left).2.thread = h.thread := by
    intro left
    apply thread_updateGroup_same
    intro g
    rfl
  unfold History.membershipEdits History.noteMembership
  dsimp only
  by_cases hout : (wasMember && !h.selfPrimaryKey.any epoch.isMember) = true
  · rw [if_pos hout, if_pos hout]
    exact (edited_updateThread _ (fun _ => rfl) epoch.groupId).before (hleft true)
  · rw [if_neg hout, if_neg hout]
    by_cases hin : (!wasMember && h.selfPrimaryKey.any epoch.isMember) = true
    · rw [if_pos hin, if_pos hin]
      exact (edited_updateThread _ (fun _ => rfl) epoch.groupId).before (hleft false)
    · rw [if_neg hin, if_neg hin]
      exact Edited.of_thread rfl

theorem self_replayHeldGroupContent (h : History) (gid : String) (now : ℕ) :
    (h.replayHeldGroupContent gid now).selfPrimaryKey = h.selfPrimaryKey := by
  rw [replay_eq]
  rfl

theorem self_installed {h' : History} {e : GroupEpoch} (hi : h.installed C e = some h') :
    h'.selfPrimaryKey = h.selfPrimaryKey := by
  unfold History.installed at hi
  split at hi
  · split at hi <;> cases hi
    rfl
  · split at hi <;> cases hi
    rfl

theorem edited_rosterUpdate (now : ℕ) (epoch : GroupEpoch) (name : String) (secs : Option ℕ)
    (avatar : Option String) :
    Edited h (h.rosterEdits C now epoch) (h.rosterUpdate C now epoch name secs avatar) := by
  have hadopt := edited_adopt (C := C) h now epoch
  unfold History.rosterEdits History.rosterUpdate
  dsimp only
  rcases adopt_installed (C := C) h now epoch with ⟨hnone, err, heq⟩ | ⟨h', hsome, heq⟩
  · rw [heq] at hadopt ⊢
    rw [if_neg (by simp [hnone]), List.append_nil]
    exact hadopt
  · rw [heq] at hadopt ⊢
    cases hpin : (h.groupAdmin epoch.groupId).isSome with
    | true =>
      rw [if_pos ⟨rfl, by simp [hsome]⟩]
      have hself : (h'.replayHeldGroupContent epoch.groupId now).selfPrimaryKey =
          h.selfPrimaryKey :=
        (self_replayHeldGroupContent h' _ _).trans (self_installed hsome)
      have hnote := edited_noteMembership
        (h := h'.replayHeldGroupContent epoch.groupId now) now epoch
        (h.selfIsMember epoch.groupId)
      unfold History.membershipEdits at hnote ⊢
      rw [hself] at hnote
      exact hadopt.trans hnote
    | false =>
      rw [if_neg (by simp), List.append_nil]
      exact hadopt.behind (thread_adoptCarried _ _ _ _ _)

/-- What a sibling sent: the request of the peer is accepted, and the message is stored. -/
theorem edited_selfSent {now : ℕ} {peerKey : String} (peerUsername : String)
    {edits : List (Chat × Edit)} {h' : History}
    (hstored : ∀ h₁, OnlyContacts (h.acceptRequestForKey C now peerKey).2 h₁ →
      h₁ = (h.acceptRequestForKey C now peerKey).2.autoPinNamed peerUsername peerKey → Edited h₁ edits h') :
    Edited h (h.acceptForKeyEdits C now peerKey ++ edits) h' := by
  have hpin := OnlyContacts.autoPinNamed
    (h.acceptRequestForKey C now peerKey).2 peerUsername peerKey
  exact (edited_acceptRequestForKey h now peerKey).trans
    ((hstored _ hpin rfl).before hpin.thread_eq)

theorem edited_groupRosterUpdate (now : ℕ) (sender : String) (epoch : GroupEpoch) (name : String)
    (secs : Option ℕ) (avatar : Option String) :
    Edited h (h.applyEdits C now (.groupRosterUpdate sender epoch name secs avatar))
      (h.apply C now (.groupRosterUpdate sender epoch name secs avatar)) := by
  have hscreen := OnlyContacts.screenRosterUpdate h now sender epoch name secs avatar
  rcases hs : h.screenRosterUpdate now sender epoch name secs avatar with ⟨taken, h'⟩
  rw [hs] at hscreen
  simp only [History.applyEdits, History.apply, hs]
  cases taken with
  | true => exact Edited.of_thread hscreen.thread_eq
  | false => exact (edited_rosterUpdate now epoch name secs avatar).before hscreen.thread_eq

theorem edited_groupReaction (now : ℕ) (sender gid targetMsgId emoji : String) (add : Bool) :
    Edited h (h.applyEdits C now (.groupReaction sender gid targetMsgId emoji add))
      (h.apply C now (.groupReaction sender gid targetMsgId emoji add)) := by
  unfold History.applyEdits History.apply
  dsimp only
  by_cases hown : h.isOwnDevice sender = true
  · rw [if_pos hown, if_pos hown]
    exact edited_updateThread _ (fun _ => rfl) gid
  · rw [if_neg hown, if_neg hown]
    exact edited_rosterGated rfl

theorem edited_deleteConversation (peer : String) :
    Edited h [(.peer peer, .clear)] (h.deleteConversation peer) := by
  apply Edited.single
  intro d
  cases d with
  | group id =>
    rw [if_neg (by simp)]
    rfl
  | peer key =>
    have hget : (h.deleteConversation peer).conversations.get key =
        (h.conversations.remove peer).get key := rfl
    rw [thread_peer, hget, Table.get_remove]
    by_cases hkey : key = peer
    · rw [if_pos hkey, if_pos (by rw [hkey])]
      rfl
    · rw [if_neg hkey, if_neg (by simp [hkey]), thread_peer]

theorem thread_fromMember {gid sender : String} {f : History → History}
    (hf : (f h).thread = h.thread) :
    (h.fromMember gid sender f).thread = h.thread := by
  unfold History.fromMember
  split
  · exact hf
  · rfl

/-- **An event does to the threads what its edits do.** -/
theorem edited_apply (C : Crypto) (h : History) (now : ℕ) (event : InboundEvent) :
    Edited h (h.applyEdits C now event) (h.apply C now event) := by
  cases event with
  | message sender username msgId body sentAt reply expireSecs forwarded =>
    apply edited_screened
    intro h' hc
    exact edited_storedText hc now _ .incoming msgId body sentAt reply expireSecs forwarded
  | attachment sender username msgId attachment sentAt expireSecs forwarded =>
    apply edited_screened
    intro h' hc
    exact edited_storedFile hc now _ .incoming msgId attachment sentAt expireSecs forwarded
  | forwardedIncoming sender fromKey fromUsername msgId body sentAt reply attachment expireSecs =>
    apply edited_fromOwnDevice
    apply edited_screened
    intro h' hc
    cases attachment with
    | none => exact edited_storedText hc now _ .incoming msgId body sentAt reply expireSecs false
    | some att => exact edited_storedFile hc now _ .incoming msgId att sentAt expireSecs false
  | selfSentText sender peerKey peerUsername msgId body sentAt reply expireSecs forwarded =>
    apply edited_fromOwnDevice
    refine edited_selfSent peerUsername ?_
    rintro h₁ hpin rfl
    rw [← timer_acceptRequestForKey]
    exact edited_storedText hpin now peerKey .outgoing msgId body sentAt reply expireSecs forwarded
  | selfSentFile sender peerKey peerUsername msgId attachment expireSecs forwarded =>
    apply edited_fromOwnDevice
    refine edited_selfSent peerUsername ?_
    rintro h₁ hpin rfl
    rw [← timer_acceptRequestForKey]
    exact edited_storedFile hpin now peerKey .outgoing msgId attachment attachment.ts expireSecs forwarded
  | groupRosterUpdate sender epoch name secs avatar =>
    exact edited_groupRosterUpdate now sender epoch name secs avatar
  | groupMessage | groupAttachment | groupMessageEdited | groupMessageDeleted => exact edited_rosterGated rfl
  | groupReaction sender gid targetMsgId emoji add =>
    exact edited_groupReaction now sender gid targetMsgId emoji add
  | groupMessagePinned sender gid =>
    exact edited_fromMember (edited_updateThread _ (fun _ => rfl) gid)
  | groupRenamed sender gid name => exact edited_groupRename now _ gid name
  | groupMemberLeft sender gid => exact edited_groupLeave now _ gid
  | timerUpdate sender secs => exact edited_unless (edited_setTimer h _ secs)
  | messagePinned => exact edited_unless (edited_updateMessages _ (fun _ => rfl) _)
  | chatDeleted sender => exact edited_deleteConversation (h.attributeDevice sender)
  | selfTimerUpdate sender peerKey secs =>
    exact edited_fromOwnDevice (edited_setTimer h peerKey secs)
  | selfReadSeen sender peerKey | selfReaction sender peerKey | selfMessagePinned sender peerKey =>
    exact edited_fromOwnDevice (edited_updateMessages _ (fun _ => rfl) peerKey)
  | messageEdited | messageDeleted | receipt | reaction =>
    exact edited_updateMessages _ (fun _ => rfl) _
  | knock sender username => exact Edited.of_thread (OnlyContacts.screenKnock h _ username now).thread_eq
  | profileUpdate sender avatar => exact Edited.of_thread (OnlyContacts.updateContactByKey h _ _).thread_eq
  | renamed sender newUsername =>
    unfold History.apply
    dsimp only
    split
    · exact Edited.of_thread rfl
    · exact Edited.of_thread (OnlyContacts.renameContact h _ _).thread_eq
  | groupTimerUpdate | groupAvatarUpdate =>
    refine Edited.of_thread (thread_fromMember ?_)
    apply thread_updateGroup_same
    intro g
    rfl
  | selfProfileUpdate sender avatar =>
    refine Edited.of_thread ?_
    unfold History.apply History.fromOwnDevice
    dsimp only
    split
    · exact thread_of rfl rfl
    · rfl
  | other => exact Edited.of_thread rfl

end events

end Sona
