/-
# What a member may change in a group

Content of a group comes from its members, each of whom may write a message,
change or take back what is stored under their own key, react, and pin. All
else in the thread is to stay as it is (`ThreadBy`), and so are all other groups, the
conversations and the contacts (`OnlyGroup`); one who is no member reaches the
quarantine and nothing more (`OwnedBy`).

A message names its own id, and one whose id is taken is not stored. But if it was
forwarded, its tag goes to the message that has the id, whoever wrote that. An
event keeps to what is its sender's exactly if it puts no tag on what
another wrote (`group_ownership_iff`); `tag_on_anothers_message` is one that does.

Key definitions: `OwnChange`, `ThreadBy`, `OnlyGroup`, `OwnedBy`, `TagFits`, `Unsigned`, `Reached`.
Key theorems: `threadBy_renderIn_iff`, `ownedBy_iff`, `unsigned_step`, `group_ownership_iff`.
-/
import Mathlib.Data.List.Forall2
import Sona.Lib.Trace
import Sona.Edits
import Sona.Order
import Sona.Contacts
import Sona.Leaving

namespace Sona

/-! ### What may change in a thread -/

/-- Reactions of `S` are others, and all else is as it was. -/
def OnlyReactions (S : String) (before after : List Reaction) : Prop :=
  after.filter (·.reactor ≠ S) = before.filter (·.reactor ≠ S)

/-- A message after an event of `S`: it may be pinned or not, and `S` may react
to it. If it is theirs and no chip, it may be edited and tagged too. -/
structure OwnChange (S : String) (m m' : StoredMessage) : Prop where
  same : m' = { m with body := m'.body, edited := m'.edited, forwarded := m'.forwarded, pinned := m'.pinned
                       reactions := m'.reactions }
  others : OnlyReactions S m.reactions m'.reactions
  own : m.sender = some S ∧ m.system = false ∨
    m'.body = m.body ∧ m'.edited = m.edited ∧ m'.forwarded = m.forwarded

/-- A thread after an event of `S`: its messages changed, or one of `S` was
stored, some of `S` were taken back, or a chip was put at the end. -/
inductive ThreadBy (S : String) (msgs : List StoredMessage) : List StoredMessage → Prop
  | changed {msgs' : List StoredMessage}
      (kept : List.Forall₂ (OwnChange S) msgs msgs') : ThreadBy S msgs msgs'
  | stored {pre post : List StoredMessage} {m : StoredMessage} (around : msgs = pre ++ post)
      (mine : m.sender = some S)
      (plain : m.system = false) : ThreadBy S msgs (pre ++ m :: post)
  | deleted {p : StoredMessage → Bool}
      (mine : ∀ m ∈ msgs, p m = true → m.sender = some S ∧ m.system = false) :
      ThreadBy S msgs (msgs.filter fun m => !p m)
  | noted {c : StoredMessage} (chip : c.system = true ∧ c.sender = none) : ThreadBy S msgs (msgs ++ [c])

/-- The chips of a thread are stored under nobody's key. -/
def Unsigned (msgs : List StoredMessage) : Prop := ∀ m ∈ msgs, m.system = true → m.sender = none

section thread

variable {S : String} {msgs : List StoredMessage}

theorem OwnChange.refl (m : StoredMessage) : OwnChange S m m := ⟨rfl, rfl, Or.inr ⟨rfl, rfl, rfl⟩⟩

theorem ThreadBy.refl (msgs : List StoredMessage) : ThreadBy S msgs msgs :=
  .changed (List.forall₂_same.mpr fun m _ => OwnChange.refl m)

/-- A change of the first message that matches keeps the others. -/
theorem forall₂_updateFirst {p : StoredMessage → Bool} {f : StoredMessage → StoredMessage} :
    ∀ {msgs : List StoredMessage}, (∀ m ∈ msgs.find? p, OwnChange S m (f m)) →
      List.Forall₂ (OwnChange S) msgs (updateFirst p f msgs)
  | [], _ => List.Forall₂.nil
  | m :: msgs, hf => by
    unfold updateFirst
    by_cases hp : p m = true
    · rw [if_pos hp]
      have hm : OwnChange S m (f m) := hf m (by simp [hp])
      exact List.Forall₂.cons hm (List.forall₂_same.mpr fun m _ => OwnChange.refl m)
    · rw [if_neg hp]
      have hrest : List.Forall₂ (OwnChange S) msgs (updateFirst p f msgs) :=
        forall₂_updateFirst fun m' hm' => hf m' (by simpa [hp] using hm')
      exact List.Forall₂.cons (OwnChange.refl m) hrest

/-- And it keeps to `S` only if the message that it found is kept. -/
theorem ownChange_of_forall₂ {p : StoredMessage → Bool} {f : StoredMessage → StoredMessage} :
    ∀ {msgs : List StoredMessage} {m : StoredMessage},
      List.Forall₂ (OwnChange S) msgs (updateFirst p f msgs) →
      msgs.find? p = some m → OwnChange S m (f m)
  | [], _, _, hm => by cases hm
  | a :: msgs, m, hall, hm => by
    unfold updateFirst at hall
    by_cases hp : p a = true
    · rw [if_pos hp] at hall
      obtain rfl : a = m := by simpa [hp] using hm
      exact (List.forall₂_cons.mp hall).1
    · rw [if_neg hp] at hall
      exact ownChange_of_forall₂ (List.forall₂_cons.mp hall).2 (by simpa [hp] using hm)

/-- A change of one message keeps to `S` exactly if it does at the message it finds. -/
theorem threadBy_updateFirst_iff {p : StoredMessage → Bool} {f : StoredMessage → StoredMessage} :
    ThreadBy S msgs (updateFirst p f msgs) ↔ ∀ m ∈ msgs.find? p, OwnChange S m (f m) := by
  refine ⟨fun h m hm => ?_, fun h => .changed (forall₂_updateFirst h)⟩
  have hlen := length_updateFirst p f msgs
  generalize hto : updateFirst p f msgs = msgs' at h hlen
  cases h with
  | changed hall => exact ownChange_of_forall₂ (hto ▸ hall) hm
  | @stored pre post n around mine plain =>
    subst around
    simp only [List.length_append, List.length_cons] at hlen
    omega
  | @deleted q mine =>
    -- nothing was taken out, so nothing was changed
    have hall : msgs.filter (fun m => !q m) = msgs :=
      List.filter_sublist.eq_of_length hlen
    rw [hall] at hto
    have hsame : List.Forall₂ (OwnChange S) msgs (updateFirst p f msgs) := by
      rw [hto]
      exact List.forall₂_same.mpr fun m _ => OwnChange.refl m
    exact ownChange_of_forall₂ hsame hm
  | noted chip =>
    simp only [List.length_append, List.length_cons, List.length_nil] at hlen
    omega

theorem onlyReactions_applyReaction (reactions : List Reaction) (emoji : String) (add : Bool) :
    OnlyReactions S reactions (applyReaction reactions S emoji add) := by
  have herase : ∀ rs : List Reaction, OnlyReactions S rs
      (rs.eraseP fun r => r.reactor = S && r.emoji = emoji) := by
    intro rs
    unfold OnlyReactions
    induction rs with
    | nil => rfl
    | cons r rs ih =>
      by_cases hr : (decide (r.reactor = S) && decide (r.emoji = emoji)) = true
      · obtain ⟨hreactor, -⟩ : r.reactor = S ∧ r.emoji = emoji := by simpa using hr
        rw [List.eraseP_cons_of_pos (by simpa using hr)]
        simp [hreactor]
      · rw [List.eraseP_cons_of_neg (by simpa using hr), List.filter_cons, List.filter_cons, ih]
  unfold applyReaction
  dsimp only
  split
  · rfl
  split
  · rfl
  split
  · simp [OnlyReactions]
  · exact herase reactions
  · rfl

theorem threadBy_reactIn (targetMsgId emoji : String) (add : Bool) :
    ThreadBy S msgs (reactIn msgs targetMsgId S emoji add) :=
  threadBy_updateFirst_iff.mpr fun m _ =>
    ⟨rfl, onlyReactions_applyReaction m.reactions emoji add, Or.inr ⟨rfl, rfl, rfl⟩⟩

theorem threadBy_setPinnedIn (msgId : String) (pin : Bool) :
    ThreadBy S msgs (setPinnedIn msgs msgId pin) :=
  threadBy_updateFirst_iff.mpr fun _ _ => ⟨rfl, rfl, Or.inr ⟨rfl, rfl, rfl⟩⟩

/-- What is stored under the key of `S` is no chip. -/
theorem Unsigned.own (hu : Unsigned msgs) {msgId : String} {m : StoredMessage} (hm : m ∈ msgs)
    (hs : sentBy S msgId m = true) : m.sender = some S ∧ m.system = false := by
  obtain ⟨-, hsender⟩ : m.msgId = msgId ∧ m.sender = some S := by simpa [sentBy] using hs
  refine ⟨hsender, ?_⟩
  by_contra hsys
  have hnone := hu m hm (by simpa using hsys)
  rw [hsender] at hnone
  cases hnone

theorem threadBy_editIn (hu : Unsigned msgs) (msgId body : String) :
    ThreadBy S msgs (editIn msgs (sentBy S msgId) body) :=
  threadBy_updateFirst_iff.mpr fun _ hm =>
    ⟨rfl, rfl, Or.inl (hu.own (List.mem_of_find?_eq_some hm) (List.find?_some hm))⟩

theorem threadBy_delete (hu : Unsigned msgs) (msgId : String) :
    ThreadBy S msgs (msgs.filter fun m => !sentBy S msgId m) :=
  .deleted fun _ hm hs => hu.own hm hs

theorem threadBy_recordChip (text : String) (at_ : ℕ) :
    ThreadBy S msgs (recordChip msgs text at_) := by
  unfold recordChip
  split
  · exact ThreadBy.refl msgs
  · exact .noted ⟨rfl, rfl⟩

theorem insertMessageOrdered_around (msgs : List StoredMessage) (m : StoredMessage) :
    ∃ pre post, msgs = pre ++ post ∧ insertMessageOrdered msgs m = pre ++ m :: post := by
  refine ⟨_, _, ?_, rfl⟩
  rw [← List.reverse_append, List.takeWhile_append_dropWhile, List.reverse_reverse]

/-- A message of `S` is stored, or its id is taken. If it was forwarded, the
message that has the id is tagged, and keeps to `S` if it is theirs or has the tag. -/
theorem threadBy_store_iff (hu : Unsigned msgs) {m : StoredMessage} (mine : m.sender = some S)
    (plain : m.system = false) (forwarded : Bool) :
    ThreadBy S msgs (if forwarded then setForwardedIn (recordOnce msgs m) m.msgId else recordOnce msgs m) ↔
      (forwarded = true → ∀ x ∈ msgs.find? (·.msgId = m.msgId), x.sender = some S ∨
        x.forwarded = true) := by
  unfold recordOnce
  by_cases htaken : (msgs.any fun x => x.msgId = m.msgId) = true
  · rw [if_pos htaken]
    cases forwarded with
    | false => simp [ThreadBy.refl]
    | true =>
      rw [if_pos rfl, setForwardedIn, threadBy_updateFirst_iff]
      constructor
      · intro hown _ x hx
        rcases (hown x hx).own with ⟨hsender, -⟩ | ⟨-, -, htag⟩
        · exact Or.inl hsender
        · exact Or.inr htag.symm
      · intro htag x hx
        refine ⟨rfl, rfl, ?_⟩
        rcases htag rfl x hx with hsender | htag
        · refine Or.inl ⟨hsender, ?_⟩
          by_contra hsys
          have hnone := hu x (List.mem_of_find?_eq_some hx) (by simpa using hsys)
          rw [hsender] at hnone
          cases hnone
        · exact Or.inr ⟨rfl, rfl, htag.symm⟩
  · rw [if_neg htaken]
    have hfresh : ∀ x ∈ msgs, x.msgId ≠ m.msgId := by simpa using htaken
    have hnone : msgs.find? (fun x => decide (x.msgId = m.msgId)) = none := by
      simpa using hfresh
    obtain ⟨pre, post, hmsgs, hinsert⟩ := insertMessageOrdered_around msgs m
    rw [hinsert, hnone]
    have hstored : ThreadBy S msgs
        (if forwarded then setForwardedIn (pre ++ m :: post) m.msgId else pre ++ m :: post) := by
      cases forwarded with
      | false => exact .stored hmsgs mine plain
      | true =>
        -- no other message has the id, so the tag falls on the new one
        have htag : setForwardedIn (pre ++ m :: post) m.msgId =
            pre ++ { m with forwarded := true } :: post := by
          have hpre : ∀ x ∈ pre, x.msgId ≠ m.msgId := fun x hx => hfresh x (by simp [hmsgs, hx])
          clear hinsert hmsgs
          unfold setForwardedIn
          induction pre with
          | nil => simp [updateFirst]
          | cons x pre ih =>
            have hx : x.msgId ≠ m.msgId := hpre x (by simp)
            simp only [List.cons_append, updateFirst, decide_eq_true_eq, if_neg hx]
            rw [ih fun y hy => hpre y (by simp [hy])]
        rw [if_pos rfl, htag]
        exact .stored hmsgs mine plain
    simp [hstored]

/-- The tag of forwarded content falls on a message of its sender, or on one that has it. -/
def TagFits (S : String) (msgs : List StoredMessage) : HeldGroupContent → Prop
  | .message msgId _ _ _ _ forwarded | .attachment msgId _ _ _ forwarded =>
    forwarded = true → ∀ m ∈ msgs.find? (·.msgId = msgId), m.sender = some S ∨ m.forwarded = true
  | _ => True

theorem threadBy_renderIn_iff (hu : Unsigned msgs) (now : ℕ) (timer : Option ℕ)
    (c : HeldGroupContent) :
    ThreadBy S msgs (renderIn now timer S msgs c) ↔ TagFits S msgs c := by
  cases c with
  | message msgId body sentAt expireSecs reply forwarded =>
    exact threadBy_store_iff hu
      (m := { textMessage now timer .incoming msgId body sentAt reply expireSecs with sender := some S })
      rfl rfl forwarded
  | attachment msgId attachment sentAt expireSecs forwarded =>
    exact threadBy_store_iff hu
      (m := { fileMessage now timer .incoming msgId attachment sentAt expireSecs with sender := some S })
      rfl rfl forwarded
  | reaction targetMsgId emoji add =>
    exact iff_of_true (threadBy_reactIn targetMsgId emoji add) trivial
  | edit msgId body => exact iff_of_true (threadBy_editIn hu msgId body) trivial
  | delete msgId => exact iff_of_true (threadBy_delete hu msgId) trivial

end thread

/-! ### What may change in a history -/

/-- The group that the content of an event is for. -/
def InboundEvent.groupOf : InboundEvent → Option String
  | .groupMessage _ gid .. | .groupMessageEdited _ gid .. | .groupMessageDeleted _ gid _ | .groupRenamed _ gid _
  | .groupMemberLeft _ gid | .groupAttachment _ gid .. | .groupTimerUpdate _ gid _ | .groupReaction _ gid ..
  | .groupAvatarUpdate _ gid _ | .groupMessagePinned _ gid .. => some gid
  | _ => none

/-- And the content, if it is one that is put in quarantine. -/
def InboundEvent.heldAs : InboundEvent → Option HeldGroupContent
  | .groupMessage _ _ msgId body sentAt expireSecs reply forwarded =>
    some (.message msgId body sentAt expireSecs reply forwarded)
  | .groupAttachment _ _ msgId att sentAt expireSecs forwarded =>
    some (.attachment msgId att sentAt expireSecs forwarded)
  | .groupMessageEdited _ _ msgId body => some (.edit msgId body)
  | .groupMessageDeleted _ _ msgId => some (.delete msgId)
  | .groupReaction _ _ targetMsgId emoji add => some (.reaction targetMsgId emoji add)
  | _ => none

/-- No other group changes, no conversation and no contact. -/
structure OnlyGroup (gid : String) (h h' : History) : Prop where
  rest : h' = { h with groups := h'.groups, heldGroupContent := h'.heldGroupContent }
  others : ∀ j, j ≠ gid → h'.groups.get j = h.groups.get j
  unknown : h.groups.get gid = none → h'.groups.get gid = none

/-- What an event of `S` for the group may do. -/
structure OwnedBy (S gid : String) (h h' : History) : Prop where
  thread : ∀ msgs, h.thread (.group gid) = some msgs →
    ∃ msgs', h'.thread (.group gid) = some msgs' ∧ ThreadBy S msgs msgs'
  elsewhere : OnlyGroup gid h h'
  stranger : h.groupMemberLabel gid S = none →
    h' = { h with heldGroupContent := h'.heldGroupContent }

section event

variable {h h' h'' : History} {gid : String}

theorem OnlyGroup.refl (gid : String) (h : History) : OnlyGroup gid h h := ⟨rfl, fun _ _ => rfl, id⟩

theorem OnlyGroup.trans (hf : OnlyGroup gid h h') (hg : OnlyGroup gid h' h'') :
    OnlyGroup gid h h'' where
  rest := by
    have hrest := hg.rest
    rw [hf.rest] at hrest
    exact hrest
  others j hj := (hg.others j hj).trans (hf.others j hj)
  unknown hnone := hg.unknown (hf.unknown hnone)

theorem onlyGroup_updateGroup (h : History) (gid : String) (f : GroupRecord → GroupRecord) :
    OnlyGroup gid h (h.updateGroup gid f) := by
  have hget : ∀ j, (h.updateGroup gid f).groups.get j =
      if j = gid then (h.groups.get gid).map f else h.groups.get j :=
    fun j => Table.get_modify h.groups gid j f
  refine ⟨rfl, fun j hj => ?_, fun hnone => ?_⟩
  · rw [hget, if_neg hj]
  · rw [hget, if_pos rfl, hnone]
    rfl

theorem onlyGroup_hold (h : History) (gid sender : String) (c : HeldGroupContent) (now : ℕ) :
    OnlyGroup gid h (h.holdGroupContent gid sender c now) := ⟨rfl, fun _ _ => rfl, id⟩

/-- Content goes to the quarantine or into the thread. -/
theorem apply_heldAs (C : Crypto) (now : ℕ) {event : InboundEvent} {c : HeldGroupContent}
    {S : String} (hgid : event.groupOf = some gid) (hc : event.heldAs = some c)
    (hS : h.account event = some S) (hother : ¬ h.Ours S) :
    h.apply C now event = if (h.groupMemberLabel gid S).isNone then h.holdGroupContent gid S c now
      else h.updateThread gid (renderIn now (h.groupTimer gid) S · c) := by
  have hgated : ∀ {f : History → History}, f h = h.replayOne now gid ⟨S, now, c⟩ →
      h.rosterGated now gid S c f =
      if (h.groupMemberLabel gid S).isNone then h.holdGroupContent gid S c now
      else h.updateThread gid (renderIn now (h.groupTimer gid) S · c) := by
    intro f hf
    unfold History.rosterGated
    rw [hf, replayOne_eq]
  cases event with
  | groupMessage | groupAttachment | groupMessageEdited | groupMessageDeleted =>
    cases hgid
    cases hc
    cases hS
    unfold History.apply
    exact hgated rfl
  | groupReaction sender gid' targetMsgId emoji add =>
    cases hgid
    cases hc
    cases hS
    have hown : ¬ h.isOwnDevice sender = true := by
      rw [not_ownDevice h rfl fun hself => hother (Or.inl hself)]
      simp
    unfold History.apply
    dsimp only
    rw [if_neg hown]
    exact hgated rfl
  | _ => cases hc

/-- The thread after edits of `S`: none, or one. -/
theorem threadBy_of_edited {es : List (Chat × Edit)} {S : String} (he : Edited h es h')
    (hes : es = [] ∨ ∃ e, es = [(.group gid, e)] ∧
      ∀ msgs, ∃ msgs', e.run (some msgs) = some msgs' ∧ ThreadBy S msgs msgs') :
    ∀ msgs, h.thread (.group gid) = some msgs →
      ∃ msgs', h'.thread (.group gid) = some msgs' ∧ ThreadBy S msgs msgs' := by
  intro msgs hmsgs
  rcases hes with rfl | ⟨e, rfl, hby⟩
  · have hthread : h'.thread = h.thread := he
    exact ⟨msgs, by rw [hthread, hmsgs], ThreadBy.refl msgs⟩
  · obtain ⟨msgs', hrun, hby⟩ := hby msgs
    have hthread : h'.thread (.group gid) = e.run (h.thread (.group gid)) := by
      rw [show h'.thread = _ from he, Trace.run_cons, Trace.run_nil, editStep, Function.update_self]
    exact ⟨msgs', by rw [hthread, hmsgs, hrun], hby⟩

/-- A change that only a member makes, of the group and, at most, of its thread. -/
structure Controlled (S gid : String) (h h' : History) : Prop where
  thread : ∀ msgs, h.thread (.group gid) = some msgs →
    ∃ msgs', h'.thread (.group gid) = some msgs' ∧ ThreadBy S msgs msgs'
  elsewhere : OnlyGroup gid h h'
  member : h.groupMemberLabel gid S = none → h' = h

theorem Controlled.owned {S : String} (hc : Controlled S gid h h') : OwnedBy S gid h h' :=
  ⟨hc.thread, hc.elsewhere, fun hnone => by rw [hc.member hnone]⟩

theorem exists_chip (S text : String) (at_ : ℕ) (msgs : List StoredMessage) :
    ∃ msgs', (Edit.chip text at_).run (some msgs) = some msgs' ∧ ThreadBy S msgs msgs' :=
  ⟨_, rfl, threadBy_recordChip text at_⟩

theorem controlled_groupRename (now : ℕ) (S name : String) :
    Controlled S gid h (h.groupRename now S gid name) := by
  refine ⟨threadBy_of_edited (edited_groupRename now S gid name) ?_, ?_, fun hnone => ?_⟩
  · rcases renameEdits_cases h now S gid name with heq | ⟨text, heq⟩
    · exact Or.inl heq
    · exact Or.inr ⟨_, heq, exists_chip S text now⟩
  · unfold History.groupRename
    split
    · exact OnlyGroup.refl gid h
    split
    · exact OnlyGroup.refl gid h
    · rename_i hname
      unfold History.renameGroup History.changeGroup
      rw [if_neg hname]
      cases h.hasGroup gid with
      | true => exact (onlyGroup_updateGroup h gid _).trans (onlyGroup_updateGroup _ gid _)
      | false => exact onlyGroup_updateGroup h gid _
  · unfold History.groupRename
    rw [hnone]

theorem controlled_groupLeave (now : ℕ) (S : String) :
    Controlled S gid h (h.groupLeave now S gid) := by
  refine ⟨threadBy_of_edited (edited_groupLeave now S gid) ?_, ?_, fun hnone => ?_⟩
  · rcases leaveEdits_cases h now S gid with heq | ⟨text, heq⟩
    · exact Or.inl heq
    · exact Or.inr ⟨_, heq, exists_chip S text now⟩
  · have hremove : OnlyGroup gid h (h.removeGroupMember gid S).2 := onlyGroup_updateGroup h gid _
    unfold History.groupLeave
    split
    · exact OnlyGroup.refl gid h
    split
    · exact (onlyGroup_updateGroup h gid _).trans (onlyGroup_updateGroup _ gid _)
    split
    · rename_i heq
      rw [heq] at hremove
      exact hremove.trans (onlyGroup_updateGroup _ gid _)
    · rename_i heq
      rw [heq] at hremove
      exact hremove
  · unfold History.groupLeave
    rw [hnone]

theorem controlled_fromMember {S : String} {f : GroupRecord → GroupRecord}
    (k : List StoredMessage → List StoredMessage) (hf : ∀ g, (f g).messages = k g.messages)
    (hk : ∀ msgs, ThreadBy S msgs (k msgs)) :
    Controlled S gid h (h.fromMember gid S (·.updateGroup gid f)) := by
  unfold History.fromMember
  by_cases hmember : (h.groupMemberLabel gid S).isSome = true
  · rw [if_pos hmember]
    refine ⟨fun msgs hmsgs => ⟨k msgs, ?_, hk msgs⟩, onlyGroup_updateGroup h gid f, fun hnone => ?_⟩
    · rw [thread_updateGroup k hf, if_pos rfl, hmsgs]
      rfl
    · rw [hnone] at hmember
      cases hmember
  · rw [if_neg hmember]
    exact ⟨fun msgs hmsgs => ⟨msgs, hmsgs, ThreadBy.refl msgs⟩, OnlyGroup.refl gid h, fun _ => rfl⟩

/-- Beside content there are the name, the list, the settings and the pins. -/
theorem controlled_apply (C : Crypto) (now : ℕ) {event : InboundEvent} {S : String}
    (hgid : event.groupOf = some gid) (hc : event.heldAs = none) (hS : h.account event = some S) :
    Controlled S gid h (h.apply C now event) := by
  cases event with
  | groupRenamed sender gid' name =>
    cases hgid
    cases hS
    exact controlled_groupRename now _ name
  | groupMemberLeft sender gid' =>
    cases hgid
    cases hS
    exact controlled_groupLeave now _
  | groupMessagePinned sender gid' msgId pin =>
    cases hgid
    cases hS
    exact controlled_fromMember (setPinnedIn · msgId pin) (fun _ => rfl)
      fun _ => threadBy_setPinnedIn msgId pin
  | groupTimerUpdate | groupAvatarUpdate =>
    cases hgid
    cases hS
    exact controlled_fromMember id (fun _ => rfl) ThreadBy.refl
  | groupMessage | groupAttachment | groupMessageEdited | groupMessageDeleted | groupReaction => cases hc
  | _ => cases hgid

/-- The event, if it is content of a member, puts no tag on what another wrote. -/
def History.TagSpares (h : History) (S gid : String) (event : InboundEvent) : Prop :=
  ∀ c msgs, event.heldAs = some c → h.groupMemberLabel gid S ≠ none →
  h.thread (.group gid) = some msgs →
    TagFits S msgs c

/-- And exactly then it keeps to its sender. -/
theorem ownedBy_iff (C : Crypto) (now : ℕ) {event : InboundEvent} {S : String}
    (hu : ∀ msgs, h.thread (.group gid) = some msgs → Unsigned msgs)
    (hgid : event.groupOf = some gid) (hS : h.account event = some S) (hother : ¬ h.Ours S) :
    OwnedBy S gid h (h.apply C now event) ↔ h.TagSpares S gid event := by
  unfold History.TagSpares
  cases hc : event.heldAs with
  | none =>
    refine iff_of_true (controlled_apply C now hgid hc hS).owned ?_
    intro c msgs heq
    cases heq
  | some c =>
    rw [apply_heldAs C now hgid hc hS hother]
    by_cases hmember : h.groupMemberLabel gid S = none
    · rw [if_pos (by rw [hmember]; rfl)]
      have hheld : OwnedBy S gid h (h.holdGroupContent gid S c now) :=
        ⟨fun msgs hmsgs => ⟨msgs, hmsgs, ThreadBy.refl msgs⟩, onlyGroup_hold h gid S c now,
        fun _ => rfl⟩
      exact iff_of_true hheld fun _ _ _ hsome => absurd hmember hsome
    · rw [if_neg (by simpa using hmember)]
      have hthread : ∀ msgs, h.thread (.group gid) = some msgs →
          (h.updateThread gid (renderIn now (h.groupTimer gid) S · c)).thread (.group gid) =
            some (renderIn now (h.groupTimer gid) S msgs c) := by
        intro msgs hmsgs
        have hto := thread_updateGroup (h := h)
          (f := fun g => { g with messages := renderIn now (h.groupTimer gid) S g.messages c })
          (renderIn now (h.groupTimer gid) S · c) (fun _ => rfl) gid (.group gid)
        rw [if_pos rfl, hmsgs] at hto
        exact hto
      constructor
      · intro howned c' msgs heq _ hmsgs
        cases heq
        obtain ⟨msgs', hmsgs', hby⟩ := howned.thread msgs hmsgs
        rw [hthread msgs hmsgs] at hmsgs'
        cases hmsgs'
        exact (threadBy_renderIn_iff (hu msgs hmsgs) now _ c).mp hby
      · intro hfits
        refine ⟨?_, onlyGroup_updateGroup h gid _, fun hnone => absurd hnone hmember⟩
        intro msgs hmsgs
        refine ⟨_, hthread msgs hmsgs, ?_⟩
        exact (threadBy_renderIn_iff (hu msgs hmsgs) now _ c).mpr (hfits c msgs rfl hmember hmsgs)

end event

/-! ### Chips are nobody's -/

section chips

variable {msgs : List StoredMessage}

/-- Every message is one of those before, as far as it is marked and signed, or no signed chip. -/
theorem unsigned_of_mem {msgs' : List StoredMessage} (hu : Unsigned msgs)
    (hmem : ∀ m' ∈ msgs', (m'.system = true → m'.sender = none) ∨
      ∃ m ∈ msgs, m'.system = m.system ∧ m'.sender = m.sender) : Unsigned msgs' := by
  intro m' hm' hsys
  rcases hmem m' hm' with hnone | ⟨m, hm, hsystem, hsender⟩
  · exact hnone hsys
  · rw [hsender]
    exact hu m hm (hsystem ▸ hsys)

theorem unsigned_sublist {msgs' : List StoredMessage} (hu : Unsigned msgs) (hs : msgs' ⊆ msgs) :
    Unsigned msgs' :=
  fun m hm => hu m (hs hm)

theorem unsigned_map {f : StoredMessage → StoredMessage}
    (hf : ∀ m, ((f m).system, (f m).sender) = (m.system, m.sender)) (hu : Unsigned msgs) :
    Unsigned (msgs.map f) := by
  apply unsigned_of_mem hu
  intro m' hm'
  obtain ⟨m, hm, rfl⟩ := List.mem_map.mp hm'
  exact Or.inr ⟨m, hm, (Prod.mk.injEq _ _ _ _).mp (hf m)⟩

theorem unsigned_updateFirst {p : StoredMessage → Bool} {f : StoredMessage → StoredMessage}
    (hf : ∀ m, ((f m).system, (f m).sender) = (m.system, m.sender)) (hu : Unsigned msgs) :
    Unsigned (updateFirst p f msgs) := by
  have hkeys : (updateFirst p f msgs).map (fun m => (m.system, m.sender)) =
      msgs.map fun m => (m.system, m.sender) :=
    map_updateFirst hf p msgs
  apply unsigned_of_mem hu
  intro m' hm'
  have hpair : (m'.system, m'.sender) ∈ msgs.map fun m => (m.system, m.sender) :=
    hkeys ▸ List.mem_map_of_mem (f := fun m : StoredMessage => (m.system, m.sender)) hm'
  obtain ⟨m, hm, heq⟩ := List.mem_map.mp hpair
  exact Or.inr ⟨m, hm, (Prod.mk.injEq _ _ _ _).mp heq.symm⟩

theorem unsigned_recordOnce {m : StoredMessage} (plain : m.system = false) (hu : Unsigned msgs) :
    Unsigned (recordOnce msgs m) := by
  unfold recordOnce
  split
  · exact hu
  · obtain ⟨pre, post, hmsgs, hinsert⟩ := insertMessageOrdered_around msgs m
    rw [hinsert]
    intro x hx hsys
    rcases List.mem_append.mp hx with hx | hx
    · exact hu x (by simp [hmsgs, hx]) hsys
    rcases List.mem_cons.mp hx with rfl | hx
    · rw [plain] at hsys
      cases hsys
    · exact hu x (by simp [hmsgs, hx]) hsys

theorem unsigned_append_chip (hu : Unsigned msgs) (tag text : String) (at_ n : ℕ) :
    Unsigned (msgs ++ [chip tag text at_ n]) := by
  intro m hm hsys
  rcases List.mem_append.mp hm with hm | hm
  · exact hu m hm hsys
  · rw [List.mem_singleton.mp hm]
    rfl

theorem unsigned_renderIn (hu : Unsigned msgs) (now : ℕ) (timer : Option ℕ) (S : String)
    (c : HeldGroupContent) :
    Unsigned (renderIn now timer S msgs c) := by
  have hstore : ∀ m : StoredMessage, m.system = false → ∀ forwarded : Bool,
      Unsigned (if forwarded then setForwardedIn (recordOnce msgs m) m.msgId else recordOnce msgs m) := by
    intro m hm forwarded
    have hrecord := unsigned_recordOnce hm hu
    cases forwarded with
    | false => exact hrecord
    | true => exact unsigned_updateFirst (fun _ => rfl) hrecord
  cases c with
  | message msgId body sentAt expireSecs reply forwarded =>
    exact hstore { textMessage now timer .incoming msgId body sentAt reply expireSecs with sender := some S } rfl
      forwarded
  | attachment msgId attachment sentAt expireSecs forwarded =>
    exact hstore { fileMessage now timer .incoming msgId attachment sentAt expireSecs with sender := some S } rfl
      forwarded
  | reaction | edit => exact unsigned_updateFirst (fun _ => rfl) hu
  | delete => exact unsigned_sublist hu List.filter_sublist.subset

/-- What an edit records is no chip. -/
def Edit.unchipped : Edit → Bool
  | .record m => !m.system
  | _ => true

theorem unsigned_edit {e : Edit} (he : e.unchipped = true) (hu : Unsigned msgs) :
    Unsigned (e.on msgs) := by
  cases e with
  | create | clear => exact hu
  | record m => exact unsigned_recordOnce (by simpa [Edit.unchipped] using he) hu
  | content now timer sender c => exact unsigned_renderIn hu now timer sender c
  | chip text at_ =>
    unfold Edit.on recordChip
    dsimp only
    split
    · exact hu
    · exact unsigned_append_chip hu "sys" text at_ _
  | callChip text at_ => exact unsigned_append_chip hu "call" text at_ _
  | change p c => exact unsigned_updateFirst (fun m => by cases c <;> rfl) hu
  | receipt ids target => exact unsigned_map (fun m => by split <;> rfl) hu
  | seen ids => exact unsigned_map (fun m => by split <;> rfl) hu
  | drop p => exact unsigned_sublist hu List.filter_sublist.subset

/-- No thread of a group has a signed chip. -/
def GroupsUnsigned (threads : Chat → Option (List StoredMessage)) : Prop :=
  ∀ gid msgs, threads (.group gid) = some msgs → Unsigned msgs

theorem unsigned_editStep {threads : Chat → Option (List StoredMessage)} {e : Chat × Edit}
    (hu : GroupsUnsigned threads) (he : e.2.unchipped = true) :
    GroupsUnsigned (editStep threads e) := by
  intro gid msgs hmsgs
  unfold editStep at hmsgs
  by_cases hgid : Chat.group gid = e.1
  · rw [← hgid, Function.update_self] at hmsgs
    cases hthread : threads (.group gid) with
    | some old =>
      have hold := unsigned_edit he (hu gid old hthread)
      rw [hthread] at hmsgs
      cases hedit : e.2 with
      | clear =>
        rw [hedit] at hmsgs
        cases hmsgs
      | _ =>
        rw [hedit] at hmsgs hold
        cases hmsgs
        exact hold
    | none =>
      rw [hthread] at hmsgs
      cases hedit : e.2 with
      | create =>
        rw [hedit] at hmsgs
        cases hmsgs
        intro m hm
        cases hm
      | _ =>
        rw [hedit] at hmsgs
        cases hmsgs
  · rw [Function.update_of_ne hgid] at hmsgs
    exact hu gid msgs hmsgs

theorem unsigned_edited {h h' : History} {es : List (Chat × Edit)} (he : Edited h es h')
    (hes : ∀ e ∈ es, e.2.unchipped = true) (hu : GroupsUnsigned h.thread) :
    GroupsUnsigned h'.thread := by
  rw [show h'.thread = _ from he]
  clear he
  generalize h.thread = threads at hu
  induction es generalizing threads with
  | nil => exact hu
  | cons e es ih =>
    rw [Trace.run_cons]
    exact ih (fun e' he' => hes e' (by simp [he'])) _ (unsigned_editStep hu (hes e (by simp)))

/-! ### The edits of operations -/

/-- No edit of the list records a chip. -/
def Unchipped (es : List (Chat × Edit)) : Prop := ∀ e ∈ es, e.2.unchipped = true

theorem unchipped_nil : Unchipped [] := by simp [Unchipped]

theorem Unchipped.append {es fs : List (Chat × Edit)} (he : Unchipped es) (hf : Unchipped fs) :
    Unchipped (es ++ fs) := by
  intro e hmem
  rcases List.mem_append.mp hmem with hmem | hmem
  · exact he e hmem
  · exact hf e hmem

theorem unchipped_ite {p : Prop} [Decidable p] {es fs : List (Chat × Edit)} (he : Unchipped es)
    (hf : Unchipped fs) :
    Unchipped (if p then es else fs) := by
  split
  · exact he
  · exact hf

theorem unchipped_one {c : Chat} {e : Edit} (he : e.unchipped = true) : Unchipped [(c, e)] := by
  simpa [Unchipped] using he

section edits

variable (h : History) (C : Crypto) (now : ℕ)

theorem unchipped_storedEdits (c : Chat) {m : StoredMessage} (hm : m.system = false)
    (forwarded : Bool) :
    Unchipped (storedEdits c m forwarded) := by
  unfold storedEdits Unchipped
  cases forwarded <;> simp [Edit.unchipped, hm]

theorem unchipped_of_replays {es : List (Chat × Edit)} (hes : ∀ e ∈ es, e.2.replays = true) :
    Unchipped es := by
  intro e he
  have hreplays := hes e he
  cases hedit : e.2 with
  | record m =>
    rw [hedit] at hreplays
    cases hreplays
  | _ => rfl

theorem unchipped_acceptEdits (key : String) : Unchipped (h.acceptEdits C now key) := by
  unfold History.acceptEdits
  split
  · exact unchipped_nil
  · refine (unchipped_of_replays (replays_inviteEdits C now _ _)).append ?_
    simp [Unchipped, History.chipEdits, Edit.unchipped]

theorem unchipped_acceptForKeyEdits (convo : String) :
    Unchipped (h.acceptForKeyEdits C now convo) := by
  unfold History.acceptForKeyEdits
  split
  · exact unchipped_acceptEdits h C now _
  · exact unchipped_nil

theorem unchipped_rosterEdits (epoch : GroupEpoch) : Unchipped (h.rosterEdits C now epoch) := by
  refine (unchipped_of_replays (replays_adoptEdits h C now epoch)).append
    (unchipped_ite ?_ unchipped_nil)
  exact unchipped_ite (unchipped_one rfl) (unchipped_ite (unchipped_one rfl) unchipped_nil)

theorem unchipped_screenedEdits (convo claimed : String) {edits : List (Chat × Edit)}
    (hs : Unchipped edits) :
    Unchipped (h.screenedEdits now convo claimed edits) := by
  unfold History.screenedEdits
  split
  · exact unchipped_nil
  · exact hs

theorem unchipped_gatedEdits (gid sender : String) (content : HeldGroupContent) :
    Unchipped (h.gatedEdits now gid sender content) :=
  unchipped_ite unchipped_nil (unchipped_one rfl)

theorem unchipped_renameEdits (sender gid name : String) :
    Unchipped (h.renameEdits now sender gid name) := by
  rcases renameEdits_cases h now sender gid name with heq | ⟨text, heq⟩
  · exact heq ▸ unchipped_nil
  · exact heq ▸ unchipped_one rfl

theorem unchipped_leaveEdits (sender gid : String) : Unchipped (h.leaveEdits now sender gid) := by
  rcases leaveEdits_cases h now sender gid with heq | ⟨text, heq⟩
  · exact heq ▸ unchipped_nil
  · exact heq ▸ unchipped_one rfl

theorem unchipped_applyEdits (event : InboundEvent) : Unchipped (h.applyEdits C now event) := by
  cases event with
  | message | attachment => exact unchipped_screenedEdits h now _ _ (unchipped_storedEdits _ rfl _)
  | selfSentText | selfSentFile =>
    exact unchipped_ite ((unchipped_acceptForKeyEdits h C now _).append (unchipped_storedEdits _ rfl _)) unchipped_nil
  | forwardedIncoming sender fromKey fromUsername msgId body sentAt reply attachment expireSecs =>
    refine unchipped_ite (unchipped_screenedEdits h now _ _ (unchipped_storedEdits _ ?_ _)) unchipped_nil
    cases attachment <;> rfl
  | groupRosterUpdate sender epoch name secs avatar =>
    unfold History.applyEdits
    dsimp only
    split
    · exact unchipped_nil
    · exact unchipped_rosterEdits _ C now epoch
  | groupMessage | groupMessageEdited | groupMessageDeleted | groupAttachment =>
    exact unchipped_gatedEdits h now _ _ _
  | groupReaction => exact unchipped_ite (unchipped_one rfl) (unchipped_gatedEdits h now _ _ _)
  | groupRenamed sender gid name => exact unchipped_renameEdits h now _ gid name
  | groupMemberLeft sender gid => exact unchipped_leaveEdits h now _ gid
  | timerUpdate | messagePinned => exact unchipped_ite unchipped_nil (unchipped_one rfl)
  | selfReadSeen | selfTimerUpdate | selfReaction | selfMessagePinned | groupMessagePinned =>
    exact unchipped_ite (unchipped_one rfl) unchipped_nil
  | messageEdited | messageDeleted | receipt | chatDeleted | reaction => exact unchipped_one rfl
  | knock | groupTimerUpdate | renamed | profileUpdate | groupAvatarUpdate | selfProfileUpdate | other =>
    exact unchipped_nil

end edits

/-! ### Runs -/

/-- The histories that runs reach, where one that is merged was reached by a run of its own. -/
inductive Reached (C : Crypto) : History → Prop
  | start : Reached C {}
  | step {h : History} (reached : Reached C h) (now : ℕ) (op : HistoryOp)
      (merged : ∀ other, op = .mergeFrom other → Reached C other) : Reached C (h.step C now op)

section runs

variable {h h' : History} {C : Crypto}

theorem unsigned_of_groups (hg : h'.groups = h.groups) (hu : GroupsUnsigned h.thread) :
    GroupsUnsigned h'.thread := by
  intro gid msgs hmsgs
  rw [thread_group, hg] at hmsgs
  exact hu gid msgs hmsgs

theorem unsigned_updateThread {f : List StoredMessage → List StoredMessage}
    (hf : ∀ msgs, Unsigned msgs → Unsigned (f msgs)) (hu : GroupsUnsigned h.thread) (gid : String) :
    GroupsUnsigned (h.updateThread gid f).thread := by
  intro j msgs hmsgs
  unfold History.updateThread at hmsgs
  rw [thread_updateGroup f (fun _ => rfl)] at hmsgs
  split at hmsgs
  · obtain ⟨old, hold, rfl⟩ := Option.map_eq_some_iff.mp hmsgs
    exact hf old (hu j old hold)
  · exact hu j msgs hmsgs

theorem unsigned_mapGroups {f : List StoredMessage → List StoredMessage}
    (hf : ∀ msgs, Unsigned msgs → Unsigned (f msgs))
    (hg : h'.groups = h.groups.mapValues fun g => { g with messages := f g.messages })
    (hu : GroupsUnsigned h.thread) : GroupsUnsigned h'.thread := by
  intro gid msgs hmsgs
  rw [thread_group, hg, Table.get_mapValues] at hmsgs
  cases hgroup : h.groups.get gid with
  | none =>
    rw [hgroup] at hmsgs
    cases hmsgs
  | some g =>
    rw [hgroup] at hmsgs
    cases hmsgs
    exact hf g.messages (hu gid g.messages (by rw [thread_group, hgroup]; rfl))

theorem unsigned_acceptAll (now : ℕ) :
    ∀ (keys : List String) (h : History), GroupsUnsigned h.thread →
    GroupsUnsigned (keys.foldl (fun h key => (h.acceptRequest C now key).2) h).thread
  | [], _, hu => hu
  | key :: keys, h, hu =>
    unsigned_acceptAll now keys _
      (unsigned_edited (edited_acceptRequest h now key) (unchipped_acceptEdits h C now key) hu)

theorem OnlyPins.groups_eq (honly : OnlyPins h h') : h'.groups = h.groups := by rw [honly]

theorem groups_autoPinContact (username key : String) :
    (h.autoPinContact username key).groups = h.groups := by
  unfold History.autoPinContact
  split
  · rfl
  split <;> rfl

theorem groups_updateRequest (convo : String) (f : PendingRequest → PendingRequest) :
    (h.updateRequest convo f).groups = h.groups := by
  have honly : OnlyContacts h (h.updateRequest convo f) := OnlyContacts.updateContactByKey h convo _
  rw [honly]

theorem groups_screenCallOffer (senderKey claimed : String) (now : ℕ) :
    (h.screenCallOffer senderKey claimed now).2.groups = h.groups := by
  unfold History.screenCallOffer
  dsimp only
  split
  · rfl
  split
  · exact groups_updateRequest _ _
  split <;> rfl

theorem groups_declineRequest (key : String) (block : Bool) :
    (h.declineRequest key block).2.groups = h.groups := by
  unfold History.declineRequest
  split
  · rfl
  split <;> rfl

theorem groups_requestNeedsNotify (convo : String) :
    (h.requestNeedsNotify convo).2.groups = h.groups := by
  unfold History.requestNeedsNotify
  split
  · rfl
  · exact groups_updateRequest _ _

theorem groups_outboxPush (envelopes : List Envelope) (dueAt : ℕ) :
    (h.outboxPush envelopes dueAt).groups = h.groups := by
  unfold History.outboxPush
  rfl

theorem groups_callOutboxPush (envelopes : List Envelope) (now : ℕ) :
    (h.callOutboxPush envelopes now).2.groups = h.groups := by
  unfold History.callOutboxPush
  rfl

theorem unsigned_mergeFrom {other : History} (ho : GroupsUnsigned other.thread)
    (hu : GroupsUnsigned h.thread) :
    GroupsUnsigned (h.mergeFrom other).thread := by
  intro gid msgs hmsgs
  rw [thread_mergeFrom_group] at hmsgs
  cases hthread : h.thread (.group gid) with
  | some own =>
    rw [hthread] at hmsgs
    cases hmsgs
    exact hu gid msgs hthread
  | none =>
    rw [hthread] at hmsgs
    exact ho gid msgs hmsgs

theorem unsigned_deleteGroup (hu : GroupsUnsigned h.thread) (gid : String) :
    GroupsUnsigned (h.deleteGroup gid).thread := by
  intro j msgs hmsgs
  have hget : (h.deleteGroup gid).groups.get j = (h.groups.remove gid).get j := rfl
  rw [thread_group, hget, Table.get_remove] at hmsgs
  by_cases hj : j = gid
  · rw [if_pos hj] at hmsgs
    cases hmsgs
  · rw [if_neg hj] at hmsgs
    exact hu j msgs hmsgs

/-- **No operation signs a chip.** -/
theorem unsigned_step (now : ℕ) {op : HistoryOp}
    (hm : ∀ other, op = .mergeFrom other → GroupsUnsigned other.thread)
    (hu : GroupsUnsigned h.thread) : GroupsUnsigned (h.step C now op).thread := by
  have hchange : ∀ {p : StoredMessage → Bool} {f : StoredMessage → StoredMessage} (gid : String),
      (∀ m, ((f m).system, (f m).sender) = (m.system, m.sender)) →
        GroupsUnsigned (h.updateThread gid (updateFirst p f)).thread := by
    intro p f gid hf
    exact unsigned_updateThread (fun _ => unsigned_updateFirst hf) hu gid
  have hsame : ∀ {h' : History}, h'.thread = h.thread → GroupsUnsigned h'.thread := by
    intro h' hthread
    rw [hthread]
    exact hu
  cases op with
  | adoptGroupEpoch epoch =>
    exact unsigned_edited (edited_adopt h now epoch)
      (unchipped_of_replays (replays_adoptEdits h C now epoch)) hu
  | apply event => exact unsigned_edited (edited_apply C h now event) (unchipped_applyEdits h C now event) hu
  | acceptRequest key => exact unsigned_edited (edited_acceptRequest h now key) (unchipped_acceptEdits h C now key) hu
  | acceptRequestForKey convo =>
    exact unsigned_edited (edited_acceptRequestForKey h now convo)
      (unchipped_acceptForKeyEdits h C now convo) hu
  | setRequestPrefs enabled allowText =>
    unfold History.step History.setRequestPrefs
    cases enabled with
    | true => exact unsigned_of_groups rfl hu
    | false => exact unsigned_acceptAll now _ _ (unsigned_of_groups rfl hu)
  | mergeFrom other => exact unsigned_mergeFrom (hm other rfl) hu
  | deleteGroup gid => exact unsigned_deleteGroup hu gid
  -- threads of groups
  | recordGroupMessage gid sender msgId body sentAt expireSecs reply =>
    exact unsigned_edited (edited_opEdits C h now rfl fun _ => by simp) (unchipped_one rfl) hu
  | recordGroupAttachment gid sender msgId attachment sentAt expireSecs =>
    exact unsigned_edited (edited_opEdits C h now rfl fun _ => by simp) (unchipped_one rfl) hu
  | recordGroupSystem gid text at_ =>
    exact unsigned_edited (edited_opEdits C h now rfl fun _ => by simp) (unchipped_one rfl) hu
  | recordGroupCallEvent gid text at_ =>
    exact unsigned_edited (edited_opEdits C h now rfl fun _ => by simp) (unchipped_one rfl) hu
  | deleteGroupMessage gid msgId =>
    exact unsigned_edited (edited_opEdits C h now rfl fun _ => by simp) (unchipped_one rfl) hu
  | reactGroup gid | setGroupMsgPinned gid | setGroupForwarded gid | editGroupLocal gid | applyIncomingGroupEdit gid =>
    exact hchange gid fun _ => rfl
  | applyIncomingGroupDelete gid msgId sender =>
    exact unsigned_updateThread (fun _ hmsgs => unsigned_sublist hmsgs List.filter_sublist.subset) hu gid
  | markGroupSeen gid =>
    exact unsigned_updateThread (f := (·.map fun m => { m with seenReceipted := true }))
      (fun _ => unsigned_map fun _ => rfl) hu gid
  | reap => exact unsigned_mapGroups (fun _ hmsgs => unsigned_sublist hmsgs List.filter_sublist.subset) rfl hu
  | normalizeMessageOrder =>
    exact unsigned_mapGroups (fun msgs hmsgs => unsigned_sublist hmsgs (List.mergeSort_perm msgs _).subset) rfl hu
  -- changes of a group beside its thread
  | setGroupTimer | setGroupAvatar | setGroupMuted | setGroupLeft | setGroupPinned | setGroupArchived
  | setGroupManualUnread | removeGroupMember =>
    refine hsame (thread_updateGroup_same ?_ _)
    intro g
    rfl
  | setGroupName gid name => exact hsame (thread_setGroupName h gid name)
  | renameGroup gid name => exact hsame (thread_renameGroup gid name)
  -- contacts and rosters
  | renameContact key newUsername =>
    exact hsame (OnlyContacts.renameContact h key newUsername).thread_eq
  | screenInbound convo claimed => exact hsame (OnlyContacts.screenInbound h convo claimed now).thread_eq
  | screenKnock convo claimed => exact hsame (OnlyContacts.screenKnock h convo claimed now).thread_eq
  | setContactAvatar key avatar => exact hsame (OnlyContacts.updateContactByKey h key _).thread_eq
  | markSessionReset peer => exact hsame (OnlyContacts.updateContactByKey h peer _).thread_eq
  | autoPinContact username key => exact unsigned_of_groups (groups_autoPinContact username key) hu
  | screenCallOffer senderKey claimed =>
    exact unsigned_of_groups (groups_screenCallOffer senderKey claimed now) hu
  | declineRequest key block => exact unsigned_of_groups (groups_declineRequest key block) hu
  | requestNeedsNotify convo => exact unsigned_of_groups (groups_requestNeedsNotify convo) hu
  | clearPinnedRoster username =>
    exact unsigned_of_groups (OnlyPins.clearPinnedRoster h username).groups_eq hu
  | pinRoster username bindingSeq seq primaryKey devices =>
    exact unsigned_of_groups (OnlyPins.pinRoster h username bindingSeq seq primaryKey devices).groups_eq hu
  | applyRosterUpdate username update =>
    exact unsigned_of_groups (OnlyPins.applyRosterUpdate h username update).groups_eq hu
  | outboxPush envelopes dueAt => exact unsigned_of_groups (groups_outboxPush envelopes dueAt) hu
  | callOutboxPush envelopes => exact unsigned_of_groups (groups_callOutboxPush envelopes now) hu
  -- the rest touches no group
  | _ => exact unsigned_of_groups rfl hu

theorem Reached.unsigned (hr : Reached C h) : GroupsUnsigned h.thread := by
  induction hr with
  | start =>
    intro gid msgs hmsgs
    cases hmsgs
  | step _ now op _ ih ihmerged => exact unsigned_step now ihmerged ih

/-- A run that merges nothing. -/
theorem reached_run :
    ∀ (ops : List (ℕ × HistoryOp)), (∀ op ∈ ops, ∀ other, op.2 ≠ .mergeFrom other) →
    ∀ {h : History}, Reached C h → Reached C (History.run C h ops)
  | [], _, _, hr => hr
  | op :: ops, hops, _, hr =>
    reached_run ops (fun op' hop' => hops op' (by simp [hop']))
      (hr.step op.1 op.2 fun other heq => (hops op (by simp) other heq).elim)

end runs

end chips

/-- **A member changes what is theirs.** In every history that is reached, an
event of another account keeps to what is its sender's exactly if its tag falls
on a message of its sender, or on one that has it. -/
theorem group_ownership_iff (C : Crypto) (h : History) (hr : Reached C h) (now : ℕ)
    (event : InboundEvent) (S gid : String) (hgid : event.groupOf = some gid)
    (hS : h.account event = some S) (hother : ¬ h.Ours S) :
    OwnedBy S gid h (h.apply C now event) ↔ h.TagSpares S gid event :=
  ownedBy_iff C now (hr.unsigned gid) hgid hS hother

/-! ### A tag on what another wrote -/

def bobWrites : ℕ × HistoryOp :=
  (2500, .apply (.groupMessage familyBob.identityKey "family" "m1" "hi" 2500 none none false))

/-- The group is founded, and one member writes. -/
def bobWroteOps : List (ℕ × HistoryOp) := foundedOps ++ [bobWrites]

def bobWrote : History := History.run leavingCrypto {} bobWroteOps

/-- A member forwards something, under an id of their choice. -/
def daveForwards (msgId : String) : InboundEvent :=
  .groupMessage familyDave.identityKey "family" msgId "news" 2600 none none true

theorem bobWrote_reached : Reached leavingCrypto bobWrote := by
  refine reached_run bobWroteOps ?_ .start
  intro op hop other
  simp only [bobWroteOps, foundedOps, carolOps, List.mem_append, List.mem_cons, List.not_mem_nil,
    or_false] at hop
  rcases hop with ((rfl | rfl) | rfl) | rfl <;>
  · intro heq
    cases heq

theorem bobWrote_facts :
    (bobWrote.thread (.group "family")).map (·.map fun m => (m.msgId, m.sender, m.forwarded)) =
      some [("m1", some familyBob.identityKey, false)] ∧
    ((bobWrote.apply leavingCrypto 2600 (daveForwards "m1")).thread (.group "family")).map
      (·.map fun m => (m.msgId, m.sender, m.forwarded)) =
        some [("m1", some familyBob.identityKey, true)] ∧
    bobWrote.groupMemberLabel "family" familyDave.identityKey = some "dave" ∧
    bobWrote.attributeDevice familyDave.identityKey = familyDave.identityKey ∧
    ¬ (bobWrote.selfPrimaryKey = some familyDave.identityKey ∨
      bobWrote.isOwnDevice familyDave.identityKey = true) := by
  refine ⟨?_, ?_, ?_, ?_, ?_⟩ <;> decide +kernel

/-- **A member tags what another wrote.** Dave forwards a message under the id
of Bob's: it is not stored, and Bob's is tagged. -/
theorem tag_on_anothers_message :
    ((bobWrote.thread (.group "family")).map (·.map fun m => (m.msgId, m.sender, m.forwarded)) =
      some [("m1", some familyBob.identityKey, false)] ∧
    ((bobWrote.apply leavingCrypto 2600 (daveForwards "m1")).thread (.group "family")).map
      (·.map fun m => (m.msgId, m.sender, m.forwarded)) =
        some [("m1", some familyBob.identityKey, true)]) ∧
    Reached leavingCrypto bobWrote ∧ bobWrote.account (daveForwards "m1") =
      some familyDave.identityKey ∧
    ¬ bobWrote.Ours familyDave.identityKey ∧
    ¬ OwnedBy familyDave.identityKey "family" bobWrote (bobWrote.apply leavingCrypto 2600 (daveForwards "m1")) := by
  obtain ⟨hbefore, hafter, hlabel, hkey, hother⟩ := bobWrote_facts
  have hS : bobWrote.account (daveForwards "m1") = some familyDave.identityKey := congrArg some hkey
  refine ⟨⟨hbefore, hafter⟩, bobWrote_reached, hS, hother, ?_⟩
  rw [ownedBy_iff leavingCrypto 2600 (bobWrote_reached.unsigned "family") rfl hS hother]
  intro hspares
  obtain ⟨msgs, hmsgs, hview⟩ := Option.map_eq_some_iff.mp hbefore
  obtain ⟨m, rfl, hm⟩ := List.map_eq_singleton_iff.mp hview
  obtain ⟨hid, hsender, htag⟩ : m.msgId = "m1" ∧ m.sender = some familyBob.identityKey ∧
      m.forwarded = false := by
    simpa using hm
  have hfits := hspares _ _ rfl (by rw [hlabel]; simp) hmsgs rfl m (by simp [hid])
  rw [hsender, htag] at hfits
  revert hfits
  decide

/-- Under an id that is not taken it is stored, and is theirs. -/
theorem group_ownership_iff_dave :
    OwnedBy familyDave.identityKey "family" bobWrote (bobWrote.apply leavingCrypto 2600 (daveForwards "m2")) := by
  obtain ⟨hbefore, -, -, hkey, hother⟩ := bobWrote_facts
  refine (group_ownership_iff leavingCrypto bobWrote bobWrote_reached 2600 (daveForwards "m2") _ _ rfl
    (congrArg some hkey) hother).mpr ?_
  intro c msgs hc _ hmsgs
  cases hc
  intro _ m hm
  rw [hmsgs] at hbefore
  obtain ⟨x, rfl, hx⟩ := List.map_eq_singleton_iff.mp (Option.some.inj hbefore)
  obtain ⟨hid, -⟩ : x.msgId = "m1" ∧ x.sender = some familyBob.identityKey ∧
      x.forwarded = false := by
    simpa using hx
  simp [hid] at hm

end Sona
