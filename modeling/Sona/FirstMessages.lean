/-
# First messages

Content for a group that nobody here knows waits for the epoch that makes the
group, which may lie behind a request that is pending: a week, while the group
stays unknown. As long as no cap takes it, and the user deletes nothing and
declines nobody, it is there when the epoch is adopted (`run_waits`).

The adoption writes it down only if it came less than ten minutes ago
(`first_messages_iff`): the group is made before the quarantine is looked at, and
for a group that is there the short time to live counts.

Key definitions: `CapSpares`, `Waits`.
Key theorems: `hold_waits`, `step_waits`, `run_waits`, `first_messages_iff`.
-/
import Mathlib.Data.List.Basic
import Sona.Lib.Table
import Sona.Lib.Trace
import Sona.Quarantine

namespace Sona

/-- No cap takes the event when content comes in for the group `j`: it is not the
first of a full group, nor is its group the stalest of too many. -/
def CapSpares (h : History) (now : ℕ) (j sender : String) (content : HeldGroupContent)
    (gid : String) (e : HeldGroupEvent) : Prop :=
  let pruned := h.pruneHeldGroupContent now
  let held := pruned.heldGroupContent.set j (h.heldWith j sender content now)
  (j = gid → (pruned.quarantined gid).length ≥ History.maxHeldGroupEvents → e ∈ (pruned.quarantined gid).drop 1) ∧
    (held.size > History.maxHeldGroupContentGroups → History.stalestHeld held ≠ some gid)

/-- The group is not known, and the step does not do away with the event: no cap
takes it, the user does not delete what there is of the group, and does not decline
one who invited to it. -/
def Waits (gid : String) (e : HeldGroupEvent) (h : History) (op : ℕ × HistoryOp) : Prop :=
  h.hasGroup gid = false ∧
  match op.2 with
  | .apply event => ∀ device j content, event.groupContent = some (device, j, content) →
      (h.groupMemberLabel j (h.attributeDevice device)).isNone = true →
        CapSpares h op.1 j (h.attributeDevice device) content gid e
  | .deleteGroup j => j ≠ gid
  | .declineRequest key _ => ∀ pin req, h.contacts.get key = some pin → pin.request = some req →
      gid ∉ req.invites.map (·.groupId)
  | _ => True

section waits

variable {C : Crypto} {h : History} {gid : String} {e : HeldGroupEvent} {now : ℕ}

theorem quarantined_of_held {h' : History} (hheld : h'.heldGroupContent = h.heldGroupContent) :
    h'.quarantined = h.quarantined := by
  unfold History.quarantined
  rw [hheld]

theorem hold_waits {j sender : String} {content : HeldGroupContent}
    (hunknown : h.hasGroup gid = false) (he : e ∈ h.quarantined gid)
    (hfresh : e.fresh now History.heldGroupContentUnknownTtlSecs = true)
    (hcap : CapSpares h now j sender content gid e) :
    e ∈ (h.holdGroupContent j sender content now).quarantined gid := by
  obtain ⟨hfull, hstale⟩ := hcap
  have hpruned : e ∈ (h.pruneHeldGroupContent now).quarantined gid :=
    (sheds_prune h).waits gid e hunknown he hfresh
  -- no group is taken out, or another one
  have hget : (h.holdGroupContent j sender content now).heldGroupContent.get gid =
      ((h.pruneHeldGroupContent now).heldGroupContent.set j (h.heldWith j sender content now)).get gid := by
    show (History.capHeld ((h.pruneHeldGroupContent now).heldGroupContent.set j (h.heldWith j sender content now))).get gid = _
    unfold History.capHeld
    split
    · rename_i hover
      split
      · rename_i stalest hs
        rw [Table.get_remove_ne]
        rintro rfl
        exact hstale hover hs
      · rfl
    · rfl
  unfold History.quarantined
  rw [hget, Table.get_set]
  by_cases hj : gid = j
  · subst hj
    rw [if_pos rfl, Option.getD_some]
    unfold History.heldWith
    dsimp only
    apply List.mem_append_left
    split
    · rename_i hlong
      exact hfull rfl hlong
    · exact hpruned
  · rw [if_neg hj]
    exact hpruned

theorem declineRequest_waits {key : String} {block : Bool} (he : e ∈ h.quarantined gid)
    (hinvites : ∀ pin req, h.contacts.get key = some pin → pin.request = some req →
      gid ∉ req.invites.map (·.groupId)) : e ∈ (h.declineRequest key block).2.quarantined gid := by
  unfold History.declineRequest
  cases hc : h.contacts.get key with
  | none => exact he
  | some pin =>
    dsimp only
    cases hr : pin.request with
    | none => exact he
    | some req =>
      have hnot : gid ∉ (req.invites.map (·.groupId)).filter fun j => !h.hasGroup j := fun hin =>
        hinvites pin req hc hr (List.mem_of_mem_filter hin)
      unfold History.quarantined at he ⊢
      dsimp only [History.deleteConversation]
      rw [Table.get_removeAll, if_neg hnot]
      exact he

theorem sheds_reap (h : History) : Sheds now h (h.reapWithChats now).2 := by
  have hthreads : Sheds now h { h with
      conversations := h.conversations.mapValues
        fun c => { c with messages := c.messages.filter fun m => !m.expired now }
      groups := h.groups.mapValues fun g => { g with messages := g.messages.filter fun m => !m.expired now } } := by
    refine Sheds.of_held rfl fun j hj => ?_
    unfold History.hasGroup at hj ⊢
    rw [Table.get_mapValues, Option.isSome_map]
    exact hj
  exact hthreads.trans (sheds_prune _)

theorem onlyContacts_screenCallOffer (h : History) (senderKey claimed : String) (now : ℕ) :
    OnlyContacts h (h.screenCallOffer senderKey claimed now).2 := by
  unfold History.screenCallOffer
  dsimp only
  split
  · rfl
  split
  · exact OnlyContacts.updateContactByKey h _ _
  · split <;> rfl

theorem onlyContacts_autoPinContact (h : History) (username key : String) :
    OnlyContacts h (h.autoPinContact username key) := by
  unfold History.autoPinContact
  split
  · rfl
  split <;> rfl

theorem onlyContacts_requestNeedsNotify (h : History) (convo : String) :
    OnlyContacts h (h.requestNeedsNotify convo).2 := by
  unfold History.requestNeedsNotify
  split
  · rfl
  · exact OnlyContacts.updateContactByKey h _ _

/-- **An event waits through every step that leaves its group unknown.** -/
theorem step_waits {op : ℕ × HistoryOp} (he : e ∈ h.quarantined gid) (hw : Waits gid e h op)
    (hunknown : (h.step C op.1 op.2).hasGroup gid = false)
    (hfresh : e.fresh op.1 History.heldGroupContentUnknownTtlSecs = true) :
    e ∈ (h.step C op.1 op.2).quarantined gid := by
  obtain ⟨now, op⟩ := op
  obtain ⟨hbefore, hop⟩ := hw
  have hsheds : ∀ {h'}, Sheds now h h' → h'.hasGroup gid = false → e ∈ h'.quarantined gid :=
    fun hs hgid =>
    hs.waits gid e hgid he hfresh
  have hheld : ∀ {h' : History}, h'.heldGroupContent = h.heldGroupContent →
      e ∈ h'.quarantined gid := by
    intro h' hheld
    rw [quarantined_of_held hheld]
    exact he
  have hcontacts : ∀ {h' : History}, OnlyContacts h h' → e ∈ h'.quarantined gid := by
    intro h' hf
    apply hheld
    rw [hf]
  cases op with
  | apply event =>
    rcases hc : event.groupContent with _ | ⟨device, j, content⟩
    · exact hsheds (sheds_apply hc) hunknown
    · have happly := apply_content C h now hc
      unfold History.step
      dsimp only
      rw [happly]
      by_cases hmember : (h.groupMemberLabel j (h.attributeDevice device)).isNone = true
      · rw [if_pos hmember]
        exact hold_waits hbefore he hfresh (hop device j content hc hmember)
      · rw [if_neg hmember]
        exact hheld rfl
  | adoptGroupEpoch epoch => exact hsheds (sheds_adopt h epoch) hunknown
  | acceptRequest key => exact hsheds (sheds_acceptRequest h key) hunknown
  | acceptRequestForKey convo => exact hsheds (sheds_acceptRequestForKey h convo) hunknown
  | setRequestPrefs enabled allowText =>
    have hprefs : Sheds now h { h with openMessaging := !enabled, requestTextAllowed := allowText } :=
      Sheds.of_groups rfl rfl
    refine hsheds ?_ hunknown
    unfold History.step History.setRequestPrefs
    dsimp only
    split
    · exact hprefs
    · exact hprefs.trans (sheds_acceptAll _ _)
  | reap => exact hsheds (sheds_reap h) hunknown
  | declineRequest key block => exact declineRequest_waits he hop
  | deleteGroup j =>
    unfold History.quarantined at he ⊢
    unfold History.step History.deleteGroup
    dsimp only
    rw [Table.get_remove_ne _ (Ne.symm hop)]
    exact he
  | screenInbound convo claimed => exact hcontacts (OnlyContacts.screenInbound h convo claimed now)
  | screenKnock convo claimed => exact hcontacts (OnlyContacts.screenKnock h convo claimed now)
  | renameContact key newUsername => exact hcontacts (OnlyContacts.renameContact h key newUsername)
  | setContactAvatar | markSessionReset => exact hcontacts (OnlyContacts.updateContactByKey h _ _)
  | screenCallOffer senderKey claimed =>
    exact hcontacts (onlyContacts_screenCallOffer h senderKey claimed now)
  | autoPinContact username key => exact hcontacts (onlyContacts_autoPinContact h username key)
  | requestNeedsNotify convo => exact hcontacts (onlyContacts_requestNeedsNotify h convo)
  | setGroupName gid' name =>
    apply hheld
    unfold History.step History.setGroupName
    dsimp only
    split <;> rfl
  | renameGroup gid' name =>
    apply hheld
    unfold History.step History.renameGroup
    dsimp only
    split <;> rfl
  | clearPinnedRoster username => exact hheld (OnlyPins.clearPinnedRoster h username).held_eq
  | pinRoster username bindingSeq seq primaryKey devices =>
    exact hheld (OnlyPins.pinRoster h username bindingSeq seq primaryKey devices).held_eq
  | applyRosterUpdate username update =>
    exact hheld (OnlyPins.applyRosterUpdate h username update).held_eq
  | outboxPush envelopes dueAt =>
    apply hheld
    unfold History.step History.outboxPush
    rfl
  | callOutboxPush envelopes =>
    apply hheld
    unfold History.step History.callOutboxPush
    rfl
  | _ => exact hheld rfl

/-- **And through a run of them.** -/
theorem run_waits : ∀ (ops : List (ℕ × HistoryOp)) {h : History}, e ∈ h.quarantined gid →
    Trace.Along (fun h op => History.step C h op.1 op.2) (Waits gid e) h ops →
    (∀ op ∈ ops, e.fresh op.1 History.heldGroupContentUnknownTtlSecs = true) →
    (h.run C ops).hasGroup gid = false →
    e ∈ (h.run C ops).quarantined gid
  | [], _, he, _, _, _ => he
  | op :: ops, h, he, hw, hfresh, hunknown => by
    have hnext : (h.step C op.1 op.2).hasGroup gid = false := by
      cases ops with
      | nil => exact hunknown
      | cons op' ops => exact hw.2.1.1
    have hstep := step_waits he hw.1 hnext (hfresh op (by simp))
    exact run_waits ops hstep hw.2 (fun op' hop' => hfresh op' (by simp [hop'])) hunknown

theorem thread_replay (h : History) (gid : String) (now : ℕ) :
    (h.replayHeldGroupContent gid now).thread (.group gid) =
    (h.thread (.group gid)).map (renderAll now (h.groupTimer gid) (h.rendered gid now)) := by
  rw [replay_eq]
  unfold History.updateThread History.updateGroup
  rw [thread_group, thread_group]
  dsimp only
  rw [Table.get_modify, if_pos rfl]
  cases h.groups.get gid <;> rfl

/-- What an epoch makes of a group that was not known: what it renders, in an empty thread. -/
theorem thread_created {h' : History} {epoch : GroupEpoch} (hi : h.installed C epoch = some h')
    (hnew : h.hasGroup epoch.groupId = false) :
    (h.adoptGroupEpoch C now epoch).2.thread (.group epoch.groupId) =
      some (renderAll now (h'.groupTimer epoch.groupId) (h'.rendered epoch.groupId now) []) := by
  have hempty : h'.thread (.group epoch.groupId) = some [] := by
    have hnone : h.thread (.group epoch.groupId) = none := by
      unfold History.hasGroup at hnew
      rw [thread_group, Option.isSome_eq_false_iff.mp hnew |> Option.isNone_iff_eq_none.mp]
      rfl
    have hedited := congrFun (edited_installed hi) (.group epoch.groupId)
    rw [Trace.run_cons, Trace.run_nil, editStep, Function.update_self, hnone] at hedited
    exact hedited
  rcases adopt_installed h now epoch (C := C) with ⟨hnone, -⟩ | ⟨h₂, hi₂, heq⟩
  · rw [hi] at hnone
    cases hnone
  · obtain rfl := Option.some.inj (hi.symm.trans hi₂)
    rw [heq, thread_replay, hempty]
    rfl

end waits

/-- **An event that waits for its group is there when an epoch makes the group and
lists the sender, and is written down exactly if it is not older than the time to live
of a known group.** -/
theorem first_messages_iff (C : Crypto) {h : History} {gid : String} {e : HeldGroupEvent}
    (he : e ∈ h.quarantined gid) (ops : List (ℕ × HistoryOp))
    (hwaits : Trace.Along (fun h op => History.step C h op.1 op.2) (Waits gid e) h ops)
    {op : ℕ × HistoryOp}
    (htimes : ∀ op' ∈ ops ++ [op], op'.1 ≤ e.receivedAt + History.heldGroupContentUnknownTtlSecs)
    {h' h'' : History} {epoch : GroupEpoch} (ha : Adopts C (h.run C ops) op h' epoch)
    (hgid : epoch.groupId = gid) (hnew : h'.hasGroup gid = false)
    (hi : h'.installed C epoch = some h'') (hlists : epoch.isMember e.sender = true) :
    e ∈ h'.quarantined gid ∧
      (h'.adoptGroupEpoch C op.1 epoch).2.thread (.group gid) =
        some (renderAll op.1 (h''.groupTimer gid) (h''.rendered gid op.1) []) ∧
      (e ∈ h''.rendered gid op.1 ↔ op.1 ≤ e.receivedAt + History.heldGroupContentTtlSecs) := by
  subst hgid
  have hfresh : ∀ op' ∈ ops ++ [op], e.fresh op'.1 History.heldGroupContentUnknownTtlSecs = true := by
    intro op' hop'
    have htime := htimes op' hop'
    unfold HeldGroupEvent.fresh
    rw [decide_eq_true_eq]
    omega
  have hsheds := sheds_adopts ha
  have hunknown : (h.run C ops).hasGroup epoch.groupId = false := by
    by_contra hknown
    rw [hsheds.known _ (by simpa using hknown)] at hnew
    cases hnew
  have hrun := run_waits ops he hwaits (fun op' hop' => hfresh op' (by simp [hop'])) hunknown
  have hheld : e ∈ h'.quarantined epoch.groupId := hsheds.waits _ e hnew hrun (hfresh op (by simp))
  have hinstalled : e ∈ h''.quarantined epoch.groupId := by
    rw [quarantined_of_held (installed_group hi).2]
    exact hheld
  refine ⟨hheld, thread_created hi hnew, ?_⟩
  rw [mem_rendered_installed hi]
  have htime : e.fresh op.1 History.heldGroupContentTtlSecs = true ↔
      op.1 ≤ e.receivedAt + History.heldGroupContentTtlSecs := by
    unfold HeldGroupEvent.fresh
    rw [decide_eq_true_eq]
    omega
  rw [htime]
  constructor
  · rintro ⟨-, hyoung, -⟩
    exact hyoung
  · intro hyoung
    exact ⟨hinstalled, hyoung, label_installed hi hlists⟩

/-! ### A request that is accepted late -/

def helloHeld : HeldGroupEvent :=
  ⟨familyCarol.identityKey, 2003, .message "m2" "hi" 2003 none none false⟩

/-- What is in the thread of a group, by sender and text. -/
def History.said (h : History) (gid : String) : Option (List (Option String × String)) :=
  (h.thread (.group gid)).map (·.map fun m => (m.sender, m.body))

/-- The request is accepted a quarter of an hour later: the first message is lost. -/
theorem first_message_lost :
    helloHeld ∈ (History.run (sampleRelay familySigned).crypto {} inviteOps).quarantined "family" ∧
      (History.run (sampleRelay familySigned).crypto {} inviteOps).hasGroup "family" = false ∧
      familyGenesis.isMember helloHeld.sender = true ∧
      2903 ≤ helloHeld.receivedAt + History.heldGroupContentUnknownTtlSecs ∧
      ((History.run (sampleRelay familySigned).crypto {} inviteOps).acceptRequest (sampleRelay familySigned).crypto 2903
        familyBob.identityKey).2.said "family" = some [] ∧
      ((History.run (sampleRelay familySigned).crypto {} inviteOps).acceptRequest (sampleRelay familySigned).crypto 2503
        familyBob.identityKey).2.said "family" = some [(some familyCarol.identityKey, "hi")] := by
  refine ⟨by decide +kernel, by decide +kernel, by decide, by decide, by decide +kernel, by decide +kernel⟩

theorem first_messages_iff_hello :
    ∃ h', (History.run (sampleRelay familySigned).crypto {} inviteOps).installed (sampleRelay familySigned).crypto
      familyGenesis = some h' ∧ helloHeld ∈ h'.rendered "family" 2503 ∧
      helloHeld ∉ h'.rendered "family" 2903 := by
  have hheld : helloHeld ∈ (History.run (sampleRelay familySigned).crypto {} inviteOps).quarantined "family" := by
    decide +kernel
  have hnew : (History.run (sampleRelay familySigned).crypto {} inviteOps).hasGroup "family" =
      false := by decide +kernel
  have hsome : ((History.run (sampleRelay familySigned).crypto {} inviteOps).installed (sampleRelay familySigned).crypto
      familyGenesis).isSome = true := by decide +kernel
  obtain ⟨h', hi⟩ := Option.isSome_iff_exists.mp hsome
  have hsoonTime : ∀ op' ∈ [] ++ [((2503, .adoptGroupEpoch familyGenesis) : ℕ × HistoryOp)],
      op'.1 ≤ helloHeld.receivedAt + History.heldGroupContentUnknownTtlSecs := by decide
  have hsoon := first_messages_iff (sampleRelay familySigned).crypto hheld [] trivial hsoonTime
    (Adopts.epoch 2503 familyGenesis) rfl hnew hi (by decide)
  have hlateTime : ∀ op' ∈ [] ++ [((2903, .adoptGroupEpoch familyGenesis) : ℕ × HistoryOp)],
      op'.1 ≤ helloHeld.receivedAt + History.heldGroupContentUnknownTtlSecs := by decide
  have hlate := first_messages_iff (sampleRelay familySigned).crypto hheld [] trivial hlateTime
    (Adopts.epoch 2903 familyGenesis) rfl hnew hi (by decide)
  exact ⟨h', hi, hsoon.2.2.mpr (by decide), fun hin => absurd (hlate.2.2.mp hin) (by decide)⟩

end Sona
