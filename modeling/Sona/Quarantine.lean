/-
# Content in quarantine

What a sender writes to a group that does not list them yet is held, and is
written down by the adoption that lists them. `History.quarantined` is what is
held for a group. Of what the operations do to it, there are three kinds: one
event is put behind the others, with room made for it (`quarantined_hold`); some
of it goes, too old or written down (`Sheds`); and the user does away with it.

An adoption knows the group before it looks at the quarantine, so it takes the
short time to live for content that was held for a group nobody knew
(`mem_rendered_installed`). The bounds, the order and the senders are as they should be
(`quarantine_holds`).

Key definitions: `History.quarantined`, `Sheds`, `History.arriving`, `Adopts`, `QuarantineOk`,
`Written`. Key theorems: `quarantined_hold`, `sheds_adopt`, `mem_rendered_installed`,
`run_quarantine`, `quarantine_holds`.
-/
import Mathlib.Data.List.Basic
import Mathlib.Data.List.MinMax
import Sona.Lib.Table
import Sona.Lib.Trace
import Sona.Edits

namespace Sona

/-! ### What is held -/

section held

variable (h : History)

/-- The content that is held for a group. -/
def History.quarantined (gid : String) : List HeldGroupEvent := (h.heldGroupContent.get gid).getD []

/-- How old it may get. -/
def History.heldTtl (gid : String) : ℕ :=
  if h.hasGroup gid then heldGroupContentTtlSecs else heldGroupContentUnknownTtlSecs

def HeldGroupEvent.fresh (e : HeldGroupEvent) (now ttl : ℕ) : Bool := now - e.receivedAt ≤ ttl

theorem get_prune (now : ℕ) (gid : String) :
    (h.pruneHeldGroupContent now).heldGroupContent.get gid =
    (h.heldGroupContent.get gid).bind fun held =>
      if (held.filter (·.fresh now (h.heldTtl gid))).isEmpty then none
      else some (held.filter (·.fresh now (h.heldTtl gid))) := by
  unfold History.pruneHeldGroupContent
  dsimp only
  rw [Table.get_filterMap]
  rfl

theorem quarantined_prune (now : ℕ) (gid : String) : (h.pruneHeldGroupContent now).quarantined gid =
    (h.quarantined gid).filter (·.fresh now (h.heldTtl gid)) := by
  unfold History.quarantined
  rw [get_prune]
  cases h.heldGroupContent.get gid with
  | none => rfl
  | some held =>
    simp only [Option.bind_some, Option.getD_some]
    split
    · rename_i hempty
      exact (List.isEmpty_iff.mp hempty).symm
    · rfl

end held

/-! ### Less is held -/

/-- From `h` to `h'` nothing comes into quarantine, and what waits for a group
that is not known yet stays there, unless it is too old. -/
structure Sheds (now : ℕ) (h h' : History) : Prop where
  known : ∀ gid, h.hasGroup gid = true → h'.hasGroup gid = true
  size : h'.heldGroupContent.size ≤ h.heldGroupContent.size
  filled : ∀ gid, h.heldGroupContent.get gid ≠ some [] → h'.heldGroupContent.get gid ≠ some []
  fewer : ∀ gid, (h'.quarantined gid).Sublist (h.quarantined gid)
  waits : ∀ gid e, h'.hasGroup gid = false → e ∈ h.quarantined gid →
    e.fresh now History.heldGroupContentUnknownTtlSecs = true → e ∈ h'.quarantined gid

namespace Sheds

variable {now : ℕ} {h h' h'' : History}

/-- The quarantine is as before. -/
theorem of_held (hheld : h'.heldGroupContent = h.heldGroupContent)
    (hknown : ∀ gid, h.hasGroup gid = true → h'.hasGroup gid = true) : Sheds now h h' := by
  have hsame : h'.quarantined = h.quarantined := by
    unfold History.quarantined
    rw [hheld]
  refine ⟨hknown, ?_, ?_, ?_, ?_⟩
  · rw [hheld]
  · rw [hheld]
    exact fun _ => id
  · rw [hsame]
    exact fun _ => List.Sublist.refl _
  · rw [hsame]
    exact fun _ _ _ he _ => he

theorem of_groups (hheld : h'.heldGroupContent = h.heldGroupContent)
    (hgroups : h'.groups = h.groups) :
    Sheds now h h' := by
  apply of_held hheld
  intro gid hgid
  unfold History.hasGroup at hgid ⊢
  rwa [hgroups]

theorem of_contacts (hf : OnlyContacts h h') : Sheds now h h' := by
  apply of_groups
  · rw [hf]
  · rw [hf]

theorem refl (h : History) : Sheds now h h := of_groups rfl rfl

theorem trans (hs : Sheds now h h') (hs' : Sheds now h' h'') : Sheds now h h'' where
  known gid hgid := hs'.known gid (hs.known gid hgid)
  size := le_trans hs'.size hs.size
  filled gid hgid := hs'.filled gid (hs.filled gid hgid)
  fewer gid := (hs'.fewer gid).trans (hs.fewer gid)
  waits gid e hgid he hfresh := by
    have hbetween : h'.hasGroup gid = false := by
      by_contra hknown
      rw [hs'.known gid (by simpa using hknown)] at hgid
      cases hgid
    exact hs'.waits gid e hgid (hs.waits gid e hbetween he hfresh) hfresh

end Sheds

section sheds

variable {C : Crypto} {now : ℕ} (h : History)

theorem hasGroup_updateGroup (gid : String) (f : GroupRecord → GroupRecord) (j : String) :
    (h.updateGroup gid f).hasGroup j = h.hasGroup j := by
  unfold History.updateGroup History.hasGroup
  rw [Table.get_modify]
  by_cases hj : j = gid
  · subst hj
    rw [if_pos rfl, Option.isSome_map]
  · rw [if_neg hj]

theorem sheds_updateGroup (gid : String) (f : GroupRecord → GroupRecord) :
    Sheds now h (h.updateGroup gid f) := by
  have hheld : (h.updateGroup gid f).heldGroupContent = h.heldGroupContent := rfl
  apply Sheds.of_held hheld
  intro j hj
  rwa [hasGroup_updateGroup]

theorem sheds_prune : Sheds now h (h.pruneHeldGroupContent now) where
  known gid hgid := hgid
  size := Table.size_filterMap_le _ _
  filled gid _ := by
    rw [get_prune]
    cases h.heldGroupContent.get gid with
    | none => simp
    | some held =>
      rw [Option.bind_some]
      split
      · simp
      · rename_i hsome
        intro heq
        apply hsome
        rw [Option.some.inj heq]
        rfl
  fewer gid := by
    rw [quarantined_prune]
    exact List.filter_sublist
  waits gid e hgid he hfresh := by
    have hunknown : h.hasGroup gid = false := hgid
    rw [quarantined_prune, List.mem_filter]
    unfold History.heldTtl
    rw [if_neg (by simp [hunknown])]
    exact ⟨he, hfresh⟩

theorem get_leftHeld (gid j : String) : (h.leftHeld gid now).get j =
    if j = gid then ((h.pruneHeldGroupContent now).heldGroupContent.get gid).bind fun es =>
      if (es.filter fun e => (h.groupMemberLabel gid e.sender).isNone).isEmpty then none
      else some (es.filter fun e => (h.groupMemberLabel gid e.sender).isNone)
    else (h.pruneHeldGroupContent now).heldGroupContent.get j := by
  unfold History.leftHeld
  dsimp only
  cases hget : (h.pruneHeldGroupContent now).heldGroupContent.get gid with
  | none =>
    by_cases hj : j = gid
    · subst hj
      simp [hget]
    · simp [hj]
  | some es =>
    dsimp only [Option.bind_some]
    split
    · rw [Table.get_remove]
    · rw [Table.get_set, Table.get_remove]
      by_cases hj : j = gid
      · simp [hj]
      · simp [hj]

theorem size_leftHeld (gid : String) :
    (h.leftHeld gid now).size ≤ (h.pruneHeldGroupContent now).heldGroupContent.size := by
  unfold History.leftHeld
  dsimp only
  cases hget : (h.pruneHeldGroupContent now).heldGroupContent.get gid with
  | none => exact le_rfl
  | some es =>
    dsimp only
    have hone := Table.size_remove_of_some _ hget
    split
    · omega
    · have hset := Table.size_set_le ((h.pruneHeldGroupContent now).heldGroupContent.remove gid) gid
        (es.filter fun e => (h.groupMemberLabel gid e.sender).isNone)
      omega

/-- A replay for a group that is known sheds what it renders and what is too old. -/
theorem sheds_replay {gid : String} (hgid : h.hasGroup gid = true) :
    Sheds now h (h.replayHeldGroupContent gid now) := by
  refine (sheds_prune h).trans ?_
  have hknown : ∀ j, (h.replayHeldGroupContent gid now).hasGroup j = h.hasGroup j := by
    intro j
    rw [replay_eq]
    exact hasGroup_updateGroup h gid _ j
  have hget : ∀ j, (h.replayHeldGroupContent gid now).heldGroupContent.get j =
      (h.leftHeld gid now).get j := by
    intro j
    rw [replay_eq]
  have hother : ∀ {j}, j ≠ gid → (h.replayHeldGroupContent gid now).quarantined j =
      (h.pruneHeldGroupContent now).quarantined j := by
    intro j hj
    unfold History.quarantined
    rw [hget, get_leftHeld, if_neg hj]
  constructor
  · intro j hj
    rwa [hknown]
  · rw [replay_eq]
    exact size_leftHeld h gid
  · intro j hj
    rw [hget, get_leftHeld]
    by_cases hjg : j = gid
    · rw [if_pos hjg]
      cases (h.pruneHeldGroupContent now).heldGroupContent.get gid with
      | none => simp
      | some es =>
        rw [Option.bind_some]
        split
        · simp
        · rename_i hsome
          intro heq
          apply hsome
          rw [Option.some.inj heq]
          rfl
    · rwa [if_neg hjg]
  · intro j
    by_cases hjg : j = gid
    · subst hjg
      unfold History.quarantined
      rw [hget, get_leftHeld, if_pos rfl]
      cases (h.pruneHeldGroupContent now).heldGroupContent.get j with
      | none => exact List.Sublist.refl _
      | some es =>
        rw [Option.bind_some, Option.getD_some]
        split
        · exact List.nil_sublist _
        · exact List.filter_sublist
    · rw [hother hjg]
  · intro j e hunknown he _
    by_cases hjg : j = gid
    · rw [hknown, hjg, hgid] at hunknown
      cases hunknown
    · rwa [hother hjg]

variable {h} in
/-- What is installed is the group, with nothing done to the quarantine. -/
theorem installed_group {h' : History} {e : GroupEpoch} (hi : h.installed C e = some h') :
    (∃ g creator, h'.groups.get e.groupId = some (GroupRecord.install g e creator)) ∧
      h'.heldGroupContent = h.heldGroupContent := by
  unfold History.installed at hi
  split at hi
  · rename_i pin hpin
    obtain ⟨g, hg, -⟩ := groupAdmin_some hpin
    split at hi
    · cases hi
    · cases hi
      refine ⟨⟨g, pin.creatorAdminKey, ?_⟩, rfl⟩
      unfold History.updateGroup
      rw [Table.get_modify, if_pos rfl, hg]
      rfl
  · split at hi
    · cases hi
    · cases hi
      exact ⟨⟨_, _, Table.get_set_self _ _ _⟩, rfl⟩

variable {h} in
theorem installed_known {h' : History} {e : GroupEpoch} (hi : h.installed C e = some h') :
    h'.hasGroup e.groupId = true ∧ Sheds now h h' := by
  obtain ⟨⟨g, creator, hg⟩, hheld⟩ := installed_group hi
  refine ⟨by simp [History.hasGroup, hg], Sheds.of_held hheld fun j hj => ?_⟩
  unfold History.installed at hi
  split at hi
  · split at hi
    · cases hi
    · cases hi
      rwa [hasGroup_updateGroup]
  · split at hi
    · cases hi
    · cases hi
      unfold History.hasGroup at hj ⊢
      rw [Table.get_set]
      split
      · rfl
      · exact hj

theorem sheds_adopt (e : GroupEpoch) : Sheds now h (h.adoptGroupEpoch C now e).2 := by
  rcases adopt_installed h now e (C := C) with ⟨-, err, heq⟩ | ⟨h', hi, heq⟩
  · rw [heq]
    exact Sheds.refl h
  · rw [heq]
    obtain ⟨hgid, hs⟩ : h'.hasGroup e.groupId = true ∧ Sheds now h h' := installed_known hi
    exact hs.trans (sheds_replay h' hgid)

theorem sheds_adoptCarried (gid name : String) (avatar : Option String) (secs : Option ℕ) :
    Sheds now h (h.adoptCarried gid name avatar secs) := by
  have hname : Sheds now h (h.setGroupName gid name) := by
    unfold History.setGroupName
    split
    · exact Sheds.refl h
    · exact sheds_updateGroup h gid _
  have hboth : ∀ a, Sheds now h ((h.setGroupName gid name).setGroupAvatar gid a).2 := fun a =>
    hname.trans (sheds_updateGroup _ gid _)
  unfold History.adoptCarried
  dsimp only
  cases avatar with
  | none =>
    dsimp only
    split
    · exact hname
    · exact hname.trans (sheds_updateGroup _ gid _)
    · exact hname.trans (sheds_updateGroup _ gid _)
  | some a =>
    dsimp only
    split
    · exact hboth _
    · exact (hboth _).trans (sheds_updateGroup _ gid _)
    · exact (hboth _).trans (sheds_updateGroup _ gid _)

theorem sheds_acceptInvite (inv : HeldInvite) : Sheds now h (h.acceptInvite C now inv) := by
  have hadopt : Sheds now h (h.adoptGroupEpoch C now inv.epoch).2 := sheds_adopt h inv.epoch
  unfold History.acceptInvite
  split
  · rename_i heq
    rw [heq] at hadopt
    exact hadopt
  · rename_i heq
    rw [heq] at hadopt
    exact hadopt.trans (sheds_adoptCarried _ _ _ _ _)

variable {h}

theorem sheds_invites : ∀ (invs : List HeldInvite) (h : History),
    Sheds now h (invs.foldl (fun h inv => h.acceptInvite C now inv) h)
  | [], h => Sheds.refl h
  | inv :: invs, h => (sheds_acceptInvite h inv).trans (sheds_invites invs _)

theorem sheds_acceptRequest (h : History) (key : String) :
    Sheds now h (h.acceptRequest C now key).2 := by
  unfold History.acceptRequest
  rcases hp : h.promote key with _ | ⟨req, peer, h'⟩
  · exact Sheds.refl h
  · exact ((Sheds.of_contacts (OnlyContacts.promote hp)).trans (sheds_invites req.invites h')).trans
      (Sheds.of_groups rfl rfl)

theorem sheds_acceptRequestForKey (h : History) (convo : String) :
    Sheds now h (h.acceptRequestForKey C now convo).2 := by
  unfold History.acceptRequestForKey
  split
  · exact sheds_acceptRequest h _
  · exact Sheds.refl h

theorem sheds_acceptAll : ∀ (keys : List String) (h : History),
    Sheds now h (keys.foldl (fun h key => (h.acceptRequest C now key).2) h)
  | [], h => Sheds.refl h
  | key :: keys, h => (sheds_acceptRequest h key).trans (sheds_acceptAll keys _)

theorem sheds_noteMembership (h : History) (epoch : GroupEpoch) (wasMember : Bool) :
    Sheds now h (h.noteMembership now epoch wasMember) := by
  unfold History.noteMembership
  dsimp only
  split
  · exact (sheds_updateGroup h _ _).trans (sheds_updateGroup _ _ _)
  split
  · exact (sheds_updateGroup h _ _).trans (sheds_updateGroup _ _ _)
  · exact Sheds.refl h

theorem sheds_rosterUpdate (h : History) (epoch : GroupEpoch) (name : String) (secs : Option ℕ)
    (avatar : Option String) :
    Sheds now h (h.rosterUpdate C now epoch name secs avatar) := by
  have hadopt : Sheds now h (h.adoptGroupEpoch C now epoch).2 := sheds_adopt h epoch
  unfold History.rosterUpdate
  dsimp only
  split
  · rename_i heq
    rw [heq] at hadopt
    exact hadopt.trans (sheds_adoptCarried _ _ _ _ _)
  · rename_i heq
    rw [heq] at hadopt
    exact hadopt.trans (sheds_noteMembership _ _ _)
  · rename_i heq
    rw [heq] at hadopt
    exact hadopt

end sheds

/-! ### More is held -/

section hold

variable {h : History}

theorem stalestHeld_mem {held : Table String (List HeldGroupEvent)} {gid : String}
    (hs : History.stalestHeld held = some gid) : ∃ es, held.get gid = some es := by
  unfold History.stalestHeld at hs
  obtain ⟨e, he, rfl⟩ := Option.map_eq_some_iff.mp hs
  exact ⟨e.2, AList.mem_lookup_iff.mpr (List.argmin_mem he)⟩

/-- The cap takes one group out, if there is one too many. -/
theorem size_capHeld {held : Table String (List HeldGroupEvent)}
    (hsize : held.size ≤ History.maxHeldGroupContentGroups + 1) :
    (History.capHeld held).size ≤ History.maxHeldGroupContentGroups := by
  unfold History.capHeld
  by_cases hover : held.size > History.maxHeldGroupContentGroups
  · rw [if_pos hover]
    cases hs : History.stalestHeld held with
    | none =>
      have hnil : held.entries = [] := List.argmin_eq_none.mp (Option.map_eq_none_iff.mp hs)
      have hzero : held.size = 0 := by simp [Table.size, hnil]
      omega
    | some gid =>
      obtain ⟨es, hget⟩ := stalestHeld_mem hs
      have hone := Table.size_remove_of_some _ hget
      dsimp only
      omega
  · rw [if_neg hover]
    omega

theorem get_capHeld (held : Table String (List HeldGroupEvent)) (gid : String) :
    (History.capHeld held).get gid = held.get gid ∨ (History.capHeld held).get gid = none := by
  unfold History.capHeld
  split
  · split
    · rw [Table.get_remove]
      split
      · exact Or.inr rfl
      · exact Or.inl rfl
    · exact Or.inl rfl
  · exact Or.inl rfl

/-- What is held for the group when one event more has come. -/
def History.heldWith (h : History) (gid sender : String) (content : HeldGroupContent) (now : ℕ) :
    List HeldGroupEvent :=
  let held := (h.pruneHeldGroupContent now).quarantined gid
  (if held.length ≥ History.maxHeldGroupEvents then held.drop 1 else held) ++ [⟨sender, now, content⟩]

theorem get_hold (gid sender : String) (content : HeldGroupContent) (now : ℕ) (j : String) :
    (h.holdGroupContent gid sender content now).heldGroupContent.get j = none ∨
      (h.holdGroupContent gid sender content now).heldGroupContent.get j =
        if j = gid then some (h.heldWith gid sender content now)
        else (h.pruneHeldGroupContent now).heldGroupContent.get j := by
  have hset := Table.get_set (h.pruneHeldGroupContent now).heldGroupContent gid j
    (h.heldWith gid sender content now)
  rw [← hset]
  exact (get_capHeld _ j).symm

theorem quarantined_hold (gid sender : String) (content : HeldGroupContent) (now : ℕ) (j : String) :
    ((h.holdGroupContent gid sender content now).quarantined j).Sublist
      (h.quarantined j ++ if j = gid then [⟨sender, now, content⟩] else []) := by
  have hpruned : ∀ j, ((h.pruneHeldGroupContent now).quarantined j).Sublist (h.quarantined j) :=
    (sheds_prune h).fewer
  rcases get_hold (h := h) gid sender content now j with hget | hget
  · unfold History.quarantined
    rw [hget]
    exact List.nil_sublist _
  · by_cases hj : j = gid
    · subst hj
      have hwith : (h.holdGroupContent j sender content now).quarantined j =
          h.heldWith j sender content now := by
        unfold History.quarantined
        rw [hget, if_pos rfl]
        rfl
      rw [hwith, if_pos rfl]
      unfold History.heldWith
      dsimp only
      apply List.Sublist.append _ (List.Sublist.refl _)
      split
      · exact (List.drop_sublist 1 _).trans (hpruned j)
      · exact hpruned j
    · have hsame : (h.holdGroupContent gid sender content now).quarantined j =
          (h.pruneHeldGroupContent now).quarantined j := by
        unfold History.quarantined
        rw [hget, if_neg hj]
      rw [hsame, if_neg hj, List.append_nil]
      exact hpruned j

/-- The bounds: so many groups, none of them empty, and so many events of each. -/
structure QuarantineOk (h : History) : Prop where
  groups : h.heldGroupContent.size ≤ History.maxHeldGroupContentGroups
  filled : ∀ gid, h.heldGroupContent.get gid ≠ some []
  events : ∀ gid, (h.quarantined gid).length ≤ History.maxHeldGroupEvents

theorem QuarantineOk.shed {now : ℕ} {h' : History} (hok : QuarantineOk h) (hs : Sheds now h h') :
    QuarantineOk h' where
  groups := le_trans hs.size hok.groups
  filled gid := hs.filled gid (hok.filled gid)
  events gid := le_trans (hs.fewer gid).length_le (hok.events gid)

theorem QuarantineOk.hold (hok : QuarantineOk h) (gid sender : String) (content : HeldGroupContent)
    (now : ℕ) :
    QuarantineOk (h.holdGroupContent gid sender content now) := by
  have hpruned : QuarantineOk (h.pruneHeldGroupContent now) := hok.shed (sheds_prune h)
  have hroom : (h.heldWith gid sender content now).length ≤ History.maxHeldGroupEvents := by
    have hlength := hpruned.events gid
    unfold History.heldWith
    dsimp only
    split
    · rename_i hfull
      rw [List.length_append, List.length_drop, List.length_singleton]
      have hone : 1 ≤ History.maxHeldGroupEvents := by decide
      omega
    · rw [List.length_append, List.length_singleton]
      omega
  have hfilled : h.heldWith gid sender content now ≠ [] := by
    unfold History.heldWith
    simp
  constructor
  · apply size_capHeld
    exact le_trans (Table.size_set_le _ _ _) (Nat.add_le_add_right hpruned.groups 1)
  · intro j
    rcases get_hold (h := h) gid sender content now j with hget | hget
    · rw [hget]
      simp
    · rw [hget]
      split
      · intro heq
        exact hfilled (Option.some.inj heq)
      · exact hpruned.filled j
  · intro j
    unfold History.quarantined
    rcases get_hold (h := h) gid sender content now j with hget | hget
    · rw [hget]
      exact Nat.zero_le _
    · rw [hget]
      split
      · exact hroom
      · exact hpruned.events j

end hold

/-! ### Content that comes in -/

/-- The content of a group that an event carries: the device it is from, the
group, and what it is. -/
def InboundEvent.groupContent : InboundEvent → Option (String × String × HeldGroupContent)
  | .groupMessage sender gid msgId body sentAt expireSecs reply forwarded =>
    some (sender, gid, .message msgId body sentAt expireSecs reply forwarded)
  | .groupAttachment sender gid msgId att sentAt expireSecs forwarded =>
    some (sender, gid, .attachment msgId att sentAt expireSecs forwarded)
  | .groupMessageEdited sender gid msgId body => some (sender, gid, .edit msgId body)
  | .groupMessageDeleted sender gid msgId => some (sender, gid, .delete msgId)
  | .groupReaction sender gid targetMsgId emoji add =>
    some (sender, gid, .reaction targetMsgId emoji add)
  | _ => none

/-- In whose name content of the device is written: a reaction of our own has no name. -/
def History.writer (h : History) (device : String) (content : HeldGroupContent) : String :=
  match content with
  | .reaction .. => if h.isOwnDevice device then "" else h.attributeDevice device
  | _ => h.attributeDevice device

theorem ownDevice_account {h : History} {device : String} (hown : h.isOwnDevice device = true) :
    h.selfPrimaryKey = some (h.attributeDevice device) := by
  unfold History.isOwnDevice at hown
  cases hself : h.selfPrimaryKey with
  | none => simp [hself] at hown
  | some pk =>
    rw [hself] at hown
    have howner : h.deviceOwner.get device = some pk := of_decide_eq_true hown
    unfold History.attributeDevice
    rw [howner]
    rfl

theorem ownDevice_label {h : History} {device : String} (hown : h.isOwnDevice device = true)
    (gid : String) :
    h.groupMemberLabel gid (h.attributeDevice device) = some "You" := by
  unfold History.groupMemberLabel
  rw [if_pos (Or.inl (ownDevice_account hown))]

/-- Content goes into quarantine, or into the thread. -/
theorem apply_content (C : Crypto) (h : History) (now : ℕ) {event : InboundEvent}
    {device gid : String} {content : HeldGroupContent}
    (hc : event.groupContent = some (device, gid, content)) :
    h.apply C now event =
      if (h.groupMemberLabel gid (h.attributeDevice device)).isNone then
        h.holdGroupContent gid (h.attributeDevice device) content now
      else h.updateThread gid (renderIn now (h.groupTimer gid) (h.writer device content) · content) := by
  have hforwarded : ∀ (h : History) (f k : List StoredMessage → List StoredMessage) msgId forwarded,
      (∀ msgs, k msgs = if forwarded then setForwardedIn (f msgs) msgId else f msgs) →
        (h.updateThread gid f).markGroupForwarded forwarded gid msgId = h.updateThread gid k := by
    intro h f k msgId forwarded hk
    have hk' : k = fun msgs => if forwarded then setForwardedIn (f msgs) msgId else f msgs :=
      funext hk
    rw [hk']
    unfold History.markGroupForwarded
    cases forwarded with
    | false => rfl
    | true => exact updateThread_updateThread gid f (setForwardedIn · msgId)
  cases event with
  | groupMessage sender gid' msgId body sentAt expireSecs reply forwarded =>
    cases hc
    unfold History.apply History.rosterGated
    dsimp only
    rw [recordGroupMessage_eq, hforwarded _ _ _ msgId forwarded fun msgs => rfl]
    rfl
  | groupAttachment sender gid' msgId attachment sentAt expireSecs forwarded =>
    cases hc
    unfold History.apply History.rosterGated
    dsimp only
    rw [recordGroupAttachment_eq, hforwarded _ _ _ msgId forwarded fun msgs => rfl]
    rfl
  | groupMessageEdited => cases hc; rfl
  | groupMessageDeleted => cases hc; rfl
  | groupReaction sender gid' targetMsgId emoji add =>
    cases hc
    unfold History.apply History.rosterGated History.writer
    dsimp only
    by_cases hown : h.isOwnDevice device = true
    · have hlabel := ownDevice_label hown gid
      rw [if_pos hown, if_pos hown, hlabel, if_neg (by simp)]
      rfl
    · rw [if_neg hown, if_neg hown]
      rfl
  | _ => cases hc

section apply

variable {C : Crypto} {now : ℕ} {h : History}

theorem sheds_screened {convo claimed : String} {f : History → History}
    (hf : ∀ h, Sheds now h (f h)) :
    Sheds now h (h.screened now convo claimed f) := by
  have hscreen : Sheds now h (h.screenInbound convo claimed now).2 :=
    Sheds.of_contacts (OnlyContacts.screenInbound h _ _ _)
  unfold History.screened
  split
  · rename_i heq
    rw [heq] at hscreen
    exact hscreen
  · rename_i heq
    rw [heq] at hscreen
    exact (hscreen.trans (Sheds.of_contacts (OnlyContacts.autoPinNamed _ _ _))).trans (hf _)

theorem sheds_fromOwnDevice {sender : String} {f : History → History} (hf : Sheds now h (f h)) :
    Sheds now h (h.fromOwnDevice sender f) := by
  unfold History.fromOwnDevice
  split
  · exact hf
  · exact Sheds.refl h

theorem sheds_fromMember {gid sender : String} {f : History → History} (hf : Sheds now h (f h)) :
    Sheds now h (h.fromMember gid sender f) := by
  unfold History.fromMember
  split
  · exact hf
  · exact Sheds.refl h

theorem sheds_markForwarded (h : History) (forwarded : Bool) (peer msgId : String) :
    Sheds now h (h.markForwarded forwarded peer msgId) := by
  unfold History.markForwarded
  split
  · exact Sheds.of_groups rfl rfl
  · exact Sheds.refl h

/-- A message is stored in a conversation, and marked if it was forwarded. -/
theorem sheds_stored {h h' : History} (hs : Sheds now h h') (forwarded : Bool)
    (peer msgId : String) :
    Sheds now h (h'.markForwarded forwarded peer msgId) :=
  hs.trans (sheds_markForwarded _ _ _ _)

theorem sheds_groupRename (sender gid name : String) :
    Sheds now h (h.groupRename now sender gid name) := by
  have hrename : Sheds now h (h.renameGroup gid name).2 := by
    unfold History.renameGroup
    split
    · exact Sheds.refl h
    · exact sheds_updateGroup h gid _
  unfold History.groupRename
  split
  · exact Sheds.refl h
  split
  · exact Sheds.refl h
  split
  · rename_i heq
    rw [heq] at hrename
    exact hrename.trans (sheds_updateGroup _ _ _)
  · rename_i heq
    rw [heq] at hrename
    exact hrename

theorem sheds_groupLeave (sender gid : String) : Sheds now h (h.groupLeave now sender gid) := by
  have hremove : Sheds now h (h.removeGroupMember gid sender).2 := sheds_updateGroup h gid _
  unfold History.groupLeave
  split
  · exact Sheds.refl h
  split
  · exact (sheds_updateGroup h gid _).trans (sheds_updateGroup _ gid _)
  split
  · rename_i heq
    rw [heq] at hremove
    exact hremove.trans (sheds_updateGroup _ gid _)
  · rename_i heq
    rw [heq] at hremove
    exact hremove

/-- An event that is no content of a group puts nothing into quarantine. -/
theorem sheds_apply {event : InboundEvent} (hc : event.groupContent = none) :
    Sheds now h (h.apply C now event) := by
  cases event with
  | groupMessage | groupAttachment | groupMessageEdited | groupMessageDeleted | groupReaction => cases hc
  | message | attachment =>
    unfold History.apply
    apply sheds_screened
    intro h
    apply sheds_stored
    exact Sheds.of_groups rfl rfl
  | forwardedIncoming sender fromKey fromUsername msgId body sentAt reply attachment expireSecs =>
    apply sheds_fromOwnDevice
    apply sheds_screened
    intro h
    cases attachment with
    | none => exact Sheds.of_groups rfl rfl
    | some att => exact Sheds.of_groups rfl rfl
  | selfSentText sender peerKey peerUsername =>
    have haccept : Sheds now h (h.acceptRequestForKey C now peerKey).2 :=
      sheds_acceptRequestForKey h peerKey
    have hpin := haccept.trans (Sheds.of_contacts (OnlyContacts.autoPinNamed _ peerUsername peerKey))
    apply sheds_fromOwnDevice
    apply sheds_stored
    exact hpin.trans (Sheds.of_groups rfl rfl)
  | selfSentFile sender peerKey peerUsername =>
    have haccept : Sheds now h (h.acceptRequestForKey C now peerKey).2 :=
      sheds_acceptRequestForKey h peerKey
    have hpin := haccept.trans (Sheds.of_contacts (OnlyContacts.autoPinNamed _ peerUsername peerKey))
    apply sheds_fromOwnDevice
    apply sheds_stored
    exact hpin.trans (Sheds.of_groups rfl rfl)
  | groupRosterUpdate sender epoch name secs avatar =>
    have hscreen : Sheds now h (h.screenRosterUpdate now sender epoch name secs avatar).2 :=
      Sheds.of_contacts (OnlyContacts.screenRosterUpdate h _ _ _ _ _ _)
    unfold History.apply
    dsimp only
    split
    · rename_i heq
      rw [heq] at hscreen
      exact hscreen
    · rename_i heq
      rw [heq] at hscreen
      exact hscreen.trans (sheds_rosterUpdate _ _ _ _ _)
  | groupRenamed => exact sheds_groupRename _ _ _
  | groupMemberLeft => exact sheds_groupLeave _ _
  | groupTimerUpdate | groupAvatarUpdate | groupMessagePinned =>
    apply sheds_fromMember
    exact sheds_updateGroup h _ _
  | knock => exact Sheds.of_contacts (OnlyContacts.screenKnock _ _ _ _)
  | profileUpdate => exact Sheds.of_contacts (OnlyContacts.updateContactByKey _ _ _)
  | renamed =>
    unfold History.apply
    dsimp only
    split
    · exact Sheds.refl h
    · exact Sheds.of_contacts (OnlyContacts.renameContact _ _ _)
  | timerUpdate | messagePinned =>
    unfold History.apply
    dsimp only
    split
    · exact Sheds.refl h
    · exact Sheds.of_groups rfl rfl
  | selfReadSeen | selfTimerUpdate | selfReaction | selfMessagePinned | selfProfileUpdate =>
    apply sheds_fromOwnDevice
    exact Sheds.of_groups rfl rfl
  | messageEdited | messageDeleted | receipt | chatDeleted | reaction => exact Sheds.of_groups rfl rfl
  | other => exact Sheds.refl h

end apply

/-! ### Adoptions of a step -/

/-- The device and the peer of a copy of what the user sent. -/
def InboundEvent.sentTo : InboundEvent → Option (String × String)
  | .selfSentText sender peerKey .. | .selfSentFile sender peerKey .. => some (sender, peerKey)
  | _ => none

/-- The step comes to accept the request of the key, in the state `h'`. -/
inductive Accepts (C : Crypto) (h : History) : ℕ × HistoryOp → History → String → Prop
  | request (now : ℕ) (key : String) : Accepts C h (now, .acceptRequest key) h key
  | forKey {now : ℕ} {convo key : String} (hk : h.pendingKey convo = some key) :
    Accepts C h (now, .acceptRequestForKey convo) h key
  | replied {now : ℕ} {event : InboundEvent} {device peer key : String}
      (hs : event.sentTo = some (device, peer))
    (hown : h.isOwnDevice device = true) (hk : h.pendingKey peer = some key) : Accepts C h (now, .apply event) h key
  | opened {now : ℕ} {allowText : Bool} {pre post : List String} {key : String}
    (hk : History.pendingKeys { h with openMessaging := true, requestTextAllowed := allowText } = pre ++ key :: post) :
    Accepts C h (now, .setRequestPrefs false allowText)
      (pre.foldl (fun h key => (h.acceptRequest C now key).2)
        { h with openMessaging := true, requestTextAllowed := allowText }) key

/-- The step comes to adopt the epoch, in the state `h'`. -/
inductive Adopts (C : Crypto) (h : History) : ℕ × HistoryOp → History → GroupEpoch → Prop
  | epoch (now : ℕ) (e : GroupEpoch) : Adopts C h (now, .adoptGroupEpoch e) h e
  | roster {now : ℕ} {sender name : String} {e : GroupEpoch} {secs : Option ℕ}
      {avatar : Option String} {h' : History}
    (hs : h.screenRosterUpdate now sender e name secs avatar = (false, h')) :
    Adopts C h (now, .apply (.groupRosterUpdate sender e name secs avatar)) h' e
  | invite {op : ℕ × HistoryOp} {h' h'' : History} {key peer : String} {req : PendingRequest}
    {pre post : List HeldInvite} {inv : HeldInvite} (ha : Accepts C h op h' key)
    (hp : h'.promote key = some (req, peer, h'')) (hi : req.invites = pre ++ inv :: post) :
    Adopts C h op (pre.foldl (fun h inv => h.acceptInvite C op.1 inv) h'') inv.epoch

theorem sheds_accepts {C : Crypto} {h h' : History} {op : ℕ × HistoryOp} {key : String}
    (ha : Accepts C h op h' key) :
    Sheds op.1 h h' := by
  cases ha with
  | request | forKey | replied => exact Sheds.refl h
  | @opened now allowText pre post _ hk =>
    have hprefs : Sheds now h { h with openMessaging := true, requestTextAllowed := allowText } :=
      Sheds.of_groups rfl rfl
    exact hprefs.trans (sheds_acceptAll pre _)

theorem sheds_adopts {C : Crypto} {h h' : History} {op : ℕ × HistoryOp} {e : GroupEpoch}
    (ha : Adopts C h op h' e) :
    Sheds op.1 h h' := by
  cases ha with
  | epoch => exact Sheds.refl h
  | @roster now sender name _ secs avatar _ hs =>
    have hscreen := OnlyContacts.screenRosterUpdate h now sender e name secs avatar
    rw [hs] at hscreen
    exact Sheds.of_contacts hscreen
  | @invite _ h₁ h₂ key peer req pre post inv ha hp hi =>
    have hpromote := (sheds_accepts ha).trans (Sheds.of_contacts (OnlyContacts.promote hp))
    exact hpromote.trans (sheds_invites pre h₂)

/-! ### What is written to the threads of groups -/

/-- An edit of the thread of a group is the group's making, a chip, a pin or a
reaction of our own; or it is content, of one who is a member as it comes, or of one
whom an epoch makes a member while the content waits and is not too old. -/
inductive Written (C : Crypto) (h : History) (op : ℕ × HistoryOp) (gid : String) : Edit → Prop
  | made : Written C h op gid .create
  | chip (text : String) (at_ : ℕ) : Written C h op gid (.chip text at_)
  | pin (p : StoredMessage → Bool) (pin : Bool) : Written C h op gid (.change p (.pinned pin))
  | own {device target emoji : String} {add : Bool}
      (hop : op.2 = .apply (.groupReaction device gid target emoji add))
    (hown : h.isOwnDevice device = true) : Written C h op gid (.change (·.msgId = target) (.reaction "" emoji add))
  | direct {event : InboundEvent} {device : String} {content : HeldGroupContent}
      (hop : op.2 = .apply event)
    (hc : event.groupContent = some (device, gid, content))
    (hmember : (h.groupMemberLabel gid (h.attributeDevice device)).isSome = true) :
    Written C h op gid (.content op.1 (h.groupTimer gid) (h.attributeDevice device) content)
  | replayed {h' h'' : History} {epoch : GroupEpoch} {e : HeldGroupEvent}
      (ha : Adopts C h op h' epoch)
    (hgid : epoch.groupId = gid) (hi : h'.installed C epoch = some h'') (he : e ∈ h.quarantined gid)
    (hmember : (h''.groupMemberLabel gid e.sender).isSome = true)
    (hfresh : e.fresh op.1 History.heldGroupContentTtlSecs = true) :
    Written C h op gid (.content op.1 (h''.groupTimer gid) e.sender e.content)

section written

variable {C : Crypto} {h : History} {op : ℕ × HistoryOp}

theorem mem_rendered {gid : String} {now : ℕ} {e : HeldGroupEvent} : e ∈ h.rendered gid now ↔
    e ∈ h.quarantined gid ∧ e.fresh now (h.heldTtl gid) = true ∧
    (h.groupMemberLabel gid e.sender).isSome = true := by
  unfold History.rendered
  rw [List.mem_filter]
  have hpruned := quarantined_prune h now gid
  unfold History.quarantined at hpruned ⊢
  rw [hpruned, List.mem_filter, and_assoc]

/-- An adoption renders what is not older than the time to live of a known group. -/
theorem mem_rendered_installed {h' : History} {epoch : GroupEpoch}
    (hi : h.installed C epoch = some h') {now : ℕ} {e : HeldGroupEvent} :
    e ∈ h'.rendered epoch.groupId now ↔ e ∈ h'.quarantined epoch.groupId ∧
      e.fresh now History.heldGroupContentTtlSecs = true ∧
      (h'.groupMemberLabel epoch.groupId e.sender).isSome = true := by
  have hknown : h'.hasGroup epoch.groupId = true := by
    obtain ⟨⟨g, creator, hg⟩, -⟩ := installed_group hi
    simp [History.hasGroup, hg]
  rw [mem_rendered]
  unfold History.heldTtl
  rw [if_pos hknown]

/-- An epoch vouches for whom it lists. -/
theorem label_installed {h' : History} {epoch : GroupEpoch} (hi : h.installed C epoch = some h')
    {key : String} (hlists : epoch.isMember key = true) :
    (h'.groupMemberLabel epoch.groupId key).isSome = true := by
  obtain ⟨g, creator, hg⟩ := (installed_group hi).1
  unfold History.groupMemberLabel
  split
  · rfl
  · rw [hg, Option.bind_some, Option.isSome_map, List.find?_isSome]
    unfold GroupEpoch.isMember at hlists
    obtain ⟨m, hm, hkey⟩ := List.any_eq_true.mp hlists
    exact ⟨⟨m.username, m.identityKey⟩, List.mem_map.mpr ⟨m, hm, rfl⟩, hkey⟩

theorem written_adopt {h' : History} {epoch : GroupEpoch} (ha : Adopts C h op h' epoch) {c : Chat}
    {e : Edit} (he : (c, e) ∈ h'.adoptEdits C op.1 epoch) {gid : String} (hc : c = .group gid) :
    Written C h op gid e := by
  unfold History.adoptEdits at he
  split at he
  · cases he
  · rename_i h'' hi
    rcases List.mem_cons.mp he with heq | hreplay
    · cases heq
      exact Written.made
    · obtain ⟨held, hheld, heq⟩ := List.mem_map.mp hreplay
      cases heq
      obtain rfl := Chat.group.inj hc
      obtain ⟨hq, hfresh, hmember⟩ := (mem_rendered_installed hi).mp hheld
      have hfewer := ((sheds_adopts ha).trans (installed_known hi).2).fewer epoch.groupId
      exact Written.replayed ha rfl hi (hfewer.subset hq) hmember hfresh

theorem mem_inviteEdits {now : ℕ} {c : Chat × Edit} : ∀ {invs : List HeldInvite} {h : History},
    c ∈ History.inviteEdits C now invs h → ∃ pre inv post, invs = pre ++ inv :: post ∧
      c ∈ (pre.foldl (fun h inv => h.acceptInvite C now inv) h).adoptEdits C now inv.epoch
  | [], _, hc => by cases hc
  | inv :: invs, h, hc => by
    rcases List.mem_append.mp hc with hfirst | hrest
    · exact ⟨[], inv, invs, rfl, hfirst⟩
    · obtain ⟨pre, inv', post, rfl, hin⟩ := mem_inviteEdits hrest
      exact ⟨inv :: pre, inv', post, rfl, hin⟩

theorem written_accept {h' : History} {key : String} (ha : Accepts C h op h' key) {c : Chat}
    {e : Edit} (he : (c, e) ∈ h'.acceptEdits C op.1 key) {gid : String} (hc : c = .group gid) :
    Written C h op gid e := by
  unfold History.acceptEdits at he
  split at he
  · cases he
  · rename_i req peer h'' hp
    rcases List.mem_append.mp he with hinvite | hchip
    · obtain ⟨pre, inv, post, hi, hin⟩ := mem_inviteEdits hinvite
      exact written_adopt (Adopts.invite ha hp hi) hin hc
    · subst hc
      simp [History.chipEdits] at hchip

/-- The edits are of conversations. -/
def PeersOnly (es : List (Chat × Edit)) : Prop := ∀ gid e, (Chat.group gid, e) ∉ es

theorem PeersOnly.single (peer : String) (e : Edit) : PeersOnly [(.peer peer, e)] := by
  intro gid e' he
  simp at he

theorem PeersOnly.ite {c : Bool} {es fs : List (Chat × Edit)} (h : PeersOnly es)
    (hf : PeersOnly fs) :
    PeersOnly (if c then es else fs) := by
  split
  · exact h
  · exact hf

theorem PeersOnly.nil : PeersOnly [] := fun _ _ he => nomatch he

theorem peersOnly_stored (peer : String) (m : StoredMessage) (forwarded : Bool) :
    PeersOnly (storedEdits (.peer peer) m forwarded) := by
  intro gid e he
  unfold storedEdits at he
  split at he <;> simp at he

theorem PeersOnly.screened {now : ℕ} {convo claimed : String} {es : List (Chat × Edit)}
    (hes : PeersOnly es) :
    PeersOnly (h.screenedEdits now convo claimed es) := by
  unfold History.screenedEdits
  split
  · exact PeersOnly.nil
  · exact hes

/-- The content of an event is written for a member. -/
theorem written_gated {now : ℕ} {event : InboundEvent} {device gid : String}
    {content : HeldGroupContent} (hc : event.groupContent = some (device, gid, content))
    {j : String} {e : Edit}
    (he : (Chat.group j, e) ∈ h.gatedEdits now gid (h.attributeDevice device) content) :
    Written C h (now, .apply event) j e := by
  unfold History.gatedEdits at he
  split at he
  · cases he
  · rename_i hmember
    cases List.mem_singleton.mp he
    have hop : ((now, .apply event) : ℕ × HistoryOp).2 = .apply event := rfl
    exact Written.direct hop hc (by simpa [Option.isSome_iff_ne_none] using hmember)

theorem written_sent {now : ℕ} {event : InboundEvent} {device peer : String}
    {es : List (Chat × Edit)} (hs : event.sentTo = some (device, peer)) (hes : PeersOnly es)
    {gid : String} {e : Edit}
    (he : (Chat.group gid, e) ∈ (if h.isOwnDevice device then h.acceptForKeyEdits C now peer ++ es else [])) :
    Written C h (now, .apply event) gid e := by
  split at he
  · rename_i hown
    rcases List.mem_append.mp he with haccept | hstored
    · unfold History.acceptForKeyEdits at haccept
      split at haccept
      · rename_i key hk
        exact written_accept (Accepts.replied hs hown hk) haccept rfl
      · cases haccept
    · exact absurd hstored (hes gid e)
  · cases he

theorem written_roster {now : ℕ} {sender name : String} {epoch : GroupEpoch} {secs : Option ℕ}
    {avatar : Option String} {gid : String} {e : Edit}
    (he : (Chat.group gid, e) ∈ h.applyEdits C now (.groupRosterUpdate sender epoch name secs avatar)) :
    Written C h (now, .apply (.groupRosterUpdate sender epoch name secs avatar)) gid e := by
  unfold History.applyEdits at he
  dsimp only at he
  split at he
  · cases he
  · rename_i h' hs
    rcases List.mem_append.mp he with hadopt | hmembership
    · exact written_adopt (Adopts.roster hs) hadopt rfl
    · split at hmembership
      · unfold History.membershipEdits at hmembership
        dsimp only at hmembership
        split at hmembership
        · cases List.mem_singleton.mp hmembership
          exact Written.chip _ _
        split at hmembership
        · cases List.mem_singleton.mp hmembership
          exact Written.chip _ _
        · cases hmembership
      · cases hmembership

theorem written_apply {now : ℕ} {event : InboundEvent} {gid : String} {e : Edit}
    (he : (Chat.group gid, e) ∈ h.applyEdits C now event) :
    Written C h (now, .apply event) gid e := by
  have hpeers : ∀ {es : List (Chat × Edit)}, PeersOnly es → (Chat.group gid, e) ∈ es →
      Written C h (now, .apply event) gid e := fun hes hin => absurd hin (hes gid e)
  cases event with
  | groupMessage => exact written_gated rfl he
  | groupAttachment => exact written_gated rfl he
  | groupMessageEdited => exact written_gated rfl he
  | groupMessageDeleted => exact written_gated rfl he
  | groupReaction sender gid' target emoji add =>
    unfold History.applyEdits at he
    dsimp only at he
    split at he
    · rename_i hown
      cases List.mem_singleton.mp he
      have hop : ((now, .apply (.groupReaction sender gid target emoji add)) : ℕ × HistoryOp).2 = _ := rfl
      exact Written.own hop hown
    · exact written_gated rfl he
  | groupRosterUpdate => exact written_roster he
  | groupRenamed sender gid' name =>
    unfold History.applyEdits at he
    dsimp only at he
    rcases renameEdits_cases h now (h.attributeDevice sender) gid' name with heq | ⟨text, heq⟩
    · rw [heq] at he
      cases he
    · rw [heq] at he
      cases List.mem_singleton.mp he
      exact Written.chip _ _
  | groupMemberLeft sender gid' =>
    unfold History.applyEdits at he
    dsimp only at he
    rcases leaveEdits_cases h now (h.attributeDevice sender) gid' with heq | ⟨text, heq⟩
    · rw [heq] at he
      cases he
    · rw [heq] at he
      cases List.mem_singleton.mp he
      exact Written.chip _ _
  | groupMessagePinned sender gid' msgId pin =>
    unfold History.applyEdits at he
    dsimp only at he
    split at he
    · cases List.mem_singleton.mp he
      exact Written.pin _ _
    · cases he
  | selfSentText => exact written_sent rfl (peersOnly_stored _ _ _) he
  | selfSentFile => exact written_sent rfl (peersOnly_stored _ _ _) he
  | message => exact hpeers (peersOnly_stored _ _ _).screened he
  | attachment => exact hpeers (peersOnly_stored _ _ _).screened he
  | forwardedIncoming => exact hpeers ((peersOnly_stored _ _ _).screened.ite PeersOnly.nil) he
  | timerUpdate | messagePinned => exact hpeers (PeersOnly.nil.ite (PeersOnly.single _ _)) he
  | selfReadSeen | selfTimerUpdate | selfReaction | selfMessagePinned =>
    exact hpeers ((PeersOnly.single _ _).ite PeersOnly.nil) he
  | messageEdited | messageDeleted | receipt | chatDeleted | reaction =>
    exact hpeers (PeersOnly.single _ _) he
  | knock | groupTimerUpdate | renamed | profileUpdate | groupAvatarUpdate | selfProfileUpdate | other => cases he

end written

/-! ### Runs -/

/-- What comes in, and what the user accepts. -/
def HistoryOp.onQuarantine : HistoryOp → Bool
  | .apply _ | .acceptRequest _ => true
  | _ => false

/-- Their edits. -/
def History.writes (h : History) (C : Crypto) (op : ℕ × HistoryOp) : List (Chat × Edit) :=
  match op.2 with
  | .apply event => h.applyEdits C op.1 event
  | .acceptRequest key => h.acceptEdits C op.1 key
  | _ => []

/-- What an event puts into quarantine for a group. -/
def History.arriving (h : History) (op : ℕ × HistoryOp) (gid : String) : List HeldGroupEvent :=
  match op.2 with
  | .apply event =>
    match event.groupContent with
    | some (device, j, content) =>
      if (h.groupMemberLabel j (h.attributeDevice device)).isNone ∧ gid = j then
        [⟨h.attributeDevice device, op.1, content⟩]
      else []
    | none => []
  | _ => []

/-- And what the events of a run do, in their order. -/
def History.arrivals (C : Crypto) (h : History) :
    List (ℕ × HistoryOp) → String → List HeldGroupEvent
  | [], _ => []
  | op :: ops, gid => h.arriving op gid ++ (h.step C op.1 op.2).arrivals C ops gid

section runs

variable {C : Crypto} {h : History}

theorem apply_quarantine (now : ℕ) (event : InboundEvent) (gid : String) :
    ((h.apply C now event).quarantined gid).Sublist (h.quarantined gid ++ h.arriving (now, .apply event) gid) := by
  unfold History.arriving
  dsimp only
  rcases hc : event.groupContent with _ | ⟨device, j, content⟩
  · rw [List.append_nil]
    exact (sheds_apply hc).fewer gid
  · dsimp only
    rw [apply_content C h now hc]
    by_cases hmember : (h.groupMemberLabel j (h.attributeDevice device)).isNone = true
    · rw [if_pos hmember]
      simpa only [hmember, true_and] using quarantined_hold j (h.attributeDevice device) content now gid
    · rw [if_neg hmember, if_neg fun hboth => hmember hboth.1, List.append_nil]
      have hs : Sheds now h (h.updateThread j (renderIn now (h.groupTimer j) (h.writer device content) · content)) :=
        sheds_updateGroup h j _
      exact hs.fewer gid

theorem apply_quarantineOk (hok : QuarantineOk h) (now : ℕ) (event : InboundEvent) :
    QuarantineOk (h.apply C now event) := by
  rcases hc : event.groupContent with _ | ⟨device, j, content⟩
  · exact hok.shed (sheds_apply hc : Sheds now h _)
  · rw [apply_content C h now hc]
    split
    · exact hok.hold _ _ _ _
    · exact hok.shed (sheds_updateGroup h j _ : Sheds now h _)

theorem step_quarantine {op : ℕ × HistoryOp} (hop : op.2.onQuarantine = true) (gid : String) :
    ((h.step C op.1 op.2).quarantined gid).Sublist (h.quarantined gid ++ h.arriving op gid) := by
  obtain ⟨now, op⟩ := op
  cases op with
  | apply event => exact apply_quarantine now event gid
  | acceptRequest key =>
    have haccept : Sheds now h (h.acceptRequest C now key).2 := sheds_acceptRequest h key
    exact (haccept.fewer gid).trans (List.sublist_append_left _ _)
  | _ => cases hop

theorem step_quarantineOk {op : ℕ × HistoryOp} (hop : op.2.onQuarantine = true)
    (hok : QuarantineOk h) :
    QuarantineOk (h.step C op.1 op.2) := by
  obtain ⟨now, op⟩ := op
  cases op with
  | apply event => exact apply_quarantineOk hok now event
  | acceptRequest key => exact hok.shed (sheds_acceptRequest h key : Sheds now h _)
  | _ => cases hop

/-- **What is held came in, in this order.** -/
theorem run_quarantine :
    ∀ (ops : List (ℕ × HistoryOp)) (h : History), (∀ op ∈ ops, op.2.onQuarantine = true) →
    ∀ gid, ((h.run C ops).quarantined gid).Sublist (h.quarantined gid ++ h.arrivals C ops gid)
  | [], _, _, _ => List.sublist_append_left _ _
  | op :: ops, h, hops, gid => by
    have hstep := step_quarantine (C := C) (h := h) (hops op (by simp)) gid
    have hrest := run_quarantine ops (h.step C op.1 op.2)
      (fun op' hop' => hops op' (by simp [hop'])) gid
    have hboth := hrest.trans (hstep.append (List.Sublist.refl _))
    rwa [List.append_assoc] at hboth

theorem run_quarantineOk (ops : List (ℕ × HistoryOp))
    (hops : ∀ op ∈ ops, op.2.onQuarantine = true) :
    QuarantineOk (History.run C {} ops) := by
  have hempty : QuarantineOk ({} : History) :=
    ⟨by decide, fun _ => by simp, fun _ => by simp [History.quarantined]⟩
  have hon : Trace.Along (fun h op => History.step C h op.1 op.2)
      (fun _ op => op.2.onQuarantine = true) {} ops := by
    apply Trace.along_of_split
    rintro pre op post rfl
    exact hops op (by simp)
  exact hon.inv (fun h op hok hop => step_quarantineOk hop hok) hempty

theorem arriving_times (op : ℕ × HistoryOp) (gid : String) :
    ((h.arriving op gid).map (·.receivedAt)).Sublist [op.1] := by
  unfold History.arriving
  split
  · split
    · split
      · exact List.Sublist.refl _
      · exact List.nil_sublist _
    · exact List.nil_sublist _
  · exact List.nil_sublist _

theorem arrivals_times : ∀ (ops : List (ℕ × HistoryOp)) (h : History) (gid : String),
    ((h.arrivals C ops gid).map (·.receivedAt)).Sublist (ops.map (·.1))
  | [], _, _ => List.Sublist.refl _
  | op :: ops, h, gid => by
    have hrest := arrivals_times ops (h.step C op.1 op.2) gid
    unfold History.arrivals
    rw [List.map_append]
    exact (arriving_times op gid).append hrest

end runs

/-- **The quarantine is within its bounds and in the order of arrival, and what is
written to the thread of a group is a member's, or comes out of quarantine for one
who has become a member, before it is too old.** -/
theorem quarantine_holds (C : Crypto) (ops : List (ℕ × HistoryOp))
    (hops : ∀ op ∈ ops, op.2.onQuarantine = true) (hclock : (ops.map (·.1)).Pairwise (· ≤ ·)) :
    (∀ pre, pre <+: ops → QuarantineOk (History.run C {} pre) ∧ ∀ gid,
      ((History.run C {} pre).quarantined gid).Sublist (History.arrivals C {} pre gid) ∧
        ((History.run C {} pre).quarantined gid).Pairwise (·.receivedAt ≤ ·.receivedAt)) ∧
    ∀ pre op post, ops = pre ++ op :: post →
      Edited (History.run C {} pre) ((History.run C {} pre).writes C op) (History.run C {} (pre ++ [op])) ∧
      (∀ gid e, (Chat.group gid, e) ∈ (History.run C {} pre).writes C op →
        Written C (History.run C {} pre) op gid e) ∧
      ∀ gid, ∀ e ∈ (History.run C {} pre).quarantined gid, e.receivedAt ≤ op.1 := by
  have harrived : ∀ pre, pre <+: ops → ∀ gid,
      ((History.run C {} pre).quarantined gid).Sublist (History.arrivals C {} pre gid) := by
    intro pre hpre gid
    have hrun := run_quarantine (C := C) pre {} (fun op hop => hops op (hpre.subset hop)) gid
    rwa [show History.quarantined {} gid = [] from rfl, List.nil_append] at hrun
  have htimes : ∀ pre, pre <+: ops → ∀ gid,
      (((History.run C {} pre).quarantined gid).map (·.receivedAt)).Sublist (pre.map (·.1)) :=
      fun pre hpre gid =>
    ((harrived pre hpre gid).map _).trans (arrivals_times pre {} gid)
  constructor
  · intro pre hpre
    refine ⟨run_quarantineOk pre fun op hop => hops op (hpre.subset hop),
      fun gid => ⟨harrived pre hpre gid, ?_⟩⟩
    have hsorted : (pre.map (·.1)).Pairwise (· ≤ ·) := hclock.sublist (hpre.sublist.map _)
    exact List.pairwise_map.mp (hsorted.sublist (htimes pre hpre gid))
  · rintro pre op post rfl
    have hpre : pre <+: pre ++ op :: post := List.prefix_append pre _
    have hstep : History.run C {} (pre ++ [op]) = (History.run C {} pre).step C op.1 op.2 :=
      Trace.run_snoc _ _ pre op
    have hop := hops op (by simp)
    obtain ⟨now, op⟩ := op
    refine ⟨?_, ?_, ?_⟩
    · rw [hstep]
      cases op with
      | apply event => exact edited_apply C _ now event
      | acceptRequest key => exact edited_acceptRequest _ now key
      | _ => cases hop
    · intro gid e he
      cases op with
      | apply event => exact written_apply he
      | acceptRequest key => exact written_accept (Accepts.request now key) he rfl
      | _ => cases hop
    · intro gid e he
      have htime : e.receivedAt ∈ pre.map (·.1) :=
        (htimes pre hpre gid).subset (List.mem_map.mpr ⟨e, he, rfl⟩)
      rw [List.map_append, List.map_cons] at hclock
      exact (List.pairwise_append.mp hclock).2.2 _ htime now (by simp)

/-- A stranger writes, founds a group with the user in it, and a member says hello there. -/
def inviteOps : List (ℕ × HistoryOp) :=
  [(2001, .apply (.message familyBob.identityKey "bob" "m1" "hello" 2001 none none false)),
    (2002, .apply (.groupRosterUpdate familyBob.identityKey familyGenesis "Family" none none)),
    (2003, .apply (.groupMessage familyCarol.identityKey "family" "m2" "hi" 2003 none none false))]

def inviteAcceptedOps : List (ℕ × HistoryOp) :=
  inviteOps ++ [(2503, .acceptRequest familyBob.identityKey)]

theorem quarantine_holds_accepted :
    QuarantineOk (History.run (sampleRelay familySigned).crypto {} inviteOps) ∧
      ∀ gid e, (Chat.group gid, e) ∈ (History.run (sampleRelay familySigned).crypto {} inviteOps).writes
          (sampleRelay familySigned).crypto (2503, .acceptRequest familyBob.identityKey) →
        Written (sampleRelay familySigned).crypto (History.run (sampleRelay familySigned).crypto {} inviteOps)
          (2503, .acceptRequest familyBob.identityKey) gid e := by
  obtain ⟨hok, hwritten⟩ := quarantine_holds (sampleRelay familySigned).crypto inviteAcceptedOps
    (by simp [inviteAcceptedOps, inviteOps, HistoryOp.onQuarantine]) (by decide)
  exact ⟨(hok inviteOps (List.prefix_append _ _)).1, (hwritten inviteOps _ [] rfl).2.1⟩

end Sona
