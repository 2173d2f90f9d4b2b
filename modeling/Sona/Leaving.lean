/-
# Leaving a group

Whether the user is out of a group is a flag of their own record of it. They
leave themselves, on any of their devices, or an epoch drops them, and then
they are back when an epoch lists them again.

The handler of a member who left asks for the name of that member, and takes
the name "You" for the user's own account. The name is free text of an epoch: a
member who is called "You" puts everyone else out when they leave, and stays on
the list. And an epoch that is adopted with an accepted request tells the flag
nothing: one who was put out and is listed again is still out. These are the
two ways in which it goes wrong (`Heeded`); without them every step does what
it should (`LeavesItself`), and whoever is out left or was dropped since they
were last added (`leaving_is_own_act`).

Key definitions: `History.isOut`, `Leaves`, `PutOut`, `AddedBack`, `Heeded`, `LeavesItself`,
`OutSince`. Key theorems: `out_step`, `leaves_step`, `leaving_is_own_act`.
-/
import Sona.Lib.Trace
import Sona.Edits
import Sona.Epochs

namespace Sona

variable {C : Crypto} {h h' : History} {now : ℕ} {gid : String}

/-! ### What may put the user out -/

/-- The user is out of the group. -/
def History.isOut (h : History) (gid : String) : Bool := (h.standing gid).any (·.left)

/-- The key is that of the user's account or of one of their devices. -/
def History.Ours (h : History) (key : String) : Prop :=
  h.selfPrimaryKey = some key ∨ h.isOwnDevice key = true

/-- The user leaves the group: on this device, on another one, or on one whose history is merged. -/
def Leaves (h : History) (gid : String) : HistoryOp → Prop
  | .setGroupLeft groupId left => groupId = gid ∧ left = true
  | .apply (.groupMemberLeft sender groupId) => groupId = gid ∧ h.Ours (h.attributeDevice sender)
  | .mergeFrom other => other.isOut gid = true
  | _ => False

namespace Adoption

/-- The roster that it found lists the account. -/
def Listed (a : Adoption) (me : String) : Prop :=
  ∃ r, a.before = some r ∧ (r.members.any fun m => m.identityKey = me) = true

def Drops (a : Adoption) (me : String) : Prop := a.Listed me ∧ a.epoch.isMember me = false

def AddsBack (a : Adoption) (me : String) : Prop :=
  a.before.isSome = true ∧ ¬ a.Listed me ∧ a.epoch.isMember me = true

end Adoption

/-- The operation adopts an epoch of the group that drops the user. -/
def PutOut (C : Crypto) (h : History) (gid : String) (op : ℕ × HistoryOp) : Prop :=
  ∃ a ∈ ofGroup gid (h.stepAdoptions C op.1 op.2), ∃ me, h.selfPrimaryKey = some me ∧ a.Drops me

def AddedBack (C : Crypto) (h : History) (gid : String) (op : ℕ × HistoryOp) : Prop :=
  ∃ a ∈ ofGroup gid (h.stepAdoptions C op.1 op.2), ∃ me, h.selfPrimaryKey = some me ∧ a.AddsBack me

/-- The user left or was dropped in the run, and was not added back since. -/
def OutSince (C : Crypto) (h : History) (gid : String) (ops : List (ℕ × HistoryOp)) : Prop :=
  ∃ pre op post, ops = pre ++ op :: post ∧
    (Leaves (h.run C pre) gid op.2 ∨ PutOut C (h.run C pre) gid op) ∧
    Trace.Along (fun h op => History.step C h op.1 op.2) (fun h op => ¬ AddedBack C h gid op)
      (h.run C (pre ++ [op])) post

/-! ### What a step should do, and when it does -/

/-- Who is out after a step left or was dropped by it. A member who sends that
they left goes off the list, alone; the user's own message takes nobody off. -/
structure LeavesItself (C : Crypto) (h : History) (op : ℕ × HistoryOp) : Prop where
  flag : ∀ gid, h.isOut gid = false → (h.step C op.1 op.2).isOut gid = true → Leaves h gid op.2 ∨
    PutOut C h gid op
  other : ∀ sender gid, op.2 = .apply (.groupMemberLeft sender gid) →
    ¬ h.Ours (h.attributeDevice sender) → ∀ j,
    (h.step C op.1 op.2).roster j = (h.roster j).map fun r =>
      if j = gid then { r with members := r.members.filter (·.identityKey ≠ h.attributeDevice sender) } else r
  own : ∀ sender gid, op.2 = .apply (.groupMemberLeft sender gid) →
    h.Ours (h.attributeDevice sender) →
    (h.step C op.1 op.2).roster = h.roster

/-- No one but the user leaves under the name "You", and an epoch that adds the
user back to a group comes in by itself and advances a pin. -/
structure Heeded (C : Crypto) (h : History) (op : ℕ × HistoryOp) : Prop where
  named : ∀ sender gid r m, op.2 = .apply (.groupMemberLeft sender gid) →
    ¬ h.Ours (h.attributeDevice sender) →
    h.roster gid = some r → r.members.find? (·.identityKey = h.attributeDevice sender) = some m →
    m.username ≠ "You"
  noted : ∀ a ∈ h.stepAdoptions C op.1 op.2, ∀ me, h.selfPrimaryKey = some me → a.AddsBack me →
    h.isOut a.epoch.groupId = true →
    a.pin.isSome = true ∧ ∃ sender epoch name secs avatar, op.2 = .apply (.groupRosterUpdate sender epoch name secs avatar)

/-- No roster lists a key twice. -/
def History.Distinct (h : History) : Prop :=
  ∀ gid r, h.roster gid = some r → (r.members.map (·.identityKey)).Nodup

/-! ### The flag under the operations -/

theorem isOut_of_standing (hs : h'.standing = h.standing) : h'.isOut = h.isOut := by
  unfold History.isOut
  rw [hs]

theorem standing_update (h : History) (gid : String) (f : GroupRecord → GroupRecord) (j : String) :
    (h.updateGroup gid f).standing j =
      if j = gid then (h.groups.get gid).map fun g => (f g).standing else h.standing j := by
  unfold History.standing History.updateGroup
  rw [Table.get_modify]
  by_cases hj : j = gid
  · rw [if_pos hj, if_pos hj, Option.map_map]
    rfl
  · rw [if_neg hj, if_neg hj]

theorem isOut_setGroupLeft (h : History) (gid : String) (left : Bool) (j : String) :
    (h.setGroupLeft gid left).2.isOut j =
      if j = gid then (h.roster gid).isSome && left else h.isOut j := by
  unfold History.isOut
  rw [show (h.setGroupLeft gid left).2.standing j = _ from standing_update h gid _ j]
  by_cases hj : j = gid
  · rw [if_pos hj, if_pos hj]
    unfold History.roster
    cases h.groups.get gid <;> rfl
  · rw [if_neg hj, if_neg hj]

/-- With a notice in the thread. -/
theorem isOut_noticed (h : History) (gid : String) (left : Bool) (text : String) (now : ℕ)
    (j : String) :
    ((h.setGroupLeft gid left).2.recordGroupSystem gid text now).isOut j =
      if j = gid then (h.roster gid).isSome && left else h.isOut j := by
  have hthread : ((h.setGroupLeft gid left).2.recordGroupSystem gid text now).standing =
      (h.setGroupLeft gid left).2.standing := standing_updateThread _ _ _
  rw [isOut_of_standing hthread]
  exact isOut_setGroupLeft h gid left j

/-- A change of a group that is not of its flag. -/
theorem isOut_updateGroup {f : GroupRecord → GroupRecord} (hf : ∀ g, (f g).left = g.left)
    (gid : String) :
    (h.updateGroup gid f).isOut = h.isOut := by
  funext j
  unfold History.isOut
  rw [standing_update]
  by_cases hj : j = gid
  · subst hj
    rw [if_pos rfl]
    unfold History.standing
    cases h.groups.get j with
    | none => rfl
    | some g => exact hf g
  · rw [if_neg hj]

/-- An adoption tells the flag nothing. -/
theorem isOut_adopt (h : History) (now : ℕ) (e : GroupEpoch) :
    (h.adoptGroupEpoch C now e).2.isOut = h.isOut := by
  unfold History.adoptGroupEpoch
  split
  · split
    · rfl
    · refine (isOut_of_standing (standing_replayHeldGroupContent _ _ _)).trans ?_
      apply isOut_updateGroup
      intro g
      rfl
  · split
    · rfl
    · refine (isOut_of_standing (standing_replayHeldGroupContent _ _ _)).trans ?_
      funext j
      unfold History.isOut History.standing
      dsimp only
      rw [Table.get_set]
      by_cases hj : j = e.groupId
      · subst hj
        rw [if_pos rfl]
        cases h.groups.get e.groupId <;> rfl
      · rw [if_neg hj]

theorem isOut_deleteGroup (h : History) (groupId : String)
    (hout : (h.deleteGroup groupId).isOut gid = true) :
    h.isOut gid = true := by
  unfold History.isOut History.standing at hout ⊢
  rw [show (h.deleteGroup groupId).groups.get gid = _ from Table.get_remove h.groups groupId gid] at hout
  by_cases hj : gid = groupId
  · simp [hj] at hout
  · rwa [if_neg hj] at hout

theorem isOut_mergeFrom (h other : History) (hout : (h.mergeFrom other).isOut gid = true) :
    h.isOut gid = true ∨ other.isOut gid = true := by
  unfold History.isOut History.standing at hout ⊢
  rw [show (h.mergeFrom other).groups.get gid = _ from Table.get_orInsertAll h.groups other.groups gid] at hout
  cases hg : h.groups.get gid with
  | none =>
    rw [hg] at hout
    exact Or.inr hout
  | some g =>
    rw [hg] at hout
    exact Or.inl hout

/-! ### What adoptions keep -/

section adopting

variable {I : History → Prop} (hst : ∀ h h' : History, h'.standing = h.standing → I h → I h')
  (hadopt : ∀ (h : History) (now : ℕ) (e : GroupEpoch), I h → I (h.adoptGroupEpoch C now e).2)
include hst hadopt

theorem inv_invites (now : ℕ) : ∀ (invs : List HeldInvite) (h : History), I h →
    I (invs.foldl (fun h inv => h.acceptInvite C now inv) h)
  | [], _, hI => hI
  | inv :: invs, h, hI => by
    have hone : I (h.acceptInvite C now inv) :=
      hst _ _ (standing_acceptInvite h now inv) (hadopt h now inv.epoch hI)
    exact inv_invites now invs _ hone

theorem inv_acceptRequest (now : ℕ) (key : String) (hI : I h) :
    I (h.acceptRequest C now key).2 := by
  unfold History.acceptRequest
  rcases hp : h.promote key with _ | ⟨req, peer, h'⟩
  · exact hI
  · have hstart : I h' := hst h h' (standing_promote hp) hI
    have hloop := inv_invites hst hadopt now req.invites h' hstart
    refine hst _ _ ?_ hloop
    exact standing_of_groups rfl

theorem inv_acceptRequestForKey (now : ℕ) (convo : String) (hI : I h) :
    I (h.acceptRequestForKey C now convo).2 := by
  unfold History.acceptRequestForKey
  cases h.pendingKey convo with
  | none => exact hI
  | some key => exact inv_acceptRequest hst hadopt now key hI

theorem inv_acceptAll (now : ℕ) : ∀ (keys : List String) (h : History), I h →
    I (keys.foldl (fun h key => (h.acceptRequest C now key).2) h)
  | [], _, hI => hI
  | key :: keys, _, hI => inv_acceptAll now keys _ (inv_acceptRequest hst hadopt now key hI)

theorem inv_selfSent {f : History → History} (hf : ∀ h, (f h).standing = h.standing) (now : ℕ)
    (sender peerKey : String) (hI : I h) :
    I (h.fromOwnDevice sender fun h => f (h.acceptRequestForKey C now peerKey).2) := by
  unfold History.fromOwnDevice
  split
  · exact hst _ _ (hf _) (inv_acceptRequestForKey hst hadopt now peerKey hI)
  · exact hI

end adopting

/-- The operations that touch the standings by adoptions alone. -/
def HistoryOp.adopts : HistoryOp → Bool
  | .adoptGroupEpoch .. | .acceptRequest .. | .acceptRequestForKey .. | .setRequestPrefs .. | .apply (.selfSentText ..)
  | .apply (.selfSentFile ..) => true
  | _ => false

/-- What adoptions keep, these operations keep. -/
theorem inv_adopts {I : History → Prop}
    (hst : ∀ h h' : History, h'.standing = h.standing → I h → I h')
    (hadopt : ∀ (h : History) (now : ℕ) (e : GroupEpoch), I h → I (h.adoptGroupEpoch C now e).2)
    (now : ℕ) (op : HistoryOp) (hop : op.adopts = true) (hI : I h) : I (h.step C now op) := by
  cases op with
  | adoptGroupEpoch epoch => exact hadopt h now epoch hI
  | acceptRequest key => exact inv_acceptRequest hst hadopt now key hI
  | acceptRequestForKey convo => exact inv_acceptRequestForKey hst hadopt now convo hI
  | setRequestPrefs enabled allowText =>
    have hstart : I { h with openMessaging := !enabled, requestTextAllowed := allowText } :=
      hst h _ (standing_of_groups rfl) hI
    unfold History.step History.setRequestPrefs
    dsimp only
    cases enabled with
    | true => exact hstart
    | false => exact inv_acceptAll hst hadopt now _ _ hstart
  | apply event =>
    cases event with
    | selfSentText sender peerKey peerUsername msgId body sentAt reply expireSecs forwarded =>
      exact inv_selfSent hst hadopt (fun h => standing_sentText h now peerKey peerUsername msgId body sentAt reply
        expireSecs forwarded) now sender peerKey hI
    | selfSentFile sender peerKey peerUsername msgId attachment expireSecs forwarded =>
      exact inv_selfSent hst hadopt (fun h => standing_sentFile h now peerKey peerUsername msgId attachment
        attachment.ts expireSecs forwarded) now sender peerKey hI
    | _ => cases hop
  | _ => cases hop

theorem isOut_adopts (h : History) (now : ℕ) {op : HistoryOp} (hop : op.adopts = true) :
    (h.step C now op).isOut = h.isOut :=
  inv_adopts (I := fun h' => h'.isOut = h.isOut) (fun _ _ hs heq => (isOut_of_standing hs).trans heq)
    (fun h' now e heq => (isOut_adopt h' now e).trans heq) now op hop rfl

/-! ### The flag after a step -/

/-- A step that adopts nothing for the group adds nobody back. -/
theorem not_addedBack {op : ℕ × HistoryOp}
    (hnone : ofGroup gid (h.stepAdoptions C op.1 op.2) = []) :
    ¬ AddedBack C h gid op := by
  rintro ⟨a, ha, -⟩
  rw [hnone] at ha
  cases ha

/-- Unless an epoch advances a pin by itself, it adds back nobody who is out. -/
theorem not_addedBack_of_heeded {op : ℕ × HistoryOp} (hheed : Heeded C h op)
    (hout : h.isOut gid = true)
    (hop : ∀ sender epoch name secs avatar, op.2 ≠ .apply (.groupRosterUpdate sender epoch name secs avatar)) :
    ¬ AddedBack C h gid op := by
  rintro ⟨a, ha, me, hme, hback⟩
  have hgid : a.epoch.groupId = gid := mem_ofGroup ha
  obtain ⟨-, sender, epoch, name, secs, avatar, heq⟩ :=
    hheed.noted a (List.mem_filter.mp ha).1 me hme hback (hgid ▸ hout)
  exact hop sender epoch name secs avatar heq

theorem selfPrimaryKey_adopt (h : History) (now : ℕ) (e : GroupEpoch) :
    (h.adoptGroupEpoch C now e).2.selfPrimaryKey = h.selfPrimaryKey := by
  obtain ⟨_, _, heq⟩ := adopt_frame h C now e
  rw [heq]

/-- The user is a member, as the adoption sees it. -/
theorem selfIsMember_iff {e : GroupEpoch} {me : String} (hme : h.selfPrimaryKey = some me) :
    h.selfIsMember e.groupId = true ↔ (Adoption.mk (h.roster e.groupId) e).Listed me := by
  unfold History.selfIsMember Adoption.Listed History.roster
  rw [hme]
  cases h.groups.get e.groupId with
  | none => simp
  | some g => simp [GroupRecord.roster]

/-- What is noted about an epoch that advanced: only who was dropped is out now, and
whoever was added back is not. -/
theorem isOut_noteMembership {e : GroupEpoch} {wasMember : Bool}
    (hout : (h.noteMembership now e wasMember).isOut gid = true) :
    (gid ≠ e.groupId ∧ h.isOut gid = true) ∨ gid = e.groupId ∧
      (h.isOut gid = true ∧ (wasMember = false → h.selfPrimaryKey.any e.isMember = false) ∨
        wasMember = true ∧ h.selfPrimaryKey.any e.isMember = false) := by
  unfold History.noteMembership at hout
  dsimp only at hout
  by_cases hgid : gid = e.groupId
  · refine Or.inr ⟨hgid, ?_⟩
    subst hgid
    split at hout
    · rename_i hdrop
      exact Or.inr (by simpa using hdrop)
    split at hout
    · -- added back: the flag is cleared
      rw [isOut_noticed, if_pos rfl] at hout
      simp at hout
    · rename_i hno
      refine Or.inl ⟨hout, ?_⟩
      rintro rfl
      simpa using hno
  · refine Or.inl ⟨hgid, ?_⟩
    split at hout
    · rwa [isOut_noticed, if_neg hgid] at hout
    split at hout
    · rwa [isOut_noticed, if_neg hgid] at hout
    · exact hout

/-- An adoption of a group that was created found no pin. -/
theorem pin_of_created {e : GroupEpoch} (ha : h.adoptGroupEpoch C now e = (.created, h')) :
    (Adoption.mk (h.roster e.groupId) e).pin = none := by
  have hpin : (Adoption.mk (h.roster e.groupId) e).pin = h.groupAdmin e.groupId :=
    (h.groupAdmin_eq e.groupId).symm
  rw [hpin]
  rcases adopt_cases C h now e with ⟨err, heq⟩ | ⟨h₁, heq, -, -⟩
  · rw [ha] at heq
    cases heq
  · rw [ha] at heq
    cases hp : h.groupAdmin e.groupId with
    | none => rfl
    | some p =>
      rw [hp] at heq
      cases heq

/-- Who is out after an epoch that passed the gate was out and is not added back
by a pin that advanced, or is dropped by it. -/
theorem isOut_rosterUpdate {epoch : GroupEpoch} {name : String} {secs : Option ℕ}
    {avatar : Option String}
    (hout : (h.rosterUpdate C now epoch name secs avatar).isOut gid = true) :
    (h.isOut gid = true ∧ ∀ a ∈ ofGroup gid (h.adoptions C now epoch), ∀ me, h.selfPrimaryKey = some me →
      a.AddsBack me → a.pin = none) ∨
    ∃ a ∈ ofGroup gid (h.adoptions C now epoch), ∃ me, h.selfPrimaryKey = some me ∧ a.Drops me := by
  have hadopt := isOut_adopt (C := C) h now epoch
  have hself := selfPrimaryKey_adopt (C := C) h now epoch
  unfold History.rosterUpdate at hout
  unfold History.adoptions
  dsimp only at hout
  rcases ha : h.adoptGroupEpoch C now epoch with ⟨outcome, h'⟩
  rw [ha] at hadopt hself hout
  dsimp only at hadopt hself
  cases outcome with
  | refused err =>
    refine Or.inl ⟨hadopt ▸ hout, ?_⟩
    intro a hmem
    cases hmem
  | created =>
    have hkept : h'.isOut gid = true := by
      rwa [isOut_of_standing (standing_adoptCarried _ _ _ _ _)] at hout
    refine Or.inl ⟨hadopt ▸ hkept, ?_⟩
    intro a hmem me hme hback
    obtain rfl := List.mem_singleton.mp (List.mem_filter.mp hmem).1
    exact pin_of_created ha
  | advanced =>
    rcases isOut_noteMembership hout with ⟨hne, hkept⟩ | ⟨rfl, ⟨hkept, hstay⟩ | ⟨hwas, hgone⟩⟩
    · refine Or.inl ⟨hadopt ▸ hkept, ?_⟩
      intro a hmem
      obtain rfl := List.mem_singleton.mp (List.mem_filter.mp hmem).1
      exact (hne (mem_ofGroup hmem).symm).elim
    · refine Or.inl ⟨hadopt ▸ hkept, ?_⟩
      rintro a hmem me hme ⟨-, hnot, hlists⟩
      obtain rfl := List.mem_singleton.mp (List.mem_filter.mp hmem).1
      rw [← selfIsMember_iff hme, Bool.not_eq_true] at hnot
      have hgone := hstay hnot
      rw [hself, hme] at hgone
      simp [hlists] at hgone
    · right
      cases hme : h.selfPrimaryKey with
      | none =>
        unfold History.selfIsMember at hwas
        rw [hme] at hwas
        cases hwas
      | some me =>
        rw [selfIsMember_iff hme] at hwas
        rw [hself, hme] at hgone
        exact ⟨_, List.mem_filter.mpr ⟨List.mem_singleton.mpr rfl, by simp⟩, me, rfl, hwas,
          by simpa using hgone⟩

/-- What one step has to say of the flag of a group. -/
def FlagStep (C : Crypto) (h : History) (gid : String) (op : ℕ × HistoryOp) : Prop :=
  (h.step C op.1 op.2).isOut gid = true →
    h.isOut gid = true ∧ ¬ AddedBack C h gid op ∨ Leaves h gid op.2 ∨ PutOut C h gid op

theorem flag_groupRosterUpdate {sender : String} {epoch : GroupEpoch} {name : String}
    {secs : Option ℕ} {avatar : Option String}
    (hheed : Heeded C h (now, .apply (.groupRosterUpdate sender epoch name secs avatar))) :
    FlagStep C h gid (now, .apply (.groupRosterUpdate sender epoch name secs avatar)) := by
  intro hout
  rcases hsc : h.screenRosterUpdate now sender epoch name secs avatar with ⟨taken, h'⟩
  have hcontacts : OnlyContacts h h' := by
    rw [show h' = (h.screenRosterUpdate now sender epoch name secs avatar).2 by rw [hsc]]
    exact OnlyContacts.screenRosterUpdate h now sender epoch name secs avatar
  have hself : h'.selfPrimaryKey = h.selfPrimaryKey := by rw [(hcontacts : h' = _)]
  have hgroups : h'.groups = h.groups := by rw [(hcontacts : h' = _)]
  have hflag : h'.isOut = h.isOut := isOut_of_standing (standing_of_groups hgroups)
  cases taken with
  | true =>
    simp only [History.step, History.apply, hsc] at hout
    refine Or.inl ⟨hflag ▸ hout, not_addedBack ?_⟩
    simp only [History.stepAdoptions, History.applyAdoptions, hsc, ofGroup_nil]
  | false =>
    have hlog : h.stepAdoptions C now (.apply (.groupRosterUpdate sender epoch name secs avatar)) =
        h'.adoptions C now epoch := by
      simp only [History.stepAdoptions, History.applyAdoptions, hsc]
    simp only [History.step, History.apply, hsc] at hout
    unfold AddedBack PutOut
    dsimp only
    rw [hlog, ← hself, ← hflag]
    rcases isOut_rosterUpdate hout with ⟨hkept, hfresh⟩ | hdrop
    · refine Or.inl ⟨hkept, ?_⟩
      rintro ⟨a, hmem, me, hme, hback⟩
      have hgid : a.epoch.groupId = gid := mem_ofGroup hmem
      have hlogged :
          a ∈ h.stepAdoptions C now (.apply (.groupRosterUpdate sender epoch name secs avatar)) :=
        hlog ▸ (List.mem_filter.mp hmem).1
      obtain ⟨hpin, -⟩ := hheed.noted a hlogged me (hself ▸ hme) hback (by rw [hgid, ← hflag]; exact hkept)
      rw [hfresh a hmem me hme hback] at hpin
      cases hpin
    · exact Or.inr (Or.inr hdrop)

/-! ### A member who left -/

theorem groupMemberLabel_ours {key : String} (hours : h.Ours key) :
    h.groupMemberLabel gid key = some "You" := by
  unfold History.groupMemberLabel
  exact if_pos hours

theorem groupMemberLabel_other {key : String} (hours : ¬ h.Ours key) : h.groupMemberLabel gid key =
    (h.roster gid).bind fun r => (r.members.find? (·.identityKey = key)).map (·.username) := by
  have hno : ¬ (h.selfPrimaryKey = some key ∨ h.isOwnDevice key = true) := hours
  unfold History.groupMemberLabel History.roster
  rw [if_neg hno]
  cases h.groups.get gid <;> rfl

/-- The user's own message sets the flag. -/
theorem groupLeave_ours {key : String} (hours : h.Ours key) : h.groupLeave now key gid =
    (h.setGroupLeft gid true).2.recordGroupSystem gid "You left the group" now := by
  unfold History.groupLeave
  rw [groupMemberLabel_ours hours]
  exact if_pos rfl

/-- Any other member's takes them off the list, unless they go by the user's name. -/
theorem standing_groupLeave (now : ℕ) {key : String} (hours : ¬ h.Ours key)
    (hname : ∀ r m, h.roster gid = some r → r.members.find? (·.identityKey = key) = some m → m.username ≠ "You") :
    h.groupMemberLabel gid key = none ∧ h.groupLeave now key gid = h ∨
      (h.groupLeave now key gid).standing = (h.removeGroupMember gid key).2.standing := by
  unfold History.groupLeave
  cases hl : h.groupMemberLabel gid key with
  | none => exact Or.inl ⟨rfl, rfl⟩
  | some who =>
    right
    have hwho : who ≠ "You" := by
      rw [groupMemberLabel_other hours] at hl
      obtain ⟨r, hr, hl⟩ := Option.bind_eq_some_iff.mp hl
      obtain ⟨m, hm, rfl⟩ := Option.map_eq_some_iff.mp hl
      exact hname r m hr hm
    dsimp only
    rw [if_neg hwho]
    split
    · rename_i heq
      rw [heq]
      exact standing_updateThread _ _ _
    · rename_i heq
      rw [heq]

/-- A member who is not on the list is not taken off it. -/
theorem without_absent {r : GroupRoster} {key : String}
    (hm : r.members.find? (·.identityKey = key) = none) :
    r.without key = r := by
  unfold GroupRoster.without
  rw [List.eraseP_of_forall_not]
  intro m hmem
  simpa using List.find?_eq_none.mp hm m hmem

theorem roster_groupLeave_other {key : String} (hours : ¬ h.Ours key)
    (hname : ∀ r m, h.roster gid = some r → r.members.find? (·.identityKey = key) = some m → m.username ≠ "You")
    (j : String) : (h.groupLeave now key gid).roster j =
      (h.roster j).map fun r => if j = gid then r.without key else r := by
  rcases standing_groupLeave now hours hname with ⟨hl, heq⟩ | hs
  · rw [heq]
    cases hr : h.roster j with
    | none => rfl
    | some r =>
      by_cases hj : j = gid
      · subst hj
        rw [groupMemberLabel_other hours, hr] at hl
        have hm : r.members.find? (·.identityKey = key) = none := by simpa using hl
        simp [without_absent hm]
      · simp [hj]
  · rw [roster_of_standing hs]
    exact roster_removeGroupMember h gid key j

theorem isOut_removeGroupMember (h : History) (gid key : String) :
    (h.removeGroupMember gid key).2.isOut = h.isOut := by
  apply isOut_updateGroup
  intro g
  rfl

theorem flag_groupMemberLeft {sender groupId : String}
    (hheed : Heeded C h (now, .apply (.groupMemberLeft sender groupId))) :
    FlagStep C h gid (now, .apply (.groupMemberLeft sender groupId)) := by
  intro hout
  have hquiet : ¬ AddedBack C h gid (now, .apply (.groupMemberLeft sender groupId)) :=
    not_addedBack rfl
  change (h.groupLeave now (h.attributeDevice sender) groupId).isOut gid = true at hout
  by_cases hours : h.Ours (h.attributeDevice sender)
  · rw [groupLeave_ours hours, isOut_noticed] at hout
    by_cases hj : gid = groupId
    · exact Or.inr (Or.inl ⟨hj.symm, hours⟩)
    · rw [if_neg hj] at hout
      exact Or.inl ⟨hout, hquiet⟩
  · have hname := hheed.named sender groupId
    rcases standing_groupLeave now hours fun r m => hname r m rfl hours with ⟨-, heq⟩ | hs
    · rw [heq] at hout
      exact Or.inl ⟨hout, hquiet⟩
    · rw [isOut_of_standing hs, isOut_removeGroupMember] at hout
      exact Or.inl ⟨hout, hquiet⟩

/-! ### Every step -/

/-- **One step, and the flag of a group.** -/
theorem out_step (gid : String) {op : ℕ × HistoryOp} (hheed : Heeded C h op) :
    FlagStep C h gid op := by
  obtain ⟨now, op⟩ := op
  by_cases hadopts : op.adopts = true
  · intro hout
    rw [isOut_adopts h now hadopts] at hout
    refine Or.inl ⟨hout, not_addedBack_of_heeded hheed hout ?_⟩
    rintro sender epoch name secs avatar rfl
    cases hadopts
  by_cases hon : op.onStandings = true
  · cases op with
    | apply event =>
      by_cases hev : event.onRosters = true
      · cases event with
        | groupRosterUpdate sender epoch name secs avatar => exact flag_groupRosterUpdate hheed
        | groupMemberLeft sender groupId => exact flag_groupMemberLeft hheed
        | selfSentText | selfSentFile => exact (hadopts rfl).elim
        | _ => cases hev
      · have hs : (h.step C now (.apply event)).standing = h.standing :=
          standing_apply h now (Bool.eq_false_of_not_eq_true hev)
        intro hout
        dsimp only at hout
        rw [isOut_of_standing hs] at hout
        refine Or.inl ⟨hout, not_addedBack ?_⟩
        cases event <;> first | rfl | exact (hev rfl).elim
    | setGroupLeft groupId left =>
      intro hout
      rw [show h.step C now (.setGroupLeft groupId left) = (h.setGroupLeft groupId left).2 from rfl,
        isOut_setGroupLeft] at hout
      by_cases hj : gid = groupId
      · rw [if_pos hj, Bool.and_eq_true] at hout
        exact Or.inr (Or.inl ⟨hj.symm, hout.2⟩)
      · rw [if_neg hj] at hout
        exact Or.inl ⟨hout, not_addedBack rfl⟩
    | removeGroupMember groupId key =>
      intro hout
      rw [show h.step C now (.removeGroupMember groupId key) = (h.removeGroupMember groupId key).2 from rfl,
        isOut_removeGroupMember] at hout
      exact Or.inl ⟨hout, not_addedBack rfl⟩
    | deleteGroup groupId => exact fun hout => Or.inl ⟨isOut_deleteGroup h groupId hout, not_addedBack rfl⟩
    | mergeFrom other =>
      intro hout
      rcases isOut_mergeFrom h other hout with hkept | hother
      · exact Or.inl ⟨hkept, not_addedBack rfl⟩
      · exact Or.inr (Or.inl hother)
    | adoptGroupEpoch | acceptRequest | acceptRequestForKey | setRequestPrefs => exact (hadopts rfl).elim
    | _ => cases hon
  · intro hout
    rw [isOut_of_standing (standing_step h now (Bool.eq_false_of_not_eq_true hon))] at hout
    refine Or.inl ⟨hout, not_addedBack ?_⟩
    cases op <;> first | rfl | exact (hon rfl).elim

/-! ### What holds of every roster -/

/-- What the rosters of adoptions have, and a roster keeps when it loses a member. -/
structure RosterRule (C : Crypto) (P : GroupRoster → Prop) : Prop where
  after : ∀ a : Adoption, a.Valid C → P a.after
  without : ∀ r key, P r → P (r.without key)

/-- Every roster has the property. -/
def History.EveryRoster (h : History) (P : GroupRoster → Prop) : Prop :=
  ∀ gid r, h.roster gid = some r → P r

section rosters

variable {P : GroupRoster → Prop}

theorem every_of_standing (hs : h'.standing = h.standing) (hd : h.EveryRoster P) :
    h'.EveryRoster P := by
  unfold History.EveryRoster
  rw [roster_of_standing hs]
  exact hd

theorem every_adopt (hP : RosterRule C P) (h : History) (now : ℕ) (e : GroupEpoch)
    (hd : h.EveryRoster P) :
    (h.adoptGroupEpoch C now e).2.EveryRoster P := by
  rcases adopt_cases C h now e with ⟨err, heq⟩ | ⟨h', heq, hvalid, hroster⟩
  · rw [heq]
    exact hd
  · rw [heq]
    intro gid r hr
    rw [hroster] at hr
    by_cases hgid : gid = e.groupId
    · rw [if_pos hgid] at hr
      cases hr
      exact hP.after _ hvalid
    · rw [if_neg hgid] at hr
      exact hd gid r hr

theorem every_removeMember (hP : RosterRule C P) {key groupId : String} (hd : h.EveryRoster P)
    (hr : ∀ j, h'.roster j = h.roster j ∨
      h'.roster j = (h.roster j).map fun r => if j = groupId then r.without key else r) :
    h'.EveryRoster P := by
  intro j r' hr'
  rcases hr j with heq | heq
  · exact hd j r' (heq ▸ hr')
  · rw [heq] at hr'
    obtain ⟨r, hsome, rfl⟩ := Option.map_eq_some_iff.mp hr'
    split
    · exact hP.without r key (hd j r hsome)
    · exact hd j r hsome

/-- A merge takes over the rosters of the other history. -/
theorem every_mergeFrom {other : History} (hd : h.EveryRoster P) (ho : other.EveryRoster P) :
    (h.mergeFrom other).EveryRoster P := by
  intro gid r hr
  unfold History.roster at hr
  rw [show (h.mergeFrom other).groups.get gid = _ from Table.get_orInsertAll h.groups other.groups gid] at hr
  cases hg : h.groups.get gid with
  | some g =>
    rw [hg] at hr
    exact hd gid r (by rw [History.roster, hg]; exact hr)
  | none =>
    rw [hg] at hr
    exact ho gid r hr

theorem every_apply (hP : RosterRule C P) (now : ℕ) (event : InboundEvent) (hd : h.EveryRoster P) :
    (h.apply C now event).EveryRoster P := by
  have hadopt := every_adopt hP
  by_cases hev : event.onRosters = true
  · cases event with
    | groupRosterUpdate sender epoch name secs avatar =>
      have hscreen := standing_screenRosterUpdate h now sender epoch name secs avatar
      rcases hsc : h.screenRosterUpdate now sender epoch name secs avatar with ⟨taken, h'⟩
      rw [hsc] at hscreen
      have hd' : h'.EveryRoster P := every_of_standing hscreen hd
      simp only [History.apply, hsc]
      cases taken with
      | true => exact hd'
      | false =>
        dsimp only
        unfold History.EveryRoster
        rw [roster_rosterUpdate]
        exact hadopt h' now epoch hd'
    | groupMemberLeft sender groupId =>
      exact every_removeMember hP hd fun j => roster_groupLeave h now
        (h.attributeDevice sender) groupId j
    | selfSentText sender peerKey peerUsername msgId body sentAt reply expireSecs forwarded =>
      exact inv_adopts (I := (·.EveryRoster P)) (fun _ _ => every_of_standing) hadopt now
        (.apply (.selfSentText sender peerKey peerUsername msgId body sentAt reply expireSecs forwarded)) rfl hd
    | selfSentFile sender peerKey peerUsername msgId attachment expireSecs forwarded =>
      exact inv_adopts (I := (·.EveryRoster P)) (fun _ _ => every_of_standing) hadopt now
        (.apply (.selfSentFile sender peerKey peerUsername msgId attachment expireSecs forwarded)) rfl hd
    | _ => cases hev
  · exact every_of_standing (standing_apply h now (Bool.eq_false_of_not_eq_true hev)) hd

theorem every_step (hP : RosterRule C P) (op : ℕ × HistoryOp)
    (hm : ∀ other, op.2 = .mergeFrom other → other.EveryRoster P) (hd : h.EveryRoster P) :
    (h.step C op.1 op.2).EveryRoster P := by
  obtain ⟨now, op⟩ := op
  by_cases hadopts : op.adopts = true
  · exact inv_adopts (I := (·.EveryRoster P)) (fun _ _ => every_of_standing)
      (every_adopt hP) now op hadopts hd
  by_cases hon : op.onStandings = true
  · cases op with
    | apply event => exact every_apply hP now event hd
    | setGroupLeft groupId left =>
      unfold History.EveryRoster
      rw [show (h.step C now (.setGroupLeft groupId left)).roster = h.roster from roster_setGroupLeft h groupId left]
      exact hd
    | removeGroupMember groupId key =>
      exact every_removeMember hP hd fun j => Or.inr (roster_removeGroupMember h groupId key j)
    | deleteGroup groupId =>
      intro gid r hr
      refine hd gid r ?_
      unfold History.roster at hr ⊢
      rw [show (h.step C now (.deleteGroup groupId)).groups.get gid = _ from Table.get_remove h.groups groupId gid] at hr
      by_cases hj : gid = groupId
      · simp [hj] at hr
      · rwa [if_neg hj] at hr
    | mergeFrom other => exact every_mergeFrom hd (hm other rfl)
    | adoptGroupEpoch | acceptRequest | acceptRequestForKey | setRequestPrefs => exact (hadopts rfl).elim
    | _ => cases hon
  · exact every_of_standing (standing_step h now (Bool.eq_false_of_not_eq_true hon)) hd

end rosters

/-! ### The lists of members -/

theorem Adoption.Valid.wellFormed {a : Adoption} (hv : a.Valid C) : a.epoch.WellFormed := by
  apply GroupEpoch.validateStructure_ok
  unfold Adoption.Valid at hv
  split at hv
  · exact (GroupEpoch.verifySuccession_ok.mp hv).1
  · exact (GroupEpoch.validateBaseline_ok.mp hv).1

/-- An epoch that passed lists nobody twice. -/
theorem distinct_rule (C : Crypto) :
    RosterRule C fun r => (r.members.map (·.identityKey)).Nodup where
  after a hvalid := by
    have hkeys : (membersFromEpoch a.epoch).map (·.identityKey) =
        a.epoch.members.map (·.identityKey) := by
      simp [membersFromEpoch]
    exact hkeys ▸ hvalid.wellFormed.distinct
  without r key hd := hd.sublist (List.eraseP_sublist.map _)

/-- A merge takes over the lists of the other history. -/
def MergesDistinct (op : HistoryOp) : Prop := ∀ other, op = .mergeFrom other → other.Distinct

theorem distinct_step {op : ℕ × HistoryOp} (hm : MergesDistinct op.2) (hd : h.Distinct) :
    (h.step C op.1 op.2).Distinct := every_step (distinct_rule C) op hm hd

/-! ### Leaving -/

/-- The first with a key is the only one. -/
theorem eraseP_key {key : String} : ∀ {ms : List GroupMember}, (ms.map (·.identityKey)).Nodup →
    ms.eraseP (·.identityKey = key) = ms.filter (·.identityKey ≠ key)
  | [], _ => rfl
  | m :: ms, hn => by
    obtain ⟨hfresh, hn⟩ := List.nodup_cons.mp (by simpa using hn : (m.identityKey :: ms.map (·.identityKey)).Nodup)
    by_cases hk : m.identityKey = key
    · have hrest : ∀ m' ∈ ms, m'.identityKey ≠ key := by
        intro m' hm' heq
        exact hfresh (List.mem_map.mpr ⟨m', hm', heq.trans hk.symm⟩)
      simpa [hk] using (List.filter_eq_self.mpr (by simpa using hrest)).symm
    · simp [hk, eraseP_key hn]

theorem leaves_step {op : ℕ × HistoryOp} (hd : h.Distinct) (hheed : Heeded C h op) :
    LeavesItself C h op where
  flag := by
    intro gid hbefore hafter
    rcases out_step gid hheed hafter with ⟨hout, -⟩ | hwhy
    · rw [hout] at hbefore
      cases hbefore
    · exact hwhy
  other := by
    intro sender gid hop hours j
    have hname := fun r m => hheed.named sender gid r m hop hours
    have hstep : h.step C op.1 op.2 = h.groupLeave op.1 (h.attributeDevice sender) gid := by
      rw [hop]
      rfl
    rw [hstep, roster_groupLeave_other hours hname]
    cases hr : h.roster j with
    | none => rfl
    | some r =>
      by_cases hj : j = gid
      · simp [hj, GroupRoster.without, eraseP_key (hd j r hr)]
      · simp [hj]
  own := by
    intro sender gid hop hours
    have hstep : h.step C op.1 op.2 = h.groupLeave op.1 (h.attributeDevice sender) gid := by
      rw [hop]
      rfl
    have hthread :
        ((h.setGroupLeft gid true).2.recordGroupSystem gid "You left the group" op.1).standing =
      (h.setGroupLeft gid true).2.standing := standing_updateThread _ _ _
    rw [hstep, groupLeave_ours hours, roster_of_standing hthread]
    exact roster_setGroupLeft h gid true

/-- Every step of the run meets the condition in the state it finds. -/
def HeededRun (C : Crypto) (ops : List (ℕ × HistoryOp)) : Prop :=
  Trace.Along (fun h op => History.step C h op.1 op.2) (Heeded C) {} ops

/-- **Leaving is one's own act.** In every run whose steps meet the condition,
each step does what it should, and whoever is out of a group at the end left it
or was dropped, and was not added back since. -/
theorem leaving_is_own_act (C : Crypto) (ops : List (ℕ × HistoryOp))
    (hmerges : ∀ op ∈ ops, MergesDistinct op.2) (hheed : HeededRun C ops) :
    Trace.Along (fun h op => History.step C h op.1 op.2) (LeavesItself C) {} ops ∧
      ∀ gid, (History.run C {} ops).isOut gid = true → OutSince C {} gid ops := by
  have hboth : Trace.Along (fun h op => History.step C h op.1 op.2)
      (fun h op => MergesDistinct op.2 ∧ Heeded C h op)
      {} ops := by
    refine (Trace.along_and _ _ _ _ _).mpr ⟨?_, hheed⟩
    apply Trace.along_of_split
    rintro pre op post rfl
    exact hmerges op (by simp)
  refine ⟨?_, ?_⟩
  · have hstart : History.Distinct {} := by
      intro gid r hr
      cases hr
    exact Trace.Along.imp (I := History.Distinct) (fun h op hd hc => distinct_step hc.1 hd)
      (fun h op hd hc => leaves_step hd hc.2) hstart hboth
  · intro gid
    have hrun : Trace.Along (fun h op => History.step C h op.1 op.2) (Heeded C) {} ops := hheed
    apply Trace.Along.inv_history (C := Heeded C)
      (I := fun es h => h.isOut gid = true → OutSince C {} gid es)
      ?_ ?_ hrun
    · intro hout
      cases hout
    · intro es op ih hc hout
      rcases out_step gid hc hout with ⟨hbefore, hquiet⟩ | hwhy
      · obtain ⟨pre, op', post, rfl, hdep, hsince⟩ := ih hbefore
        refine ⟨pre, op', post ++ [op], by simp, hdep, ?_⟩
        refine (Trace.along_append _ _ _ _ _).mpr ⟨hsince, ?_, trivial⟩
        have hstate : Trace.run (fun h op => History.step C h op.1 op.2)
            (History.run C {} (pre ++ [op'])) post =
            Trace.run (fun h op => History.step C h op.1 op.2) {} (pre ++ op' :: post) := by
          unfold History.run
          rw [← Trace.run_append]
          simp
        rw [hstate]
        exact hquiet
      · exact ⟨es, op, [], rfl, hwhy, trivial⟩

/-! ### Where it goes wrong -/

/-- A group with a member who goes by the name "You". -/
def youGenesis : GroupEpoch :=
  { familyGenesis with
    members := [familyBob, familyCarol, ⟨"You", familyDave.identityKey⟩]
    signature := "oIGfrU+OB+IlQlPrJ/taA2ShYBfQ0WGjQvGzoGCVwoAhtyHs8bkh4TCEX7toTWEhfaRwOiYJV+Hl8mgWVvI1DA" }

/-- The next epoch puts a member out, -/
def familyKick : GroupEpoch :=
  { familyGenesis with
    seq := 1, members := [familyBob, familyDave], prevAdminKey := some bobKey, timestamp := 3000
    signature := "AcMe9XJm/HCslX+PzgDUSLGieR8wIfbU2AsQxp/Ofpp2u/OFLpkiubDVensSiQPtIxui/Ixmfn3EBo1Z5n5SDw" }

/-- and the one after that takes them back in. -/
def familyBack : GroupEpoch :=
  { familyGenesis with
    seq := 2, prevAdminKey := some bobKey, timestamp := 4000
    signature := "TThxcAGZh0wjTCuAQjT9YbrILa1pReKpz+kWnWEUCWEtIOXiU6gSZO09aTNxm7jsj5MccNZErr+t63wbmlWMAg" }

def leavingCrypto : Crypto :=
  (sampleRelay [(bobKey, familyGenesis.signingPayload, familyGenesis.signature),
    (bobKey, youGenesis.signingPayload, youGenesis.signature),
    (bobKey, familyKick.signingPayload, familyKick.signature),
    (bobKey, familyBack.signingPayload, familyBack.signature)]).crypto

def carolOps : List (ℕ × HistoryOp) :=
  [(1, .setSelfPrimaryKey familyCarol.identityKey), (1, .pinContact "bob" familyBob.identityKey true)]

def bobSends (now : ℕ) (e : GroupEpoch) : ℕ × HistoryOp :=
  (now, .apply (.groupRosterUpdate familyBob.identityKey e "Family" none none))

def daveLeaves : ℕ × HistoryOp := (2500, .apply (.groupMemberLeft familyDave.identityKey "family"))

/-- The group is founded. -/
def youOps : List (ℕ × HistoryOp) := carolOps ++ [bobSends 2001 youGenesis]

/-- A stranger's invite to a group that is not known waits in their request;
then the group is founded, and the user is put out of it. -/
def kickedOps : List (ℕ × HistoryOp) :=
  carolOps ++ [(10, .apply (.message "mallory" "mallory" "m1" "hi" 10 none none false)),
    (20, .apply (.groupRosterUpdate "mallory" familyBack "Family" none none)), bobSends 2001 familyGenesis,
    bobSends 3001 familyKick]

def acceptsMallory : ℕ × HistoryOp := (5000, .acceptRequest "mallory")

theorem outOps_flags :
    ((History.run leavingCrypto {} youOps).isOut "family" = false ∧
      (History.run leavingCrypto {} (youOps ++ [daveLeaves])).isOut "family" = true ∧
      (History.run leavingCrypto {} (youOps ++ [daveLeaves])).roster "family" =
        (History.run leavingCrypto {} youOps).roster "family" ∧
      (History.run leavingCrypto {} youOps).selfPrimaryKey = some familyCarol.identityKey) ∧
    (History.run leavingCrypto {} (kickedOps ++ [acceptsMallory])).isOut "family" = true ∧
      (History.run leavingCrypto {} kickedOps).stepAdoptions leavingCrypto acceptsMallory.1 acceptsMallory.2 =
        [⟨some ⟨membersFromEpoch familyKick, some (familyKick.pin (some bobKey))⟩, familyBack⟩] ∧
      (History.run leavingCrypto {} kickedOps).selfPrimaryKey = some familyCarol.identityKey := by
  refine ⟨⟨?_, ?_, ?_, ?_⟩, ?_, ?_, ?_⟩ <;> decide +kernel

theorem youOps_flag :
    (History.run leavingCrypto {} youOps).isOut "family" = false ∧
    (History.run leavingCrypto {} (youOps ++ [daveLeaves])).isOut "family" = true ∧
    (History.run leavingCrypto {} (youOps ++ [daveLeaves])).roster "family" =
      (History.run leavingCrypto {} youOps).roster "family" ∧
    (History.run leavingCrypto {} youOps).selfPrimaryKey = some familyCarol.identityKey :=
  outOps_flags.1

theorem kickedOps_flag :
    (History.run leavingCrypto {} (kickedOps ++ [acceptsMallory])).isOut "family" = true ∧
    (History.run leavingCrypto {} kickedOps).stepAdoptions leavingCrypto acceptsMallory.1 acceptsMallory.2 =
      [⟨some ⟨membersFromEpoch familyKick, some (familyKick.pin (some bobKey))⟩, familyBack⟩] ∧
    (History.run leavingCrypto {} kickedOps).selfPrimaryKey = some familyCarol.identityKey :=
  outOps_flags.2

/-- **Others put the user out of a group.** A member who is called "You" leaves, and the
user is out. And one who was put out, and is taken back with an accepted request, is out still. -/
theorem others_put_user_out :
    ((History.run leavingCrypto {} (youOps ++ [daveLeaves])).isOut "family" = true ∧
      (History.run leavingCrypto {} (youOps ++ [daveLeaves])).roster "family" =
        (History.run leavingCrypto {} youOps).roster "family" ∧
      ¬ LeavesItself leavingCrypto (History.run leavingCrypto {} youOps) daveLeaves) ∧
    (History.run leavingCrypto {} (kickedOps ++ [acceptsMallory])).isOut "family" = true ∧
      ¬ OutSince leavingCrypto {} "family" (kickedOps ++ [acceptsMallory]) := by
  obtain ⟨hbefore, hafter, hroster, -⟩ := youOps_flag
  obtain ⟨hout, hlog, hself⟩ := kickedOps_flag
  refine ⟨⟨hafter, hroster, ?_⟩, hout, ?_⟩
  · intro hstep
    unfold History.run at hafter
    rw [Trace.run_snoc] at hafter
    rcases hstep.flag "family" hbefore hafter with ⟨-, hours⟩ | ⟨a, ha, -⟩
    · have hnot : ¬ ((History.run leavingCrypto {} youOps).selfPrimaryKey =
          some ((History.run leavingCrypto {} youOps).attributeDevice familyDave.identityKey) ∨
        (History.run leavingCrypto {} youOps).isOwnDevice
          ((History.run leavingCrypto {} youOps).attributeDevice familyDave.identityKey) = true) := by decide +kernel
      exact hnot hours
    · cases ha
  · rintro ⟨pre, op, post, heq, hdep, hsince⟩
    rcases List.eq_nil_or_concat post with rfl | ⟨init, last, rfl⟩
    · -- the acceptance neither leaves nor drops
      obtain ⟨rfl, hlast⟩ := List.append_inj' heq rfl
      obtain rfl := (List.cons.inj hlast).1
      rcases hdep with hleaves | ⟨a, ha, me, hme, hdrops⟩
      · exact hleaves
      · rw [hlog] at ha
        obtain rfl := List.mem_singleton.mp (List.mem_filter.mp ha).1
        rw [hself] at hme
        cases hme
        exact absurd hdrops.2 (by decide)
    · -- it adds the user back
      have heq' : kickedOps ++ [acceptsMallory] = (pre ++ op :: init) ++ [last] := by
        simpa using heq
      obtain ⟨hinit, hlast⟩ := List.append_inj' heq' rfl
      obtain rfl := (List.cons.inj hlast).1
      rw [List.concat_eq_append] at hsince
      have hquiet := ((Trace.along_append _ _ _ _ _).mp hsince).2.1
      have hstate : Trace.run (fun h op => History.step leavingCrypto h op.1 op.2)
          (History.run leavingCrypto {} (pre ++ [op])) init = History.run leavingCrypto {} kickedOps := by
        unfold History.run
        rw [← Trace.run_append, hinit]
        simp
      rw [hstate] at hquiet
      apply hquiet
      refine ⟨_, List.mem_filter.mpr ⟨hlog ▸ List.mem_singleton.mpr rfl, by decide⟩, _, hself, rfl,
        ?_, by decide⟩
      rintro ⟨r, hr, hlists⟩
      cases hr
      revert hlists
      decide

/-- A member leaves who goes by their own name. -/
def foundedOps : List (ℕ × HistoryOp) := carolOps ++ [bobSends 2001 familyGenesis]

theorem foundedOps_facts :
    (History.run leavingCrypto {} carolOps).stepAdoptions leavingCrypto 2001 (bobSends 2001 familyGenesis).2 =
      [⟨none, familyGenesis⟩] ∧
    (History.run leavingCrypto {} foundedOps).roster "family" =
      some ⟨membersFromEpoch familyGenesis, some (familyGenesis.pin (some bobKey))⟩ := by
  refine ⟨?_, ?_⟩ <;> decide +kernel

/-- What is no departure and adopts nothing is heeded. -/
theorem heeded_quiet {op : ℕ × HistoryOp}
    (hleft : ∀ sender gid, op.2 ≠ .apply (.groupMemberLeft sender gid))
    (hnone : h.stepAdoptions C op.1 op.2 = []) : Heeded C h op where
  named sender gid _ _ heq := (hleft sender gid heq).elim
  noted a ha := by
    rw [hnone] at ha
    cases ha

theorem foundedOps_heeded : HeededRun leavingCrypto (foundedOps ++ [daveLeaves]) := by
  obtain ⟨hfound, hroster⟩ := foundedOps_facts
  refine (Trace.along_append _ _ _ _ _).mpr
    ⟨(Trace.along_append _ _ _ _ _).mpr ⟨⟨?_, ?_, trivial⟩, ?_, trivial⟩, ?_, trivial⟩
  · exact heeded_quiet (fun _ _ heq => by cases heq) rfl
  · exact heeded_quiet (fun _ _ heq => by cases heq) rfl
  · refine ⟨fun _ _ _ _ heq => (by cases heq), ?_⟩
    intro a ha me hme hback
    have ha' : a ∈ [(⟨none, familyGenesis⟩ : Adoption)] := hfound ▸ ha
    obtain rfl := List.mem_singleton.mp ha'
    cases hback.1
  · refine ⟨?_, fun a ha => (by cases ha)⟩
    intro sender gid r m heq hours hr hm
    cases heq
    rw [show Trace.run (fun h op => History.step leavingCrypto h op.1 op.2) {} foundedOps =
      History.run leavingCrypto {} foundedOps from rfl, hroster] at hr
    cases hr
    have hmem := List.mem_of_find?_eq_some hm
    simp only [membersFromEpoch, familyGenesis, List.map_cons, List.map_nil, List.mem_cons,
      List.not_mem_nil, or_false] at hmem
    rcases hmem with rfl | rfl | rfl <;> decide

theorem leaving_is_own_act_dave :
    Trace.Along (fun h op => History.step leavingCrypto h op.1 op.2) (LeavesItself leavingCrypto) {}
        (foundedOps ++ [daveLeaves]) ∧
      ∀ gid, (History.run leavingCrypto {} (foundedOps ++ [daveLeaves])).isOut gid = true →
        OutSince leavingCrypto {} gid (foundedOps ++ [daveLeaves]) := by
  apply leaving_is_own_act leavingCrypto (foundedOps ++ [daveLeaves])
  · intro op hop other heq
    simp only [foundedOps, carolOps, bobSends, daveLeaves, List.cons_append, List.nil_append,
      List.mem_cons, List.not_mem_nil, or_false] at hop
    rcases hop with rfl | rfl | rfl | rfl <;> cases heq
  · exact foundedOps_heeded

end Sona
