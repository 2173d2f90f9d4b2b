/-
# What an invite carries

An epoch of a group comes with a name, a picture and a timer, which are for those to
whom the group is new. It comes in two ways: in an update that is let in
(`rosterUpdate`), and in an invite that waited with the request of a stranger and is
replayed when the stranger is accepted (`acceptInvite`). By then the group may be there,
founded by the invite of another member and renamed since. An update that finds
the group leaves its meta alone; the replay takes it over with every
epoch that passes, and says nothing about the user's own way in or out.

The record that either way leaves is the installed one with the held content written
down, and then `note`d or `carry`ed (`record_rosterUpdate`, `record_acceptInvite`). So the two
agree on a group that is there exactly if neither would change that record (`invite_meta_iff`).

Key definitions: `heldInvite`, `Arrives`, `CarriesNothing`, `NoticeIdle`, `MetaOnCreation`,
`MetaStays`. Key theorems: `pinned_of_arrives`, `carry_eq_iff`, `note_eq_iff`,
`record_acceptInvite`, `invite_meta_iff`.
-/
import Sona.AddRace
import Sona.GroupFrame
import Sona.Leaving

namespace Sona

/-- The invite as the gate holds it. -/
def heldInvite (epoch : GroupEpoch) (name : String) (secs : Option ℕ) (avatar : Option String) :
    HeldInvite :=
  { groupId := epoch.groupId, name, members := membersFromEpoch epoch, disappearingSecs := secs
    avatar := sanitizeAvatar avatar, epoch }

/-- The histories that an epoch finds: those that are reached, also within an acceptance. -/
inductive Arrives (C : Crypto) : History → Prop
  | reached {h : History} (reached : Reached C h) : Arrives C h
  | promoted {h h' : History} {key peer : String} {req : PendingRequest} (arrives : Arrives C h)
      (promotes : h.promote key = some (req, peer, h')) : Arrives C h'
  | replayed {h : History} (arrives : Arrives C h) (now : ℕ)
      (inv : HeldInvite) : Arrives C (h.acceptInvite C now inv)

/-- The name, picture and timer of a group. -/
structure GroupMeta where
  name : String
  avatar : Option String
  disappearingSecs : Option ℕ
deriving DecidableEq, Repr

def GroupRecord.groupMeta (g : GroupRecord) : GroupMeta := ⟨g.name, g.avatar, g.disappearingSecs⟩

def History.groupMeta (h : History) (gid : String) : Option GroupMeta :=
  (h.groups.get gid).map (·.groupMeta)

/-- The meta that an invite carries is blank, or the group has it. -/
structure CarriesNothing (g : GroupRecord) (name : String) (avatar : Option String)
    (secs : Option ℕ) : Prop where
  name : (trim name.toList).isEmpty = true ∨ g.name = name
  avatar : ∀ a, sanitizeAvatar avatar = some a → g.avatar = some a
  secs : ∀ n, secs = some n → g.disappearingSecs = if n = 0 then none else some n

/-- No notice is due about the user's own way in or out, or it is there and stands last. -/
def NoticeIdle (g : GroupRecord) (wasMember isMember : Bool) : Prop :=
  ∀ text, membershipChip wasMember isMember = some text → g.left = wasMember ∧
  saysLast g.messages text = true

/-- The meta is adopted on creation alone, and both ways leave the same record. -/
structure MetaOnCreation (C : Crypto) (now : ℕ) (h : History) (sender : String) (epoch : GroupEpoch)
    (name : String) (secs : Option ℕ) (avatar : Option String) : Prop where
  updated : h.hasGroup epoch.groupId = true →
    (h.apply C now (.groupRosterUpdate sender epoch name secs avatar)).groupMeta epoch.groupId = h.groupMeta epoch.groupId
  replayed : h.hasGroup epoch.groupId = true →
    (h.acceptInvite C now (heldInvite epoch name secs avatar)).groupMeta epoch.groupId = h.groupMeta epoch.groupId
  agree : (h.rosterUpdate C now epoch name secs avatar).groups.get epoch.groupId =
    (h.acceptInvite C now (heldInvite epoch name secs avatar)).groups.get epoch.groupId

/-- If the epoch advances a group that is there, it carries nothing, and the notice about the user
is idle on the thread as the adoption leaves it. -/
def MetaStays (C : Crypto) (now : ℕ) (h : History) (epoch : GroupEpoch) (name : String)
    (secs : Option ℕ) (avatar : Option String) : Prop :=
  ∀ g pin, h.groups.get epoch.groupId = some g → g.admin = some pin →
    epoch.verifySuccession C pin.epochSeq pin.adminKey = .ok () →
    CarriesNothing g name avatar secs ∧
      ∀ g', (h.adoptGroupEpoch C now epoch).2.groups.get epoch.groupId = some g' →
        NoticeIdle g' (h.selfIsMember epoch.groupId) (h.selfPrimaryKey.any epoch.isMember)

/-! ### Groups have a pin -/

theorem pinned_rule (C : Crypto) : RosterRule C fun r => r.admin.isSome = true where
  after _ _ := rfl
  without _ _ h := h

variable {C : Crypto}

theorem pinned_of_reached {h : History} (hr : Reached C h) :
    h.EveryRoster fun r => r.admin.isSome = true := by
  induction hr with
  | start => exact fun _ _ hr => by cases hr
  | step _ now op _ ih ihm => exact every_step (pinned_rule C) (now, op) ihm ih

/-- **Every group that an epoch finds** has an admin pinned. -/
theorem pinned_of_arrives {h : History} (ha : Arrives C h) :
    h.EveryRoster fun r => r.admin.isSome = true := by
  induction ha with
  | reached hr => exact pinned_of_reached hr
  | promoted _ hp ih => exact every_of_standing (standing_promote hp) ih
  | replayed _ now inv ih => exact every_of_standing (standing_acceptInvite _ now inv) (every_adopt (pinned_rule C) _ now _ ih)

/-! ### The record -/

section record

variable {g : GroupRecord}

theorem sanitizeAvatar_twice (avatar : Option String) :
    sanitizeAvatar (sanitizeAvatar avatar) = sanitizeAvatar avatar := by
  unfold sanitizeAvatar
  rw [Option.filter_filter]
  simp

theorem note_meta (now : ℕ) (g : GroupRecord) (wasMember isMember : Bool) :
    (g.note now wasMember isMember).groupMeta = g.groupMeta := by
  cases wasMember <;> cases isMember <;> rfl

/-- The meta that is carried is the group's own exactly if it says nothing new. -/
theorem carry_meta_iff {name : String} {avatar : Option String} {secs : Option ℕ} :
    (g.carry name (sanitizeAvatar avatar) secs).groupMeta = g.groupMeta ↔
    CarriesNothing g name avatar secs := by
  have hname : (if (trim name.toList).isEmpty then g.name else name) = g.name ↔
      (trim name.toList).isEmpty = true ∨ g.name = name := by
    cases (trim name.toList).isEmpty <;> simp [eq_comm]
  have havatar :
      (if (sanitizeAvatar avatar).isSome then sanitizeAvatar (sanitizeAvatar avatar) else g.avatar) = g.avatar ↔
      ∀ a, sanitizeAvatar avatar = some a → g.avatar = some a := by
    rw [sanitizeAvatar_twice]
    cases sanitizeAvatar avatar <;> simp [eq_comm]
  have hsecs : (g.carry name (sanitizeAvatar avatar) secs).disappearingSecs = g.disappearingSecs ↔
      ∀ n, secs = some n → g.disappearingSecs = if n = 0 then none else some n := by
    unfold GroupRecord.carry
    rcases secs with _ | _ | n <;> simp [eq_comm]
  unfold GroupRecord.groupMeta
  rw [GroupMeta.mk.injEq]
  constructor
  · rintro ⟨hn, ha, hs⟩
    exact ⟨hname.mp hn, havatar.mp ha, hsecs.mp hs⟩
  · rintro ⟨hn, ha, hs⟩
    exact ⟨hname.mpr hn, havatar.mpr ha, hsecs.mpr hs⟩

theorem carriesNothing_congr {g' : GroupRecord} (hmeta : g'.groupMeta = g.groupMeta) {name : String}
    {avatar : Option String} {secs : Option ℕ} :
    CarriesNothing g' name avatar secs ↔ CarriesNothing g name avatar secs := by
  unfold GroupRecord.groupMeta at hmeta
  obtain ⟨hname, havatar, hsecs⟩ := (GroupMeta.mk.injEq ..).mp hmeta
  constructor
  · rintro ⟨hn, ha, hs⟩
    exact ⟨hname ▸ hn, havatar ▸ ha, hsecs ▸ hs⟩
  · rintro ⟨hn, ha, hs⟩
    exact ⟨hname ▸ hn, havatar ▸ ha, hsecs ▸ hs⟩

/-- Nothing but the meta is carried. -/
theorem carry_of_meta {name : String} {avatar : Option String} {secs : Option ℕ}
    (h : (g.carry name avatar secs).groupMeta = g.groupMeta) : g.carry name avatar secs = g := by
  have hcarry : g.carry name avatar secs =
      { g with
        name := (g.carry name avatar secs).name
        avatar := (g.carry name avatar secs).avatar
        disappearingSecs := (g.carry name avatar secs).disappearingSecs } := rfl
  unfold GroupRecord.groupMeta at h
  obtain ⟨hname, havatar, hsecs⟩ := (GroupMeta.mk.injEq ..).mp h
  rw [hcarry, hname, havatar, hsecs]

theorem recordChip_eq_iff (at_ : ℕ) {msgs : List StoredMessage} {text : String} :
    recordChip msgs text at_ = msgs ↔ saysLast msgs text = true := by
  constructor
  · intro heq
    by_contra hlast
    rw [recordChip_of_new (Bool.eq_false_of_not_eq_true hlast)] at heq
    simpa using congrArg List.length heq
  · exact recordChip_of_said

theorem note_eq_iff (now : ℕ) {wasMember isMember : Bool} :
    g.note now wasMember isMember = g ↔ NoticeIdle g wasMember isMember := by
  have hboth : ∀ text, { g with left := wasMember, messages := recordChip g.messages text now } = g ↔
      g.left = wasMember ∧ saysLast g.messages text = true := by
    intro text
    rw [← recordChip_eq_iff now]
    constructor
    · intro heq
      exact ⟨(congrArg GroupRecord.left heq).symm, congrArg GroupRecord.messages heq⟩
    · rintro ⟨hleft, hmsgs⟩
      rw [hmsgs, ← hleft]
  unfold GroupRecord.note NoticeIdle membershipChip
  cases wasMember <;> cases isMember <;> simp [hboth]

end record

/-! ### The two ways -/

section ways

variable {h : History} {now : ℕ} {epoch : GroupEpoch} {name : String} {secs : Option ℕ}
  {avatar : Option String}

/-- An epoch that is refused changes nothing, either way. -/
theorem ways_refused {err : GroupEpochError}
    (hadopt : h.adoptGroupEpoch C now epoch = (.refused err, h)) :
    h.rosterUpdate C now epoch name secs avatar = h ∧
    h.acceptInvite C now (heldInvite epoch name secs avatar) = h := by
  constructor
  · unfold History.rosterUpdate
    rw [hadopt]
  · unfold History.acceptInvite
    rw [show (heldInvite epoch name secs avatar).epoch = epoch from rfl, hadopt]

/-- A replayed invite carries its meta into the record that the adoption left. -/
theorem record_acceptInvite {outcome : GroupEpochOutcome} {h' : History}
    (hadopt : h.adoptGroupEpoch C now epoch = (outcome, h')) (hok : ∀ err, outcome ≠ .refused err) :
    (h.acceptInvite C now (heldInvite epoch name secs avatar)).groups.get epoch.groupId =
      (h'.groups.get epoch.groupId).map (·.carry name (sanitizeAvatar avatar) secs) := by
  unfold History.acceptInvite
  rw [show (heldInvite epoch name secs avatar).epoch = epoch from rfl, hadopt]
  cases outcome with
  | refused err => exact (hok err rfl).elim
  | created => exact get_adoptCarried h' epoch.groupId name (sanitizeAvatar avatar) secs
  | advanced => exact get_adoptCarried h' epoch.groupId name (sanitizeAvatar avatar) secs

/-- An update notes it there, if the group was known. -/
theorem record_advanced {h' : History} (hadopt : h.adoptGroupEpoch C now epoch = (.advanced, h')) :
    (h.rosterUpdate C now epoch name secs avatar).groups.get epoch.groupId =
      (h'.groups.get epoch.groupId).map
      (·.note now (h.selfIsMember epoch.groupId) (h.selfPrimaryKey.any epoch.isMember)) := by
  have hself : h'.selfPrimaryKey = h.selfPrimaryKey := by
    obtain ⟨_, _, hframe⟩ := adopt_frame h C now epoch
    rw [hadopt] at hframe
    rw [show h' = _ from hframe]
  unfold History.rosterUpdate
  rw [hadopt]
  dsimp only
  rw [get_noteMembership, hself]

theorem record_created {h' : History} (hadopt : h.adoptGroupEpoch C now epoch = (.created, h')) :
    (h.rosterUpdate C now epoch name secs avatar).groups.get epoch.groupId =
      (h'.groups.get epoch.groupId).map (·.carry name avatar secs) := by
  unfold History.rosterUpdate
  rw [hadopt]
  exact get_adoptCarried h' epoch.groupId name avatar secs

/-- A group that is new has no picture of its own, so it makes no difference
where the carried one is looked at. -/
theorem carry_fresh {g : GroupRecord} (hg : g.avatar = none) :
    g.carry name (sanitizeAvatar avatar) secs = g.carry name avatar secs := by
  unfold GroupRecord.carry
  rw [sanitizeAvatar_twice, hg]
  cases avatar with
  | none => rfl
  | some a => cases hs : sanitizeAvatar (some a) <;> rfl

theorem get_replay_of_some {h : History} {gid : String} {g : GroupRecord}
    (hg : h.groups.get gid = some g) :
    (h.replayHeldGroupContent gid now).groups.get gid =
      some (g.replay now (h.rendered gid now)) := by
  rw [get_replay, hg]
  rfl

variable (C now) in
/-- The adoption of an epoch of a group that is new. -/
theorem adopt_new (hg : h.groups.get epoch.groupId = none) :
    (∃ err, h.adoptGroupEpoch C now epoch = (.refused err, h)) ∨ ∃ h' g',
      h.adoptGroupEpoch C now epoch = (.created, h') ∧ h'.groups.get epoch.groupId = some g' ∧
      g'.avatar = none := by
  have hadmin : h.groupAdmin epoch.groupId = none := by
    unfold History.groupAdmin
    rw [hg]
    rfl
  unfold History.adoptGroupEpoch
  rw [hadmin]
  dsimp only
  cases epoch.validateBaseline C with
  | error err => exact .inl ⟨err, rfl⟩
  | ok =>
    refine .inr ⟨_, _, rfl, get_replay_of_some (Table.get_set_self _ _ _), ?_⟩
    rw [hg]
    rfl

variable (C now) in
/-- And of one that is known: if it passes, the meta is still what it was. -/
theorem adopt_known {g : GroupRecord} {pin : GroupAdmin} (hg : h.groups.get epoch.groupId = some g)
    (hpin : g.admin = some pin) :
    (∃ err, epoch.verifySuccession C pin.epochSeq pin.adminKey = .error err ∧
      h.adoptGroupEpoch C now epoch = (.refused err, h)) ∨
    (epoch.verifySuccession C pin.epochSeq pin.adminKey = .ok () ∧ ∃ h' g',
      h.adoptGroupEpoch C now epoch = (.advanced, h') ∧ h'.groups.get epoch.groupId = some g' ∧
        g'.groupMeta = g.groupMeta) := by
  have hadmin : h.groupAdmin epoch.groupId = some pin := by
    unfold History.groupAdmin
    rw [hg]
    exact hpin
  unfold History.adoptGroupEpoch
  rw [hadmin]
  dsimp only
  cases epoch.verifySuccession C pin.epochSeq pin.adminKey with
  | error err => exact .inl ⟨err, rfl, rfl⟩
  | ok =>
    have hinstalled := (get_updateGroup h epoch.groupId (·.install epoch pin.creatorAdminKey)).trans
      (congrArg _ hg)
    exact .inr ⟨rfl, _, _, rfl, get_replay_of_some hinstalled, rfl⟩

/-- An update of a group that is known is not screened. -/
theorem apply_known (hg : h.hasGroup epoch.groupId = true) (sender : String) :
    h.apply C now (.groupRosterUpdate sender epoch name secs avatar) =
      h.rosterUpdate C now epoch name secs avatar := by
  have hscreen : h.screenRosterUpdate now sender epoch name secs avatar = (false, h) := by
    unfold History.screenRosterUpdate
    rw [if_pos hg]
  simp only [History.apply, hscreen]

/-- **An update of a group that is known leaves its meta alone.** -/
theorem update_keeps_meta (ha : Arrives C h) (hg : h.hasGroup epoch.groupId = true)
    (sender : String) :
    (h.apply C now (.groupRosterUpdate sender epoch name secs avatar)).groupMeta epoch.groupId =
      h.groupMeta epoch.groupId := by
  obtain ⟨r, hr⟩ := roster_of_hasGroup hg
  obtain ⟨g, hget, rfl⟩ := roster_some hr
  obtain ⟨pin, hpin⟩ := Option.isSome_iff_exists.mp (pinned_of_arrives ha _ _ hr)
  rw [apply_known hg]
  rcases adopt_known C now hget hpin with ⟨err, -, hadopt⟩ | ⟨-, h', g', hadopt, hg', hmeta⟩
  · rw [(ways_refused hadopt).1]
  · unfold History.groupMeta
    rw [record_advanced hadopt, hg', hget]
    exact congrArg some ((note_meta _ _ _ _).trans hmeta)

end ways

/-- **The meta of an invite is adopted on creation alone**, and both ways leave the same record,
exactly if no epoch that advances a group carries anything new, and the notice about the user is
idle. An update keeps the meta of a group in any case. -/
theorem invite_meta_iff (C : Crypto) {h : History} (ha : Arrives C h) (now : ℕ) (sender : String)
    (epoch : GroupEpoch) (name : String) (secs : Option ℕ) (avatar : Option String) :
    (h.hasGroup epoch.groupId = true →
      (h.apply C now (.groupRosterUpdate sender epoch name secs avatar)).groupMeta epoch.groupId =
        h.groupMeta epoch.groupId) ∧
    (MetaOnCreation C now h sender epoch name secs avatar ↔
      MetaStays C now h epoch name secs avatar) := by
  refine ⟨fun hg => update_keeps_meta ha hg sender, ?_⟩
  cases hget : h.groups.get epoch.groupId with
  | none =>
    have hnone : ¬ h.hasGroup epoch.groupId = true := by
      unfold History.hasGroup
      simp [hget]
    refine iff_of_true ⟨fun hg => (hnone hg).elim, fun hg => (hnone hg).elim, ?_⟩ fun g pin hg => ?_
    · rcases adopt_new C now hget with ⟨err, hadopt⟩ | ⟨h', g', hadopt, hg', havatar⟩
      · rw [(ways_refused hadopt).1, (ways_refused hadopt).2]
      · rw [record_created hadopt, record_acceptInvite hadopt (by simp), hg']
        exact congrArg some (carry_fresh havatar).symm
    · rw [hget] at hg
      cases hg
  | some g =>
    have hgroup : h.hasGroup epoch.groupId = true := by
      unfold History.hasGroup
      rw [hget]
      rfl
    have hroster : h.roster epoch.groupId = some g.roster := by
      unfold History.roster
      rw [hget]
      rfl
    obtain ⟨pin, hpin⟩ := Option.isSome_iff_exists.mp (pinned_of_arrives ha _ _ hroster)
    rcases adopt_known C now hget hpin with ⟨err, hverify, hadopt⟩
      | ⟨hverify, h', g', hadopt, hg', hmeta⟩
    · obtain ⟨hupdate, haccept⟩ : h.rosterUpdate C now epoch name secs avatar = h ∧
          h.acceptInvite C now (heldInvite epoch name secs avatar) = h := ways_refused hadopt
      refine iff_of_true ⟨fun _ => update_keeps_meta ha hgroup sender,
        fun _ => by rw [haccept], by rw [hupdate, haccept]⟩ ?_
      intro g₂ pin₂ hget₂ hpin₂ hok
      cases hget.symm.trans hget₂
      cases hpin.symm.trans hpin₂
      rw [hverify] at hok
      cases hok
    · have hcarry :
          ((h.acceptInvite C now (heldInvite epoch name secs avatar)).groups.get epoch.groupId) =
          some (g'.carry name (sanitizeAvatar avatar) secs) := by
        rw [record_acceptInvite hadopt (by simp), hg']
        rfl
      have hnote : (h.rosterUpdate C now epoch name secs avatar).groups.get epoch.groupId =
          some (g'.note now (h.selfIsMember epoch.groupId) (h.selfPrimaryKey.any epoch.isMember)) := by
        rw [record_advanced hadopt, hg']
        rfl
      have hkept : (h.acceptInvite C now (heldInvite epoch name secs avatar)).groupMeta epoch.groupId =
          h.groupMeta epoch.groupId ↔ CarriesNothing g name avatar secs := by
        unfold History.groupMeta
        rw [hcarry, hget, Option.map_some, Option.map_some, Option.some_inj, ← hmeta,
          carry_meta_iff]
        exact carriesNothing_congr hmeta
      constructor
      · intro hc g₂ pin₂ hget₂ _ _
        cases hget.symm.trans hget₂
        have hcarries := hkept.mp (hc.replayed hgroup)
        refine ⟨hcarries, fun g₂ hg₂ => ?_⟩
        rw [hadopt] at hg₂
        cases hg'.symm.trans hg₂
        have hsame := carry_of_meta (carry_meta_iff.mpr ((carriesNothing_congr hmeta).mpr hcarries))
        have hagree := hc.agree
        rw [hnote, hcarry, hsame, Option.some_inj] at hagree
        exact (note_eq_iff now).mp hagree
      · intro hs
        obtain ⟨hcarries, hidle⟩ := hs g pin hget hpin hverify
        have hsame := carry_of_meta (carry_meta_iff.mpr ((carriesNothing_congr hmeta).mpr hcarries))
        have hquiet := (note_eq_iff now).mpr (hidle g' (by rw [hadopt]; exact hg'))
        exact ⟨fun _ => update_keeps_meta ha hgroup sender, fun _ => hkept.mpr hcarries,
          by rw [hnote, hcarry, hsame, hquiet]⟩

/-- An invite waits with a stranger's request, and the group it is for is founded, and renamed. -/
def renamedOps : List (ℕ × HistoryOp) := kickedOps ++ [(4001, .renameGroup "family" "Cousins")]

def renamedGroup : History := History.run leavingCrypto {} renamedOps

theorem renamedGroup_arrives : Arrives leavingCrypto renamedGroup :=
  .reached (reached_run renamedOps (by simp [renamedOps, kickedOps, carolOps, bobSends]) .start)

theorem invite_meta_iff_cousins :
    (renamedGroup.apply leavingCrypto 5000 (.groupRosterUpdate familyBob.identityKey familyBack "Cousins" none none)).groupMeta
        "family" = some ⟨"Cousins", none, none⟩ ∧
      (MetaOnCreation leavingCrypto 5000 renamedGroup familyBob.identityKey familyBack "Cousins" none none ↔
        MetaStays leavingCrypto 5000 renamedGroup familyBack "Cousins" none none) := by
  obtain ⟨hkept, hiff⟩ := invite_meta_iff leavingCrypto renamedGroup_arrives 5000 familyBob.identityKey familyBack
    "Cousins" none none
  have hgroup : renamedGroup.hasGroup "family" = true := by decide +kernel
  have hmeta : renamedGroup.groupMeta "family" = some ⟨"Cousins", none, none⟩ := by decide +kernel
  exact ⟨(hkept hgroup).trans hmeta, hiff⟩

/-- The stranger is accepted, and the group has the name of the invite again. -/
theorem accepted_invite_renames : renamedGroup.groupMeta "family" = some ⟨"Cousins", none, none⟩ ∧
    (renamedGroup.step leavingCrypto acceptsMallory.1 acceptsMallory.2).groupMeta "family" =
      some ⟨"Family", none, none⟩ ∧
      ¬ MetaOnCreation leavingCrypto 5000 renamedGroup familyBob.identityKey familyBack "Family" none none := by
  have hmeta : renamedGroup.groupMeta "family" = some ⟨"Cousins", none, none⟩ := by decide +kernel
  have hreplayed :
      (renamedGroup.acceptInvite leavingCrypto 5000 (heldInvite familyBack "Family" none none)).groupMeta
      "family" = some ⟨"Family", none, none⟩ := by decide +kernel
  refine ⟨hmeta, by decide +kernel, fun hc => ?_⟩
  have hsame := hc.replayed (by decide +kernel)
  rw [show familyBack.groupId = "family" from rfl, hmeta, hreplayed] at hsame
  exact absurd hsame (by decide)

end Sona
