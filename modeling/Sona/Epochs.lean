/-
# One chain of group epochs

Whatever is done to a history, the membership of a group moves along one chain.
Of a group only the members and the pin count here (its `roster`); nearly every
operation leaves them as they are, a member who leaves takes one name off the
list, and a merge may bring a group that was not known. All else is adoption,
be it called outright, for an epoch that came in, or for the invites of a
request that is accepted.

`History.runAdoptions` are the adoptions of a run in their order, each with the
roster it found. Every run moves the roster by its adoptions, in the sense of
`Pinned.Moves` (`run_moves`), and the chain follows from that.

Key definitions: `History.roster`, `Adoption`, `History.runAdoptions`, `epochRules`.
Key theorems: `adopt_cases`, `step_moves`, `run_moves`, `epochs_follow_one_chain`.
-/
import Mathlib.Data.List.Chain
import Sona.Lib.Pinned
import Sona.Lib.Trace
import Sona.Group
import Sona.Inbound
import Sona.Run

namespace Sona

/-! ### Rosters -/

/-- Who is in a group, and what is pinned of the epoch that said so. -/
structure GroupRoster where
  members : List GroupMember
  admin : Option GroupAdmin
deriving DecidableEq, Repr

def GroupRecord.roster (g : GroupRecord) : GroupRoster := ⟨g.members, g.admin⟩

def History.roster (h : History) (gid : String) : Option GroupRoster :=
  (h.groups.get gid).map (·.roster)

/-- Where the user stands with a group: its roster, and whether they are out of it. -/
structure GroupStanding where
  roster : GroupRoster
  left : Bool
deriving DecidableEq, Repr

def GroupRecord.standing (g : GroupRecord) : GroupStanding := ⟨g.roster, g.left⟩

def History.standing (h : History) (gid : String) : Option GroupStanding :=
  (h.groups.get gid).map (·.standing)

theorem History.groupAdmin_eq (h : History) (gid : String) :
    h.groupAdmin gid = (h.roster gid).bind (·.admin) := by
  unfold History.groupAdmin History.roster
  cases h.groups.get gid <;> rfl

/-- A roster is that of a group. -/
theorem roster_some {h : History} {gid : String} {r : GroupRoster} (hr : h.roster gid = some r) :
    ∃ g, h.groups.get gid = some g ∧ g.roster = r := by
  simpa [History.roster] using hr

/-- So is a pin. -/
theorem groupAdmin_some {h : History} {gid : String} {p : GroupAdmin}
    (hp : h.groupAdmin gid = some p) :
    ∃ g, h.groups.get gid = some g ∧ g.admin = some p := by
  simpa [History.groupAdmin, Option.bind_eq_some_iff] using hp

theorem hasGroup_of_roster {h : History} {gid : String} (hr : ∃ r, h.roster gid = some r) :
    h.hasGroup gid = true := by
  obtain ⟨r, hr⟩ := hr
  obtain ⟨g, hg, -⟩ := roster_some hr
  unfold History.hasGroup
  rw [hg]
  rfl

theorem roster_of_hasGroup {h : History} {gid : String} (hg : h.hasGroup gid = true) :
    ∃ r, h.roster gid = some r := by
  obtain ⟨g, hg⟩ := Option.isSome_iff_exists.mp hg
  exact ⟨g.roster, by unfold History.roster; rw [hg]; rfl⟩

theorem History.roster_eq_standing (h : History) (gid : String) :
    h.roster gid = (h.standing gid).map (·.roster) := by
  unfold History.roster History.standing
  cases h.groups.get gid <;> rfl

section frame

variable {h h' : History}

theorem roster_of_standing (hs : h'.standing = h.standing) : h'.roster = h.roster := by
  funext gid
  rw [h'.roster_eq_standing, h.roster_eq_standing, hs]

theorem standing_of_groups (hg : h'.groups = h.groups) : h'.standing = h.standing := by
  unfold History.standing
  rw [hg]

/-- A change of a group that is none of its roster. -/
theorem standing_updateGroup {f : GroupRecord → GroupRecord} (hf : ∀ g, (f g).standing = g.standing)
    (gid : String) :
    (h.updateGroup gid f).standing = h.standing := by
  funext j
  unfold History.updateGroup History.standing
  rw [Table.get_modify]
  by_cases hj : j = gid
  · subst hj
    rw [if_pos rfl, Option.map_map]
    cases h.groups.get j with
    | none => rfl
    | some g => exact congrArg some (hf g)
  · rw [if_neg hj]

theorem standing_mapGroups {f : GroupRecord → GroupRecord} (hf : ∀ g, (f g).standing = g.standing)
    (hg : h'.groups = h.groups.mapValues f) : h'.standing = h.standing := by
  funext j
  unfold History.standing
  rw [hg, Table.get_mapValues, Option.map_map]
  cases h.groups.get j with
  | none => rfl
  | some g => exact congrArg some (hf g)

end frame

/-! ### Operations that leave the roster alone -/

section kept

variable (h : History)

theorem standing_updateContactByKey (key : String) (f : ContactPin → ContactPin) :
    (h.updateContactByKey key f).standing = h.standing := by
  unfold History.updateContactByKey
  split
  · rfl
  · exact standing_of_groups rfl

theorem standing_updateThread (gid : String) (f : List StoredMessage → List StoredMessage) :
    (h.updateThread gid f).standing = h.standing := by
  apply standing_updateGroup
  intro g
  rfl

theorem standing_setGroupName (gid name : String) :
    (h.setGroupName gid name).standing = h.standing := by
  unfold History.setGroupName
  split
  · rfl
  · apply standing_updateGroup
    intro g
    rfl

theorem standing_renameGroup (gid name : String) :
    (h.renameGroup gid name).2.standing = h.standing := by
  unfold History.renameGroup
  split
  · rfl
  · apply standing_updateGroup
    intro g
    rfl

theorem standing_setGroupTimer (gid : String) (secs : Option ℕ) :
    (h.setGroupTimer gid secs).2.standing = h.standing := by
  apply standing_updateGroup
  intro g
  rfl

theorem standing_setGroupAvatar (gid : String) (avatar : Option String) :
    (h.setGroupAvatar gid avatar).2.standing = h.standing := by
  apply standing_updateGroup
  intro g
  rfl

theorem roster_setGroupLeft (gid : String) (left : Bool) :
    (h.setGroupLeft gid left).2.roster = h.roster := by
  funext j
  have hget := Table.get_modify h.groups gid j fun g => { g with left }
  unfold History.roster
  rw [show (h.setGroupLeft gid left).2.groups.get j = _ from hget]
  by_cases hj : j = gid
  · subst hj
    rw [if_pos rfl]
    cases h.groups.get j <;> rfl
  · rw [if_neg hj]

theorem standing_recordGroupMessage (now : ℕ) (gid sender msgId body : String) (sentAt : ℕ)
    (expireSecs : Option ℕ) (reply : Option ReplyRef) :
    (h.recordGroupMessage now gid sender msgId body sentAt expireSecs reply).standing =
      h.standing := by
  apply standing_updateGroup
  intro g
  rfl

theorem standing_recordGroupAttachment (now : ℕ) (gid sender msgId : String)
    (attachment : AttachmentRef) (sentAt : ℕ) (expireSecs : Option ℕ) :
    (h.recordGroupAttachment now gid sender msgId attachment sentAt expireSecs).standing =
      h.standing := by
  apply standing_updateGroup
  intro g
  rfl

theorem standing_autoPinContact (username key : String) :
    (h.autoPinContact username key).standing = h.standing := by
  unfold History.autoPinContact
  split
  · rfl
  split
  · rfl
  · exact standing_of_groups rfl

theorem standing_autoPinNamed (username key : String) :
    (h.autoPinNamed username key).standing = h.standing := by
  unfold History.autoPinNamed
  split
  · rfl
  · exact standing_autoPinContact h username key

theorem standing_markForwarded (forwarded : Bool) (peer msgId : String) :
    (h.markForwarded forwarded peer msgId).standing = h.standing := by
  unfold History.markForwarded
  split
  · exact standing_of_groups rfl
  · rfl

theorem standing_markGroupForwarded (forwarded : Bool) (gid msgId : String) :
    (h.markGroupForwarded forwarded gid msgId).standing = h.standing := by
  unfold History.markGroupForwarded
  split
  · exact standing_updateThread h gid _
  · rfl

theorem standing_holdGroupContent (gid sender : String) (content : HeldGroupContent) (now : ℕ) :
    (h.holdGroupContent gid sender content now).standing = h.standing := standing_of_groups rfl

theorem standing_screenInbound (convo claimed : String) (now : ℕ) :
    (h.screenInbound convo claimed now).2.standing = h.standing := by
  unfold History.screenInbound
  split
  · rfl
  split
  · split
    · rfl
    · exact standing_updateContactByKey h _ _
  · split
    · rfl
    · exact standing_of_groups rfl

theorem standing_screenKnock (convo claimed : String) (now : ℕ) :
    (h.screenKnock convo claimed now).standing = h.standing := by
  unfold History.screenKnock
  split
  · rfl
  split
  · exact standing_updateContactByKey h _ _
  · split
    · rfl
    · exact standing_of_groups rfl

theorem standing_screenCallOffer (senderKey claimed : String) (now : ℕ) :
    (h.screenCallOffer senderKey claimed now).2.standing = h.standing := by
  unfold History.screenCallOffer
  dsimp only
  split
  · rfl
  split
  · exact standing_updateContactByKey h _ _
  · split
    · rfl
    · exact standing_of_groups rfl

theorem standing_screenGroupInvite (convo : String) (invite : HeldInvite) (now : ℕ) :
    (h.screenGroupInvite convo invite now).2.standing = h.standing := by
  unfold History.screenGroupInvite
  split
  · rfl
  split
  · rfl
  · exact standing_updateContactByKey h _ _

theorem standing_screenRosterUpdate (now : ℕ) (sender : String) (epoch : GroupEpoch) (name : String)
    (secs : Option ℕ) (avatar : Option String) :
    (h.screenRosterUpdate now sender epoch name secs avatar).2.standing = h.standing := by
  unfold History.screenRosterUpdate
  split
  · rfl
  · exact standing_screenGroupInvite h _ _ _

theorem standing_adoptCarried (gid name : String) (avatar : Option String) (secs : Option ℕ) :
    (h.adoptCarried gid name avatar secs).standing = h.standing := by
  have hname := standing_setGroupName h gid name
  unfold History.adoptCarried
  dsimp only
  cases avatar with
  | none =>
    dsimp only
    split
    · exact hname
    · exact (standing_setGroupTimer _ gid _).trans hname
    · exact (standing_setGroupTimer _ gid _).trans hname
  | some a =>
    have havatar := (standing_setGroupAvatar (h.setGroupName gid name) gid (some a)).trans hname
    dsimp only
    split
    · exact havatar
    · exact (standing_setGroupTimer _ gid _).trans havatar
    · exact (standing_setGroupTimer _ gid _).trans havatar

end kept

/-! ### Replaying the quarantine -/

theorem standing_replayOne (h : History) (now : ℕ) (gid : String) (e : HeldGroupEvent) :
    (h.replayOne now gid e).standing = h.standing := by
  unfold History.replayOne
  cases e.content with
  | message msgId body sentAt expireSecs reply forwarded =>
    exact (standing_markGroupForwarded _ forwarded gid msgId).trans
      (standing_recordGroupMessage h _ _ _ _ _ _ _ _)
  | attachment msgId attachment sentAt expireSecs forwarded =>
    exact (standing_markGroupForwarded _ forwarded gid msgId).trans
      (standing_recordGroupAttachment h _ _ _ _ _ _ _)
  | reaction targetMsgId emoji add => exact standing_updateThread h gid _
  | edit msgId body => exact standing_updateThread h gid _
  | delete msgId => exact standing_updateThread h gid _

theorem standing_replayHeld (now : ℕ) (gid : String) : ∀ (es : List HeldGroupEvent) (h : History),
    (History.replayHeld now gid es h).2.standing = h.standing
  | [], _ => rfl
  | e :: es, h => by
    unfold History.replayHeld
    split
    · exact standing_replayHeld now gid es h
    · exact (standing_replayHeld now gid es _).trans (standing_replayOne h now gid e)

theorem standing_replayHeldGroupContent (h : History) (gid : String) (now : ℕ) :
    (h.replayHeldGroupContent gid now).standing = h.standing := by
  unfold History.replayHeldGroupContent
  dsimp only
  split
  · exact standing_of_groups rfl
  · rename_i held _
    have hloop := standing_replayHeld now gid held
      { h.pruneHeldGroupContent now with
        heldGroupContent := (h.pruneHeldGroupContent now).heldGroupContent.remove gid }
    have hstart : History.standing { h.pruneHeldGroupContent now with
        heldGroupContent := (h.pruneHeldGroupContent now).heldGroupContent.remove gid } = h.standing :=
      standing_of_groups rfl
    split
    · exact hloop.trans hstart
    · exact (standing_of_groups rfl).trans (hloop.trans hstart)

/-! ### Adoptions -/

/-- An adoption: the roster it found, and the epoch. -/
structure Adoption where
  before : Option GroupRoster
  epoch : GroupEpoch
deriving DecidableEq, Repr

namespace Adoption

variable (a : Adoption)

/-- The pin it found. -/
def pin : Option GroupAdmin := a.before.bind (·.admin)

/-- The creator is that of the pin, or the admin of a genesis. -/
def creator : Option String :=
  match a.pin with
  | some p => p.creatorAdminKey
  | none => if a.epoch.seq = 0 then some a.epoch.adminKey else none

/-- The pin it stored. -/
def stored : GroupAdmin := a.epoch.pin a.creator

def after : GroupRoster := ⟨membersFromEpoch a.epoch, some a.stored⟩

/-- The epoch passed: as a successor of the pin, or as the first of its group. -/
def Valid (C : Crypto) : Prop :=
  match a.pin with
  | some p => a.epoch.verifySuccession C p.epochSeq p.adminKey = .ok ()
  | none => a.epoch.validateBaseline C = .ok ()

end Adoption

/-- Between two adoptions members may leave, and the pin stays. -/
def epochRules (C : Crypto) : Pinned.Rules GroupRoster Adoption where
  before := Adoption.before
  after := Adoption.after
  good a := a.Valid C
  drift r r' := r'.members.Sublist r.members ∧ r'.admin = r.admin
  drift_refl _ := ⟨List.Sublist.refl _, rfl⟩
  drift_trans h h' := ⟨h'.1.trans h.1, h'.2.trans h.2⟩

theorem GroupRecord.install_roster (g : GroupRecord) (e : GroupEpoch) (creator : Option String) :
    (g.install e creator).roster = ⟨membersFromEpoch e, some (e.pin creator)⟩ := rfl

/-- The group that is set is the only one whose roster changes. -/
theorem roster_set (h : History) (gid : String) (g : GroupRecord) (j : String) :
    { h with groups := h.groups.set gid g }.roster j =
      if j = gid then some g.roster else h.roster j := by
  unfold History.roster
  rw [Table.get_set]
  split <;> rfl

theorem roster_update (h : History) {gid : String} {g : GroupRecord}
    (hg : h.groups.get gid = some g) (f : GroupRecord → GroupRecord) (j : String) :
    (h.updateGroup gid f).roster j = if j = gid then some (f g).roster else h.roster j := by
  unfold History.updateGroup History.roster
  rw [Table.get_modify, hg]
  split <;> rfl

/-- What a call of `adoptGroupEpoch` does: it refuses and changes nothing, or
the epoch passed and its roster is stored, and that of no other group. -/
theorem adopt_cases (C : Crypto) (h : History) (now : ℕ) (e : GroupEpoch) :
    (∃ err, h.adoptGroupEpoch C now e = (.refused err, h)) ∨
      ∃ h', h.adoptGroupEpoch C now e = (if (h.groupAdmin e.groupId).isSome then .advanced else .created, h') ∧
        (Adoption.mk (h.roster e.groupId) e).Valid C ∧
        ∀ gid, h'.roster gid =
          if gid = e.groupId then some (Adoption.mk (h.roster e.groupId) e).after else h.roster gid := by
  have hpin : (Adoption.mk (h.roster e.groupId) e).pin = h.groupAdmin e.groupId :=
    (h.groupAdmin_eq e.groupId).symm
  unfold History.adoptGroupEpoch
  split
  · rename_i p hp
    split
    · exact Or.inl ⟨_, rfl⟩
    · rename_i hok
      refine Or.inr ⟨_, by rw [hp]; rfl, ?_, ?_⟩
      · simpa [Adoption.Valid, hpin, hp] using hok
      · intro gid
        have hcreator : (Adoption.mk (h.roster e.groupId) e).creator = p.creatorAdminKey := by
          simp [Adoption.creator, hpin, hp]
        obtain ⟨g, hg, -⟩ := groupAdmin_some hp
        rw [roster_of_standing (standing_replayHeldGroupContent _ _ _), roster_update h hg,
          GroupRecord.install_roster, Adoption.after, Adoption.stored, hcreator]
  · rename_i hp
    split
    · exact Or.inl ⟨_, rfl⟩
    · rename_i hok
      refine Or.inr ⟨_, by rw [hp]; rfl, ?_, ?_⟩
      · simpa [Adoption.Valid, hpin, hp] using hok
      · intro gid
        have hcreator : (Adoption.mk (h.roster e.groupId) e).creator =
            if e.seq = 0 then some e.adminKey else none := by
          simp [Adoption.creator, hpin, hp]
        rw [roster_of_standing (standing_replayHeldGroupContent _ _ _), roster_set,
          GroupRecord.install_roster, Adoption.after, Adoption.stored, hcreator]

/-! ### The adoptions of an operation -/

namespace History

variable (C : Crypto)

/-- The adoption of a call: none if it refuses. -/
def adoptions (h : History) (now : ℕ) (e : GroupEpoch) : List Adoption :=
  match h.adoptGroupEpoch C now e with
  | (.refused _, _) => []
  | _ => [⟨h.roster e.groupId, e⟩]

/-- The loop over the invites of a request. -/
def inviteAdoptions (now : ℕ) : List HeldInvite → History → List Adoption
  | [], _ => []
  | inv :: invs, h => h.adoptions C now inv.epoch ++ inviteAdoptions now invs (h.acceptInvite C now inv)

def acceptAdoptions (h : History) (now : ℕ) (key : String) : List Adoption :=
  match h.promote key with
  | none => []
  | some (req, _, h) => inviteAdoptions C now req.invites h

def acceptForKeyAdoptions (h : History) (now : ℕ) (convo : String) : List Adoption :=
  match h.pendingKey convo with
  | some key => h.acceptAdoptions C now key
  | none => []

/-- The loop over the requests that are pending. -/
def acceptAllAdoptions (now : ℕ) : List String → History → List Adoption
  | [], _ => []
  | key :: keys, h => h.acceptAdoptions C now key ++ acceptAllAdoptions now keys (h.acceptRequest C now key).2

def applyAdoptions (h : History) (now : ℕ) : InboundEvent → List Adoption
  | .groupRosterUpdate sender epoch name disappearingSecs avatar =>
    match h.screenRosterUpdate now sender epoch name disappearingSecs avatar with
    | (true, _) => []
    | (false, h) => h.adoptions C now epoch
  | .selfSentText sender peerKey _ _ _ _ _ _ _ =>
    if h.isOwnDevice sender then h.acceptForKeyAdoptions C now peerKey else []
  | .selfSentFile sender peerKey _ _ _ _ _ =>
    if h.isOwnDevice sender then h.acceptForKeyAdoptions C now peerKey else []
  | _ => []

def stepAdoptions (h : History) (now : ℕ) : HistoryOp → List Adoption
  | .adoptGroupEpoch epoch => h.adoptions C now epoch
  | .apply event => h.applyAdoptions C now event
  | .setRequestPrefs enabled allowText =>
    let h := { h with openMessaging := !enabled, requestTextAllowed := allowText }
    if enabled then [] else acceptAllAdoptions C now h.pendingKeys h
  | .acceptRequest key => h.acceptAdoptions C now key
  | .acceptRequestForKey convo => h.acceptForKeyAdoptions C now convo
  | _ => []

/-- The adoptions of a run, in their order. -/
def runAdoptions (h : History) : List (ℕ × HistoryOp) → List Adoption
  | [] => []
  | op :: ops => h.stepAdoptions C op.1 op.2 ++ runAdoptions (h.step C op.1 op.2) ops

end History

/-- The adoptions for one group. -/
def ofGroup (gid : String) (as : List Adoption) : List Adoption :=
  as.filter fun a => a.epoch.groupId = gid

@[simp] theorem ofGroup_nil (gid : String) : ofGroup gid [] = [] := rfl

@[simp] theorem ofGroup_append (gid : String) (as bs : List Adoption) :
    ofGroup gid (as ++ bs) = ofGroup gid as ++ ofGroup gid bs := List.filter_append _ _

/-! ### Steps move the roster by their adoptions -/

section moves

variable {C : Crypto} {gid : String}

/-- From `h` to `h'` the group moves by the adoptions `as`. -/
def GroupMoves (C : Crypto) (gid : String) (h : History) (as : List Adoption) (h' : History) :
    Prop :=
  Pinned.Moves (epochRules C) (h.roster gid) (ofGroup gid as) (h'.roster gid)

theorem GroupMoves.trans {h h' h'' : History} {as bs : List Adoption}
    (hm : GroupMoves C gid h as h') (hm' : GroupMoves C gid h' bs h'') :
    GroupMoves C gid h (as ++ bs) h'' := by
  unfold GroupMoves
  rw [ofGroup_append]
  exact Pinned.Moves.trans hm hm'

theorem GroupMoves.of_standing {h h' : History} (hs : h'.standing = h.standing) :
    GroupMoves C gid h [] h' := by
  apply Pinned.Moves.nil
  rw [roster_of_standing hs]
  exact Pinned.Rules.Keeps.refl _

/-- What keeps the roster may go before or behind. -/
theorem GroupMoves.behind {h h' h'' : History} {as : List Adoption} (hm : GroupMoves C gid h as h')
    (hr : h''.roster = h'.roster) : GroupMoves C gid h as h'' := by
  unfold GroupMoves at hm ⊢
  rwa [hr]

theorem GroupMoves.before {h h' h'' : History} {as : List Adoption} (hs : h'.standing = h.standing)
    (hm : GroupMoves C gid h' as h'') : GroupMoves C gid h as h'' := by
  unfold GroupMoves at hm ⊢
  rwa [← roster_of_standing hs]

theorem moves_adopt (h : History) (now : ℕ) (e : GroupEpoch) :
    GroupMoves C gid h (h.adoptions C now e) (h.adoptGroupEpoch C now e).2 := by
  unfold History.adoptions
  rcases adopt_cases C h now e with ⟨err, heq⟩ | ⟨h', heq, hvalid, hroster⟩
  · rw [heq]
    exact GroupMoves.of_standing rfl
  · rw [heq]
    have hlog : (match ((if (h.groupAdmin e.groupId).isSome then .advanced else .created : GroupEpochOutcome), h') with
        | (.refused _, _) => []
        | _ => [(⟨h.roster e.groupId, e⟩ : Adoption)]) = [⟨h.roster e.groupId, e⟩] := by
      cases (h.groupAdmin e.groupId).isSome <;> rfl
    rw [hlog]
    unfold GroupMoves ofGroup
    by_cases hgid : e.groupId = gid
    · subst hgid
      have hlast : h'.roster e.groupId = some (Adoption.mk (h.roster e.groupId) e).after := by
        rw [hroster, if_pos rfl]
      have hone : Pinned.Moves (epochRules C) (h.roster e.groupId) [⟨h.roster e.groupId, e⟩]
          (h'.roster e.groupId) := by
        rw [hlast]
        exact Pinned.Moves.single (R := epochRules C) (a := ⟨h.roster e.groupId, e⟩) hvalid
          (Pinned.Rules.Keeps.refl _)
      simpa using hone
    · have hother : h'.roster gid = h.roster gid := by
        rw [hroster, if_neg (Ne.symm hgid)]
      rw [hother]
      simpa [hgid] using Pinned.Moves.nil (Pinned.Rules.Keeps.refl _)

/-- What an invite carries besides its epoch touches no roster. -/
theorem standing_acceptInvite (h : History) (now : ℕ) (inv : HeldInvite) :
    (h.acceptInvite C now inv).standing = (h.adoptGroupEpoch C now inv.epoch).2.standing := by
  unfold History.acceptInvite
  split
  · rename_i h' heq
    rw [heq]
  · rename_i h' _ heq
    rw [heq]
    exact standing_adoptCarried _ _ _ _ _

theorem moves_acceptInvite (h : History) (now : ℕ) (inv : HeldInvite) :
    GroupMoves C gid h (h.adoptions C now inv.epoch) (h.acceptInvite C now inv) :=
  (moves_adopt h now inv.epoch).behind (roster_of_standing (standing_acceptInvite h now inv))

theorem moves_invites (now : ℕ) : ∀ (invs : List HeldInvite) (h : History),
    GroupMoves C gid h (History.inviteAdoptions C now invs h) (invs.foldl (fun h inv => h.acceptInvite C now inv) h)
  | [], _ => GroupMoves.of_standing rfl
  | inv :: invs, h => (moves_acceptInvite h now inv).trans (moves_invites now invs _)

/-- An accepted request changes the contacts. -/
theorem promote_contacts {h h' : History} {key peer : String} {req : PendingRequest}
    (hp : h.promote key = some (req, peer, h')) : h' = { h with contacts := h'.contacts } := by
  unfold History.promote at hp
  split at hp
  · cases hp
  split at hp
  · cases hp
  dsimp only at hp
  split at hp
  · cases hp
  · cases hp
    rfl

theorem standing_promote {h h' : History} {key peer : String} {req : PendingRequest}
    (hp : h.promote key = some (req, peer, h')) : h'.standing = h.standing := by
  rw [promote_contacts hp]
  exact standing_of_groups rfl

theorem moves_acceptRequest (h : History) (now : ℕ) (key : String) :
    GroupMoves C gid h (h.acceptAdoptions C now key) (h.acceptRequest C now key).2 := by
  unfold History.acceptAdoptions History.acceptRequest
  rcases hp : h.promote key with _ | ⟨req, peer, h'⟩
  · exact GroupMoves.of_standing rfl
  · refine GroupMoves.before (standing_promote hp) ((moves_invites now req.invites h').behind ?_)
    exact roster_of_standing (standing_of_groups rfl)

theorem moves_acceptRequestForKey (h : History) (now : ℕ) (convo : String) :
    GroupMoves C gid h (h.acceptForKeyAdoptions C now convo) (h.acceptRequestForKey C now convo).2 := by
  unfold History.acceptForKeyAdoptions History.acceptRequestForKey
  cases h.pendingKey convo with
  | none => exact GroupMoves.of_standing rfl
  | some key => exact moves_acceptRequest h now key

theorem moves_acceptAll (now : ℕ) : ∀ (keys : List String) (h : History),
    GroupMoves C gid h (History.acceptAllAdoptions C now keys h)
      (keys.foldl (fun h key => (h.acceptRequest C now key).2) h)
  | [], _ => GroupMoves.of_standing rfl
  | key :: keys, h => (moves_acceptRequest h now key).trans (moves_acceptAll now keys _)

/-! ### Events -/

theorem standing_screened {h : History} {now : ℕ} {convo claimed : String} {f : History → History}
    (hf : ∀ h, (f h).standing = h.standing) :
    (h.screened now convo claimed f).standing = h.standing := by
  have hscreen := standing_screenInbound h convo claimed now
  unfold History.screened
  split
  · rename_i h' heq
    rw [heq] at hscreen
    exact hscreen
  · rename_i h' _ heq
    rw [heq] at hscreen
    exact (hf _).trans ((standing_autoPinNamed _ _ _).trans hscreen)

theorem standing_rosterGated {h : History} {now : ℕ} {groupId sender : String}
    {content : HeldGroupContent} {f : History → History} (hf : ∀ h, (f h).standing = h.standing) :
    (h.rosterGated now groupId sender content f).standing = h.standing := by
  unfold History.rosterGated
  split
  · exact standing_holdGroupContent h _ _ _ _
  · exact hf h

theorem standing_fromMember {h : History} {groupId sender : String} {f : History → History}
    (hf : ∀ h, (f h).standing = h.standing) :
    (h.fromMember groupId sender f).standing = h.standing := by
  unfold History.fromMember
  split
  · exact hf h
  · rfl

theorem standing_fromOwnDevice {h : History} {sender : String} {f : History → History}
    (hf : ∀ h, (f h).standing = h.standing) : (h.fromOwnDevice sender f).standing = h.standing := by
  unfold History.fromOwnDevice
  split
  · exact hf h
  · rfl

theorem standing_groupRename (h : History) (now : ℕ) (sender groupId name : String) :
    (h.groupRename now sender groupId name).standing = h.standing := by
  have hname := standing_renameGroup h groupId name
  unfold History.groupRename
  split
  · rfl
  split
  · rfl
  split
  · rename_i h' heq
    rw [heq] at hname
    exact (standing_updateThread h' _ _).trans hname
  · rename_i h' heq
    rw [heq] at hname
    exact hname

theorem roster_noteMembership (h : History) (now : ℕ) (epoch : GroupEpoch) (wasMember : Bool) :
    (h.noteMembership now epoch wasMember).roster = h.roster := by
  unfold History.noteMembership
  dsimp only
  split
  · exact (roster_of_standing (standing_updateThread _ _ _)).trans (roster_setGroupLeft h _ _)
  split
  · exact (roster_of_standing (standing_updateThread _ _ _)).trans (roster_setGroupLeft h _ _)
  · rfl

/-- A roster less one member. -/
def GroupRoster.without (r : GroupRoster) (key : String) : GroupRoster :=
  { r with members := r.members.eraseP (·.identityKey = key) }

/-- A member who is taken off the list leaves the pin and the others. -/
theorem roster_removeGroupMember (h : History) (groupId memberKey j : String) :
    (h.removeGroupMember groupId memberKey).2.roster j =
      (h.roster j).map fun r => if j = groupId then r.without memberKey else r := by
  have hget := Table.get_modify h.groups groupId j
    fun g => { g with members := g.members.eraseP (·.identityKey = memberKey) }
  unfold History.roster
  rw [show (h.removeGroupMember groupId memberKey).2.groups.get j = _ from hget]
  by_cases hj : j = groupId
  · subst hj
    cases h.groups.get j <;> simp [GroupRecord.roster, GroupRoster.without]
  · cases h.groups.get j <;> simp [hj]

/-- One who sends that they left is taken off the list, if they are on it and
no device of the user. -/
theorem roster_groupLeave (h : History) (now : ℕ) (sender groupId j : String) :
    (h.groupLeave now sender groupId).roster j = h.roster j ∨
      (h.groupLeave now sender groupId).roster j =
        (h.roster j).map fun r => if j = groupId then r.without sender else r := by
  have hremove := roster_removeGroupMember h groupId sender j
  unfold History.groupLeave
  split
  · exact Or.inl rfl
  split
  · exact Or.inl (congrFun ((roster_of_standing (standing_updateThread _ _ _)).trans (roster_setGroupLeft h _ _)) j)
  right
  split
  · rename_i heq
    rw [heq] at hremove
    exact (congrFun (roster_of_standing (standing_updateThread _ _ _)) j).trans hremove
  · rename_i heq
    rw [heq] at hremove
    exact hremove

theorem moves_without (h h' : History) (groupId key : String)
    (hr : h'.roster gid = (h.roster gid).map fun r => if gid = groupId then r.without key else r) :
    GroupMoves C gid h [] h' := by
  apply Pinned.Moves.nil
  intro r hsome
  rw [hsome] at hr
  refine ⟨_, hr, ?_⟩
  dsimp only
  by_cases hj : gid = groupId
  · rw [if_pos hj]
    exact ⟨List.eraseP_sublist, rfl⟩
  · rw [if_neg hj]
    exact (epochRules C).drift_refl r

theorem moves_removeGroupMember (h : History) (groupId memberKey : String) :
    GroupMoves C gid h [] (h.removeGroupMember groupId memberKey).2 :=
  moves_without h _ groupId memberKey (roster_removeGroupMember h groupId memberKey gid)

theorem moves_groupLeave (h : History) (now : ℕ) (sender groupId : String) :
    GroupMoves C gid h [] (h.groupLeave now sender groupId) := by
  rcases roster_groupLeave h now sender groupId gid with hkept | hleft
  · apply Pinned.Moves.nil
    rw [hkept]
    exact Pinned.Rules.Keeps.refl _
  · exact moves_without h _ groupId sender hleft

/-- Nor does what is noted about an epoch that came in. -/
theorem roster_rosterUpdate (h : History) (now : ℕ) (epoch : GroupEpoch) (name : String)
    (secs : Option ℕ) (avatar : Option String) :
    (h.rosterUpdate C now epoch name secs avatar).roster =
      (h.adoptGroupEpoch C now epoch).2.roster := by
  unfold History.rosterUpdate
  dsimp only
  split
  · rename_i heq
    rw [heq]
    exact roster_of_standing (standing_adoptCarried _ _ _ _ _)
  · rename_i heq
    rw [heq]
    exact roster_noteMembership _ _ _ _
  · rename_i heq
    rw [heq]

theorem moves_rosterUpdate (h : History) (now : ℕ) (epoch : GroupEpoch) (name : String)
    (secs : Option ℕ) (avatar : Option String) :
    GroupMoves C gid h (h.adoptions C now epoch) (h.rosterUpdate C now epoch name secs avatar) :=
  (moves_adopt h now epoch).behind (roster_rosterUpdate h now epoch name secs avatar)

theorem moves_groupRosterUpdate (h : History) (now : ℕ) (sender : String) (epoch : GroupEpoch)
    (name : String) (secs : Option ℕ) (avatar : Option String) :
    GroupMoves C gid h (h.applyAdoptions C now (.groupRosterUpdate sender epoch name secs avatar))
      (h.apply C now (.groupRosterUpdate sender epoch name secs avatar)) := by
  have hscreen := standing_screenRosterUpdate h now sender epoch name secs avatar
  rcases hs : h.screenRosterUpdate now sender epoch name secs avatar with ⟨taken, h'⟩
  rw [hs] at hscreen
  simp only [History.applyAdoptions, History.apply, hs]
  cases taken with
  | true => exact GroupMoves.of_standing hscreen
  | false => exact GroupMoves.before hscreen (moves_rosterUpdate h' now epoch name secs avatar)

/-- The user answered from another device: that accepts a request, and the copy is recorded. -/
theorem moves_selfSent (f : History → History) (hf : ∀ h, (f h).standing = h.standing) (h : History)
    (now : ℕ) (sender peerKey : String) :
    GroupMoves C gid h (if h.isOwnDevice sender then h.acceptForKeyAdoptions C now peerKey else [])
      (h.fromOwnDevice sender fun h => f (h.acceptRequestForKey C now peerKey).2) := by
  unfold History.fromOwnDevice
  split
  · exact (moves_acceptRequestForKey h now peerKey).behind (roster_of_standing (hf _))
  · exact GroupMoves.of_standing rfl

theorem standing_renameContact (h : History) (identityKey newUsername : String) :
    (h.renameContact identityKey newUsername).2.standing = h.standing := by
  unfold History.renameContact
  split
  · rfl
  split
  · rfl
  · exact standing_of_groups rfl

/-- The events that may change who is in a group: an epoch, a member who leaves,
and what the user sent elsewhere, for that accepts a request. -/
def InboundEvent.onRosters : InboundEvent → Bool
  | .groupRosterUpdate .. | .groupMemberLeft .. | .selfSentText .. | .selfSentFile .. => true
  | _ => false

/-- All others leave every roster as it is. -/
theorem standing_apply (h : History) (now : ℕ) {event : InboundEvent}
    (hev : event.onRosters = false) :
    (h.apply C now event).standing = h.standing := by
  cases event with
  | groupRosterUpdate | groupMemberLeft | selfSentText | selfSentFile => cases hev
  | message sender username msgId body sentAt reply expireSecs forwarded =>
    exact standing_screened fun _ => (standing_markForwarded _ _ _ _).trans (standing_of_groups rfl)
  | attachment sender username msgId attachment sentAt expireSecs forwarded =>
    exact standing_screened fun _ => (standing_markForwarded _ _ _ _).trans (standing_of_groups rfl)
  | forwardedIncoming sender fromKey fromUsername msgId body sentAt reply attachment expireSecs =>
    refine standing_fromOwnDevice fun h => standing_screened fun h => ?_
    cases attachment <;> exact standing_of_groups rfl
  | groupMessage sender groupId msgId body sentAt expireSecs reply forwarded =>
    exact standing_rosterGated fun h =>
      (standing_markGroupForwarded _ _ _ _).trans (standing_recordGroupMessage h _ _ _ _ _ _ _ _)
  | groupAttachment sender groupId msgId attachment sentAt expireSecs forwarded =>
    exact standing_rosterGated fun h =>
      (standing_markGroupForwarded _ _ _ _).trans (standing_recordGroupAttachment h _ _ _ _ _ _ _)
  | groupMessageEdited sender groupId msgId body =>
    exact standing_rosterGated fun h => standing_updateThread h _ _
  | groupMessageDeleted sender groupId msgId =>
    exact standing_rosterGated fun h => standing_updateThread h _ _
  | groupReaction sender groupId targetMsgId emoji add =>
    unfold History.apply
    dsimp only
    split
    · exact standing_updateThread h _ _
    · exact standing_rosterGated fun h => standing_updateThread h _ _
  | groupMessagePinned sender groupId msgId pin =>
    exact standing_fromMember fun h => standing_updateThread h _ _
  | groupTimerUpdate sender groupId secs =>
    exact standing_fromMember fun h => standing_setGroupTimer h _ _
  | groupAvatarUpdate sender groupId avatar =>
    exact standing_fromMember fun h => standing_setGroupAvatar h _ _
  | groupRenamed sender groupId name => exact standing_groupRename h now _ groupId name
  | knock sender username => exact standing_screenKnock h _ username now
  | profileUpdate sender avatar => exact standing_updateContactByKey h _ _
  | renamed sender newUsername =>
    unfold History.apply
    dsimp only
    split
    · rfl
    · exact standing_renameContact h _ _
  | timerUpdate sender secs =>
    unfold History.apply
    dsimp only
    split
    · rfl
    · exact standing_of_groups rfl
  | messagePinned sender msgId pin =>
    unfold History.apply
    dsimp only
    split
    · rfl
    · exact standing_of_groups rfl
  -- the copies of what the user did elsewhere touch no group
  | selfReadSeen | selfTimerUpdate | selfReaction | selfProfileUpdate | selfMessagePinned =>
    exact standing_fromOwnDevice fun h => standing_of_groups rfl
  | messageEdited | messageDeleted | receipt | chatDeleted | reaction | other => exact standing_of_groups rfl

/-- What is recorded of a text or a file that the user sent elsewhere. -/
theorem standing_sentText (h : History) (now : ℕ) (peerKey peerUsername msgId body : String)
    (sentAt : ℕ) (reply : Option ReplyRef) (expireSecs : Option ℕ) (forwarded : Bool) :
    (((h.autoPinNamed peerUsername peerKey).recordFull now peerKey .outgoing msgId body sentAt reply
      expireSecs).markForwarded forwarded peerKey msgId).standing = h.standing :=
  (standing_markForwarded _ _ _ _).trans ((standing_of_groups rfl).trans (standing_autoPinNamed h _ _))

theorem standing_sentFile (h : History) (now : ℕ) (peerKey peerUsername msgId : String)
    (attachment : AttachmentRef) (sentAt : ℕ) (expireSecs : Option ℕ) (forwarded : Bool) :
    (((h.autoPinNamed peerUsername peerKey).recordAttachment now peerKey .outgoing msgId attachment sentAt
      expireSecs).markForwarded forwarded peerKey msgId).standing = h.standing :=
  (standing_markForwarded _ _ _ _).trans ((standing_of_groups rfl).trans (standing_autoPinNamed h _ _))

theorem moves_apply (h : History) (now : ℕ) (event : InboundEvent) :
    GroupMoves C gid h (h.applyAdoptions C now event) (h.apply C now event) := by
  cases event with
  | groupRosterUpdate sender epoch name secs avatar =>
    exact moves_groupRosterUpdate h now sender epoch name secs avatar
  | groupMemberLeft sender groupId => exact moves_groupLeave h now _ groupId
  | selfSentText sender peerKey peerUsername msgId body sentAt reply expireSecs forwarded =>
    exact moves_selfSent _ (fun h => standing_sentText h now peerKey peerUsername msgId body sentAt reply expireSecs
      forwarded) h now sender peerKey
  | selfSentFile sender peerKey peerUsername msgId attachment expireSecs forwarded =>
    exact moves_selfSent _ (fun h => standing_sentFile h now peerKey peerUsername msgId attachment attachment.ts
      expireSecs forwarded) h now sender peerKey
  | _ => exact GroupMoves.of_standing (standing_apply h now rfl)

/-! ### Steps and runs -/

/-- Nothing but the pinned rosters and the owners of devices differs. -/
def OnlyPins (h h' : History) : Prop :=
  h' = { h with contactRosters := h'.contactRosters, deviceOwner := h'.deviceOwner }

namespace OnlyPins

theorem clearPinnedRoster (h : History) (username : String) :
    OnlyPins h (h.clearPinnedRoster username) := by
  unfold History.clearPinnedRoster
  split <;> rfl

theorem pinRoster (h : History) (username : String) (bindingSeq seq : ℕ) (primaryKey : String)
    (devices : List RosterDevice) :
    OnlyPins h (h.pinRoster username bindingSeq seq primaryKey devices).2 := by
  unfold History.pinRoster
  dsimp only
  split
  · rfl
  split <;> rfl

theorem applyRosterUpdate (h : History) (username : String) (update : RosterUpdate) :
    OnlyPins h (h.applyRosterUpdate username update).2 := by
  cases update with
  | stale => rfl
  | verified bindingSeq seq primaryKey devices =>
    exact pinRoster h username bindingSeq seq primaryKey devices
  | absent primaryKey bindingSeq =>
    unfold History.applyRosterUpdate
    dsimp only
    split
    · rfl
    split
    · exact clearPinnedRoster h username
    · rfl

theorem standing_eq {h h' : History} (honly : OnlyPins h h') : h'.standing = h.standing := by
  rw [honly]
  exact standing_of_groups rfl

theorem held_eq {h h' : History} (honly : OnlyPins h h') :
    h'.heldGroupContent = h.heldGroupContent := by
  rw [honly]

end OnlyPins

theorem standing_declineRequest (h : History) (key : String) (block : Bool) :
    (h.declineRequest key block).2.standing = h.standing := by
  unfold History.declineRequest
  split
  · rfl
  split
  · rfl
  · exact standing_of_groups rfl

theorem standing_requestNeedsNotify (h : History) (convo : String) :
    (h.requestNeedsNotify convo).2.standing = h.standing := by
  unfold History.requestNeedsNotify
  split
  · rfl
  · exact standing_updateContactByKey h _ _

theorem standing_outboxPush (h : History) (envelopes : List Envelope) (dueAt : ℕ) :
    (h.outboxPush envelopes dueAt).standing = h.standing := by
  unfold History.outboxPush
  exact standing_of_groups rfl

theorem standing_callOutboxPush (h : History) (envelopes : List Envelope) (now : ℕ) :
    (h.callOutboxPush envelopes now).2.standing = h.standing := by
  unfold History.callOutboxPush
  exact standing_of_groups rfl

theorem standing_reapWithChats (h : History) (now : ℕ) :
    (h.reapWithChats now).2.standing = h.standing := by
  apply standing_mapGroups (f := fun g => { g with messages := g.messages.filter fun m => !m.expired now })
  · intro g
    rfl
  · rfl

theorem standing_normalizeMessageOrder (h : History) :
    h.normalizeMessageOrder.standing = h.standing := by
  apply standing_mapGroups (f := fun g => { g with messages := sortThread g.messages })
  · intro g
    rfl
  · rfl

/-- A merge brings groups that were not known, and changes none. -/
theorem moves_mergeFrom (h other : History) : GroupMoves C gid h [] (h.mergeFrom other) := by
  apply Pinned.Moves.nil
  intro r hr
  obtain ⟨g, hg, rfl⟩ := roster_some hr
  have hkept : (h.mergeFrom other).roster gid = some g.roster :=
    congrArg (Option.map GroupRecord.roster) (Table.get_orInsertAll_of_some other.groups hg)
  exact ⟨_, hkept, (epochRules C).drift_refl _⟩

theorem moves_deleteGroup (h : History) {groupId : String} (hne : groupId ≠ gid) :
    GroupMoves C gid h [] (h.deleteGroup groupId) := by
  have hother : (h.deleteGroup groupId).roster gid = h.roster gid :=
    congrArg (Option.map GroupRecord.roster) (Table.get_remove_ne h.groups (Ne.symm hne))
  apply Pinned.Moves.nil
  rw [hother]
  exact Pinned.Rules.Keeps.refl _

/-- The operations that may change where the user stands with a group. -/
def HistoryOp.onStandings : HistoryOp → Bool
  | .adoptGroupEpoch .. | .apply .. | .acceptRequest .. | .acceptRequestForKey .. | .setRequestPrefs ..
  | .deleteGroup .. | .setGroupLeft .. | .removeGroupMember .. | .mergeFrom .. => true
  | _ => false

/-- All others leave that as it is. -/
theorem standing_step (h : History) (now : ℕ) {op : HistoryOp} (hop : op.onStandings = false) :
    (h.step C now op).standing = h.standing := by
  cases op with
  | adoptGroupEpoch | apply | acceptRequest | acceptRequestForKey | setRequestPrefs | deleteGroup | setGroupLeft
  | removeGroupMember | mergeFrom => cases hop
  | setGroupName groupId name => exact standing_setGroupName h groupId name
  | renameGroup groupId name => exact standing_renameGroup h groupId name
  | autoPinContact username key => exact standing_autoPinContact h username key
  | renameContact key newUsername => exact standing_renameContact h key newUsername
  | screenInbound convo claimed => exact standing_screenInbound h convo claimed now
  | screenKnock convo claimed => exact standing_screenKnock h convo claimed now
  | screenCallOffer senderKey claimed => exact standing_screenCallOffer h senderKey claimed now
  | declineRequest key block => exact standing_declineRequest h key block
  | requestNeedsNotify convo => exact standing_requestNeedsNotify h convo
  | clearPinnedRoster username => exact (OnlyPins.clearPinnedRoster h username).standing_eq
  | pinRoster username bindingSeq seq primaryKey devices =>
    exact (OnlyPins.pinRoster h username bindingSeq seq primaryKey devices).standing_eq
  | applyRosterUpdate username update =>
    exact (OnlyPins.applyRosterUpdate h username update).standing_eq
  | outboxPush envelopes dueAt => exact standing_outboxPush h envelopes dueAt
  | callOutboxPush envelopes => exact standing_callOutboxPush h envelopes now
  | reap => exact standing_reapWithChats h now
  | normalizeMessageOrder => exact standing_normalizeMessageOrder h
  | setContactAvatar | markSessionReset => exact standing_updateContactByKey h _ _
  -- changes of a group beside its roster
  | setGroupTimer | setGroupAvatar | setGroupMuted | setGroupPinned | setGroupArchived
  | setGroupManualUnread | recordGroupMessage | recordGroupAttachment | recordGroupSystem | recordGroupCallEvent
  | reactGroup | setGroupMsgPinned | setGroupForwarded | editGroupLocal | applyIncomingGroupEdit
  | deleteGroupMessage | applyIncomingGroupDelete | markGroupSeen =>
    apply standing_updateGroup
    intro g
    rfl
  -- the rest touches no group
  | _ => exact standing_of_groups rfl

/-- **One operation moves the group by its adoptions**, unless it deletes it. -/
theorem step_moves (h : History) (now : ℕ) (op : HistoryOp) (hop : op ≠ .deleteGroup gid) :
    GroupMoves C gid h (h.stepAdoptions C now op) (h.step C now op) := by
  cases op with
  | adoptGroupEpoch epoch => exact moves_adopt h now epoch
  | apply event => exact moves_apply h now event
  | acceptRequest key => exact moves_acceptRequest h now key
  | acceptRequestForKey convo => exact moves_acceptRequestForKey h now convo
  | setRequestPrefs enabled allowText =>
    refine GroupMoves.before (standing_of_groups rfl :
      History.standing { h with openMessaging := !enabled, requestTextAllowed := allowText } = h.standing) ?_
    unfold History.stepAdoptions History.step History.setRequestPrefs
    dsimp only
    cases enabled with
    | true => exact GroupMoves.of_standing rfl
    | false => exact moves_acceptAll now _ _
  | deleteGroup groupId => exact moves_deleteGroup h (by rintro rfl; exact hop rfl)
  | setGroupLeft groupId left =>
    exact (GroupMoves.of_standing rfl).behind (roster_setGroupLeft h groupId left)
  | removeGroupMember groupId memberKey => exact moves_removeGroupMember h groupId memberKey
  | mergeFrom other => exact moves_mergeFrom h other
  | _ => exact GroupMoves.of_standing (standing_step h now rfl)

/-- **A run moves the group by its adoptions.** -/
theorem run_moves :
    ∀ (ops : List (ℕ × HistoryOp)) (h : History), (∀ op ∈ ops, op.2 ≠ .deleteGroup gid) →
    GroupMoves C gid h (h.runAdoptions C ops) (h.run C ops)
  | [], h, _ => GroupMoves.of_standing rfl
  | op :: ops, h, hops => by
    have hstep := step_moves (C := C) h op.1 op.2 (hops op (by simp))
    have hrest := run_moves ops (h.step C op.1 op.2) fun o ho => hops o (by simp [ho])
    exact hstep.trans hrest

end moves

/-! ### The chain -/

section chain

variable {C : Crypto} {a : Adoption} {p : GroupAdmin}

/-- The epoch comes later than the pin, names its admin and is signed by them. -/
structure GroupEpoch.Succeeds (C : Crypto) (e : GroupEpoch) (p : GroupAdmin) : Prop where
  later : p.epochSeq < e.seq
  names : e.prevAdminKey = some p.adminKey
  signed : C.verifyEd25519 p.adminKey e.signingPayload e.signature = true

theorem Adoption.Valid.succeeds (hv : a.Valid C) (hp : a.pin = some p) : a.epoch.Succeeds C p := by
  unfold Adoption.Valid at hv
  rw [hp] at hv
  obtain ⟨-, hlater, hnames, hsig⟩ := GroupEpoch.verifySuccession_ok.mp hv
  refine ⟨hlater, hnames, ?_⟩
  have hsigner : a.epoch.signer = p.adminKey := by simp [GroupEpoch.signer, hnames]
  rwa [GroupEpoch.verifySignature, hsigner] at hsig

theorem Adoption.Valid.baseline (hv : a.Valid C) (hp : a.pin = none) :
    a.epoch.validateBaseline C = .ok () := by
  unfold Adoption.Valid at hv
  rwa [hp] at hv

theorem Adoption.creator_of_pin (hp : a.pin = some p) : a.creator = p.creatorAdminKey := by
  simp [Adoption.creator, hp]

/-- The pin is at least as far, and the creator is the same. -/
def GroupRoster.Below (r r' : GroupRoster) : Prop :=
  ∀ p, r.admin = some p → ∃ p', r'.admin = some p' ∧ p.epochSeq ≤ p'.epochSeq ∧
  p'.creatorAdminKey = p.creatorAdminKey

theorem GroupRoster.Below.trans {r r' r'' : GroupRoster} (h : r.Below r') (h' : r'.Below r'') :
    r.Below r'' := by
  intro p hp
  obtain ⟨p', hp', hseq, hcreator⟩ := h p hp
  obtain ⟨p'', hp'', hseq', hcreator'⟩ := h' p' hp'
  exact ⟨p'', hp'', hseq.trans hseq', hcreator'.trans hcreator⟩

theorem below_of_drift {r r' : GroupRoster} (hd : (epochRules C).drift r r') : r.Below r' := by
  intro p hp
  exact ⟨p, hd.2.trans hp, le_rfl, rfl⟩

theorem below_adopt {r : GroupRoster} (hv : a.Valid C) (hb : a.before = some r) :
    r.Below a.after := by
  intro p hp
  have hpin : a.pin = some p := by simp [Adoption.pin, hb, hp]
  exact ⟨a.stored, rfl, (hv.succeeds hpin).later.le, Adoption.creator_of_pin hpin⟩

/-- An epoch that is not later than the pin is refused. -/
theorem adopt_stale {h : History} {e : GroupEpoch} (hp : h.groupAdmin e.groupId = some p)
    (hseq : e.seq ≤ p.epochSeq) (now : ℕ) :
    ∃ err, h.adoptGroupEpoch C now e = (.refused err, h) := by
  rcases adopt_cases C h now e with href | ⟨h', -, hv, -⟩
  · exact href
  · have hpin : (Adoption.mk (h.roster e.groupId) e).pin = some p := by
      rw [← hp, History.groupAdmin_eq]
      rfl
    exact absurd (hv.succeeds hpin).later (not_lt.mpr hseq)

/-- So is one that came in, and nothing at all happens. -/
theorem apply_stale {h : History} {e : GroupEpoch} (hp : h.groupAdmin e.groupId = some p)
    (hseq : e.seq ≤ p.epochSeq) (now : ℕ) (sender name : String) (secs : Option ℕ)
    (avatar : Option String) :
    h.apply C now (.groupRosterUpdate sender e name secs avatar) = h := by
  obtain ⟨err, heq⟩ := adopt_stale (C := C) hp hseq now
  have hgroup : h.hasGroup e.groupId = true := by
    obtain ⟨g, hg, -⟩ := groupAdmin_some hp
    simp [History.hasGroup, hg]
  simp only [History.apply, History.screenRosterUpdate, hgroup, if_true, History.rosterUpdate, heq]

end chain

/-- One chain of epochs: `log` are the adoptions of a group in their order, `h`
is the history after them. -/
structure EpochChain (C : Crypto) (gid : String) (log : List Adoption) (h : History) : Prop where
  /-- An adoption finds the pin that the one before it stored. -/
  linked : log.IsChain fun a b => b.pin = some a.stored
  /-- The epoch that founds the pin passed on its own. -/
  founding : ∀ a ∈ log, a.pin = none → a.epoch.validateBaseline C = .ok ()
  /-- Every other one is later than the pin and signed by its admin. -/
  succeeding : ∀ a ∈ log, ∀ p, a.pin = some p → a.epoch.Succeeds C p
  increasing : log.Pairwise fun a b => a.epoch.seq < b.epoch.seq
  /-- The pin never goes back behind an adoption, and the creator stays. -/
  pinned : ∀ a ∈ log, ∃ p, h.groupAdmin gid = some p ∧ a.epoch.seq ≤ p.epochSeq ∧
    p.creatorAdminKey = a.stored.creatorAdminKey
  /-- The last adoption is what is stored, less the members who left since. -/
  last : ∀ a ∈ log.getLast?, ∃ g, h.groups.get gid = some g ∧ g.admin = some a.stored ∧
    g.members.Sublist (membersFromEpoch a.epoch)
  /-- The next call refuses and changes nothing, or stores the members and the pin of its epoch. -/
  call : ∀ now e, e.groupId = gid →
    (∃ err, h.adoptGroupEpoch C now e = (.refused err, h)) ∨
      ∃ h' g, h.adoptGroupEpoch C now e = (if (h.groupAdmin gid).isSome then .advanced else .created, h') ∧
        h'.groups.get gid = some g ∧ g.members = membersFromEpoch e ∧
        g.admin = some (Adoption.mk (h.roster gid) e).stored
  /-- A stale epoch is refused and changes nothing. -/
  stale : ∀ now e p, e.groupId = gid → h.groupAdmin gid = some p → e.seq ≤ p.epochSeq →
    ∃ err, h.adoptGroupEpoch C now e = (.refused err, h)
  /-- So is one that was adopted before, called or sent again. -/
  replay : ∀ a ∈ log, ∀ now, (∃ err, h.adoptGroupEpoch C now a.epoch = (.refused err, h)) ∧
    ∀ sender name secs avatar, h.apply C now (.groupRosterUpdate sender a.epoch name secs avatar) = h

theorem mem_ofGroup {gid : String} {as : List Adoption} {a : Adoption} (ha : a ∈ ofGroup gid as) :
    a.epoch.groupId = gid := by
  simpa using (List.mem_filter.mp ha).2

section chain

variable {C : Crypto} {gid : String} {h h' : History} {as : List Adoption}
  (hm : GroupMoves C gid h as h')
include hm

theorem GroupMoves.finds_stored : (ofGroup gid as).IsChain fun a b => b.pin = some a.stored := by
  refine hm.linked.imp ?_
  intro a b hab
  obtain ⟨r, hr, -, hadmin⟩ := hab _ rfl
  have hb : b.before = some r := hr
  rw [Adoption.pin, hb]
  exact hadmin

theorem GroupMoves.increasing : (ofGroup gid as).Pairwise fun a b => a.epoch.seq < b.epoch.seq := by
  have htrans : Trans (fun a b : Adoption => a.epoch.seq < b.epoch.seq)
      (fun a b : Adoption => a.epoch.seq < b.epoch.seq)
      fun a b : Adoption => a.epoch.seq < b.epoch.seq :=
    ⟨fun h h' => h.trans h'⟩
  refine (hm.finds_stored.imp_of_mem_imp ?_).pairwise
  intro a b ha hb hab
  have hv : b.Valid C := hm.good b hb
  exact (hv.succeeds hab).later

theorem GroupMoves.pinned {a : Adoption} (ha : a ∈ ofGroup gid as) :
    ∃ p, h'.groupAdmin gid = some p ∧ a.epoch.seq ≤ p.epochSeq ∧
    p.creatorAdminKey = a.stored.creatorAdminKey := by
  obtain ⟨r, hr, hbelow⟩ := Pinned.Moves.reaches GroupRoster.Below
    (fun _ _ _ => GroupRoster.Below.trans)
    (fun _ _ => below_of_drift) (fun _ _ => below_adopt) hm ha
  obtain ⟨p, hp, hseq, hcreator⟩ := hbelow a.stored rfl
  refine ⟨p, ?_, hseq, hcreator⟩
  rw [History.groupAdmin_eq, hr]
  exact hp

theorem GroupMoves.last_stored {a : Adoption} (ha : a ∈ (ofGroup gid as).getLast?) :
    ∃ g, h'.groups.get gid = some g ∧ g.admin = some a.stored ∧
    g.members.Sublist (membersFromEpoch a.epoch) := by
  obtain ⟨r, hr, hmembers, hadmin⟩ := hm.last a ha _ rfl
  obtain ⟨g, hg, rfl⟩ := roster_some hr
  exact ⟨g, hg, hadmin, hmembers⟩

end chain

/-- **Group epochs advance along one chain.** From any history, whatever is done
to it short of deleting the group. -/
theorem epochs_follow_one_chain (C : Crypto) (gid : String) (h : History)
    (ops : List (ℕ × HistoryOp)) (hops : ∀ op ∈ ops, op.2 ≠ .deleteGroup gid) :
    EpochChain C gid (ofGroup gid (h.runAdoptions C ops)) (h.run C ops) := by
  have hm := run_moves (C := C) ops h hops
  have hvalid : ∀ a ∈ ofGroup gid (h.runAdoptions C ops), a.Valid C := hm.good
  refine
    { linked := hm.finds_stored
      founding := fun a ha => (hvalid a ha).baseline
      succeeding := fun a ha p => (hvalid a ha).succeeds
      increasing := hm.increasing
      pinned := fun a => hm.pinned
      last := fun a => hm.last_stored
      call := ?_, stale := ?_, replay := ?_ }
  · intro now e he
    subst he
    rcases adopt_cases C (h.run C ops) now e with href | ⟨h', heq, -, hroster⟩
    · exact Or.inl href
    · have hafter := (hroster e.groupId).trans (if_pos rfl)
      obtain ⟨g, hg, hgr⟩ := roster_some hafter
      exact Or.inr ⟨h', g, heq, hg, congrArg GroupRoster.members hgr,
        congrArg GroupRoster.admin hgr⟩
  · intro now e p he hp hseq
    subst he
    exact adopt_stale hp hseq now
  · intro a ha now
    obtain ⟨p, hp, hseq, -⟩ := hm.pinned ha
    rw [← mem_ofGroup ha] at hp
    exact ⟨adopt_stale hp hseq now, apply_stale hp hseq now⟩

/-! ### A group with a real chain -/

def carolKey : String := "94avkxUSSCnuSta5I1JGT/E41HGGBc42QYqik1g0hgQ"

def familyBob : GroupMemberEntry := ⟨"bob", bobEntry.identityKey⟩

def familyCarol : GroupMemberEntry := ⟨"carol", "b0szyvP/PZsj1/e4brImAchSMqn3eQNJvVXpd2pBsSo"⟩

def familyDave : GroupMemberEntry := ⟨"dave", "Zn5FDLrgoaGOxT0010vdHa4Q0sCaCMLSP7LstEJeyks"⟩

/-- The account founds a group. -/
def familyGenesis : GroupEpoch :=
  { groupId := "family", seq := 0, members := [familyBob, familyCarol, familyDave],
    adminKey := bobKey
    adminIdentityKey := familyBob.identityKey, prevAdminKey := none, timestamp := 2000
    signature := "UESzNqhUZnTCkT8Xw1y0ZYRXM3X4/XfcK2skSCxw7AbnJqVc/yY2rH8x/2PGX5uQgrs+kSdxNPOga8hQsgBrDw" }

/-- And hands it over; the epoch between the two was missed. -/
def familyHandover : GroupEpoch :=
  { groupId := "family", seq := 2, members := [familyBob, familyCarol], adminKey := carolKey
    adminIdentityKey := familyCarol.identityKey, prevAdminKey := some bobKey, timestamp := 3000
    signature := "HUbDHWiMVUltTtrJCrDWH6EHUZHDE6/4AT+tRXAmvx9oMHHLbgRkN/daLXBJbqh9Kbt7WIxDFfplhqhguotjBA" }

def familySigned : Signatures :=
  [(bobKey, familyGenesis.signingPayload, familyGenesis.signature),
    (bobKey, familyHandover.signingPayload, familyHandover.signature)]

/-- A member leaves between the two epochs, and both are sent again. -/
def familyOps : List (ℕ × HistoryOp) :=
  [(2001, .adoptGroupEpoch familyGenesis), (2500, .apply (.groupMemberLeft familyDave.identityKey "family")),
    (3001, .apply (.groupRosterUpdate familyBob.identityKey familyHandover "Family" none none)),
    (3002, .adoptGroupEpoch familyGenesis), (3003, .adoptGroupEpoch familyHandover)]

theorem epochs_follow_one_chain_family :
    (∀ op ∈ familyOps, op.2 ≠ .deleteGroup "family") ∧
      (ofGroup "family" (History.runAdoptions (sampleRelay familySigned).crypto {} familyOps)).map (·.epoch.seq) = [0, 2] ∧
      EpochChain (sampleRelay familySigned).crypto "family"
        (ofGroup "family" (History.runAdoptions (sampleRelay familySigned).crypto {} familyOps))
        (History.run (sampleRelay familySigned).crypto {} familyOps) := by
  have hops : ∀ op ∈ familyOps, op.2 ≠ .deleteGroup "family" := by simp [familyOps]
  exact ⟨hops, by decide +kernel, epochs_follow_one_chain _ _ _ _ hops⟩

end Sona
