/-
# Groups without a pin

Groups that are older than signed epochs have members and no admin. The history
tells a group to found from one to change by its pin, so to a group that is
there without a pin any epoch is the first one: whoever signs one for it, a
stranger too, becomes its admin and says who is in it. The gate does not see
it, since the group is known.

`Governed` says how a group that is there may change: its members and its pin
stay, or go from one epoch to the next, each signed by the admin that is pinned
before it (`Advances`), or a member who left is taken off. An event or an
acceptance keeps to that exactly if no epoch it carries seizes a group without
a pin (`spared_iff_governed`), and a run does if all its steps do
(`groups_governed_iff`). In `legacy_group_seized` a stranger takes such a group.

Key definitions: `Advances`, `Governed`, `Seizes`, `Carries`, `Spared`.
Key theorems: `spared_iff_governed`, `groups_governed_iff`.
-/
import Sona.Lib.Trace
import Sona.Epochs

namespace Sona

variable {C : Crypto} {given : GroupEpoch → Prop} {h₀ h h' : History} {gid : String}

/-! ### How a group may change -/

/-- From one epoch to the next, each one of those given for the group, and
signed by the admin whom the roster before it has pinned. -/
inductive Advances (C : Crypto) (given : GroupEpoch → Prop) (gid : String) :
    GroupRoster → GroupRoster → Prop
  | stay (r : GroupRoster) : Advances C given gid r r
  | next {r r' : GroupRoster} {p : GroupAdmin} {e : GroupEpoch} (before : Advances C given gid r r')
      (pinned : r'.admin = some p) (mine : given e) (here : e.groupId = gid) (signed : e.Succeeds C p) :
      Advances C given gid r ⟨membersFromEpoch e, some (e.pin p.creatorAdminKey)⟩

/-- The operation brings that a member of the group left, and they are off the list. -/
def Departs (h : History) (op : HistoryOp) (gid : String) (r r' : GroupRoster) : Prop :=
  ∃ sender, op = .apply (.groupMemberLeft sender gid) ∧ r' = r.without (h.attributeDevice sender)

/-- The epochs of the invites in the request under `key`, if it can be accepted. -/
def History.Invites (h : History) (key : String) (e : GroupEpoch) : Prop :=
  ∃ pin req, h.contacts.get key = some pin ∧ pin.request = some req ∧
    (acceptedName req key = key ∨ h.contacts.get (acceptedName req key) = none) ∧
    ∃ inv ∈ req.invites, inv.epoch = e

/-- The epochs that reach the history with an operation: one that is sent, and
those of a request that the user accepts, here or by answering from another device. -/
inductive Carries (h : History) : HistoryOp → GroupEpoch → Prop
  | sent {sender : String} {e : GroupEpoch} {name : String} {secs : Option ℕ}
      {avatar : Option String} :
      Carries h (.apply (.groupRosterUpdate sender e name secs avatar)) e
  | accepted {key : String} {e : GroupEpoch}
      (invites : h.Invites key e) : Carries h (.acceptRequest key) e
  | answered {sender key : String} {e : GroupEpoch} {peerKey peerUsername msgId body : String}
      {sentAt : ℕ}
      {reply : Option ReplyRef} {secs : Option ℕ} {forwarded : Bool} (own : h.isOwnDevice sender = true)
      (pending : h.pendingKey peerKey = some key) (invites : h.Invites key e) :
      Carries h (.apply (.selfSentText sender peerKey peerUsername msgId body sentAt reply secs forwarded)) e
  | answeredFile {sender key : String} {e : GroupEpoch} {peerKey peerUsername msgId : String}
      {attachment : AttachmentRef} {secs : Option ℕ} {forwarded : Bool} (own : h.isOwnDevice sender = true)
      (pending : h.pendingKey peerKey = some key) (invites : h.Invites key e) :
      Carries h (.apply (.selfSentFile sender peerKey peerUsername msgId attachment secs forwarded)) e

/-- How groups that are there may change. -/
def Governed (C : Crypto) (h : History) (op : HistoryOp) (h' : History) : Prop :=
  ∀ gid r, h.roster gid = some r →
    ∃ r', h'.roster gid = some r' ∧ (Departs h op gid r r' ∨ Advances C (Carries h op) gid r r')

/-! ### The epochs that go wrong -/

/-- The group is there without a pin, and the epoch passes as the first one of a group. -/
def Seizes (C : Crypto) (h : History) (e : GroupEpoch) : Prop :=
  (∃ r, h.roster e.groupId = some r ∧ r.admin = none) ∧ e.validateBaseline C = .ok ()

def Spared (C : Crypto) (h : History) (op : HistoryOp) : Prop :=
  ∀ e, Carries h op e → ¬ Seizes C h e

/-- An event that comes in, or a request that is accepted. -/
def HistoryOp.FromPeers : HistoryOp → Prop
  | .apply _ | .acceptRequest _ => True
  | _ => False

/-- Every step of a run is governed. -/
def GovernedRun (C : Crypto) (h : History) (ops : List (ℕ × HistoryOp)) : Prop :=
  Trace.Along (fun h op => History.step C h op.1 op.2) (fun h op => Governed C h op.2 (h.step C op.1 op.2)) h ops

/-- No step of a run seizes a group. -/
def SparedRun (C : Crypto) (h : History) (ops : List (ℕ × HistoryOp)) : Prop :=
  Trace.Along (fun h op => History.step C h op.1 op.2) (fun h op => Spared C h op.2) h ops

/-! ### What is spared is governed -/

/-- A roster without a pin does not advance. -/
theorem Advances.eq_of_unpinned {r r' : GroupRoster} (ha : Advances C given gid r r')
    (hr : r.admin = none) : r' = r := by
  induction ha with
  | stay => rfl
  | next before pinned mine here signed ih =>
    rw [ih, hr] at pinned
    cases pinned

theorem Advances.eq_of_unpinned_after {r r' : GroupRoster} (ha : Advances C given gid r r')
    (hr : r'.admin = none) :
    r' = r := by
  cases ha with
  | stay => rfl
  | next before pinned mine here signed => cases hr

/-- All groups that are there in `h` advance by the epochs given. -/
def RostersAdvance (C : Crypto) (given : GroupEpoch → Prop) (h h' : History) : Prop :=
  ∀ gid r, h.roster gid = some r → ∃ r', h'.roster gid = some r' ∧ Advances C given gid r r'

theorem RostersAdvance.of_standing (hs : h'.standing = h.standing) :
    RostersAdvance C given h h' := by
  intro gid r hsome
  exact ⟨r, roster_of_standing hs ▸ hsome, .stay r⟩

theorem RostersAdvance.behind (ha : RostersAdvance C given h₀ h) (hr : h'.roster = h.roster) :
    RostersAdvance C given h₀ h' := by
  unfold RostersAdvance
  rw [hr]
  exact ha

/-- An epoch that seizes no group the run began with is a successor or founds a group. -/
theorem advance_adopt (now : ℕ) {e : GroupEpoch} (hadv : RostersAdvance C given h₀ h) (he : given e)
    (hfree : ¬ Seizes C h₀ e) : RostersAdvance C given h₀ (h.adoptGroupEpoch C now e).2 := by
  intro gid r hr
  obtain ⟨r', hr', ha⟩ := hadv gid r hr
  rcases adopt_cases C h now e with ⟨err, heq⟩ | ⟨h', heq, hvalid, hroster⟩
  · rw [heq]
    exact ⟨r', hr', ha⟩
  rw [heq]
  dsimp only
  rw [hroster]
  by_cases hgid : gid = e.groupId
  · subst hgid
    rw [if_pos rfl]
    refine ⟨_, rfl, ?_⟩
    have hpin : (Adoption.mk (h.roster e.groupId) e).pin = r'.admin := by
      simp [Adoption.pin, hr']
    cases hadmin : r'.admin with
    | none =>
      have hsame : r' = r := ha.eq_of_unpinned_after hadmin
      have hbase : e.validateBaseline C = .ok () := hvalid.baseline (hpin.trans hadmin)
      exact (hfree ⟨⟨r, hr, hsame ▸ hadmin⟩, hbase⟩).elim
    | some p =>
      have hsucc : e.Succeeds C p := hvalid.succeeds (hpin.trans hadmin)
      have hcreator := Adoption.creator_of_pin (hpin.trans hadmin)
      unfold Adoption.after Adoption.stored
      rw [hcreator]
      exact .next ha hadmin he rfl hsucc
  · rw [if_neg hgid]
    exact ⟨r', hr', ha⟩

theorem advance_invites (now : ℕ) :
    ∀ (invs : List HeldInvite) (h : History), RostersAdvance C given h₀ h →
    (∀ inv ∈ invs, given inv.epoch ∧ ¬ Seizes C h₀ inv.epoch) →
    RostersAdvance C given h₀ (invs.foldl (fun h inv => h.acceptInvite C now inv) h)
  | [], _, hadv, _ => hadv
  | inv :: invs, h, hadv, hinvs => by
    obtain ⟨hgiven, hfree⟩ := hinvs inv (by simp)
    have hone := (advance_adopt now hadv hgiven hfree).behind
      (roster_of_standing (standing_acceptInvite h now inv))
    exact advance_invites now invs _ hone fun i hi => hinvs i (by simp [hi])

/-- The first half of an acceptance takes the request whose invites are carried. -/
theorem promote_invites {key peer : String} {req : PendingRequest}
    (hp : h.promote key = some (req, peer, h')) (e : GroupEpoch) :
    h.Invites key e ↔ ∃ inv ∈ req.invites, inv.epoch = e := by
  unfold History.promote at hp
  unfold History.Invites
  split at hp
  · cases hp
  rename_i pin hpin
  split at hp
  · cases hp
  rename_i req' hreq
  dsimp only at hp
  split at hp
  · cases hp
  rename_i hfree
  cases hp
  have hname : History.acceptedName req key = key ∨
      h.contacts.get (History.acceptedName req key) = none := by
    by_cases hk : History.acceptedName req key = key
    · exact Or.inl hk
    · right
      simpa [hk] using hfree
  constructor
  · rintro ⟨pin', req'', hpin', hreq', -, hinv⟩
    rw [hpin] at hpin'
    cases hpin'
    rw [hreq] at hreq'
    cases hreq'
    exact hinv
  · intro hinv
    exact ⟨pin, req, hpin, hreq, hname, hinv⟩

theorem promote_none {key : String} (hp : h.promote key = none) (e : GroupEpoch) :
    ¬ h.Invites key e := by
  rintro ⟨pin, req, hpin, hreq, hname, -⟩
  simp only [History.promote, hpin, hreq] at hp
  rcases hname with hk | hk <;> simp [hk] at hp

theorem advance_acceptRequest (now : ℕ) (key : String)
    (hgiven : ∀ e, h.Invites key e → given e ∧ ¬ Seizes C h e) :
    RostersAdvance C given h (h.acceptRequest C now key).2 := by
  unfold History.acceptRequest
  rcases hp : h.promote key with _ | ⟨req, peer, h'⟩
  · exact RostersAdvance.of_standing rfl
  · have hstart : RostersAdvance C given h h' := RostersAdvance.of_standing (standing_promote hp)
    have hinvs : ∀ inv ∈ req.invites, given inv.epoch ∧ ¬ Seizes C h inv.epoch := fun inv hinv =>
      hgiven inv.epoch ((promote_invites hp _).mpr ⟨inv, hinv, rfl⟩)
    exact (advance_invites now req.invites h' hstart hinvs).behind
      (roster_of_standing (standing_of_groups rfl))

/-- The user answered from another device: that accepts a request. -/
theorem advance_selfSent {f : History → History} (hf : ∀ h, (f h).standing = h.standing) (now : ℕ)
    (sender peerKey : String)
    (hgiven : ∀ key e, h.isOwnDevice sender = true → h.pendingKey peerKey = some key → h.Invites key e →
      given e ∧ ¬ Seizes C h e) :
    RostersAdvance C given h (h.fromOwnDevice sender fun h => f (h.acceptRequestForKey C now peerKey).2) := by
  unfold History.fromOwnDevice
  split
  · rename_i hown
    refine RostersAdvance.behind ?_ (roster_of_standing (hf _))
    unfold History.acceptRequestForKey
    cases hk : h.pendingKey peerKey with
    | none => exact RostersAdvance.of_standing rfl
    | some key => exact advance_acceptRequest now key fun e => hgiven key e hown hk
  · exact RostersAdvance.of_standing rfl

theorem advance_apply (now : ℕ) {event : InboundEvent}
    (hev : ∀ sender gid, event ≠ .groupMemberLeft sender gid) (hs : Spared C h (.apply event)) :
    RostersAdvance C (Carries h (.apply event)) h (h.apply C now event) := by
  cases event with
  | groupRosterUpdate sender epoch name secs avatar =>
    have hscreen := standing_screenRosterUpdate h now sender epoch name secs avatar
    rcases hsc : h.screenRosterUpdate now sender epoch name secs avatar with ⟨taken, h'⟩
    rw [hsc] at hscreen
    simp only [History.apply, hsc]
    have hstart : RostersAdvance C (Carries h (.apply (.groupRosterUpdate sender epoch name secs avatar))) h h' :=
      .of_standing hscreen
    cases taken with
    | true => exact hstart
    | false => exact (advance_adopt now hstart .sent (hs epoch .sent)).behind (roster_rosterUpdate h' now epoch name secs avatar)
  | groupMemberLeft sender groupId => exact (hev sender groupId rfl).elim
  | selfSentText sender peerKey peerUsername msgId body sentAt reply expireSecs forwarded =>
    refine advance_selfSent (fun h => standing_sentText h now peerKey peerUsername msgId body sentAt reply expireSecs
      forwarded) now sender peerKey ?_
    intro key e hown hk he
    exact ⟨.answered hown hk he, hs e (.answered hown hk he)⟩
  | selfSentFile sender peerKey peerUsername msgId attachment expireSecs forwarded =>
    refine advance_selfSent (fun h => standing_sentFile h now peerKey peerUsername msgId attachment attachment.ts
      expireSecs forwarded) now sender peerKey ?_
    intro key e hown hk he
    exact ⟨.answeredFile hown hk he, hs e (.answeredFile hown hk he)⟩
  | _ => exact RostersAdvance.of_standing (standing_apply h now rfl)

theorem governed_leave (now : ℕ) (sender groupId : String) :
    Governed C h (.apply (.groupMemberLeft sender groupId))
      (h.groupLeave now (h.attributeDevice sender) groupId) := by
  intro gid r hr
  rcases roster_groupLeave h now (h.attributeDevice sender) groupId gid with hkept | hleft
  · exact ⟨r, hkept.trans hr, Or.inr (.stay r)⟩
  rw [hr] at hleft
  by_cases hgid : gid = groupId
  · subst hgid
    exact ⟨r.without (h.attributeDevice sender), by simpa using hleft, Or.inl ⟨sender, rfl, rfl⟩⟩
  · exact ⟨r, by simpa [hgid] using hleft, Or.inr (.stay r)⟩

theorem governed_of_spared (now : ℕ) {op : HistoryOp} (hop : op.FromPeers) (hs : Spared C h op) :
    Governed C h op (h.step C now op) := by
  have hby : RostersAdvance C (Carries h op) h (h.step C now op) →
      Governed C h op (h.step C now op) := by
    intro hadv gid r hr
    obtain ⟨r', hr', ha⟩ := hadv gid r hr
    exact ⟨r', hr', Or.inr ha⟩
  cases op with
  | apply event =>
    by_cases hev : ∃ sender gid, event = .groupMemberLeft sender gid
    · obtain ⟨sender, groupId, rfl⟩ := hev
      exact governed_leave now sender groupId
    · exact hby (advance_apply now (fun sender gid heq => hev ⟨sender, gid, heq⟩) hs)
  | acceptRequest key => exact hby (advance_acceptRequest now key fun e he => ⟨.accepted he, hs e (.accepted he)⟩)
  | _ => exact hop.elim

/-! ### A group that is seized has a pin -/

/-- The group is there, with a pin. -/
def History.HasPin (h : History) (gid : String) : Prop :=
  ∃ r p, h.roster gid = some r ∧ r.admin = some p

theorem hasPin_of_roster (hp : h.HasPin gid) (hr : h'.roster = h.roster) : h'.HasPin gid := by
  unfold History.HasPin
  rw [hr]
  exact hp

theorem hasPin_adopt (now : ℕ) (e : GroupEpoch) (hp : h.HasPin gid) :
    (h.adoptGroupEpoch C now e).2.HasPin gid := by
  rcases adopt_cases C h now e with ⟨err, heq⟩ | ⟨h', heq, -, hroster⟩
  · rw [heq]
    exact hp
  · rw [heq]
    obtain ⟨r, p, hr, hadmin⟩ := hp
    by_cases hgid : gid = e.groupId
    · exact ⟨_, _, (hroster gid).trans (if_pos hgid), rfl⟩
    · exact ⟨r, p, ((hroster gid).trans (if_neg hgid)).trans hr, hadmin⟩

/-- An epoch that passes as the first one leaves its group with a pin. -/
theorem hasPin_baseline (now : ℕ) {e : GroupEpoch} (hbase : e.validateBaseline C = .ok ())
    (hgroup : ∃ r, h.roster e.groupId = some r) :
    (h.adoptGroupEpoch C now e).2.HasPin e.groupId := by
  obtain ⟨r, hr⟩ := hgroup
  cases hp : h.groupAdmin e.groupId with
  | some p =>
    apply hasPin_adopt
    rw [History.groupAdmin_eq, hr] at hp
    exact ⟨r, p, hr, hp⟩
  | none =>
    rcases adopt_cases C h now e with ⟨err, heq⟩ | ⟨h', heq, -, hroster⟩
    · simp [History.adoptGroupEpoch, hp, hbase] at heq
    · rw [heq]
      exact ⟨_, _, (hroster e.groupId).trans (if_pos rfl), rfl⟩

theorem roster_isSome_adopt (now : ℕ) (e : GroupEpoch) (hgroup : ∃ r, h.roster gid = some r) :
    ∃ r, (h.adoptGroupEpoch C now e).2.roster gid = some r := by
  rcases adopt_cases C h now e with ⟨err, heq⟩ | ⟨h', heq, -, hroster⟩
  · rw [heq]
    exact hgroup
  · rw [heq]
    by_cases hgid : gid = e.groupId
    · exact ⟨_, (hroster gid).trans (if_pos hgid)⟩
    · rw [hroster, if_neg hgid]
      exact hgroup

theorem hasPin_invites (now : ℕ) :
    ∀ (invs : List HeldInvite) (h : History), (∃ r, h.roster gid = some r) →
    (h.HasPin gid ∨ ∃ inv ∈ invs, inv.epoch.groupId = gid ∧ inv.epoch.validateBaseline C = .ok ()) →
    (invs.foldl (fun h inv => h.acceptInvite C now inv) h).HasPin gid
  | [], _, _, hp => by simpa using hp
  | inv :: invs, h, hgroup, hp => by
    have hroster := roster_of_standing (standing_acceptInvite (C := C) h now inv)
    have hgroup' : ∃ r, (h.acceptInvite C now inv).roster gid = some r := by
      rw [hroster]
      exact roster_isSome_adopt now inv.epoch hgroup
    apply hasPin_invites now invs _ hgroup'
    rcases hp with hp | ⟨i, hi, hgid, hbase⟩
    · exact Or.inl (hasPin_of_roster (hasPin_adopt now inv.epoch hp) hroster)
    rcases List.mem_cons.mp hi with rfl | hi
    · subst hgid
      exact Or.inl (hasPin_of_roster (hasPin_baseline now hbase hgroup) hroster)
    · exact Or.inr ⟨i, hi, hgid, hbase⟩

theorem hasPin_acceptRequest (now : ℕ) {key : String} {e : GroupEpoch} (he : h.Invites key e)
    (hbase : e.validateBaseline C = .ok ()) (hgroup : ∃ r, h.roster e.groupId = some r) :
    (h.acceptRequest C now key).2.HasPin e.groupId := by
  unfold History.acceptRequest
  rcases hp : h.promote key with _ | ⟨req, peer, h'⟩
  · exact (promote_none hp e he).elim
  · obtain ⟨inv, hinv, rfl⟩ := (promote_invites hp e).mp he
    have hgroup' : ∃ r, h'.roster inv.epoch.groupId = some r := by
      rw [roster_of_standing (standing_promote hp)]
      exact hgroup
    have hpin := hasPin_invites (C := C) now req.invites h' hgroup' (Or.inr ⟨inv, hinv, rfl, hbase⟩)
    exact hasPin_of_roster hpin (roster_of_standing (standing_of_groups rfl))

theorem hasPin_selfSent {f : History → History} (hf : ∀ h, (f h).standing = h.standing) (now : ℕ)
    {sender peerKey key : String} {e : GroupEpoch} (hown : h.isOwnDevice sender = true)
    (hk : h.pendingKey peerKey = some key) (he : h.Invites key e)
    (hbase : e.validateBaseline C = .ok ()) (hgroup : ∃ r, h.roster e.groupId = some r) :
    (h.fromOwnDevice sender fun h => f (h.acceptRequestForKey C now peerKey).2).HasPin e.groupId := by
  have hpin := hasPin_acceptRequest now he hbase hgroup
  unfold History.fromOwnDevice History.acceptRequestForKey
  rw [if_pos hown]
  dsimp only
  rw [hk]
  exact hasPin_of_roster hpin (roster_of_standing (hf _))

/-- An epoch that is carried for a group that is there, and passes as the first
one, leaves it with a pin. -/
theorem hasPin_step (now : ℕ) {op : HistoryOp} {e : GroupEpoch} (hc : Carries h op e)
    (hbase : e.validateBaseline C = .ok ()) (hgroup : ∃ r, h.roster e.groupId = some r) :
    (h.step C now op).HasPin e.groupId := by
  cases hc with
  | @sent sender _ name secs avatar =>
    have hknown : h.hasGroup e.groupId = true := by
      obtain ⟨r, hr⟩ := hgroup
      obtain ⟨g, hg, -⟩ := roster_some hr
      simp [History.hasGroup, hg]
    have hscreen : h.screenRosterUpdate now sender e name secs avatar = (false, h) := by
      unfold History.screenRosterUpdate
      rw [if_pos hknown]
    have happly : h.step C now (.apply (.groupRosterUpdate sender e name secs avatar)) =
        h.rosterUpdate C now e name secs avatar := by
      simp only [History.step, History.apply, hscreen]
    rw [happly]
    exact hasPin_of_roster (hasPin_baseline now hbase hgroup)
      (roster_rosterUpdate h now e name secs avatar)
  | accepted he => exact hasPin_acceptRequest now he hbase hgroup
  | answered hown hk he => exact hasPin_selfSent (fun h => standing_sentText h now _ _ _ _ _ _ _ _) now hown hk he hbase hgroup
  | answeredFile hown hk he => exact hasPin_selfSent (fun h => standing_sentFile h now _ _ _ _ _ _ _) now hown hk he hbase hgroup

/-- **A step is governed exactly if it seizes no group.** -/
theorem spared_iff_governed (now : ℕ) {op : HistoryOp} (hop : op.FromPeers) :
    Spared C h op ↔ Governed C h op (h.step C now op) := by
  refine ⟨governed_of_spared now hop, ?_⟩
  rintro hgov e hc ⟨⟨r, hr, hnone⟩, hbase⟩
  obtain ⟨r₁, p, hr₁, hpin⟩ := hasPin_step now hc hbase ⟨r, hr⟩
  obtain ⟨r', hr', hdep | hadv⟩ := hgov e.groupId r hr
  · obtain ⟨sender, -, rfl⟩ := hdep
    rw [hr₁] at hr'
    cases hr'
    exact absurd (hnone.symm.trans hpin) (by simp)
  · have hsame : r' = r := hadv.eq_of_unpinned hnone
    rw [hr₁] at hr'
    cases hr'
    rw [hsame, hnone] at hpin
    cases hpin

/-- **No group is taken over, exactly as long as no epoch seizes one.** Whatever
the vault held that is opened, and whatever comes in and is accepted then. -/
theorem groups_governed_iff (C : Crypto) (vault : History) (ops : List (ℕ × HistoryOp))
    (hops : ∀ op ∈ ops, op.2.FromPeers) :
    GovernedRun C vault.migrateRequestsToKeyAddressing ops ↔
    SparedRun C vault.migrateRequestsToKeyAddressing ops :=
  Trace.along_congr_on _ (fun _ op hop => (spared_iff_governed op.1 hop).symm) _ ops hops

/-! ### A group that is taken -/

/-- A vault with a group from before epochs; its members are the account and one other. -/
def legacyVault : History :=
  { groups := (∅ : Table String GroupRecord).set "family"
      { name := "Family", members := [⟨"me", "my-key"⟩, ⟨"erin", "erin-key"⟩] } }

/-- A stranger sends an epoch for the group that they signed themselves. -/
def legacyOps : List (ℕ × HistoryOp) :=
  [(2001, .apply (.groupRosterUpdate "mallory" familyGenesis "Family" none none))]

/-- **A stranger takes over a group without a pin.** Neither member is in it any more. -/
theorem legacy_group_seized :
    legacyVault.migrateRequestsToKeyAddressing.roster "family" =
      some ⟨[⟨"me", "my-key"⟩, ⟨"erin", "erin-key"⟩], none⟩ ∧
    (legacyVault.migrateRequestsToKeyAddressing.run (sampleRelay familySigned).crypto legacyOps).roster "family" =
      some ⟨membersFromEpoch familyGenesis, some (familyGenesis.pin (some bobKey))⟩ ∧
    ¬ GovernedRun (sampleRelay familySigned).crypto legacyVault.migrateRequestsToKeyAddressing legacyOps := by
  have hbefore : legacyVault.migrateRequestsToKeyAddressing.roster "family" =
      some ⟨[⟨"me", "my-key"⟩, ⟨"erin", "erin-key"⟩], none⟩ := by decide +kernel
  have hbase : familyGenesis.validateBaseline (sampleRelay familySigned).crypto = .ok () := by
    decide +kernel
  refine ⟨hbefore, by decide +kernel, ?_⟩
  rintro ⟨hgov, -⟩
  have hpeer : HistoryOp.FromPeers (.apply (.groupRosterUpdate "mallory" familyGenesis "Family" none none)) := trivial
  have hspared := (spared_iff_governed 2001 hpeer).mpr hgov
  exact hspared familyGenesis .sent ⟨⟨_, hbefore, rfl⟩, hbase⟩

/-- A vault with a group that has a pin, and the next epoch for it. -/
def familyVault : History :=
  History.run (sampleRelay familySigned).crypto {} [(2001, .adoptGroupEpoch familyGenesis)]

def handoverOps : List (ℕ × HistoryOp) :=
  [(3001, .apply (.groupRosterUpdate familyBob.identityKey familyHandover "Family" none none))]

theorem groups_governed_iff_family :
    GovernedRun (sampleRelay familySigned).crypto familyVault.migrateRequestsToKeyAddressing handoverOps := by
  have hops : ∀ op ∈ handoverOps, op.2.FromPeers := by
    intro op hop
    obtain rfl := List.mem_singleton.mp hop
    trivial
  refine (groups_governed_iff (sampleRelay familySigned).crypto familyVault handoverOps hops).mpr
    ⟨?_, trivial⟩
  rintro e hc ⟨⟨r, hr, hnone⟩, -⟩
  cases hc
  have hpin : familyVault.migrateRequestsToKeyAddressing.roster "family" =
      some ⟨membersFromEpoch familyGenesis, some (familyGenesis.pin (some bobKey))⟩ := by
        decide +kernel
  rw [show familyHandover.groupId = "family" from rfl, hpin] at hr
  cases hr
  cases hnone

end Sona
