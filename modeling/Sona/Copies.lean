/-
# The ids that copies go under

`multidevice/selfsync.rs`: a message, a group payload or a forwarded message goes to
other accounts and to the account's own other devices, in envelopes that each have an
id. The relay keeps the first envelope of an id in a mailbox, so a copy for an own
device is only safe under an id that nobody else has (`enqueue_taken`).

`prepare_fanout` draws one for each such copy. `fan_group_payload` gives them the id
that the members' copies have, and `forward_inbound_sync` the id that the sender chose
(`copies_taken`). `copies_unshadowed_iff` says which runs leave every copy for an own
device under an id that no other account has seen or chosen.

Key definitions: `Client.prepareFanout`, `groupCopies`, `Client.forwardInboundSync`, `Copier.step`,
`Copier.Private`, `Copier.Unshadowed`, `Copier.Random`, `Copier.Fits`, `Copier.Stores`.
Key theorems: `prepareFanout_copies`, `groupCopies_members`, `groupCopies_own`,
`Copier.unshadowed_step`, `enqueue_taken`, `Copier.Unshadowed.stores`, `copies_unshadowed_iff`,
`copies_taken`.
-/
import Mathlib.Data.List.Basic
import Sona.Lib.Trace
import Sona.Fanout
import Sona.Store

namespace Sona

/-! ### Copies -/

/-- A sealed copy, addressed to a device of a name. -/
structure MessageCopy (P : Type) where
  username : String
  route : DeviceRoute
  msgId : String
  payload : P

/-- Copies for the recipient, and copies that are posted later. -/
structure Fanout (P : Type) where
  msgId : String
  sentAt : ℕ
  immediate : List (MessageCopy P)
  deferred : List (MessageCopy P)

/-- What an own device is told of a message that came in; the fields of `ForwardIncoming`. -/
structure ForwardedMessage where
  fromKey : String
  fromUsername : String
  msgId : String
  body : String
  ts : ℕ
  reply : Option ReplyRef
  attachment : Option AttachmentRef
  expireSecs : Option ℕ
deriving DecidableEq, Repr

section functions

variable {P : Type} (K : KtClient) (D : Sending)

/-- Copies that are sealed and not posted: all of them or none. -/
def sealDevices (username : String) (k : ℕ) (ds : List RosterDevice) :
    Except ClientError (List DeviceRoute) :=
  match fanDevices K { D with post := fun _ _ => .ok () } username none 0 k ds with
  | (.error e, _) => .error e
  | (.ok (), copies) => .ok (copies.map (·.route))

/-- `ids` are the message ids that are drawn, from the `n`-th on. -/
def Client.prepareFanout (relay : Answers) (ids : ℕ → String) (n : ℕ) (h : History)
    (myUsername contact : String) (recipientPayload : P)
    (selfPayload : Option (String → String → String → P)) (sentAt : Option ℕ) (now : ℕ) :
    Except ClientError (Fanout P) × History :=
  match resolveAccountDevices K h contact (relay 0).1 (relay 0).2 with
  | (.error e, h) => (.error e, h)
  | (.ok rec, h) =>
    match resolveAccountDevices K h myUsername (relay 1).1 (relay 1).2 with
    | (.error e, h) => (.error e, h)
    | (.ok me, h) =>
      let h := h.setSelfPrimaryKey me.primaryKey
      let msgId := ids n
      match sealDevices K D contact 0 rec.devices with
      | .error e => (.error e, h)
      | .ok routes =>
        let immediate := routes.map fun route => ⟨contact, route, msgId, recipientPayload⟩
        match selfPayload with
        | none => (.ok { msgId, sentAt := sentAt.getD now, immediate, deferred := [] }, h)
        | some build =>
          match sealDevices K D myUsername routes.length (me.devices.filter fun d => d.deviceId ≠ h.selfDeviceId) with
          | .error e => (.error e, h)
          | .ok own =>
            -- the payload has the shared id, and each envelope one of its own
            let deferred := own.mapIdx fun i route =>
              ⟨myUsername, route, ids (n + 1 + i), build rec.primaryKey contact msgId⟩
            (.ok { msgId, sentAt := sentAt.getD now, immediate, deferred }, h)

/-- Copies for the own devices only; `prepare_profile_selfsync` seals the
profile picture the same way. -/
def Client.prepareSelfOnly (relay : Answers) (h : History) (myUsername : String) (payload : P)
    (msgId : String) :
    Except ClientError (List (MessageCopy P)) × History :=
  match resolveAccountDevices K h myUsername (relay 0).1 (relay 0).2 with
  | (.error e, h) => (.error e, h)
  | (.ok me, h) =>
    let h := h.setSelfPrimaryKey me.primaryKey
    match sealDevices K D myUsername 0 (me.devices.filter fun d => d.deviceId ≠ h.selfDeviceId) with
    | .error e => (.error e, h)
    | .ok own => (.ok (own.map fun route => ⟨myUsername, route, msgId, payload⟩), h)

/-- The copies of `fan_group_payload`, with the one id that they share. -/
def groupCopies (relay : Answers) (h : History) (myUsername : String) (members : List GroupMember)
    (payload : P) (msgId : String) : List (MessageCopy P) :=
  (fanGroupPayload K D relay h myUsername members).2.1.map fun c =>
    ⟨(c.member.map (·.username)).getD myUsername, c.route, msgId, payload⟩

def forwardedMessage : InboundEvent → Option ForwardedMessage
  | .message sender username msgId body sentAt reply expireSecs _ =>
    some { fromKey := sender, fromUsername := username, msgId, body, ts := sentAt, reply, attachment := none, expireSecs }
  | .attachment sender username msgId attachment sentAt expireSecs _ =>
    some { fromKey := sender, fromUsername := username, msgId, body := attachment.filename, ts := sentAt, reply := none
           attachment := some attachment, expireSecs }
  | _ => none

/-- The linked devices that there is a session with. -/
def History.forwardTargets (h : History) (hasSession : String → Bool) (pin : RosterPin) :
    List RosterDevice :=
  pin.devices.filter fun d => !(d.deviceId = h.selfDeviceId || !hasSession d.identityKey)

def Client.forwardInboundSync (h : History) (hasSession : String → Bool) (myUsername : String)
    (event : InboundEvent) (forwardIncoming : ForwardedMessage → P) :
    Except ClientError (List (MessageCopy P)) :=
  if !h.isPrimaryDevice then .ok [] else
  match forwardedMessage event with
  | none => .ok []
  | some m =>
    match h.contactRosters.get myUsername with
    | none => .ok []
    | some pin =>
      match sealDevices K { D with session := fun _ _ => .ok () } myUsername 0 (h.forwardTargets hasSession pin) with
      | .error e => .error e
      | .ok routes => .ok (routes.map fun route => ⟨myUsername, route, m.msgId, forwardIncoming m⟩)

end functions

/-! ### Runs -/

/-- What a client sends with: the account, the ids that it draws, the message ids that
a payload names, and the payload of a forwarded message. -/
structure Copier (P : Type) where
  client : KtClient
  account : String
  ids : ℕ → String
  names : P → List String
  forwardIncoming : ForwardedMessage → P

inductive CopyOp (P : Type)
  | fanout (D : Sending) (relay : Answers) (contact : String) (recipientPayload : P)
    (selfPayload : Option (String → String → String → P)) (sentAt : Option ℕ) (now : ℕ)
  | selfOnly (D : Sending) (relay : Answers) (payload : P)
  | group (D : Sending) (relay : Answers) (members : List GroupMember) (payload : P)
  | forward (D : Sending) (hasSession : String → Bool) (event : InboundEvent)
  /-- Something else comes in from another account, with these ids. -/
  | receive (ids : List String)

/-- The history, how many ids were drawn, the copies that were sent, and the
ids that came in from other accounts. -/
structure CopyState (P : Type) where
  history : History
  draws : ℕ := 0
  sent : List (MessageCopy P) := []
  received : List String := []

namespace Copier

variable {P : Type} (M : Copier P) (s : CopyState P)

/-- The id of a message of another account. -/
def heard (h : History) (event : InboundEvent) : List String :=
  match forwardedMessage event with
  | none => []
  | some m => if h.isOwnDevice m.fromKey ∨ h.selfPrimaryKey = some m.fromKey then [] else [m.msgId]

/-- An id that is drawn for a call that fails goes nowhere, and is not counted. -/
def step (s : CopyState P) : CopyOp P → CopyState P
  | .fanout D relay contact recipientPayload selfPayload sentAt now =>
    match Client.prepareFanout M.client D relay M.ids s.draws s.history M.account contact recipientPayload selfPayload
        sentAt now with
    | (.error _, h) => { s with history := h }
    | (.ok f, h) =>
      { s with
        history := h, draws := s.draws + 1 + f.deferred.length,
        sent := s.sent ++ (f.immediate ++ f.deferred) }
  | .selfOnly D relay payload =>
    match Client.prepareSelfOnly M.client D relay s.history M.account payload (M.ids s.draws) with
    | (.error _, h) => { s with history := h }
    | (.ok copies, h) => { s with history := h, draws := s.draws + 1, sent := s.sent ++ copies }
  | .group D relay members payload =>
    { s with
      history := (fanGroupPayload M.client D relay s.history M.account members).2.2, draws := s.draws + 1
      sent := s.sent ++ groupCopies M.client D relay s.history M.account members payload (M.ids s.draws) }
  | .forward D hasSession event =>
    { s with
      received := s.received ++ heard s.history event
      sent := s.sent ++
        (Client.forwardInboundSync M.client D s.history hasSession M.account event M.forwardIncoming).toOption.getD [] }
  | .receive ids => { s with received := s.received ++ ids }

/-- The ids in envelopes and payloads to and from other accounts. -/
def known : List String :=
  s.received ++ (s.sent.filter fun c => c.username ≠ M.account).flatMap fun c => c.msgId :: M.names c.payload

/-- The client drew the id, and no other account has it. -/
def Private (id : String) : Prop := (∃ i < s.draws, M.ids i = id) ∧ id ∉ M.known s

/-- **Every copy for an own device is under an id that no other account has.** -/
def Unshadowed : Prop := ∀ c ∈ s.sent, c.username = M.account → M.Private s c.msgId

/-- Ids are drawn at random: none is named before it is drawn, and of those that only
this client has, others name none. -/
def Random : CopyOp P → Prop
  | .selfOnly _ _ _ => True
  | .fanout _ _ _ payload _ _ _ | .group _ _ _ payload =>
    ∀ id ∈ M.names payload, ∀ i, s.draws ≤ i → M.ids i ≠ id
  | .forward _ _ event => ∀ id ∈ heard s.history event, (∃ i, M.ids i = id) → id ∈ M.known s
  | .receive ids => ∀ id ∈ ids, (∃ i, M.ids i = id) → id ∈ M.known s

end Copier

/-! ### Which copies are sealed -/

section reached

variable (K : KtClient) (D : Sending) (relay : Answers)

/-- The first of the devices has a mailbox and a session, and its copy is sealed. -/
def FirstReached (username : String) (k : ℕ) (ds : List RosterDevice) : Prop :=
  ∃ d mailbox, ds.head? = some d ∧ deviceMailboxHash K.crypto.sha (identityHash K.crypto.sha username) d.deviceId = some mailbox ∧
    D.session k ⟨d.deviceId, d.identityKey, mailbox.asStr⟩ = .ok () ∧
    D.encrypt k ⟨d.deviceId, d.identityKey, mailbox.asStr⟩ = .ok ()

/-- Both names are resolved, and every device of theirs that is to have a copy is reached. -/
def FanoutGoes (h : History) (myUsername contact : String) (syncs : Bool) : Prop :=
  ∃ rec h₁ me h₂ routes, resolveAccountDevices K h contact (relay 0).1 (relay 0).2 = (.ok rec, h₁) ∧
    resolveAccountDevices K h₁ myUsername (relay 1).1 (relay 1).2 = (.ok me, h₂) ∧
    sealDevices K D contact 0 rec.devices = .ok routes ∧
    (syncs = true → ∃ own, sealDevices K D myUsername routes.length
      (me.devices.filter fun d => d.deviceId ≠ h₂.selfDeviceId) = .ok own)

/-- The first of the other members is reached. -/
def MembersReached (h : History) (others : List GroupMember) : Prop :=
  ∃ m devs h₁, others.head? = some m ∧
  resolveAccountDevices K h m.username (relay 0).1 (relay 0).2 = (.ok devs, h₁) ∧
    FirstReached K D m.username 0 devs.devices

/-- The copies for all other members are posted, and the first of the own devices is reached. -/
def OwnReached (h : History) (myUsername : String) (others : List GroupMember) : Prop :=
  ∃ copies h₁ me h₂, fanMembers K D relay 0 0 h others = (.ok (), copies, h₁) ∧
    resolveAccountDevices K h₁ myUsername (relay others.length).1 (relay others.length).2 = (.ok me, h₂) ∧
    1 < me.devices.length ∧
    FirstReached K D myUsername copies.length (me.devices.filter fun d => d.deviceId ≠ h₂.selfDeviceId)

/-- There is a device to forward `m` to, and all of them are reached. -/
def ForwardGoes (h : History) (hasSession : String → Bool) (myUsername : String)
    (event : InboundEvent) (m : ForwardedMessage) : Prop :=
  h.isPrimaryDevice = true ∧ forwardedMessage event = some m ∧
  ∃ pin routes, h.contactRosters.get myUsername = some pin ∧
    h.forwardTargets hasSession pin ≠ [] ∧
    sealDevices K { D with session := fun _ _ => .ok () } myUsername 0 (h.forwardTargets hasSession pin) = .ok routes

variable {K D relay}

theorem fanDevices_ne_nil {username : String} {member : Option GroupMember} {request k : ℕ}
    {ds : List RosterDevice} :
    (fanDevices K D username member request k ds).2 ≠ [] ↔ FirstReached K D username k ds := by
  unfold FirstReached
  cases ds with
  | nil => simp [fanDevices]
  | cons d ds =>
    unfold fanDevices
    cases hmailbox : deviceMailboxHash K.crypto.sha
      (identityHash K.crypto.sha username) d.deviceId with
    | none => simp [hmailbox]
    | some mailbox =>
      dsimp only
      cases hsession : D.session k ⟨d.deviceId, d.identityKey, mailbox.asStr⟩ with
      | error e => simp [hmailbox, hsession]
      | ok u =>
        dsimp only
        cases hencrypt : D.encrypt k ⟨d.deviceId, d.identityKey, mailbox.asStr⟩ with
        | error e => simp [hmailbox, hencrypt]
        | ok u =>
          have hreached : ∃ d' mailbox', (d :: ds).head? = some d' ∧
              deviceMailboxHash K.crypto.sha (identityHash K.crypto.sha username) d'.deviceId = some mailbox' ∧
              D.session k ⟨d'.deviceId, d'.identityKey, mailbox'.asStr⟩ = .ok () ∧
              D.encrypt k ⟨d'.deviceId, d'.identityKey, mailbox'.asStr⟩ = .ok () :=
            ⟨d, mailbox, rfl, hmailbox, hsession, hencrypt⟩
          refine iff_of_true ?_ hreached
          dsimp only
          split <;> simp

/-- Where no copy fails there is one for each device. -/
theorem fanDevices_length {username : String} {member : Option GroupMember} {request : ℕ} :
    ∀ {k : ℕ} {ds : List RosterDevice}, (fanDevices K D username member request k ds).1 = .ok () →
      (fanDevices K D username member request k ds).2.length = ds.length
  | _, [], _ => rfl
  | k, d :: ds, hok => by
    unfold fanDevices at hok ⊢
    split at hok
    · cases hok
    dsimp only at hok
    split at hok
    · cases hok
    split at hok
    · cases hok
    split at hok
    · cases hok
    rename_i _ _ hsession _ hencrypt _ hpost
    dsimp only
    rw [hsession]
    dsimp only
    rw [hencrypt]
    dsimp only
    rw [hpost]
    dsimp only
    rw [List.length_cons, List.length_cons, fanDevices_length hok]

theorem sealDevices_length {username : String} {k : ℕ} {ds : List RosterDevice}
    {routes : List DeviceRoute} (hok : sealDevices K D username k ds = .ok routes) :
    routes.length = ds.length := by
  unfold sealDevices at hok
  split at hok
  · cases hok
  · rename_i copies hfan
    cases hok
    have hlength := fanDevices_length (congrArg Prod.fst hfan)
    rw [hfan] at hlength
    rw [List.length_map]
    exact hlength

/-- A fan-out is prepared exactly if it goes. -/
theorem prepareFanout_ok_iff {P : Type} {ids : ℕ → String} {n now : ℕ} {h : History}
    {myUsername contact : String} {payload : P}
    {selfPayload : Option (String → String → String → P)} {sentAt : Option ℕ} :
    (∃ f h', Client.prepareFanout K D relay ids n h myUsername contact payload selfPayload sentAt now = (.ok f, h')) ↔
      FanoutGoes K D relay h myUsername contact selfPayload.isSome := by
  unfold Client.prepareFanout FanoutGoes
  constructor
  · rintro ⟨f, h', hok⟩
    split at hok
    · cases hok
    rename_i rec h₁ hrec
    split at hok
    · cases hok
    rename_i me h₂ hme
    dsimp only at hok
    split at hok
    · cases hok
    rename_i routes hroutes
    refine ⟨rec, h₁, me, h₂, routes, hrec, hme, hroutes, fun hsyncs => ?_⟩
    split at hok
    · cases hsyncs
    split at hok
    · cases hok
    rename_i own hown
    exact ⟨own, hown⟩
  · rintro ⟨rec, h₁, me, h₂, routes, hrec, hme, hroutes, hsyncs⟩
    rw [hrec]
    dsimp only
    rw [hme]
    dsimp only
    rw [hroutes]
    dsimp only
    cases selfPayload with
    | none => exact ⟨_, _, rfl⟩
    | some build =>
      obtain ⟨own, hown⟩ := hsyncs rfl
      have hsame : (h₂.setSelfPrimaryKey me.primaryKey).selfDeviceId = h₂.selfDeviceId := rfl
      dsimp only
      rw [hsame, hown]
      exact ⟨_, _, rfl⟩

/-- The recipient's copies share the first id that is drawn; each of the own
devices' has one behind it. -/
theorem prepareFanout_copies {P : Type} {ids : ℕ → String} {n now : ℕ} {h h' : History}
    {myUsername contact : String} {payload : P}
    {selfPayload : Option (String → String → String → P)} {sentAt : Option ℕ} {f : Fanout P}
    (hok : Client.prepareFanout K D relay ids n h myUsername contact payload selfPayload sentAt now = (.ok f, h')) :
    f.immediate ≠ [] ∧ (∀ c ∈ f.immediate, c.username = contact ∧ c.msgId = ids n ∧
      c.payload = payload) ∧
      ∀ c ∈ f.deferred, c.username = myUsername ∧
      ∃ i < f.deferred.length, c.msgId = ids (n + 1 + i) := by
  unfold Client.prepareFanout at hok
  split at hok
  · cases hok
  rename_i rec h₁ hrec
  split at hok
  · cases hok
  dsimp only at hok
  split at hok
  · cases hok
  rename_i routes hroutes
  have himmediate :
      routes.map (fun route => (⟨contact, route, ids n, payload⟩ : MessageCopy P)) ≠ [] ∧
      ∀ c ∈ routes.map (fun route => (⟨contact, route, ids n, payload⟩ : MessageCopy P)),
        c.username = contact ∧ c.msgId = ids n ∧ c.payload = payload := by
    constructor
    · intro hnil
      have hlength := sealDevices_length hroutes
      rw [List.map_eq_nil_iff.mp hnil] at hlength
      exact (resolve_devices hrec).1 (List.length_eq_zero_iff.mp hlength.symm)
    · intro c hc
      obtain ⟨route, -, rfl⟩ := List.mem_map.mp hc
      exact ⟨rfl, rfl, rfl⟩
  split at hok
  · cases hok
    exact ⟨himmediate.1, himmediate.2, by simp⟩
  split at hok
  · cases hok
  cases hok
  refine ⟨himmediate.1, himmediate.2, fun c hc => ?_⟩
  obtain ⟨i, hi, rfl⟩ := List.mem_mapIdx.mp hc
  refine ⟨rfl, i, ?_, rfl⟩
  rw [List.length_mapIdx]
  exact hi

theorem prepareSelfOnly_copies {P : Type} {h h' : History} {myUsername msgId : String} {payload : P}
    {copies : List (MessageCopy P)}
    (hok : Client.prepareSelfOnly K D relay h myUsername payload msgId = (.ok copies, h')) :
    ∀ c ∈ copies, c.username = myUsername ∧ c.msgId = msgId := by
  unfold Client.prepareSelfOnly at hok
  split at hok
  · cases hok
  dsimp only at hok
  split at hok
  · cases hok
  cases hok
  intro c hc
  obtain ⟨route, -, rfl⟩ := List.mem_map.mp hc
  exact ⟨rfl, rfl⟩

/-! ### Group payloads -/

theorem fanMembers_member : ∀ {ms : List GroupMember} {n k : ℕ} {h : History} {c : SealedCopy},
    c ∈ (fanMembers K D relay n k h ms).2.1 → ∃ m ∈ ms, c.member = some m
  | [], _, _, _, c, hc => by simp [fanMembers] at hc
  | m :: ms, n, k, h, c, hc => by
    cases hres : resolveAccountDevices K h m.username (relay n).1 (relay n).2 with
    | mk r h' =>
      cases r with
      | error e =>
        unfold fanMembers at hc
        rw [hres] at hc
        cases hc
      | ok resolved =>
        rcases mem_fanMembers_cons hres hc with hc | ⟨k', hc⟩
        · exact ⟨m, List.mem_cons_self, (fanDevices_mem hc).1⟩
        · obtain ⟨m', hm', hmember⟩ := fanMembers_member hc
          exact ⟨m', List.mem_cons_of_mem _ hm', hmember⟩

theorem fanOwn_member {n k : ℕ} {h : History} {myUsername : String} {c : SealedCopy}
    (hc : c ∈ (fanOwn K D relay n k h myUsername).2.1) : c.member = none := by
  unfold fanOwn at hc
  split at hc
  · cases hc
  dsimp only at hc
  split at hc
  · exact (fanDevices_mem hc).1
  · cases hc

theorem fanMembers_ne_nil {ms : List GroupMember} {h : History} :
    (fanMembers K D relay 0 0 h ms).2.1 ≠ [] ↔ MembersReached K D relay h ms := by
  unfold MembersReached
  cases ms with
  | nil => simp [fanMembers]
  | cons m ms =>
    unfold fanMembers
    cases hres : resolveAccountDevices K h m.username (relay 0).1 (relay 0).2 with
    | mk r h' =>
      cases r with
      | error e => simp [hres]
      | ok devs =>
        have hreached : (∃ m' devs' h₁, (m :: ms).head? = some m' ∧
            resolveAccountDevices K h m'.username (relay 0).1 (relay 0).2 = (.ok devs', h₁) ∧
            FirstReached K D m'.username 0 devs'.devices) ↔ FirstReached K D m.username 0 devs.devices := by
          simp [hres]
        have hfirst : (fanDevices K D m.username (some m) 0 0 devs.devices).2 ≠ [] ↔ _ :=
          fanDevices_ne_nil
        rw [hreached, ← hfirst]
        dsimp only
        cases hfan : fanDevices K D m.username (some m) 0 0 devs.devices with
        | mk r copies =>
          cases r with
          | error e => rfl
          | ok u =>
            -- no copy fails, so there is one for each device
            have hlength := fanDevices_length (congrArg Prod.fst hfan)
            rw [hfan] at hlength
            dsimp only at hlength
            have hsome : copies ≠ [] := by
              intro hnil
              rw [hnil] at hlength
              exact (resolve_devices hres).1 (List.length_eq_zero_iff.mp hlength.symm)
            dsimp only
            exact iff_of_true (by simp [hsome]) hsome

theorem fanOwn_ne_nil {n k : ℕ} {h : History} {myUsername : String} :
    (fanOwn K D relay n k h myUsername).2.1 ≠ [] ↔ ∃ me h₂,
      resolveAccountDevices K h myUsername (relay n).1 (relay n).2 = (.ok me, h₂) ∧
      1 < me.devices.length ∧
        FirstReached K D myUsername k (me.devices.filter fun d => d.deviceId ≠ h₂.selfDeviceId) := by
  unfold fanOwn
  cases hres : resolveAccountDevices K h myUsername (relay n).1 (relay n).2 with
  | mk r h' =>
    cases r with
    | error e => simp
    | ok me =>
      have hsame : (h'.setSelfPrimaryKey me.primaryKey).selfDeviceId = h'.selfDeviceId := rfl
      have hfirst : (fanDevices K D myUsername none n k
          (me.devices.filter fun d => d.deviceId ≠ h'.selfDeviceId)).2 ≠ [] ↔ _ := fanDevices_ne_nil
      dsimp only
      rw [hsame]
      by_cases hmore : me.devices.length > 1
      · rw [if_pos hmore]
        dsimp only
        rw [hfirst]
        constructor
        · exact fun hreached => ⟨me, h', rfl, hmore, hreached⟩
        · rintro ⟨me', h₂, heq, -, hreached⟩
          cases heq
          exact hreached
      · rw [if_neg hmore]
        refine iff_of_false (fun hne => hne rfl) ?_
        rintro ⟨me', h₂, heq, hmore', -⟩
        cases heq
        exact hmore hmore'

section group

variable {P : Type} {h : History} {myUsername msgId : String} {members : List GroupMember}
  {payload : P}

/-- The copies of a group payload are those for the other members, and behind them the own ones. -/
theorem fanGroupPayload_copies (K : KtClient) (D : Sending) (relay : Answers) (h : History)
    (myUsername : String) (members : List GroupMember) :
    ∃ own, (fanGroupPayload K D relay h myUsername members).2.1 =
      (fanMembers K D relay 0 0 h (members.filter fun m => m.username ≠ myUsername)).2.1 ++ own ∧
    (∀ c ∈ own, c.member = none) ∧
    (own ≠ [] ↔ OwnReached K D relay h myUsername (members.filter fun m => m.username ≠ myUsername)) := by
  unfold fanGroupPayload OwnReached
  dsimp only
  rcases hfan : fanMembers K D relay 0 0 h (members.filter fun m => m.username ≠ myUsername) with ⟨r, copies, h₁⟩
  cases r with
  | error e =>
    refine ⟨[], by simp, by simp, ?_⟩
    simp
  | ok u =>
    refine ⟨(fanOwn K D relay (members.filter fun m => m.username ≠ myUsername).length copies.length h₁ myUsername).2.1,
      rfl, fun c hc => fanOwn_member hc, ?_⟩
    rw [fanOwn_ne_nil]
    constructor
    · rintro ⟨me, h₂, hres, hmore, hreached⟩
      exact ⟨copies, h₁, me, h₂, rfl, hres, hmore, hreached⟩
    · rintro ⟨copies', h₁', me, h₂, heq, hres, hmore, hreached⟩
      cases heq
      exact ⟨me, h₂, hres, hmore, hreached⟩

theorem mem_groupCopies {c : MessageCopy P}
    (hc : c ∈ groupCopies K D relay h myUsername members payload msgId) :
    c.msgId = msgId ∧ c.payload = payload := by
  obtain ⟨c', -, rfl⟩ := List.mem_map.mp hc
  exact ⟨rfl, rfl⟩

/-- A copy goes to another account exactly if the first member is reached. -/
theorem groupCopies_members :
    (∃ c ∈ groupCopies K D relay h myUsername members payload msgId, c.username ≠ myUsername) ↔
    MembersReached K D relay h (members.filter fun m => m.username ≠ myUsername) := by
  obtain ⟨own, hcopies, hown, -⟩ := fanGroupPayload_copies K D relay h myUsername members
  unfold groupCopies
  rw [hcopies, ← fanMembers_ne_nil]
  constructor
  · rintro ⟨c, hc, hother⟩
    obtain ⟨c', hc', rfl⟩ := List.mem_map.mp hc
    rcases List.mem_append.mp hc' with hmember | hmine
    · exact List.ne_nil_of_mem hmember
    · rw [hown c' hmine] at hother
      exact absurd rfl hother
  · intro hsome
    obtain ⟨c, hc⟩ := List.exists_mem_of_ne_nil _ hsome
    obtain ⟨m, hm, hmember⟩ := fanMembers_member hc
    refine ⟨_, List.mem_map.mpr ⟨c, List.mem_append_left _ hc, rfl⟩, ?_⟩
    rw [hmember]
    simpa using (List.mem_filter.mp hm).2

/-- A copy goes to an own device exactly if the first of them is reached. -/
theorem groupCopies_own :
    (∃ c ∈ groupCopies K D relay h myUsername members payload msgId, c.username = myUsername) ↔
    OwnReached K D relay h myUsername (members.filter fun m => m.username ≠ myUsername) := by
  obtain ⟨own, hcopies, hown, hreached⟩ := fanGroupPayload_copies K D relay h myUsername members
  unfold groupCopies
  rw [hcopies, ← hreached]
  constructor
  · rintro ⟨c, hc, hmine⟩
    obtain ⟨c', hc', rfl⟩ := List.mem_map.mp hc
    rcases List.mem_append.mp hc' with hmember | hin
    · obtain ⟨m, hm, hmember⟩ := fanMembers_member hmember
      rw [hmember] at hmine
      have hother := (List.mem_filter.mp hm).2
      simp only [ne_eq, decide_not, Bool.not_eq_true', decide_eq_false_iff_not] at hother
      exact absurd hmine hother
    · exact List.ne_nil_of_mem hin
  · intro hsome
    obtain ⟨c, hc⟩ := List.exists_mem_of_ne_nil _ hsome
    refine ⟨_, List.mem_map.mpr ⟨c, List.mem_append_right _ hc, rfl⟩, ?_⟩
    rw [hown c hc]
    rfl

/-- The own devices come last: where there are other members, the first of them was reached. -/
theorem membersReached_of_own {others : List GroupMember}
    (ho : OwnReached K D relay h myUsername others) (hothers : others ≠ []) :
    MembersReached K D relay h others := by
  obtain ⟨copies, h₁, -, -, hfan, -⟩ := ho
  cases others with
  | nil => exact absurd rfl hothers
  | cons m ms =>
    unfold fanMembers at hfan
    split at hfan
    · cases hfan
    rename_i devs h₂ hres
    split at hfan
    · cases hfan
    rename_i first hfirst
    have hlength := fanDevices_length (congrArg Prod.fst hfirst)
    rw [hfirst] at hlength
    dsimp only at hlength
    have hsome : first ≠ [] := by
      intro hnil
      rw [hnil] at hlength
      exact (resolve_devices hres).1 (List.length_eq_zero_iff.mp hlength.symm)
    have hne : (fanDevices K D m.username (some m) 0 0 devs.devices).2 ≠ [] := by
      rw [hfirst]
      exact hsome
    exact ⟨m, devs, h₂, rfl, hres, fanDevices_ne_nil.mp hne⟩

end group

/-! ### Forwarded messages -/

theorem mem_forwardInboundSync {P : Type} {h : History} {hasSession : String → Bool}
    {myUsername : String} {event : InboundEvent} {forwardIncoming : ForwardedMessage → P}
    {c : MessageCopy P}
    (hc : c ∈ (Client.forwardInboundSync K D h hasSession myUsername event forwardIncoming).toOption.getD []) :
    c.username = myUsername ∧ ∃ m, ForwardGoes K D h hasSession myUsername event m ∧
    c.msgId = m.msgId := by
  unfold Client.forwardInboundSync at hc
  split at hc
  · cases hc
  rename_i hprimary
  split at hc
  · cases hc
  rename_i m hm
  split at hc
  · cases hc
  rename_i pin hpin
  split at hc
  · cases hc
  rename_i routes hroutes
  obtain ⟨route, hroute, rfl⟩ := List.mem_map.mp hc
  refine ⟨rfl, m, ⟨by simpa using hprimary, hm, pin, routes, hpin, ?_, hroutes⟩, rfl⟩
  intro hnil
  have hlength := sealDevices_length hroutes
  rw [hnil] at hlength
  rw [List.length_eq_zero_iff.mp hlength] at hroute
  cases hroute

/-- A message that is forwarded has a copy, under its own id. -/
theorem ForwardGoes.copy {P : Type} {h : History} {hasSession : String → Bool} {myUsername : String}
    {event : InboundEvent} {m : ForwardedMessage}
    (hg : ForwardGoes K D h hasSession myUsername event m)
    (forwardIncoming : ForwardedMessage → P) :
    ∃ c ∈ (Client.forwardInboundSync K D h hasSession myUsername event forwardIncoming).toOption.getD [],
      c.username = myUsername ∧ c.msgId = m.msgId := by
  obtain ⟨hprimary, hm, pin, routes, hpin, hsome, hroutes⟩ := hg
  have hroute : routes ≠ [] := by
    intro hnil
    have hlength := sealDevices_length hroutes
    rw [hnil] at hlength
    exact hsome (List.length_eq_zero_iff.mp hlength.symm)
  obtain ⟨route, hroute⟩ := List.exists_mem_of_ne_nil _ hroute
  unfold Client.forwardInboundSync
  rw [if_neg (by simp [hprimary]), hm]
  dsimp only
  rw [hpin]
  dsimp only
  rw [hroutes]
  exact ⟨_, List.mem_map.mpr ⟨route, hroute, rfl⟩, rfl, rfl⟩

end reached

/-! ### One call -/

namespace Copier

variable {P : Type} (M : Copier P) (s : CopyState P)

/-- **When the copies stay apart**: a payload for others names no id that an own
device's copy has; a group payload that goes to an own device goes to nobody else; and what is
forwarded came from an own device, under an id that only this client has. -/
def Fits : CopyOp P → Prop
  | .fanout D relay contact payload selfPayload _ _ =>
    FanoutGoes M.client D relay s.history M.account contact selfPayload.isSome →
    contact ≠ M.account →
      ∀ c ∈ s.sent, c.username = M.account → c.msgId ∉ M.names payload
  | .selfOnly _ _ _ | .receive _ => True
  | .group D relay members payload =>
    (MembersReached M.client D relay s.history (members.filter fun m => m.username ≠ M.account) →
      ∀ c ∈ s.sent, c.username = M.account → c.msgId ∉ M.names payload) ∧
    (OwnReached M.client D relay s.history M.account (members.filter fun m => m.username ≠ M.account) →
      members.filter (fun m => m.username ≠ M.account) = [])
  | .forward D hasSession event => ∀ m, ForwardGoes M.client D s.history hasSession M.account event m →
    (s.history.isOwnDevice m.fromKey = true ∨ s.history.selfPrimaryKey = some m.fromKey) ∧
    M.Private s m.msgId

/-- No id that is still to be drawn has been named. -/
def Ahead : Prop := ∀ id ∈ M.known s, ∀ i, s.draws ≤ i → M.ids i ≠ id

variable {M s}

theorem mem_known {id : String} : id ∈ M.known s ↔
    id ∈ s.received ∨ ∃ c ∈ s.sent, c.username ≠ M.account ∧
    (id = c.msgId ∨ id ∈ M.names c.payload) := by
  simp [known, and_assoc]

/-- What is known after more copies were sent. -/
theorem mem_known_sent {h : History} {draws : ℕ} {copies : List (MessageCopy P)} {id : String} :
    id ∈ M.known { s with history := h, draws, sent := s.sent ++ copies } ↔
      id ∈ M.known s ∨ ∃ c ∈ copies, c.username ≠ M.account ∧
      (id = c.msgId ∨ id ∈ M.names c.payload) := by
  rw [mem_known, mem_known]
  simp only [List.mem_append]
  constructor
  · rintro (hin | ⟨c, hold | hnew, hc⟩)
    · exact Or.inl (Or.inl hin)
    · exact Or.inl (Or.inr ⟨c, hold, hc⟩)
    · exact Or.inr ⟨c, hnew, hc⟩
  · rintro ((hin | ⟨c, hold, hc⟩) | ⟨c, hnew, hc⟩)
    · exact Or.inl hin
    · exact Or.inr ⟨c, Or.inl hold, hc⟩
    · exact Or.inr ⟨c, Or.inr hnew, hc⟩

theorem mem_known_received {ids : List String} {copies : List (MessageCopy P)} {id : String}
    (hmine : ∀ c ∈ copies, c.username = M.account) :
    id ∈ M.known { s with received := s.received ++ ids, sent := s.sent ++ copies } ↔
    id ∈ M.known s ∨ id ∈ ids := by
  rw [mem_known, mem_known]
  simp only [List.mem_append]
  constructor
  · rintro ((hin | hnew) | ⟨c, hold | hcopy, hc⟩)
    · exact Or.inl (Or.inl hin)
    · exact Or.inr hnew
    · exact Or.inl (Or.inr ⟨c, hold, hc⟩)
    · exact absurd (hmine c hcopy) hc.1
  · rintro ((hin | ⟨c, hold, hc⟩) | hnew)
    · exact Or.inl (Or.inl hin)
    · exact Or.inr ⟨c, Or.inl hold, hc⟩
    · exact Or.inl (Or.inr hnew)

/-- Copies under ids that were drawn for them leave nothing named that is still to be drawn. -/
theorem Ahead.sent (hahead : M.Ahead s) (hinj : Function.Injective M.ids) {h : History} {draws : ℕ}
    {copies : List (MessageCopy P)} (hle : s.draws ≤ draws)
    (hdrawn : ∀ c ∈ copies, ∃ i, s.draws ≤ i ∧ i < draws ∧ c.msgId = M.ids i)
    (hnames : ∀ c ∈ copies, c.username ≠ M.account → ∀ id ∈ M.names c.payload, ∀ i, s.draws ≤ i → M.ids i ≠ id) :
    M.Ahead { s with history := h, draws, sent := s.sent ++ copies } := by
  intro id hid i hi heq
  have hi' : draws ≤ i := hi
  rcases mem_known_sent.mp hid with hold | ⟨c, hc, hother, rfl | hname⟩
  · exact hahead id hold i (le_trans hle hi') heq
  · obtain ⟨j, -, hj, hcid⟩ := hdrawn c hc
    have hij : i = j := hinj (heq.trans hcid)
    omega
  · exact hnames c hc hother id hname i (le_trans hle hi') heq

/-- They are unshadowed exactly if those for others name no id of an own copy, and
share none with one. -/
theorem unshadowed_sent (hahead : M.Ahead s) (hinj : Function.Injective M.ids) (hs : M.Unshadowed s)
    {h : History} {draws : ℕ} {copies : List (MessageCopy P)} (hle : s.draws ≤ draws)
    (hdrawn : ∀ c ∈ copies, ∃ i, s.draws ≤ i ∧ i < draws ∧ c.msgId = M.ids i)
    (hnames : ∀ c ∈ copies, c.username ≠ M.account → ∀ id ∈ M.names c.payload, ∀ i, s.draws ≤ i → M.ids i ≠ id) :
    M.Unshadowed { s with history := h, draws, sent := s.sent ++ copies } ↔
      ∀ c' ∈ copies, c'.username ≠ M.account →
        (∀ c ∈ s.sent, c.username = M.account → c.msgId ∉ M.names c'.payload) ∧
        ∀ c ∈ copies, c.username = M.account → c.msgId ≠ c'.msgId := by
  constructor
  · intro hafter c' hc' hother
    constructor
    · intro c hc hmine hname
      have hprivate := hafter c (List.mem_append_left _ hc) hmine
      exact hprivate.2 (mem_known_sent.mpr (Or.inr ⟨c', hc', hother, Or.inr hname⟩))
    · intro c hc hmine hsame
      have hprivate := hafter c (List.mem_append_right _ hc) hmine
      exact hprivate.2 (mem_known_sent.mpr (Or.inr ⟨c', hc', hother, Or.inl hsame⟩))
  · intro hothers c hc hmine
    rcases List.mem_append.mp hc with hold | hnew
    · obtain ⟨⟨i, hi, hid⟩, hunknown⟩ := hs c hold hmine
      refine ⟨⟨i, lt_of_lt_of_le hi hle, hid⟩, fun hknown => ?_⟩
      rcases mem_known_sent.mp hknown with hknown | ⟨c', hc', hother, hsame | hname⟩
      · exact hunknown hknown
      · -- an id that was drawn before is not drawn again
        obtain ⟨j, hj, -, hcid⟩ := hdrawn c' hc'
        have hij : i = j := hinj (hid.trans (hsame.trans hcid))
        omega
      · exact (hothers c' hc' hother).1 c hold hmine hname
    · obtain ⟨i, hi, hlt, hid⟩ := hdrawn c hnew
      refine ⟨⟨i, hlt, hid.symm⟩, fun hknown => ?_⟩
      rcases mem_known_sent.mp hknown with hknown | ⟨c', hc', hother, hsame | hname⟩
      · exact hahead c.msgId hknown i hi hid.symm
      · exact (hothers c' hc' hother).2 c hnew hmine hsame
      · exact hnames c' hc' hother c.msgId hname i hi hid.symm

theorem step_fanout_ok {D : Sending} {relay : Answers} {contact : String} {payload : P}
    {selfPayload : Option (String → String → String → P)} {sentAt : Option ℕ} {now : ℕ}
    {f : Fanout P} {h : History}
    (hok : Client.prepareFanout M.client D relay M.ids s.draws s.history M.account contact payload selfPayload sentAt
      now = (.ok f, h)) :
    M.step s (.fanout D relay contact payload selfPayload sentAt now) =
      { s with
        history := h, draws := s.draws + 1 + f.deferred.length, sent :=
  s.sent ++ (f.immediate ++ f.deferred) } := by
  dsimp only [step]
  rw [hok]

theorem step_fanout_error {D : Sending} {relay : Answers} {contact : String} {payload : P}
    {selfPayload : Option (String → String → String → P)} {sentAt : Option ℕ} {now : ℕ}
    {e : ClientError} {h : History}
    (herror : Client.prepareFanout M.client D relay M.ids s.draws s.history M.account contact payload selfPayload sentAt
      now = (.error e, h)) :
    M.step s (.fanout D relay contact payload selfPayload sentAt now) =
      { s with history := h } := by
  dsimp only [step]
  rw [herror]

theorem step_fanout (hinj : Function.Injective M.ids) (hahead : M.Ahead s) {D : Sending}
    {relay : Answers} {contact : String} {payload : P}
    {selfPayload : Option (String → String → String → P)} {sentAt : Option ℕ} {now : ℕ}
    (hrandom : M.Random s (.fanout D relay contact payload selfPayload sentAt now)) :
    M.Ahead (M.step s (.fanout D relay contact payload selfPayload sentAt now)) ∧
      (M.Unshadowed s → (M.Unshadowed (M.step s (.fanout D relay contact payload selfPayload sentAt now)) ↔
        M.Fits s (.fanout D relay contact payload selfPayload sentAt now))) := by
  rcases hr : Client.prepareFanout M.client D relay M.ids s.draws s.history M.account contact payload selfPayload sentAt
    now with ⟨r, h⟩
  cases r with
  | error e =>
    have hstays : ¬ FanoutGoes M.client D relay s.history M.account contact selfPayload.isSome := by
      intro hgoes
      obtain ⟨f, h', hok⟩ := prepareFanout_ok_iff.mpr hgoes
      rw [hr] at hok
      cases hok
    rw [step_fanout_error hr]
    exact ⟨hahead, fun hs => iff_of_true hs fun hgoes => absurd hgoes hstays⟩
  | ok f =>
    have hgoes : FanoutGoes M.client D relay s.history M.account contact selfPayload.isSome :=
      prepareFanout_ok_iff.mp ⟨f, h, hr⟩
    obtain ⟨hsome, himmediate, hdeferred⟩ := prepareFanout_copies hr
    have hdrawn : ∀ c ∈ f.immediate ++ f.deferred,
        ∃ i, s.draws ≤ i ∧ i < s.draws + 1 + f.deferred.length ∧ c.msgId = M.ids i := by
      intro c hc
      rcases List.mem_append.mp hc with hnow | hlater
      · exact ⟨s.draws, le_rfl, by omega, (himmediate c hnow).2.1⟩
      · obtain ⟨-, i, hi, hid⟩ := hdeferred c hlater
        exact ⟨s.draws + 1 + i, by omega, by omega, hid⟩
    have hpayload : ∀ c ∈ f.immediate ++ f.deferred, c.username ≠ M.account → c ∈ f.immediate := by
      intro c hc hother
      rcases List.mem_append.mp hc with hnow | hlater
      · exact hnow
      · exact absurd (hdeferred c hlater).1 hother
    have hnames : ∀ c ∈ f.immediate ++ f.deferred, c.username ≠ M.account →
        ∀ id ∈ M.names c.payload, ∀ i, s.draws ≤ i → M.ids i ≠ id := by
      intro c hc hother
      rw [(himmediate c (hpayload c hc hother)).2.2]
      exact hrandom
    have hle : s.draws ≤ s.draws + 1 + f.deferred.length := by omega
    rw [step_fanout_ok hr]
    refine ⟨hahead.sent hinj hle hdrawn hnames, fun hs => ?_⟩
    rw [unshadowed_sent hahead hinj hs hle hdrawn hnames]
    constructor
    · intro hothers _ hcontact
      obtain ⟨c', hc'⟩ := List.exists_mem_of_ne_nil _ hsome
      obtain ⟨hname, -, hsame⟩ := himmediate c' hc'
      have hold := (hothers c' (List.mem_append_left _ hc') (by rw [hname]; exact hcontact)).1
      rwa [hsame] at hold
    · intro hfits c' hc' hother
      have hnow := hpayload c' hc' hother
      obtain ⟨hname, hid, hsame⟩ := himmediate c' hnow
      rw [hname] at hother
      rw [hsame]
      refine ⟨hfits hgoes hother, fun c hc hmine => ?_⟩
      rcases List.mem_append.mp hc with hfirst | hlater
      · exact absurd ((himmediate c hfirst).1.symm.trans hmine) hother
      · -- an own device's id is drawn behind that of the message
        obtain ⟨-, i, -, hlast⟩ := hdeferred c hlater
        rw [hlast, hid]
        intro heq
        have hsucc : s.draws + 1 + i = s.draws := hinj heq
        omega

/-- Copies for own devices alone stay unshadowed. -/
theorem step_selfOnly (hinj : Function.Injective M.ids) (hahead : M.Ahead s) {D : Sending}
    {relay : Answers} {payload : P} :
    M.Ahead (M.step s (.selfOnly D relay payload)) ∧
      (M.Unshadowed s → M.Unshadowed (M.step s (.selfOnly D relay payload))) := by
  dsimp only [step]
  split
  · exact ⟨hahead, id⟩
  · rename_i copies h hok
    have hmine := prepareSelfOnly_copies hok
    have hle : s.draws ≤ s.draws + 1 := by omega
    have hdrawn : ∀ c ∈ copies, ∃ i, s.draws ≤ i ∧ i < s.draws + 1 ∧ c.msgId = M.ids i :=
      fun c hc => ⟨s.draws, le_rfl, by omega, (hmine c hc).2⟩
    have hnames : ∀ c ∈ copies, c.username ≠ M.account →
        ∀ id ∈ M.names c.payload, ∀ i, s.draws ≤ i → M.ids i ≠ id :=
      fun c hc hother => absurd (hmine c hc).1 hother
    refine ⟨hahead.sent hinj hle hdrawn hnames, fun hs => ?_⟩
    rw [unshadowed_sent hahead hinj hs hle hdrawn hnames]
    exact fun c' hc' hother => absurd (hmine c' hc').1 hother

theorem step_group (hinj : Function.Injective M.ids) (hahead : M.Ahead s) {D : Sending}
    {relay : Answers} {members : List GroupMember} {payload : P}
    (hrandom : M.Random s (.group D relay members payload)) :
    M.Ahead (M.step s (.group D relay members payload)) ∧
      (M.Unshadowed s → (M.Unshadowed (M.step s (.group D relay members payload)) ↔
        M.Fits s (.group D relay members payload))) := by
  have hall : ∀ c ∈ groupCopies M.client D relay s.history M.account members payload
      (M.ids s.draws), c.msgId = M.ids s.draws ∧
      c.payload = payload := fun c hc => mem_groupCopies hc
  have hdrawn : ∀ c ∈ groupCopies M.client D relay s.history M.account members payload
      (M.ids s.draws), ∃ i, s.draws ≤ i ∧ i < s.draws + 1 ∧ c.msgId = M.ids i :=
    fun c hc => ⟨s.draws, le_rfl, by omega, (hall c hc).1⟩
  have hnames : ∀ c ∈ groupCopies M.client D relay s.history M.account members payload
      (M.ids s.draws), c.username ≠ M.account →
      ∀ id ∈ M.names c.payload, ∀ i, s.draws ≤ i → M.ids i ≠ id := by
    intro c hc _
    rw [(hall c hc).2]
    exact hrandom
  have hle : s.draws ≤ s.draws + 1 := by omega
  refine ⟨hahead.sent hinj hle hdrawn hnames, fun hs => ?_⟩
  have hthere : (∃ c ∈ groupCopies M.client D relay s.history M.account members payload (M.ids s.draws),
      c.username ≠ M.account) ↔ _ := groupCopies_members
  have hown : (∃ c ∈ groupCopies M.client D relay s.history M.account members payload (M.ids s.draws),
      c.username = M.account) ↔ _ := groupCopies_own
  have hafter := unshadowed_sent hahead hinj hs hle hdrawn hnames
    (h := (fanGroupPayload M.client D relay s.history M.account members).2.2)
  refine Iff.trans hafter ?_
  dsimp only [Fits]
  rw [← hthere, ← hown]
  constructor
  · intro hothers
    constructor
    · rintro ⟨c', hc', hother⟩
      have hold := (hothers c' hc' hother).1
      rwa [(hall c' hc').2] at hold
    · rintro ⟨c, hc, hmine⟩
      by_contra hsome
      obtain ⟨c', hc', hother⟩ := hthere.mpr (membersReached_of_own (hown.mp ⟨c, hc, hmine⟩) hsome)
      -- both have the id of the message
      exact (hothers c' hc' hother).2 c hc hmine ((hall c hc).1.trans (hall c' hc').1.symm)
  · rintro ⟨hunnamed, halone⟩ c' hc' hother
    rw [(hall c' hc').2]
    refine ⟨hunnamed ⟨c', hc', hother⟩, fun c hc hmine => ?_⟩
    obtain ⟨m, -, -, hfirst, -⟩ := hthere.mp ⟨c', hc', hother⟩
    rw [halone ⟨c, hc, hmine⟩] at hfirst
    cases hfirst

theorem step_forward (hahead : M.Ahead s) {D : Sending} {hasSession : String → Bool}
    {event : InboundEvent} (hrandom : M.Random s (.forward D hasSession event)) :
    M.Ahead (M.step s (.forward D hasSession event)) ∧
      (M.Unshadowed s → (M.Unshadowed (M.step s (.forward D hasSession event)) ↔
        M.Fits s (.forward D hasSession event))) := by
  have hmine : ∀ c ∈ (Client.forwardInboundSync M.client D s.history hasSession M.account event
      M.forwardIncoming).toOption.getD [], c.username = M.account := fun c hc => (mem_forwardInboundSync hc).1
  -- what is known afterwards was known before, or is the id of another account's message
  have hknown : ∀ id, id ∈ M.known (M.step s (.forward D hasSession event)) ↔
      id ∈ M.known s ∨ id ∈ heard s.history event := fun id => mem_known_received hmine
  have hold : ∀ id, (∃ i, M.ids i = id) → id ∈ M.known (M.step s (.forward D hasSession event)) →
      id ∈ M.known s := by
    intro id hid hin
    rcases (hknown id).mp hin with hin | hnew
    · exact hin
    · exact hrandom id hnew hid
  refine ⟨fun id hid i hi heq => hahead id (hold id ⟨i, heq⟩ hid) i hi heq, fun hs => ?_⟩
  constructor
  · intro hafter m hm
    obtain ⟨c, hc, hcmine, hcid⟩ := hm.copy M.forwardIncoming
    have hprivate := hafter c (List.mem_append_right _ hc) hcmine
    rw [hcid] at hprivate
    refine ⟨?_, hprivate.1, fun hin => hprivate.2 ((hknown m.msgId).mpr (Or.inl hin))⟩
    by_contra hother
    have hheard : heard s.history event = [m.msgId] := by
      unfold heard
      rw [hm.2.1]
      exact if_neg hother
    exact hprivate.2 ((hknown m.msgId).mpr (Or.inr (by rw [hheard]; exact List.mem_singleton_self _)))
  · intro hfits c hc hcmine
    rcases List.mem_append.mp hc with hbefore | hnew
    · obtain ⟨⟨i, hi, hid⟩, hunknown⟩ := hs c hbefore hcmine
      exact ⟨⟨i, hi, hid⟩, fun hin => hunknown (hold c.msgId ⟨i, hid⟩ hin)⟩
    · obtain ⟨-, m, hm, hid⟩ := mem_forwardInboundSync hnew
      obtain ⟨-, ⟨i, hi, hdrawn⟩, hunknown⟩ := hfits m hm
      rw [hid]
      exact ⟨⟨i, hi, hdrawn⟩, fun hin => hunknown (hold m.msgId ⟨i, hdrawn⟩ hin)⟩

theorem step_receive (hahead : M.Ahead s) {ids : List String}
    (hrandom : M.Random s (.receive ids)) :
    M.Ahead (M.step s (.receive ids)) ∧
    (M.Unshadowed s → M.Unshadowed (M.step s (.receive ids))) := by
  have hold : ∀ id, (∃ i, M.ids i = id) → id ∈ M.known (M.step s (.receive ids)) →
      id ∈ M.known s := by
    intro id hid hin
    rw [mem_known] at hin
    rcases hin with hin | hcopy
    · rcases List.mem_append.mp hin with hin | hnew
      · exact mem_known.mpr (Or.inl hin)
      · exact hrandom id hnew hid
    · exact mem_known.mpr (Or.inr hcopy)
  refine ⟨fun id hid i hi heq => hahead id (hold id ⟨i, heq⟩ hid) i hi heq, fun hs c hc hmine => ?_⟩
  obtain ⟨⟨i, hi, hid⟩, hunknown⟩ := hs c hc hmine
  exact ⟨⟨i, hi, hid⟩, fun hin => hunknown (hold c.msgId ⟨i, hid⟩ hin)⟩

/-- A call leaves the copies for own devices unshadowed exactly if it fits. -/
theorem unshadowed_step (hinj : Function.Injective M.ids) (hahead : M.Ahead s) (op : CopyOp P)
    (hrandom : M.Random s op) :
    M.Ahead (M.step s op) ∧ (M.Unshadowed s → (M.Unshadowed (M.step s op) ↔ M.Fits s op)) := by
  cases op with
  | fanout D relay contact payload selfPayload sentAt now => exact step_fanout hinj hahead hrandom
  | selfOnly D relay payload =>
    have hstep : M.Ahead (M.step s (.selfOnly D relay payload)) ∧ _ := step_selfOnly hinj hahead
    exact ⟨hstep.1, fun hs => iff_of_true (hstep.2 hs) trivial⟩
  | group D relay members payload => exact step_group hinj hahead hrandom
  | forward D hasSession event => exact step_forward hahead hrandom
  | receive ids =>
    have hstep := step_receive hahead hrandom
    exact ⟨hstep.1, fun hs => iff_of_true (hstep.2 hs) trivial⟩

end Copier

/-! ### The relay -/

/-- An envelope whose id its mailbox holds is not stored. -/
theorem enqueue_taken {st : MessageStore} {env : Envelope} (now : ℕ)
    (hheld : st.Holds env.recipient.asStr env.msgId) :
    (st.enqueue env now).2 = st ∧ ∀ outcome, (st.enqueue env now).1 = .ok outcome →
    outcome.stored = false := by
  rcases st.enqueue_cases env now with ⟨hst, -, hno⟩ | ⟨gone, kept, -, -, -, -, -, -, hnew, -⟩
  · refine ⟨hst, fun outcome hok => ?_⟩
    rw [(hno outcome hok).1]
  · obtain ⟨m, hm, hid⟩ := hheld
    exact absurd hid (hnew m hm)

namespace Copier

variable {P : Type} (M : Copier P) (s : CopyState P)

/-- An id under which another account can post: one that it has, or one that
the client never draws. -/
def Postable (id : String) : Prop := id ∈ M.known s ∨ ∀ i, M.ids i ≠ id

/-- **Where a mailbox holds what others can post, the relay stores each copy for an own device
that it accepts and that is not late.** -/
def Stores : Prop :=
  ∀ c ∈ s.sent, c.username = M.account →
  ∀ (st : MessageStore) (env : Envelope) (now : ℕ) (outcome : Stored),
    env.msgId = c.msgId → (∀ m ∈ st.entries env.recipient.asStr, M.Postable s m.msgId) →
      (st.enqueue env now).1 = .ok outcome → outcome.stored = true ∨
      (env.clamped now).expired now = true

variable {M s}

theorem Unshadowed.stores (hs : M.Unshadowed s) : M.Stores s := by
  intro c hc hmine st env now outcome hid hposted hok
  rcases st.enqueue_cases env now with ⟨-, -, hno⟩ | ⟨gone, kept, -, heq, -⟩
  · rcases (hno outcome hok).2 with hlate | ⟨m, hm, hheld⟩
    · exact Or.inr hlate
    · obtain ⟨⟨i, -, hdrawn⟩, hunknown⟩ := hs c hc hmine
      have hsame : m.msgId = c.msgId := hheld.trans hid
      rcases hposted m hm with hknown | hnever
      · exact absurd (hsame ▸ hknown) hunknown
      · exact absurd (hdrawn.trans hsame.symm) (hnever i)
  · rw [heq] at hok
    cases hok
    exact Or.inl rfl

end Copier

/-! ### Runs -/

/-- **The copies for own devices are unshadowed all along a run exactly if its calls all fit,
and then nothing that others post keeps the relay from storing them.** -/
theorem copies_unshadowed_iff {P : Type} (M : Copier P) (h : History) (ops : List (CopyOp P))
    (hinj : Function.Injective M.ids) (hrandom : Trace.Along M.step M.Random { history := h } ops) :
    (Trace.Along M.step M.Fits { history := h } ops ↔
      ∀ pre, pre <+: ops → M.Unshadowed (Trace.run M.step { history := h } pre)) ∧
    (Trace.Along M.step M.Fits { history := h } ops →
      ∀ pre, pre <+: ops → M.Stores (Trace.run M.step { history := h } pre)) := by
  have hstart : M.Ahead { history := h } ∧ M.Unshadowed { history := h } := by
    constructor
    · intro id hid
      cases hid
    · intro c hc
      cases hc
  have hkeep : ∀ s op, M.Random s op → M.Ahead s ∧ M.Unshadowed s →
      ((M.Ahead (M.step s op) ∧ M.Unshadowed (M.step s op)) ↔ M.Fits s op) := by
    rintro s op hdrawn ⟨hahead, hs⟩
    obtain ⟨hahead', hiff⟩ := Copier.unshadowed_step hinj hahead op hdrawn
    rw [← hiff hs]
    exact and_iff_right hahead'
  have hahead : ∀ pre, pre <+: ops → M.Ahead (Trace.run M.step { history := h } pre) := by
    rintro pre ⟨post, rfl⟩
    have hbefore := ((Trace.along_append M.step M.Random _ pre post).mp hrandom).1
    exact hbefore.inv (I := M.Ahead) (fun s op hs hop => (Copier.unshadowed_step hinj hs op hop).1) hstart.1
  have hiff : Trace.Along M.step M.Fits { history := h } ops ↔
      ∀ pre, pre <+: ops → M.Unshadowed (Trace.run M.step { history := h } pre) := by
    rw [Trace.Along.iff_inv hkeep hstart hrandom]
    exact ⟨fun hall pre hpre => (hall pre hpre).2,
      fun hall pre hpre => ⟨hahead pre hpre, hall pre hpre⟩⟩
  exact ⟨hiff, fun hfits pre hpre => (hiff.mp hfits pre hpre).stores⟩

/-! ### A sender that chooses the id of a copy -/

/-- Ids that are drawn, each longer than the one before. -/
def drawnId (i : ℕ) : String := String.ofList (List.replicate (i + 1) 'd')

theorem drawnId_injective : Function.Injective drawnId := by
  intro i j h
  have hlist : List.replicate (i + 1) 'd' = List.replicate (j + 1) 'd' := String.ofList_inj.mp h
  have hlength := congrArg List.length hlist
  rw [List.length_replicate, List.length_replicate] at hlength
  omega

theorem drawnId_ne (i : ℕ) : drawnId i ≠ "m1" := by
  intro h
  have hlist : List.replicate (i + 1) 'd' = ['m', '1'] := String.ofList_inj.mp h
  rw [List.replicate_succ] at hlist
  exact absurd (List.cons.inj hlist).1 (by decide)

/-- Bob's primary device, with a linked one. -/
def bobCopier : Copier ForwardedMessage :=
  { client := rotatedClient, account := "bob", ids := drawnId, names := fun m => [m.msgId],
    forwardIncoming := id }

/-- A message that mallory sent to the account, under an id of her choice. -/
def fromMallory : InboundEvent := .message malloryIdentity "mallory" "m1" "hi" 1000 none none false

def forwardsMallory : CopyOp ForwardedMessage := .forward allSent (fun _ => true) fromMallory

theorem forwardsMallory_random :
    Trace.Along bobCopier.step bobCopier.Random { history := pinnedBob } [forwardsMallory] := by
  refine ⟨?_, trivial⟩
  rintro id hid ⟨i, hi⟩
  have hheard : Copier.heard pinnedBob fromMallory = ["m1"] := by decide +kernel
  rw [hheard] at hid
  rw [List.mem_singleton.mp hid] at hi
  exact absurd hi (drawnId_ne i)

theorem copies_unshadowed_iff_bob :
    (Trace.Along bobCopier.step bobCopier.Fits { history := pinnedBob } [forwardsMallory] ↔
      ∀ pre, pre <+: [forwardsMallory] →
      bobCopier.Unshadowed (Trace.run bobCopier.step { history := pinnedBob } pre)) ∧
    (Trace.Along bobCopier.step bobCopier.Fits { history := pinnedBob } [forwardsMallory] →
      ∀ pre, pre <+: [forwardsMallory] →
      bobCopier.Stores (Trace.run bobCopier.step { history := pinnedBob } pre)) :=
  copies_unshadowed_iff bobCopier pinnedBob [forwardsMallory] drawnId_injective forwardsMallory_random

def forwardedState : CopyState ForwardedMessage :=
  Trace.run bobCopier.step { history := pinnedBob } [forwardsMallory]

/-- An envelope for the linked device under the id. -/
def underMallorysId (ciphertext : String) : Envelope :=
  { recipient := ⟨deviceMailbox⟩, ciphertext, kind := .message, msgId := "m1", expiresAt := none,
    wake := .none
    rawIdentifier := none }

/-- **The copy for the linked device is under the id that mallory chose, and what she
posted there before it keeps it out.** -/
theorem copies_taken :
    ¬ bobCopier.Unshadowed forwardedState ∧
    (forwardedState.sent.map fun c => (c.username, c.route.deviceId, c.route.mailbox, c.msgId)) =
      [("bob", sampleDevice, deviceMailbox, "m1")] ∧
    ((({} : MessageStore).enqueue (underMallorysId "junk") 1000).2.enqueue (underMallorysId "copy") 1001).1 =
      .ok { stored := false, evicted := [] } := by
  have hsent : (forwardedState.sent.map fun c => (c.username, c.route.deviceId, c.route.mailbox, c.msgId)) =
      [("bob", sampleDevice, deviceMailbox, "m1")] := by decide +kernel
  refine ⟨fun hs => ?_, hsent, by decide +kernel⟩
  obtain ⟨c, hc, hfields⟩ : ∃ c ∈ forwardedState.sent,
      (c.username, c.route.deviceId, c.route.mailbox, c.msgId) =
      ("bob", sampleDevice, deviceMailbox, "m1") := by
    apply List.mem_map.mp
    rw [hsent]
    exact List.mem_singleton_self _
  simp only [Prod.mk.injEq] at hfields
  have hknown : "m1" ∈ bobCopier.known forwardedState := by decide +kernel
  have hprivate := hs c hc hfields.1
  rw [hfields.2.2.2] at hprivate
  exact hprivate.2 hknown

end Sona
