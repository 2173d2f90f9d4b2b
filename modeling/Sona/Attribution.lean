/-
# Which account a device belongs to

`History::attribute_device` reads one flat map from device keys to accounts,
which every roster that is pinned rewrites: `pin_roster` sets the keys it lists and
drops those that left, `clear_pinned_roster` drops them all. It is an instance of
`Flat`: `RosterOp.effect` says what an operation does to the pinned rosters, and the map
follows by `Flat.rewrite` (`RosterOp.step_effect`).

So a pinned contact's device stays with the contact exactly as long as no other
account's roster lists its key, or lets go of it (`device_attribution_iff`). A valid
roster can list it: a device record is signed by the signing key it names, and its
identity key need not be the signer's (`stolen_device_is_attributed`).

Key definitions: `RosterOp`, `RosterOp.effect`, `History.Attributed`, `RosterOp.LeavesOthers`.
-/
import Sona.Routes
import Sona.Lib.Flat
import Sona.Lib.Trace
import Sona.Run

namespace Sona

/-! ### The operations on pinned rosters -/

inductive RosterOp
  | apply (username : String) (update : RosterUpdate)
  | pin (username : String) (bindingSeq seq : ℕ) (primaryKey : String) (devices : List RosterDevice)
  | clear (username : String)
deriving DecidableEq, Repr

def RosterOp.step (h : History) : RosterOp → History
  | .apply username update => (h.applyRosterUpdate username update).2
  | .pin username bindingSeq seq primaryKey devices =>
    (h.pinRoster username bindingSeq seq primaryKey devices).2
  | .clear username => h.clearPinnedRoster username

/-- What pinning a roster does: nothing if it is a rollback. -/
def pinEffect (h : History) (username : String) (bindingSeq seq : ℕ) (primaryKey : String)
    (devices : List RosterDevice) :
    Option (String × Option RosterPin) :=
  if (h.contactRosters.get username).any (·.rolledBack bindingSeq seq primaryKey) then none
  else some (username, some { seq, bindingSeq, primaryKey, devices })

/-- The name whose pin an operation replaces, and the new pin. -/
def RosterOp.effect (h : History) : RosterOp → Option (String × Option RosterPin)
  | .apply _ .stale => none
  | .apply username (.absent primaryKey bindingSeq) =>
    if (h.contactRosters.get username).any fun pin => pin.primaryKey ≠ primaryKey && bindingSeq > pin.bindingSeq then
      some (username, none)
    else none
  | .apply username (.verified bindingSeq seq primaryKey devices) =>
    pinEffect h username bindingSeq seq primaryKey devices
  | .pin username bindingSeq seq primaryKey devices =>
    pinEffect h username bindingSeq seq primaryKey devices
  | .clear username => some (username, none)

/-! ### The map is flat -/

/-- The keys a pinned roster lists, and the account. -/
def RosterPin.holding (pin : RosterPin) : Flat.Holding String String :=
  ⟨pin.devices.map (·.identityKey), pin.primaryKey⟩

def History.holdings (h : History) (username : String) : Option (Flat.Holding String String) :=
  (h.contactRosters.get username).map (·.holding)

/-- **Device attribution belongs to the owner**: the devices of a pinned roster are
filed under its account, and any other key under itself. -/
structure History.Attributed (h : History) : Prop where
  pinned : ∀ username pin, h.contactRosters.get username = some pin → ∀ d ∈ pin.devices,
    h.attributeDevice d.identityKey = pin.primaryKey
  other : ∀ key, (∀ username pin, h.contactRosters.get username = some pin → ∀ d ∈ pin.devices, d.identityKey ≠ key) →
    h.attributeDevice key = key

theorem History.attributed_iff (h : History) :
    h.Attributed ↔ Flat.Agrees id h.holdings h.attributeDevice := by
  constructor
  · intro ha
    refine { listed := fun u o ho k hk => ?_, unlisted := fun k hk => ha.other k fun u pin hpin d hd hkey => ?_ }
    · obtain ⟨pin, hpin, rfl⟩ := Option.map_eq_some_iff.mp ho
      obtain ⟨d, hd, rfl⟩ := List.mem_map.mp hk
      exact ha.pinned u pin hpin d hd
    · have hu := hk u
      rw [History.holdings, hpin] at hu
      exact hu (hkey ▸ List.mem_map_of_mem hd)
  · intro ha
    refine { pinned := fun u pin hpin d hd => ?_, other := fun k hk => ha.unlisted k fun u hku => ?_ }
    · exact ha.listed u pin.holding (by rw [History.holdings, hpin]; rfl) _ (List.mem_map_of_mem hd)
    · unfold History.holdings at hku
      cases hpin : h.contactRosters.get u with
      | none =>
        rw [hpin] at hku
        cases hku
      | some pin =>
        rw [hpin] at hku
        obtain ⟨d, hd, hkey⟩ := List.mem_map.mp hku
        exact hk u pin hpin d hd hkey

theorem get_setOwner (devices : List RosterDevice) (primaryKey : String) (t : Table String String)
    (k : String) :
    (devices.foldl (fun t d => t.set d.identityKey primaryKey) t).get k =
      if k ∈ devices.map (·.identityKey) then some primaryKey else t.get k := by
  induction devices generalizing t with
  | nil => simp
  | cons d devices ih =>
    rw [List.foldl_cons, ih, Table.get_set, List.map_cons]
    by_cases hk : k = d.identityKey
    · simp [hk]
    · simp [hk]

/-- The keys that are in the old list and not in the new one. -/
theorem mem_gone (old new : List RosterDevice) (k : String) :
    k ∈ (old.filter fun o => !new.any fun d => d.identityKey = o.identityKey).map (·.identityKey) ↔
      k ∈ old.map (·.identityKey) ∧ k ∉ new.map (·.identityKey) := by
  simp only [List.mem_map, List.mem_filter, Bool.not_eq_true', List.any_eq_false, decide_eq_true_eq,
    not_exists, not_and]
  constructor
  · rintro ⟨d, ⟨hd, hgone⟩, rfl⟩
    exact ⟨⟨d, hd, rfl⟩, hgone⟩
  · rintro ⟨⟨d, hd, rfl⟩, hgone⟩
    exact ⟨d, ⟨hd, hgone⟩, rfl⟩

/-- The holdings and the map change as an effect says. -/
def Rewritten (h h' : History) : Option (String × Option RosterPin) → Prop
  | none => h' = h
  | some (u, new) => h'.holdings = Function.update h.holdings u (new.map (·.holding)) ∧
      h'.attributeDevice = Flat.rewrite id (h.holdings u) (new.map (·.holding)) h.attributeDevice

theorem History.holdings_of_get {h : History} {username : String} {pin : Option RosterPin}
    (hpin : h.contactRosters.get username = pin) : h.holdings username = pin.map (·.holding) := by
  rw [History.holdings, hpin]

/-- **Pinning a roster rewrites the map for the name.** -/
theorem pinRoster_effect (h : History) (username : String) (bindingSeq seq : ℕ)
    (primaryKey : String) (devices : List RosterDevice) :
    Rewritten h (h.pinRoster username bindingSeq seq primaryKey devices).2
      (pinEffect h username bindingSeq seq primaryKey devices) := by
  have hset : ∀ owner : Table String String,
      History.holdings { h with
        deviceOwner := owner
        contactRosters := h.contactRosters.set username { seq, bindingSeq, primaryKey, devices } } =
      Function.update h.holdings username
      (some (RosterPin.holding { seq, bindingSeq, primaryKey, devices })) := by
    intro owner
    funext u
    unfold History.holdings
    dsimp only
    rw [Table.get_set, Function.update_apply]
    split <;> rfl
  unfold pinEffect History.pinRoster
  cases hpin : h.contactRosters.get username with
  | none =>
    refine ⟨hset _, funext fun k => ?_⟩
    rw [History.holdings_of_get hpin]
    unfold History.attributeDevice Flat.rewrite RosterPin.holding
    simp only [Option.map_some, Option.map_none, Flat.keysOf_none, List.not_mem_nil, if_false,
      get_setOwner]
    split <;> rfl
  | some pin =>
    simp only [Option.any_some]
    by_cases hback : pin.rolledBack bindingSeq seq primaryKey = true
    · rw [if_pos hback, if_pos hback]
      rfl
    · rw [if_neg hback, if_neg hback]
      refine ⟨hset _, funext fun k => ?_⟩
      rw [History.holdings_of_get hpin]
      change ((Table.get _ k).getD k) = _
      rw [get_setOwner, Table.get_removeAll]
      simp only [mem_gone]
      by_cases hnew : k ∈ devices.map (·.identityKey)
      · rw [if_pos hnew]
        exact (Flat.rewrite_entered (n := RosterPin.holding { seq, bindingSeq, primaryKey, devices }) hnew).symm
      · rw [if_neg hnew]
        by_cases hold : k ∈ pin.devices.map (·.identityKey)
        · rw [if_pos ⟨hold, hnew⟩]
          have hleft : Flat.rewrite id (some pin.holding)
              (some (RosterPin.holding { seq, bindingSeq, primaryKey, devices }))
              h.attributeDevice k = k := Flat.rewrite_left hnew hold
          exact hleft.symm
        · rw [if_neg fun hgone => hold hgone.1]
          have hother : Flat.rewrite id (some pin.holding)
              (some (RosterPin.holding { seq, bindingSeq, primaryKey, devices }))
              h.attributeDevice k = h.attributeDevice k := Flat.rewrite_other hnew hold
          exact hother.symm

/-- **Dropping a pin rewrites the map for the name.** -/
theorem clearPinnedRoster_effect (h : History) (username : String) :
    Rewritten h (h.clearPinnedRoster username) (some (username, none)) := by
  unfold History.clearPinnedRoster
  cases hpin : h.contactRosters.get username with
  | none =>
    have hheld : h.holdings username = none := History.holdings_of_get hpin
    refine ⟨?_, funext fun k => ?_⟩
    · rw [Option.map_none, ← hheld, Function.update_eq_self]
    · rw [hheld]
      simp [Flat.rewrite]
  | some pin =>
    refine ⟨funext fun u => ?_, funext fun k => ?_⟩
    · unfold History.holdings
      dsimp only
      rw [Table.get_remove, Function.update_apply]
      split <;> rfl
    · rw [History.holdings_of_get hpin]
      change ((Table.get _ k).getD k) = _
      rw [Table.get_removeAll]
      by_cases hold : k ∈ pin.devices.map (·.identityKey)
      · rw [if_pos hold]
        have hleft : Flat.rewrite id (some pin.holding) none h.attributeDevice k = k :=
          Flat.rewrite_left List.not_mem_nil hold
        exact hleft.symm
      · rw [if_neg hold]
        have hother : Flat.rewrite id (some pin.holding) none h.attributeDevice k =
            h.attributeDevice k :=
          Flat.rewrite_other List.not_mem_nil hold
        exact hother.symm

/-- **An operation does what its effect says.** -/
theorem RosterOp.step_effect (h : History) (op : RosterOp) :
    Rewritten h (op.step h) (op.effect h) := by
  cases op with
  | clear username => exact clearPinnedRoster_effect h username
  | pin username bindingSeq seq primaryKey devices =>
    exact pinRoster_effect h username bindingSeq seq primaryKey devices
  | apply username update =>
    cases update with
    | stale => rfl
    | verified bindingSeq seq primaryKey devices =>
      exact pinRoster_effect h username bindingSeq seq primaryKey devices
    | absent primaryKey bindingSeq =>
      unfold RosterOp.effect RosterOp.step History.applyRosterUpdate
      dsimp only
      cases hpin : h.contactRosters.get username with
      | none => rfl
      | some pin =>
        simp only [Option.any_some, Bool.and_eq_true, decide_eq_true_eq]
        by_cases hmoved : pin.primaryKey ≠ primaryKey ∧ bindingSeq > pin.bindingSeq
        · rw [if_pos hmoved, if_pos hmoved]
          exact clearPinnedRoster_effect h username
        · rw [if_neg hmoved, if_neg hmoved]
          rfl

/-! ### Which account a device belongs to -/

/-- An operation that replaces a pin leaves the devices that other pinned rosters
list: a key that it lists too has the same account there, and one that leaves is
the other account's own. -/
structure RosterOp.LeavesOthers (h : History) (op : RosterOp) : Prop where
  entered : ∀ username new, op.effect h = some (username, some new) → ∀ v, v ≠ username → ∀ pin,
    h.contactRosters.get v = some pin →
    ∀ d ∈ pin.devices, d.identityKey ∈ new.devices.map (·.identityKey) →
    new.primaryKey = pin.primaryKey
  left : ∀ username new, op.effect h = some (username, new) → ∀ v, v ≠ username → ∀ pin,
    h.contactRosters.get v = some pin → ∀ d ∈ pin.devices,
    (∃ old, h.contactRosters.get username = some old ∧ d.identityKey ∈ old.devices.map (·.identityKey)) →
    (∀ n, new = some n → d.identityKey ∉ n.devices.map (·.identityKey)) →
    d.identityKey = pin.primaryKey

theorem RosterOp.leavesOthers_iff {h : History} {op : RosterOp} {username : String}
    {new : Option RosterPin} (he : op.effect h = some (username, new)) :
    op.LeavesOthers h ↔ Flat.Undisturbed id h.holdings username (new.map (·.holding)) := by
  have hkeys : ∀ k, k ∈ Flat.keysOf (h.holdings username) ↔
      ∃ old, h.contactRosters.get username = some old ∧ k ∈ old.devices.map (·.identityKey) := by
    intro k
    unfold History.holdings
    cases h.contactRosters.get username with
    | none => simp
    | some old => simp [RosterPin.holding]
  have hnew : ∀ k, k ∉ Flat.keysOf (new.map (·.holding)) ↔
      ∀ n, new = some n → k ∉ n.devices.map (·.identityKey) := by
    intro k
    cases new with
    | none => simp
    | some n => simp [RosterPin.holding]
  constructor
  · intro hl
    refine { entered := fun v hv o ho k hk n hn hkn => ?_, left := fun v hv o ho k hk hold hgone => ?_ }
    · obtain ⟨pin, hpin, rfl⟩ := Option.map_eq_some_iff.mp ho
      obtain ⟨p, rfl, rfl⟩ := Option.map_eq_some_iff.mp hn
      obtain ⟨d, hd, rfl⟩ := List.mem_map.mp hk
      exact hl.entered username p he v hv pin hpin d hd hkn
    · obtain ⟨pin, hpin, rfl⟩ := Option.map_eq_some_iff.mp ho
      obtain ⟨d, hd, rfl⟩ := List.mem_map.mp hk
      exact hl.left username new he v hv pin hpin d hd ((hkeys _).mp hold) ((hnew _).mp hgone)
  · intro hu
    have hheld : ∀ v pin, h.contactRosters.get v = some pin → h.holdings v = some pin.holding := by
      intro v pin hpin
      rw [History.holdings_of_get hpin]
      rfl
    refine { entered := fun u p hp v hv pin hpin d hd hin => ?_, left := fun u p hp v hv pin hpin d hd hold hgone => ?_ }
    · rw [he] at hp
      cases hp
      exact hu.entered v hv _ (hheld v pin hpin) _ (List.mem_map_of_mem hd) p.holding rfl hin
    · rw [he] at hp
      cases hp
      exact hu.left v hv _ (hheld v pin hpin) _ (List.mem_map_of_mem hd) ((hkeys _).mpr hold)
        ((hnew _).mpr hgone)

theorem RosterOp.step_attributed {h : History} (ha : h.Attributed) (op : RosterOp) :
    (op.step h).Attributed ↔ op.LeavesOthers h := by
  have hstep := op.step_effect h
  cases he : op.effect h with
  | none =>
    rw [he] at hstep
    have hsame : op.step h = h := hstep
    rw [hsame]
    refine iff_of_true ha { entered := fun u new hnew => ?_, left := fun u new hnew => ?_ }
    · rw [he] at hnew
      cases hnew
    · rw [he] at hnew
      cases hnew
  | some e =>
    obtain ⟨username, new⟩ := e
    rw [he] at hstep
    obtain ⟨hholdings, hattribute⟩ := hstep
    rw [History.attributed_iff, hholdings, hattribute, RosterOp.leavesOthers_iff he]
    exact ((History.attributed_iff h).mp ha).update_iff username (new.map (·.holding))

theorem attributed_empty : History.Attributed {} where
  pinned := by
    intro username pin hpin
    cases hpin
  other _ _ := rfl

/-- **The devices of pinned contacts are filed under them after every operation
exactly if no operation disturbs the rosters of others.** -/
theorem device_attribution_iff (ops : List RosterOp) :
    (∀ pre, pre <+: ops → (Trace.run (fun h op => RosterOp.step h op) {} pre).Attributed) ↔
      Trace.Along (fun h op => RosterOp.step h op) (fun h op => op.LeavesOthers h) {} ops :=
  (Trace.along_iff_inv (fun _ op ha => op.step_attributed ha) attributed_empty ops).symm

/-! ### A roster that lists the device of another account -/

/-- SHA-256 of the other party's name. -/
def malloryHash : String := "c0a497761b175379ed63397cc980546559faa84ca9cbeede773117c31508b6ac"

def malloryEntry : KtEntry :=
  { seq := 0, usernameHash := malloryHash, identityKey := malloryIdentity, signingKey := malloryKey,
    prevSigningKey := none
    timestamp := 1000, released := false
    signature := "O70pu524iJJ5oq5xEfY2Z3/K73O8kYao/DLU8V3ITA7uq6FIJ4Hr+H2dNxcDgEjMRNyhTjctVft5iJ1/UX9ICg" }

def malloryRecord : DeviceRecord :=
  { deviceId := primaryDeviceId, identityKey := malloryIdentity, signingKey := malloryKey,
    addedAt := 1000
    signature := "XmINZcsSNbbSmS6v8jsAuXrNjcLecMwgdZSf0PdkObkgWXQsV4QjcRjJJ0ktMAPOYVGjqc+9IVzJZmV6I72oCg" }

/-- The identity key of the first account's device, signed with a key of the other party. -/
def stolenRecord : DeviceRecord :=
  { deviceId := sampleDevice, identityKey := deviceRecord.identityKey, signingKey := malloryKey,
    addedAt := 1000
    signature := "JCwiEeqyHe96RdPw+ZerZqQHXByA8kl4+9H5iC6EiHFuRhv3ZGgLmA3srvzflfRJmZocCt7wo2u1Wt3tMq9TAw" }

def malloryRoster : KtRosterEntry :=
  { seq := 0, usernameHash := malloryHash, devices := [malloryRecord, stolenRecord],
    timestamp := 1000
    signature := "3kArP3AJdBLWoeaKCq0VxmY0ir86ajo34wT73V70IZpFoP1ZMfVe4qmwsUyPOAjt/lpJ9txm7KzC9CLwrxLNAw" }

def stolenSigned : Signatures :=
  rosterSigned ++ [(malloryKey, malloryRecord.signingPayload malloryHash, malloryRecord.signature),
    (malloryKey, stolenRecord.signingPayload malloryHash, stolenRecord.signature),
    (malloryKey, malloryRoster.signingPayload, malloryRoster.signature)]

/-- Both rosters are fetched. -/
def stolenOps : List RosterOp :=
  [.apply "bob" (verifiedUpdate bobEntry bobRoster), .apply "mallory" (verifiedUpdate malloryEntry malloryRoster)]

/-- **Two valid rosters, and the device of the first account is filed under the second.** -/
theorem stolen_device_is_attributed :
    bobRoster.validateAgainst (sampleRelay stolenSigned).crypto bobEntry = .ok () ∧
      malloryRoster.validateAgainst (sampleRelay stolenSigned).crypto malloryEntry = .ok () ∧
      ¬ (Trace.run (fun h op => RosterOp.step h op) {} stolenOps).Attributed := by
  refine ⟨by decide +kernel, by decide +kernel, fun ha => ?_⟩
  have hpin : (Trace.run (fun h op => RosterOp.step h op) {} stolenOps).contactRosters.get "bob" =
      some ⟨0, 0, bobEntry.identityKey, bobRoster.devices.map (·.toRosterDevice)⟩ := by
        decide +kernel
  have hfiled := ha.pinned "bob" _ hpin deviceRecord.toRosterDevice (by decide +kernel)
  exact absurd hfiled (by decide +kernel)

end Sona
