/-
# The records of derived mailboxes

How the directory moves at the mailboxes derived from an account: the message
mailbox of a linked device and the call-control mailbox of any device. An
accepted roster gives each linked device it lists a record with the keys it
lists (`get_mirrorRoster_listed`), takes both records of a device it drops
(`get_mirrorRoster_dropped`) and touches no other mailbox
(`get_mirrorRoster_other`).

Key definitions: `DirectoryEntry.Carries`, `linked`, `call`.
-/
import Sona.Lib.Table
import Sona.Wire
import Sona.Kt
import Sona.Relay
import Sona.Handlers

namespace Sona

variable {R : Relay}

/-- The record has these keys. -/
def DirectoryEntry.Carries (e : DirectoryEntry) (identityKey signingKey : String) : Prop :=
  e.identityKey = identityKey ∧ e.signingKey = signingKey

/-- The message mailbox of a linked device of the account `base`. -/
def linked (R : Relay) (base id : String) : String := R.crypto.sha.deviceMailbox base id

/-- The call-control mailbox of a device of the account `base`. -/
def call (R : Relay) (base id : String) : String := R.crypto.sha.callMailbox base id

theorem linked_inj {b b' d d' : String} (hb : Canonical b) (hb' : Canonical b')
    (h : linked R b d = linked R b' d') :
    b = b' ∧ d = d' := deviceMailbox_inj _ hb hb' h

theorem call_inj {b b' d d' : String} (hb : Canonical b) (hb' : Canonical b')
    (h : call R b d = call R b' d') :
    b = b' ∧ d = d' := callMailbox_inj _ hb hb' h

theorem linked_ne_call {b b' d d' : String} : linked R b d ≠ call R b' d' :=
  deviceMailbox_ne_callMailbox _

theorem deviceMailboxHash_of {name : String} {base : IdentityHash}
    (hb : IdentityHash.fromHex name = some base) {id : String} (hid : id ≠ primaryDeviceId) :
    deviceMailboxHash R.crypto.sha name id = some ⟨linked R base.asStr id⟩ := by
  simp [deviceMailboxHash, hb, hid, linked]

theorem callMailboxHash_of {name : String} {base : IdentityHash}
    (hb : IdentityHash.fromHex name = some base) (id : String) :
    callMailboxHash R.crypto.sha name id = some ⟨call R base.asStr id⟩ := by
  simp [callMailboxHash, hb, call]

/-! ### Mirroring a roster -/

section mirror

variable {name : String} {base : IdentityHash} (hb : IdentityHash.fromHex name = some base)
include hb

theorem get_mirrored_ne (directory : Table String DirectoryEntry) (d : DeviceRecord) {j : String}
    (hj : d.deviceId ≠ primaryDeviceId → j ≠ linked R base.asStr d.deviceId) :
    (mirrored R name directory d).get j = directory.get j := by
  unfold mirrored
  split
  · rfl
  · rename_i hp
    rw [deviceMailboxHash_of hb hp]
    dsimp only
    split
    · rfl
    · rw [Table.get_set_ne _ _ (hj hp)]

theorem get_mirrored_self (directory : Table String DirectoryEntry) {d : DeviceRecord}
    (hp : d.deviceId ≠ primaryDeviceId) :
    ∃ e, (mirrored R name directory d).get (linked R base.asStr d.deviceId) = some e ∧
      e.Carries d.identityKey d.signingKey := by
  unfold mirrored
  rw [if_neg hp, deviceMailboxHash_of hb hp]
  dsimp only
  split
  · -- the record had the keys already
    rename_i hkeep
    cases he : directory.get (linked R base.asStr d.deviceId) with
    | none => simp [he] at hkeep
    | some e => exact ⟨e, rfl, by simpa [he, DirectoryEntry.Carries] using hkeep⟩
  · exact ⟨_, Table.get_set_self _ _ _, rfl, rfl⟩

theorem get_mirrorAll_ne {j : String} :
    ∀ (ds : List DeviceRecord) (directory : Table String DirectoryEntry),
    (∀ d ∈ ds, d.deviceId ≠ primaryDeviceId → j ≠ linked R base.asStr d.deviceId) →
    (ds.foldl (mirrored R name) directory).get j = directory.get j
  | [], _, _ => rfl
  | d :: ds, directory, h => by
    rw [List.foldl_cons, get_mirrorAll_ne ds _ fun d' hd' => h d' (List.mem_cons_of_mem d hd')]
    exact get_mirrored_ne hb directory d (h d List.mem_cons_self)

theorem get_mirrorAll_self {d : DeviceRecord} (hp : d.deviceId ≠ primaryDeviceId) :
    ∀ (ds : List DeviceRecord) (directory : Table String DirectoryEntry),
      (ds.map (·.deviceId)).Nodup → d ∈ ds →
      ∃ e, (ds.foldl (mirrored R name) directory).get (linked R base.asStr d.deviceId) = some e ∧
        e.Carries d.identityKey d.signingKey
  | d₀ :: ds, directory, hn, hd => by
    have hcanon := IdentityHash.canonical_of_fromHex hb
    obtain ⟨hnot, hn⟩ := List.nodup_cons.mp hn
    rw [List.foldl_cons]
    rcases List.mem_cons.mp hd with rfl | hd
    · -- the later devices have other ids
      rw [get_mirrorAll_ne hb ds _ fun d' hd' _ heq => ?_]
      · exact get_mirrored_self hb directory hp
      · exact hnot (List.mem_map.mpr ⟨d', hd', (linked_inj hcanon hcanon heq).2.symm⟩)
    · exact get_mirrorAll_self hp ds _ hn hd

end mirror

/-! ### An accepted roster -/

theorem mem_deviceMailboxes {name : String} {base : IdentityHash}
    (hb : IdentityHash.fromHex name = some base) {ids : List String}
    (hids : ∀ id ∈ ids, id ≠ primaryDeviceId) {j : String} :
    j ∈ deviceMailboxes R name ids ↔ ∃ id ∈ ids, j = linked R base.asStr id := by
  unfold deviceMailboxes
  rw [List.mem_flatMap]
  constructor
  · rintro ⟨id, hid, hj⟩
    rw [deviceMailboxHash_of hb (hids id hid)] at hj
    exact ⟨id, hid, by simpa using hj⟩
  · rintro ⟨id, hid, rfl⟩
    refine ⟨id, hid, ?_⟩
    rw [deviceMailboxHash_of hb (hids id hid)]
    simp

theorem mem_bothMailboxes {name : String} {base : IdentityHash}
    (hb : IdentityHash.fromHex name = some base) {ids : List String}
    (hids : ∀ id ∈ ids, id ≠ primaryDeviceId) {j : String} :
    j ∈ bothMailboxes R name ids ↔ ∃ id ∈ ids, j = linked R base.asStr id ∨
    j = call R base.asStr id := by
  unfold bothMailboxes
  rw [List.mem_flatMap]
  constructor
  · rintro ⟨id, hid, hj⟩
    rw [deviceMailboxHash_of hb (hids id hid), callMailboxHash_of hb] at hj
    exact ⟨id, hid, by simpa using hj⟩
  · rintro ⟨id, hid, hj⟩
    refine ⟨id, hid, ?_⟩
    rw [deviceMailboxHash_of hb (hids id hid), callMailboxHash_of hb]
    simpa using hj

theorem mem_droppedIds {previous : Option KtRosterEntry} {roster : KtRosterEntry} {id : String} :
    id ∈ droppedIds previous roster ↔
      (∃ r ∈ previous, ∃ d ∈ r.devices, d.deviceId = id) ∧ id ≠ primaryDeviceId ∧
        ∀ d ∈ roster.devices, d.deviceId ≠ id := by
  unfold droppedIds
  cases previous with
  | none => simp
  | some r => simp [List.mem_filter, List.mem_map]

section roster

variable {c : Core} {previous : Option KtRosterEntry} {roster : KtRosterEntry} {base : IdentityHash}
  (hb : IdentityHash.fromHex roster.usernameHash = some base)
include hb

theorem mem_droppedBoth {j : String} :
    j ∈ bothMailboxes R roster.usernameHash (droppedIds previous roster) ↔
      ∃ id ∈ droppedIds previous roster, j = linked R base.asStr id ∨ j = call R base.asStr id :=
  mem_bothMailboxes hb fun _ hid => (mem_droppedIds.mp hid).2.1

theorem mem_droppedDevice {j : String} :
    j ∈ deviceMailboxes R roster.usernameHash (droppedIds previous roster) ↔
      ∃ id ∈ droppedIds previous roster, j = linked R base.asStr id :=
  mem_deviceMailboxes hb fun _ hid => (mem_droppedIds.mp hid).2.1

/-- The message mailbox of a device that is not dropped is not among the cleared ones. -/
theorem linked_notMem_droppedBoth {id : String} (hid : id ∉ droppedIds previous roster) :
    linked R base.asStr id ∉ bothMailboxes R roster.usernameHash (droppedIds previous roster) := by
  have hcanon := IdentityHash.canonical_of_fromHex hb
  rw [mem_droppedBoth hb]
  rintro ⟨id', hid', heq | heq⟩
  · exact hid ((linked_inj hcanon hcanon heq).2 ▸ hid')
  · exact linked_ne_call heq

theorem call_notMem_droppedBoth {id : String} (hid : id ∉ droppedIds previous roster) :
    call R base.asStr id ∉ bothMailboxes R roster.usernameHash (droppedIds previous roster) := by
  have hcanon := IdentityHash.canonical_of_fromHex hb
  rw [mem_droppedBoth hb]
  rintro ⟨id', hid', heq | heq⟩
  · exact linked_ne_call heq.symm
  · exact hid ((call_inj hcanon hcanon heq).2 ▸ hid')

/-- A listed linked device has a record with the keys it is listed with. -/
theorem get_mirrorRoster_listed (previous : Option KtRosterEntry)
    (hn : (roster.devices.map (·.deviceId)).Nodup) {d : DeviceRecord} (hd : d ∈ roster.devices)
    (hp : d.deviceId ≠ primaryDeviceId) :
    ∃ e, (Core.mirrorRoster R c previous roster).directory.get (linked R base.asStr d.deviceId) = some e ∧
      e.Carries d.identityKey d.signingKey := by
  have hkept : d.deviceId ∉ droppedIds previous roster :=
    fun h => (mem_droppedIds.mp h).2.2 d hd rfl
  unfold Core.mirrorRoster Core.revoke
  dsimp only
  rw [Table.get_removeAll, if_neg (linked_notMem_droppedBoth hb hkept)]
  exact get_mirrorAll_self hb hp roster.devices c.directory hn hd

/-- A dropped device has no record. -/
theorem get_mirrorRoster_dropped {id : String} (hid : id ∈ droppedIds previous roster) :
    (Core.mirrorRoster R c previous roster).directory.get (linked R base.asStr id) = none ∧
      (Core.mirrorRoster R c previous roster).directory.get (call R base.asStr id) = none := by
  unfold Core.mirrorRoster Core.revoke
  dsimp only
  rw [Table.get_removeAll, if_pos ((mem_droppedBoth hb).mpr ⟨id, hid, Or.inl rfl⟩),
    Table.get_removeAll, if_pos ((mem_droppedBoth hb).mpr ⟨id, hid, Or.inr rfl⟩)]
  exact ⟨rfl, rfl⟩

/-- A mailbox that the roster neither lists nor drops keeps its record. -/
theorem get_mirrorRoster_other {j : String}
    (hlisted : ∀ d ∈ roster.devices, d.deviceId ≠ primaryDeviceId → j ≠ linked R base.asStr d.deviceId)
    (hdropped : j ∉ bothMailboxes R roster.usernameHash (droppedIds previous roster)) :
    (Core.mirrorRoster R c previous roster).directory.get j = c.directory.get j := by
  unfold Core.mirrorRoster Core.revoke
  dsimp only
  rw [Table.get_removeAll, if_neg hdropped, get_mirrorAll_ne hb _ _ hlisted]

/-- The call record of a device that is not dropped stays. -/
theorem get_mirrorRoster_call {id : String} (hid : id ∉ droppedIds previous roster) :
    (Core.mirrorRoster R c previous roster).directory.get (call R base.asStr id) =
      c.directory.get (call R base.asStr id) :=
  get_mirrorRoster_other hb (fun _ _ _ => linked_ne_call.symm) (call_notMem_droppedBoth hb hid)

/-- The tables that lose the message mailboxes of the dropped devices only. -/
theorem get_mirrorRoster_call_tables (previous : Option KtRosterEntry) (id : String) :
    (Core.mirrorRoster R c previous roster).push.get (call R base.asStr id) =
      c.push.get (call R base.asStr id) ∧
      (Core.mirrorRoster R c previous roster).callKeys.get (call R base.asStr id) =
        c.callKeys.get (call R base.asStr id) ∧
      (Core.mirrorRoster R c previous roster).liveOn (call R base.asStr id) =
        c.liveOn (call R base.asStr id) := by
  have hnot : call R base.asStr id ∉ deviceMailboxes R roster.usernameHash
      (droppedIds previous roster) := by
    rw [mem_droppedDevice hb]
    rintro ⟨id', -, heq⟩
    exact linked_ne_call heq.symm
  unfold Core.mirrorRoster Core.revoke Core.liveOn
  dsimp only
  rw [Table.get_removeAll, if_neg hnot, Table.get_removeAll, if_neg hnot, Table.get_removeAll,
    if_neg hnot]
  exact ⟨rfl, rfl, rfl⟩

theorem get_mirrorRoster_dropped_tables {id : String} (hid : id ∈ droppedIds previous roster) :
    (Core.mirrorRoster R c previous roster).push.get (linked R base.asStr id) = none ∧
      (Core.mirrorRoster R c previous roster).callKeys.get (linked R base.asStr id) = none ∧
      (Core.mirrorRoster R c previous roster).liveOn (linked R base.asStr id) = [] := by
  have hmem := (mem_droppedDevice (R := R) hb).mpr ⟨id, hid, rfl⟩
  unfold Core.mirrorRoster Core.revoke Core.liveOn
  dsimp only
  rw [Table.get_removeAll, if_pos hmem, Table.get_removeAll, if_pos hmem, Table.get_removeAll,
    if_pos hmem]
  exact ⟨rfl, rfl, rfl⟩

theorem get_mirrorRoster_kept_tables {id : String} (hid : id ∉ droppedIds previous roster) :
    (Core.mirrorRoster R c previous roster).push.get (linked R base.asStr id) =
      c.push.get (linked R base.asStr id) ∧
      (Core.mirrorRoster R c previous roster).callKeys.get (linked R base.asStr id) =
        c.callKeys.get (linked R base.asStr id) ∧
      (Core.mirrorRoster R c previous roster).liveOn (linked R base.asStr id) =
        c.liveOn (linked R base.asStr id) := by
  have hcanon := IdentityHash.canonical_of_fromHex hb
  have hnot : linked R base.asStr id ∉ deviceMailboxes R roster.usernameHash
      (droppedIds previous roster) := by
    rw [mem_droppedDevice hb]
    rintro ⟨id', hid', heq⟩
    exact hid ((linked_inj hcanon hcanon heq).2 ▸ hid')
  unfold Core.mirrorRoster Core.revoke Core.liveOn
  dsimp only
  rw [Table.get_removeAll, if_neg hnot, Table.get_removeAll, if_neg hnot, Table.get_removeAll,
    if_neg hnot]
  exact ⟨rfl, rfl, rfl⟩

end roster

end Sona
