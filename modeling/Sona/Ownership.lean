/-
# Who owns the mailboxes of an account

One directory is keyed by account names and by the mailboxes derived from
them, and six requests write it. `Owned` is the invariant of all of them
together: the record of a linked device's mailbox has the keys the account's
latest roster lists for it, and the record of its call-control mailbox has the
keys of its stored call-key binding. It holds as long as no account is
registered under a derived mailbox (`NamesOk`) and no account deletion names a
device's mailbox whose call record it leaves (`DeletesWhole`); then no request
changes a record of an account without a signature of the account
(`device_mailboxes_owned`). `derived_name_overwrites_device` is a run where an
account is registered under a derived mailbox.

Key definitions: `Derived`, `MailboxOf`, `Named`, `Owned`, `Authorised`, `LinkedDevicesOwned`.
-/
import Sona.Lib.Table
import Sona.Lib.Trace
import Sona.Wire
import Sona.Kt
import Sona.Relay
import Sona.Handlers
import Sona.Records
import Sona.Run

namespace Sona

variable {R : Relay} {c c' : Core}

/-- The string is a mailbox derived for a device of some account. -/
def Derived (R : Relay) (m : String) : Prop :=
  ∃ base id, Canonical base ∧ (id ≠ primaryDeviceId ∧ m = linked R base id ∨ m = call R base id)

/-- The mailboxes of the account `h`: its own, those of its linked devices and
the call-control mailboxes of all its devices. -/
def MailboxOf (R : Relay) (h m : String) : Prop :=
  m = h ∨ (∃ id, id ≠ primaryDeviceId ∧ m = linked R h id) ∨ ∃ id, m = call R h id

/-- An account is registered under a canonical name that is no derived mailbox,
and deleted under a canonical one. -/
def NamesOk (R : Relay) : Event → Prop
  | .register _ _ req _ => Canonical req.entry.usernameHash ∧ ¬ Derived R req.entry.usernameHash
  | .deleteAccount _ req _ => Canonical req.hash
  | _ => True

/-- An account deletion names no linked device's mailbox whose call-control
mailbox has a record. -/
def DeletesWhole (R : Relay) (s : Sys) : Event → Prop
  | .deleteAccount _ req _ => ∀ base id, Canonical base → id ≠ primaryDeviceId →
      linked R base id ∈ req.hash :: req.aliasHashes → s.inner.directory.get (call R base id) = none
  | _ => True

theorem derived_linked {base id : String} (hb : Canonical base) (hid : id ≠ primaryDeviceId) :
    Derived R (linked R base id) := ⟨base, id, hb, Or.inl ⟨hid, rfl⟩⟩

theorem derived_call {base id : String} (hb : Canonical base) : Derived R (call R base id) :=
  ⟨base, id, hb, Or.inr rfl⟩

theorem fromHex_of_canonical {u : String} (h : Canonical u) : IdentityHash.fromHex u = some ⟨u⟩ := h

/-! ### The names in the log -/

/-- The log is well formed, its names are canonical and no derived mailboxes,
and its rosters list no id twice. -/
structure Named (R : Relay) (c : Core) : Prop where
  wf : c.kt.Wf
  names : ∀ u e, c.kt.latestBindingFor u = some e → Canonical u ∧ ¬ Derived R u
  ids : ∀ u r, c.kt.latestRosterFor u = some r → (r.devices.map (·.deviceId)).Nodup

theorem named_start (R : Relay) (db : Option Db) : Named R (start R db).inner.core where
  wf := KtLog.wf_empty _
  names u e h := by simp [start, Inner.core, KtLog.latestBindingFor, KtLog.latestIndexFor, KtLog.bindingIndices] at h
  ids u r h := by
    simp [start, Inner.core, KtLog.latestRosterFor, KtLog.latestRosterIndexFor,
      KtLog.rosterIndices] at h

/-- The name of an accepted roster stands in the log. -/
theorem Named.roster_name {kt : KtLog} {roster : KtRosterEntry} {i : ℕ} (h : Named R c)
    (ha : c.kt.appendRoster R.crypto roster = .ok (i, kt)) :
    Canonical roster.usernameHash ∧ ¬ Derived R roster.usernameHash := by
  obtain ⟨⟨current, hacc⟩, -⟩ := KtLog.appendRoster_cases ha
  exact h.names _ _ hacc.latest

theorem Named.of_kt (h : Named R c) (hkt : c'.kt = c.kt) : Named R c' := by
  obtain ⟨hwf, hnames, hids⟩ := h
  exact ⟨hkt ▸ hwf, hkt ▸ hnames, hkt ▸ hids⟩

theorem Named.step {e : Event} (h : Named R c) (hstep : RecordStep R c e c') (hok : NamesOk R e) :
    Named R c' := by
  cases hstep with
  | same hsame => exact h.of_kt hsame.2.2
  | bundle found core => exact h.of_kt (by rw [core])
  | upload found signed core => exact h.of_kt (by rw [core])
  | @register client invite req now i kt _ appended core =>
    obtain ⟨-, -, rfl⟩ := KtLog.append_cases h.wf appended
    have hkt : c'.kt = c.kt.pushBinding req.entry := by
      rw [core]
      split <;> rfl
    refine ⟨hkt ▸ h.wf.pushBinding _, fun u e he => ?_, fun u r hr => ?_⟩
    · rw [hkt, KtLog.latestBindingFor_pushBinding _ h.wf] at he
      split at he
      · rename_i hu
        exact hu ▸ hok
      · exact h.names u e he
    · rw [hkt, KtLog.latestRosterFor_pushBinding _ h.wf] at hr
      exact h.ids u r hr
  | @roster client roster now i kt _ appended hex core =>
    obtain ⟨⟨current, hacc⟩, rfl⟩ := KtLog.appendRoster_cases appended
    have hkt : c'.kt = c.kt.pushRoster roster := by rw [core]; rfl
    refine ⟨hkt ▸ h.wf.pushRoster _, fun u e he => ?_, fun u r hr => ?_⟩
    · rw [hkt, KtLog.latestBindingFor_pushRoster _ h.wf] at he
      exact h.names u e he
    · rw [hkt, KtLog.latestRosterFor_pushRoster _ h.wf] at hr
      split at hr
      · cases hr
        exact hacc.ids
      · exact h.ids u r hr
  | callKey mailbox call found signed newer core => exact h.of_kt (by rw [core])
  | delete found signed core => exact h.of_kt (by rw [core, Core.dropMailboxes_kt])

/-! ### The records of linked devices -/

/-- The record of a linked device's mailbox has the keys of the latest roster. -/
def DeviceRecords (R : Relay) (c : Core) : Prop :=
  ∀ h id, Canonical h → id ≠ primaryDeviceId → ∀ e, c.directory.get (linked R h id) = some e →
    ∃ r, c.kt.latestRosterFor h = some r ∧
    ∃ d ∈ r.devices, d.deviceId = id ∧ e.Carries d.identityKey d.signingKey

/-- The record of a linked device's call-control mailbox has the keys of its call-key binding. -/
def CallRecords (R : Relay) (c : Core) : Prop :=
  ∀ h id, Canonical h → id ≠ primaryDeviceId → ∀ e, c.directory.get (call R h id) = some e →
    ∃ b, c.callKeys.get (linked R h id) = some b ∧ b.deviceId = id ∧
    e.Carries b.callKey b.callSigningKey

/-- A record whose one-time keys change keeps its identity and signing keys. -/
theorem get_withKeys {directory : Table String DirectoryEntry} {hash m : String}
    {entry e : DirectoryEntry} {keys : List String} (found : directory.get hash = some entry)
    (h : (directory.set hash (entry.withKeys keys)).get m = some e) :
    ∃ e₀, directory.get m = some e₀ ∧ e.Carries e₀.identityKey e₀.signingKey := by
  rw [Table.get_set] at h
  split at h
  · rename_i hm
    cases h
    exact ⟨entry, hm ▸ found, rfl, rfl⟩
  · exact ⟨e, h, rfl, rfl⟩

/-- The log and the call keys stay, and a record has the keys it had: at most its
one-time keys are others. -/
structure Core.KeepsKeys (c c' : Core) : Prop where
  kt : c'.kt = c.kt
  callKeys : c'.callKeys = c.callKeys
  records : ∀ m e, c'.directory.get m = some e →
    ∃ e₀, c.directory.get m = some e₀ ∧ e.Carries e₀.identityKey e₀.signingKey

theorem Core.SameRecords.keepsKeys (h : c.SameRecords c') : c.KeepsKeys c' where
  kt := h.2.2
  callKeys := h.2.1
  records m e he := by
    rw [h.1] at he
    exact ⟨e, he, rfl, rfl⟩

theorem Core.keepsKeys_withKeys {hash : String} {entry : DirectoryEntry} {keys : List String}
    (found : c.directory.get hash = some entry)
    (core : c' = { c with directory := c.directory.set hash (entry.withKeys keys) }) :
    c.KeepsKeys c' := by
  subst core
  exact ⟨rfl, rfl, fun m e he => get_withKeys found he⟩

theorem DeviceRecords.of_carried (h : DeviceRecords R c)
    (hkt : ∀ u, c'.kt.latestRosterFor u = c.kt.latestRosterFor u)
    (hdir : ∀ b id, Canonical b → id ≠ primaryDeviceId → ∀ e, c'.directory.get (linked R b id) = some e →
      ∃ e₀, c.directory.get (linked R b id) = some e₀ ∧ e.Carries e₀.identityKey e₀.signingKey) :
    DeviceRecords R c' := by
  intro b id hb hid e he
  obtain ⟨e₀, he₀, hik, hsk⟩ := hdir b id hb hid e he
  obtain ⟨r, hr, d, hd, hdid, hik₀, hsk₀⟩ := h b id hb hid e₀ he₀
  exact ⟨r, (hkt b).trans hr, d, hd, hdid, hik.trans hik₀, hsk.trans hsk₀⟩

theorem CallRecords.of_carried (h : CallRecords R c)
    (hkeys : ∀ b id, Canonical b → id ≠ primaryDeviceId → (∃ e, c'.directory.get (call R b id) = some e) →
      c'.callKeys.get (linked R b id) = c.callKeys.get (linked R b id))
    (hdir : ∀ b id, Canonical b → id ≠ primaryDeviceId → ∀ e, c'.directory.get (call R b id) = some e →
      ∃ e₀, c.directory.get (call R b id) = some e₀ ∧ e.Carries e₀.identityKey e₀.signingKey) :
    CallRecords R c' := by
  intro b id hb hid e he
  obtain ⟨e₀, he₀, hik, hsk⟩ := hdir b id hb hid e he
  obtain ⟨k, hk, hkid, hik₀, hsk₀⟩ := h b id hb hid e₀ he₀
  exact ⟨k, (hkeys b id hb hid ⟨e, he⟩).trans hk, hkid, hik.trans hik₀, hsk.trans hsk₀⟩

/-- A registration under a name that is no derived mailbox leaves the derived ones alone. -/
theorem get_registered_derived {req : RegisterRequest} {kt : KtLog}
    (core : c' = if req.entry.released then { c with kt }
      else { c with kt }.takeMailbox req.entry.usernameHash req.record)
    (hname : ¬ Derived R req.entry.usernameHash) {m : String} (hm : Derived R m) :
    c'.directory.get m = c.directory.get m := by
  rw [core]
  split
  · rfl
  · change (c.directory.set req.entry.usernameHash req.record).get m = _
    rw [Table.get_set_ne]
    rintro rfl
    exact hname hm

theorem registered_callKeys {req : RegisterRequest} {kt : KtLog}
    (core : c' = if req.entry.released then { c with kt }
      else { c with kt }.takeMailbox req.entry.usernameHash req.record) :
    c'.callKeys = c.callKeys := by
  rw [core]
  split <;> rfl

/-- Whatever is in the directory after a deletion was there before. -/
theorem get_dropMailboxes {mbs : List String} {m : String} {e : DirectoryEntry}
    (h : (c.dropMailboxes mbs).directory.get m = some e) :
    c.directory.get m = some e ∧ m ∉ mbs := by
  rw [Core.dropMailboxes_directory, Table.get_removeAll] at h
  split at h
  · cases h
  · exact ⟨h, ‹_›⟩

theorem DeviceRecords.register {req : RegisterRequest} {kt : KtLog} {i : ℕ} (h : DeviceRecords R c)
    (hwf : c.kt.Wf) (hname : ¬ Derived R req.entry.usernameHash)
    (appended : c.kt.append R.crypto req.entry = .ok (i, kt))
    (core : c' = if req.entry.released then { c with kt }
      else { c with kt }.takeMailbox req.entry.usernameHash req.record) : DeviceRecords R c' := by
  obtain ⟨-, -, rfl⟩ := KtLog.append_cases hwf appended
  have hkt : c'.kt = c.kt.pushBinding req.entry := by
    rw [core]
    split <;> rfl
  refine h.of_carried (fun u => ?_) fun b id hb hid e he => ⟨e, ?_, rfl, rfl⟩
  · rw [hkt]
    exact KtLog.latestRosterFor_pushBinding _ hwf
  · rwa [get_registered_derived core hname (derived_linked hb hid)] at he

theorem CallRecords.register {req : RegisterRequest} {kt : KtLog} (h : CallRecords R c)
    (hname : ¬ Derived R req.entry.usernameHash)
    (core : c' = if req.entry.released then { c with kt }
      else { c with kt }.takeMailbox req.entry.usernameHash req.record) : CallRecords R c' := by
  refine h.of_carried (fun b id hb hid _ => ?_) fun b id hb hid e he => ⟨e, ?_, rfl, rfl⟩
  · rw [registered_callKeys core]
  · rwa [get_registered_derived core hname (derived_call hb)] at he

theorem DeviceRecords.delete (h : DeviceRecords R c) (mbs : List String) :
    DeviceRecords R (c.dropMailboxes mbs) := by
  refine h.of_carried (fun u => ?_) fun b id _ _ e he => ⟨e, (get_dropMailboxes he).1, rfl, rfl⟩
  rw [Core.dropMailboxes_kt]

/-- An accepted roster: a linked device's record is one that the roster lists, or
that of an account the roster is not of. -/
theorem DeviceRecords.roster {roster : KtRosterEntry} {i : ℕ} {kt : KtLog} (h : DeviceRecords R c)
    (hn : Named R c) (appended : c.kt.appendRoster R.crypto roster = .ok (i, kt)) :
    DeviceRecords R (Core.mirrorRoster R { c with kt } (c.kt.latestRosterFor roster.usernameHash) roster) := by
  have hcanon := (hn.roster_name appended).1
  have hbase := fromHex_of_canonical hcanon
  obtain ⟨⟨current, hacc⟩, rfl⟩ := KtLog.appendRoster_cases appended
  intro b id hb hid e he
  change ∃ r, (c.kt.pushRoster roster).latestRosterFor b = some r ∧ _
  rw [KtLog.latestRosterFor_pushRoster _ hn.wf]
  by_cases hu : b = roster.usernameHash
  · rw [if_pos hu]
    subst hu
    refine ⟨roster, rfl, ?_⟩
    by_cases hlisted : ∃ d ∈ roster.devices, d.deviceId = id
    · obtain ⟨d, hd, rfl⟩ := hlisted
      obtain ⟨e', he', hk⟩ := get_mirrorRoster_listed (R := R) (c := { c with kt := c.kt.pushRoster roster })
        hbase (c.kt.latestRosterFor roster.usernameHash) hacc.ids hd hid
      rw [he'] at he
      cases he
      exact ⟨d, hd, rfl, hk⟩
    · -- a record of a device that is not listed was of the roster before, so it is dropped
      exfalso
      have hnot : ∀ d ∈ roster.devices, d.deviceId ≠ primaryDeviceId →
          linked R roster.usernameHash id ≠ linked R roster.usernameHash d.deviceId :=
        fun d hd _ heq => hlisted ⟨d, hd, (linked_inj hcanon hcanon heq).2.symm⟩
      by_cases hdrop : id ∈ droppedIds (c.kt.latestRosterFor roster.usernameHash) roster
      · have hgone := (get_mirrorRoster_dropped (R := R) (c := { c with kt := c.kt.pushRoster roster }) hbase hdrop).1
        rw [hgone] at he
        cases he
      · rw [get_mirrorRoster_other hbase hnot (linked_notMem_droppedBoth hbase hdrop)] at he
        obtain ⟨r, hr, d, hd, hdid, -⟩ := h _ id hb hid e he
        exact hdrop (mem_droppedIds.mpr ⟨⟨r, hr, d, hd, hdid⟩, hid, fun d' hd' heq => hlisted ⟨d', hd', heq⟩⟩)
  · rw [if_neg hu]
    have hne : ∀ id', linked R b id ≠ linked R roster.usernameHash id' :=
      fun id' heq => hu (linked_inj hb hcanon heq).1
    rw [get_mirrorRoster_other hbase (fun d _ _ => hne d.deviceId) ?_] at he
    · exact h b id hb hid e he
    · rw [mem_droppedBoth hbase]
      rintro ⟨id', -, heq | heq⟩
      · exact hne id' heq
      · exact linked_ne_call heq

theorem CallRecords.roster {roster : KtRosterEntry} {i : ℕ} {kt : KtLog} (h : CallRecords R c)
    (hn : Named R c) (appended : c.kt.appendRoster R.crypto roster = .ok (i, kt)) :
    CallRecords R (Core.mirrorRoster R { c with kt } (c.kt.latestRosterFor roster.usernameHash) roster) := by
  have hcanon := (hn.roster_name appended).1
  have hbase := fromHex_of_canonical hcanon
  -- a call record that is left is not of a dropped device
  have hkept : ∀ b id, Canonical b →
      (∃ e, (Core.mirrorRoster R { c with kt } (c.kt.latestRosterFor roster.usernameHash) roster).directory.get
        (call R b id) = some e) →
      b = roster.usernameHash → id ∉ droppedIds
      (c.kt.latestRosterFor roster.usernameHash) roster := by
    rintro b id hb ⟨e, he⟩ rfl hdrop
    rw [(get_mirrorRoster_dropped (R := R) (c := { c with kt }) hbase hdrop).2] at he
    cases he
  refine h.of_carried (fun b id hb hid hrec => ?_) fun b id hb hid e he => ⟨e, ?_, rfl, rfl⟩
  · by_cases hu : b = roster.usernameHash
    · have hdrop := hkept b id hb hrec hu
      subst hu
      exact (get_mirrorRoster_kept_tables (R := R) (c := { c with kt }) hbase hdrop).2.1
    · change (c.callKeys.removeAll _).get _ = _
      rw [Table.get_removeAll, if_neg]
      rw [mem_droppedDevice hbase]
      rintro ⟨id', -, heq⟩
      exact hu (linked_inj hb hcanon heq).1
  · by_cases hu : b = roster.usernameHash
    · have hdrop := hkept b id hb ⟨e, he⟩ hu
      subst hu
      rwa [get_mirrorRoster_call hbase hdrop] at he
    · rw [get_mirrorRoster_other hbase (fun _ _ _ => linked_ne_call.symm) ?_] at he
      · exact he
      · rw [mem_droppedBoth hbase]
        rintro ⟨id', -, heq | heq⟩
        · exact linked_ne_call heq.symm
        · exact hu (call_inj hb hcanon heq).1

/-- A published call key: the mailbox it is stored under and the one it makes. -/
theorem callKey_mailboxes {req : CallKeyPublishRequest} {callMailbox : IdentityHash}
    (mailbox : (deviceMailboxHash R.crypto.sha req.accountHash req.binding.deviceId).map (·.asStr) = some req.hash)
    (hcall : callMailboxHash R.crypto.sha req.accountHash req.binding.deviceId = some callMailbox) :
    ∃ base : IdentityHash, IdentityHash.fromHex req.accountHash = some base ∧ Canonical base.asStr ∧
      callMailbox.asStr = call R base.asStr req.binding.deviceId ∧
      (req.binding.deviceId = primaryDeviceId ∧ req.hash = base.asStr ∨
        req.binding.deviceId ≠ primaryDeviceId ∧
        req.hash = linked R base.asStr req.binding.deviceId) := by
  cases hb : IdentityHash.fromHex req.accountHash with
  | none => simp [callMailboxHash, hb] at hcall
  | some base =>
    rw [callMailboxHash_of hb] at hcall
    cases hcall
    refine ⟨base, rfl, IdentityHash.canonical_of_fromHex hb, rfl, ?_⟩
    by_cases hp : req.binding.deviceId = primaryDeviceId
    · simp only [deviceMailboxHash, hb, hp] at mailbox
      exact Or.inl ⟨hp, (Option.some.inj mailbox).symm⟩
    · rw [deviceMailboxHash_of hb hp] at mailbox
      exact Or.inr ⟨hp, (Option.some.inj mailbox).symm⟩

theorem DeviceRecords.callKey {req : CallKeyPublishRequest} {callMailbox : IdentityHash}
    (h : DeviceRecords R c)
    (mailbox : (deviceMailboxHash R.crypto.sha req.accountHash req.binding.deviceId).map (·.asStr) = some req.hash)
    (hcall : callMailboxHash R.crypto.sha req.accountHash req.binding.deviceId = some callMailbox) :
    DeviceRecords R { c with directory := c.directory.set callMailbox.asStr req.binding.record
                             callKeys := c.callKeys.set req.hash req.binding } := by
  obtain ⟨base, -, -, hcm, -⟩ := callKey_mailboxes mailbox hcall
  refine h.of_carried (fun _ => rfl) fun b id _ _ e he => ⟨e, ?_, rfl, rfl⟩
  change (c.directory.set _ _).get _ = _ at he
  rwa [hcm, Table.get_set_ne _ _ linked_ne_call] at he

theorem CallRecords.callKey {req : CallKeyPublishRequest} {callMailbox : IdentityHash}
    (h : CallRecords R c)
    (mailbox : (deviceMailboxHash R.crypto.sha req.accountHash req.binding.deviceId).map (·.asStr) = some req.hash)
    (hcall : callMailboxHash R.crypto.sha req.accountHash req.binding.deviceId = some callMailbox)
    (newer : ∀ current, c.callKeys.get req.hash = some current →
      req.binding.supersedes current = true ∨ current = req.binding) :
    CallRecords R { c with directory := c.directory.set callMailbox.asStr req.binding.record
                           callKeys := c.callKeys.set req.hash req.binding } := by
  obtain ⟨base, -, hcanon, hcm, hmb⟩ := callKey_mailboxes mailbox hcall
  intro b id hb hid e he
  change (c.directory.set callMailbox.asStr req.binding.record).get (call R b id) = some e at he
  change ∃ k, (c.callKeys.set req.hash req.binding).get (linked R b id) = some k ∧ _
  rw [Table.get_set, hcm] at he
  by_cases hsame : call R b id = call R base.asStr req.binding.deviceId
  · -- the mailbox of the published key itself
    rw [if_pos hsame] at he
    cases he
    obtain ⟨rfl, rfl⟩ := call_inj hb hcanon hsame
    obtain ⟨hp, -⟩ | ⟨-, hmb⟩ := hmb
    · exact (hid hp).elim
    · exact ⟨req.binding, by rw [hmb, Table.get_set_self], rfl, rfl, rfl⟩
  · rw [if_neg hsame] at he
    obtain ⟨k, hk, hkid, hcar⟩ := h b id hb hid e he
    refine ⟨k, ?_, hkid, hcar⟩
    rw [Table.get_set_ne _ _ ?_, hk]
    intro hhash
    obtain ⟨hp, -⟩ | ⟨hp, hmb⟩ := hmb
    · -- the primary of an account under this name: its key does not supersede a device's
      obtain hsup | rfl := newer k (hhash ▸ hk)
      · rw [CallKeyBinding.supersedes, Bool.and_eq_true, beq_iff_eq, hkid, hp] at hsup
        exact hid hsup.1.symm
      · exact hid (hkid.symm.trans hp)
    · obtain ⟨rfl, rfl⟩ := linked_inj hb hcanon (hhash.trans hmb)
      exact hsame rfl

/-- The mailboxes an account deletion takes: with a device's message mailbox goes
its call-control mailbox, unless the request names the first as a mailbox of its own. -/
theorem mem_accountMailboxes_linked {kt : KtLog} {hash b id : String} (hb : Canonical b)
    (h : linked R b id ∈ accountMailboxes R kt hash) :
    linked R b id = hash ∨ call R b id ∈ accountMailboxes R kt hash := by
  unfold accountMailboxes at h ⊢
  cases hbase : IdentityHash.fromHex hash with
  | none =>
    have hnone : ∀ d, callMailboxHash R.crypto.sha hash d = none :=
      fun d => by simp [callMailboxHash, hbase]
    have hnone' : ∀ d, deviceMailboxHash R.crypto.sha hash d = none :=
      fun d => by simp [deviceMailboxHash, hbase]
    simp only [hnone, hnone'] at h
    left
    cases hr : kt.latestRosterFor hash with
    | none => simpa [hr] using h
    | some roster => simpa [hr] using h
  | some base =>
    have hcanon := IdentityHash.canonical_of_fromHex hbase
    simp only [callMailboxHash_of hbase, List.mem_append, List.mem_singleton] at h ⊢
    obtain (rfl | h) | h := h
    · exact Or.inl rfl
    · exact (linked_ne_call (by simpa using h)).elim
    · right; right
      cases hr : kt.latestRosterFor hash with
      | none => simp [hr] at h
      | some roster =>
        rw [hr] at h
        dsimp only at h ⊢
        obtain ⟨d, hd, hm⟩ := List.mem_flatMap.mp h
        refine List.mem_flatMap.mpr ⟨d, hd, List.mem_append.mpr (Or.inl ?_)⟩
        rcases List.mem_append.mp hm with hm | hm
        · exact (linked_ne_call (by simpa using hm)).elim
        · split at hm
          · cases hm
          · rename_i hp
            rw [deviceMailboxHash_of hbase hp] at hm
            obtain ⟨rfl, rfl⟩ := linked_inj hb hcanon (by simpa using hm)
            simp

theorem mem_ownedAliases {directory : Table String DirectoryEntry} {key m : String}
    {aliases : List String} (h : m ∈ ownedAliases directory key aliases) :
    m ∈ aliases ∧ ∃ e, directory.get m = some e ∧ e.signingKey = key := by
  unfold ownedAliases at h
  obtain ⟨hm, hany⟩ := List.mem_filter.mp h
  cases he : directory.get m with
  | none => simp [he] at hany
  | some e => exact ⟨hm, e, rfl, by simpa [he] using hany⟩

theorem CallRecords.delete {req : AccountDeleteRequest} {account : DirectoryEntry}
    (h : CallRecords R c)
    (hwhole : ∀ base id, Canonical base → id ≠ primaryDeviceId →
      linked R base id ∈ req.hash :: req.aliasHashes → c.directory.get (call R base id) = none) :
    CallRecords R (c.dropMailboxes
      (accountMailboxes R c.kt req.hash ++ ownedAliases c.directory account.signingKey req.aliasHashes)) := by
  refine h.of_carried (fun b id hb hid ⟨e, he⟩ => ?_) fun b id hb hid e he =>
    ⟨e, (get_dropMailboxes he).1, rfl, rfl⟩
  obtain ⟨hrec, hnot⟩ := get_dropMailboxes he
  have hnamed : linked R b id ∉ req.hash :: req.aliasHashes := by
    intro hm
    rw [hwhole b id hb hid hm] at hrec
    cases hrec
  rw [Core.dropMailboxes_callKeys, Table.get_removeAll, if_neg]
  intro hm
  rcases List.mem_append.mp hm with hm | hm
  · obtain heq | hcall := mem_accountMailboxes_linked hb hm
    · exact hnamed (heq ▸ List.mem_cons_self)
    · exact hnot (List.mem_append_left _ hcall)
  · exact hnamed (List.mem_cons_of_mem _ (mem_ownedAliases hm).1)

/-! ### The invariant -/

/-- The record of an account that is not released has the keys of its binding. -/
def AccountRecords (c : Core) : Prop :=
  ∀ h b, c.kt.latestBindingFor h = some b → b.released = false → ∀ e, c.directory.get h = some e →
    e.Carries b.identityKey b.signingKey

/-- The directory says what the log and the call-key bindings say. -/
structure Owned (R : Relay) (c : Core) : Prop extends Named R c where
  devices : DeviceRecords R c
  calls : CallRecords R c
  accounts : AccountRecords c

theorem owned_start (R : Relay) (db : Option Db) : Owned R (start R db).inner.core where
  toNamed := named_start R db
  devices _ _ _ _ _ h := by simp [start, Inner.core] at h
  calls _ _ _ _ _ h := by simp [start, Inner.core] at h
  accounts _ _ _ _ _ h := by simp [start, Inner.core] at h

/-- An accepted roster leaves a mailbox that is not derived alone. -/
theorem get_roster_underived {roster : KtRosterEntry} {previous : Option KtRosterEntry}
    (hcanon : Canonical roster.usernameHash) {m : String} (hm : ¬ Derived R m) :
    (Core.mirrorRoster R c previous roster).directory.get m = c.directory.get m := by
  refine get_mirrorRoster_other (fromHex_of_canonical hcanon) (fun d _ hp heq => ?_) ?_
  · exact hm (heq ▸ derived_linked hcanon hp)
  · rw [mem_droppedBoth (fromHex_of_canonical hcanon)]
    rintro ⟨id, hid, rfl | rfl⟩
    · exact hm (derived_linked hcanon (mem_droppedIds.mp hid).2.1)
    · exact hm (derived_call hcanon)

theorem AccountRecords.of_carried (h : AccountRecords c)
    (hkt : ∀ u, c'.kt.latestBindingFor u = c.kt.latestBindingFor u)
    (hdir : ∀ u b, c.kt.latestBindingFor u = some b → ∀ e, c'.directory.get u = some e →
      ∃ e₀, c.directory.get u = some e₀ ∧ e.Carries e₀.identityKey e₀.signingKey) :
    AccountRecords c' := by
  intro u b hb hrel e he
  rw [hkt] at hb
  obtain ⟨e₀, he₀, hik, hsk⟩ := hdir u b hb e he
  obtain ⟨hik₀, hsk₀⟩ := h u b hb hrel e₀ he₀
  exact ⟨hik.trans hik₀, hsk.trans hsk₀⟩

theorem AccountRecords.register {req : RegisterRequest} {kt : KtLog} {i : ℕ} (h : AccountRecords c)
    (hwf : c.kt.Wf) (appended : c.kt.append R.crypto req.entry = .ok (i, kt))
    (core : c' = if req.entry.released then { c with kt }
      else { c with kt }.takeMailbox req.entry.usernameHash req.record) : AccountRecords c' := by
  obtain ⟨-, -, rfl⟩ := KtLog.append_cases hwf appended
  have hkt : c'.kt = c.kt.pushBinding req.entry := by
    rw [core]
    split <;> rfl
  intro u b hb hrel e he
  rw [hkt, KtLog.latestBindingFor_pushBinding _ hwf] at hb
  rw [core] at he
  split at hb
  · -- the new binding, which has just set the record
    rename_i hu
    cases hb
    rw [hrel] at he
    change (c.directory.set req.entry.usernameHash req.record).get u = some e at he
    rw [hu, Table.get_set_self] at he
    cases he
    exact ⟨rfl, rfl⟩
  · rename_i hu
    refine h u b hb hrel e ?_
    split at he
    · exact he
    · change (c.directory.set req.entry.usernameHash req.record).get u = some e at he
      rwa [Table.get_set_ne _ _ hu] at he

theorem AccountRecords.roster {roster : KtRosterEntry} {i : ℕ} {kt : KtLog} (h : AccountRecords c)
    (hn : Named R c) (appended : c.kt.appendRoster R.crypto roster = .ok (i, kt)) :
    AccountRecords (Core.mirrorRoster R { c with kt } (c.kt.latestRosterFor roster.usernameHash) roster) := by
  have hcanon := (hn.roster_name appended).1
  obtain ⟨-, rfl⟩ := KtLog.appendRoster_cases appended
  refine h.of_carried (fun u => KtLog.latestBindingFor_pushRoster _ hn.wf) fun u b hb e he =>
    ⟨e, ?_, rfl, rfl⟩
  rwa [get_roster_underived hcanon (hn.names u b hb).2] at he

theorem AccountRecords.callKey {req : CallKeyPublishRequest} {callMailbox : IdentityHash}
    (h : AccountRecords c) (hn : Named R c)
    (mailbox : (deviceMailboxHash R.crypto.sha req.accountHash req.binding.deviceId).map (·.asStr) = some req.hash)
    (hcall : callMailboxHash R.crypto.sha req.accountHash req.binding.deviceId = some callMailbox) :
    AccountRecords { c with directory := c.directory.set callMailbox.asStr req.binding.record
                            callKeys := c.callKeys.set req.hash req.binding } := by
  obtain ⟨base, -, hcanon, hcm, -⟩ := callKey_mailboxes mailbox hcall
  refine h.of_carried (fun _ => rfl) fun u b hb e he => ⟨e, ?_, rfl, rfl⟩
  have hne : u ≠ call R base.asStr req.binding.deviceId := by
    rintro rfl
    exact (hn.names _ b hb).2 (derived_call hcanon)
  change (c.directory.set _ _).get _ = _ at he
  rwa [hcm, Table.get_set_ne _ _ hne] at he

theorem AccountRecords.delete (h : AccountRecords c) (mbs : List String) :
    AccountRecords (c.dropMailboxes mbs) := by
  refine h.of_carried (fun u => ?_) fun u b _ e he => ⟨e, (get_dropMailboxes he).1, rfl, rfl⟩
  rw [Core.dropMailboxes_kt]

theorem Owned.of_keepsKeys (h : Owned R c) (hkeeps : c.KeepsKeys c') : Owned R c' where
  toNamed := h.toNamed.of_kt hkeeps.kt
  devices := by
    refine h.devices.of_carried (fun u => ?_) fun b id _ _ e he => hkeeps.records _ e he
    rw [hkeeps.kt]
  calls := by
    refine h.calls.of_carried (fun b id _ _ _ => ?_) fun b id _ _ e he => hkeeps.records _ e he
    rw [hkeeps.callKeys]
  accounts := by
    refine h.accounts.of_carried (fun u => ?_) fun u _ _ e he => hkeeps.records u e he
    rw [hkeeps.kt]

/-- Whatever a request does, one line for each kind of it. -/
theorem Owned.of_recordStep {s : Sys} {e : Event} (h : Owned R s.inner.core)
    (hstep : RecordStep R s.inner.core e c') (hok : NamesOk R e) (hwhole : DeletesWhole R s e) :
    Owned R c' := by
  have hnamed := h.toNamed.step hstep hok
  cases hstep with
  | same hsame => exact h.of_keepsKeys hsame.keepsKeys
  | bundle found core => exact h.of_keepsKeys (Core.keepsKeys_withKeys found core)
  | upload found signed core => exact h.of_keepsKeys (Core.keepsKeys_withKeys found core)
  | register appended core =>
    exact ⟨hnamed, h.devices.register h.wf hok.2 appended core, h.calls.register hok.2 core,
      h.accounts.register h.wf appended core⟩
  | roster appended hex core =>
    subst core
    exact ⟨hnamed, h.devices.roster h.toNamed appended, h.calls.roster h.toNamed appended,
      h.accounts.roster h.toNamed appended⟩
  | callKey mailbox hcall found signed newer core =>
    subst core
    exact ⟨hnamed, h.devices.callKey mailbox hcall, h.calls.callKey mailbox hcall newer,
      h.accounts.callKey h.toNamed mailbox hcall⟩
  | delete found signed core =>
    subst core
    exact ⟨hnamed, h.devices.delete _, h.calls.delete hwhole, h.accounts.delete _⟩

theorem Owned.step {s : Sys} {e : Event} (h : Owned R s.inner.core) (hok : NamesOk R e)
    (hwhole : DeletesWhole R s e) :
    Owned R (sysStep R s e).inner.core :=
  h.of_recordStep (recordStep R s e) hok hwhole

/-! ### Who signs -/

/-- The request carries a signature that verifies under the key. -/
def Signed (R : Relay) : Event → String → Prop
  | .register _ _ req _, key => req.entry.signer = key ∧ req.entry.verifySignature R.crypto = true
  | .publishRoster _ roster _, key =>
    R.crypto.verifyEd25519 key roster.signingPayload roster.signature = true
  | .publishCallKey req _, key => R.crypto.verify key req.message req.signature = true
  | .deleteAccount _ req _, key => R.crypto.verify key req.message req.signature = true
  | .uploadOneTimeKeys _ req _, key =>
    R.crypto.verify key (oneTimeKeysSigningMessage req.identityHash req.oneTimeKeys) req.signature = true
  | _, _ => False

/-- A signing key of the account: of its binding, of a linked device of its
latest roster, or of the call-control record of one of its devices. -/
def AccountKey (R : Relay) (c : Core) (h key : String) : Prop :=
  (∃ b, c.kt.latestBindingFor h = some b ∧ b.signingKey = key) ∨
    (∃ r, c.kt.latestRosterFor h = some r ∧ ∃ d ∈ r.devices, d.deviceId ≠ primaryDeviceId ∧ d.signingKey = key) ∨
    ∃ id e, c.directory.get (call R h id) = some e ∧ e.signingKey = key

/-- The signing key of a record of the account is a key of the account. -/
theorem Owned.accountKey {h m : String} {cur : KtEntry} {e : DirectoryEntry} (ho : Owned R c)
    (hcur : c.kt.latestBindingFor h = some cur) (hrel : cur.released = false) (hm : MailboxOf R h m)
    (he : c.directory.get m = some e) : AccountKey R c h e.signingKey := by
  obtain rfl | ⟨id, hid, rfl⟩ | ⟨id, rfl⟩ := hm
  · exact Or.inl ⟨cur, hcur, (ho.accounts m cur hcur hrel e he).2.symm⟩
  · obtain ⟨r, hr, d, hd, rfl, -, hsk⟩ := ho.devices h id (ho.names h cur hcur).1 hid e he
    exact Or.inr (Or.inl ⟨r, hr, d, hd, hid, hsk.symm⟩)
  · exact Or.inr (Or.inr ⟨id, e, he, rfl⟩)

/-- A request other than a bundle fetch changes the record of a mailbox of an
account only with a signature under a key of the account. -/
def Authorised (R : Relay) (s : Sys) (e : Event) : Prop :=
  ∀ h cur, s.inner.kt.latestBindingFor h = some cur → cur.released = false →
    (∀ client hash now, e ≠ .fetchBundle client hash now) → ∀ m, MailboxOf R h m →
      (sysStep R s e).inner.directory.get m ≠ s.inner.directory.get m →
      ∃ key, Signed R e key ∧ AccountKey R s.inner.core h key

/-- The mailboxes of an account that a roster touches are those of its own name. -/
theorem roster_changes {roster : KtRosterEntry} (previous : Option KtRosterEntry) {h m : String}
    (hcanon : Canonical roster.usernameHash) (hh : Canonical h) (hd : ¬ Derived R h)
    (hm : MailboxOf R h m)
    (hne : (Core.mirrorRoster R c previous roster).directory.get m ≠ c.directory.get m) :
    roster.usernameHash = h := by
  have hbase := fromHex_of_canonical hcanon
  by_contra hu
  refine hne ?_
  obtain rfl | ⟨id, hid, rfl⟩ | ⟨id, rfl⟩ := hm
  · exact get_roster_underived hcanon hd
  · refine get_mirrorRoster_other hbase (fun d _ _ heq => hu (linked_inj hh hcanon heq).1.symm) ?_
    rw [mem_droppedBoth hbase]
    rintro ⟨id', -, heq | heq⟩
    · exact hu (linked_inj hh hcanon heq).1.symm
    · exact linked_ne_call heq
  · refine get_mirrorRoster_other hbase (fun d _ _ => linked_ne_call.symm) ?_
    rw [mem_droppedBoth hbase]
    rintro ⟨id', -, heq | heq⟩
    · exact linked_ne_call heq.symm
    · exact hu (call_inj hh hcanon heq).1.symm

/-- A mailbox that an account deletion takes and that belongs to the account `h`
is named by the request, or the request is for `h`. -/
theorem deleted_mailbox {kt : KtLog} {hash h m : String} (hash_canon : Canonical hash)
    (hh : Canonical h) (hd : ¬ Derived R h) (hm : MailboxOf R h m)
    (hmem : m ∈ accountMailboxes R kt hash) : m = hash ∨ hash = h := by
  have hbase := fromHex_of_canonical hash_canon
  -- a derived mailbox of `hash` that belongs to `h` is one of `h`
  have hcall : ∀ id, m = call R hash id → hash = h := by
    rintro id rfl
    obtain heq | ⟨id', -, heq⟩ | ⟨id', heq⟩ := hm
    · exact (hd (heq ▸ derived_call hash_canon)).elim
    · exact (linked_ne_call heq.symm).elim
    · exact (call_inj hash_canon hh heq).1
  have hlinked : ∀ id, id ≠ primaryDeviceId → m = linked R hash id → hash = h := by
    rintro id hid rfl
    obtain heq | ⟨id', -, heq⟩ | ⟨id', heq⟩ := hm
    · exact (hd (heq ▸ derived_linked hash_canon hid)).elim
    · exact (linked_inj hash_canon hh heq).1
    · exact (linked_ne_call heq).elim
  unfold accountMailboxes at hmem
  simp only [callMailboxHash_of hbase, List.mem_append, List.mem_singleton] at hmem
  obtain (rfl | hmem) | hmem := hmem
  · exact Or.inl rfl
  · exact Or.inr (hcall _ (by simpa using hmem))
  · right
    cases hr : kt.latestRosterFor hash with
    | none => simp [hr] at hmem
    | some roster =>
      rw [hr] at hmem
      obtain ⟨d, -, hmd⟩ := List.mem_flatMap.mp hmem
      rcases List.mem_append.mp hmd with hmd | hmd
      · exact hcall d.deviceId (by simpa using hmd)
      · split at hmd
        · cases hmd
        · rename_i hp
          rw [deviceMailboxHash_of hbase hp] at hmd
          exact hlinked d.deviceId hp (by simpa using hmd)

/-- A change of a record of an account is signed by the account. -/
theorem Owned.signed_of_change {e : Event} {h m : String} {cur : KtEntry} (ho : Owned R c)
    (hok : NamesOk R e) (hstep : RecordStep R c e c') (hcur : c.kt.latestBindingFor h = some cur)
    (hrel : cur.released = false) (hnot : ∀ client hash now, e ≠ .fetchBundle client hash now)
    (hm : MailboxOf R h m) (hne : c'.directory.get m ≠ c.directory.get m) :
    ∃ key, Signed R e key ∧ AccountKey R c h key := by
  obtain ⟨hcanon, hder⟩ := ho.names h cur hcur
  cases hstep with
  | same hsame => exact (hne (by rw [hsame.1])).elim
  | bundle found core => exact (hnot _ _ _ rfl).elim
  | @upload client req now entry keys _ found signed core =>
    refine ⟨entry.signingKey, signed, ?_⟩
    have hmm : m = req.identityHash := by
      by_contra hmm
      exact hne (by rw [core]; exact Table.get_set_ne _ _ hmm)
    exact ho.accountKey hcur hrel hm (hmm ▸ found)
  | @register client invite req now i kt _ appended core =>
    obtain ⟨hsig, hcont, -⟩ := KtLog.append_cases ho.wf appended
    obtain rfl | ⟨id, hid, rfl⟩ | ⟨id, rfl⟩ := hm
    · -- the entry is of this name, so it continues its unreleased binding
      have hu : req.entry.usernameHash = m := by
        by_contra hu
        refine hne ?_
        rw [core]
        split
        · rfl
        · exact Table.get_set_ne _ _ (Ne.symm hu)
      have hcur' : c.kt.latestBindingFor req.entry.usernameHash = some cur := hu ▸ hcur
      rw [hcur'] at hcont
      obtain ⟨-, hprev | ⟨-, hreleased, -⟩⟩ := hcont
      · exact ⟨cur.signingKey, ⟨by rw [KtEntry.signer, hprev]; rfl, hsig⟩, Or.inl ⟨cur, hcur, rfl⟩⟩
      · rw [hrel] at hreleased
        cases hreleased
    · exact (hne (get_registered_derived core hok.2 (derived_linked hcanon hid))).elim
    · exact (hne (get_registered_derived core hok.2 (derived_call hcanon))).elim
  | @roster client roster now i kt _ appended hex core =>
    have hname := (ho.toNamed.roster_name appended).1
    obtain ⟨⟨current, hacc⟩, rfl⟩ := KtLog.appendRoster_cases appended
    have hu : roster.usernameHash = h := roster_changes _ hname hcanon hder hm (core ▸ hne)
    have hcurrent : some current = some cur := hacc.latest.symm.trans (hu ▸ hcur)
    cases hcurrent
    exact ⟨cur.signingKey, hacc.signed, Or.inl ⟨cur, hcur, rfl⟩⟩
  | @callKey req now callMailbox entry _ mailbox hcall found signed newer core =>
    obtain ⟨base, -, hbase, hcm, hmb⟩ := callKey_mailboxes mailbox hcall
    have hmm : m = call R base.asStr req.binding.deviceId := by
      by_contra hmm
      exact hne (by rw [core, hcm]; exact Table.get_set_ne _ _ hmm)
    subst hmm
    have hbh : base.asStr = h := by
      obtain heq | ⟨id, -, heq⟩ | ⟨id, heq⟩ := hm
      · exact (hder (heq ▸ derived_call hbase)).elim
      · exact (linked_ne_call heq.symm).elim
      · exact (call_inj hbase hcanon heq).1
    refine ⟨entry.signingKey, signed, ho.accountKey hcur hrel ?_ found⟩
    obtain ⟨-, heq⟩ | ⟨hp, heq⟩ := hmb
    · exact Or.inl (heq.trans hbh)
    · exact Or.inr (Or.inl ⟨_, hp, hbh ▸ heq⟩)
  | @delete client req now account _ found signed core =>
    refine ⟨account.signingKey, signed, ?_⟩
    have hmem : m ∈ accountMailboxes R c.kt req.hash ++
        ownedAliases c.directory account.signingKey req.aliasHashes := by
      by_contra hmem
      refine hne ?_
      rw [core, Core.dropMailboxes_directory, Table.get_removeAll]
      exact if_neg hmem
    rcases List.mem_append.mp hmem with hmem | hmem
    · obtain rfl | hu := deleted_mailbox hok hcanon hder hm hmem
      · exact ho.accountKey hcur hrel hm found
      · exact ho.accountKey hcur hrel (Or.inl hu) found
    · obtain ⟨-, e', he', hkey⟩ := mem_ownedAliases hmem
      exact hkey ▸ ho.accountKey hcur hrel hm he'

theorem Owned.authorised {s : Sys} {e : Event} (ho : Owned R s.inner.core) (hok : NamesOk R e) :
    Authorised R s e :=
  fun _ _ hcur hrel hnot _ hm hne => ho.signed_of_change hok (recordStep R s e) hcur hrel hnot hm hne

/-- The records of a linked device that the current roster of an unreleased
account lists: that of its mailbox has its listed keys, that of its
call-control mailbox the keys of its call-key binding. -/
def LinkedDevicesOwned (R : Relay) (s : Inner) : Prop :=
  ∀ h cur, s.kt.latestBindingFor h = some cur → cur.released = false →
    ∀ roster, s.kt.currentRosterFor h = some roster →
    ∀ d ∈ roster.devices, d.deviceId ≠ primaryDeviceId →
    ∀ mailbox ∈ deviceMailboxHash R.crypto.sha h d.deviceId,
    ∀ callMailbox ∈ callMailboxHash R.crypto.sha h d.deviceId,
      (∀ e, s.directory.get mailbox.asStr = some e → e.Carries d.identityKey d.signingKey) ∧
      (∀ e, s.directory.get callMailbox.asStr = some e →
        ∃ b, s.callKeys.get mailbox.asStr = some b ∧ e.Carries b.callKey b.callSigningKey)

/-- **The mailboxes of linked devices belong to their roster.** In a run that
registers no account under a derived mailbox and deletes no device's mailbox
without its call record, they are owned, and no request of the run changes a
record of an account without a signature of the account. -/
theorem device_mailboxes_owned (R : Relay) (db : Option Db) (es : List Event)
    (hrun : Trace.Along (sysStep R) (fun s e => NamesOk R e ∧ DeletesWhole R s e) (start R db) es) :
    LinkedDevicesOwned R (after R db es).inner ∧
    Trace.Along (sysStep R) (Authorised R) (start R db) es := by
  have hkeep : ∀ s e, Owned R s.inner.core → NamesOk R e ∧ DeletesWhole R s e →
      Owned R (sysStep R s e).inner.core :=
    fun s e ho hc => ho.step hc.1 hc.2
  constructor
  · intro h cur hcur hrel roster hroster d hd hp mailbox hmb callMailbox hcall
    have ho : Owned R (after R db es).inner.core := hrun.inv hkeep (owned_start R db)
    have hcanon := (ho.names h cur hcur).1
    have hlatest := KtLog.latestRosterFor_of_current hroster
    rw [deviceMailboxHash_of (fromHex_of_canonical hcanon) hp] at hmb
    rw [callMailboxHash_of (fromHex_of_canonical hcanon)] at hcall
    cases hmb
    cases hcall
    constructor
    · intro e he
      obtain ⟨r, hr, d', hd', hid, hk⟩ := ho.devices h d.deviceId hcanon hp e he
      cases hr.symm.trans hlatest
      -- the roster lists the id once
      have hsame : d' = d := List.inj_on_of_nodup_map (ho.ids h roster hlatest) hd' hd hid
      exact hsame ▸ hk
    · intro e he
      obtain ⟨b, hb, -, hk⟩ := ho.calls h d.deviceId hcanon hp e he
      exact ⟨b, hb, hk⟩
  · exact hrun.imp hkeep (fun s e ho hc => ho.authorised hc.1) (owned_start R db)

/-! ### Two runs -/

theorem bobHash_not_derived (signed : Signatures) : ¬ Derived (sampleRelay signed) bobHash := by
  have hne := sampleHex_ne (s := bobHash) (by decide +kernel) (by decide +kernel)
  rintro ⟨base, id, -, ⟨-, h⟩ | h⟩
  · exact hne _ h.symm
  · exact hne _ h.symm

/-- The linked device has the record the roster gives it, and the account made every change. -/
theorem device_mailboxes_owned_bob :
    (∃ e, (after (sampleRelay rosterSigned) none bobLinks).inner.directory.get deviceMailbox = some e ∧
      e.Carries deviceRecord.identityKey deviceKey) ∧
    Trace.Along (sysStep (sampleRelay rosterSigned)) (Authorised (sampleRelay rosterSigned))
      (start (sampleRelay rosterSigned) none) bobLinks := by
  have hrun : Trace.Along (sysStep (sampleRelay rosterSigned))
      (fun s e => NamesOk (sampleRelay rosterSigned) e ∧ DeletesWhole (sampleRelay rosterSigned) s e)
      (start (sampleRelay rosterSigned) none) bobLinks :=
    ⟨⟨⟨(by decide +kernel : Canonical bobHash), bobHash_not_derived _⟩, trivial⟩,
    ⟨trivial, trivial⟩, trivial⟩
  obtain ⟨hkeys, hsigned⟩ := device_mailboxes_owned (sampleRelay rosterSigned) none bobLinks hrun
  have hlinked :
      (after (sampleRelay rosterSigned) none bobLinks).inner.kt.latestBindingFor bobHash = some bobEntry ∧
      (after (sampleRelay rosterSigned) none bobLinks).inner.kt.currentRosterFor bobHash = some bobRoster ∧
      ((after (sampleRelay rosterSigned) none bobLinks).inner.directory.get deviceMailbox).isSome = true := by
    decide +kernel
  obtain ⟨hbinding, hroster, hrecord⟩ := hlinked
  obtain ⟨e, he⟩ := Option.isSome_iff_exists.mp hrecord
  refine ⟨⟨e, he, ?_⟩, hsigned⟩
  exact (hkeys bobHash bobEntry hbinding rfl bobRoster hroster deviceRecord (by simp [bobRoster]) (by decide +kernel)
    _ deviceMailboxHash_bob _ callMailboxHash_bob).1 e he

/-- Another key claims the mailbox of the device as the name of an account. -/
def derivedEntry : KtEntry :=
  { seq := 0, usernameHash := deviceMailbox, identityKey := malloryIdentity,
    signingKey := malloryKey
    prevSigningKey := none, timestamp := 1000, released := false
    signature := "brSqbntkHmKNcUYQ4aM2vCCoYD1ofBUHj92bHSL/DDumb8mkjX/jriRv4bM094vQFblx030F9Ew2Pf/N1IyqDw" }

def derivedSigned : Signatures :=
  (malloryKey, derivedEntry.signingPayload, derivedEntry.signature) :: rosterSigned

def malloryRegisters : List Event :=
  bobLinks ++ [.register (some "10.0.0.2") none { entry := derivedEntry, oneTimeKeys := [], fallbackKey := none } 1200]

/-- The requests name accounts canonically. -/
def CanonicalNames : Event → Prop
  | .register _ _ req _ => Canonical req.entry.usernameHash
  | .deleteAccount _ req _ => Canonical req.hash
  | _ => True

/-- **An account registered under the mailbox of a device overwrites its record.** -/
theorem derived_name_overwrites_device :
    ¬ ∀ (R : Relay) (db : Option Db) (es : List Event),
      Trace.Along (sysStep R) (fun _ e => CanonicalNames e) (start R db) es →
      LinkedDevicesOwned R (after R db es).inner ∧
      Trace.Along (sysStep R) (Authorised R) (start R db) es := by
  intro h
  have hnames : Trace.Along (sysStep (sampleRelay derivedSigned)) (fun _ e => CanonicalNames e)
      (start (sampleRelay derivedSigned) none) malloryRegisters :=
    ⟨(by decide +kernel : Canonical bobHash), trivial,
    (by decide +kernel : Canonical deviceMailbox), trivial⟩
  have hlog : (after (sampleRelay derivedSigned) none malloryRegisters).inner.kt.latestBindingFor bobHash = some bobEntry ∧
      (after (sampleRelay derivedSigned) none malloryRegisters).inner.kt.currentRosterFor bobHash = some bobRoster ∧
      (after (sampleRelay derivedSigned) none malloryRegisters).inner.directory.get deviceMailbox =
        some { identityKey := malloryIdentity, signingKey := malloryKey } := by
    decide +kernel
  obtain ⟨hcarries, -⟩ := (h _ none _ hnames).1 bobHash bobEntry hlog.1 rfl bobRoster hlog.2.1 deviceRecord
    (by simp [bobRoster]) (by decide +kernel) _ deviceMailboxHash_bob _ callMailboxHash_bob
  have hkey := (hcarries _ hlog.2.2).2
  exact absurd hkey (by decide +kernel)

end Sona
