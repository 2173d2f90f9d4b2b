/-
# Revocation of devices

What an accepted roster leaves of a device that it drops or re-keys. Of a
dropped device `publish_roster` clears the message mailbox in every table, but
of the call-control mailbox only the directory record; for a device that keeps
its id and changes its keys it replaces the record of the message mailbox and
clears nothing (`old_device_gone_iff`). So revocation is complete exactly when
there was nothing else to clear (`revocation_complete_iff`), and
`dropped_device_stays_live` is a run where there was.

Key definitions: `Revoked`, `OldDeviceGone`, `NothingElse`, `RevocationComplete`, `ClearedByRoster`.
-/
import Sona.Lib.Table
import Sona.Wire
import Sona.Kt
import Sona.Relay
import Sona.Handlers
import Sona.Records
import Sona.Run
import Sona.Sockets

namespace Sona

/-- A linked device of the roster before that is not in the new one with the same keys. -/
structure Revoked (previous : Option KtRosterEntry) (roster : KtRosterEntry) (d : DeviceRecord) :
    Prop where
  listed : ∃ r ∈ previous, d ∈ r.devices
  linked : d.deviceId ≠ primaryDeviceId
  changed : ∀ d' ∈ roster.devices, d'.deviceId = d.deviceId →
    ¬ (d'.identityKey = d.identityKey ∧ d'.signingKey = d.signingKey)

/-- Nothing of the old device is left in its two mailboxes. A roster publishes
no call key, call record or push subscription, so one that is there after it
is the old device's; the record of the message mailbox may be that of the new
keys. -/
structure OldDeviceGone (before now : Core) (mailbox callMailbox : String) (d : DeviceRecord) :
    Prop where
  directory : ∀ e, now.directory.get mailbox = some e → ¬ e.Carries d.identityKey d.signingKey
  callRecord : now.directory.get callMailbox = none
  push : now.push.get mailbox = none ∧ now.push.get callMailbox = none
  callKeys : now.callKeys.get mailbox = none ∧ now.callKeys.get callMailbox = none
  live : (∀ ch ∈ before.liveOn mailbox, ch ∉ now.liveOn mailbox) ∧
    ∀ ch ∈ before.liveOn callMailbox, ch ∉ now.liveOn callMailbox

/-- There was nothing that `publish_roster` does not clear: nothing under the
call-control mailbox but the record, and for a device that keeps its id no
call record and nothing under the message mailbox but the record. -/
structure NothingElse (c : Core) (roster : KtRosterEntry) (mailbox callMailbox : String)
    (d : DeviceRecord) : Prop where
  callPush : c.push.get callMailbox = none
  callKey : c.callKeys.get callMailbox = none
  callLive : c.liveOn callMailbox = []
  rekeyed : (∃ d' ∈ roster.devices, d'.deviceId = d.deviceId) →
    c.directory.get callMailbox = none ∧ c.push.get mailbox = none ∧ c.callKeys.get mailbox = none ∧
      c.liveOn mailbox = []

/-- Channels that stay live are gone only if there were none. -/
theorem liveOn_gone_iff {c c' : Core} {m : String} (h : c'.liveOn m = c.liveOn m) :
    (∀ ch ∈ c.liveOn m, ch ∉ c'.liveOn m) ↔ c.liveOn m = [] := by
  rw [h]
  constructor
  · intro hall
    rw [List.eq_nil_iff_forall_not_mem]
    exact fun ch hch => hall ch hch hch
  · intro hnil
    simp [hnil]

section roster

variable {R : Relay} {c : Core} {previous : Option KtRosterEntry} {roster : KtRosterEntry}
  {base : IdentityHash} {d : DeviceRecord} {kt : KtLog}
  (hb : IdentityHash.fromHex roster.usernameHash = some base)
include hb

/-- A dropped device is gone exactly if there was nothing under its call-control
mailbox but the record. -/
theorem dropped_gone_iff (hid : d.deviceId ∈ droppedIds previous roster) :
    OldDeviceGone c (Core.mirrorRoster R { c with kt } previous roster) (linked R base.asStr d.deviceId)
        (call R base.asStr d.deviceId) d ↔
      NothingElse c roster (linked R base.asStr d.deviceId) (call R base.asStr d.deviceId) d := by
  obtain ⟨hdir, hcall⟩ := get_mirrorRoster_dropped (R := R) (c := { c with kt }) hb hid
  obtain ⟨hpush, hkeys, hlive⟩ := get_mirrorRoster_dropped_tables (R := R) (c := { c with kt }) hb hid
  obtain ⟨hpush', hkeys', hlive'⟩ :=
    get_mirrorRoster_call_tables (R := R) (c := { c with kt }) hb previous d.deviceId
  constructor
  · intro h
    exact ⟨hpush'.symm.trans h.push.2, hkeys'.symm.trans h.callKeys.2,
      (liveOn_gone_iff hlive').mp h.live.2, fun ⟨d', hd',
        heq⟩ => ((mem_droppedIds.mp hid).2.2 d' hd' heq).elim⟩
  · intro h
    refine ⟨fun e he => ?_, hcall, ⟨hpush, hpush'.trans h.callPush⟩,
      ⟨hkeys, hkeys'.trans h.callKey⟩, ?_, (liveOn_gone_iff hlive').mpr h.callLive⟩
    · rw [hdir] at he
      cases he
    · rw [hlive]
      exact fun _ _ h => nomatch h

/-- A re-keyed device is gone exactly if there was nothing but the record of its
message mailbox. -/
theorem rekeyed_gone_iff (hn : (roster.devices.map (·.deviceId)).Nodup)
    (hrev : Revoked previous roster d) {d' : DeviceRecord} (hd' : d' ∈ roster.devices)
    (hid : d'.deviceId = d.deviceId) :
    OldDeviceGone c (Core.mirrorRoster R { c with kt } previous roster) (linked R base.asStr d.deviceId)
        (call R base.asStr d.deviceId) d ↔
      NothingElse c roster (linked R base.asStr d.deviceId) (call R base.asStr d.deviceId) d := by
  have hkept : d.deviceId ∉ droppedIds previous roster :=
    fun h => (mem_droppedIds.mp h).2.2 d' hd' hid
  obtain ⟨e, he, hik, hsk⟩ := get_mirrorRoster_listed (R := R) (c := { c with kt }) hb previous hn hd'
    (hid ▸ hrev.linked)
  rw [hid] at he
  have hcall := get_mirrorRoster_call (R := R) (c := { c with kt }) hb hkept
  obtain ⟨hpush, hkeys, hlive⟩ := get_mirrorRoster_kept_tables (R := R) (c := { c with kt }) hb hkept
  obtain ⟨hpush', hkeys', hlive'⟩ :=
    get_mirrorRoster_call_tables (R := R) (c := { c with kt }) hb previous d.deviceId
  constructor
  · intro h
    exact ⟨hpush'.symm.trans h.push.2, hkeys'.symm.trans h.callKeys.2,
      (liveOn_gone_iff hlive').mp h.live.2, fun _ => ⟨hcall.symm.trans h.callRecord,
        hpush.symm.trans h.push.1, hkeys.symm.trans h.callKeys.1,
        (liveOn_gone_iff hlive).mp h.live.1⟩⟩
  · intro h
    obtain ⟨h1, h2, h3, h4⟩ := h.rekeyed ⟨d', hd', hid⟩
    refine ⟨fun e' he' => ?_, hcall.trans h1, ⟨hpush.trans h2, hpush'.trans h.callPush⟩,
      ⟨hkeys.trans h3, hkeys'.trans h.callKey⟩, (liveOn_gone_iff hlive).mpr h4,
      (liveOn_gone_iff hlive').mpr h.callLive⟩
    -- the record has the new keys, and they are not the old ones
    rw [he] at he'
    cases he'
    rintro ⟨hik', hsk'⟩
    exact hrev.changed d' hd' hid ⟨hik.symm.trans hik', hsk.symm.trans hsk'⟩

theorem old_device_gone_iff (hn : (roster.devices.map (·.deviceId)).Nodup)
    (hrev : Revoked previous roster d) :
    OldDeviceGone c (Core.mirrorRoster R { c with kt } previous roster) (linked R base.asStr d.deviceId)
        (call R base.asStr d.deviceId) d ↔
      NothingElse c roster (linked R base.asStr d.deviceId) (call R base.asStr d.deviceId) d := by
  by_cases hkeep : ∃ d' ∈ roster.devices, d'.deviceId = d.deviceId
  · obtain ⟨d', hd', hid⟩ := hkeep
    exact rekeyed_gone_iff hb hn hrev hd' hid
  · obtain ⟨r, hr, hd⟩ := hrev.listed
    exact dropped_gone_iff hb (mem_droppedIds.mpr
      ⟨⟨r, hr, d, hd, rfl⟩, hrev.linked, fun d' hd' hid => hkeep ⟨d', hd', hid⟩⟩)

end roster

/-- Nothing is left of any linked device that the roster drops or re-keys. -/
def RevocationComplete (R : Relay) (s : Inner) (client : Option String) (roster : KtRosterEntry)
    (now : ℕ) : Prop :=
  ∀ d, Revoked (s.kt.latestRosterFor roster.usernameHash) roster d →
    ∀ mailbox ∈ deviceMailboxHash R.crypto.sha roster.usernameHash d.deviceId,
    ∀ callMailbox ∈ callMailboxHash R.crypto.sha roster.usernameHash d.deviceId,
      OldDeviceGone s.core (publishRoster R s client roster now).2.1.core mailbox.asStr callMailbox.asStr d

/-- Of no linked device that the roster drops or re-keys there is anything that
`publish_roster` does not clear. -/
def ClearedByRoster (R : Relay) (s : Inner) (roster : KtRosterEntry) : Prop :=
  ∀ d, Revoked (s.kt.latestRosterFor roster.usernameHash) roster d →
    ∀ mailbox ∈ deviceMailboxHash R.crypto.sha roster.usernameHash d.deviceId,
    ∀ callMailbox ∈ callMailboxHash R.crypto.sha roster.usernameHash d.deviceId,
      NothingElse s.core roster mailbox.asStr callMailbox.asStr d

/-- **When revocation is complete.** In every reachable state an accepted roster
revokes completely exactly when there was nothing that `publish_roster` does
not clear. -/
theorem revocation_complete_iff (R : Relay) (db : Option Db) (es : List Event)
    (client : Option String) (roster : KtRosterEntry) (now : ℕ)
    (accepted : (publishRoster R (after R db es).inner client roster now).1.status = 200) :
    RevocationComplete R (after R db es).inner client roster now ↔
    ClearedByRoster R (after R db es).inner roster := by
  obtain ⟨-, hno⟩ | ⟨i, kt, ha, hx, -, hcore⟩ :=
    publishRoster_core (R := R) (s := (after R db es).inner) client roster now
  · exact (hno accepted).elim
  obtain ⟨base, hb⟩ := Option.isSome_iff_exists.mp hx
  obtain ⟨⟨current, hacc⟩, -⟩ := KtLog.appendRoster_cases ha
  unfold RevocationComplete ClearedByRoster
  rw [hcore]
  refine forall_congr' fun d => forall_congr' fun hrev => ?_
  rw [deviceMailboxHash_of hb hrev.linked, callMailboxHash_of hb]
  simp only [Option.mem_some_iff, forall_eq']
  exact old_device_gone_iff hb hacc.ids hrev

/-! ### Two runs -/

def callSigningKey : String := "ARC2be33WUDdpvi9hbLK+p9CcvDezHolpUOclRGRTrU"

/-- The device publishes a call key. -/
def deviceCallKey : CallKeyPublishRequest :=
  { hash := deviceMailbox, accountHash := bobHash, nonce := sampleNonce
    signature := "cHntORgrVxiKRSn6y5gM9C1KusbfzXVW+XPp+QmW9+h5W2oigZz0YG826M+R90DvjnfAsmAHvB9o0rzL1w58DQ"
    binding :=
      { deviceId := sampleDevice, callKey := "j68fo2+G8vBr2uG08yUT7pf3PUYo4BWcg0A4wiSFBgk",
        callSigningKey, createdAt := 1200
        signature := "4+WQdzb1OZp9Y5KKoOfRar1eECOOrXKJWuzw0oKwTlDD21tWiHAsliQnXiLDp/8jzcMBJ5GajFo21dRZFakCDg" } }

/-- The device proves its call key to a socket. -/
def deviceCallAuth : AuthFrame :=
  { hash := deviceCallMailbox, nonce := "6InTC4VCHozIMNFfO1AIwYlmAOmpEp4JvTAUg87+iYE"
    signature := "20cFbcEFeD0XtPo9a9xlr2rVPNwrDyJ1ZpQrTF9Th3zOO6bt2W7GCOejMGBq6l3cgSPQkS+ZQWavgGvPcyobBw" }

def droppingSigned : Signatures :=
  rosterSigned ++ [(bobKey, droppingRoster.signingPayload, droppingRoster.signature),
    (deviceKey, deviceCallKey.message, deviceCallKey.signature),
    (callSigningKey, wsAuthSigningMessage deviceCallMailbox deviceCallAuth.nonce, deviceCallAuth.signature)]

theorem deviceRecord_revoked : Revoked (some bobRoster) droppingRoster deviceRecord where
  listed := ⟨bobRoster, rfl, by simp [bobRoster]⟩
  linked := by decide +kernel
  changed := by decide +kernel

/-- The roster drops that device and no other. -/
theorem revoked_is_deviceRecord {d : DeviceRecord} (h : Revoked (some bobRoster) droppingRoster d) :
    d = deviceRecord := by
  obtain ⟨r, hr, hd⟩ := h.listed
  cases hr
  obtain rfl | rfl : d = primaryRecord ∨ d = deviceRecord := by simpa [bobRoster] using hd
  · exact (h.linked rfl).elim
  · rfl

/-- The device publishes its call key and subscribes with it. -/
def deviceSubscribes : List Event :=
  bobLinks ++ [.challenge (some "10.0.0.3") deviceMailbox sampleNonce 1200, .publishCallKey deviceCallKey 1201,
    .challenge (some "10.0.0.3") deviceCallMailbox deviceCallAuth.nonce 1300, .connect "10.0.0.3" 3,
    .auth 0 deviceCallAuth 1301, .subscribe 0 1301]

/-- The roster without the device is taken after the first one, with and without a call
key; what the device has under its call mailbox is what it subscribed there. -/
theorem droppingRoster_runs :
    (∀ es ∈ [bobLinks, deviceSubscribes],
      (publishRoster (sampleRelay droppingSigned) (after (sampleRelay droppingSigned) none es).inner
          (some "10.0.0.1") droppingRoster 1600).1.status = 200 ∧
        (after (sampleRelay droppingSigned) none es).inner.kt.latestRosterFor bobHash =
          some bobRoster) ∧
      ((after (sampleRelay droppingSigned) none bobLinks).inner.core.push.get deviceCallMailbox = none ∧
        (after (sampleRelay droppingSigned) none bobLinks).inner.core.callKeys.get deviceCallMailbox = none ∧
        (after (sampleRelay droppingSigned) none bobLinks).inner.core.liveOn deviceCallMailbox = []) ∧
      0 ∈ (after (sampleRelay droppingSigned) none deviceSubscribes).inner.core.liveOn deviceCallMailbox ∧
      0 ∈ (publishRoster (sampleRelay droppingSigned) (after (sampleRelay droppingSigned) none deviceSubscribes).inner
        (some "10.0.0.1") droppingRoster 1600).2.1.core.liveOn deviceCallMailbox := by
  decide +kernel

/-- Of a device that never had a call key nothing is left. -/
theorem revocation_complete_bob :
    OldDeviceGone (after (sampleRelay droppingSigned) none bobLinks).inner.core
      (publishRoster (sampleRelay droppingSigned) (after (sampleRelay droppingSigned) none bobLinks).inner
        (some "10.0.0.1") droppingRoster 1600).2.1.core deviceMailbox deviceCallMailbox deviceRecord := by
  obtain ⟨hruns, ⟨hpush, hkey, hlive⟩, -⟩ := droppingRoster_runs
  obtain ⟨haccepted, hprevious⟩ := hruns bobLinks (by simp)
  refine (revocation_complete_iff _ none bobLinks _ droppingRoster 1600 haccepted).mpr ?_ deviceRecord
    (hprevious ▸ deviceRecord_revoked) _ deviceMailboxHash_bob _ callMailboxHash_bob
  intro d hd mailbox hmb callMailbox hcall
  obtain rfl := revoked_is_deviceRecord (hprevious ▸ hd)
  obtain rfl := Option.mem_unique hmb deviceMailboxHash_bob
  obtain rfl := Option.mem_unique hcall callMailboxHash_bob
  have hdropped : ¬ ∃ d' ∈ droppingRoster.devices, d'.deviceId = deviceRecord.deviceId := by
    decide +kernel
  exact ⟨hpush, hkey, hlive, fun h => (hdropped h).elim⟩

/-- **A dropped device stays live under its call-control mailbox.** -/
theorem dropped_device_stays_live :
    ¬ ∀ (R : Relay) (db : Option Db) (es : List Event) (client : Option String) (roster : KtRosterEntry) (now : ℕ),
      (publishRoster R (after R db es).inner client roster now).1.status = 200 →
      RevocationComplete R (after R db es).inner client roster now := by
  intro h
  obtain ⟨hruns, -, hbefore, hafter⟩ := droppingRoster_runs
  obtain ⟨haccepted, hprevious⟩ := hruns deviceSubscribes (by simp)
  have hgone := h _ none deviceSubscribes _ droppingRoster 1600 haccepted deviceRecord
    (hprevious ▸ deviceRecord_revoked) _ deviceMailboxHash_bob _ callMailboxHash_bob
  exact hgone.live.2 0 hbefore hafter

end Sona
