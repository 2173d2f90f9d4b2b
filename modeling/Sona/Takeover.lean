/-
# Takeover of a released name

A released name may be claimed by another key once its grace is over. The
claim replaces the record of the account's own mailbox and nothing else: the
records of the former owner's linked devices, its call-control records and its
call-key bindings stay where they are. Where there are none
(`NothingDerived`), the former owner is out: until the new owner publishes,
every record of a mailbox of the name has the new key and no call key is
stored for it, and only the new key can publish for it (`takeover_ends_access`).
`former_owner_keeps_call_mailbox` is a run where there are some.

Key definitions: `Takeover`, `NothingDerived`, `Event.Targets`, `Accepted`, `TakenOver`.
-/
import Sona.Lib.Table
import Sona.Lib.Trace
import Sona.Wire
import Sona.Kt
import Sona.Relay
import Sona.Handlers
import Sona.Records
import Sona.Run
import Sona.Ownership

namespace Sona

variable {R : Relay} {c c' : Core} {h key : String}

/-- The request is about the records of the account `h`. -/
def Event.Targets (h : String) : Event → Prop
  | .register _ _ req _ => req.entry.usernameHash = h
  | .publishRoster _ roster _ => roster.usernameHash = h
  | .publishCallKey req _ => (IdentityHash.fromHex req.accountHash).map (·.asStr) = some h
  | _ => False

/-- The relay answers the publication with success. -/
def Accepted (R : Relay) (s : Sys) : Event → Prop
  | .register client invite req now => (register R s.inner client invite req now).1.status = 200
  | .publishRoster client roster now => (publishRoster R s.inner client roster now).1.status = 200
  | .publishCallKey req now => (publishCallKey R s.inner req now).1.status = 200
  | _ => False

/-- The event reclaims the released name `h` for the key `key`: an accepted
registration that names no key before it, and is no release itself. -/
def Takeover (R : Relay) (s : Sys) (e : Event) (h key : String) : Prop :=
  ∃ client invite req now, e = .register client invite req now ∧ req.entry.usernameHash = h ∧
    req.entry.signingKey = key ∧ req.entry.prevSigningKey = none ∧ req.entry.released = false ∧
    (∃ last, s.inner.kt.latestBindingFor h = some last ∧ last.released = true ∧ last.signingKey ≠ key) ∧
    Accepted R s e

/-- No derived mailbox of the account has a record, and no call key is stored for it. -/
structure NothingDerived (R : Relay) (c : Core) (h : String) : Prop where
  linked : ∀ id, id ≠ primaryDeviceId → c.directory.get (linked R h id) = none
  call : ∀ id, c.directory.get (call R h id) = none
  primaryKey : c.callKeys.get h = none
  deviceKey : ∀ id, id ≠ primaryDeviceId → c.callKeys.get (Sona.linked R h id) = none

/-- The name stands at the new owner's binding, and nothing but its own record
with the new key is there. -/
structure TakenOver (R : Relay) (c : Core) (h key : String) :
    Prop extends NothingDerived R c h where
  binding : ∃ b, c.kt.latestBindingFor h = some b ∧ b.released = false ∧ b.signingKey = key
  record : ∀ e, c.directory.get h = some e → e.signingKey = key

/-- A publication that is refused changes nothing. -/
theorem refused_core {s : Sys} {e : Event} (ht : e.Targets h) (hr : ¬ Accepted R s e) :
    (sysStep R s e).inner.core = s.inner.core := by
  cases e with
  | register client invite req now =>
    obtain ⟨hc, -⟩ | ⟨i, kt, -, hs, -⟩ :=
      register_core (R := R) (s := s.inner) client invite req now
    · exact hc
    · exact (hr hs).elim
  | publishRoster client roster now =>
    obtain ⟨hc, -⟩ | ⟨i, kt, -, -, hs, -⟩ :=
      publishRoster_core (R := R) (s := s.inner) client roster now
    · exact hc
    · exact (hr hs).elim
  | publishCallKey req now =>
    obtain ⟨hc, -⟩ | ⟨mb, entry, -, -, -, -, -, hs, -⟩ :=
      publishCallKey_core (R := R) (s := s.inner) req now
    · exact hc
    · exact (hr hs).elim
  | _ => exact ht.elim

/-! ### The takeover itself -/

/-- A takeover of a name without derived records leaves only the new owner's record. -/
theorem Takeover.takenOver {s : Sys} {e : Event} (ht : Takeover R s e h key)
    (hn : Named R s.inner.core) (hok : NamesOk R e) (hc : NothingDerived R s.inner.core h) :
    TakenOver R (sysStep R s e).inner.core h key := by
  obtain ⟨client, invite, req, now, rfl, rfl, rfl, -, hrel, -, hacc⟩ := ht
  have hname : Canonical req.entry.usernameHash ∧ ¬ Derived R req.entry.usernameHash := hok
  obtain ⟨-, hno⟩ | ⟨i, kt, ha, -, hcore⟩ :=
    register_core (R := R) (s := s.inner) client invite req now
  · exact (hno hacc).elim
  obtain ⟨-, -, rfl⟩ := KtLog.append_cases hn.wf ha
  have hcore : (sysStep R s (.register client invite req now)).inner.core =
      if req.entry.released then { s.inner.core with kt := s.inner.core.kt.pushBinding req.entry }
      else { s.inner.core with kt := s.inner.core.kt.pushBinding req.entry }.takeMailbox
        req.entry.usernameHash req.record := hcore
  have hder : ∀ m, Derived R m → (sysStep R s (.register client invite req now)).inner.core.directory.get m =
      s.inner.core.directory.get m := fun m hm => get_registered_derived hcore hname.2 hm
  have hkeys : (sysStep R s (.register client invite req now)).inner.core.callKeys =
      s.inner.core.callKeys :=
    registered_callKeys hcore
  rw [hrel, if_neg Bool.false_ne_true] at hcore
  constructor
  · exact ⟨fun id hid => (hder _ (derived_linked hname.1 hid)).trans (hc.linked id hid),
      fun id => (hder _ (derived_call hname.1)).trans
      (hc.call id), hkeys ▸ hc.primaryKey, hkeys ▸ hc.deviceKey⟩
  · rw [hcore]
    refine ⟨req.entry, ?_, hrel, rfl⟩
    exact (KtLog.latestBindingFor_pushBinding _ hn.wf).trans (if_pos rfl)
  · rw [hcore]
    intro e he
    cases (Table.get_set_self s.inner.directory req.entry.usernameHash req.record).symm.trans he
    rfl

/-! ### Until the new owner publishes -/

/-- What keeps a name taken over: its binding stands, no record of its mailboxes
gets another key and no call key is stored for it. -/
theorem TakenOver.of_kept (ht : TakenOver R c h key)
    (hkt : c'.kt.latestBindingFor h = c.kt.latestBindingFor h)
    (hdir : ∀ m, MailboxOf R h m → ∀ e, c'.directory.get m = some e →
      ∃ e₀, c.directory.get m = some e₀ ∧ e.signingKey = e₀.signingKey)
    (hkeys : ∀ m, m = h ∨ (∃ id, id ≠ primaryDeviceId ∧ m = Sona.linked R h id) → c.callKeys.get m = none →
      c'.callKeys.get m = none) : TakenOver R c' h key := by
  have hnone : ∀ m, MailboxOf R h m → c.directory.get m = none → c'.directory.get m = none := by
    intro m hm hn
    cases he : c'.directory.get m with
    | none => rfl
    | some e =>
      obtain ⟨e₀, he₀, -⟩ := hdir m hm e he
      rw [hn] at he₀
      cases he₀
  refine ⟨⟨fun id hid => ?_, fun id => ?_, ?_, fun id hid => ?_⟩, hkt ▸ ht.binding, fun e he => ?_⟩
  · exact hnone _ (Or.inr (Or.inl ⟨id, hid, rfl⟩)) (ht.linked id hid)
  · exact hnone _ (Or.inr (Or.inr ⟨id, rfl⟩)) (ht.call id)
  · exact hkeys h (Or.inl rfl) ht.primaryKey
  · exact hkeys _ (Or.inr ⟨id, hid, rfl⟩) (ht.deviceKey id hid)
  · obtain ⟨e₀, he₀, hk⟩ := hdir h (Or.inl rfl) e he
    exact hk.trans (ht.record e₀ he₀)

theorem TakenOver.of_keepsKeys (ht : TakenOver R c h key) (hkeeps : c.KeepsKeys c') :
    TakenOver R c' h key := by
  refine ht.of_kept (by rw [hkeeps.kt]) (fun m _ e he => ?_) fun m _ hm => ?_
  · obtain ⟨e₀, he₀, -, hk⟩ := hkeeps.records m e he
    exact ⟨e₀, he₀, hk⟩
  · rwa [hkeeps.callKeys]

/-- Only a request about the name changes what is there. -/
theorem TakenOver.other {e : Event} (ht : TakenOver R c h key) (hn : Named R c) (hok : NamesOk R e)
    (hstep : RecordStep R c e c') (hother : ¬ e.Targets h) : TakenOver R c' h key := by
  obtain ⟨b, hb, -, -⟩ := ht.binding
  obtain ⟨hcanon, hder⟩ := hn.names h b hb
  have hsame : ∀ m, MailboxOf R h m → ∀ e : DirectoryEntry, c.directory.get m = some e →
      ∃ e₀, c.directory.get m = some e₀ ∧
      e.signingKey = e₀.signingKey := fun m _ e he => ⟨e, he, rfl⟩
  cases hstep with
  | same hrec => exact ht.of_keepsKeys hrec.keepsKeys
  | bundle found core => exact ht.of_keepsKeys (Core.keepsKeys_withKeys found core)
  | upload found signed core => exact ht.of_keepsKeys (Core.keepsKeys_withKeys found core)
  | @register client invite req now i kt _ appended core =>
    obtain ⟨-, -, rfl⟩ := KtLog.append_cases hn.wf appended
    have hu : h ≠ req.entry.usernameHash := fun hu => hother hu.symm
    have hkt : c'.kt = c.kt.pushBinding req.entry := by
      rw [core]
      split <;> rfl
    refine ht.of_kept ?_ (fun m hm e he => ?_) fun m _ hm => ?_
    · rw [hkt, KtLog.latestBindingFor_pushBinding _ hn.wf, if_neg hu]
    · -- the name is neither this one nor a derived mailbox
      have hmu : m ≠ req.entry.usernameHash := by
        rintro rfl
        obtain heq | ⟨id, hid, heq⟩ | ⟨id, heq⟩ := hm
        · exact hu heq.symm
        · exact hok.2 (heq ▸ derived_linked hcanon hid)
        · exact hok.2 (heq ▸ derived_call hcanon)
      refine hsame m hm e ?_
      rw [core] at he
      split at he
      · exact he
      · exact (Table.get_set_ne _ _ hmu).symm.trans he
    · rw [registered_callKeys core, hm]
  | @roster client roster now i kt _ appended hex core =>
    have hname := (hn.roster_name appended).1
    obtain ⟨-, rfl⟩ := KtLog.appendRoster_cases appended
    subst core
    refine ht.of_kept (KtLog.latestBindingFor_pushRoster _ hn.wf) (fun m hm e he => hsame m hm e ?_)
      fun m _ hm => ?_
    · by_contra hne
      refine hother (roster_changes (c := { c with kt := c.kt.pushRoster roster })
        (c.kt.latestRosterFor roster.usernameHash) hname hcanon hder hm ?_)
      rw [he]
      exact fun heq => hne heq.symm
    · change (c.callKeys.removeAll _).get m = none
      rw [Table.get_removeAll, hm]
      split <;> rfl
  | @callKey req now callMailbox entry _ mailbox hcall found signed newer core =>
    obtain ⟨base, hbase, hbc, hcm, hmb⟩ := callKey_mailboxes mailbox hcall
    have hbh : base.asStr ≠ h := fun hbh => hother
      (by rw [Event.Targets, hbase]; exact congrArg some hbh)
    subst core
    refine ht.of_kept rfl (fun m hm e he => hsame m hm e ?_) fun m hm hnone => ?_
    · have hne : m ≠ callMailbox.asStr := by
        rw [hcm]
        rintro rfl
        obtain heq | ⟨id, -, heq⟩ | ⟨id, heq⟩ := hm
        · exact hder (heq ▸ derived_call hbc)
        · exact linked_ne_call heq.symm
        · exact hbh (call_inj hbc hcanon heq).1
      exact (Table.get_set_ne _ _ hne).symm.trans he
    · have hne : m ≠ req.hash := by
        rintro rfl
        obtain heq | ⟨id, hid, heq⟩ := hm
        · obtain ⟨-, hmb⟩ | ⟨hp, hmb⟩ := hmb
          · exact hbh (hmb.symm.trans heq)
          · exact hder (heq ▸ hmb ▸ derived_linked hbc hp)
        · -- the mailbox of a linked device has no record to sign under
          rw [heq, ht.linked id hid] at found
          cases found
      exact (Table.get_set_ne _ _ hne).trans hnone
  | delete found signed core =>
    subst core
    refine ht.of_kept (by rw [Core.dropMailboxes_kt])
      (fun m hm e he => hsame m hm e (get_dropMailboxes he).1)
      fun m _ hm => ?_
    rw [Core.dropMailboxes_callKeys, Table.get_removeAll, hm]
    split <;> rfl

theorem TakenOver.step {s : Sys} {e : Event} (ht : TakenOver R s.inner.core h key)
    (hn : Named R s.inner.core) (hok : NamesOk R e) (hquiet : e.Targets h → ¬ Accepted R s e) :
    TakenOver R (sysStep R s e).inner.core h key := by
  by_cases htarget : e.Targets h
  · rw [refused_core htarget (hquiet htarget)]
    exact ht
  · exact ht.other hn hok (recordStep R s e) htarget

/-- What is published for a name that is taken over is signed by the new key. -/
theorem TakenOver.signed {s : Sys} {e : Event} (ht : TakenOver R s.inner.core h key)
    (hwf : s.inner.core.kt.Wf) (htarget : e.Targets h) (hacc : Accepted R s e) :
    Signed R e key := by
  obtain ⟨b, hb, hrel, rfl⟩ := ht.binding
  cases e with
  | register client invite req now =>
    obtain ⟨-, hno⟩ | ⟨i, kt, ha, -, -⟩ :=
      register_core (R := R) (s := s.inner) client invite req now
    · exact (hno hacc).elim
    obtain ⟨hsig, hcont, -⟩ := KtLog.append_cases hwf ha
    have hlatest : s.inner.core.kt.latestBindingFor req.entry.usernameHash = some b := htarget ▸ hb
    rw [hlatest] at hcont
    obtain ⟨-, hprev | ⟨-, hreleased, -⟩⟩ := hcont
    · exact ⟨by rw [KtEntry.signer, hprev]; rfl, hsig⟩
    · rw [hrel] at hreleased
      cases hreleased
  | publishRoster client roster now =>
    obtain ⟨-, hno⟩ | ⟨i, kt, ha, -, -, -⟩ :=
      publishRoster_core (R := R) (s := s.inner) client roster now
    · exact (hno hacc).elim
    obtain ⟨⟨current, hroster⟩, -⟩ := KtLog.appendRoster_cases ha
    have hlatest : s.inner.kt.latestBindingFor roster.usernameHash = some b := htarget ▸ hb
    cases hroster.latest.symm.trans hlatest
    exact hroster.signed
  | publishCallKey req now =>
    obtain ⟨-, hno⟩ | ⟨mb, entry, hm, hcall, hf, hs, -, -, -⟩ :=
      publishCallKey_core (R := R) (s := s.inner) req now
    · exact (hno hacc).elim
    obtain ⟨base, hbase, -, -, hmb⟩ := callKey_mailboxes hm hcall
    have hbh : base.asStr = h := by
      rw [Event.Targets, hbase] at htarget
      exact Option.some.inj htarget
    obtain ⟨-, hmb⟩ | ⟨hp, hmb⟩ := hmb
    · have hkey := ht.record entry (hbh ▸ hmb ▸ hf)
      exact hkey ▸ hs
    · rw [hmb, hbh, show s.inner.directory.get _ = none from ht.linked _ hp] at hf
      cases hf
  | _ => exact htarget.elim

/-- **A takeover ends the former owner's access.** In a run that registers no
account under a derived mailbox, when a released name is reclaimed and no
derived mailbox of it has a record or a call key: until a publication for the
name is accepted, every record of its mailboxes has the new key, no call key is
stored for it, and a publication that is accepted next is signed by the new key. -/
theorem takeover_ends_access (R : Relay) (db : Option Db) (es fs : List Event) (e : Event)
    (h key : String)
    (hnames : Trace.Along (sysStep R) (fun _ e => NamesOk R e) (start R db) (es ++ e :: fs))
    (htake : Takeover R (after R db es) e h key)
    (hnone : NothingDerived R (after R db es).inner.core h)
    (hquiet : Trace.Along (sysStep R) (fun s e => e.Targets h → ¬ Accepted R s e) (after R db (es ++ [e])) fs) :
    (∀ m, MailboxOf R h m → ∀ entry, (after R db (es ++ e :: fs)).inner.directory.get m = some entry →
      entry.signingKey = key) ∧
    (∀ id, ∀ mailbox ∈ deviceMailboxHash R.crypto.sha h id,
      (after R db (es ++ e :: fs)).inner.callKeys.get mailbox.asStr = none) ∧
    (∀ e', e'.Targets h → Accepted R (after R db (es ++ e :: fs)) e' → Signed R e' key) := by
  obtain ⟨hpre, hok, hpost⟩ := (Trace.along_append _ _ _ _ _).mp hnames
  have hnamed : Named R (after R db es).inner.core :=
    hpre.inv (I := fun s : Sys => Named R s.inner.core)
    (fun s e hn hok => hn.step (recordStep R s e) hok)
      (named_start R db)
  rw [after_snoc] at hquiet
  -- from the takeover on, the names stay named and the name stays taken over
  have hinv : Named R (after R db (es ++ e :: fs)).inner.core ∧
      TakenOver R (after R db (es ++ e :: fs)).inner.core h key := by
    rw [after_append, Trace.run_cons]
    refine Trace.Along.inv (I := fun s : Sys => Named R s.inner.core ∧ TakenOver R s.inner.core h key) ?_
      ⟨hnamed.step (recordStep R _ e) hok, htake.takenOver hnamed hok hnone⟩
      ((Trace.along_and _ _ _ _ _).mpr ⟨hpost, hquiet⟩)
    rintro s e ⟨hn, ht⟩ ⟨hok, hquiet⟩
    exact ⟨hn.step (recordStep R s e) hok, ht.step hn hok hquiet⟩
  obtain ⟨hn, ht⟩ := hinv
  obtain ⟨b, hb, -, -⟩ := ht.binding
  refine ⟨fun m hm entry he => ?_, fun id mailbox hmb => ?_,
    fun e' htarget hacc => ht.signed hn.wf htarget hacc⟩
  · obtain rfl | ⟨id, hid, rfl⟩ | ⟨id, rfl⟩ := hm
    · exact ht.record entry he
    · cases (ht.linked id hid).symm.trans he
    · cases (ht.call id).symm.trans he
  · have hbase := fromHex_of_canonical (hn.names h b hb).1
    by_cases hp : id = primaryDeviceId
    · rw [hp, deviceMailboxHash_primary _ (hn.names h b hb).1] at hmb
      cases hmb
      exact ht.primaryKey
    · rw [deviceMailboxHash_of hbase hp] at hmb
      cases hmb
      exact ht.deviceKey id hp

/-! ### Two runs -/

/-- The account publishes a call key for its primary device. -/
def primaryCallKey : CallKeyPublishRequest :=
  { hash := bobHash, accountHash := bobHash, nonce := sampleNonce
    signature := "o4h98+qunBmKIwTI8r2UnLr1yFoILJl1Q5ZDdfmWWTDwlCxjsZrXN0H91S7KIwUCYkgMzS+22vS2vdQ6Zzj6BA"
    binding :=
      { deviceId := primaryDeviceId, callKey := "j68fo2+G8vBr2uG08yUT7pf3PUYo4BWcg0A4wiSFBgk"
        callSigningKey := "ARC2be33WUDdpvi9hbLK+p9CcvDezHolpUOclRGRTrU", createdAt := 1200
        signature := "1DcgM6BGjAOIAXpBqupCZojYTH6nrvoD++5wEjZX2SOu6lFw5ulcm5VPyZX16eELEXKvCzK8XTQr8uM0yg05BQ" } }

def takeoverSigned : Signatures :=
  [(bobKey, bobEntry.signingPayload, bobEntry.signature), (bobKey, releaseEntry.signingPayload, releaseEntry.signature),
    (malloryKey, takeoverEntry.signingPayload, takeoverEntry.signature),
    (bobKey, primaryCallKey.message, primaryCallKey.signature)]

def bobReleases : Event :=
  .register (some "10.0.0.1") none { entry := releaseEntry, oneTimeKeys := [], fallbackKey := none } 2000

def malloryTakes : Event :=
  .register (some "10.0.0.2") none { entry := takeoverEntry, oneTimeKeys := [], fallbackKey := none } 606800

/-- The name is taken over in a run that leads to its release. -/
theorem malloryTakes_takeover {es : List Event}
    (hlast : (after (sampleRelay takeoverSigned) none es).inner.kt.latestBindingFor bobHash = some releaseEntry)
    (hacc : Accepted (sampleRelay takeoverSigned) (after (sampleRelay takeoverSigned) none es) malloryTakes) :
    Takeover (sampleRelay takeoverSigned) (after (sampleRelay takeoverSigned) none es) malloryTakes bobHash malloryKey :=
  ⟨_, _, _, _, rfl, rfl, rfl, rfl, rfl, ⟨releaseEntry, hlast, rfl, by decide⟩, hacc⟩

def bobIsMailed : Event := .send (some "10.0.0.3") (mailTo bobHash "hello" "m1" none) 606850

/-- The former owner wants the name back. -/
def bobInsists : Event :=
  .register (some "10.0.0.1") none { entry := bobEntry, oneTimeKeys := [], fallbackKey := none } 606900

/-- Of an account without linked devices and call keys the name alone is left, and
it stays the new owner's when mail comes and the former owner registers again. -/
theorem takeover_ends_access_bob :
    ∃ entry, (after (sampleRelay takeoverSigned) none
        ([bobRegisters, bobReleases] ++ malloryTakes :: [bobIsMailed, bobInsists])).inner.directory.get bobHash =
      some entry ∧ entry.signingKey = malloryKey := by
  have hrun : (after (sampleRelay takeoverSigned) none [bobRegisters, bobReleases]).inner.kt.latestBindingFor bobHash =
        some releaseEntry ∧
      (register (sampleRelay takeoverSigned) (after (sampleRelay takeoverSigned) none [bobRegisters, bobReleases]).inner
        (some "10.0.0.2") none { entry := takeoverEntry, oneTimeKeys := [], fallbackKey := none } 606800).1.status = 200 ∧
      (after (sampleRelay takeoverSigned) none [bobRegisters, bobReleases]).inner.core.directory.keys = [bobHash] ∧
      (after (sampleRelay takeoverSigned) none [bobRegisters, bobReleases]).inner.core.callKeys.keys = [] ∧
      (register (sampleRelay takeoverSigned) (after (sampleRelay takeoverSigned) none
          ([bobRegisters, bobReleases] ++ [malloryTakes] ++ [bobIsMailed])).inner (some "10.0.0.1") none
        { entry := bobEntry, oneTimeKeys := [], fallbackKey := none } 606900).1.status ≠ 200 ∧
      ((after (sampleRelay takeoverSigned) none
        ([bobRegisters, bobReleases] ++ malloryTakes :: [bobIsMailed, bobInsists])).inner.directory.get
          bobHash).isSome = true := by
    decide +kernel
  obtain ⟨hlast, hacc, hdir, hcalls, hrefused, hsome⟩ := hrun
  have hcanon : Canonical bobHash := by decide +kernel
  have hname : Canonical bobHash ∧ ¬ Derived (sampleRelay takeoverSigned) bobHash :=
    ⟨hcanon, bobHash_not_derived _⟩
  -- a derived mailbox is not the name, and the name is all there is
  have hnone : ∀ m, Derived (sampleRelay takeoverSigned) m →
      (after (sampleRelay takeoverSigned) none [bobRegisters, bobReleases]).inner.core.directory.get m = none := by
    intro m hm
    refine Table.get_eq_none ?_
    rw [hdir, List.mem_singleton]
    rintro rfl
    exact hname.2 hm
  have hkey : ∀ m, (after (sampleRelay takeoverSigned) none [bobRegisters, bobReleases]).inner.core.callKeys.get m =
      none := by
    intro m
    refine Table.get_eq_none ?_
    rw [hcalls]
    exact List.not_mem_nil
  have hderived : NothingDerived (sampleRelay takeoverSigned)
      (after (sampleRelay takeoverSigned) none [bobRegisters, bobReleases]).inner.core bobHash :=
    ⟨fun id hid => hnone _ (derived_linked hcanon hid), fun id => hnone _ (derived_call hcanon),
    hkey _, fun _ _ => hkey _⟩
  have hquiet : Trace.Along (sysStep (sampleRelay takeoverSigned))
      (fun s e => e.Targets bobHash → ¬ Accepted (sampleRelay takeoverSigned) s e)
      (after (sampleRelay takeoverSigned) none ([bobRegisters, bobReleases] ++ [malloryTakes]))
      [bobIsMailed, bobInsists] := by
    refine ⟨fun htarget => htarget.elim, fun _ hagain => ?_, trivial⟩
    rw [← after_snoc] at hagain
    exact hrefused hagain
  have hends := takeover_ends_access (sampleRelay takeoverSigned) none [bobRegisters, bobReleases]
    [bobIsMailed, bobInsists] malloryTakes bobHash malloryKey ⟨hname, hname, hname, trivial,
      hname, trivial⟩
    (malloryTakes_takeover hlast hacc) hderived hquiet
  obtain ⟨entry, he⟩ := Option.isSome_iff_exists.mp hsome
  exact ⟨entry, he, hends.1 bobHash (Or.inl rfl) entry he⟩

/-- The account has published a call key before it gave the name up. -/
def bobCallsAndReleases : List Event :=
  [bobRegisters, .challenge (some "10.0.0.1") bobHash sampleNonce 1200, .publishCallKey primaryCallKey 1201, bobReleases]

/-- **The former owner keeps the call-control mailbox of a name that was taken over.** -/
theorem former_owner_keeps_call_mailbox :
    ¬ ∀ (R : Relay) (db : Option Db) (es fs : List Event) (e : Event) (h key : String),
      Takeover R (after R db es) e h key →
      Trace.Along (sysStep R) (fun s e => e.Targets h →
        ¬ Accepted R s e) (after R db (es ++ [e])) fs →
      (∀ former, AccountKey R (after R db es).inner.core h former → former ≠ key →
        ∀ m, MailboxOf R h m →
        ∀ entry, (after R db (es ++ e :: fs)).inner.directory.get m = some entry →
        entry.signingKey ≠ former) ∧
      (∀ id, ∀ mailbox ∈ deviceMailboxHash R.crypto.sha h id,
        ∀ b, (after R db es).inner.callKeys.get mailbox.asStr = some b →
          (after R db (es ++ e :: fs)).inner.callKeys.get mailbox.asStr ≠ some b) := by
  intro h
  have hrun : (after (sampleRelay takeoverSigned) none bobCallsAndReleases).inner.kt.latestBindingFor bobHash =
        some releaseEntry ∧
      (register (sampleRelay takeoverSigned) (after (sampleRelay takeoverSigned) none bobCallsAndReleases).inner
        (some "10.0.0.2") none { entry := takeoverEntry, oneTimeKeys := [], fallbackKey := none } 606800).1.status = 200 ∧
      (after (sampleRelay takeoverSigned) none bobCallsAndReleases).inner.callKeys.get bobHash =
        some primaryCallKey.binding ∧
      (after (sampleRelay takeoverSigned) none (bobCallsAndReleases ++ [malloryTakes])).inner.callKeys.get bobHash =
        some primaryCallKey.binding := by
    decide +kernel
  obtain ⟨hlast, hacc, hbefore, hafter⟩ := hrun
  have hprimary : deviceMailboxHash sampleSha bobHash primaryDeviceId = some ⟨bobHash⟩ := by
    decide +kernel
  exact (h _ none bobCallsAndReleases [] malloryTakes bobHash malloryKey (malloryTakes_takeover hlast hacc) trivial).2
    primaryDeviceId ⟨bobHash⟩ hprimary _ hbefore hafter

end Sona
