/-
# Who may ring a locked device

`ScreenIndex` of `client-core/src/callscreen.rs`: what a device distils at unlock from its
contacts and rosters, sealed under the key that a locked device has. A caller is under a
keyed hash of the name, with the devices of the roster that is pinned for it.

Contacts and rosters are two tables by name, and `build` joins them by name alone. It takes
the roster of whoever has the name now, not of the account that was accepted under it,
and passes over what the same account is under another name. So a contact whose name went
to a new owner lets this owner ring, and so does an account that is blocked under one name
and accepted under another (`rings_under_the_name`). The index keeps to what it is for
exactly where neither is so, and no key is in two rosters of the kind (`screens_iff`).

Key definitions: `ScreenIndex.build`, `ScreenIndex.signingKey`, `MayRing`, `Screens`, `Screenable`.
Key theorems: `build_entries`, `signingKey_build`, `open_seal_build`, `screens_iff`.
-/
import Sona.GroupFrame
import Sona.Reopen

namespace Sona

/-- Most callers that are indexed. -/
def maxScreenCallers : ℕ := 1024

/-- Most devices of a caller. -/
def maxScreenDevices : ℕ := 8

/-- `devices` are ids with the signing keys of the roster. -/
structure ScreenEntry where
  caller : String
  devices : List (String × String)
deriving DecidableEq, Repr

structure ScreenIndex where
  entries : List ScreenEntry := []
deriving DecidableEq, Repr

def screenInfo : Bytes := utf8 "sona-call-screen-v1"

/-- The hash of a caller's name; `hkdf` is HKDF-SHA256, of the salt, the key and the info. -/
def screenHash (hkdf : Bytes → Bytes → Bytes → Bytes) (storeKey : Bytes) (username : String) :
    String :=
  hexLower (hkdf (utf8 username) storeKey screenInfo)

namespace ScreenIndex

/-- The devices of a roster that are indexed: a pin of an older version has no signing keys. -/
def devicesOf (skipDevice : Option String) (roster : RosterPin) : List (String × String) :=
  ((roster.devices.filter fun device => device.signingKey ≠ "" && some device.deviceId ≠ skipDevice).take
    maxScreenDevices).map fun device => (device.deviceId, device.signingKey)

section build

variable (hkdf : Bytes → Bytes → Bytes → Bytes) (storeKey : Bytes)

def entryFor (h : History) (username : String) (skipDevice : Option String) : Option ScreenEntry :=
  do
  let devices := devicesOf skipDevice (← h.contactRosters.get username)
  if devices.isEmpty then none else some { caller := screenHash hkdf storeKey username, devices }

/-- The loop over the contacts, with what it has so far. -/
def addContacts (h : History) (me : Option String) :
    List (String × ContactPin) → List ScreenEntry → List ScreenEntry
  | [], entries => entries
  | (username, pin) :: contacts, entries =>
    if entries.length ≥ maxScreenCallers then entries else
    if pin.blocked || pin.request.isSome || some username = me then addContacts h me contacts entries else
    match entryFor hkdf storeKey h username none with
    | some entry => addContacts h me contacts (entries ++ [entry])
    | none => addContacts h me contacts entries

/-- Our own account comes first, without this device. The contacts come in the
order of the table. -/
def build (h : History) (me : Option String) : ScreenIndex :=
  let own := (me.bind fun me => entryFor hkdf storeKey h me (some h.selfDeviceId)).toList
  { entries := addContacts hkdf storeKey h me (h.contacts.entries.map fun c => (c.1, c.2)) own }

def signingKey (index : ScreenIndex) (username deviceId : String) : Option String := do
  let entry ← index.entries.find? fun entry => entry.caller = screenHash hkdf storeKey username
  (entry.devices.find? fun device => device.1 = deviceId).map (·.2)

end build

/-! ### Sealing -/

def deviceToJson (device : String × String) : Json := .arr [.str device.1, .str device.2]

def deviceOfJson (j : Json) : Option (String × String) := do
  match ← j.asArr with
  | [id, key] => some (← id.asStr, ← key.asStr)
  | _ => none

def entryToJson (entry : ScreenEntry) : Json :=
  .obj [("caller", .str entry.caller), ("devices", .arr (entry.devices.map deviceToJson))]

def entryOfJson (j : Json) : Option ScreenEntry := do
  let caller ← (← j.field "caller").asStr
  let devices ← Json.readAll deviceOfJson (← (← j.field "devices").asArr)
  some { caller, devices }

def toJson (index : ScreenIndex) : Json := .obj [("entries", .arr (index.entries.map entryToJson))]

def ofJson (j : Json) : Option ScreenIndex := do
  let entries ← Json.readAll entryOfJson (← (← j.field "entries").asArr)
  some { entries }

def screenMagic : Bytes := utf8 "SCS1"

def screenVersion : UInt8 := 1

end ScreenIndex

open ScreenIndex in
def ScreenIndex.seal (A : Aead) (index : ScreenIndex) (storeKey : Bytes) (nonce : Nonce) : Bytes :=
  sealUnder A storeKey screenMagic screenVersion nonce (toVec index.toJson)

open ScreenIndex in
/-- An index that is past its bounds is refused. -/
def ScreenIndex.open (A : Aead) (fromSlice : Bytes → Option Json) (storeKey blob : Bytes) :
    Option ScreenIndex := do
  let plain ← openUnder A storeKey screenMagic screenVersion blob
  let index ← ofJson (← fromSlice plain)
  if index.entries.length ≤ maxScreenCallers ∧ ∀ entry ∈ index.entries, entry.devices.length ≤ maxScreenDevices
  then some index
  else none

/-! ### What is indexed -/

namespace History

variable (h : History) (me : Option String)

/-- The devices under a name, of which ours is not one. -/
def screenDevices (username : String) : List (String × String) :=
  match h.contactRosters.get username with
  | none => []
  | some roster => ScreenIndex.devicesOf (if some username = me then some h.selfDeviceId else none) roster

/-- The contact may ring: neither blocked nor pending, and not ourselves. -/
def approves (contact : String × ContactPin) : Bool :=
  !(contact.2.blocked || contact.2.request.isSome || some contact.1 = me)

/-- The names of the contacts that may ring and have devices to ring from. -/
def ringing (contacts : List (String × ContactPin)) : List String :=
  ((contacts.filter (approves me)).map (·.1)).filter fun username => h.screenDevices me username ≠ []

/-- The names that are indexed. -/
def screenCallers : List String :=
  ((me.toList.filter fun username => h.screenDevices me username ≠ []) ++
    h.ringing me (h.contacts.entries.map fun c => (c.1, c.2))).take maxScreenCallers

/-- The key that a device has under a name. -/
def screenKey (username deviceId : String) : Option String :=
  ((h.screenDevices me username).find? fun device => device.1 = deviceId).map (·.2)

end History

namespace ScreenIndex

variable {hkdf : Bytes → Bytes → Bytes → Bytes} {storeKey : Bytes} {h : History}
  {me : Option String}

/-- The entry of a name that has devices. -/
def entryOf (hkdf : Bytes → Bytes → Bytes → Bytes) (storeKey : Bytes) (h : History)
    (me : Option String) (username : String) : ScreenEntry :=
  { caller := screenHash hkdf storeKey username, devices := h.screenDevices me username }

variable (hkdf storeKey h me) in
theorem entryFor_eq (username : String) :
    entryFor hkdf storeKey h username (if some username = me then some h.selfDeviceId else none) =
      if h.screenDevices me username = [] then none else some (entryOf hkdf storeKey h me username) := by
  unfold entryFor entryOf History.screenDevices
  cases h.contactRosters.get username with
  | none => rfl
  | some roster => simp [List.isEmpty_iff]

theorem entryFor_own (username : String) : entryFor hkdf storeKey h username (some h.selfDeviceId) =
    if h.screenDevices (some username) username = [] then none
    else some (entryOf hkdf storeKey h (some username) username) := by
  have heq := entryFor_eq hkdf storeKey h (some username) username
  rwa [if_pos rfl] at heq

theorem ringing_cons_neg {contact : String × ContactPin}
    (hskip : History.approves me contact = false) (contacts : List (String × ContactPin)) :
    h.ringing me (contact :: contacts) = h.ringing me contacts := by
  unfold History.ringing
  rw [List.filter_cons_of_neg (by simp [hskip])]

theorem ringing_cons_pos {contact : String × ContactPin} (hok : History.approves me contact = true)
    (contacts : List (String × ContactPin)) : h.ringing me (contact :: contacts) =
      if h.screenDevices me contact.1 = [] then h.ringing me contacts else contact.1 :: h.ringing me contacts := by
  unfold History.ringing
  rw [List.filter_cons_of_pos hok, List.map_cons]
  by_cases hnone : h.screenDevices me contact.1 = []
  · rw [if_pos hnone, List.filter_cons_of_neg (by simp [hnone])]
  · rw [if_neg hnone, List.filter_cons_of_pos (by simp [hnone])]

/-- The loop adds the entries of the names that may ring, up to the bound. -/
theorem addContacts_eq : ∀ (contacts : List (String × ContactPin)) (entries : List ScreenEntry),
    entries.length ≤ maxScreenCallers → addContacts hkdf storeKey h me contacts entries =
      (entries ++ (h.ringing me contacts).map (entryOf hkdf storeKey h me)).take maxScreenCallers
  | [], entries, hlen => by
    have hnone : h.ringing me [] = [] := rfl
    rw [addContacts, hnone, List.map_nil, List.append_nil, List.take_of_length_le hlen]
  | (username, pin) :: contacts, entries, hlen => by
    unfold addContacts
    by_cases hfull : entries.length ≥ maxScreenCallers
    · have hbound : entries.length = maxScreenCallers := le_antisymm hlen hfull
      rw [if_pos hfull, List.take_left' hbound]
    · rw [if_neg hfull]
      by_cases hskip : (pin.blocked || pin.request.isSome || some username = me) = true
      · have hnot : History.approves me (username, pin) = false := by
          unfold History.approves
          rw [hskip]
          rfl
        rw [if_pos hskip, addContacts_eq contacts entries hlen, ringing_cons_neg hnot]
      · have hok : History.approves me (username, pin) = true := by
          unfold History.approves
          rw [Bool.eq_false_iff.mpr hskip]
          rfl
        have hother : some username ≠ me := by
          intro heq
          exact hskip (by simp [heq])
        have hentry := entryFor_eq hkdf storeKey h me username
        rw [if_neg hother] at hentry
        rw [if_neg hskip, hentry, ringing_cons_pos hok]
        by_cases hnone : h.screenDevices me username = []
        · rw [if_pos hnone, if_pos hnone]
          exact addContacts_eq contacts entries hlen
        · have hroom : (entries ++ [entryOf hkdf storeKey h me username]).length ≤
              maxScreenCallers := by
            rw [List.length_append, List.length_singleton]
            omega
          rw [if_neg hnone, if_neg hnone]
          dsimp only
          rw [addContacts_eq contacts _ hroom, List.map_cons, List.append_assoc,
            List.singleton_append]

theorem own_eq :
    (me.bind fun username => entryFor hkdf storeKey h username (some h.selfDeviceId)).toList =
    (me.toList.filter fun username => h.screenDevices me username ≠ []).map (entryOf hkdf storeKey h me) := by
  cases me with
  | none => rfl
  | some me =>
    rw [Option.bind_some, entryFor_own, Option.toList_some]
    by_cases hnone : h.screenDevices (some me) me = []
    · rw [if_pos hnone, List.filter_cons_of_neg (by simp [hnone])]
      rfl
    · rw [if_neg hnone, List.filter_cons_of_pos (by simp [hnone])]
      rfl

/-- **The entries are those of the names that are indexed.** -/
theorem build_entries : (build hkdf storeKey h me).entries =
    (h.screenCallers me).map (entryOf hkdf storeKey h me) := by
  have hown : (me.toList.filter fun username => h.screenDevices me username ≠ []).length ≤
      maxScreenCallers := by
    have hfilter := List.length_filter_le
      (fun username => decide (h.screenDevices me username ≠ [])) me.toList
    have hone : me.toList.length ≤ 1 := by cases me <;> simp
    unfold maxScreenCallers
    omega
  unfold build History.screenCallers
  dsimp only
  rw [own_eq, addContacts_eq _ _ (by rwa [List.length_map]), List.map_take, List.map_append]

/-- **What the index says of a device.** -/
theorem signingKey_build (hhash : Function.Injective (screenHash hkdf storeKey))
    (username deviceId : String) :
    signingKey hkdf storeKey (build hkdf storeKey h me) username deviceId =
      if username ∈ h.screenCallers me then h.screenKey me username deviceId else none := by
  have hfind : ∀ names : List String, (names.map (entryOf hkdf storeKey h me)).find?
      (fun entry => entry.caller = screenHash hkdf storeKey username) =
        if username ∈ names then some (entryOf hkdf storeKey h me username) else none := by
    intro names
    induction names with
    | nil => rfl
    | cons name names ih =>
      by_cases hname : name = username
      · subst hname
        simp [entryOf]
      · have hother : screenHash hkdf storeKey name ≠ screenHash hkdf storeKey username :=
          fun heq => hname (hhash heq)
        rw [List.map_cons, List.find?_cons_of_neg (by simp [entryOf, hother]), ih]
        simp [Ne.symm hname]
  unfold signingKey
  rw [build_entries, hfind]
  by_cases hmem : username ∈ h.screenCallers me
  · rw [if_pos hmem, if_pos hmem]
    rfl
  · rw [if_neg hmem, if_neg hmem]
    rfl

theorem signingKey_build_iff (hhash : Function.Injective (screenHash hkdf storeKey))
    {username deviceId key : String} :
    signingKey hkdf storeKey (build hkdf storeKey h me) username deviceId = some key ↔
      username ∈ h.screenCallers me ∧ h.screenKey me username deviceId = some key := by
  rw [signingKey_build hhash]
  by_cases hmem : username ∈ h.screenCallers me
  · rw [if_pos hmem]
    exact (and_iff_right hmem).symm
  · rw [if_neg hmem]
    exact ⟨nofun, fun hkey => absurd hkey.1 hmem⟩

/-! ### Sealed and opened -/

theorem entryOfJson_toJson (entry : ScreenEntry) :
    entryOfJson (entryToJson entry) = some entry := by
  have hdevice : ∀ device, deviceOfJson (deviceToJson device) = some device := fun _ => rfl
  have hdevices := Json.readAll_map hdevice entry.devices
  simp [entryOfJson, entryToJson, Json.field, Json.optField, hdevices]

theorem ofJson_toJson (index : ScreenIndex) : ofJson index.toJson = some index := by
  have hentries := Json.readAll_map entryOfJson_toJson index.entries
  simp [ofJson, toJson, Json.field, Json.optField, hentries]

theorem length_screenDevices_le (username : String) :
    (h.screenDevices me username).length ≤ maxScreenDevices := by
  unfold History.screenDevices devicesOf
  cases h.contactRosters.get username with
  | none => exact Nat.zero_le _
  | some roster =>
    dsimp only
    rw [List.length_map]
    exact List.length_take_le _ _

/-- **What was built and sealed opens.** -/
theorem open_seal_build {A : Aead} (hA : A.Opens) {fromSlice : Bytes → Option Json}
    (hread : ∀ j, fromSlice (toVec j) = some j) (nonce : Nonce) :
    ScreenIndex.open A fromSlice storeKey ((build hkdf storeKey h me).seal A storeKey nonce) =
      some (build hkdf storeKey h me) := by
  have hplain : openUnder A storeKey screenMagic screenVersion
      ((build hkdf storeKey h me).seal A storeKey nonce) =
      some (toVec (build hkdf storeKey h me).toJson) :=
    openUnder_sealUnder hA storeKey (by decide) screenVersion nonce _
  have hcallers : (build hkdf storeKey h me).entries.length ≤ maxScreenCallers := by
    rw [build_entries, List.length_map]
    exact List.length_take_le _ _
  have hdevices :
      ∀ entry ∈ (build hkdf storeKey h me).entries, entry.devices.length ≤ maxScreenDevices := by
    rw [build_entries]
    intro entry hentry
    obtain ⟨username, -, rfl⟩ := List.mem_map.mp hentry
    exact length_screenDevices_le username
  unfold ScreenIndex.open
  rw [hplain, Option.bind_eq_bind, Option.bind_some, hread, Option.bind_eq_bind, Option.bind_some,
    ofJson_toJson, Option.bind_eq_bind, Option.bind_some, if_pos ⟨hcallers, hdevices⟩]

end ScreenIndex

/-! ### Who may ring -/

/-- The roster has the device, with the key. -/
def RosterPin.Lists (roster : RosterPin) (deviceId key : String) : Prop :=
  key ≠ "" ∧ ∃ device ∈ roster.devices, device.deviceId = deviceId ∧ device.signingKey = key

/-- Blocked, or pending. -/
def ContactPin.Barred (pin : ContactPin) : Prop := pin.blocked = true ∨ pin.request.isSome = true

/-- Another device of ours; or a device of a contact that was accepted, as long
as the name is still theirs. -/
def MayRing (h : History) (me : Option String) (username deviceId key : String) : Prop :=
  ∃ roster, h.contactRosters.get username = some roster ∧ roster.Lists deviceId key ∧
    (some username = me ∧ deviceId ≠ h.selfDeviceId ∨
      some username ≠ me ∧ ∃ pin, h.contacts.get username = some pin ∧ ¬ pin.Barred ∧
        pin.identityKey = roster.primaryKey)

/-- An account that is barred under a name other than this one has the key in a roster. -/
def BarredElsewhere (h : History) (username key : String) : Prop :=
  ∃ name pin, name ≠ username ∧ h.contacts.get name = some pin ∧ pin.Barred ∧
    ∃ other roster deviceId, h.contactRosters.get other = some roster ∧
    roster.primaryKey = pin.identityKey ∧
      roster.Lists deviceId key

/-- What an index of the history is for. -/
structure Screens (A : Aead) (fromSlice : Bytes → Option Json)
    (hkdf : Bytes → Bytes → Bytes → Bytes) (storeKey : Bytes) (h : History) (me : Option String) :
    Prop where
  only : ∀ username deviceId key,
    (ScreenIndex.build hkdf storeKey h me).signingKey hkdf storeKey username deviceId = some key →
      MayRing h me username deviceId key
  /-- When no more names than fit have someone who may ring. -/
  every : (∀ names : List String, names.Nodup →
      (∀ username ∈ names, ∃ deviceId key, MayRing h me username deviceId key) →
      names.length ≤ maxScreenCallers) →
    ∀ username deviceId key roster, MayRing h me username deviceId key →
      h.contactRosters.get username = some roster → roster.devices.length ≤ maxScreenDevices →
        ((ScreenIndex.build hkdf storeKey h me).signingKey hkdf storeKey username deviceId).isSome = true
  barred : ∀ username deviceId key,
    (ScreenIndex.build hkdf storeKey h me).signingKey hkdf storeKey username deviceId = some key →
      ¬ BarredElsewhere h username key
  opens : ∀ nonce, ScreenIndex.open A fromSlice storeKey
    ((ScreenIndex.build hkdf storeKey h me).seal A storeKey nonce) = some (ScreenIndex.build hkdf storeKey h me)

/-- The names that are indexed have the rosters of the accounts that they were accepted for, none of
these accounts is barred under another name, and no other roster of a barred
account has one of their keys. -/
structure Screenable (h : History) (me : Option String) : Prop where
  owner : ∀ username ∈ h.screenCallers me, some username ≠ me →
    ∀ pin roster, h.contacts.get username = some pin →
    h.contactRosters.get username = some roster → pin.identityKey = roster.primaryKey
  single : ∀ username ∈ h.screenCallers me, ∀ roster, h.contactRosters.get username = some roster →
    ∀ name pin, name ≠ username → h.contacts.get name = some pin → pin.Barred →
    pin.identityKey ≠ roster.primaryKey
  apart : ∀ username ∈ h.screenCallers me, ∀ name pin, name ≠ username →
    h.contacts.get name = some pin →
    pin.Barred → ∀ other roster, other ≠ username → h.contactRosters.get other = some roster →
      roster.primaryKey = pin.identityKey → ∀ deviceId key, roster.Lists deviceId key →
        ∀ id, h.screenKey me username id ≠ some key

section screens

variable {h : History} {me : Option String} {username deviceId key : String}

/-- What has a key under a name is in its roster, and is not this device. -/
theorem lists_of_screenKey (hkey : h.screenKey me username deviceId = some key) :
    ∃ roster, h.contactRosters.get username = some roster ∧ roster.Lists deviceId key ∧
      (some username = me → deviceId ≠ h.selfDeviceId) := by
  unfold History.screenKey at hkey
  obtain ⟨device, hfind, rfl⟩ := Option.map_eq_some_iff.mp hkey
  have hid : device.1 = deviceId := by simpa using List.find?_some hfind
  have hmem := List.mem_of_find?_eq_some hfind
  unfold History.screenDevices at hmem
  cases hroster : h.contactRosters.get username with
  | none =>
    rw [hroster] at hmem
    cases hmem
  | some roster =>
    rw [hroster] at hmem
    obtain ⟨rd, hrd, rfl⟩ := List.mem_map.mp hmem
    obtain ⟨hin, hkeyed⟩ := List.mem_filter.mp (List.mem_of_mem_take hrd)
    rw [Bool.and_eq_true, decide_eq_true_eq, decide_eq_true_eq] at hkeyed
    refine ⟨roster, rfl, ⟨hkeyed.1, rd, hin, hid, rfl⟩, fun hme heq => ?_⟩
    have hskip := hkeyed.2
    rw [if_pos hme] at hskip
    exact hskip (congrArg some (hid.trans heq))

/-- A device of a roster that is not too long has a key under the name. -/
theorem screenKey_isSome {roster : RosterPin}
    (hroster : h.contactRosters.get username = some roster) (hlists : roster.Lists deviceId key)
    (hlen : roster.devices.length ≤ maxScreenDevices)
    (hself : some username = me → deviceId ≠ h.selfDeviceId) :
    (h.screenKey me username deviceId).isSome = true := by
  obtain ⟨hkey, device, hin, rfl, rfl⟩ := hlists
  have hall : ∀ skip, ScreenIndex.devicesOf skip roster = (roster.devices.filter fun device =>
      device.signingKey ≠ "" && some device.deviceId ≠ skip).map fun device => (device.deviceId, device.signingKey) := by
    intro skip
    unfold ScreenIndex.devicesOf
    rw [List.take_of_length_le ((List.length_filter_le _ _).trans hlen)]
  unfold History.screenKey History.screenDevices
  rw [hroster]
  dsimp only
  rw [hall, Option.isSome_map, List.find?_isSome]
  refine ⟨_, List.mem_map.mpr ⟨device, List.mem_filter.mpr ⟨hin, ?_⟩, rfl⟩, by simp⟩
  rw [Bool.and_eq_true, decide_eq_true_eq, decide_eq_true_eq]
  refine ⟨hkey, ?_⟩
  by_cases hme : some username = me
  · rw [if_pos hme]
    exact fun heq => hself hme (Option.some.inj heq)
  · rw [if_neg hme]
    exact nofun

/-- Who is listed has devices under the name, however long the roster is. -/
theorem screenDevices_ne_nil {roster : RosterPin}
    (hroster : h.contactRosters.get username = some roster) (hlists : roster.Lists deviceId key)
    (hself : some username = me → deviceId ≠ h.selfDeviceId) :
    h.screenDevices me username ≠ [] := by
  obtain ⟨hkey, device, hin, rfl, rfl⟩ := hlists
  unfold History.screenDevices ScreenIndex.devicesOf
  rw [hroster]
  dsimp only
  rw [ne_eq, List.map_eq_nil_iff, List.take_eq_nil_iff, not_or]
  refine ⟨by decide, List.ne_nil_of_mem (List.mem_filter.mpr ⟨hin, ?_⟩)⟩
  rw [Bool.and_eq_true, decide_eq_true_eq, decide_eq_true_eq]
  refine ⟨hkey, ?_⟩
  by_cases hme : some username = me
  · rw [if_pos hme]
    exact fun heq => hself hme (Option.some.inj heq)
  · rw [if_neg hme]
    exact nofun

theorem mem_ringing : username ∈ h.ringing me (h.contacts.entries.map fun c => (c.1, c.2)) ↔
    some username ≠ me ∧ (∃ pin, h.contacts.get username = some pin ∧ ¬ pin.Barred) ∧
      h.screenDevices me username ≠ [] := by
  have hget : ∀ pin, h.contacts.get username = some pin ↔ ⟨username, pin⟩ ∈ h.contacts.entries :=
    fun pin => AList.mem_lookup_iff
  unfold History.ringing
  rw [List.mem_filter, List.mem_map, decide_eq_true_eq]
  constructor
  · rintro ⟨⟨c, hc, rfl⟩, hdevices⟩
    obtain ⟨hin, hok⟩ := List.mem_filter.mp hc
    obtain ⟨⟨name, pin⟩, hentry, rfl⟩ := List.mem_map.mp hin
    unfold History.approves at hok
    simp only [Bool.not_eq_true', Bool.or_eq_false_iff, decide_eq_false_iff_not] at hok
    obtain ⟨⟨hblocked, hrequest⟩, hother⟩ := hok
    refine ⟨hother, ⟨pin, (hget pin).mpr hentry, ?_⟩, hdevices⟩
    rintro (hbar | hbar)
    · rw [hblocked] at hbar
      cases hbar
    · rw [hrequest] at hbar
      cases hbar
  · rintro ⟨hother, ⟨pin, hpin, hbar⟩, hdevices⟩
    have hentry : (username, pin) ∈ h.contacts.entries.map fun c => (c.1, c.2) :=
      List.mem_map.mpr ⟨_, (hget pin).mp hpin, rfl⟩
    refine ⟨⟨(username, pin), List.mem_filter.mpr ⟨hentry, ?_⟩, rfl⟩, hdevices⟩
    obtain ⟨hblocked, hrequest⟩ := not_or.mp hbar
    unfold History.approves
    simp [hblocked, hrequest, hother]

/-- A name that is indexed is ours, or that of a contact who is not barred. -/
theorem caller_cases (hmem : username ∈ h.screenCallers me) :
    some username = me ∨ some username ≠ me ∧
    ∃ pin, h.contacts.get username = some pin ∧ ¬ pin.Barred := by
  rcases List.mem_append.mp (List.mem_of_mem_take hmem) with hown | hringing
  · have hme := (List.mem_filter.mp hown).1
    exact Or.inl (Option.mem_toList.mp hme).symm
  · obtain ⟨hother, hpin, -⟩ := mem_ringing.mp hringing
    exact Or.inr ⟨hother, hpin⟩

theorem callers_nodup : ((me.toList.filter fun username => h.screenDevices me username ≠ []) ++
    h.ringing me (h.contacts.entries.map fun c => (c.1, c.2))).Nodup := by
  rw [List.nodup_append]
  refine ⟨?_, ?_, fun u hown v hringing heq => ?_⟩
  · apply List.Nodup.filter
    cases me <;> simp
  · have hkeys : ((h.contacts.entries.map fun c => (c.1, c.2)).map (·.1)).Nodup := by
      rw [List.map_map]
      exact h.contacts.nodupKeys
    unfold History.ringing
    exact (hkeys.sublist (List.filter_sublist.map _)).filter _
  · subst heq
    have hme := (List.mem_filter.mp hown).1
    exact (mem_ringing.mp hringing).1 (Option.mem_toList.mp hme).symm

theorem exists_screenKey (hmem : username ∈ h.screenCallers me) :
    ∃ deviceId key, h.screenKey me username deviceId = some key := by
  have hne : h.screenDevices me username ≠ [] := by
    have hin := List.mem_of_mem_take hmem
    rw [List.mem_append] at hin
    rcases hin with hin | hin
    · simpa using (List.mem_filter.mp hin).2
    · simpa using (List.mem_filter.mp hin).2
  obtain ⟨device, rest, hcons⟩ := List.exists_cons_of_ne_nil hne
  refine ⟨device.1, device.2, ?_⟩
  unfold History.screenKey
  rw [hcons, List.find?_cons_of_pos (by simp)]
  rfl

/-- What is indexed may ring. -/
theorem mayRing_of_caller (hs : Screenable h me) (hmem : username ∈ h.screenCallers me)
    (hkey : h.screenKey me username deviceId = some key) : MayRing h me username deviceId key := by
  obtain ⟨roster, hroster, hlists, hself⟩ := lists_of_screenKey hkey
  refine ⟨roster, hroster, hlists, ?_⟩
  rcases caller_cases hmem with hme | ⟨hother, pin, hpin, hbar⟩
  · exact Or.inl ⟨hme, hself hme⟩
  · exact Or.inr ⟨hother, pin, hpin, hbar, hs.owner username hmem hother pin roster hpin hroster⟩

/-- Who may ring is indexed, unless more names than fit have someone who may. -/
theorem caller_of_mayRing (hs : Screenable h me) (hring : MayRing h me username deviceId key)
    (hfew : ∀ names : List String, names.Nodup →
      (∀ username ∈ names, ∃ deviceId key, MayRing h me username deviceId key) → names.length ≤ maxScreenCallers) :
    username ∈ h.screenCallers me := by
  by_contra hnot
  obtain ⟨roster, hroster, hlists, hwho⟩ := id hring
  have hself : some username = me → deviceId ≠ h.selfDeviceId := by
    intro hme
    rcases hwho with ⟨-, hother⟩ | ⟨hother, -⟩
    · exact hother
    · exact absurd hme hother
  have hdevices := screenDevices_ne_nil hroster hlists hself
  have hcandidate :
      username ∈ (me.toList.filter fun username => h.screenDevices me username ≠ []) ++
      h.ringing me (h.contacts.entries.map fun c => (c.1, c.2)) := by
    rcases hwho with ⟨hme, -⟩ | ⟨hother, pin, hpin, hbar, -⟩
    · apply List.mem_append_left
      exact List.mem_filter.mpr ⟨Option.mem_toList.mpr hme.symm, by simpa using hdevices⟩
    · apply List.mem_append_right
      exact mem_ringing.mpr ⟨hother, ⟨pin, hpin, hbar⟩, hdevices⟩
  -- so the index is full, and all in it may ring as well
  have hfull : (h.screenCallers me).length = maxScreenCallers := by
    unfold History.screenCallers at hnot ⊢
    by_contra hlen
    rw [List.length_take] at hlen
    exact hnot (by rwa [List.take_of_length_le (by omega)])
  have hnodup : (username :: h.screenCallers me).Nodup :=
    List.nodup_cons.mpr ⟨hnot, callers_nodup.sublist (List.take_sublist _ _)⟩
  have hbound := hfew (username :: h.screenCallers me) hnodup fun name hname => by
    rcases List.mem_cons.mp hname with rfl | hmem
    · exact ⟨deviceId, key, hring⟩
    · obtain ⟨id, k, hk⟩ := exists_screenKey hmem
      exact ⟨id, k, mayRing_of_caller hs hmem hk⟩
  rw [List.length_cons, hfull] at hbound
  omega

open ScreenIndex

variable {hkdf : Bytes → Bytes → Bytes → Bytes} {storeKey : Bytes} {A : Aead}
  {fromSlice : Bytes → Option Json}

theorem screenable_of_screens (hhash : Function.Injective (screenHash hkdf storeKey))
    (hs : Screens A fromSlice hkdf storeKey h me) : Screenable h me where
  owner := by
    intro username hmem hother pin roster hpin hroster
    obtain ⟨deviceId, key, hkey⟩ := exists_screenKey hmem
    have hring := hs.only username deviceId key ((signingKey_build_iff hhash).mpr ⟨hmem, hkey⟩)
    obtain ⟨roster', hroster', -, ⟨hme, -⟩ | ⟨-, pin', hpin', -, hsame⟩⟩ := hring
    · exact absurd hme hother
    · rw [hpin] at hpin'
      rw [hroster] at hroster'
      cases hpin'
      cases hroster'
      exact hsame
  single := by
    intro username hmem roster hroster name pin hname hpin hbar heq
    obtain ⟨deviceId, key, hkey⟩ := exists_screenKey hmem
    obtain ⟨roster', hroster', hlists, -⟩ := lists_of_screenKey hkey
    rw [hroster] at hroster'
    cases hroster'
    apply hs.barred username deviceId key ((signingKey_build_iff hhash).mpr ⟨hmem, hkey⟩)
    exact ⟨name, pin, hname, hpin, hbar, username, roster, deviceId, hroster, heq.symm, hlists⟩
  apart := by
    intro username hmem name pin hname hpin hbar other roster _ hroster hsame deviceId key hlists id hkey
    apply hs.barred username id key ((signingKey_build_iff hhash).mpr ⟨hmem, hkey⟩)
    exact ⟨name, pin, hname, hpin, hbar, other, roster, deviceId, hroster, hsame, hlists⟩

theorem screens_of_screenable (hhash : Function.Injective (screenHash hkdf storeKey)) (hA : A.Opens)
    (hread : ∀ j, fromSlice (toVec j) = some j) (hs : Screenable h me) :
    Screens A fromSlice hkdf storeKey h me where
  only := by
    intro username deviceId key hkey
    obtain ⟨hmem, hkey⟩ := (signingKey_build_iff hhash).mp hkey
    exact mayRing_of_caller hs hmem hkey
  every := by
    intro hfew username deviceId key roster hring hroster hlen
    rw [signingKey_build hhash, if_pos (caller_of_mayRing hs hring hfew)]
    obtain ⟨roster', hroster', hlists, hwho⟩ := hring
    rw [hroster] at hroster'
    cases hroster'
    refine screenKey_isSome hroster hlists hlen fun hme => ?_
    rcases hwho with ⟨-, hother⟩ | ⟨hother, -⟩
    · exact hother
    · exact absurd hme hother
  barred := by
    intro username deviceId key hkey hbarred
    obtain ⟨hmem, hkey⟩ := (signingKey_build_iff hhash).mp hkey
    obtain ⟨name, pin, hname, hpin, hbar, other, roster, id, hroster, hsame, hlists⟩ := hbarred
    by_cases hother : other = username
    · subst hother
      exact hs.single other hmem roster hroster name pin hname hpin hbar hsame.symm
    · exact hs.apart username hmem name pin hname hpin hbar other roster hother hroster hsame id key hlists deviceId hkey
  opens := open_seal_build hA hread

end screens

/-- **Who may ring.** For every history, an index screens exactly if the history is screenable. -/
theorem screens_iff {hkdf : Bytes → Bytes → Bytes → Bytes} {storeKey : Bytes}
    (hhash : Function.Injective (screenHash hkdf storeKey)) {A : Aead} (hA : A.Opens)
    {fromSlice : Bytes → Option Json} (hread : ∀ j, fromSlice (toVec j) = some j) (h : History)
    (me : Option String) :
    Screens A fromSlice hkdf storeKey h me ↔ Screenable h me :=
  ⟨screenable_of_screens hhash, screens_of_screenable hhash hA hread⟩

/-! ### Names that moved -/

/-- A hash that hides nothing. -/
def plainHkdf (salt _ _ : Bytes) : Bytes := salt

theorem digitChar_inj {n m : ℕ} (hn : n < 16) (hm : m < 16)
    (h : Nat.digitChar n = Nat.digitChar m) : n = m := by
  have hvalue := congrArg Json.hexValue h
  rw [Json.hexValue_digitChar hn, Json.hexValue_digitChar hm] at hvalue
  exact Option.some.inj hvalue

theorem hexLower_injective : Function.Injective hexLower := by
  intro a b h
  have hlist := String.ofList_injective h
  clear h
  induction a generalizing b with
  | nil =>
    cases b with
    | nil => rfl
    | cons y b => simp at hlist
  | cons x a ih =>
    cases b with
    | nil => simp at hlist
    | cons y b =>
      simp only [List.flatMap_cons, List.cons_append, List.nil_append, List.cons.injEq] at hlist
      obtain ⟨hhigh, hlow, hrest⟩ := hlist
      have hx := x.toNat_lt
      have hy := y.toNat_lt
      have hdiv := digitChar_inj (by omega) (by omega) hhigh
      have hmod := digitChar_inj (Nat.mod_lt _ (by omega)) (Nat.mod_lt _ (by omega)) hlow
      have hbyte : x = y := UInt8.toNat_inj.mp (by omega)
      rw [hbyte, ih hrest]

theorem plainHkdf_injective (storeKey : Bytes) :
    Function.Injective (screenHash plainHkdf storeKey) := by
  intro a b h
  exact utf8_inj (hexLower_injective h)

/-- Alice is accepted, and her roster is pinned. -/
def aliceOps : List (ℕ × HistoryOp) :=
  [(0, .pinContact "alice" "ka" true), (1, .pinRoster "alice" 0 0 "ka" [⟨"0", "ka", "sa"⟩])]

/-- And then her name goes to a new owner. -/
def movedOps : List (ℕ × HistoryOp) :=
  aliceOps ++ [(2, .pinRoster "alice" 1 0 "kb" [⟨"0", "kb", "sb"⟩])]

/-- An account is blocked under one of its names. -/
def twoNamesOps : List (ℕ × HistoryOp) :=
  [(0, .pinContact "bob" "kx" false), (1, .pinContact "bobby" "kx" false),
    (2, .withContactMut "bob" fun pin => { pin with blocked := true }),
    (3, .pinRoster "bobby" 0 0 "kx" [⟨"0", "kx", "sx"⟩])]

def aliceAccepted : History := History.run leavingCrypto {} aliceOps

def aliceMoved : History := History.run leavingCrypto {} movedOps

def bobTwice : History := History.run leavingCrypto {} twoNamesOps

/-- **The new owner of a name rings, and so does an account that is blocked under another name.** -/
theorem rings_under_the_name :
    (Reached leavingCrypto aliceMoved ∧
      (ScreenIndex.build plainHkdf [1, 2, 3] aliceMoved none).signingKey plainHkdf [1, 2, 3] "alice" "0" = some "sb" ∧
      ¬ Screens Aead.plain readVec plainHkdf [1, 2, 3] aliceMoved none) ∧
    Reached leavingCrypto bobTwice ∧
      (ScreenIndex.build plainHkdf [1, 2, 3] bobTwice none).signingKey plainHkdf [1, 2, 3] "bobby" "0" = some "sx" ∧
      ¬ Screens Aead.plain readVec plainHkdf [1, 2, 3] bobTwice none := by
  have hmoved : (ScreenIndex.build plainHkdf [1, 2, 3] aliceMoved none).signingKey plainHkdf [1, 2,
    3] "alice" "0" =
      some "sb" := by decide +kernel
  have htwice : (ScreenIndex.build plainHkdf [1, 2, 3] bobTwice none).signingKey plainHkdf [1, 2,
    3] "bobby" "0" =
      some "sx" := by decide +kernel
  refine ⟨⟨reached_run movedOps ?_ .start, hmoved, fun hs => ?_⟩, reached_run twoNamesOps ?_ .start,
    htwice, fun hs => ?_⟩
  · intro op hop other
    simp only [movedOps, aliceOps, List.cons_append, List.nil_append, List.mem_cons,
      List.not_mem_nil, or_false] at hop
    rcases hop with rfl | rfl | rfl <;> exact nofun
  · obtain ⟨roster, hroster, -, ⟨hme, -⟩ | ⟨-, pin, hpin, -, hsame⟩⟩ :=
      hs.only "alice" "0" "sb" hmoved
    · cases hme
    · have howner : (aliceMoved.contactRosters.get "alice").map (·.primaryKey) = some "kb" := by
        decide +kernel
      have haccepted : (aliceMoved.contacts.get "alice").map (·.identityKey) = some "ka" := by
        decide +kernel
      rw [hroster] at howner
      rw [hpin] at haccepted
      have hkeys : "ka" = "kb" := (Option.some.inj haccepted).symm.trans
        (hsame.trans (Option.some.inj howner))
      exact absurd hkeys (by decide)
  · intro op hop other
    simp only [twoNamesOps, List.mem_cons, List.not_mem_nil, or_false] at hop
    rcases hop with rfl | rfl | rfl | rfl <;> exact nofun
  · have hpin : (bobTwice.contacts.get "bob").map (fun pin => (pin.identityKey, pin.blocked)) =
        some ("kx", true) := by
      decide +kernel
    have hroster : bobTwice.contactRosters.get "bobby" =
        some ⟨0, 0, "kx", [⟨"0", "kx", "sx"⟩]⟩ := by decide +kernel
    obtain ⟨pin, hpin, hpair⟩ := Option.map_eq_some_iff.mp hpin
    apply hs.barred "bobby" "0" "sx" htwice
    refine ⟨"bob", pin, by decide, hpin, Or.inl (Prod.mk.inj hpair).2, "bobby", _, "0", hroster, ?_, by decide, ?_⟩
    · exact (Prod.mk.inj hpair).1.symm
    · exact ⟨⟨"0", "kx", "sx"⟩, List.mem_cons_self, rfl, rfl⟩

theorem screens_iff_alice :
    (ScreenIndex.build plainHkdf [1, 2, 3] aliceAccepted none).signingKey plainHkdf [1, 2, 3] "alice" "0" = some "sa" ∧
    Screens Aead.plain readVec plainHkdf [1, 2, 3] aliceAccepted none := by
  refine ⟨by decide +kernel,
    (screens_iff (plainHkdf_injective [1, 2, 3]) Aead.plain_opens readVec_toVec aliceAccepted none).mpr ?_⟩
  have hcallers : aliceAccepted.screenCallers none = ["alice"] := by decide +kernel
  have hcontacts : ∀ name, aliceAccepted.contacts.get name =
      if name = "alice" then some { identityKey := "ka", verified := true } else none := fun name => Table.get_set _ _ _ _
  have hroster : aliceAccepted.contactRosters.get "alice" =
      some ⟨0, 0, "ka", [⟨"0", "ka", "sa"⟩]⟩ := by decide +kernel
  have hnobody : ∀ name pin, name ≠ "alice" → aliceAccepted.contacts.get name ≠ some pin := by
    intro name pin hname
    rw [hcontacts, if_neg hname]
    exact nofun
  refine ⟨fun username hmem _ pin roster hpin hr => ?_,
    fun username hmem roster hr name pin hname hpin => ?_,
    fun username hmem name pin hname hpin => ?_⟩ <;> rw [hcallers, List.mem_singleton] at hmem <;> subst hmem
  · rw [hcontacts, if_pos rfl] at hpin
    rw [hroster] at hr
    cases hpin
    cases hr
    rfl
  · exact absurd hpin (hnobody name pin hname)
  · exact absurd hpin (hnobody name pin hname)

end Sona
