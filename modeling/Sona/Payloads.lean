/-
# What is signed

Every payload that the keys of an account, its devices or the log sign, as one
type (`Statement`). A payload starts with the domain of its kind, and no domain
is the start of another, so payloads of two kinds are different whatever their
fields hold (`kind_of_payload`). Behind the domain the signed records of
`kt-log` write each field at a fixed width or behind its length, so a payload
determines its fields, with one exception: no previous key is written as the
empty one. Neither an entry nor an epoch that names the empty key is accepted
(`KtEntry.prev_ne_empty`, `GroupEpoch.validateStructure_ok`), so among what can
be accepted there is no exception.

The requests to the relay put a bar before each field. A hash and a nonce that
the relay takes have no bar (`bar_free_of_fromHex`, `Minted.bar_free`), so the
one field of a request that may hold anything is what stands between them. An
upload ends in its keys, which are not looked at: two keys sign what the one
key with a bar signs. So a signature is of one statement unless the statement
is such an upload (`payloads_bind_iff`, `upload_signs_two`).

Key definitions: `Statement`, `Statement.payload`, `Statement.kind`, `Statement.Acceptable`,
`Statement.Same`, `Statement.Recuts`, `NoCollision`, `SignsOnly`.
-/
import Mathlib.Data.List.Basic
import Mathlib.Data.List.Infix
import Sona.Lib.Base64
import Sona.Lib.Delimited
import Sona.Wire
import Sona.Kt
import Sona.Heads
import Sona.Group
import Sona.Media
import Sona.Run
import Sona.Uploads

namespace Sona

/-! ### Statements -/

/-- What the system signs with an identity key or with the key of the log. -/
inductive Statement
  | wsAuth (mailboxHash nonce : String)
  | ktLeaves (identityHash nonce : String)
  | oneTimeKeys (identityHash : String) (keys : List String)
  | pushRegister (identityHash endpoint nonce : String)
  | pushUnregister (identityHash nonce : String)
  | callKeyPublish (mailboxHash callKey : String) (createdAt : ℕ) (nonce : String)
  | accountDelete (identityHash : String) (aliasHashes : List String) (nonce : String)
  | entry (e : KtEntry)
  | device (usernameHash : String) (d : DeviceRecord)
  | roster (r : KtRosterEntry)
  | groupEpoch (e : GroupEpoch)
  | callKey (usernameHash : String) (b : CallKeyBinding)
  | head (treeSize : ℕ) (root : Bytes) (timestamp : ℕ)

def Statement.payload : Statement → Bytes
  | wsAuth mailboxHash nonce => wsAuthSigningMessage mailboxHash nonce
  | ktLeaves identityHash nonce => ktLeavesSigningMessage identityHash nonce
  | oneTimeKeys identityHash keys => oneTimeKeysSigningMessage identityHash keys
  | pushRegister identityHash endpoint nonce =>
    pushRegisterSigningMessage identityHash endpoint nonce
  | pushUnregister identityHash nonce => pushUnregisterSigningMessage identityHash nonce
  | callKeyPublish mailboxHash key createdAt nonce =>
    callKeyPublishSigningMessage mailboxHash key createdAt nonce
  | accountDelete identityHash aliasHashes nonce =>
    accountDeleteSigningMessage identityHash aliasHashes nonce
  | entry e => e.signingPayload
  | device usernameHash d => d.signingPayload usernameHash
  | roster r => r.signingPayload
  | groupEpoch e => e.signingPayload
  | callKey usernameHash b => b.signingPayload usernameHash
  | head treeSize root timestamp => headPayload treeSize root timestamp

inductive Kind
  | wsAuth | ktLeaves | oneTimeKeys | pushRegister | pushUnregister | callKeyPublish | accountDelete
  | entry | device | roster | groupEpoch | callKey | head
deriving DecidableEq, Repr

def Kind.all : List Kind :=
  [wsAuth, ktLeaves, oneTimeKeys, pushRegister, pushUnregister, callKeyPublish, accountDelete, entry, device, roster,
    groupEpoch, callKey, head]

theorem Kind.mem_all (k : Kind) : k ∈ Kind.all := by
  cases k <;> decide

def Statement.kind : Statement → Kind
  | wsAuth .. => .wsAuth
  | ktLeaves .. => .ktLeaves
  | oneTimeKeys .. => .oneTimeKeys
  | pushRegister .. => .pushRegister
  | pushUnregister .. => .pushUnregister
  | callKeyPublish .. => .callKeyPublish
  | accountDelete .. => .accountDelete
  | entry .. => .entry
  | device .. => .device
  | roster .. => .roster
  | groupEpoch .. => .groupEpoch
  | callKey .. => .callKey
  | head .. => .head

/-- The word that the payloads of a kind start with. -/
def Kind.domain : Kind → String
  | wsAuth => "sona-ws-auth-v1"
  | ktLeaves => "sona-kt-leaves-v1"
  | oneTimeKeys => "sona-otk-upload-v1"
  | pushRegister => "sona-push-register-v1"
  | pushUnregister => "sona-push-unregister-v1"
  | callKeyPublish => "sona-call-key-publish-v1"
  | accountDelete => "sona-account-delete-v1"
  | entry => "sona-kt-entry-v1"
  | device => "sona-kt-device-v1"
  | roster => "sona-kt-roster-v1"
  | groupEpoch => "sona-group-epoch-v1"
  | callKey => "sona-call-key-v1"
  | head => "sona-kt-sth-v1"

/-! ### Kinds -/

theorem domain_prefix_payload (a : Statement) : utf8 a.kind.domain <+: a.payload := by
  cases a <;>
    simp only [Statement.kind, Kind.domain, Statement.payload, wsAuthSigningMessage,
      ktLeavesSigningMessage, oneTimeKeysSigningMessage, pushRegisterSigningMessage, pushUnregisterSigningMessage, callKeyPublishSigningMessage, accountDeleteSigningMessage, barred, KtEntry.signingPayload, DeviceRecord.signingPayload, KtRosterEntry.signingPayload, GroupEpoch.signingPayload, CallKeyBinding.signingPayload, headPayload, List.append_assoc] <;>
    exact List.prefix_append _ _

/-- No domain is the start of another. -/
theorem domain_prefix_iff :
    ∀ k ∈ Kind.all, ∀ k' ∈ Kind.all, (utf8 k.domain).isPrefixOf (utf8 k'.domain) =
      true → k = k' := by
  decide +kernel

/-- **The kind of a payload.** Payloads that are equal are of one kind,
whatever their fields hold. -/
theorem kind_of_payload {a b : Statement} (h : a.payload = b.payload) : a.kind = b.kind := by
  have hd : ∀ k k' : Kind, utf8 k.domain <+: utf8 k'.domain → k = k' := fun k k' hp =>
    domain_prefix_iff k k.mem_all k' k'.mem_all (List.isPrefixOf_iff_prefix.mpr hp)
  have ha := domain_prefix_payload a
  rw [h] at ha
  rcases List.prefix_or_prefix_of_prefix ha (domain_prefix_payload b) with hp | hp
  · exact hd _ _ hp
  · exact (hd _ _ hp).symm

/-! ### Fields -/

theorem beBytes_inj {n m : ℕ} (hn : n < 2 ^ 64) (hm : m < 2 ^ 64) (h : beBytes n = beBytes m) :
    n = m := by
  rw [← beValue_beBytes hn, h, beValue_beBytes hm]

theorem delimited_beBytes : Delimited (fun n => n < 2 ^ 64) beBytes :=
  delimited_of_length 8 (fun _ => by simp [beBytes]) fun _ _ hn hm h => beBytes_inj hn hm h

/-- A string of the source: its length is a machine word. -/
def StringFits (s : String) : Prop := (utf8 s).length < 2 ^ 64

theorem delimited_pushField : Delimited StringFits pushField :=
  delimited_beBytes.prefixed fun _ _ h => utf8_inj h

/-- The values are machine values: numbers of 64 bits, and lengths too. -/
structure DeviceRecord.Fits (d : DeviceRecord) : Prop where
  strings : ∀ s ∈ [d.deviceId, d.identityKey, d.signingKey, d.signature], StringFits s
  addedAt : d.addedAt < 2 ^ 64

structure KtEntry.Fits (e : KtEntry) : Prop where
  strings : ∀ s ∈ [e.usernameHash, e.identityKey, e.signingKey, e.prevSigningKey.getD ""], StringFits s
  seq : e.seq < 2 ^ 64
  timestamp : e.timestamp < 2 ^ 64

structure KtRosterEntry.Fits (r : KtRosterEntry) : Prop where
  usernameHash : StringFits r.usernameHash
  devices : r.devices.length < 2 ^ 64 ∧ ∀ d ∈ r.devices, d.Fits
  seq : r.seq < 2 ^ 64
  timestamp : r.timestamp < 2 ^ 64

structure GroupEpoch.Fits (e : GroupEpoch) : Prop where
  strings : ∀ s ∈ [e.groupId, e.adminKey, e.adminIdentityKey, e.prevAdminKey.getD ""], StringFits s
  members : e.members.length < 2 ^ 64 ∧
    ∀ m ∈ e.members, StringFits m.username ∧ StringFits m.identityKey
  seq : e.seq < 2 ^ 64
  timestamp : e.timestamp < 2 ^ 64

structure CallKeyBinding.Fits (b : CallKeyBinding) : Prop where
  strings : ∀ s ∈ [b.deviceId, b.callKey, b.callSigningKey], StringFits s
  createdAt : b.createdAt < 2 ^ 64

/-- No key and the empty key are written alike; a key that is not empty is told from both. -/
theorem eq_of_getD {p q : Option String} (hp : p ≠ some "") (hq : q ≠ some "")
    (h : p.getD "" = q.getD "") : p = q := by
  cases p with
  | none =>
    cases q with
    | none => rfl
    | some b => exact absurd (congrArg some (show "" = b from h)) (Ne.symm hq)
  | some a =>
    cases q with
    | none => exact absurd (congrArg some (show a = "" from h)) hp
    | some b => exact congrArg some h

theorem KtEntry.payload_inj {e e' : KtEntry} (he : e.Fits) (he' : e'.Fits)
    (hp : e.prevSigningKey ≠ some "") (hp' : e'.prevSigningKey ≠ some "")
    (h : e.signingPayload = e'.signingPayload) :
    { e with signature := "" } = { e' with signature := "" } := by
  simp only [KtEntry.signingPayload, List.append_assoc] at h
  have h := List.append_cancel_left h
  obtain ⟨hseq, h⟩ := delimited_beBytes _ _ he.seq he'.seq _ _ h
  obtain ⟨huser, h⟩ := delimited_pushField _ _ (he.strings _ (by simp)) (he'.strings _ (by simp)) _ _ h
  obtain ⟨hid, h⟩ := delimited_pushField _ _ (he.strings _ (by simp)) (he'.strings _ (by simp)) _ _ h
  obtain ⟨hkey, h⟩ := delimited_pushField _ _ (he.strings _ (by simp)) (he'.strings _ (by simp)) _ _ h
  obtain ⟨hprev, h⟩ := delimited_pushField _ _ (he.strings _ (by simp)) (he'.strings _ (by simp)) _ _ h
  obtain ⟨htime, h⟩ := delimited_beBytes _ _ he.timestamp he'.timestamp _ _ h
  have hprev := eq_of_getD hp hp' hprev
  have hrel : e.released = e'.released := by
    revert h
    cases e.released <;> cases e'.released <;> decide
  rw [KtEntry.mk.injEq]
  exact ⟨hseq, huser, hid, hkey, hprev, htime, hrel, rfl⟩

theorem DeviceRecord.payload_inj {u u' : String} {d d' : DeviceRecord} (hu : StringFits u)
    (hu' : StringFits u') (hd : d.Fits) (hd' : d'.Fits)
    (h : d.signingPayload u = d'.signingPayload u') :
    u = u' ∧ { d with signature := "" } = { d' with signature := "" } := by
  simp only [DeviceRecord.signingPayload, List.append_assoc] at h
  have h := List.append_cancel_left h
  obtain ⟨huser, h⟩ := delimited_pushField _ _ hu hu' _ _ h
  obtain ⟨hdev, h⟩ := delimited_pushField _ _ (hd.strings _ (by simp)) (hd'.strings _ (by simp)) _ _ h
  obtain ⟨hid, h⟩ := delimited_pushField _ _ (hd.strings _ (by simp)) (hd'.strings _ (by simp)) _ _ h
  obtain ⟨hkey, h⟩ := delimited_pushField _ _ (hd.strings _ (by simp)) (hd'.strings _ (by simp)) _ _ h
  have hadded := beBytes_inj hd.addedAt hd'.addedAt h
  rw [DeviceRecord.mk.injEq]
  exact ⟨huser, hdev, hid, hkey, hadded, rfl⟩

/-- A device as a roster lists it, with its own signature. -/
theorem delimited_device : Delimited DeviceRecord.Fits fun d =>
    pushField d.deviceId ++ pushField d.identityKey ++ pushField d.signingKey ++ beBytes d.addedAt ++
      pushField d.signature := by
  intro d d' hd hd' x y h
  simp only [List.append_assoc] at h
  obtain ⟨hdev, h⟩ := delimited_pushField _ _ (hd.strings _ (by simp)) (hd'.strings _ (by simp)) _ _ h
  obtain ⟨hid, h⟩ := delimited_pushField _ _ (hd.strings _ (by simp)) (hd'.strings _ (by simp)) _ _ h
  obtain ⟨hkey, h⟩ := delimited_pushField _ _ (hd.strings _ (by simp)) (hd'.strings _ (by simp)) _ _ h
  obtain ⟨hadded, h⟩ := delimited_beBytes _ _ hd.addedAt hd'.addedAt _ _ h
  obtain ⟨hsig, h⟩ := delimited_pushField _ _ (hd.strings _ (by simp)) (hd'.strings _ (by simp)) _ _ h
  refine ⟨?_, h⟩
  rw [DeviceRecord.mk.injEq]
  exact ⟨hdev, hid, hkey, hadded, hsig⟩

theorem KtRosterEntry.payload_inj {r r' : KtRosterEntry} (hr : r.Fits) (hr' : r'.Fits)
    (h : r.signingPayload = r'.signingPayload) :
    { r with signature := "" } = { r' with signature := "" } := by
  simp only [KtRosterEntry.signingPayload, List.append_assoc] at h
  have h := List.append_cancel_left h
  obtain ⟨hseq, h⟩ := delimited_beBytes _ _ hr.seq hr'.seq _ _ h
  obtain ⟨huser, h⟩ := delimited_pushField _ _ hr.usernameHash hr'.usernameHash _ _ h
  have hcounted := delimited_device.counted delimited_beBytes _ _ hr.devices hr'.devices
    (beBytes r.timestamp) (beBytes r'.timestamp)
  simp only [List.append_assoc] at hcounted
  obtain ⟨hdevices, h⟩ := hcounted h
  have htime := beBytes_inj hr.timestamp hr'.timestamp h
  rw [KtRosterEntry.mk.injEq]
  exact ⟨hseq, huser, hdevices, htime, rfl⟩

/-- A member as an epoch lists it. -/
theorem delimited_member :
    Delimited (fun m : GroupMemberEntry => StringFits m.username ∧ StringFits m.identityKey)
    fun m => pushField m.username ++ pushField m.identityKey := by
  intro m m' hm hm' x y h
  simp only [List.append_assoc] at h
  obtain ⟨hname, h⟩ := delimited_pushField _ _ hm.1 hm'.1 _ _ h
  obtain ⟨hid, h⟩ := delimited_pushField _ _ hm.2 hm'.2 _ _ h
  refine ⟨?_, h⟩
  rw [GroupMemberEntry.mk.injEq]
  exact ⟨hname, hid⟩

theorem GroupEpoch.payload_inj {e e' : GroupEpoch} (he : e.Fits) (he' : e'.Fits)
    (hp : e.prevAdminKey ≠ some "") (hp' : e'.prevAdminKey ≠ some "")
    (h : e.signingPayload = e'.signingPayload) :
    { e with signature := "" } = { e' with signature := "" } := by
  simp only [GroupEpoch.signingPayload, List.append_assoc] at h
  have h := List.append_cancel_left h
  obtain ⟨hgroup, h⟩ := delimited_pushField _ _ (he.strings _ (by simp)) (he'.strings _ (by simp)) _ _ h
  obtain ⟨hseq, h⟩ := delimited_beBytes _ _ he.seq he'.seq _ _ h
  obtain ⟨hmembers, h⟩ := delimited_member.counted delimited_beBytes _ _ he.members he'.members _ _
    (by rw [List.append_assoc, List.append_assoc]; exact h)
  obtain ⟨hadmin, h⟩ := delimited_pushField _ _ (he.strings _ (by simp)) (he'.strings _ (by simp)) _ _ h
  obtain ⟨hid, h⟩ := delimited_pushField _ _ (he.strings _ (by simp)) (he'.strings _ (by simp)) _ _ h
  obtain ⟨hprev, h⟩ := delimited_pushField _ _ (he.strings _ (by simp)) (he'.strings _ (by simp)) _ _ h
  have htime := beBytes_inj he.timestamp he'.timestamp h
  have hprev := eq_of_getD hp hp' hprev
  rw [GroupEpoch.mk.injEq]
  exact ⟨hgroup, hseq, hmembers, hadmin, hid, hprev, htime, rfl⟩

theorem CallKeyBinding.payload_inj {u u' : String} {b b' : CallKeyBinding} (hu : StringFits u)
    (hu' : StringFits u') (hb : b.Fits) (hb' : b'.Fits)
    (h : b.signingPayload u = b'.signingPayload u') :
    u = u' ∧ { b with signature := "" } = { b' with signature := "" } := by
  simp only [CallKeyBinding.signingPayload, List.append_assoc] at h
  have h := List.append_cancel_left h
  obtain ⟨huser, h⟩ := delimited_pushField _ _ hu hu' _ _ h
  obtain ⟨hdev, h⟩ := delimited_pushField _ _ (hb.strings _ (by simp)) (hb'.strings _ (by simp)) _ _ h
  obtain ⟨hkey, h⟩ := delimited_pushField _ _ (hb.strings _ (by simp)) (hb'.strings _ (by simp)) _ _ h
  obtain ⟨hsign, h⟩ := delimited_pushField _ _ (hb.strings _ (by simp)) (hb'.strings _ (by simp)) _ _ h
  have hcreated := beBytes_inj hb.createdAt hb'.createdAt h
  rw [CallKeyBinding.mk.injEq]
  exact ⟨huser, hdev, hkey, hsign, hcreated, rfl⟩

theorem headPayload_inj {m n t u : ℕ} {root root' : Bytes} (hm : m < 2 ^ 64) (hn : n < 2 ^ 64)
    (ht : t < 2 ^ 64) (hu : u < 2 ^ 64) (h : headPayload m root t = headPayload n root' u) :
    m = n ∧ root = root' ∧ t = u := by
  simp only [headPayload, List.append_assoc] at h
  obtain ⟨hsize, h⟩ := delimited_beBytes _ _ hm hn _ _ (List.append_cancel_left h)
  -- the time is the last eight bytes
  obtain ⟨hroot, h⟩ := List.append_inj' h (by simp [beBytes])
  exact ⟨hsize, hroot, beBytes_inj ht hu h⟩

/-! ### Fields between bars -/

theorem mem_dropWhile_of_not {p : Char → Bool} {c : Char} (hc : p c = false) {l : List Char}
    (h : c ∈ l) :
    c ∈ l.dropWhile p := by
  rw [← List.takeWhile_append_dropWhile (p := p) (l := l)] at h
  rcases List.mem_append.mp h with htake | hdrop
  · rw [List.mem_takeWhile_imp htake] at hc
    cases hc
  · exact hdrop

/-- A hash that the relay takes has no bar: what is trimmed off is blank, the rest is hex. -/
theorem bar_free_of_fromHex {s : String} (h : (IdentityHash.fromHex s).isSome) :
    '|' ∉ s.toList := by
  intro hmem
  have htrim : '|' ∈ trim s.toList :=
    List.mem_reverse.mpr (mem_dropWhile_of_not rfl (List.mem_reverse.mpr (mem_dropWhile_of_not rfl hmem)))
  unfold IdentityHash.fromHex at h
  dsimp only at h
  split at h
  · rename_i hhex
    have hbar := List.all_eq_true.mp hhex.2 _ (List.mem_map_of_mem htrim)
    revert hbar
    decide
  · cases h

/-- A nonce as `ChallengeStore::issue` mints it: random bytes in base64. -/
def Minted (nonce : String) : Prop :=
  ∃ bytes : Bytes, bytes.length = wsAuthNonceLen ∧ utf8 nonce = encodeBase64 bytes

theorem Minted.bar_free {nonce : String} (h : Minted nonce) : '|' ∉ nonce.toList := by
  obtain ⟨bytes, -, hbytes⟩ := h
  intro hmem
  have hbar : (124 : UInt8) ∈ utf8 nonce := by
    rw [utf8_toList]
    exact List.mem_flatMap.mpr ⟨'|', hmem, by decide⟩
  obtain ⟨n, hn⟩ := decodeBase64_digits (hbytes ▸ decodeBase64_encodeBase64 bytes) _ hbar
  cases hn

theorem bar_free_repr (n : ℕ) : '|' ∉ (toString n).toList := by
  intro hmem
  have hmem' : '|' ∈ Nat.toDigits 10 n := by
    have hrepr : (toString n).toList = Nat.toDigits 10 n := by
      rw [show toString n = Nat.repr n from rfl, Nat.repr_eq_ofList_toDigits, String.toList_ofList]
    exact hrepr ▸ hmem
  have hdigit := Nat.isDigit_of_mem_toDigits (by decide) (by decide) hmem'
  cases hdigit

/-- A field without bars is one piece. -/
theorem pieces_cons {f : String} (h : '|' ∉ f.toList) (fields : List String) :
    pieces (f :: fields) = f.toList :: pieces fields := by
  unfold pieces
  rw [List.flatMap_cons, List.splitOn_eq_singleton h]
  rfl

theorem pieces_append (fields fields' : List String) :
    pieces (fields ++ fields') = pieces fields ++ pieces fields' :=
  List.flatMap_append

/-- A field is determined by its pieces. -/
theorem eq_of_pieces {f f' : String} (h : pieces [f] = pieces [f']) : f = f' := by
  unfold pieces at h
  rw [List.flatMap_singleton, List.flatMap_singleton] at h
  have hjoin := congrArg ['|'].intercalate h
  rw [List.intercalate_splitOn, List.intercalate_splitOn] at hjoin
  exact String.toList_inj.mp hjoin

/-- Fields without bars are determined by their message. -/
theorem barred_inj_of_bar_free {domain : String} {fields fields' : List String}
    (hf : ∀ f ∈ fields, '|' ∉ f.toList) (hf' : ∀ f ∈ fields', '|' ∉ f.toList)
    (h : barred domain fields = barred domain fields') : fields = fields' := by
  rw [barred_inj, pieces_of_bar_free hf, pieces_of_bar_free hf'] at h
  exact List.map_injective_iff.mpr (fun _ _ => String.toList_injective) h

/-- A field that may hold anything, between others without bars. -/
theorem barred_inj_between {domain h h' f f' : String} {rest rest' : List String}
    (hh : '|' ∉ h.toList) (hh' : '|' ∉ h'.toList) (hrest : ∀ r ∈ rest, '|' ∉ r.toList)
    (hrest' : ∀ r ∈ rest', '|' ∉ r.toList) (hlen : rest.length = rest'.length)
    (heq : barred domain (h :: f :: rest) = barred domain (h' :: f' :: rest')) :
    h = h' ∧ f = f' ∧ rest = rest' := by
  rw [barred_inj, pieces_cons hh, pieces_cons hh'] at heq
  obtain ⟨hhash, heq⟩ := List.cons.inj heq
  rw [show f :: rest = [f] ++ rest from rfl, show f' :: rest' = [f'] ++ rest' from rfl,
    pieces_append, pieces_append, pieces_of_bar_free hrest, pieces_of_bar_free hrest'] at heq
  obtain ⟨hfield, heq⟩ := List.append_inj' heq (by rw [List.length_map, List.length_map, hlen])
  exact ⟨String.toList_inj.mp hhash, eq_of_pieces hfield,
    List.map_injective_iff.mpr (fun _ _ => String.toList_injective) heq⟩

/-- An upload of at most one key without bars is determined by its message. -/
theorem oneTimeKeys_inj {h h' : String} {keys keys' : List String} (hh : '|' ∉ h.toList)
    (hh' : '|' ∉ h'.toList) (hlen : keys.length < 2) (hkeys : ∀ k ∈ keys, '|' ∉ k.toList)
    (heq : oneTimeKeysSigningMessage h keys = oneTimeKeysSigningMessage h' keys') :
    h = h' ∧ keys = keys' := by
  unfold oneTimeKeysSigningMessage at heq
  rw [barred_inj, pieces_cons hh, pieces_cons hh', pieces_of_bar_free hkeys] at heq
  obtain ⟨hhash, heq⟩ := List.cons.inj heq
  have hpieces : ∀ k : String, k.toList.splitOn '|' ≠ [] := fun k => List.splitOn_ne_nil _ _
  refine ⟨String.toList_inj.mp hhash, ?_⟩
  cases keys with
  | nil =>
    cases keys' with
    | nil => rfl
    | cons k' rest' => exact absurd (List.append_eq_nil_iff.mp heq.symm).1 (hpieces k')
  | cons k rest =>
    have hrest : rest = [] := List.length_eq_zero_iff.mp (by rw [List.length_cons] at hlen; omega)
    subst hrest
    cases keys' with
    | nil => cases heq
    | cons k' rest' =>
      cases rest' with
      | nil => rw [eq_of_pieces ((pieces_of_bar_free hkeys).trans heq)]
      | cons k'' rest'' =>
        have hone := congrArg List.length heq
        have h1 := List.length_pos_of_ne_nil (hpieces k')
        have h2 := List.length_pos_of_ne_nil (hpieces k'')
        simp only [pieces, List.flatMap_cons, List.length_append, List.map_cons, List.map_nil,
          List.length_cons, List.length_nil] at hone
        omega

/-! ### What can be accepted -/

/-- The fields are machine values, where a width depends on them; nothing is
asked of the other statements. -/
def Statement.Fits : Statement → Prop
  | callKeyPublish _ _ createdAt _ => createdAt < 2 ^ 64
  | entry e => e.Fits
  | device usernameHash d => StringFits usernameHash ∧ d.Fits
  | roster r => r.Fits
  | groupEpoch e => e.Fits
  | callKey usernameHash b => StringFits usernameHash ∧ b.Fits
  | head treeSize _ timestamp => treeSize < 2 ^ 64 ∧ timestamp < 2 ^ 64
  | _ => True

/-- What the relay asks of a request that spends a nonce: a hash, and a nonce that it minted. -/
def Asks (hash nonce : String) : Prop := (IdentityHash.fromHex hash).isSome ∧ Minted nonce

/-- The verifying side can accept the statement. -/
def Statement.Acceptable (C : Crypto) : Statement → Prop
  | wsAuth mailboxHash nonce => Asks mailboxHash nonce
  | ktLeaves identityHash nonce => Asks identityHash nonce
  | oneTimeKeys identityHash _ => (IdentityHash.fromHex identityHash).isSome
  | pushRegister identityHash _ nonce => Asks identityHash nonce
  | pushUnregister identityHash nonce => Asks identityHash nonce
  | callKeyPublish mailboxHash _ _ nonce => Asks mailboxHash nonce
  | accountDelete identityHash aliasHashes nonce =>
    Asks identityHash nonce ∧ ∀ a ∈ aliasHashes, (IdentityHash.fromHex a).isSome
  | entry e => e.verifySignature C = true
  | device usernameHash d => d.verify C usernameHash = true
  | roster r => ∃ current, r.validateAgainst C current = .ok ()
  | groupEpoch e => e.validateBaseline C = .ok () ∨ ∃ seq key, e.verifySuccession C seq key = .ok ()
  | callKey usernameHash b => ∃ roster, b.verify C usernameHash roster = true
  | head .. => True

/-- The kinds whose types list what is signed: the records of `kt-log`. -/
def Kind.isRecord : Kind → Bool
  | .entry | .device | .roster | .groupEpoch | .callKey => true
  | _ => false

/-- The statement without its signature. -/
def Statement.unsigned : Statement → Statement
  | entry e => entry { e with signature := "" }
  | device usernameHash d => device usernameHash { d with signature := "" }
  | roster r => roster { r with signature := "" }
  | groupEpoch e => groupEpoch { e with signature := "" }
  | callKey usernameHash b => callKey usernameHash { b with signature := "" }
  | a => a

/-- The statements say the same: all that is signed is equal. -/
def Statement.Same (a b : Statement) : Prop := a.unsigned = b.unsigned

/-- An upload that can be cut anew: of two keys or more, or of a key with a bar in it. -/
def Statement.Recuts : Statement → Prop
  | oneTimeKeys _ keys => 2 ≤ keys.length ∨ ∃ k ∈ keys, '|' ∈ k.toList
  | _ => False

/-- No signature is good under the empty key. -/
theorem Crypto.verifyEd25519_empty {C : Crypto} (hC : C.b64d "" = some []) (message : Bytes)
    (signature : String) :
    C.verifyEd25519 "" message signature = false := by
  unfold Crypto.verifyEd25519
  rw [hC]
  cases C.b64d signature <;> simp

theorem KtEntry.prev_ne_empty {C : Crypto} (hC : C.b64d "" = some []) {e : KtEntry}
    (h : e.verifySignature C = true) :
    e.prevSigningKey ≠ some "" := by
  intro hp
  rw [KtEntry.verifySignature, KtEntry.signer, hp, Option.getD_some,
    Crypto.verifyEd25519_empty hC] at h
  cases h

theorem GroupEpoch.prev_ne_empty {C : Crypto} {e : GroupEpoch}
    (h : e.validateBaseline C = .ok () ∨ ∃ seq key, e.verifySuccession C seq key = .ok ()) :
    e.prevAdminKey ≠ some "" := by
  rcases h with h | ⟨seq, key, h⟩
  · exact (GroupEpoch.validateStructure_ok (GroupEpoch.validateBaseline_ok.mp h).1).prev
  · exact (GroupEpoch.validateStructure_ok (GroupEpoch.verifySuccession_ok.mp h).1).prev

/-- What the relay answers with 200 is an upload that can be accepted. -/
theorem acceptable_of_accepts {R : Relay} {u : UploadAt} {req : OneTimeKeysRequest}
    (h : u.accepts R req) :
    (Statement.oneTimeKeys req.identityHash req.oneTimeKeys).Acceptable R.crypto := by
  obtain ⟨_, _, -, hhex, -⟩ := (accepts_iff R u req).mp h
  exact hhex

theorem Asks.bar_free {hash nonce : String} (h : Asks hash nonce) :
    '|' ∉ hash.toList ∧ '|' ∉ nonce.toList :=
  ⟨bar_free_of_fromHex h.1, h.2.bar_free⟩

/-- A request of a hash and a nonce is determined by its message. -/
theorem asks_inj {domain hash hash' nonce nonce' : String} (ha : Asks hash nonce)
    (hb : Asks hash' nonce') (h : barred domain [hash, nonce] = barred domain [hash', nonce']) :
    hash = hash' ∧ nonce = nonce' := by
  have hfields := barred_inj_of_bar_free (by simpa using ha.bar_free) (by simpa using hb.bar_free) h
  simpa using hfields

theorem pushRegister_inj {hash hash' endpoint endpoint' nonce nonce' : String}
    (ha : Asks hash nonce) (hb : Asks hash' nonce')
    (h : pushRegisterSigningMessage hash endpoint nonce = pushRegisterSigningMessage hash' endpoint' nonce') :
    hash = hash' ∧ endpoint = endpoint' ∧ nonce = nonce' := by
  unfold pushRegisterSigningMessage at h
  have hlast : ∀ {u v : String}, Asks u v → ∀ r ∈ [v], '|' ∉ r.toList := by
    intro u v hasks r hr
    exact List.mem_singleton.mp hr ▸ hasks.bar_free.2
  obtain ⟨hhash, hendpoint, hnonce⟩ :=
    barred_inj_between ha.bar_free.1 hb.bar_free.1 (hlast ha) (hlast hb) rfl h
  exact ⟨hhash, hendpoint, (List.cons.inj hnonce).1⟩

theorem callKeyPublish_inj {hash hash' key key' nonce nonce' : String} {createdAt createdAt' : ℕ}
    (ha : Asks hash nonce) (hb : Asks hash' nonce')
    (h : callKeyPublishSigningMessage hash key createdAt nonce = callKeyPublishSigningMessage hash' key' createdAt' nonce') :
    hash = hash' ∧ key = key' ∧ createdAt = createdAt' ∧ nonce = nonce' := by
  unfold callKeyPublishSigningMessage at h
  have hrest : ∀ {n : ℕ} {u v : String}, Asks u v → ∀ r ∈ [toString n, v], '|' ∉ r.toList := by
    intro n u v hasks r hr
    rcases List.mem_pair.mp hr with rfl | rfl
    · exact bar_free_repr n
    · exact hasks.bar_free.2
  obtain ⟨hhash, hkey, htail⟩ :=
    barred_inj_between ha.bar_free.1 hb.bar_free.1 (hrest ha) (hrest hb) rfl h
  obtain ⟨hcreated, hnonce⟩ := List.cons.inj htail
  exact ⟨hhash, hkey, decimal_inj hcreated, (List.cons.inj hnonce).1⟩

theorem accountDelete_inj {hash hash' nonce nonce' : String}
    {aliasHashes aliasHashes' : List String} (ha : Asks hash nonce) (hb : Asks hash' nonce')
    (hal : ∀ a ∈ aliasHashes, (IdentityHash.fromHex a).isSome)
    (hbl : ∀ a ∈ aliasHashes', (IdentityHash.fromHex a).isSome)
    (h : accountDeleteSigningMessage hash aliasHashes nonce = accountDeleteSigningMessage hash' aliasHashes' nonce') :
    hash = hash' ∧ aliasHashes = aliasHashes' ∧ nonce = nonce' := by
  unfold accountDeleteSigningMessage at h
  have hfree : ∀ {u v : String} {as : List String}, Asks u v →
      (∀ a ∈ as, (IdentityHash.fromHex a).isSome) →
      ∀ f ∈ u :: as ++ [v], '|' ∉ f.toList := by
    intro u v as hasks has f hf
    rcases List.mem_append.mp hf with hf | hf
    · rcases List.mem_cons.mp hf with rfl | hf
      · exact hasks.bar_free.1
      · exact bar_free_of_fromHex (has f hf)
    · exact List.mem_singleton.mp hf ▸ hasks.bar_free.2
  obtain ⟨hhash, htail⟩ := List.cons.inj (barred_inj_of_bar_free (hfree ha hal) (hfree hb hbl) h)
  obtain ⟨haliases, hnonce⟩ := List.append_inj' htail rfl
  exact ⟨hhash, haliases, (List.cons.inj hnonce).1⟩

/-- A signed record is determined by its payload. -/
theorem record_of_payload {C : Crypto} (hC : C.b64d "" = some []) {a b : Statement} (ha : a.Fits)
    (hb : b.Fits) (haa : a.Acceptable C) (hba : b.Acceptable C) (hrecord : a.kind.isRecord = true)
    (h : a.payload = b.payload) :
    a.Same b := by
  have hk := kind_of_payload h
  cases a with
  | entry e =>
    cases b with
    | entry e' =>
      exact congrArg Statement.entry
        (KtEntry.payload_inj ha hb (KtEntry.prev_ne_empty hC haa) (KtEntry.prev_ne_empty hC hba) h)
    | _ => cases hk
  | device u d =>
    cases b with
    | device u' d' =>
      obtain ⟨hu, hd⟩ := DeviceRecord.payload_inj ha.1 hb.1 ha.2 hb.2 h
      exact congrArg₂ Statement.device hu hd
    | _ => cases hk
  | roster r =>
    cases b with
    | roster r' => exact congrArg Statement.roster (KtRosterEntry.payload_inj ha hb h)
    | _ => cases hk
  | groupEpoch e =>
    cases b with
    | groupEpoch e' =>
      exact congrArg Statement.groupEpoch
        (GroupEpoch.payload_inj ha hb (GroupEpoch.prev_ne_empty haa) (GroupEpoch.prev_ne_empty hba) h)
    | _ => cases hk
  | callKey u b₁ =>
    cases b with
    | callKey u' b₂ =>
      obtain ⟨hu, hb'⟩ := CallKeyBinding.payload_inj ha.1 hb.1 ha.2 hb.2 h
      exact congrArg₂ Statement.callKey hu hb'
    | _ => cases hk
  | _ => cases hrecord

/-- A request, or a head, is determined by its payload, unless it is an upload
that can be cut anew. -/
theorem request_of_payload {C : Crypto} {a b : Statement} (ha : a.Fits) (hb : b.Fits)
    (haa : a.Acceptable C) (hba : b.Acceptable C) (hrequest : a.kind.isRecord = false)
    (hcut : ¬ a.Recuts) (h : a.payload = b.payload) :
    a = b := by
  have hk := kind_of_payload h
  cases a with
  | wsAuth hash nonce =>
    cases b with
    | wsAuth hash' nonce' =>
      obtain ⟨hhash, hnonce⟩ := asks_inj haa hba h
      exact congrArg₂ Statement.wsAuth hhash hnonce
    | _ => cases hk
  | ktLeaves hash nonce =>
    cases b with
    | ktLeaves hash' nonce' =>
      obtain ⟨hhash, hnonce⟩ := asks_inj haa hba h
      exact congrArg₂ Statement.ktLeaves hhash hnonce
    | _ => cases hk
  | oneTimeKeys hash keys =>
    cases b with
    | oneTimeKeys hash' keys' =>
      have hlen : keys.length < 2 := Nat.lt_of_not_le fun hlong => hcut (Or.inl hlong)
      obtain ⟨hhash, hkeys⟩ := oneTimeKeys_inj (bar_free_of_fromHex haa) (bar_free_of_fromHex hba) hlen
        (fun k hmem hbar => hcut (Or.inr ⟨k, hmem, hbar⟩)) h
      exact congrArg₂ Statement.oneTimeKeys hhash hkeys
    | _ => cases hk
  | pushRegister hash endpoint nonce =>
    cases b with
    | pushRegister hash' endpoint' nonce' =>
      obtain ⟨hhash, hendpoint, hnonce⟩ := pushRegister_inj haa hba h
      rw [hhash, hendpoint, hnonce]
    | _ => cases hk
  | pushUnregister hash nonce =>
    cases b with
    | pushUnregister hash' nonce' =>
      obtain ⟨hhash, hnonce⟩ := asks_inj haa hba h
      exact congrArg₂ Statement.pushUnregister hhash hnonce
    | _ => cases hk
  | callKeyPublish hash key createdAt nonce =>
    cases b with
    | callKeyPublish hash' key' createdAt' nonce' =>
      obtain ⟨hhash, hkey, hcreated, hnonce⟩ := callKeyPublish_inj haa hba h
      rw [hhash, hkey, hcreated, hnonce]
    | _ => cases hk
  | accountDelete hash aliasHashes nonce =>
    cases b with
    | accountDelete hash' aliasHashes' nonce' =>
      obtain ⟨hhash, haliases, hnonce⟩ := accountDelete_inj haa.1 hba.1 haa.2 hba.2 h
      rw [hhash, haliases, hnonce]
    | _ => cases hk
  | head treeSize root timestamp =>
    cases b with
    | head treeSize' root' timestamp' =>
      obtain ⟨hsize, hroot, htime⟩ := headPayload_inj ha.1 hb.1 ha.2 hb.2 h
      rw [hsize, hroot, htime]
    | _ => cases hk
  | _ => cases hrequest

/-- A statement is determined by its payload, unless it is an upload that can be cut anew. -/
theorem same_of_payload {C : Crypto} (hC : C.b64d "" = some []) {a b : Statement} (ha : a.Fits)
    (hb : b.Fits) (haa : a.Acceptable C) (hba : b.Acceptable C) (hcut : ¬ a.Recuts)
    (h : a.payload = b.payload) : a.Same b := by
  cases hkind : a.kind.isRecord with
  | true => exact record_of_payload hC ha hb haa hba hkind h
  | false => exact congrArg Statement.unsigned (request_of_payload ha hb haa hba hkind hcut h)

/-! ### What a signature is of -/

/-- What is promised of the payloads. -/
structure NoCollision (C : Crypto) : Prop where
  /-- Two kinds never share a payload, for any field values. -/
  kinds : ∀ a b : Statement, a.kind ≠ b.kind → a.payload ≠ b.payload
  /-- A signed record that can be accepted is determined by its payload. -/
  records : ∀ a b : Statement, a.kind.isRecord = true → a.Fits → b.Fits → a.Acceptable C →
    b.Acceptable C →
    a.payload = b.payload → a.Same b

/-- A signature of the statement, good for one message only, is of no other
statement that can be accepted. -/
def SignsOnly (C : Crypto) (a : Statement) : Prop :=
  ∀ good : Bytes → Prop, (∀ m m', good m → good m' → m = m') →
  ∀ b : Statement, b.Fits → b.Acceptable C →
    good a.payload → good b.payload → a.Same b

/-- A key with a bar in it has the pieces of the two that it is cut into. -/
theorem pieces_cut (before after : List String) (x y : List Char) :
    pieces (before ++ String.ofList (x ++ '|' :: y) :: after) =
      pieces (before ++ String.ofList x :: String.ofList y :: after) := by
  simp only [pieces, List.flatMap_append, List.flatMap_cons, String.toList_ofList,
    List.splitOn_append_cons_self, List.append_assoc]

/-- The other way to cut an upload: a key at its bar, or the first two keys as one. -/
theorem exists_recut {h : String} {keys : List String}
    (hcut : (Statement.oneTimeKeys h keys).Recuts) :
    ∃ keys', keys' ≠ keys ∧ oneTimeKeysSigningMessage h keys' =
      oneTimeKeysSigningMessage h keys := by
  simp only [oneTimeKeysSigningMessage_inj]
  rcases hcut with hlong | ⟨k, hk, hbar⟩
  · obtain ⟨k, rest, rfl⟩ := List.exists_cons_of_length_pos (Nat.lt_of_lt_of_le Nat.two_pos hlong)
    obtain ⟨k', rest, rfl⟩ := List.exists_cons_of_length_pos (Nat.le_of_succ_le_succ hlong)
    refine ⟨String.ofList (k.toList ++ '|' :: k'.toList) :: rest, ?_, ?_⟩
    · intro heq
      exact absurd (congrArg List.length heq) (by simp)
    · have hjoin := pieces_cut [] rest k.toList k'.toList
      rwa [String.ofList_toList, String.ofList_toList] at hjoin
  · obtain ⟨before, after, rfl⟩ := List.append_of_mem hk
    obtain ⟨x, y, hxy⟩ := List.append_of_mem hbar
    refine ⟨before ++ String.ofList x :: String.ofList y :: after, ?_, ?_⟩
    · intro heq
      exact absurd (congrArg List.length heq) (by simp)
    · rw [← pieces_cut, ← hxy, String.ofList_toList]

/-- A signature of an upload is of each upload with its message. -/
theorem not_signsOnly {C : Crypto} {h : String} {keys keys' : List String}
    (hhex : (IdentityHash.fromHex h).isSome) (hne : keys' ≠ keys)
    (hmessage : oneTimeKeysSigningMessage h keys' = oneTimeKeysSigningMessage h keys) :
    ¬ SignsOnly C (.oneTimeKeys h keys) := by
  intro hsigns
  have hsame := hsigns (· = oneTimeKeysSigningMessage h keys) (fun _ _ hm hm' => hm.trans hm'.symm)
    (.oneTimeKeys h keys') trivial hhex rfl hmessage
  exact hne (Statement.oneTimeKeys.inj hsame).2.symm

/-- **What a signature is of.** Kinds and signed records never collide, and a signature is of one
statement, unless it is of an upload that can be cut anew. -/
theorem payloads_bind_iff (C : Crypto) (hC : C.b64d "" = some []) :
    NoCollision C ∧ ∀ a : Statement, a.Fits → a.Acceptable C → (SignsOnly C a ↔ ¬ a.Recuts) := by
  refine ⟨⟨fun a b hne h => hne (kind_of_payload h), fun a b hr ha hb haa hba h =>
    record_of_payload hC ha hb haa hba hr h⟩, fun a ha haa => ⟨?_, ?_⟩⟩
  · intro hsigns hcut
    cases a with
    | oneTimeKeys h keys =>
      obtain ⟨keys', hne, hmessage⟩ := exists_recut hcut
      exact not_signsOnly haa hne hmessage hsigns
    | _ => exact hcut
  · intro hcut good hone b hb hba hga hgb
    exact same_of_payload hC ha hb haa hba hcut (hone _ _ hga hgb)

/-- An upload of one key without bars. -/
def oneKeyUpload : Statement := .oneTimeKeys bobHash ["k1"]

/-- With real keys: a binding that its account signed, and an upload of one
key, are signed alone. -/
theorem payloads_bind_bob :
    (sampleRelay bobSigned).crypto.b64d "" = some [] ∧ NoCollision (sampleRelay bobSigned).crypto ∧
      SignsOnly (sampleRelay bobSigned).crypto (.entry bobEntry) ∧
      SignsOnly (sampleRelay bobSigned).crypto oneKeyUpload := by
  have hC : (sampleRelay bobSigned).crypto.b64d "" = some [] := by decide +kernel
  have hbob : bobEntry.verifySignature (sampleRelay bobSigned).crypto = true := by decide +kernel
  have hstrings : ∀ s ∈ [bobHash, bobEntry.identityKey, bobKey, ""], (utf8 s).length < 2 ^ 64 := by
    decide +kernel
  have hfits : (Statement.entry bobEntry).Fits := ⟨hstrings, by decide, by decide⟩
  have hupload : oneKeyUpload.Acceptable (sampleRelay bobSigned).crypto := by
    show (IdentityHash.fromHex bobHash).isSome
    decide +kernel
  refine ⟨hC, (payloads_bind_iff _ hC).1, ?_, ?_⟩
  · exact ((payloads_bind_iff _ hC).2 _ hfits hbob).mpr fun hcut => hcut
  · refine ((payloads_bind_iff _ hC).2 oneKeyUpload trivial hupload).mpr fun hcut => ?_
    rcases hcut with hlong | ⟨k, hk, hbar⟩
    · exact absurd hlong (by decide)
    · rw [List.mem_singleton.mp hk] at hbar
      exact absurd hbar (by decide)

/-- **One signature, two uploads.** What the account signs for two keys, it signs for the one key
with a bar between them, and the relay accepts either. -/
theorem upload_signs_two :
    bobAsks.accepts (sampleRelay twoSigned) { bobUploads with oneTimeKeys := ["k1", "k2"] } ∧
      bobAsks.accepts (sampleRelay twoSigned) { bobUploads with oneTimeKeys := ["k1|k2"] } ∧
      ¬ ∀ a : Statement, a.Fits → a.Acceptable (sampleRelay twoSigned).crypto →
        SignsOnly (sampleRelay twoSigned).crypto a := by
  have hmessage : oneTimeKeysSigningMessage bobHash ["k1|k2"] =
      oneTimeKeysSigningMessage bobHash ["k1", "k2"] := by
    decide +kernel
  have htwo := bobAsks_accepts ["k1", "k2"] rfl
  refine ⟨htwo, bobAsks_accepts ["k1|k2"] hmessage, fun hall => ?_⟩
  have hhex : (IdentityHash.fromHex bobHash).isSome := acceptable_of_accepts htwo
  exact not_signsOnly hhex (by decide) hmessage
    (hall (.oneTimeKeys bobHash ["k1", "k2"]) trivial hhex)

end Sona
