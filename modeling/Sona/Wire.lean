/-
# What crosses the wire

`protocol-types`: the routing hash, the two mailboxes derived from it for a
device, the messages that clients sign and the envelope. A routing hash is a
string; `IdentityHash.fromHex` is the only check it passes, and it trims and
lower-cases before it looks, so that what it returns is `Canonical`
(`IdentityHash.canonical_of_fromHex`), while the tables of the relay are keyed
by strings as they were sent.

SHA-256 is the `sha2` crate's: a parameter (`Sha256`) that is collision free.
The bytes it is given start with one of two fixed words and hold the base
hash in 64 characters, so the derived mailboxes of different accounts,
devices and kinds are different strings (`deviceMailbox_inj`,
`callMailbox_inj`, `deviceMailbox_ne_callMailbox`).
-/
import Mathlib.Algebra.Group.Nat.Defs
import Mathlib.Data.List.Basic
import Mathlib.Order.MinMax

namespace Sona

/-! ### Machine words and bytes -/

/-- The largest `u64`. -/
def u64Max : ℕ := 2 ^ 64 - 1

/-- `u64::saturating_add`. -/
def saturatingAdd (a b : ℕ) : ℕ := min (a + b) u64Max

theorem saturatingAdd_le (a b : ℕ) : saturatingAdd a b ≤ a + b := min_le_left _ _

theorem saturatingAdd_mono {a b c d : ℕ} (h : a ≤ b) (h' : c ≤ d) :
    saturatingAdd a c ≤ saturatingAdd b d := by
  unfold saturatingAdd
  omega

abbrev Bytes := List UInt8

/-- The bytes of a string. -/
def utf8 (s : String) : Bytes := s.toByteArray.data.toList

theorem utf8_toList (s : String) : utf8 s = s.toList.flatMap String.utf8EncodeChar := by
  rw [utf8, ← String.utf8Encode_toList, List.utf8Encode, List.data_toByteArray]

theorem utf8_inj {s t : String} (h : utf8 s = utf8 t) : s = t := by
  apply String.toByteArray_inj.mp
  apply ByteArray.ext
  exact Array.toList_inj.mp h

/-- An ASCII string has as many bytes as characters. -/
theorem utf8_ofList_length {cs : List Char} (h : ∀ c ∈ cs, c.toNat ≤ 127) :
    (utf8 (String.ofList cs)).length = cs.length := by
  have h1 : ∀ c ∈ cs, (String.utf8EncodeChar c).length = 1 := by
    intro c hc
    rw [String.length_utf8EncodeChar, Char.utf8Size_eq_one_iff]
    exact UInt32.le_iff_toNat_le.mpr (h c hc)
  rw [utf8_toList, String.toList_ofList, List.length_flatMap, List.map_congr_left h1]
  simp

/-! ### The routing hash -/

/-- `char::is_whitespace`: the code points with the White_Space property. -/
def isWhitespace (c : Char) : Bool :=
  let n := c.toNat
  (9 ≤ n && n ≤ 13) || n == 0x20 || n == 0x85 || n == 0xA0 || n == 0x1680 ||
    (0x2000 ≤ n && n ≤ 0x200A) || n == 0x2028 || n == 0x2029 || n == 0x202F || n == 0x205F ||
    n == 0x3000

/-- `str::trim`. -/
def trim (cs : List Char) : List Char :=
  ((cs.dropWhile isWhitespace).reverse.dropWhile isWhitespace).reverse

/-- `u8::is_ascii_hexdigit`, of a character: the bytes of a character outside
ASCII are no hex digits either. -/
def isAsciiHexdigit (c : Char) : Bool :=
  ('0' ≤ c && c ≤ '9') || ('a' ≤ c && c ≤ 'f') || ('A' ≤ c && c ≤ 'F')

/-- SHA-256 of an account identifier, hex-encoded: the address of a mailbox. -/
structure IdentityHash where
  asStr : String
deriving DecidableEq, Repr

/-- `IdentityHash::from_hex`: a hash of 64 hex characters, trimmed and
lower-cased. Rust lower-cases all of Unicode, but no character outside ASCII
lower-cases to a hex digit, so ASCII decides which strings pass. -/
def IdentityHash.fromHex (s : String) : Option IdentityHash :=
  let cs := (trim s.toList).map Char.toLower
  if cs.length = 64 ∧ cs.all isAsciiHexdigit then some ⟨String.ofList cs⟩ else none

/-- A spelling that `fromHex` leaves as it is. -/
def Canonical (s : String) : Prop := IdentityHash.fromHex s = some ⟨s⟩

instance (s : String) : Decidable (Canonical s) := inferInstanceAs (Decidable (_ = _))

theorem not_isWhitespace_of_hexdigit {c : Char} (h : isAsciiHexdigit c = true) :
    isWhitespace c = false := by
  simp only [isAsciiHexdigit, Bool.or_eq_true, Bool.and_eq_true, decide_eq_true_eq, Char.le_def,
    UInt32.le_iff_toNat_le] at h
  have hn : c.toNat = c.val.toNat := rfl
  simp only [isWhitespace, Bool.or_eq_false_iff, Bool.and_eq_false_imp, decide_eq_true_eq,
    decide_eq_false_iff_not, beq_eq_false_iff_ne, hn]
  rcases h with (⟨h1, h2⟩ | ⟨h1, h2⟩) | ⟨h1, h2⟩ <;> simp at h1 h2 <;> omega

theorem trim_of_hexdigits {cs : List Char} (h : cs.all isAsciiHexdigit = true) : trim cs = cs := by
  have hd : ∀ l : List Char, l.all isAsciiHexdigit = true → l.dropWhile isWhitespace = l := by
    intro l hl
    cases l with
    | nil => rfl
    | cons c l =>
      simp only [List.all_cons, Bool.and_eq_true] at hl
      simp [not_isWhitespace_of_hexdigit hl.1]
  unfold trim
  rw [hd cs h, hd cs.reverse (by simpa using h), List.reverse_reverse]

theorem toLower_idem (c : Char) : c.toLower.toLower = c.toLower := by
  unfold Char.toLower
  split
  · rename_i h
    -- an upper-case letter moves up by 32, out of the upper-case range
    have h1 : c.val.toNat ≥ 65 := by simpa [UInt32.le_iff_toNat_le] using h.1
    have h2 : c.val.toNat ≤ 90 := by simpa [UInt32.le_iff_toNat_le] using h.2
    have h3 : ('a'.val - 'A'.val).toNat = 32 := by decide
    have h4 : 'Z'.val.toNat = 90 := by decide
    rw [dif_neg]
    simp only [UInt32.le_iff_toNat_le, UInt32.toNat_add, ge_iff_le]
    rw [h3, h4]
    omega
  · rfl

/-- A hash that passed the check is spelled canonically. -/
theorem IdentityHash.canonical_of_fromHex {s : String} {h : IdentityHash}
    (hs : IdentityHash.fromHex s = some h) : Canonical h.asStr := by
  unfold IdentityHash.fromHex at hs
  simp only at hs
  split at hs
  · rename_i hc
    cases hs
    obtain ⟨hlen, hall⟩ := hc
    unfold Canonical IdentityHash.fromHex
    have hlow : (List.map Char.toLower (trim s.toList)).map Char.toLower =
        List.map Char.toLower (trim s.toList) := by
      rw [List.map_map]
      exact List.map_congr_left fun c _ => toLower_idem c
    simp only [String.toList_ofList, trim_of_hexdigits hall, hlow]
    rw [if_pos ⟨hlen, hall⟩]
  · cases hs

/-- A canonical hash is 64 bytes long. -/
theorem Canonical.utf8_length {s : String} (h : Canonical s) : (utf8 s).length = 64 := by
  unfold Canonical IdentityHash.fromHex at h
  simp only at h
  split at h
  · rename_i hc
    simp only [Option.some.injEq, IdentityHash.mk.injEq] at h
    rw [← h, utf8_ofList_length, hc.1]
    intro c hc'
    have hd := List.all_eq_true.mp hc.2 c hc'
    simp only [isAsciiHexdigit, Bool.or_eq_true, Bool.and_eq_true, decide_eq_true_eq, Char.le_def,
      UInt32.le_iff_toNat_le] at hd
    have hn : c.toNat = c.val.toNat := rfl
    rcases hd with (⟨h1, h2⟩ | ⟨h1, h2⟩) | ⟨h1, h2⟩ <;> simp at h1 h2 <;> omega
  · cases h

/-! ### Derived mailboxes -/

/-- `sha2`'s SHA-256, hex-encoded, as far as this code relies on it: it is
collision free. -/
structure Sha256 where
  hex : Bytes → String
  hex_injective : Function.Injective hex

/-- The reserved id of an account's primary device. -/
def primaryDeviceId : String := "0"

/-- The mailbox derived for a device under the domain `tag`: its bytes are the
tag, the account's mailbox, a bar and the device id. -/
def Sha256.derived (H : Sha256) (tag base deviceId : String) : String :=
  H.hex (utf8 tag ++ utf8 base ++ utf8 "|" ++ utf8 deviceId)

/-- The message mailbox of a linked device. -/
def Sha256.deviceMailbox (H : Sha256) (base deviceId : String) : String :=
  H.derived "sona-device-mailbox-v1|" base deviceId

/-- The call-control mailbox of a device. -/
def Sha256.callMailbox (H : Sha256) (base deviceId : String) : String :=
  H.derived "sona-call-mailbox-v1|" base deviceId

/-- `device_mailbox_hash`: the primary keeps the account's mailbox, a linked
device gets its own. -/
def deviceMailboxHash (H : Sha256) (usernameHash deviceId : String) : Option IdentityHash := do
  let base ← IdentityHash.fromHex usernameHash
  if deviceId = primaryDeviceId then return base
  return ⟨H.deviceMailbox base.asStr deviceId⟩

/-- `call_mailbox_hash`: every device, the primary included, gets its own. -/
def callMailboxHash (H : Sha256) (usernameHash deviceId : String) : Option IdentityHash := do
  let base ← IdentityHash.fromHex usernameHash
  return ⟨H.callMailbox base.asStr deviceId⟩

section derived

variable (H : Sha256) {b b' d d' : String}

theorem deviceMailboxHash_primary (hb : Canonical b) :
    deviceMailboxHash H b primaryDeviceId = some ⟨b⟩ := by
  simp [deviceMailboxHash, show IdentityHash.fromHex b = some ⟨b⟩ from hb]

theorem derived_inj {tag : String} (hb : Canonical b) (hb' : Canonical b')
    (h : H.derived tag b d = H.derived tag b' d') : b = b' ∧ d = d' := by
  have h := H.hex_injective h
  simp only [List.append_assoc] at h
  have h := List.append_cancel_left h
  -- the bases have the same length, so the bytes split at the same place
  obtain ⟨h1, h2⟩ := List.append_inj h (by rw [hb.utf8_length, hb'.utf8_length])
  exact ⟨utf8_inj h1, utf8_inj (List.append_cancel_left h2)⟩

theorem deviceMailbox_inj (hb : Canonical b) (hb' : Canonical b')
    (h : H.deviceMailbox b d = H.deviceMailbox b' d') : b = b' ∧ d = d' := derived_inj H hb hb' h

theorem callMailbox_inj (hb : Canonical b) (hb' : Canonical b')
    (h : H.callMailbox b d = H.callMailbox b' d') : b = b' ∧ d = d' := derived_inj H hb hb' h

/-- A message mailbox is never a call-control mailbox: the domains differ. -/
theorem deviceMailbox_ne_callMailbox : H.deviceMailbox b d ≠ H.callMailbox b' d' := by
  intro h
  have h := congrArg (List.take 6) (H.hex_injective h)
  simp only [List.append_assoc] at h
  rw [List.take_append_of_le_length (by decide), List.take_append_of_le_length (by decide)] at h
  revert h
  decide

end derived

/-! ### Signed messages -/

/-- The messages that name a domain and then fields, each behind a bar. -/
def barred (domain : String) (fields : List String) : Bytes :=
  utf8 domain ++ fields.flatMap fun f => utf8 "|" ++ utf8 f

/-- The decoded length of a login nonce. -/
def wsAuthNonceLen : ℕ := 32

def wsAuthSigningMessage (mailboxHash nonce : String) : Bytes :=
  barred "sona-ws-auth-v1" [mailboxHash, nonce]

def ktLeavesSigningMessage (identityHash nonce : String) : Bytes :=
  barred "sona-kt-leaves-v1" [identityHash, nonce]

def oneTimeKeysSigningMessage (identityHash : String) (oneTimeKeys : List String) : Bytes :=
  barred "sona-otk-upload-v1" (identityHash :: oneTimeKeys)

def pushRegisterSigningMessage (identityHash endpoint nonce : String) : Bytes :=
  barred "sona-push-register-v1" [identityHash, endpoint, nonce]

def callKeyPublishSigningMessage (mailboxHash callKey : String) (createdAt : ℕ) (nonce : String) :
    Bytes :=
  barred "sona-call-key-publish-v1" [mailboxHash, callKey, toString createdAt, nonce]

def pushUnregisterSigningMessage (identityHash nonce : String) : Bytes :=
  barred "sona-push-unregister-v1" [identityHash, nonce]

def accountDeleteSigningMessage (identityHash : String) (aliasHashes : List String)
    (nonce : String) : Bytes :=
  barred "sona-account-delete-v1" (identityHash :: aliasHashes ++ [nonce])

/-! ### Envelopes -/

/-- The kind of payload an envelope carries. -/
inductive PayloadKind
  | message
  | contactRequest
  | deviceSync
  | callCapsule
deriving DecidableEq, Repr

/-- The wake the sender asks for. -/
inductive WakeClass
  | none
  | normal
  | call
  | callControl
deriving DecidableEq, Repr

/-- One unit of traffic: `recipient` is the field `to` of the wire format. -/
structure Envelope where
  recipient : IdentityHash
  ciphertext : String
  kind : PayloadKind
  msgId : String
  expiresAt : Option ℕ
  wake : WakeClass
  rawIdentifier : Option String
deriving DecidableEq, Repr

/-- The zero-knowledge rule: no raw identifier. -/
def Envelope.isZkClean (env : Envelope) : Bool := env.rawIdentifier.isNone

end Sona
