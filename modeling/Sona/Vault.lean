/-
# The vault

What a device keeps of an account at rest: `crypto-core/src/vault.rs`, the account of
`crypto-core/src/lib.rs` and the wrapped keys of `crypto-core/src/quick.rs`.

The payload is sealed under a key that Argon2id makes of the password (version 1), and
HKDF of that and of a key of the device (version 2). An open account keeps the key it
was opened with (`SealKey`), so that it can be sealed again without the password. A quick
unlock is a copy of that key, sealed under a PIN and the key of the device, or under
the key of the device alone; its header says which and is bound to it.

What the code draws at random is an argument. The cipher and the key derivations are
parameters (`Aead`, `Kdf`), as are the reader of JSON texts and the policy for passwords.

Key definitions: `Vault.SealKey`, `Vault.sealWithKey`, `Vault.openKeepingKey`, `Vault.Account`,
`Vault.wrapSealKeyPin`, `Vault.unwrapSealKeyPin`.
Key theorems: `Vault.openKeepingKey_sealWithKey`, `Vault.unlockBound_reseal`,
`Vault.unwrapSealKeyPin_wrap`.
-/
import Sona.Lib.JsonRecord
import Sona.Sessions

namespace Sona.Vault

/-! ### Keys -/

/-- So many bytes. -/
abbrev Block (n : ℕ) : Type := { b : Bytes // b.length = n }

def saltLen : ℕ := 16

def nonceLen : ℕ := 24

def keyLen : ℕ := 32

/-- A slice of a blob that is long enough. -/
def blockAt (blob : Bytes) (start n : ℕ) (h : start + n ≤ blob.length) : Block n :=
  ⟨(blob.drop start).take n, by simp; omega⟩

theorem blockAt_append {n : ℕ} (front : Bytes) (b : Block n) (rest : Bytes) {start : ℕ}
    (hstart : front.length = start) (h : start + n ≤ (front ++ (b.1 ++ rest)).length) :
    blockAt (front ++ (b.1 ++ rest)) start n h = b := by
  subst hstart
  have htake : b.1.take n = b.1 := List.take_of_length_le b.2.le
  exact Subtype.ext (by simp [blockAt, List.take_append_of_le_length b.2.ge, htake])

/-- Argon2id of a password and a salt, and HKDF-SHA256 of a salt, key material and a label. -/
structure Kdf where
  argon : Bytes → Bytes → Except String (Block keyLen)
  hkdf : Bytes → Bytes → Bytes → Block keyLen

inductive VaultError
  | decryption
  | malformed
  | badVersion
  | deviceKeyRequired
  | kdf (text : String)
deriving DecidableEq, Repr

/-- Argon2id, with its failure. -/
def deriveKey (K : Kdf) (password : String) (salt : Block saltLen) :
    Except VaultError (Block keyLen) :=
  (K.argon (utf8 password) salt.1).mapError .kdf

def deriveKeyV2 (K : Kdf) (password : String) (deviceKey : Block keyLen) (salt : Block saltLen) :
    Except VaultError (Block keyLen) := do
  let argon ← deriveKey K password salt
  return K.hkdf salt.1 (argon.1 ++ deviceKey.1) (utf8 "sona-vault-v2 wrapping key")

/-- The two formats: with a password alone, and bound to a device. -/
inductive Version
  | v1
  | v2
deriving DecidableEq, Repr

def Version.byte : Version → UInt8
  | .v1 => 1
  | .v2 => 2

def Version.ofByte (b : UInt8) : Option Version :=
  if b = 1 then some .v1 else if b = 2 then some .v2 else none

@[simp] theorem Version.ofByte_byte (v : Version) : ofByte v.byte = some v := by cases v <;> rfl

/-- A key that a vault is sealed under, with the salt and the version it was derived for. -/
structure SealKey where
  key : Block keyLen
  salt : Block saltLen
  version : Version
deriving DecidableEq

namespace SealKey

def toBytes (k : SealKey) : Bytes := k.version.byte :: (k.salt.1 ++ k.key.1)

def fromBytes (bytes : Bytes) : Except VaultError SealKey :=
  if h : bytes.length = 1 + saltLen + keyLen then
    match Version.ofByte (bytes.headD 0) with
    | none => .error .badVersion
    | some version =>
      .ok { key := blockAt bytes (1 + saltLen) keyLen (by omega), salt := blockAt bytes 1 saltLen (by omega), version }
  else .error .malformed

theorem fromBytes_toBytes (k : SealKey) : fromBytes k.toBytes = .ok k := by
  have hlen : k.toBytes.length = 1 + saltLen + keyLen := by
    simp only [toBytes, List.length_cons, List.length_append, k.salt.2, k.key.2]
    omega
  have hsalt : blockAt k.toBytes 1 saltLen (by omega) = k.salt :=
    blockAt_append [k.version.byte] k.salt k.key.1 rfl _
  have hkey : blockAt k.toBytes (1 + saltLen) keyLen (by omega) = k.key := by
    have happ : k.toBytes = (k.version.byte :: k.salt.1) ++ (k.key.1 ++ []) := by simp [toBytes]
    have hfront : (k.version.byte :: k.salt.1).length = 1 + saltLen := by
      simp only [List.length_cons, k.salt.2]; omega
    have hblock := blockAt_append (k.version.byte :: k.salt.1) k.key [] hfront (happ ▸ hlen.ge)
    simp only [← happ] at hblock
    exact hblock
  rw [fromBytes, dif_pos hlen]
  simp only [hsalt, hkey]
  simp [toBytes]

end SealKey

/-! ### The payload -/

/-- What a vault protects. -/
structure VaultPayload where
  accountId : String
  secretState : Bytes
  dataKey : Bytes
deriving DecidableEq

/-- Bytes as serde writes them: a list of numbers. -/
def byteList : JsonCodec Bytes :=
  (JsonCodec.uint 255).list.map (fun ns => ns.map UInt8.ofNat) (fun bs => bs.map UInt8.toNat) fun bs => by
    rw [List.map_map]
    exact (List.map_congr_left fun _ _ => UInt8.ofNat_toNat).trans (List.map_id' bs)

theorem byteList_ok (bs : Bytes) : byteList.ok bs := by
  intro n hn
  obtain ⟨b, -, rfl⟩ := List.mem_map.mp hn
  have := b.toNat_lt
  change b.toNat ≤ 255
  omega

/-- A vault of before the data key has none. -/
def payloadRecord : JsonRecord (String × Bytes × Bytes × Unit) :=
  .cons (.required "account_id" .str) (.cons (.required "secret_state" byteList)
    (.cons (.defaulted "data_key" byteList []) .nil))

def payloadCodec : JsonCodec VaultPayload :=
  (payloadRecord.codec (by decide)).map (fun p => ⟨p.1, p.2.1, p.2.2.1⟩) (fun p => (p.accountId, p.secretState, p.dataKey, ()))
    fun _ => rfl

theorem payloadCodec_ok (p : VaultPayload) : payloadCodec.ok p :=
  ⟨trivial, byteList_ok p.secretState, byteList_ok p.dataKey, trivial⟩

/-! ### Sealing and opening -/

/-- What the vault is made with: the key derivations, the cipher, the reader of JSON texts, and what
is wrong with a password. -/
structure Kit where
  kdf : Kdf
  aead : Aead
  fromSlice : Bytes → Option Json
  checkPassword : String → List String

variable (D : Kit)

/-- "SCV1" -/
def vaultMagic : Bytes := [0x53, 0x43, 0x56, 0x31]

def vaultHeader : ℕ := 4 + 1 + saltLen + nonceLen

def deriveSealKey (password : String) (deviceKey : Option (Block keyLen)) (salt : Block saltLen) :
    Except VaultError SealKey :=
  match deviceKey with
  | none => (deriveKey D.kdf password salt).map fun key => { key, salt, version := .v1 }
  | some dk => (deriveKeyV2 D.kdf password dk salt).map fun key => { key, salt, version := .v2 }

def sealWithKey (k : SealKey) (payload : VaultPayload) (nonce : Block nonceLen) : Bytes :=
  vaultMagic ++ k.version.byte :: (k.salt.1 ++ (nonce.1 ++
    D.aead.encrypt k.key.1 nonce.1 [] (toVec (payloadCodec.write payload))))

/-- The payload that is sealed behind a header. -/
def openUnderKey (key : Block keyLen) (blob : Bytes) : Except VaultError VaultPayload :=
  match D.aead.decrypt key.1 ((blob.drop (5 + saltLen)).take nonceLen) [] (blob.drop vaultHeader) with
  | none => .error .decryption
  | some plaintext =>
    match (D.fromSlice plaintext).bind payloadCodec.read with
    | none => .error .malformed
    | some payload => .ok payload

def openWithSealKey (k : SealKey) (blob : Bytes) : Except VaultError VaultPayload :=
  if blob.length < vaultHeader ∨ blob.take 4 ≠ vaultMagic then .error .malformed else openUnderKey D k.key blob

def openKeepingKey (password : String) (deviceKey : Option (Block keyLen)) (blob : Bytes) :
    Except VaultError (VaultPayload × SealKey) :=
  if h : blob.length < vaultHeader then .error .malformed else
  if blob.take 4 ≠ vaultMagic then .error .malformed else do
  let salt := blockAt blob 5 saltLen (by unfold vaultHeader at h; omega)
  let (key, version) ←
    match Version.ofByte (blob.getD 4 0), deviceKey with
    | some .v1, _ => (deriveKey D.kdf password salt).map fun key => (key, Version.v1)
    | some .v2, some dk => (deriveKeyV2 D.kdf password dk salt).map fun key => (key, Version.v2)
    | some .v2, none => .error .deviceKeyRequired
    | none, _ => .error .badVersion
  let payload ← openUnderKey D key blob
  return (payload, { key, salt, version })

/-! ### Layout -/

/-- Where the parts of a blob stand:
`magic(4) || byte(1) || salt(16) || nonce(24) || ciphertext`. -/
structure Layout (blob magic : Bytes) (b : UInt8) (salt : Block saltLen) (nonce : Block nonceLen)
    (ct : Bytes) : Prop where
  length_ge : vaultHeader ≤ blob.length
  take_magic : blob.take 4 = magic
  get_byte : blob.getD 4 0 = b
  block_salt : ∀ h, blockAt blob 5 saltLen h = salt
  take_nonce : (blob.drop (5 + saltLen)).take nonceLen = nonce.1
  drop_header : blob.drop vaultHeader = ct
  take_header : blob.take (5 + saltLen) = magic ++ b :: salt.1

theorem layout_of_parts {magic : Bytes} (hmagic : magic.length = 4) (b : UInt8)
    (salt : Block saltLen) (nonce : Block nonceLen) (ct : Bytes) :
    Layout (magic ++ b :: (salt.1 ++ (nonce.1 ++ ct))) magic b salt nonce ct := by
  have hsalt := salt.2
  have hnonce := nonce.2
  have hheader : magic ++ b :: (salt.1 ++ (nonce.1 ++ ct)) =
      (magic ++ b :: salt.1) ++ (nonce.1 ++ ct) := by simp
  have hlen : (magic ++ b :: salt.1).length = 5 + saltLen := by
    simp only [List.length_append, List.length_cons, hmagic, hsalt]
    omega
  refine ⟨?_, ?_, ?_, fun h => ?_, ?_, ?_, ?_⟩
  · simp only [List.length_append, List.length_cons, hmagic, hsalt, hnonce, vaultHeader]
    omega
  · rw [List.take_left' hmagic]
  · rw [List.getD_eq_getElem?_getD, List.getElem?_append_right hmagic.le, hmagic]
    rfl
  · have happ : magic ++ b :: (salt.1 ++ (nonce.1 ++ ct)) =
        (magic ++ [b]) ++ (salt.1 ++ (nonce.1 ++ ct)) := by simp
    have hfive : (magic ++ [b]).length = 5 := by simp [hmagic]
    have hblock := blockAt_append (magic ++ [b]) salt (nonce.1 ++ ct) hfive (happ ▸ h)
    simp only [← happ] at hblock
    exact hblock
  · rw [hheader, List.drop_left' hlen, List.take_left' hnonce]
  · have happ : (magic ++ b :: salt.1) ++ (nonce.1 ++ ct) =
        ((magic ++ b :: salt.1) ++ nonce.1) ++ ct := by simp
    have hfront : ((magic ++ b :: salt.1) ++ nonce.1).length = vaultHeader := by
      rw [List.length_append, hlen, hnonce]
      rfl
    rw [hheader, happ, List.drop_left' hfront]
  · rw [hheader, List.take_left' hlen]

variable {D}

/-- What is documented of the parts: texts of JSON are read as what they were written from, what was
sealed opens, and whether Argon2id takes a password does not hang on which salt it is. -/
structure Kit.Lawful (D : Kit) : Prop where
  opens : D.aead.Opens
  read : ∀ j, D.fromSlice (toVec j) = some j
  salts : ∀ password (s s' : Block saltLen), (D.kdf.argon password s.1).isOk →
    (D.kdf.argon password s'.1).isOk

theorem sealWithKey_layout (D : Kit) (k : SealKey) (p : VaultPayload) (nonce : Block nonceLen) :
    Layout (sealWithKey D k p nonce) vaultMagic k.version.byte k.salt nonce
      (D.aead.encrypt k.key.1 nonce.1 [] (toVec (payloadCodec.write p))) :=
  layout_of_parts (by decide) _ _ _ _

theorem openUnderKey_sealWithKey (hD : D.Lawful) (k : SealKey) (p : VaultPayload)
    (nonce : Block nonceLen) :
    openUnderKey D k.key (sealWithKey D k p nonce) = .ok p := by
  have hl := sealWithKey_layout D k p nonce
  have hread := payloadCodec.read_write p (payloadCodec_ok p)
  unfold openUnderKey
  rw [hl.take_nonce, hl.drop_header, hD.opens.open_seal]
  dsimp only
  rw [hD.read, Option.bind_some, hread]

theorem openWithSealKey_sealWithKey (hD : D.Lawful) (k : SealKey) (p : VaultPayload)
    (nonce : Block nonceLen) :
    openWithSealKey D k (sealWithKey D k p nonce) = .ok p := by
  have hl := sealWithKey_layout D k p nonce
  have hlen := hl.length_ge
  rw [openWithSealKey, if_neg (by simp [hl.take_magic, hlen]), openUnderKey_sealWithKey hD]

/-- **A vault that was sealed again opens with the password**: with the key of
the device where it is bound to one. -/
theorem openKeepingKey_sealWithKey (hD : D.Lawful) {password : String}
    {deviceKey : Option (Block keyLen)} {salt : Block saltLen} {k : SealKey}
    (hk : deriveSealKey D password deviceKey salt = .ok k) (p : VaultPayload)
    (nonce : Block nonceLen) {given : Option (Block keyLen)}
    (hgiven : k.version = .v2 → given = deviceKey) :
    openKeepingKey D password given (sealWithKey D k p nonce) = .ok (p, k) := by
  have hl := sealWithKey_layout D k p nonce
  have hopen := openUnderKey_sealWithKey hD k p nonce
  unfold openKeepingKey
  rw [dif_neg (by have := hl.length_ge; omega), if_neg (by rw [hl.take_magic]; simp), hl.get_byte,
    hl.block_salt, Version.ofByte_byte]
  unfold deriveSealKey at hk
  cases deviceKey with
  | none =>
    dsimp only at hk
    cases hkey : deriveKey D.kdf password salt with
    | error e => simp [hkey, Except.map] at hk
    | ok key =>
      rw [hkey] at hk
      obtain rfl : ({ key, salt, version := .v1 } : SealKey) = k := by simpa [Except.map] using hk
      simp only at hopen
      simp [hkey, hopen, Except.map, bind, Except.bind, pure, Except.pure]
  | some dk =>
    dsimp only at hk
    cases hkey : deriveKeyV2 D.kdf password dk salt with
    | error e => simp [hkey, Except.map] at hk
    | ok key =>
      rw [hkey] at hk
      obtain rfl : ({ key, salt, version := .v2 } : SealKey) = k := by simpa [Except.map] using hk
      obtain rfl := hgiven rfl
      simp only at hopen
      simp [hkey, hopen, Except.map, bind, Except.bind, pure, Except.pure]

/-! ### Accounts -/

inductive AccountError
  | weakPassword (text : String)
  | vault (e : VaultError)
  | ratchet (e : RatchetError)
  | legacyVault
deriving DecidableEq, Repr

/-- An unlocked account: the ratchet, the name, the key for local data, and the
key that the vault is sealed under. -/
structure Account (V : Vodozemac) where
  engine : RatchetEngine V
  accountId : String
  dataKey : Block keyLen
  sealKey : SealKey

section account

variable (D : Kit) {V : Vodozemac}

def Account.payload (a : Account V) : VaultPayload :=
  { accountId := a.accountId, secretState := a.engine.exportState, dataKey := a.dataKey.1 }

def Account.reseal (a : Account V) (nonce : Block nonceLen) : Bytes :=
  sealWithKey D a.sealKey a.payload nonce

/-- The new key is the account's from here on. -/
def Account.rekey (a : Account V) (newPassword : String) (deviceKey : Option (Block keyLen))
    (salt : Block saltLen) (nonce : Block nonceLen) : Except AccountError (Bytes × Account V) :=
  match D.checkPassword newPassword with
  | [] => do
    let sealKey ← (deriveSealKey D newPassword deviceKey salt).mapError .vault
    let a := { a with sealKey }
    return (a.reseal D nonce, a)
  | problems => .error (.weakPassword (", ".intercalate problems))

/-- A username as it is kept: without the white space around it, of 1 to 64 bytes. -/
def usernameOf (username : String) : Except AccountError String :=
  let username := String.ofList (trim username.toList)
  if username.isEmpty || 64 < username.utf8ByteSize then .error (.weakPassword "username must be 1..=64 characters")
  else .ok username

def Account.rename (a : Account V) (newUsername : String) : Except AccountError (Account V) :=
  (usernameOf newUsername).map fun accountId => { a with accountId }

/-- The ratchet and the data key of a payload; a vault of before the data key is refused. -/
def importPayload (payload : VaultPayload) : Except AccountError (RatchetEngine V × Block keyLen) :=
  do
  let engine ← (RatchetEngine.importState D.fromSlice payload.secretState).mapError .ratchet
  if h : payload.dataKey.length = keyLen then return (engine, ⟨payload.dataKey, h⟩) else throw .legacyVault

def unlockWithSealKey (sealKeyBytes vaultBlob : Bytes) : Except AccountError (Account V) := do
  let sealKey ← (SealKey.fromBytes sealKeyBytes).mapError .vault
  let payload ← (openWithSealKey D sealKey vaultBlob).mapError .vault
  let (engine, dataKey) ← importPayload D payload
  return { engine, accountId := payload.accountId, dataKey, sealKey }

/-- A vault of version 1 that is opened where there is a key of the device gets
a new key, bound to the device. -/
def unlockBound (password : String) (deviceKey : Option (Block keyLen)) (salt : Block saltLen)
    (vaultBlob : Bytes) :
    Except AccountError (Account V) := do
  let (payload, openedKey) ← (openKeepingKey D password deviceKey vaultBlob).mapError .vault
  let (engine, dataKey) ← importPayload D payload
  let sealKey ←
    if vaultBlob[4]? = some 1 ∧ deviceKey.isSome then (deriveSealKey D password deviceKey salt).mapError .vault
    else pure openedKey
  return { engine, accountId := payload.accountId, dataKey, sealKey }

end account

/-! ### Quick unlock -/

section quick

variable (D : Kit)

/-- "SQK1" -/
def quickMagic : Bytes := [0x53, 0x51, 0x4B, 0x31]

inductive Kind
  | pin
  | auto
deriving DecidableEq, Repr

def Kind.byte : Kind → UInt8
  | .pin => 1
  | .auto => 2

def pinKek (pin : String) (deviceKey : Block keyLen) (salt : Block saltLen) :
    Except VaultError (Block keyLen) := do
  let stretched ← deriveKey D.kdf pin salt
  return D.kdf.hkdf salt.1 (stretched.1 ++ deviceKey.1) (utf8 "sona-quick-unlock-pin-v1")

def autoKek (deviceKey : Block keyLen) (salt : Block saltLen) : Block keyLen :=
  D.kdf.hkdf salt.1 deviceKey.1 (utf8 "sona-quick-unlock-auto-v1")

/-- The header is bound to what it heads. -/
def wrap (kind : Kind) (kek : Block keyLen) (salt : Block saltLen) (sealKey : SealKey)
    (nonce : Block nonceLen) : Bytes :=
  let header := quickMagic ++ kind.byte :: salt.1
  header ++ (nonce.1 ++ D.aead.encrypt kek.1 nonce.1 header sealKey.toBytes)

def unwrap (kind : Kind) (blob : Bytes)
    (kekForSalt : Block saltLen → Except VaultError (Block keyLen)) :
    Except VaultError SealKey :=
  if h : blob.length < vaultHeader then .error .malformed else
  if blob.take 4 ≠ quickMagic ∨ blob.getD 4 0 ≠ kind.byte then .error .malformed else do
  let salt := blockAt blob 5 saltLen (by unfold vaultHeader at h; omega)
  let kek ← kekForSalt salt
  match D.aead.decrypt kek.1 ((blob.drop (5 + saltLen)).take nonceLen) (blob.take (5 + saltLen)) (blob.drop vaultHeader) with
  | none => .error .decryption
  | some plaintext => SealKey.fromBytes plaintext

def wrapSealKeyPin (sealKey : SealKey) (pin : String) (deviceKey : Block keyLen)
    (salt : Block saltLen) (nonce : Block nonceLen) : Except VaultError Bytes :=
  (pinKek D pin deviceKey salt).map fun kek => wrap D .pin kek salt sealKey nonce

def unwrapSealKeyPin (pin : String) (deviceKey : Block keyLen) (blob : Bytes) :
    Except VaultError SealKey :=
  unwrap D .pin blob (pinKek D pin deviceKey)

def wrapSealKeyAuto (sealKey : SealKey) (deviceKey : Block keyLen) (salt : Block saltLen)
    (nonce : Block nonceLen) : Bytes :=
  wrap D .auto (autoKek D deviceKey salt) salt sealKey nonce

def unwrapSealKeyAuto (deviceKey : Block keyLen) (blob : Bytes) : Except VaultError SealKey :=
  unwrap D .auto blob fun salt => .ok (autoKek D deviceKey salt)

end quick

def pinMinLen : ℕ := 4

def pinMaxLen : ℕ := 8

def ceremonyMinPinLen : ℕ := 6

/-- `char::is_control`. -/
def isControl (c : Char) : Bool := c.toNat < 0x20 || 0x7F ≤ c.toNat && c.toNat < 0xA0

structure PinStrength where
  acceptable : Bool
  problems : List String
  ceremonyGrade : Bool
deriving DecidableEq, Repr

def checkPin (pin : String) : PinStrength :=
  let chars := pin.toList
  let n := chars.length
  let pairs := chars.zip chars.tail
  let sequence :=
    if n < pinMinLen then [] else
    if chars.all fun c => some c = chars.head? then ["not all the same character"] else
    if (pairs.all fun p => (p.2.toNat : ℤ) - p.1.toNat = 1) || (pairs.all fun p => (p.1.toNat : ℤ) - p.2.toNat = 1) then
      ["not a simple sequence"]
    else []
  let problems :=
    (if n < pinMinLen then [s!"at least {pinMinLen} characters"] else []) ++
    (if n > pinMaxLen then [s!"at most {pinMaxLen} characters"] else []) ++
    (if chars.any fun c => isWhitespace c || isControl c then ["no spaces or control characters"] else []) ++ sequence
  { acceptable := problems.isEmpty, problems,
    ceremonyGrade := problems.isEmpty && ceremonyMinPinLen ≤ n }

/-! ### What was sealed opens -/

section roundTrip

variable {D : Kit} {V : Vodozemac}

/-- The same account, whatever key its vault is sealed under: the session lists
are those of every peer. -/
structure Account.Same (a b : Account V) : Prop where
  accountId : a.accountId = b.accountId
  dataKey : a.dataKey = b.dataKey
  olm : a.engine.account = b.engine.account
  sessions : ∀ peer, a.engine.list peer = b.engine.list peer

theorem importPayload_payload (hD : D.Lawful) (hV : V.Lawful) (a : Account V) : ∃ engine,
    importPayload D a.payload = .ok (engine, a.dataKey) ∧ engine.account = a.engine.account ∧
      ∀ peer, engine.list peer = a.engine.list peer := by
  obtain ⟨engine, himport, haccount, hlists⟩ := RatchetEngine.import_export hV hD.read a.engine
  have hlen : a.payload.dataKey.length = keyLen := a.dataKey.2
  have hstate : RatchetEngine.importState D.fromSlice a.payload.secretState = .ok engine := himport
  refine ⟨engine, ?_, haccount, hlists⟩
  simp only [importPayload, hstate, Except.mapError, bind, Except.bind, hlen, dite_true]
  rfl

theorem unlockWithSealKey_reseal (hD : D.Lawful) (hV : V.Lawful) (a : Account V)
    (nonce : Block nonceLen) :
    ∃ b : Account V, unlockWithSealKey D a.sealKey.toBytes (a.reseal D nonce) = .ok b ∧ b.Same a ∧
    b.sealKey = a.sealKey := by
  obtain ⟨engine, himport, haccount, hlists⟩ := importPayload_payload hD hV a
  have hopen := openWithSealKey_sealWithKey hD a.sealKey a.payload nonce
  refine ⟨{ engine, accountId := a.accountId, dataKey := a.dataKey, sealKey := a.sealKey }, ?_,
    ⟨rfl, rfl, haccount, hlists⟩, rfl⟩
  simp only [unlockWithSealKey, Account.reseal, SealKey.fromBytes_toBytes, Except.mapError, bind,
    Except.bind, hopen, himport]
  rfl

theorem deriveKey_isOk (hD : D.Lawful) {password : String} {salt : Block saltLen}
    {key : Block keyLen} (h : deriveKey D.kdf password salt = .ok key) (salt' : Block saltLen) :
    ∃ key', deriveKey D.kdf password salt' = .ok key' := by
  have hsalts := hD.salts (utf8 password) salt salt'
  unfold deriveKey at h ⊢
  cases hfirst : D.kdf.argon (utf8 password) salt.1 with
  | error e => simp [hfirst, Except.mapError] at h
  | ok k =>
    rw [hfirst] at hsalts
    cases hsecond : D.kdf.argon (utf8 password) salt'.1 with
    | error e => simp [hsecond, Except.isOk, Except.toBool] at hsalts
    | ok k' => exact ⟨k', rfl⟩

/-- A password that a key was derived from gives one with any salt, bound to a device or not. -/
theorem deriveSealKey_isOk (hD : D.Lawful) {password : String} {deviceKey : Option (Block keyLen)}
    {salt : Block saltLen} {k : SealKey} (hk : deriveSealKey D password deviceKey salt = .ok k)
    (given : Option (Block keyLen)) (salt' : Block saltLen) :
    ∃ k', deriveSealKey D password given salt' = .ok k' := by
  have hargon : ∃ key, deriveKey D.kdf password salt = .ok key := by
    cases hkey : deriveKey D.kdf password salt with
    | ok key => exact ⟨key, rfl⟩
    | error e => cases deviceKey <;> simp [deriveSealKey, deriveKeyV2, hkey, Except.map, bind, Except.bind] at hk
  obtain ⟨key, hkey⟩ := hargon
  obtain ⟨key', hkey'⟩ := deriveKey_isOk hD hkey salt'
  cases given <;> simp [deriveSealKey, deriveKeyV2, hkey', Except.map, bind, Except.bind, pure,
    Except.pure]

/-- **The password opens the vault**, and the account keeps the key that the vault is sealed under,
or one that was derived of the same password. -/
theorem unlockBound_reseal (hD : D.Lawful) (hV : V.Lawful) (a : Account V) {password : String}
    {deviceKey : Option (Block keyLen)} {salt : Block saltLen}
    (hk : deriveSealKey D password deviceKey salt = .ok a.sealKey) (nonce : Block nonceLen)
    {given : Option (Block keyLen)} (hgiven : a.sealKey.version = .v2 → given = deviceKey)
    (salt' : Block saltLen) :
    ∃ b : Account V, unlockBound D password given salt' (a.reseal D nonce) = .ok b ∧ b.Same a ∧
      ((a.sealKey.version = .v2 ∨ given = none) ∧ b.sealKey = a.sealKey ∨
        a.sealKey.version = .v1 ∧ given.isSome ∧
        deriveSealKey D password given salt' = .ok b.sealKey) := by
  obtain ⟨engine, himport, haccount, hlists⟩ := importPayload_payload hD hV a
  have hopen := openKeepingKey_sealWithKey hD hk a.payload nonce hgiven
  have hl := sealWithKey_layout D a.sealKey a.payload nonce
  have hbyte : (sealWithKey D a.sealKey a.payload nonce)[4]? = some a.sealKey.version.byte := by
    have hlen := hl.length_ge
    have hget := hl.get_byte
    unfold vaultHeader at hlen
    rw [List.getD_eq_getElem?_getD, List.getElem?_eq_getElem (by omega), Option.getD_some] at hget
    rw [List.getElem?_eq_getElem (by omega), hget]
  by_cases hmigrates : (sealWithKey D a.sealKey a.payload nonce)[4]? = some 1 ∧ given.isSome
  · have hversion : a.sealKey.version = .v1 := by
      rw [hbyte] at hmigrates
      cases hv : a.sealKey.version with
      | v1 => rfl
      | v2 => simp [hv, Version.byte] at hmigrates
    obtain ⟨k', hk'⟩ := deriveSealKey_isOk hD hk given salt'
    refine ⟨{ engine, accountId := a.accountId, dataKey := a.dataKey, sealKey := k' }, ?_,
      ⟨rfl, rfl, haccount, hlists⟩, Or.inr ⟨hversion, hmigrates.2, hk'⟩⟩
    simp only [unlockBound, Account.reseal, hopen, Except.mapError, bind, Except.bind, himport,
      if_pos hmigrates, hk']
    rfl
  · have hversion : a.sealKey.version = .v2 ∨ given = none := by
      rw [hbyte] at hmigrates
      cases hv : a.sealKey.version with
      | v1 => exact Or.inr (by simpa [hv, Version.byte] using hmigrates)
      | v2 => exact Or.inl rfl
    refine ⟨{ engine, accountId := a.accountId, dataKey := a.dataKey, sealKey := a.sealKey }, ?_,
      ⟨rfl, rfl, haccount, hlists⟩, Or.inl ⟨hversion, rfl⟩⟩
    simp only [unlockBound, Account.reseal, hopen, Except.mapError, bind, Except.bind, himport]
    exact (if_neg hmigrates).trans rfl

theorem unwrap_wrap (hD : D.Lawful) (kind : Kind) {kek : Block keyLen} {salt : Block saltLen}
    (k : SealKey) (nonce : Block nonceLen)
    {kekForSalt : Block saltLen → Except VaultError (Block keyLen)}
    (hkek : kekForSalt salt = .ok kek) :
    unwrap D kind (wrap D kind kek salt k nonce) kekForSalt = .ok k := by
  have hblob : wrap D kind kek salt k nonce = quickMagic ++ kind.byte :: (salt.1 ++ (nonce.1 ++
      D.aead.encrypt kek.1 nonce.1 (quickMagic ++ kind.byte :: salt.1) k.toBytes)) := by
    simp [wrap]
  have hmagic : quickMagic.length = 4 := rfl
  have hl := layout_of_parts hmagic kind.byte salt nonce
    (D.aead.encrypt kek.1 nonce.1 (quickMagic ++ kind.byte :: salt.1) k.toBytes)
  have hlen := hl.length_ge
  unfold unwrap
  rw [hblob, dif_neg (by omega), if_neg fun h => h.elim (fun h => h hl.take_magic) fun h => h hl.get_byte, hl.block_salt]
  dsimp only
  rw [hkek]
  simp only [bind, Except.bind, hl.take_nonce, hl.take_header, hl.drop_header, hD.opens.open_seal]
  exact k.fromBytes_toBytes

theorem unwrapSealKeyPin_wrap (hD : D.Lawful) {k : SealKey} {pin : String}
    {deviceKey : Block keyLen} {salt : Block saltLen} {nonce : Block nonceLen} {blob : Bytes}
    (hblob : wrapSealKeyPin D k pin deviceKey salt nonce = .ok blob) :
    unwrapSealKeyPin D pin deviceKey blob = .ok k := by
  unfold wrapSealKeyPin at hblob
  cases hkek : pinKek D pin deviceKey salt with
  | error e => simp [hkek, Except.map] at hblob
  | ok kek =>
    simp only [hkek, Except.map, Except.ok.injEq] at hblob
    rw [← hblob]
    exact unwrap_wrap hD .pin k nonce hkek

theorem unwrapSealKeyAuto_wrap (hD : D.Lawful) (k : SealKey) (deviceKey : Block keyLen)
    (salt : Block saltLen) (nonce : Block nonceLen) :
    unwrapSealKeyAuto D deviceKey (wrapSealKeyAuto D k deviceKey salt nonce) = .ok k :=
  unwrap_wrap hD .auto k nonce rfl

end roundTrip

end Sona.Vault
