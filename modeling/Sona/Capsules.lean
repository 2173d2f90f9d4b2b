/-
# The capsule of a call

`client-core/src/callcapsule.rs`, and the sealing of `crypto-core/src/callkey.rs`: a
capsule is checked by shape (`wellFormed`), written as JSON, sealed to a device's call key
of at most 4096 bytes, and carries a signature over a payload of its own.

What a field may hold bounds what it takes as JSON: a byte of a free string six bytes at
worst, one of an id or a mailbox one (`quotedWidth_le`, `quotedWidth_hex`). The widest capsule
fits with nine hundred bytes to spare (`capsule_fits`). In the payload every string stands behind
its length, so it determines all fields (`signingPayload_inj`). What `verify` accepts was addressed
to the device, and only a roster key makes it ring (`verify_spec`).

Key definitions: `CallCapsule.encode`, `CallCapsule.decode`, `CallCapsule.signingPayload`,
`CallCapsule.verify`, `sealCapsule`, `openCapsule`.
Key theorems: `capsule_fits`, `decode_encode`, `signingPayload_inj`, `verify_spec`,
`openCapsule_sealCapsule`, `capsule_authentic`.
-/
import Mathlib.Algebra.Group.Action.Defs
import Sona.Payloads
import Sona.Reopen
import Sona.Rings

namespace Sona

/-! ### The capsule as JSON -/

def CapsuleKind.text : CapsuleKind → String
  | .offer => "offer"
  | .terminal => "terminal"

def CapsuleKind.ofText : String → Option CapsuleKind
  | "offer" => some .offer
  | "terminal" => some .terminal
  | _ => none

def CapsuleSigner.text : CapsuleSigner → String
  | .roster => "roster"
  | .callKey => "call_key"

def CapsuleSigner.ofText : String → Option CapsuleSigner
  | "roster" => some .roster
  | "call_key" => some .callKey
  | _ => none

def CallCapsule.toJson (c : CallCapsule) : Json :=
  .obj [("v", .num c.v), ("kind", .str c.kind.text), ("call_instance_id", .str c.callInstanceId),
    ("offer_id", .str c.offerId), ("ring_handle", .str c.ringHandle), ("from", .str c.caller),
    ("caller_identity_key", .str c.callerIdentityKey), ("caller_device_id", .str c.callerDeviceId),
    ("to_device_id", .str c.toDeviceId), ("video", .bool c.video), ("group", .bool c.group),
    ("display_name", .str c.displayName), ("created_at", .num c.createdAt),
    ("ring_expires_at", .num c.ringExpiresAt), ("expires_at", .num c.expiresAt),
    ("reply_to_mailbox", .str c.replyToMailbox), ("reply_call_mailbox", .str c.replyCallMailbox),
    ("reply_call_key", .str c.replyCallKey), ("signer", .str c.signer.text),
    ("reason", .ofOptStr (c.reason.map CallTerminalReason.text)), ("nonce", .str c.nonce),
    ("signature", .str c.signature)]

/-- A number that fits its type. -/
def asUint (max : ℕ) (j : Json) : Option ℕ := j.asNat.filter (· ≤ max)

/-- A reason or `null`. -/
def reasonOfJson (j : Json) : Option (Option CallTerminalReason) := do
  match ← j.asOptStr with
  | none => some none
  | some text => (CallTerminalReason.ofText text).map some

/-- A capsule of a JSON value: the fields of the locked layer's reply and the
reason may be missing. -/
def CallCapsule.ofJson (j : Json) : Option CallCapsule := do
  let v ← asUint 255 (← j.field "v")
  let kind ← CapsuleKind.ofText (← (← j.field "kind").asStr)
  let callInstanceId ← (← j.field "call_instance_id").asStr
  let offerId ← (← j.field "offer_id").asStr
  let ringHandle ← (← j.field "ring_handle").asStr
  let caller ← (← j.field "from").asStr
  let callerIdentityKey ← (← j.field "caller_identity_key").asStr
  let callerDeviceId ← (← j.field "caller_device_id").asStr
  let toDeviceId ← (← j.field "to_device_id").asStr
  let video ← (← j.field "video").asBool
  let group ← (← j.field "group").asBool
  let displayName ← (← j.field "display_name").asStr
  let createdAt ← asUint u64Max (← j.field "created_at")
  let ringExpiresAt ← asUint u64Max (← j.field "ring_expires_at")
  let expiresAt ← asUint u64Max (← j.field "expires_at")
  let replyToMailbox ← (← j.field "reply_to_mailbox").asStr
  let replyCallMailbox ← ((← j.optField "reply_call_mailbox").getD (.str "")).asStr
  let replyCallKey ← ((← j.optField "reply_call_key").getD (.str "")).asStr
  let signer ← CapsuleSigner.ofText (← (← j.field "signer").asStr)
  let reason ← reasonOfJson ((← j.optField "reason").getD .null)
  let nonce ← (← j.field "nonce").asStr
  let signature ← (← j.field "signature").asStr
  some { v, kind, callInstanceId, offerId, ringHandle, caller, callerIdentityKey, callerDeviceId, toDeviceId, video,
         group, displayName, createdAt, ringExpiresAt, expiresAt, replyToMailbox, replyCallMailbox, replyCallKey,
         signer, reason, nonce, signature }

/-- The numbers of a capsule are values of their types. -/
structure CallCapsule.Typed (c : CallCapsule) : Prop where
  v : c.v ≤ 255
  createdAt : c.createdAt ≤ u64Max
  ringExpiresAt : c.ringExpiresAt ≤ u64Max
  expiresAt : c.expiresAt ≤ u64Max

theorem reasonOfJson_ofOptStr (r : Option CallTerminalReason) :
    reasonOfJson (.ofOptStr (r.map CallTerminalReason.text)) = some r := by
  cases r with
  | none => rfl
  | some reason => cases reason <;> rfl

theorem asUint_num {max n : ℕ} (h : n ≤ max) : asUint max (.num n) = some n := by
  simp [asUint, h]

theorem CallCapsule.ofJson_toJson {c : CallCapsule} (h : c.Typed) :
    CallCapsule.ofJson c.toJson = some c := by
  have hkind : CapsuleKind.ofText c.kind.text = some c.kind := by cases c.kind <;> rfl
  have hsigner : CapsuleSigner.ofText c.signer.text = some c.signer := by cases c.signer <;> rfl
  simp [CallCapsule.ofJson, CallCapsule.toJson, Json.field, Json.optField, hkind, hsigner,
    reasonOfJson_ofOptStr, asUint_num h.v, asUint_num h.createdAt, asUint_num h.ringExpiresAt, asUint_num h.expiresAt]

/-! ### How long it gets -/

/-- A string of `n` bytes is at worst six times as wide. -/
theorem quotedWidth_le {s : String} {n : ℕ} (h : (utf8 s).length ≤ n) :
    Json.quotedWidth s ≤ 6 * n + 2 := by
  have hcost := Json.quotedWidth_le_cost s
  rw [← utf8_toList] at hcost
  have hsum : ((utf8 s).map Json.byteCost).sum ≤ (utf8 s).length * 6 := by
    have hbound := List.sum_le_card_nsmul ((utf8 s).map Json.byteCost) 6 fun n hn => by
      obtain ⟨b, -, rfl⟩ := List.mem_map.mp hn
      exact Json.byteCost_le b
    rwa [List.length_map, smul_eq_mul] at hbound
  omega

/-- A string of hex digits is not wider than its bytes. -/
theorem quotedWidth_hex {s : String} {n : ℕ} (h : (utf8 s).length ≤ n)
    (hhex : (utf8 s).all isHexByte = true) :
    Json.quotedWidth s ≤ n + 2 := by
  have hcost := Json.quotedWidth_le_cost s
  rw [← utf8_toList] at hcost
  have hone : ∀ b : UInt8, isHexByte b = true → Json.byteCost b = 1 := by
    intro b hb
    simp only [isHexByte, Bool.or_eq_true, Bool.and_eq_true, decide_eq_true_eq,
      UInt8.le_iff_toNat_le, UInt8.reduceToNat] at hb
    have hplain : (32 ≤ b && b != 34 && b != 92) = true := by
      simp only [Bool.and_eq_true, decide_eq_true_eq, bne_iff_ne, ne_eq, UInt8.le_iff_toNat_le,
        ← UInt8.toNat_inj, UInt8.reduceToNat]
      omega
    rw [Json.byteCost, if_pos hplain]
  have hsum : ((utf8 s).map Json.byteCost).sum = (utf8 s).length := by
    rw [List.map_congr_left fun b hb => hone b (List.all_eq_true.mp hhex b hb)]
    simp
  omega

theorem quotedWidth_callId {s : String} (h : validCallId s = true) : Json.quotedWidth s ≤ 34 := by
  unfold validCallId at h
  simp only [Bool.and_eq_true, beq_iff_eq] at h
  refine quotedWidth_hex h.1.le (List.all_eq_true.mpr fun b hb => ?_)
  have hbyte := List.all_eq_true.mp h.2 b hb
  unfold isHexByte
  rw [hbyte]
  rfl

theorem quotedWidth_deviceId {s : String} (h : validDeviceId s = true) :
    Json.quotedWidth s ≤ 34 := by
  unfold validDeviceId at h
  rcases Bool.or_eq_true_iff.mp h with hprimary | hid
  · rw [eq_of_beq hprimary]
    decide
  · exact quotedWidth_callId hid

theorem digits_u64 {n : ℕ} (h : n ≤ u64Max) : Json.digits n ≤ 20 := by
  unfold Json.digits
  rw [Nat.length_toDigits_le_iff (by decide) (by decide)]
  unfold u64Max at h
  omega

/-- The bytes of the capsule as JSON. -/
def CallCapsule.size (c : CallCapsule) : ℕ :=
  311 + Json.digits c.v + Json.quotedWidth c.kind.text + Json.quotedWidth c.callInstanceId +
    Json.quotedWidth c.offerId + Json.quotedWidth c.ringHandle + Json.quotedWidth c.caller +
    Json.quotedWidth c.callerIdentityKey + Json.quotedWidth c.callerDeviceId + Json.quotedWidth c.toDeviceId +
    boolSize c.video + boolSize c.group + Json.quotedWidth c.displayName + Json.digits c.createdAt +
    Json.digits c.ringExpiresAt + Json.digits c.expiresAt + Json.quotedWidth c.replyToMailbox +
    Json.quotedWidth c.replyCallMailbox + Json.quotedWidth c.replyCallKey + Json.quotedWidth c.signer.text +
    optSize (c.reason.map CallTerminalReason.text) + Json.quotedWidth c.nonce + Json.quotedWidth c.signature

/-- **The JSON of a capsule takes its size.** -/
theorem width_capsule (c : CallCapsule) : c.toJson.width = c.size := by
  have hnames : ["v", "kind", "call_instance_id", "offer_id", "ring_handle", "from",
    "caller_identity_key",
      "caller_device_id", "to_device_id", "video", "group", "display_name", "created_at", "ring_expires_at",
      "expires_at", "reply_to_mailbox", "reply_call_mailbox", "reply_call_key", "signer", "reason", "nonce",
      "signature"].map Json.quotedWidth =
      [3, 6, 18, 10, 13, 6, 21, 18, 14, 7, 7, 14, 12, 17, 12, 18, 20, 16, 8, 8, 7, 11] := by decide
  simp only [List.map_cons, List.map_nil, List.cons.injEq, and_true] at hnames
  simp only [CallCapsule.toJson, CallCapsule.size, Json.width_obj, Json.fieldWidth, Json.width_str,
    Json.width_num, Json.width_bool, width_ofOptStr, boolSize, List.map_cons, List.map_nil, List.sum_cons, List.sum_nil, List.length_cons, List.length_nil]
  omega

/-- What the checks of a capsule say of its fields. -/
structure CallCapsule.Shaped (c : CallCapsule) : Prop where
  v : c.v = capsuleVersion
  ids : ∀ s ∈ [c.callInstanceId, c.offerId, c.ringHandle, c.nonce], validCallId s = true
  devices : ∀ s ∈ [c.callerDeviceId, c.toDeviceId], validDeviceId s = true
  free : ∀ s ∈ [c.caller, c.callerIdentityKey, c.displayName, c.replyCallKey], (utf8 s).length ≤ 64
  mailboxes : ∀ s ∈ [c.replyToMailbox, c.replyCallMailbox],
    (utf8 s).length ≤ 64 ∧ (utf8 s).all isHexByte = true
  signature : (utf8 c.signature).length ≤ 128
  allowed : c.signerAllowed = true
  offer : c.kind = .offer → validOfferDeadline c.createdAt c.ringExpiresAt = true

theorem CallCapsule.shaped {c : CallCapsule} (h : c.wellFormed = true) : c.Shaped := by
  unfold CallCapsule.wellFormed at h
  simp only [Bool.and_eq_true, Bool.or_eq_true, beq_iff_eq, decide_eq_true_eq] at h
  obtain ⟨⟨⟨⟨⟨⟨⟨⟨⟨⟨⟨⟨⟨⟨⟨⟨⟨⟨⟨⟨hv, hcall⟩, hoffer⟩, hring⟩, hnonce⟩, hfrom⟩, hto⟩, -⟩, hcaller⟩, -⟩, hkey⟩,
    hname⟩, hmailbox⟩, hhex⟩, hreply⟩, hreplyKey⟩, -⟩, hsig⟩, -⟩, hallowed⟩, hkind⟩ := h
  exact {
    v := hv
    ids := by simp [hcall, hoffer, hring, hnonce]
    devices := by simp [hfrom, hto]
    free := by
      unfold maxDisplayName at hname
      simp [hcaller, hkey, hname, hreplyKey]
    mailboxes := by
      intro s hs
      rcases List.mem_cons.mp hs with rfl | hs
      · exact ⟨hmailbox.le, hhex⟩
      · rw [List.mem_singleton.mp hs]
        rcases hreply with hempty | ⟨hlen, hreplyHex⟩
        · rw [String.isEmpty_iff.mp hempty]
          exact ⟨Nat.zero_le _, rfl⟩
        · exact ⟨hlen.le, hreplyHex⟩
    signature := hsig
    allowed := hallowed
    offer := by
      intro heq
      rw [heq] at hkind
      exact (Bool.and_eq_true_iff.mp hkind).2 }

/-- **The widest capsule**: four free strings and the signature with every byte escaped. -/
theorem capsule_fits {c : CallCapsule} (h : c.Shaped) (ht : c.Typed) : c.size ≤ 3100 := by
  obtain ⟨hcall, hoffer, hring, hnonce⟩ : validCallId c.callInstanceId = true ∧
      validCallId c.offerId = true ∧
      validCallId c.ringHandle = true ∧ validCallId c.nonce = true := by simpa using h.ids
  obtain ⟨hfrom, hto⟩ : validDeviceId c.callerDeviceId = true ∧
      validDeviceId c.toDeviceId = true := by
    simpa using h.devices
  obtain ⟨hcaller, hkey, hname, hreplyKey⟩ : (utf8 c.caller).length ≤ 64 ∧
      (utf8 c.callerIdentityKey).length ≤ 64 ∧
      (utf8 c.displayName).length ≤ 64 ∧ (utf8 c.replyCallKey).length ≤ 64 := by simpa using h.free
  have hmailbox := h.mailboxes c.replyToMailbox (by simp)
  have hreply := h.mailboxes c.replyCallMailbox (by simp)
  have hv : Json.digits c.v = 1 := by
    rw [h.v]
    decide
  have hkind : Json.quotedWidth c.kind.text ≤ 10 := by cases c.kind <;> decide
  have hsigner : Json.quotedWidth c.signer.text ≤ 10 := by cases c.signer <;> decide
  have hreason : optSize (c.reason.map CallTerminalReason.text) ≤ 20 := by
    cases c.reason with
    | none => decide
    | some reason => cases reason <;> decide
  have hbool : ∀ b, boolSize b ≤ 5 := by decide
  have hvideo := hbool c.video
  have hgroup := hbool c.group
  have h1 := quotedWidth_callId hcall
  have h2 := quotedWidth_callId hoffer
  have h3 := quotedWidth_callId hring
  have h4 := quotedWidth_callId hnonce
  have h5 := quotedWidth_deviceId hfrom
  have h6 := quotedWidth_deviceId hto
  have h7 := quotedWidth_le hcaller
  have h8 := quotedWidth_le hkey
  have h9 := quotedWidth_le hname
  have h10 := quotedWidth_le hreplyKey
  have h11 := quotedWidth_hex hmailbox.1 hmailbox.2
  have h12 := quotedWidth_hex hreply.1 hreply.2
  have h13 := quotedWidth_le h.signature
  have h14 := digits_u64 ht.createdAt
  have h15 := digits_u64 ht.ringExpiresAt
  have h16 := digits_u64 ht.expiresAt
  unfold CallCapsule.size
  omega

/-! ### Encoding and sealing -/

def CallCapsule.encode (c : CallCapsule) : Bytes := toVec c.toJson

def CallCapsule.decode (fromSlice : Bytes → Option Json) (bytes : Bytes) : Option CallCapsule :=
  if bytes.length > maxCapsuleBytes then none else do
    let capsule ← CallCapsule.ofJson (← fromSlice bytes)
    if capsule.wellFormed then some capsule else none

theorem encode_length (c : CallCapsule) : c.encode.length = c.size := by
  rw [CallCapsule.encode, toVec, utf8_length_ofList, ← width_capsule]
  rfl

/-- A capsule that is encoded is decoded to itself. -/
theorem decode_encode {fromSlice : Bytes → Option Json} {c : CallCapsule} (h : c.wellFormed = true)
    (ht : c.Typed) (hread : fromSlice (toVec c.toJson) = some c.toJson) :
    CallCapsule.decode fromSlice c.encode = some c := by
  have hfits := capsule_fits (CallCapsule.shaped h) ht
  have hsmall : ¬ c.encode.length > maxCapsuleBytes := by
    rw [encode_length]
    unfold maxCapsuleBytes
    omega
  unfold CallCapsule.decode
  rw [if_neg hsmall, CallCapsule.encode, hread]
  simp [CallCapsule.ofJson_toJson ht, h]

/-- `vodozemac`'s X25519: keys in base64, the public key of a secret, and a Diffie-Hellman that
refuses a key that does not contribute. -/
structure X25519 where
  fromBase64 : String → Option Bytes
  publicKey : Bytes → Bytes
  diffieHellman : Bytes → Bytes → Option Bytes

structure X25519.Lawful (X : X25519) : Prop where
  length : ∀ secret, (X.publicKey secret).length = 32
  comm : ∀ a b, X.diffieHellman a (X.publicKey b) = X.diffieHellman b (X.publicKey a)

inductive CallKeyError
  | badPublicKey
  | malformed
  | tooLarge
  | nonContributory
deriving DecidableEq, Repr

def capsuleMagic : Bytes := utf8 "SCC1"

def publicLen : ℕ := 32

/-- Magic, version and the ephemeral public key. -/
def capsuleHeaderLen : ℕ := 4 + 1 + publicLen

/-- There is room for what sealing adds. -/
theorem encode_room {c : CallCapsule} (h : c.Shaped) (ht : c.Typed) :
    c.encode.length + capsuleHeaderLen + nonceLen + 16 ≤ maxCapsuleBytes := by
  have hfits := capsule_fits h ht
  rw [encode_length]
  unfold capsuleHeaderLen publicLen nonceLen maxCapsuleBytes
  omega

section sealing

variable (X : X25519) (hkdf : Bytes → Bytes → Bytes → Bytes) (A : Aead)

/-- Capsule content key, salted with both public keys. -/
def capsuleKey (shared ephemeral recipient : Bytes) : Bytes :=
  hkdf (ephemeral ++ recipient) shared (utf8 "sona-call-capsule-v1")

def capsuleAad (header recipient : Bytes) : Bytes := header ++ recipient

/-- The cipher does not fail on what is this short, so nothing is `malformed` here. -/
def sealCapsule (recipientCallKey : String) (plaintext ephemeralSecret : Bytes) (nonce : Nonce) :
    Except CallKeyError Bytes :=
  if plaintext.length + capsuleHeaderLen + nonceLen + 16 > maxCapsuleBytes then .error .tooLarge else
  match X.fromBase64 recipientCallKey with
  | none => .error .badPublicKey
  | some recipient =>
    let ephemeral := X.publicKey ephemeralSecret
    match X.diffieHellman ephemeralSecret recipient with
    | none => .error .nonContributory
    | some shared =>
      let header := capsuleMagic ++ [1] ++ ephemeral
      .ok (header ++ nonce.bytes ++
        A.encrypt (capsuleKey hkdf shared ephemeral recipient) nonce.bytes (capsuleAad header recipient) plaintext)

def openCapsule (secret blob : Bytes) : Option Bytes :=
  if blob.length > maxCapsuleBytes || blob.length < capsuleHeaderLen + nonceLen then none else
  let header := blob.take capsuleHeaderLen
  let rest := blob.drop capsuleHeaderLen
  if header.take 4 ≠ capsuleMagic ∨ header[4]? ≠ some 1 then none else do
    let ephemeral := header.drop 5
    let recipient := X.publicKey secret
    let shared ← X.diffieHellman secret ephemeral
    A.decrypt (capsuleKey hkdf shared ephemeral recipient) (rest.take nonceLen) (capsuleAad header recipient)
      (rest.drop nonceLen)

/-- What fits is not refused for its size. -/
theorem sealCapsule_fits {recipientCallKey : String} {plaintext ephemeralSecret : Bytes}
    {nonce : Nonce} (h : plaintext.length + capsuleHeaderLen + nonceLen + 16 ≤ maxCapsuleBytes) :
    sealCapsule X hkdf A recipientCallKey plaintext ephemeralSecret nonce ≠ .error .tooLarge := by
  unfold sealCapsule
  rw [if_neg (Nat.not_lt.mpr h)]
  split
  · simp
  · dsimp only
    split <;> simp

/-- What fits is sealed to a key that contributes. -/
theorem sealCapsule_ok {recipientCallKey : String}
    {plaintext ephemeralSecret recipient shared : Bytes} {nonce : Nonce}
    (h : plaintext.length + capsuleHeaderLen + nonceLen + 16 ≤ maxCapsuleBytes)
    (hkey : X.fromBase64 recipientCallKey = some recipient)
    (hshared : X.diffieHellman ephemeralSecret recipient = some shared) :
    ∃ blob, sealCapsule X hkdf A recipientCallKey plaintext ephemeralSecret nonce = .ok blob := by
  unfold sealCapsule
  rw [if_neg (Nat.not_lt.mpr h), hkey]
  dsimp only
  rw [hshared]
  exact ⟨_, rfl⟩

end sealing

section opening

variable {X : X25519} (hX : X.Lawful) {hkdf : Bytes → Bytes → Bytes → Bytes} {A : Aead}
  (hA : A.Opens)
include hX hA

/-- **A capsule that was sealed to a device is opened by it.** -/
theorem openCapsule_sealCapsule {recipientCallKey : String}
    {secret plaintext ephemeralSecret blob : Bytes} {nonce : Nonce}
    (hkey : X.fromBase64 recipientCallKey = some (X.publicKey secret))
    (hseal : sealCapsule X hkdf A recipientCallKey plaintext ephemeralSecret nonce = .ok blob) :
    openCapsule X hkdf A secret blob = some plaintext := by
  unfold sealCapsule at hseal
  by_cases hlarge : plaintext.length + capsuleHeaderLen + nonceLen + 16 > maxCapsuleBytes
  · rw [if_pos hlarge] at hseal
    cases hseal
  rw [if_neg hlarge, hkey] at hseal
  dsimp only at hseal
  cases hshared : X.diffieHellman ephemeralSecret (X.publicKey secret) with
  | none =>
    rw [hshared] at hseal
    cases hseal
  | some shared =>
    rw [hshared] at hseal
    have hblob := Except.ok.inj hseal
    have hfront : (capsuleMagic ++ [1] : Bytes).length = 5 := by decide
    have hpublic := hX.length ephemeralSecret
    have hheader : (capsuleMagic ++ [1] ++ X.publicKey ephemeralSecret).length =
        capsuleHeaderLen := by
      rw [List.length_append, hfront, hpublic]
      rfl
    have hnonce := nonce.length
    have hct := hA.length (capsuleKey hkdf shared (X.publicKey ephemeralSecret) (X.publicKey secret)) nonce.bytes
      (capsuleAad (capsuleMagic ++ [1] ++ X.publicKey ephemeralSecret) (X.publicKey secret)) plaintext
    have hlength : blob.length = plaintext.length + capsuleHeaderLen + nonceLen + 16 := by
      rw [← hblob, List.length_append, List.length_append, hheader, hnonce, hct]
      unfold Aead.tagLen
      omega
    have hchecked :
        (blob.length > maxCapsuleBytes || blob.length < capsuleHeaderLen + nonceLen) = false := by
      rw [hlength]
      simp only [Bool.or_eq_false_iff, decide_eq_false_iff_not]
      omega
    have hmagic : (capsuleMagic ++ [1] ++ X.publicKey ephemeralSecret).take 4 = capsuleMagic := by
      rw [List.append_assoc]
      exact List.take_left' rfl
    have hversion : (capsuleMagic ++ [1] ++ X.publicKey ephemeralSecret)[4]? = some 1 := by
      rw [List.getElem?_append_left (by rw [hfront]; decide)]
      decide
    unfold openCapsule
    rw [if_neg (by rw [hchecked]; decide)]
    dsimp only
    rw [← hblob, List.append_assoc, List.take_left' hheader, List.drop_left' hheader,
      List.take_left' hnonce, List.drop_left' hnonce, hmagic, hversion, if_neg
      (by simp), List.drop_left' hfront, hX.comm, hshared]
    exact hA.open_seal _ _ _ _

end opening

/-! ### The signature -/

/-- `reason as u8`. -/
def CallTerminalReason.byte : CallTerminalReason → UInt8
  | .answeredHere => 0
  | .answeredElsewhere => 1
  | .declinedHere => 2
  | .declinedElsewhere => 3
  | .callerCancelled => 4
  | .expired => 5
  | .busy => 6
  | .transportError => 7

/-- Version, kind and signer. -/
def CallCapsule.front (c : CallCapsule) : Bytes :=
  [UInt8.ofNat c.v,
    match c.kind with
    | .offer => 0
    | .terminal => 1,
    match c.signer with
    | .roster => 0
    | .callKey => 1]

def CallCapsule.signedFields (c : CallCapsule) : List String :=
  [c.callInstanceId, c.offerId, c.ringHandle, c.caller, c.callerIdentityKey, c.callerDeviceId, c.toDeviceId,
    c.displayName, c.replyToMailbox, c.replyCallMailbox, c.replyCallKey, c.nonce]

def CallCapsule.flags (c : CallCapsule) : Bytes :=
  [if c.video then 1 else 0, if c.group then 1 else 0]

/-- The exact bytes the caller device signs. -/
def CallCapsule.signingPayload (c : CallCapsule) : Bytes :=
  utf8 "sona-call-capsule-v1" ++ c.front ++ c.signedFields.flatMap pushField ++ c.flags ++
    beBytes c.createdAt ++ beBytes c.ringExpiresAt ++ beBytes c.expiresAt ++
    [match c.reason with
      | none => 0xff
      | some reason => reason.byte]

theorem CallCapsule.front_inj {c c' : CallCapsule} (hv : c.v ≤ 255) (hv' : c'.v ≤ 255)
    (h : c.front = c'.front) :
    c.v = c'.v ∧ c.kind = c'.kind ∧ c.signer = c'.signer := by
  unfold CallCapsule.front at h
  simp only [List.cons.injEq, and_true] at h
  obtain ⟨hversion, hkind, hsigner⟩ := h
  refine ⟨?_, ?_, ?_⟩
  · have htoNat := congrArg UInt8.toNat hversion
    rw [UInt8.toNat_ofNat', UInt8.toNat_ofNat'] at htoNat
    omega
  · revert hkind
    cases c.kind <;> cases c'.kind <;> decide
  · revert hsigner
    cases c.signer <;> cases c'.signer <;> decide

theorem CallCapsule.flags_inj {c c' : CallCapsule} (h : c.flags = c'.flags) :
    c.video = c'.video ∧ c.group = c'.group := by
  revert h
  unfold CallCapsule.flags
  cases c.video <;> cases c'.video <;> cases c.group <;> cases c'.group <;> decide

/-- No reason has the byte of none. -/
theorem reasonByte_inj {r r' : Option CallTerminalReason}
    (h : (match r with | none => (0xff : UInt8) | some reason => reason.byte) =
      match r' with | none => (0xff : UInt8) | some reason => reason.byte) : r = r' := by
  revert h
  cases r with
  | none =>
    cases r' with
    | none => exact fun _ => rfl
    | some reason' => cases reason' <;> decide
  | some reason =>
    cases r' with
    | none => cases reason <;> decide
    | some reason' => cases reason <;> cases reason' <;> decide

/-- The strings that are signed have lengths of a machine word. -/
theorem CallCapsule.Shaped.signed {c : CallCapsule} (h : c.Shaped) :
    ∀ s ∈ c.signedFields, StringFits s := by
  have hid : ∀ s, validCallId s = true → StringFits s := by
    intro s hs
    unfold validCallId at hs
    simp only [Bool.and_eq_true, beq_iff_eq] at hs
    unfold StringFits
    rw [hs.1]
    decide
  have hdevice : ∀ s, validDeviceId s = true → StringFits s := by
    intro s hs
    unfold validDeviceId at hs
    rcases Bool.or_eq_true_iff.mp hs with hprimary | hs
    · rw [eq_of_beq hprimary]
      unfold StringFits
      decide
    · exact hid s hs
  have hfree : ∀ s ∈ [c.caller, c.callerIdentityKey, c.displayName,
    c.replyCallKey], StringFits s := by
    intro s hs
    have hlen := h.free s hs
    unfold StringFits
    omega
  have hmailbox : ∀ s ∈ [c.replyToMailbox, c.replyCallMailbox], StringFits s := by
    intro s hs
    have hlen := (h.mailboxes s hs).1
    unfold StringFits
    omega
  intro s hs
  simp only [CallCapsule.signedFields, List.mem_cons, List.not_mem_nil, or_false] at hs
  rcases hs with rfl | rfl | rfl | rfl | rfl | rfl | rfl | rfl | rfl | rfl | rfl | rfl
  · exact hid _ (h.ids _ (by simp))
  · exact hid _ (h.ids _ (by simp))
  · exact hid _ (h.ids _ (by simp))
  · exact hfree _ (by simp)
  · exact hfree _ (by simp)
  · exact hdevice _ (h.devices _ (by simp))
  · exact hdevice _ (h.devices _ (by simp))
  · exact hfree _ (by simp)
  · exact hmailbox _ (by simp)
  · exact hmailbox _ (by simp)
  · exact hfree _ (by simp)
  · exact hid _ (h.ids _ (by simp))

/-- **The payload determines the capsule**, up to its signature. -/
theorem signingPayload_inj {c c' : CallCapsule} (hc : c.Shaped) (hc' : c'.Shaped) (ht : c.Typed)
    (ht' : c'.Typed) (h : c.signingPayload = c'.signingPayload) :
    { c with signature := c'.signature } = c' := by
  have hword : ∀ {n : ℕ}, n ≤ u64Max → n < 2 ^ 64 := by
    intro n hn
    unfold u64Max at hn
    omega
  simp only [CallCapsule.signingPayload, List.append_assoc] at h
  have h := List.append_cancel_left h
  obtain ⟨hfront, h⟩ := List.append_inj h rfl
  have hcount : c.signedFields.length = c'.signedFields.length := rfl
  obtain ⟨hfields, h⟩ := delimited_pushField.flatMap hcount hc.signed hc'.signed h
  obtain ⟨hflags, h⟩ := List.append_inj h rfl
  obtain ⟨hcreated, h⟩ := delimited_beBytes _ _ (hword ht.createdAt) (hword ht'.createdAt) _ _ h
  obtain ⟨hring, h⟩ := delimited_beBytes _ _ (hword ht.ringExpiresAt) (hword ht'.ringExpiresAt) _ _ h
  obtain ⟨hexpires, h⟩ := delimited_beBytes _ _ (hword ht.expiresAt) (hword ht'.expiresAt) _ _ h
  obtain ⟨hv, hkind, hsigner⟩ := CallCapsule.front_inj ht.v ht'.v hfront
  obtain ⟨hvideo, hgroup⟩ := CallCapsule.flags_inj hflags
  have hreason := reasonByte_inj (List.cons.inj h).1
  simp only [CallCapsule.signedFields, List.cons.injEq, and_true] at hfields
  obtain ⟨hcall, hoffer, hhandle, hcaller, hkey, hfrom, hto, hname, hmailbox, hreply, hreplyKey,
    hnonce⟩ := hfields
  rw [CallCapsule.mk.injEq]
  exact ⟨hv, hkind, hcall, hoffer, hhandle, hcaller, hkey, hfrom, hto, hvideo, hgroup, hname,
    hcreated, hring, hexpires, hmailbox, hreply, hreplyKey, hsigner, hreason, hnonce, rfl⟩

/-! ### What is accepted -/

/-- Shape, addressing, freshness, and then the signature. -/
def CallCapsule.verify (C : Crypto) (c : CallCapsule) (myDeviceId expectedSigningKey : String)
    (now : ℕ) : Bool :=
  c.wellFormed && c.toDeviceId == myDeviceId && validControlExpiry c.expiresAt now &&
  !expectedSigningKey.isEmpty &&
    C.verifyEd25519 expectedSigningKey c.signingPayload c.signature

/-- A capsule that a device may act on. -/
structure AcceptedCapsule (C : Crypto) (c : CallCapsule) (myDeviceId expectedSigningKey : String) :
    Prop where
  addressed : c.toDeviceId = myDeviceId
  signed : C.verifyEd25519 expectedSigningKey c.signingPayload c.signature = true
  /-- Only a roster key makes the device ring, and not for long. -/
  offer : c.kind = .offer → c.signer = .roster ∧ c.createdAt < c.ringExpiresAt ∧
    c.ringExpiresAt - c.createdAt ≤ callRingTimeoutSecs + callClockSkewSecs
  /-- A call-control key declines, and nothing else. -/
  callKey : c.signer = .callKey → c.kind = .terminal ∧
    (c.reason = some .declinedHere ∨ c.reason = some .busy)

theorem verify_spec {C : Crypto} {c : CallCapsule} {myDeviceId expectedSigningKey : String}
    {now : ℕ} (h : c.verify C myDeviceId expectedSigningKey now = true) :
    AcceptedCapsule C c myDeviceId expectedSigningKey := by
  unfold CallCapsule.verify at h
  simp only [Bool.and_eq_true, beq_iff_eq] at h
  obtain ⟨⟨⟨⟨hformed, haddressed⟩, -⟩, -⟩, hsigned⟩ := h
  have hshaped := CallCapsule.shaped hformed
  have hallowed : c.signer = .roster ∨
      c.kind = .terminal ∧ (c.reason = some .declinedHere ∨ c.reason = some .busy) := by
    simpa [CallCapsule.signerAllowed] using hshaped.allowed
  exact {
    addressed := haddressed
    signed := hsigned
    offer := by
      intro hkind
      have hdeadline := hshaped.offer hkind
      unfold validOfferDeadline at hdeadline
      simp only [Bool.and_eq_true, decide_eq_true_eq] at hdeadline
      refine ⟨?_, hdeadline.1, hdeadline.2⟩
      rcases hallowed with hroster | ⟨hterminal, -⟩
      · exact hroster
      · rw [hkind] at hterminal
        cases hterminal
    callKey := by
      intro hsigner
      rcases hallowed with hroster | hdecline
      · rw [hsigner] at hroster
        cases hroster
      · exact hdecline }

/-- **Capsules**: every one that is well formed fits and is read back, its payload determines it,
and what is accepted is addressed to the device, with the authority of the key that signed it. -/
theorem capsule_authentic (C : Crypto) (X : X25519) (hkdf : Bytes → Bytes → Bytes → Bytes)
    (A : Aead) (fromSlice : Bytes → Option Json)
    (hread : ∀ c : CallCapsule, c.Typed → fromSlice (toVec c.toJson) = some c.toJson) :
    (∀ c : CallCapsule, c.Typed → c.wellFormed = true →
      (∀ key ephemeral nonce, sealCapsule X hkdf A key c.encode ephemeral nonce ≠ .error .tooLarge) ∧
      c.encode.length ≤ maxCapsuleBytes ∧ CallCapsule.decode fromSlice c.encode = some c) ∧
    (∀ c c' : CallCapsule, c.Typed → c'.Typed → c.wellFormed = true → c'.wellFormed = true →
      c.signingPayload = c'.signingPayload → { c with signature := c'.signature } = c') ∧
    (∀ (c : CallCapsule) (myDeviceId expectedSigningKey : String) (now : ℕ),
      c.verify C myDeviceId expectedSigningKey now = true →
      AcceptedCapsule C c myDeviceId expectedSigningKey) := by
  refine ⟨?_, ?_, fun c myDeviceId expectedSigningKey now h => verify_spec h⟩
  · intro c ht hformed
    have hroom := encode_room (CallCapsule.shaped hformed) ht
    refine ⟨fun key ephemeral nonce => sealCapsule_fits X hkdf A hroom, ?_,
      decode_encode hformed ht (hread c ht)⟩
    omega
  · intro c c' ht ht' hformed hformed' h
    exact signingPayload_inj (CallCapsule.shaped hformed) (CallCapsule.shaped hformed') ht ht' h

/-- A Diffie-Hellman of readable keys. -/
def X25519.plain : X25519 where
  fromBase64 := fun s => decodeBase64 (utf8 s)
  publicKey := fun secret => (secret ++ List.replicate 32 0).take 32
  diffieHellman := fun secret key => some (List.zipWith (· ^^^ ·) ((secret ++ List.replicate 32 0).take 32) key)

theorem X25519.plain_lawful : X25519.plain.Lawful where
  length := fun secret => by simp [X25519.plain]
  comm := fun a b => congrArg some (List.zipWith_comm_of_comm fun x y => UInt8.xor_comm x y)

theorem X25519.plain_contributes (secret key : Bytes) :
    ∃ shared, X25519.plain.diffieHellman secret key = some shared :=
  ⟨_, rfl⟩

def signedOffer : CallCapsule := { capsuleOf sampleCall with signature := bobAuth.signature }

/-- An offer that is signed, and sealed to the key that signed it. -/
theorem capsule_authentic_offer :
    (∃ blob, sealCapsule X25519.plain (fun salt shared _ => salt ++ shared) Aead.plain bobKey signedOffer.encode [1]
        storeNonce = .ok blob ∧
      (openCapsule X25519.plain (fun salt shared _ => salt ++ shared) Aead.plain ((decodeBase64 (utf8 bobKey)).getD [])
        blob).bind (CallCapsule.decode readVec) = some signedOffer) ∧
    AcceptedCapsule (sampleRelay [(bobKey, signedOffer.signingPayload, signedOffer.signature)]).crypto signedOffer "0"
      bobKey := by
  have hformed : signedOffer.wellFormed = true := by decide +kernel
  have htyped : signedOffer.Typed := ⟨by decide, by decide, by decide, by decide⟩
  have hmade : (bobKey, signedOffer.signingPayload, signedOffer.signature) ∈
      [(bobKey, signedOffer.signingPayload, signedOffer.signature)] := List.mem_cons_self
  have hsigned := sampleRelay_verifies hmade (by decide +kernel) (by decide +kernel)
  obtain ⟨hread, -, haccepted⟩ := capsule_authentic
    (sampleRelay [(bobKey, signedOffer.signingPayload, signedOffer.signature)]).crypto X25519.plain
    (fun salt shared _ => salt ++ shared) Aead.plain readVec fun c _ => readVec_toVec c.toJson
  obtain ⟨-, -, hdecode⟩ := hread signedOffer htyped hformed
  have hkey : X25519.plain.fromBase64 bobKey =
      some (X25519.plain.publicKey ((decodeBase64 (utf8 bobKey)).getD [])) := by decide +kernel
  have hroom := encode_room (CallCapsule.shaped hformed) htyped
  obtain ⟨shared, hshared⟩ := X25519.plain_contributes [1]
    (X25519.plain.publicKey ((decodeBase64 (utf8 bobKey)).getD []))
  obtain ⟨blob, hseal⟩ : ∃ blob, sealCapsule X25519.plain
      (fun salt shared _ => salt ++ shared) Aead.plain bobKey
      signedOffer.encode [1] storeNonce = .ok blob := sealCapsule_ok X25519.plain _ _ hroom hkey hshared
  refine ⟨⟨blob, hseal, ?_⟩, haccepted signedOffer "0" bobKey 110 ?_⟩
  · rw [openCapsule_sealCapsule X25519.plain_lawful Aead.plain_opens hkey hseal,
      Option.bind_some, hdecode]
  · unfold CallCapsule.verify
    rw [hformed, hsigned]
    decide +kernel

end Sona
