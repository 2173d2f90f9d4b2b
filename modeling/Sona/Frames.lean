/-
# From a payload to an event

`seal_payload_to` of `client-core` and `decode_frame` of `client-core/src/wire`: how
a payload becomes the ciphertext of an envelope, and what a client makes of a frame
of its relay. A frame that is no message has nothing to acknowledge; a message frame
is acknowledged whatever is in it, or it would stay in the mailbox for ever.

A payload that was sealed arrives as its event, through whatever the relay does to
the expiry (`sealed_payload_arrives`), and nobody is heard without a session: an event
is from the peer that the ratchet opened the ciphertext for, whatever the payload
says (`event_from_session`).

The JSON library is a parameter (`SerdeJson`). An enumeration is read from its text
only, not from the object that serde takes as well.

Key definitions: `SerdeJson`, `sealPayloadTo`, `decodeFrame`, `ReceivedEvent`, `ChatPayload.event`,
`readFrames`.
-/
import Sona.ChatPayload
import Sona.Contacts
import Sona.Inbound
import Sona.Lib.Base64
import Sona.Openings
import Sona.Padding
import Sona.Ratchet
import Sona.Routes
import Sona.Sockets

namespace Sona

/-! ### Texts -/

/-- What is used of `serde_json`: a text as a `Value`, and the JSON that a type is read from. -/
structure SerdeJson where
  value : String → Option Json
  fromStr : String → Option Json
  fromSlice : Bytes → Option Json

/-- `serde_json::to_string`. -/
def toText (j : Json) : String := String.ofList j.text

/-- `Value[name]`, which is null where there is no such field. -/
def valueAt (name : String) (j : Json) : Json := (j.field name).getD .null

/-- `STANDARD_NO_PAD.encode`. -/
def base64Text (bytes : Bytes) : String :=
  String.ofList ((encodeBase64 bytes).map fun b => Char.ofNat b.toNat)

/-! ### Envelopes -/

section codecs

open JsonCodec JsonField JsonRecord

def identityHashCodec : JsonCodec IdentityHash where
  write h := .str h.asStr
  read j := j.asStr.bind IdentityHash.fromHex
  ok h := Canonical h.asStr
  read_write _ h := h

def PayloadKind.text : PayloadKind → String
  | message => "message"
  | contactRequest => "contact_request"
  | deviceSync => "device_sync"
  | callCapsule => "call_capsule"

def PayloadKind.ofText : String → Option PayloadKind
  | "message" => some message
  | "contact_request" => some contactRequest
  | "device_sync" => some deviceSync
  | "call_capsule" => some callCapsule
  | _ => none

def WakeClass.text : WakeClass → String
  | none => "none"
  | normal => "normal"
  | call => "call"
  | callControl => "call_control"

def WakeClass.ofText : String → Option WakeClass
  | "none" => some none
  | "normal" => some normal
  | "call" => some call
  | "call_control" => some callControl
  | _ => Option.none

theorem str_solid (s : String) : JsonCodec.str.write s ≠ Json.null := by
  intro h
  cases h

/-- The wake came later, and an identifier must never be there. -/
def envelopeRecord :
    JsonRecord (IdentityHash × String × PayloadKind × String × Option ℕ × WakeClass × Option String × Unit) :=
  .cons (required "to" identityHashCodec) <| .cons (strField "ciphertext") <|
    .cons (required "kind" (text PayloadKind.text PayloadKind.ofText fun k => by cases k <;> rfl)) <|
    .cons (strField "msg_id") <| .cons (secsField "expires_at") <|
    .cons (defaulted "wake" (text WakeClass.text WakeClass.ofText fun w => by cases w <;> rfl) .normal) <|
    .cons (skipped "raw_identifier" (str.option str_solid) none) .nil

def envelopeCodec : JsonCodec Envelope :=
  (envelopeRecord.codec (by decide)).map
    (fun (recipient, ciphertext, kind, msgId, expiresAt, wake, rawIdentifier, ()) =>
      { recipient, ciphertext, kind, msgId, expiresAt, wake, rawIdentifier })
    (fun e => (e.recipient, e.ciphertext, e.kind, e.msgId, e.expiresAt, e.wake, e.rawIdentifier, ()))
    fun _ => rfl

/-- A hash that is spelled as it is read, and a time of its type. -/
def Envelope.Typed (env : Envelope) : Prop :=
  Canonical env.recipient.asStr ∧ ∀ t ∈ env.expiresAt, t ≤ u64Max

def ciphertextRecord : JsonRecord (ℕ × String × Unit) :=
  .cons (required "message_type" (uint 255)) <| .cons (strField "body") .nil

def ciphertextCodec : JsonCodec CiphertextMessage :=
  (ciphertextRecord.codec (by decide)).map (fun (messageType, body, ()) => { messageType, body })
    (fun c => (c.messageType, c.body, ())) fun _ => rfl

end codecs

def ServerFrame.toJson : ServerFrame → Json
  | .ready => .obj [("type", .str "ready")]
  | .authFailed => .obj [("type", .str "auth_failed")]
  | .revoked => .obj [("type", .str "revoked")]
  | .message envelope => .obj [("type", .str "message"), ("envelope", envelopeCodec.write envelope)]

def ServerFrame.text (f : ServerFrame) : String := toText f.toJson

/-- What the documentation of `serde_json` promises of what the program writes: a text is read as
the value it was written for, and a `Value` has its fields by their names. -/
structure SerdeJson.Reads (J : SerdeJson) : Prop where
  frame : ∀ f : ServerFrame, (∀ env, f = .message env → env.Typed) →
    J.value f.text = some f.toJson.sorted
  cipher : ∀ c : CiphertextMessage, c.messageType ≤ 255 →
    J.fromStr (toText (ciphertextCodec.write c)) = some (ciphertextCodec.write c)
  payload : ∀ p : ChatPayload, p.Typed → J.fromSlice (toVec p.toJson) = some p.toJson

/-! ### Sealing -/

/-- The texts of the errors. What the standard library says of bytes that are no text, and the JSON
library of a state, is not modelled. -/
def RatchetError.text : RatchetError → String
  | .noSession => "no session with this contact and message is not a session-initiating pre-key"
  | .malformed t => "malformed key or message: " ++ t
  | .encrypt t => "encryption failed: " ++ t
  | .decrypt t => "decryption failed: " ++ t
  | .invalidUtf8 _ => "decryption failed: invalid utf8: "
  | .establish t => "session establishment failed: " ++ t
  | .state => "state (de)serialization failed: "

section sealing

variable {V : Vodozemac}

/-- What the ratchet encrypts: the payload, padded. -/
def wireText (p : ChatPayload) : Checked String := do
  return base64Text (← Padding.pad (toVec p.toJson))

/-- The session has moved on also where the mailbox is none. -/
def sealPayloadTo (account : RatchetEngine V) (mailboxHash deviceIdentityKey : String)
    (p : ChatPayload) (msgId : String) (d : V.Draw) :
    Checked (Except ClientError Envelope × RatchetEngine V) := do
  let wire ← wireText p
  match account.encrypt deviceIdentityKey wire d with
  | (.error err, account) => return (.error (.crypto err.text), account)
  | (.ok cipher, account) =>
    match IdentityHash.fromHex mailboxHash with
    | none => return (.error (.protocol "bad mailbox hash"), account)
    | some recipient =>
      return (.ok
        { recipient
          ciphertext := toText (ciphertextCodec.write cipher)
          kind := .message
          msgId
          expiresAt := p.envelopeExpiryFor
          wake := p.wakeClassFor
          rawIdentifier := none }, account)

end sealing

/-! ### Events -/

/-- What a client is told. What changes its history is `InboundEvent`, and the events of calls carry
what their payloads do. -/
inductive ReceivedEvent
  | history (event : InboundEvent)
  | signal (sender : String) (signal : CallSignal)
  | peerHead (sender : String) (head : SignedTreeHead)
  | syncRequested (sender provisioningId linkSecretB64 : String)
  | primaryTransferOffered (sender : String) (entry : KtEntry) (demoted : DeviceRecord)
  | typing (sender : String) (typing : Bool)
  | groupTyping (sender groupId : String) (typing : Bool)

/-- The event of a payload, which comes from `sender` under the id of its envelope. -/
def ChatPayload.event (sender msgId : String) : ChatPayload → ReceivedEvent
  | text body ts username reply expireSecs fwd =>
    .history (.message sender username msgId body ts reply expireSecs fwd)
  | knock username => .history (.knock sender username)
  | edit msgId body => .history (.messageEdited sender msgId body)
  | deleteMsg msgId => .history (.messageDeleted sender msgId)
  | timer secs => .history (.timerUpdate sender secs)
  | file attachment username expireSecs fwd =>
    .history (.attachment sender username msgId attachment attachment.ts expireSecs fwd)
  | deleteChat => .history (.chatDeleted sender)
  | receipt ids seen => .history (.receipt sender ids seen)
  | gossip head => .peerHead sender head
  | groupRoster epoch name disappearingSecs avatar =>
    .history (.groupRosterUpdate sender epoch name disappearingSecs avatar)
  | groupText groupId body ts expireSecs reply fwd =>
    .history (.groupMessage sender groupId msgId body ts expireSecs reply fwd)
  | groupEdit groupId msgId body => .history (.groupMessageEdited sender groupId msgId body)
  | groupDeleteMsg groupId msgId => .history (.groupMessageDeleted sender groupId msgId)
  | groupRename groupId name => .history (.groupRenamed sender groupId name)
  | groupLeave groupId => .history (.groupMemberLeft sender groupId)
  | groupFile groupId attachment ts expireSecs fwd =>
    .history (.groupAttachment sender groupId msgId attachment ts expireSecs fwd)
  | groupTimer groupId secs => .history (.groupTimerUpdate sender groupId secs)
  | rename newUsername => .history (.renamed sender newUsername)
  | profile avatar => .history (.profileUpdate sender avatar)
  | groupAvatar groupId avatar => .history (.groupAvatarUpdate sender groupId avatar)
  | call signal => .signal sender signal
  | selfText peerKey peerUsername msgId body ts reply expireSecs fwd =>
    .history (.selfSentText sender peerKey peerUsername msgId body ts reply expireSecs fwd)
  | selfFile peerKey peerUsername msgId attachment expireSecs fwd =>
    .history (.selfSentFile sender peerKey peerUsername msgId attachment expireSecs fwd)
  | selfSeen peerKey ids => .history (.selfReadSeen sender peerKey ids)
  | syncRequest provisioningId linkSecretB64 => .syncRequested sender provisioningId linkSecretB64
  | primaryTransfer entry demoted => .primaryTransferOffered sender entry demoted
  | forwardIncoming fromKey fromUsername msgId body ts reply attachment expireSecs =>
    .history (.forwardedIncoming sender fromKey fromUsername msgId body ts reply attachment expireSecs)
  | reaction targetMsgId emoji add _ => .history (.reaction sender targetMsgId emoji add)
  | selfReaction peerKey targetMsgId emoji add =>
    .history (.selfReaction sender peerKey targetMsgId emoji add)
  | selfTimer peerKey secs => .history (.selfTimerUpdate sender peerKey secs)
  | selfProfile avatar => .history (.selfProfileUpdate sender avatar)
  | groupReaction groupId targetMsgId emoji add _ =>
    .history (.groupReaction sender groupId targetMsgId emoji add)
  | pinMsg msgId pin => .history (.messagePinned sender msgId pin)
  | selfPinMsg peerKey msgId pin => .history (.selfMessagePinned sender peerKey msgId pin)
  | groupPinMsg groupId msgId pin => .history (.groupMessagePinned sender groupId msgId pin)
  | typing on => .typing sender on
  | groupTyping groupId on => .groupTyping sender groupId on

/-! ### Decoding -/

inductive Decoded
  | ready
  | authFailed
  | revoked
  /-- Applied, then acknowledged. -/
  | event (event : ReceivedEvent) (ackMsgId : String)
  /-- Acknowledged if there is an id. -/
  | ignore (ackMsgId : Option String)

/-- What the caller acknowledges. -/
def Decoded.ack : Decoded → Option String
  | event _ ackMsgId => some ackMsgId
  | ignore ackMsgId => ackMsgId
  | ready | authFailed | revoked => none

section decoding

variable {V : Vodozemac} (J : SerdeJson)

/-- The payload behind a plaintext. -/
def parsePayload (wire : String) : Checked (Option ChatPayload) :=
  match decodeBase64 (utf8 wire) with
  | none => .ok none
  | some padded => do
    match ← Padding.unpad padded with
    | none => return none
    | some json => return (J.fromSlice json).bind ChatPayload.ofJson

/-- A message frame, once it is a `Value`. -/
def decodeMessage (order : List String) (v : Json) (account : RatchetEngine V) :
    Checked (Decoded × RatchetEngine V) :=
  let rawId := (valueAt "msg_id" (valueAt "envelope" v)).asStr
  match envelopeCodec.read (valueAt "envelope" v) with
  | none => .ok (.ignore rawId, account)
  | some envelope =>
    match (J.fromStr envelope.ciphertext).bind ciphertextCodec.read with
    | none => .ok (.ignore rawId, account)
    | some cipher =>
      match account.decryptUnattributed order cipher with
      | (.error _, account) => .ok (.ignore rawId, account)
      | (.ok (sender, wire), account) => do
        match ← parsePayload J wire with
        | none => return (.ignore (some envelope.msgId), account)
        | some p => return (.event (p.event sender envelope.msgId) envelope.msgId, account)

def decodeFrame (order : List String) (text : String) (account : RatchetEngine V) :
    Checked (Decoded × RatchetEngine V) :=
  match J.value text with
  | none => .ok (.ignore none, account)
  | some v =>
    match (valueAt "type" v).asStr with
    | some "ready" => .ok (.ready, account)
    | some "auth_failed" => .ok (.authFailed, account)
    | some "revoked" => .ok (.revoked, account)
    | some "message" => decodeMessage J order v account
    | _ => .ok (.ignore none, account)

/-- The frames of a socket are decoded in turn: what is to be acknowledged. `order` says how the map
of the sessions hands out its peers. -/
def readFrames (order : RatchetEngine V → List String) : List String → RatchetEngine V →
    Checked (List String × RatchetEngine V)
  | [], account => .ok ([], account)
  | text :: texts, account => do
    let (decoded, account) ← decodeFrame J (order account) text account
    let (ids, account) ← readFrames order texts account
    return (decoded.ack.toList ++ ids, account)

end decoding

/-! ### What is read of what was written -/

theorem utf8EncodeChar_ofByte {b : UInt8} (h : b.toNat < 128) :
    String.utf8EncodeChar (Char.ofNat b.toNat) = [b] := by
  have hvalid : b.toNat.isValidChar := Or.inl (by omega)
  have hval : (Char.ofNat b.toNat).val.toNat = b.toNat := by
    rw [Char.ofNat, dif_pos hvalid]
    rfl
  unfold String.utf8EncodeChar
  simp only [hval]
  rw [if_pos (by omega)]
  simp

theorem utf8_base64Text (bytes : Bytes) : utf8 (base64Text bytes) = encodeBase64 bytes := by
  rw [utf8_toList, base64Text, String.toList_ofList, List.flatMap_map]
  have hchars : ∀ b ∈ encodeBase64 bytes, String.utf8EncodeChar (Char.ofNat b.toNat) = [b] :=
    fun b hb => utf8EncodeChar_ofByte (encodeBase64_ascii bytes b hb)
  rw [List.flatMap_congr hchars]
  simp

section reads

variable {J : SerdeJson} (hJ : J.Reads)
include hJ

/-- A padded payload is read back. -/
theorem parsePayload_wireText {p : ChatPayload} (hp : p.Typed)
    (hsize : (toVec p.toJson).length < 2 ^ 32) :
    ∃ wire, wireText p = .ok wire ∧ parsePayload J wire = .ok (some p) := by
  obtain ⟨padded, hpad, hunpad⟩ := Padding.unpad_pad hsize
  refine ⟨base64Text padded, ?_, ?_⟩
  · unfold wireText
    rw [hpad, Checked.ok_bind]
    rfl
  · unfold parsePayload
    rw [utf8_base64Text, decodeBase64_encodeBase64]
    dsimp only
    rw [hunpad, Checked.ok_bind]
    dsimp only
    rw [hJ.payload p hp, Option.bind_some, ChatPayload.ofJson_toJson hp]
    rfl

end reads

theorem envelope_leaves (env : Envelope) :
    ∀ f ∈ envelopeRecord.write (env.recipient, env.ciphertext, env.kind, env.msgId, env.expiresAt, env.wake,
      env.rawIdentifier, ()), f.2.sorted = f.2 := by
  obtain ⟨recipient, ciphertext, kind, msgId, expiresAt, wake, rawIdentifier⟩ := env
  cases expiresAt <;> cases rawIdentifier <;>
    simp [envelopeRecord, JsonRecord.cons, JsonRecord.nil, JsonField.required, JsonField.defaulted,
      JsonField.skipped, strField, secsField, JsonCodec.str, JsonCodec.text, JsonCodec.option, JsonCodec.uint, identityHashCodec,
        Json.sorted]

/-- The envelope of a message frame, as a `Value`. -/
theorem valueAt_envelope (env : Envelope) :
    (valueAt "type" (ServerFrame.message env).toJson.sorted).asStr = some "message" ∧
      valueAt "envelope" (ServerFrame.message env).toJson.sorted =
        (envelopeCodec.write env).sorted := by
  unfold valueAt ServerFrame.toJson Json.field
  rw [Json.optField_sorted, Json.optField_sorted, Json.optField_obj, Json.optField_obj]
  constructor
  · simp [Json.sorted]
  · simp

theorem read_envelope {env : Envelope} (h : env.Typed) :
    envelopeCodec.read (envelopeCodec.write env).sorted = some env ∧
      (valueAt "msg_id" (envelopeCodec.write env).sorted).asStr = some env.msgId := by
  have hleaves := envelope_leaves env
  have hsame : ∀ n, (envelopeCodec.write env).sorted.optField n =
      (envelopeCodec.write env).optField n :=
    Json.optField_sorted_of_leaves hleaves
  have hok : envelopeRecord.ok (env.recipient, env.ciphertext, env.kind, env.msgId, env.expiresAt, env.wake,
      env.rawIdentifier, ()) := by
    refine ⟨h.1, trivial, trivial, trivial, h.2, trivial, ?_, trivial⟩
    exact fun _ _ => trivial
  constructor
  · have hread := envelopeRecord.read_of (by decide) _ hok (envelopeCodec.write env).sorted
      fun n _ => Or.inl (hsame n)
    exact congrArg (Option.map _) hread
  · unfold valueAt Json.field
    rw [hsame]
    obtain ⟨recipient, ciphertext, kind, msgId, expiresAt, wake, rawIdentifier⟩ := env
    cases rawIdentifier <;> rfl

/-! ### Sealing and decoding -/

theorem clampExpiry_typed (now : ℕ) (requested : Option ℕ) :
    clampExpiry now requested ≤ u64Max := by
  have hceiling : saturatingAdd now maxMessageTtlSecs ≤ u64Max := min_le_right _ _
  unfold clampExpiry
  cases requested with
  | none => exact hceiling
  | some exp => exact le_trans (min_le_right _ _) hceiling

theorem Padding.unpad_total (buf : Bytes) : ∃ o, Padding.unpad buf = .ok o := by
  unfold Padding.unpad
  by_cases hshort : buf.length < lenField
  · exact ⟨none, by rw [if_pos hshort]; rfl⟩
  have hword : slice buf 0 lenField = .ok (buf.take lenField) := slice_front (by omega)
  rw [if_neg hshort, hword, Checked.ok_bind]
  dsimp only
  by_cases hsum : lenField + beValue (buf.take lenField) < 2 ^ 64
  · rw [addWord_eq hsum]
    by_cases hfits : lenField + beValue (buf.take lenField) ≤ buf.length
    · refine ⟨some ((buf.drop lenField).take (beValue (buf.take lenField))), ?_⟩
      simp [Except.toOption, slice_eq hfits, hfits]
    · exact ⟨none, by simp [Except.toOption, Nat.lt_of_not_le hfits]; rfl⟩
  · rw [addWord_overflow (Nat.le_of_not_lt hsum)]
    exact ⟨none, rfl⟩

theorem parsePayload_total (J : SerdeJson) (wire : String) : ∃ o, parsePayload J wire = .ok o := by
  unfold parsePayload
  cases decodeBase64 (utf8 wire) with
  | none => exact ⟨none, rfl⟩
  | some padded =>
    obtain ⟨o, ho⟩ := Padding.unpad_total padded
    dsimp only
    rw [ho, Checked.ok_bind]
    cases o with
    | none => exact ⟨none, rfl⟩
    | some json => exact ⟨_, rfl⟩

section arrives

variable {J : SerdeJson} (hJ : J.Reads) {V : Vodozemac}
include hJ

/-- A message frame is decoded from its envelope. -/
theorem decodeFrame_message {env : Envelope} (h : env.Typed) (order : List String)
    (account : RatchetEngine V) :
    decodeFrame J order (ServerFrame.message env).text account =
      decodeMessage J order (ServerFrame.message env).toJson.sorted account := by
  unfold decodeFrame
  rw [hJ.frame (.message env) fun _ heq => by cases heq; exact h]
  dsimp only
  rw [(valueAt_envelope env).1]
  rfl

/-- Whatever the account makes of it, a message frame is acknowledged. -/
theorem decodeFrame_ack {env : Envelope} (h : env.Typed) (order : List String)
    (account : RatchetEngine V) :
    ∃ decoded account', decodeFrame J order (ServerFrame.message env).text account =
      .ok (decoded, account') ∧
      decoded.ack = some env.msgId := by
  obtain ⟨hread, hid⟩ := read_envelope h
  rw [decodeFrame_message hJ h]
  unfold decodeMessage
  rw [(valueAt_envelope env).2, hread, hid]
  dsimp only
  cases hc : (J.fromStr env.ciphertext).bind ciphertextCodec.read with
  | none => exact ⟨_, _, rfl, rfl⟩
  | some cipher =>
    dsimp only
    rcases account.decryptUnattributed order cipher with ⟨_ | ⟨sender, wire⟩, account'⟩
    · exact ⟨_, _, rfl, rfl⟩
    · obtain ⟨o, ho⟩ := parsePayload_total J wire
      dsimp only
      rw [ho, Checked.ok_bind]
      cases o with
      | none => exact ⟨_, _, rfl, rfl⟩
      | some p => exact ⟨_, _, rfl, rfl⟩

/-- A ciphertext that the ratchet opens is decoded to the event of its payload. -/
theorem decodeFrame_opened {env : Envelope} (htyped : env.Typed) {cipher : CiphertextMessage}
    (htype : cipher.messageType ≤ 255)
    (hcipher : env.ciphertext = toText (ciphertextCodec.write cipher)) {order : List String}
    {account account' : RatchetEngine V} {sender wire : String}
    (hopen : account.decryptUnattributed order cipher = (.ok (sender, wire), account'))
    {p : ChatPayload} (hparse : parsePayload J wire = .ok (some p)) :
    decodeFrame J order (ServerFrame.message env).text account =
      .ok (.event (p.event sender env.msgId) env.msgId, account') := by
  have hread : (J.fromStr env.ciphertext).bind ciphertextCodec.read = some cipher := by
    rw [hcipher, hJ.cipher cipher htype]
    exact ciphertextCodec.read_write cipher ⟨htype, trivial, trivial⟩
  rw [decodeFrame_message hJ htyped]
  unfold decodeMessage
  rw [(valueAt_envelope _).2, (read_envelope htyped).1]
  dsimp only
  rw [hread]
  dsimp only
  rw [hopen]
  dsimp only
  rw [hparse, Checked.ok_bind]
  rfl

omit hJ in
/-- What is in an envelope that was made for a payload. -/
theorem sealPayloadTo_ok {p : ChatPayload} {account account' : RatchetEngine V}
    {mailboxHash device msgId : String} {d : V.Draw} {env : Envelope}
    (h : sealPayloadTo account mailboxHash device p msgId d = .ok (.ok env, account')) :
    ∃ wire cipher, wireText p = .ok wire ∧ account.encrypt device wire d = (.ok cipher, account') ∧
      Canonical env.recipient.asStr ∧ env.ciphertext = toText (ciphertextCodec.write cipher) ∧
      env.msgId = msgId := by
  unfold sealPayloadTo at h
  cases hwire : wireText p with
  | error why =>
    rw [hwire] at h
    cases h
  | ok wire =>
    rw [hwire, Checked.ok_bind] at h
    rcases henc : account.encrypt device wire d with ⟨_ | cipher, account''⟩
    · rw [henc] at h
      cases h
    · rw [henc] at h
      cases hto : IdentityHash.fromHex mailboxHash with
      | none =>
        rw [hto] at h
        cases h
      | some recipient =>
        rw [hto] at h
        cases h
        exact ⟨wire, cipher, rfl, henc, IdentityHash.canonical_of_fromHex hto, rfl, rfl⟩

end arrives

/-! ### A payload on its way -/

/-- The JSON library, for the compact spelling. -/
def compactSerde : SerdeJson where
  value text := (Json.read text.toList).map Json.sorted
  fromStr text := Json.read text.toList
  fromSlice := readVec

theorem read_toText (j : Json) : Json.read (toText j).toList = some j := by
  rw [toText, String.toList_ofList, Json.read_text]

theorem compactSerde_value (j : Json) : compactSerde.value (toText j) = some j.sorted := by
  unfold compactSerde
  dsimp only
  rw [read_toText, Option.map_some]

theorem compactSerde_fromStr (j : Json) : compactSerde.fromStr (toText j) = some j := read_toText j

theorem compactSerde_fromSlice (j : Json) : compactSerde.fromSlice (toVec j) = some j :=
  readVec_toVec j

theorem compactSerde_reads : compactSerde.Reads :=
  ⟨fun f _ => compactSerde_value f.toJson, fun c _ => compactSerde_fromStr (ciphertextCodec.write c),
    fun p _ => compactSerde_fromSlice p.toJson⟩

theorem fromUtf8_utf8 (s : String) : fromUtf8 (utf8 s) = some s := by
  have hbytes : ByteArray.mk (utf8 s).toArray = s.toByteArray := by
    unfold utf8
    simp
  have hvalid : (ByteArray.mk (utf8 s).toArray).IsValidUTF8 := by
    rw [hbytes]
    exact s.isValidUTF8
  unfold fromUtf8
  rw [dif_pos hvalid]
  exact congrArg some (String.toByteArray_inj.mp hbytes)

/-- A holds a session that B's fallback key is for. -/
def engineOfA : RatchetEngine sampleOlm :=
  ((RatchetEngine.new (V := sampleOlm) (65 : ℕ)).establishOutbound
    { identityKey := "B", signingKey := "eB", oneTimeKey := "f" } (1 : ℕ)).2

def waitingB : RatchetEngine sampleOlm :=
  ((RatchetEngine.new (V := sampleOlm) (66 : ℕ)).generateFallbackKey (102 : ℕ)).2

/-- The first thing that A says. -/
def firstOfA (wire : String) : SamplePreKey ⊕ SampleMessage :=
  .inl ⟨⟨⟨'A', 'f', 1⟩, false, 0, utf8 wire⟩⟩

theorem engineOfA_encrypts (wire : String) :
    ∃ account', engineOfA.encrypt "B" wire (0 : ℕ) =
      (.ok (ciphertextOf (firstOfA wire)), account') := by
  have hlist : engineOfA.list "B" = [({ handshake := ⟨'A', 'f', 1⟩, initiator := true } : SampleSession)] := rfl
  unfold RatchetEngine.encrypt
  rw [hlist]
  exact ⟨_, rfl⟩

/-- The parts of it are the bytes of a text, and are taken apart again. -/
theorem firstOfA_parts (wire : String) :
    (sampleParts (firstOfA wire)).2 = utf8 ("Af" ++ String.ofList [Char.ofNat 1, Char.ofNat 0, Char.ofNat 0] ++ wire) ∧
      sampleOfParts 0 (sampleParts (firstOfA wire)).2 = .ok (firstOfA wire) := by
  constructor
  · rw [utf8_toList, String.toList_append, List.flatMap_append, ← utf8_toList wire]
    rfl
  · rfl

theorem waitingB_opens (wire : String) :
    (waitingB.decryptUnattributed [] (ciphertextOf (firstOfA wire))).1 = .ok ("A", wire) := by
  obtain ⟨hbytes, hparts⟩ := firstOfA_parts wire
  have hbody : (ciphertextOf (firstOfA wire)).body =
      "Af" ++ String.ofList [Char.ofNat 1, Char.ofNat 0, Char.ofNat 0] ++ wire := by
    change (fromUtf8 (sampleParts (firstOfA wire)).2).getD "" = _
    rw [hbytes, fromUtf8_utf8]
    rfl
  have hparse : RatchetEngine.parse (V := sampleOlm) (ciphertextOf (firstOfA wire)) =
      .ok (firstOfA wire) := by
    have hdecode : sampleOlm.base64Decode (ciphertextOf (firstOfA wire)).body =
        .ok (sampleParts (firstOfA wire)).2 := by
      change Except.ok (utf8 _) = _
      rw [hbody, hbytes]
    have hfrom : sampleOlm.fromParts (ciphertextOf (firstOfA wire)).messageType
        (sampleParts (firstOfA wire)).2 =
        .ok (firstOfA wire) := hparts
    unfold RatchetEngine.parse
    rw [hdecode]
    dsimp only
    rw [hfrom]
  -- there is no session of A yet, and the fallback key is the one that it used
  have hnone : RatchetEngine.withId (V := sampleOlm)
      (sampleOlm.preKeySessionId ⟨⟨⟨'A', 'f', 1⟩, false, 0, utf8 wire⟩⟩)
      (waitingB.list "A") = none := rfl
  have hcreates : sampleOlm.createInboundSession waitingB.account
      (sampleOlm.preKeyIdentityKey ⟨⟨⟨'A', 'f', 1⟩, false, 0, utf8 wire⟩⟩)
      ⟨⟨⟨'A', 'f', 1⟩, false, 0, utf8 wire⟩⟩ =
      (.ok (({ handshake := ⟨'A', 'f', 1⟩, initiator := false, spent := [0] } : SampleSession), utf8 wire),
        waitingB.account) := rfl
  have hsender :
      sampleOlm.toBase64 (sampleOlm.preKeyIdentityKey ⟨⟨⟨'A', 'f', 1⟩, false, 0, utf8 wire⟩⟩) = "A" := rfl
  rw [RatchetEngine.decryptUnattributed_of_parse hparse]
  change (waitingB.decryptPreKey ⟨⟨⟨'A', 'f', 1⟩, false, 0, utf8 wire⟩⟩).1 = _
  unfold RatchetEngine.decryptPreKey
  dsimp only
  rw [hsender, hnone]
  dsimp only
  rw [hcreates]
  dsimp only
  unfold RatchetEngine.text
  rw [fromUtf8_utf8]

theorem firstText_small : (toVec ChatPayload.firstText.toJson).length < 2 ^ 32 := by decide +kernel

/-- The envelope that A makes of it. -/
def envelopeOfA (wire : String) : Envelope where
  recipient := ⟨bobHash⟩
  ciphertext := toText (ciphertextCodec.write (ciphertextOf (firstOfA wire)))
  kind := .message
  msgId := "m1"
  expiresAt := none
  wake := .normal
  rawIdentifier := none

theorem bobHash_reads : IdentityHash.fromHex bobHash = some ⟨bobHash⟩ := by decide +kernel

theorem firstText_sealed :
    ∃ wire account', parsePayload compactSerde wire = .ok (some ChatPayload.firstText) ∧
    sealPayloadTo engineOfA bobHash "B" ChatPayload.firstText "m1" (0 : ℕ) =
      .ok (.ok (envelopeOfA wire), account') := by
  obtain ⟨wire, hwire, hparse⟩ := parsePayload_wireText compactSerde_reads ChatPayload.firstText_typed firstText_small
  obtain ⟨account', henc⟩ := engineOfA_encrypts wire
  refine ⟨wire, account', hparse, ?_⟩
  unfold sealPayloadTo
  rw [hwire, Checked.ok_bind, henc]
  dsimp only
  rw [bobHash_reads]
  rfl

/-! ### What arrives -/

section arrives

variable {J : SerdeJson} (hJ : J.Reads) {V : Vodozemac}
include hJ

/-- **A payload that was sealed arrives as its event.** -/
theorem sealed_payload_arrives {p : ChatPayload} (hp : p.Typed)
    (hsize : (toVec p.toJson).length < 2 ^ 32) {account account' : RatchetEngine V}
    {mailboxHash device msgId : String} {d : V.Draw} {env : Envelope}
    (hseal : sealPayloadTo account mailboxHash device p msgId d = .ok (.ok env, account'))
    {peer : RatchetEngine V} {order : List String} {sender : String}
    (hopen : ∀ wire cipher, (account.encrypt device wire d).1 = .ok cipher →
      cipher.messageType ≤ 255 ∧ (peer.decryptUnattributed order cipher).1 = .ok (sender, wire))
    (now : ℕ) : ∃ peer', decodeFrame J order (ServerFrame.message (env.clamped now)).text peer =
      .ok (.event (p.event sender msgId) msgId, peer') := by
  obtain ⟨wire, hwire, hparse⟩ := parsePayload_wireText hJ hp hsize
  obtain ⟨wire', cipher, hwire', henc, hto, hciphertext, rfl⟩ := sealPayloadTo_ok hseal
  obtain rfl : wire = wire' := by
    rw [hwire] at hwire'
    cases hwire'
    rfl
  obtain ⟨htype, hopened⟩ := hopen wire cipher (by rw [henc])
  have htyped : (env.clamped now).Typed := by
    refine ⟨hto, fun t ht => ?_⟩
    cases ht
    exact clampExpiry_typed now _
  rcases hdec : peer.decryptUnattributed order cipher with ⟨result, peer'⟩
  rw [hdec] at hopened
  obtain rfl : result = .ok (sender, wire) := hopened
  exact ⟨peer', decodeFrame_opened hJ htyped htype hciphertext hdec hparse⟩

end arrives

theorem sealed_payload_arrives_first : ∃ env account' peer',
    sealPayloadTo engineOfA bobHash "B" ChatPayload.firstText "m1" (0 : ℕ) =
      .ok (.ok env, account') ∧
      decodeFrame compactSerde [] (ServerFrame.message (env.clamped 1000)).text waitingB =
        .ok (.event (.history (.message "A" "" "m1" "hi" 7 none none false)) "m1", peer') := by
  obtain ⟨wire, account', -, hseal⟩ := firstText_sealed
  have hopen : ∀ wire cipher, (engineOfA.encrypt "B" wire (0 : ℕ)).1 = .ok cipher →
      cipher.messageType ≤ 255 ∧ (waitingB.decryptUnattributed [] cipher).1 = .ok ("A", wire) := by
    intro wire cipher henc
    obtain ⟨account', hmade⟩ := engineOfA_encrypts wire
    rw [hmade] at henc
    cases henc
    exact ⟨(show 0 ≤ 255 from Nat.zero_le _), waitingB_opens wire⟩
  obtain ⟨peer', harrives⟩ := sealed_payload_arrives compactSerde_reads ChatPayload.firstText_typed firstText_small hseal
    hopen 1000
  exact ⟨_, account', peer', hseal, harrives⟩

/-! ### Who an event is from -/

/-- The device that an event is attributed to. -/
def ReceivedEvent.sender : ReceivedEvent → Option String
  | history event => event.sender
  | signal sender _ | peerHead sender _ | syncRequested sender .. | primaryTransferOffered sender .. | typing sender _
  | groupTyping sender .. => some sender

theorem ChatPayload.event_sender (sender msgId : String) (p : ChatPayload) :
    (p.event sender msgId).sender = some sender := by
  cases p <;> rfl

/-- The ciphertext in a message frame. -/
def frameCipher (J : SerdeJson) (text : String) : Option CiphertextMessage := do
  let envelope ← envelopeCodec.read (valueAt "envelope" (← J.value text))
  ciphertextCodec.read (← J.fromStr envelope.ciphertext)

/-- What is behind an event: the ratchet opened the ciphertext of its envelope for its sender. -/
theorem decodeFrame_event {J : SerdeJson} {V : Vodozemac} {order : List String} {text : String}
    {account account' : RatchetEngine V} {event : ReceivedEvent} {ackMsgId : String}
    (h : decodeFrame J order text account = .ok (.event event ackMsgId, account')) :
    ∃ cipher sender wire, frameCipher J text = some cipher ∧
      account.decryptUnattributed order cipher = (.ok (sender, wire), account') ∧
      event.sender = some sender := by
  unfold decodeFrame at h
  cases hv : J.value text with
  | none =>
    rw [hv] at h
    cases h
  | some v =>
    rw [hv] at h
    have hmessage : decodeMessage J order v account = .ok (.event event ackMsgId, account') := by
      dsimp only at h
      split at h
      all_goals first | exact h | cases h
    unfold decodeMessage at hmessage
    dsimp only at hmessage
    cases he : envelopeCodec.read (valueAt "envelope" v) with
    | none =>
      rw [he] at hmessage
      cases hmessage
    | some envelope =>
      rw [he] at hmessage
      dsimp only at hmessage
      cases hc : (J.fromStr envelope.ciphertext).bind ciphertextCodec.read with
      | none =>
        rw [hc] at hmessage
        cases hmessage
      | some cipher =>
        rw [hc] at hmessage
        dsimp only at hmessage
        rcases hd : account.decryptUnattributed order cipher with ⟨_ | ⟨sender, wire⟩, account''⟩
        · rw [hd] at hmessage
          cases hmessage
        · rw [hd] at hmessage
          obtain ⟨o, ho⟩ := parsePayload_total J wire
          dsimp only at hmessage
          rw [ho, Checked.ok_bind] at hmessage
          cases o with
          | none => cases hmessage
          | some p =>
            cases hmessage
            refine ⟨cipher, sender, wire, ?_, hd, p.event_sender sender _⟩
            unfold frameCipher
            rw [hv, Option.bind_eq_bind, Option.bind_some, he]
            exact hc

/-- **Nobody is heard without a session.** An event is from a peer whose session opened the
ciphertext, or it started one with a handshake of its own key, whatever the payload says of its
sender; and there is a session of the peer from then on. -/
theorem event_from_session {J : SerdeJson} {V : Vodozemac} (hV : V.Lawful) {order : List String}
    {text : String} {account account' : RatchetEngine V} {event : ReceivedEvent} {ackMsgId : String}
    (h : decodeFrame J order text account = .ok (.event event ackMsgId, account')) :
    ∃ sender cipher olm, event.sender = some sender ∧ frameCipher J text = some cipher ∧
      RatchetEngine.parse (V := V) cipher = .ok olm ∧ account'.hasSession sender = true ∧
      ((∃ s ∈ account.list sender, RatchetEngine.opens olm s = true) ∨
        ∃ preKey, olm = .inl preKey ∧ sender = V.toBase64 (V.preKeyIdentityKey preKey) ∧
          (V.createInboundSession account.account (V.preKeyIdentityKey preKey) preKey).1.isOk = true) := by
  obtain ⟨cipher, sender, wire, hcipher, hdecrypt, hsender⟩ := decodeFrame_event h
  have hok : (account.decryptUnattributed order cipher).1.isOk = true := by
    rw [hdecrypt]
    rfl
  obtain ⟨olm, hparse⟩ := RatchetEngine.parse_of_ok hok
  refine ⟨sender, cipher, olm, hsender, hcipher, hparse, ?_⟩
  rw [RatchetEngine.decryptUnattributed_of_parse hparse] at hdecrypt
  have hd := RatchetEngine.decrypted (e := account) hV order olm
  rw [hdecrypt] at hd
  generalize hresult :
    (Except.ok (sender, wire) : Except RatchetError (String × String)) = result at hd
  generalize account.usedBy order olm = use at hd
  rw [RatchetEngine.hasSession_iff]
  cases hd with
  | refused => cases hresult
  | @opened sender' idx s s' bytes _ place opens names _ lists =>
    obtain rfl := RatchetEngine.text_ok hresult.symm
    refine ⟨?_, Or.inl ⟨s, List.mem_of_getElem? place, ?_⟩⟩
    · have hlen : ((account.list sender).set idx s').length ≠ 0 := by
        rw [List.length_set]
        exact Nat.ne_of_gt (List.length_pos_of_mem (List.mem_of_getElem? place))
      rw [lists, if_pos rfl]
      intro hnil
      have hperm := (Recent.promote_perm idx ((account.list sender).set idx s')).length_eq
      rw [hnil] at hperm
      exact hlen hperm.symm
    · unfold RatchetEngine.opens
      rw [opens]
      rfl
  | @created preKey s bytes account'' _ starts fresh creates lists =>
    obtain rfl := RatchetEngine.text_ok hresult.symm
    refine ⟨?_, Or.inr ⟨preKey, starts, rfl, ?_⟩⟩
    · rw [lists, if_pos rfl]
      exact List.ne_nil_of_mem (Recent.mem_push_self (by decide) s _)
    · rw [creates]
      rfl

theorem event_from_session_first : ∃ env peer',
    decodeFrame compactSerde [] (ServerFrame.message env).text waitingB =
        .ok (.event (.history (.message "A" "" "m1" "hi" 7 none none false)) "m1", peer') ∧
      waitingB.hasSession "A" = false ∧ peer'.hasSession "A" = true := by
  obtain ⟨wire, -, hparse, -⟩ := firstText_sealed
  rcases hdec : waitingB.decryptUnattributed [] (ciphertextOf (firstOfA wire)) with ⟨result, peer'⟩
  have hopened := waitingB_opens wire
  rw [hdec] at hopened
  obtain rfl : result = .ok ("A", wire) := hopened
  have htyped : (envelopeOfA wire).Typed := ⟨bobHash_reads, fun _ ht => nomatch ht⟩
  have hframe := decodeFrame_opened compactSerde_reads htyped
    (show 0 ≤ 255 from Nat.zero_le _) rfl hdec hparse
  obtain ⟨sender, -, -, hsender, -, -, hsession, -⟩ := event_from_session sampleOlm_lawful hframe
  cases hsender
  exact ⟨_, peer', hframe, rfl, hsession⟩

end Sona
