/-
# The sealed call-control store

`CallStore::open` and `seal` of `client-core/src/callstore.rs`, over `seal_under`
and `open_under` of `crypto-core/src/callkey.rs`: the store is written as JSON
and sealed under a key of the device, behind a header that names the record.

A store is opened only up to 256 KiB, and nothing bounds what `seal` writes: a
capsule in the outbox is an array of decimal numbers, up to four characters a
byte. So a store that is reached reopens exactly when what it holds is small
enough as JSON (`call_store_reopens`), and an outbox of seventeen large
declines is not (`large_outbox_is_refused`).

The AEAD and `serde_json::from_slice` are parameters; what a store takes as
JSON is a sum over its fields (`CallStore.size`).

Key definitions: `sealUnder`, `CallStore.seal`, `CallStore.open`, `CallStore.size`.
-/
import Sona.CallStore
import Sona.Lib.Aead
import Sona.Lib.JsonText
import Sona.Run

namespace Sona

/-! ### The store as JSON -/

def CallPhase.text : CallPhase → String
  | .offered => "offered"
  | .ringing => "ringing"
  | .answerPendingUnlock => "answer_pending_unlock"
  | .claiming => "claiming"
  | .winner => "winner"
  | .active => "active"

def CallPhase.ofText : String → Option CallPhase
  | "offered" => some .offered
  | "ringing" => some .ringing
  | "answer_pending_unlock" => some .answerPendingUnlock
  | "claiming" => some .claiming
  | "winner" => some .winner
  | "active" => some .active
  | _ => none

def CallTerminalReason.text : CallTerminalReason → String
  | .answeredHere => "answered_here"
  | .answeredElsewhere => "answered_elsewhere"
  | .declinedHere => "declined_here"
  | .declinedElsewhere => "declined_elsewhere"
  | .callerCancelled => "caller_cancelled"
  | .expired => "expired"
  | .busy => "busy"
  | .transportError => "transport_error"

def CallTerminalReason.ofText : String → Option CallTerminalReason
  | "answered_here" => some .answeredHere
  | "answered_elsewhere" => some .answeredElsewhere
  | "declined_here" => some .declinedHere
  | "declined_elsewhere" => some .declinedElsewhere
  | "caller_cancelled" => some .callerCancelled
  | "expired" => some .expired
  | "busy" => some .busy
  | "transport_error" => some .transportError
  | _ => none

/-- Tagged by the field `state`. -/
def CallRecordState.toJson : CallRecordState → Json
  | .live phase => .obj [("state", .str "live"), ("phase", .str phase.text)]
  | .terminal reason retainUntil =>
    .obj [("state", .str "terminal"), ("reason", .str reason.text), ("retain_until", .num retainUntil)]

def CallRecordState.ofJson (j : Json) : Option CallRecordState := do
  match ← (← j.field "state").asStr with
  | "live" => some (.live (← CallPhase.ofText (← (← j.field "phase").asStr)))
  | "terminal" =>
    let reason ← CallTerminalReason.ofText (← (← j.field "reason").asStr)
    some (.terminal reason (← (← j.field "retain_until").asNat))
  | _ => none

def CallRecord.toJson (r : CallRecord) : Json :=
  .obj [("call_instance_id", .str r.callInstanceId), ("offer_id", .str r.offerId),
    ("prior_offer_ids", .arr (r.priorOfferIds.map .str)), ("expires_at", .num r.expiresAt),
    ("updated_at", .num r.updatedAt), ("state", r.state.toJson)]

def CallRecord.ofJson (j : Json) : Option CallRecord := do
  let callInstanceId ← (← j.field "call_instance_id").asStr
  let offerId ← (← j.field "offer_id").asStr
  let priorOfferIds ← Json.readAll Json.asStr (← (← j.field "prior_offer_ids").asArr)
  let expiresAt ← (← j.field "expires_at").asNat
  let updatedAt ← (← j.field "updated_at").asNat
  let state ← CallRecordState.ofJson (← j.field "state")
  some { callInstanceId, offerId, priorOfferIds, expiresAt, updatedAt, state }

def CallRegistry.toJson (c : CallRegistry) : Json :=
  .obj [("records", .arr (c.records.map CallRecord.toJson))]

def CallRegistry.ofJson (j : Json) : Option CallRegistry := do
  let records ← Json.readAll CallRecord.ofJson (← (← j.field "records").asArr)
  some { records }

def PendingRing.toJson (r : PendingRing) : Json :=
  .obj [("call_instance_id", .str r.callInstanceId), ("offer_id", .str r.offerId), ("ring_handle", .str r.ringHandle),
    ("from", .str r.caller), ("display_name", .str r.displayName), ("video", .bool r.video), ("group", .bool r.group),
    ("caller_device_id", .str r.callerDeviceId), ("reply_to_mailbox", .str r.replyToMailbox),
    ("reply_call_mailbox", .str r.replyCallMailbox), ("reply_call_key", .str r.replyCallKey),
    ("created_at", .num r.createdAt), ("ring_expires_at", .num r.ringExpiresAt),
    ("presented_as", .ofOptStr r.presentedAs)]

/-- A ring of a JSON value: the last fields may be missing. -/
def PendingRing.ofJson (j : Json) : Option PendingRing := do
  let callInstanceId ← (← j.field "call_instance_id").asStr
  let offerId ← (← j.field "offer_id").asStr
  let ringHandle ← (← j.field "ring_handle").asStr
  let caller ← (← j.field "from").asStr
  let displayName ← (← j.field "display_name").asStr
  let video ← (← j.field "video").asBool
  let group ← (← j.field "group").asBool
  let callerDeviceId ← (← j.field "caller_device_id").asStr
  let replyToMailbox ← (← j.field "reply_to_mailbox").asStr
  let replyCallMailbox ← ((← j.optField "reply_call_mailbox").getD (.str "")).asStr
  let replyCallKey ← ((← j.optField "reply_call_key").getD (.str "")).asStr
  let createdAt ← (← j.field "created_at").asNat
  let ringExpiresAt ← (← j.field "ring_expires_at").asNat
  let presentedAs ← ((← j.optField "presented_as").getD .null).asOptStr
  some { callInstanceId, offerId, ringHandle, caller, displayName, video, group, callerDeviceId, replyToMailbox,
         replyCallMailbox, replyCallKey, createdAt, ringExpiresAt, presentedAs }

/-- A byte is a number below 256. -/
def byteOfJson (j : Json) : Option UInt8 := do
  let n ← j.asNat
  if n < 256 then some (UInt8.ofNat n) else none

def CapsulePost.toJson (p : CapsulePost) : Json :=
  .obj [("call_mailbox", .str p.callMailbox), ("call_key", .str p.callKey),
    ("plaintext", .arr (p.plaintext.map fun b => .num b.toNat)), ("expires_at", .num p.expiresAt)]

def CapsulePost.ofJson (j : Json) : Option CapsulePost := do
  let callMailbox ← (← j.field "call_mailbox").asStr
  let callKey ← (← j.field "call_key").asStr
  let plaintext ← Json.readAll byteOfJson (← (← j.field "plaintext").asArr)
  let expiresAt ← (← j.field "expires_at").asNat
  some { callMailbox, callKey, plaintext, expiresAt }

def OutboxEntry.toJson (e : OutboxEntry) : Json :=
  .obj [("id", .str e.id), ("post", e.post.toJson), ("attempts", .num e.attempts),
    ("next_attempt_at", .num e.nextAttemptAt)]

def OutboxEntry.ofJson (j : Json) : Option OutboxEntry := do
  let id ← (← j.field "id").asStr
  let post ← CapsulePost.ofJson (← j.field "post")
  let attempts ← (← j.field "attempts").asNat
  let nextAttemptAt ← (← j.field "next_attempt_at").asNat
  some { id, post, attempts, nextAttemptAt }

def CallStore.toJson (s : CallStore) : Json :=
  .obj [("account_hash", .str s.accountHash), ("username", .str s.username), ("device_id", .str s.deviceId),
    ("rings", .arr (s.rings.map PendingRing.toJson)), ("registry", s.registry.toJson),
    ("outbox", .arr (s.outbox.map OutboxEntry.toJson))]

def CallStore.ofJson (j : Json) : Option CallStore := do
  let accountHash ← (← j.field "account_hash").asStr
  let username ← ((← j.optField "username").getD (.str "")).asStr
  let deviceId ← (← j.field "device_id").asStr
  let rings ← Json.readAll PendingRing.ofJson (← (← j.field "rings").asArr)
  let registry ← CallRegistry.ofJson (← j.field "registry")
  let outbox ← Json.readAll OutboxEntry.ofJson (← (← j.field "outbox").asArr)
  some { accountHash, username, deviceId, rings, registry, outbox }

theorem CallRecordState.ofJson_toJson (s : CallRecordState) :
    CallRecordState.ofJson s.toJson = some s := by
  cases s with
  | live phase => cases phase <;> rfl
  | terminal reason retainUntil => cases reason <;> rfl

theorem CallRecord.ofJson_toJson (r : CallRecord) : CallRecord.ofJson r.toJson = some r := by
  simp [CallRecord.ofJson, CallRecord.toJson, Json.field, Json.optField,
    CallRecordState.ofJson_toJson, Json.readAll_map Json.asStr_str]

theorem CallRegistry.ofJson_toJson (c : CallRegistry) : CallRegistry.ofJson c.toJson = some c := by
  simp [CallRegistry.ofJson, CallRegistry.toJson, Json.field, Json.optField,
    Json.readAll_map CallRecord.ofJson_toJson]

theorem PendingRing.ofJson_toJson (r : PendingRing) : PendingRing.ofJson r.toJson = some r := by
  simp [PendingRing.ofJson, PendingRing.toJson, Json.field, Json.optField]

theorem byteOfJson_num (b : UInt8) : byteOfJson (.num b.toNat) = some b := by
  have hlt := b.toNat_lt
  simp [byteOfJson, hlt]

theorem CapsulePost.ofJson_toJson (p : CapsulePost) : CapsulePost.ofJson p.toJson = some p := by
  simp [CapsulePost.ofJson, CapsulePost.toJson, Json.field, Json.optField,
    Json.readAll_map byteOfJson_num]

theorem OutboxEntry.ofJson_toJson (e : OutboxEntry) : OutboxEntry.ofJson e.toJson = some e := by
  simp [OutboxEntry.ofJson, OutboxEntry.toJson, Json.field, Json.optField,
    CapsulePost.ofJson_toJson]

/-- **A store is read back from its JSON.** -/
theorem CallStore.ofJson_toJson (s : CallStore) : CallStore.ofJson s.toJson = some s := by
  simp [CallStore.ofJson, CallStore.toJson, Json.field, Json.optField, CallRegistry.ofJson_toJson,
    Json.readAll_map PendingRing.ofJson_toJson, Json.readAll_map OutboxEntry.ofJson_toJson]

/-! ### What a store takes as JSON -/

/-- The bytes of an array whose items take `size`. -/
def listSize {α : Type} (size : α → ℕ) (items : List α) : ℕ :=
  (items.map size).sum + (items.length - 1) + 2

def CallRecordState.size : CallRecordState → ℕ
  | .live phase => 25 + Json.quotedWidth phase.text
  | .terminal reason retainUntil => 46 + Json.quotedWidth reason.text + Json.digits retainUntil

def CallRecord.size (r : CallRecord) : ℕ :=
  89 + Json.quotedWidth r.callInstanceId + Json.quotedWidth r.offerId + listSize Json.quotedWidth r.priorOfferIds +
    Json.digits r.expiresAt + Json.digits r.updatedAt + r.state.size

/-- `null`, or the string. -/
def optSize : Option String → ℕ
  | none => 4
  | some s => Json.quotedWidth s

def boolSize (b : Bool) : ℕ := if b then 4 else 5

def PendingRing.size (r : PendingRing) : ℕ :=
  219 + Json.quotedWidth r.callInstanceId + Json.quotedWidth r.offerId + Json.quotedWidth r.ringHandle +
    Json.quotedWidth r.caller + Json.quotedWidth r.displayName + boolSize r.video + boolSize r.group +
    Json.quotedWidth r.callerDeviceId + Json.quotedWidth r.replyToMailbox + Json.quotedWidth r.replyCallMailbox +
    Json.quotedWidth r.replyCallKey + Json.digits r.createdAt + Json.digits r.ringExpiresAt + optSize r.presentedAs

/-- Every byte of the plaintext is written in decimal. -/
def CapsulePost.size (p : CapsulePost) : ℕ :=
  56 + Json.quotedWidth p.callMailbox + Json.quotedWidth p.callKey +
    listSize (fun b : UInt8 => Json.digits b.toNat) p.plaintext + Json.digits p.expiresAt

def OutboxEntry.size (e : OutboxEntry) : ℕ :=
  46 + Json.quotedWidth e.id + e.post.size + Json.digits e.attempts + Json.digits e.nextAttemptAt

/-- The bytes of the store as JSON. -/
def CallStore.size (s : CallStore) : ℕ :=
  85 + Json.quotedWidth s.accountHash + Json.quotedWidth s.username + Json.quotedWidth s.deviceId +
    listSize PendingRing.size s.rings + listSize CallRecord.size s.registry.records + listSize OutboxEntry.size s.outbox

theorem width_list {α : Type} {toJson : α → Json} {size : α → ℕ}
    (h : ∀ a, (toJson a).width = size a) (items : List α) :
    (Json.arr (items.map toJson)).width = listSize size items := by
  have hmap : (items.map toJson).map Json.width = items.map size := by
    rw [List.map_map]
    exact List.map_congr_left fun a _ => h a
  rw [Json.width_arr, hmap, List.length_map]
  rfl

theorem width_ofOptStr (o : Option String) : (Json.ofOptStr o).width = optSize o := by
  cases o with
  | none => exact Json.width_null
  | some s => exact Json.width_str s

theorem width_state (s : CallRecordState) : s.toJson.width = s.size := by
  have hnames : ["state", "live", "phase", "terminal", "reason",
    "retain_until"].map Json.quotedWidth =
      [7, 6, 7, 10, 8, 14] := by decide
  simp only [List.map_cons, List.map_nil, List.cons.injEq, and_true] at hnames
  cases s with
  | live phase =>
    simp only [CallRecordState.toJson, CallRecordState.size, Json.width_obj, Json.fieldWidth,
      Json.width_str, List.map_cons, List.map_nil, List.sum_cons, List.sum_nil, List.length_cons, List.length_nil]
    omega
  | terminal reason retainUntil =>
    simp only [CallRecordState.toJson, CallRecordState.size, Json.width_obj, Json.fieldWidth,
      Json.width_str, Json.width_num, List.map_cons, List.map_nil, List.sum_cons, List.sum_nil, List.length_cons, List.length_nil]
    omega

theorem width_record (r : CallRecord) : r.toJson.width = r.size := by
  have hnames : ["call_instance_id", "offer_id", "prior_offer_ids", "expires_at", "updated_at",
    "state"].map
      Json.quotedWidth = [18, 10, 17, 12, 12, 7] := by decide
  simp only [List.map_cons, List.map_nil, List.cons.injEq, and_true] at hnames
  simp only [CallRecord.toJson, CallRecord.size, Json.width_obj, Json.fieldWidth, Json.width_str,
    Json.width_num, width_list Json.width_str, width_state, List.map_cons, List.map_nil, List.sum_cons, List.sum_nil, List.length_cons, List.length_nil]
  omega

theorem width_ring (r : PendingRing) : r.toJson.width = r.size := by
  have hnames : ["call_instance_id", "offer_id", "ring_handle", "from", "display_name",
    "video", "group",
      "caller_device_id", "reply_to_mailbox", "reply_call_mailbox", "reply_call_key", "created_at", "ring_expires_at",
      "presented_as"].map Json.quotedWidth = [18, 10, 13, 6, 14, 7, 7, 18, 18, 20, 16, 12, 17, 14] := by decide
  simp only [List.map_cons, List.map_nil, List.cons.injEq, and_true] at hnames
  simp only [PendingRing.toJson, PendingRing.size, Json.width_obj, Json.fieldWidth, Json.width_str,
    Json.width_num, Json.width_bool, width_ofOptStr, boolSize, List.map_cons, List.map_nil, List.sum_cons, List.sum_nil, List.length_cons, List.length_nil]
  omega

theorem width_post (p : CapsulePost) : p.toJson.width = p.size := by
  have hnames : ["call_mailbox", "call_key", "plaintext", "expires_at"].map Json.quotedWidth =
      [14, 10, 11, 12] := by
    decide
  simp only [List.map_cons, List.map_nil, List.cons.injEq, and_true] at hnames
  simp only [CapsulePost.toJson, CapsulePost.size, Json.width_obj, Json.fieldWidth, Json.width_str,
    Json.width_num, width_list fun b : UInt8 => Json.width_num b.toNat, List.map_cons, List.map_nil, List.sum_cons, List.sum_nil, List.length_cons, List.length_nil]
  omega

theorem width_entry (e : OutboxEntry) : e.toJson.width = e.size := by
  have hnames : ["id", "post", "attempts", "next_attempt_at"].map Json.quotedWidth =
      [4, 6, 10, 17] := by decide
  simp only [List.map_cons, List.map_nil, List.cons.injEq, and_true] at hnames
  simp only [OutboxEntry.toJson, OutboxEntry.size, Json.width_obj, Json.fieldWidth, Json.width_str,
    Json.width_num, width_post, List.map_cons, List.map_nil, List.sum_cons, List.sum_nil, List.length_cons, List.length_nil]
  omega

/-- **The JSON of a store takes its size.** -/
theorem width_store (s : CallStore) : s.toJson.width = s.size := by
  have hnames : ["account_hash", "username", "device_id", "rings", "registry", "outbox",
    "records"].map
      Json.quotedWidth = [14, 10, 11, 7, 10, 8, 9] := by decide
  simp only [List.map_cons, List.map_nil, List.cons.injEq, and_true] at hnames
  simp only [CallStore.toJson, CallRegistry.toJson, CallStore.size, Json.width_obj, Json.fieldWidth,
    Json.width_str, width_list width_ring, width_list width_record, width_list width_entry, List.map_cons, List.map_nil, List.sum_cons, List.sum_nil, List.length_cons, List.length_nil]
  omega

/-! ### Sealing -/

def nonceLen : ℕ := 24

/-- A nonce of the system's random generator. -/
structure Nonce where
  bytes : Bytes
  length : bytes.length = nonceLen

/-- The record's magic. -/
def storeMagic : Bytes := utf8 "SCT1"

def storeVersion : UInt8 := 1

def sealUnder (A : Aead) (key magic : Bytes) (version : UInt8) (nonce : Nonce) (plaintext : Bytes) :
    Bytes :=
  let header := magic ++ [version]
  header ++ nonce.bytes ++ A.encrypt key nonce.bytes header plaintext

def openUnder (A : Aead) (key magic : Bytes) (version : UInt8) (blob : Bytes) : Option Bytes :=
  if blob.length < 5 + nonceLen then none else
  let header := blob.take 5
  let rest := blob.drop 5
  if header.take 4 ≠ magic ∨ header[4]? ≠ some version then none else
  A.decrypt key (rest.take nonceLen) header (rest.drop nonceLen)

/-- Largest store that is opened. -/
def maxStoreBytes : ℕ := 256 * 1024

/-- `serde_json::to_vec`. -/
def toVec (j : Json) : Bytes := utf8 (String.ofList j.text)

def CallStore.seal (A : Aead) (s : CallStore) (key : Bytes) (nonce : Nonce) : Bytes :=
  sealUnder A key storeMagic storeVersion nonce (toVec s.toJson)

def CallStore.open (A : Aead) (fromSlice : Bytes → Option Json) (key blob : Bytes) :
    Option CallStore :=
  if blob.length > maxStoreBytes then none else do
    let plain ← openUnder A key storeMagic storeVersion blob
    let store ← CallStore.ofJson (← fromSlice plain)
    store.validated

theorem utf8_length_ofList (cs : List Char) :
    (utf8 (String.ofList cs)).length = Json.bytesOf cs := by
  rw [utf8_toList, String.toList_ofList, List.length_flatMap]
  exact congrArg List.sum (List.map_congr_left fun c _ => String.length_utf8EncodeChar c)

theorem toVec_length (s : CallStore) : (toVec s.toJson).length = s.size := by
  rw [toVec, utf8_length_ofList, ← width_store]
  rfl

section sealing

variable {A : Aead} (hA : A.Opens)
include hA

theorem openUnder_sealUnder (key : Bytes) {magic : Bytes} (hmagic : magic.length = 4)
    (version : UInt8) (nonce : Nonce) (plaintext : Bytes) :
    openUnder A key magic version (sealUnder A key magic version nonce plaintext) =
      some plaintext := by
  have hlen := hA.length key nonce.bytes (magic ++ [version]) plaintext
  have hnonce := nonce.length
  unfold openUnder sealUnder
  dsimp only
  rw [if_neg (by simp only [List.length_append, List.length_singleton]; omega)]
  have hheader : (magic ++ [version]).length = 5 := by simp [hmagic]
  rw [List.append_assoc, List.take_left' hheader, List.drop_left' hheader, List.take_left' hnonce,
    List.drop_left' hnonce]
  have htake : (magic ++ [version]).take 4 = magic := List.take_left' hmagic
  have hversion : (magic ++ [version])[4]? = some version := by
    rw [List.getElem?_append_right (by omega), hmagic]
    rfl
  rw [if_neg (by simp [htake, hversion])]
  exact hA.open_seal _ _ _ _

/-- The header, the nonce and the tag. -/
def sealOverhead : ℕ := 45

theorem seal_length (s : CallStore) (key : Bytes) (nonce : Nonce) :
    (s.seal A key nonce).length = s.size + sealOverhead := by
  have hlen := hA.length key nonce.bytes (storeMagic ++ [storeVersion]) (toVec s.toJson)
  have hnonce := nonce.length
  have hmagic : storeMagic.length = 4 := by decide
  rw [toVec_length] at hlen
  simp only [CallStore.seal, sealUnder, List.length_append, List.length_singleton, hlen, hnonce,
    hmagic, nonceLen, sealOverhead, Aead.tagLen]
  omega

/-- **A store with the right shape reopens exactly when it is small enough.** -/
theorem open_seal_iff {fromSlice : Bytes → Option Json}
    (hread : ∀ s : CallStore, fromSlice (toVec s.toJson) = some s.toJson) {s : CallStore}
    (hs : s.bounded = true) (key : Bytes) (nonce : Nonce) :
    CallStore.open A fromSlice key (s.seal A key nonce) = some s ↔
    s.size + sealOverhead ≤ maxStoreBytes := by
  unfold CallStore.open
  rw [seal_length hA]
  by_cases hfits : s.size + sealOverhead ≤ maxStoreBytes
  · rw [if_neg (Nat.not_lt.mpr hfits)]
    have hopen : openUnder A key storeMagic storeVersion (s.seal A key nonce) =
        some (toVec s.toJson) :=
      openUnder_sealUnder hA key (by decide) storeVersion nonce _
    simp [hopen, hread, CallStore.ofJson_toJson, CallStore.validated, hs, hfits]
  · rw [if_pos (Nat.lt_of_not_le hfits)]
    simp [hfits]

end sealing

/-- **What a store holds decides whether it reopens.** Every store that is
reached from a new one has the shape it is opened with, and it reopens exactly
when its size leaves room for the header, the nonce and the tag. -/
theorem call_store_reopens (A : Aead) (hA : A.Opens) (fromSlice : Bytes → Option Json)
    (hread : ∀ s : CallStore, fromSlice (toVec s.toJson) = some s.toJson) (H : Sha256)
    (accountHash username deviceId : String) (ha : AccountOk accountHash username deviceId)
    (ops : List CallStoreOp) (hops : ∀ op ∈ ops, op.decoded) (key : Bytes) (nonce : Nonce) :
    let s := callStoreAfter H (.new accountHash username deviceId) ops
    s.validated = some s ∧
      (CallStore.open A fromSlice key (s.seal A key nonce) = some s ↔ s.size + sealOverhead ≤ maxStoreBytes) := by
  intro s
  have hs : s.bounded = true := bounded_run H ha hops
  refine ⟨?_, open_seal_iff hA hread hs key nonce⟩
  rw [CallStore.validated, if_pos hs]

/-! ### Concrete stores -/

/-- The JSON of bytes, in the compact spelling. -/
def readVec (bytes : Bytes) : Option Json :=
  if h : (ByteArray.mk bytes.toArray).IsValidUTF8 then Json.read (String.fromUTF8 _ h).toList else none

theorem readVec_toVec (j : Json) : readVec (toVec j) = some j := by
  have hbytes : ByteArray.mk (toVec j).toArray = (String.ofList j.text).toByteArray := by
    unfold toVec utf8
    simp
  have hvalid : (ByteArray.mk (toVec j).toArray).IsValidUTF8 := by
    rw [hbytes]
    exact (String.ofList j.text).isValidUTF8
  have hstring : String.fromUTF8 (ByteArray.mk (toVec j).toArray) hvalid = String.ofList j.text :=
    String.toByteArray_inj.mp hbytes
  unfold readVec
  rw [dif_pos hvalid, hstring, String.toList_ofList, Json.read_text]

def storeNonce : Nonce := ⟨List.replicate 24 7, by decide⟩

theorem sampleRandom_length : (List.replicate 16 (9 : UInt8)).length = 16 := by decide

def sampleRandom : RandomId := ⟨List.replicate 16 9, sampleRandom_length⟩

theorem sampleAccount_ok : AccountOk bobHash "bob" "0" := by
  unfold AccountOk
  decide +kernel

/-- A terminal for a call that was not seen, and a small decline. -/
def smallStore : List CallStoreOp :=
  [.recordTerminal sampleCall sampleOffer .callerCancelled 100 0, .queueDecline bobHash "k" [123, 125] 200 100 sampleRandom]

theorem call_store_reopens_small :
    CallStore.open Aead.plain readVec [1, 2, 3] ((callStoreAfter sampleSha (.new bobHash "bob" "0") smallStore).seal
      Aead.plain [1, 2, 3] storeNonce) = some (callStoreAfter sampleSha (.new bobHash "bob" "0") smallStore) := by
  have hops : ∀ op ∈ smallStore, op.decoded := by simp [smallStore, CallStoreOp.decoded]
  refine (call_store_reopens Aead.plain Aead.plain_opens readVec (fun s => readVec_toVec s.toJson) sampleSha bobHash "bob"
    "0" sampleAccount_ok smallStore hops [1, 2, 3] storeNonce).2.mpr ?_
  decide +kernel

/-- A decline of the largest size, of bytes that take three digits each. -/
def largeDecline : CallStoreOp :=
  .queueDecline bobHash "k" (List.replicate maxCapsuleBytes 255) 200 100 sampleRandom

def largeEntry : OutboxEntry where
  id := sampleRandom.callId
  post := { callMailbox := bobHash, callKey := "k", plaintext := List.replicate maxCapsuleBytes 255, expiresAt := 200 }
  attempts := 0
  nextAttemptAt := 100

/-- A decline that is queued while there is room. -/
theorem queueDecline_room {s : CallStore} {mailbox key : String} {plaintext : Bytes}
    {expiresAt now : ℕ} (random : RandomId) (hnow : now < expiresAt)
    (hplain : plaintext.length ≤ maxCapsuleBytes)
    (hmailbox : (utf8 mailbox).length = 64 ∧ (utf8 mailbox).all isHexByte = true)
    (hkey : key.isEmpty = false ∧ (utf8 key).length ≤ 64) (hroom : s.outbox.length < maxOutbox) :
    (s.queueDecline mailbox key plaintext expiresAt now random).2 = { s with outbox := s.outbox ++
      [{ id := random.callId, post := { callMailbox := mailbox, callKey := key, plaintext, expiresAt }
         attempts := 0, nextAttemptAt := now }] } := by
  have hfit : makeFit maxOutbox s.outbox = s.outbox := by
    unfold makeFit
    rw [Nat.sub_eq_zero_of_le (by omega), List.drop_zero]
  unfold CallStore.queueDecline
  dsimp only
  rw [if_neg (by
    simp only [hmailbox, hkey.1, Bool.or_eq_true, decide_eq_true_eq, not_or, Bool.not_eq_true]
    exact ⟨⟨⟨⟨⟨by omega, by omega⟩, by simp⟩, by simp⟩, by simp⟩, by omega⟩), hfit]

/-- Up to the cap the declines pile up. -/
theorem largeDeclines_outbox (H : Sha256) (s : CallStore) (hs : s.outbox = []) : ∀ n ≤ maxOutbox,
    callStoreAfter H s (List.replicate n largeDecline) =
      { s with outbox := List.replicate n largeEntry }
  | 0, _ => by
    rw [List.replicate_zero, List.replicate_zero, ← hs]
    rfl
  | n + 1, hn => by
    have ih := largeDeclines_outbox H s hs n (by omega)
    have hmailbox : (utf8 bobHash).length = 64 ∧ (utf8 bobHash).all isHexByte = true := by
      decide +kernel
    have hkey : "k".isEmpty = false ∧ (utf8 "k").length ≤ 64 := by decide +kernel
    rw [List.replicate_succ', callStoreAfter, Trace.run_snoc, ← callStoreAfter, ih]
    change (CallStore.queueDecline _ bobHash "k" (List.replicate maxCapsuleBytes 255) 200 100 sampleRandom).2 = _
    rw [queueDecline_room sampleRandom (by decide) (by simp) hmailbox hkey
      (by rw [List.length_replicate]; omega), List.replicate_succ']
    rfl

theorem le_largeEntry_size : 4 * maxCapsuleBytes ≤ largeEntry.size := by
  have hdigits : Json.digits ((255 : UInt8).toNat) = 3 := by decide
  unfold OutboxEntry.size CapsulePost.size
  simp only [largeEntry, listSize, List.map_replicate, List.sum_replicate_nat,
    List.length_replicate, hdigits]
  omega

/-- Seventeen of the largest declines are more than a store that is opened may hold. -/
theorem large_outbox_is_refused :
    AccountOk bobHash "bob" "0" ∧ ¬ ∀ (ops : List CallStoreOp) (key : Bytes) (nonce : Nonce),
      (∀ op ∈ ops, op.decoded) →
        CallStore.open Aead.plain readVec key
          ((callStoreAfter sampleSha (.new bobHash "bob" "0") ops).seal Aead.plain key nonce) =
          some (callStoreAfter sampleSha (.new bobHash "bob" "0") ops) := by
  refine ⟨sampleAccount_ok, fun h => ?_⟩
  have hops : ∀ op ∈ List.replicate 17 largeDecline, op.decoded := by
    intro op hop
    rw [List.eq_of_mem_replicate hop]
    trivial
  have hopen := h (List.replicate 17 largeDecline) [] storeNonce hops
  rw [open_seal_iff Aead.plain_opens (fun s => readVec_toVec s.toJson) (bounded_run sampleSha sampleAccount_ok hops),
    largeDeclines_outbox sampleSha _ rfl 17 (by decide)] at hopen
  have hentry := le_largeEntry_size
  simp only [CallStore.size, listSize, List.map_replicate, List.sum_replicate_nat, maxStoreBytes,
    maxCapsuleBytes] at hopen hentry
  omega

end Sona
