/-
# Signed tree heads

`kt-log/src/head.rs` and `verify.rs`: the log's signed commitment to its size
and root, the check of its signature under the pinned key, consistency proofs,
and the comparison of two heads (`checkHeads`) that gossip is for. The decoder,
the signatures and the consistency proofs themselves come from other crates
(`HeadCrypto`).

A head is signed over the bytes of its root and compared by the text of it. The
decoder `b64d` takes padding off the end, so one root has many spellings:
`eq_of_trailingPads` says that they differ in nothing else.

Key definitions: `HeadCrypto`, `SignedTreeHead.verify`, `verifyConsistencyB64`, `checkHeads`,
`trailingPads`.
-/
import Mathlib.Data.List.Basic
import Mathlib.Data.List.DropRight
import Mathlib.Data.List.TakeWhile
import Sona.Wire
import Sona.Kt

namespace Sona

/-! ### Decoding -/

/-- The code of other crates that heads are checked with. -/
structure HeadCrypto where
  /-- `STANDARD_NO_PAD.decode` of `base64`. -/
  decode : String → Option Bytes
  /-- `VerifyingKey::from_bytes` of `ed25519-dalek` takes the bytes. -/
  keyOk : Bytes → Bool
  verifyStrict : Bytes → Bytes → Bytes → Bool
  /-- `RootHash::verify_consistency` of `ct-merkle`: the old size and root, the
  new ones, and the digests of the proof. -/
  verifyConsistency : ℕ → Bytes → ℕ → Bytes → List Bytes → Bool

/-- The decoder without padding is strict: a value has one spelling. -/
def StrictDecode (decode : String → Option Bytes) : Prop :=
  ∀ s t v, decode s = some v → decode t = some v → s = t

/-- `str::trim_end_matches('=')`. -/
def trimPads (s : String) : String := String.ofList (s.toList.reverse.dropWhile (· = '=')).reverse

/-- The padding characters a string ends with. -/
def trailingPads (s : String) : ℕ := (s.toList.reverse.takeWhile (· = '=')).length

def HeadCrypto.b64d (K : HeadCrypto) (s : String) : Option Bytes := K.decode (trimPads s)

/-- A string without the padding character is left as it is. -/
theorem trimPads_of_notMem {s : String} (h : '=' ∉ s.toList) : trimPads s = s := by
  have hlast : s.toList.rdropWhile (· = '=') = s.toList := by
    refine List.rdropWhile_eq_self_iff.mpr fun hne hpad => h ?_
    exact of_decide_eq_true hpad ▸ List.getLast_mem hne
  exact String.toList_inj.mp (String.toList_ofList.trans hlast)

/-- A string is what is left without its padding, and the padding. -/
theorem toList_trimPads (s : String) :
    s.toList = (trimPads s).toList ++ List.replicate (trailingPads s) '=' := by
  have hpads : s.toList.reverse.takeWhile (· = '=') = List.replicate (trailingPads s) '=' := by
    refine List.eq_replicate_iff.mpr ⟨rfl, fun c hc => ?_⟩
    simpa using List.mem_takeWhile_imp hc
  have hsplit := List.takeWhile_append_dropWhile (p := (· = '=')) (l := s.toList.reverse)
  have hback := congrArg List.reverse hsplit
  rw [List.reverse_append, List.reverse_reverse, hpads, List.reverse_replicate] at hback
  rw [trimPads, String.toList_ofList, hback]

/-- Strings that differ in their padding only are equal when they have as much of it. -/
theorem eq_of_trailingPads {s t : String} (h : trimPads s = trimPads t)
    (hp : trailingPads s = trailingPads t) : s = t := by
  apply String.toList_inj.mp
  rw [toList_trimPads s, toList_trimPads t, h, hp]

/-! ### Heads -/

structure SignedTreeHead where
  treeSize : ℕ
  rootB64 : String
  timestamp : ℕ
  signatureB64 : String
deriving DecidableEq, Repr

/-- The bytes a head signs. -/
def headPayload (treeSize : ℕ) (root : Bytes) (timestamp : ℕ) : Bytes :=
  utf8 "sona-kt-sth-v1" ++ beBytes treeSize ++ root ++ beBytes timestamp

/-- What a log makes its heads with: the root of its leaves, its key and the encoder. -/
structure HeadSigner where
  root : List Bytes → Bytes
  sign : Bytes → Bytes
  b64e : Bytes → String

def SignedTreeHead.create (S : HeadSigner) (treeSize : ℕ) (root : Bytes) (timestamp : ℕ) :
    SignedTreeHead :=
  { treeSize, rootB64 := S.b64e root, timestamp,
    signatureB64 := S.b64e (S.sign (headPayload treeSize root timestamp)) }

/-- The decoded bytes, if there are as many as wanted. -/
def HeadCrypto.decodeTo (K : HeadCrypto) (n : ℕ) (s : String) : Option Bytes :=
  (K.b64d s).filter fun bytes => bytes.length = n

def SignedTreeHead.rootBytes (K : HeadCrypto) (h : SignedTreeHead) : Option Bytes :=
  K.decodeTo 32 h.rootB64

def SignedTreeHead.verify (K : HeadCrypto) (h : SignedTreeHead) (verifyingKey : Bytes) : Bool :=
  match h.rootBytes K, K.decodeTo 64 h.signatureB64 with
  | some root, some sig => K.verifyStrict verifyingKey (headPayload h.treeSize root h.timestamp) sig
  | _, _ => false

def verifyingKeyFromB64 (K : HeadCrypto) (b64 : String) : Option Bytes :=
  (K.decodeTo 32 b64).filter K.keyOk

def verifySthB64 (K : HeadCrypto) (pinnedKeyB64 : String) (sth : SignedTreeHead) : Bool :=
  match verifyingKeyFromB64 K pinnedKeyB64 with
  | some vk => sth.verify K vk
  | none => false

/-- The spelling of a root is not signed: with other padding behind it a head is as good. -/
theorem verifySthB64_respell (K : HeadCrypto) (pinned : String) (h : SignedTreeHead)
    {spelling : String} (hs : trimPads spelling = trimPads h.rootB64) :
    verifySthB64 K pinned { h with rootB64 := spelling } = verifySthB64 K pinned h := by
  have hroot : SignedTreeHead.rootBytes K { h with rootB64 := spelling } = h.rootBytes K := by
    simp only [SignedTreeHead.rootBytes, HeadCrypto.decodeTo, HeadCrypto.b64d, hs]
  simp only [verifySthB64, SignedTreeHead.verify, hroot]

/-- A proof as it is sent: a whole number of digests. -/
def consistencyFromB64 (K : HeadCrypto) (s : String) : Option (List Bytes) := do
  let bytes ← K.b64d s
  if bytes.length % 32 ≠ 0 then none else some (bytes.toChunks 32)

def verifyConsistency (K : HeadCrypto) (oldSth newSth : SignedTreeHead) (proof : List Bytes) :
    Bool :=
  match oldSth.rootBytes K, newSth.rootBytes K with
  | some oldRoot, some newRoot => K.verifyConsistency oldSth.treeSize oldRoot newSth.treeSize newRoot proof
  | _, _ => false

def verifyConsistencyB64 (K : HeadCrypto) (oldSth newSth : SignedTreeHead) (proofB64 : String) :
    Bool :=
  match consistencyFromB64 K proofB64 with
  | some proof => verifyConsistency K oldSth newSth proof
  | none => false

/-! ### Gossip -/

inductive GossipVerdict
  | consistent
  | equivocation
  | inconclusive
  | badSignature
deriving DecidableEq, Repr

def checkHeads (K : HeadCrypto) (pinnedKeyB64 : String) (a b : SignedTreeHead)
    (proofB64 : Option String) :
    GossipVerdict :=
  if !verifySthB64 K pinnedKeyB64 a || !verifySthB64 K pinnedKeyB64 b then .badSignature else
  if a.treeSize = b.treeSize then
    if a.rootB64 = b.rootB64 then .consistent else .equivocation
  else
    let (small, large) := if a.treeSize < b.treeSize then (a, b) else (b, a)
    match proofB64 with
    | some p => if verifyConsistencyB64 K small large p then .consistent else .equivocation
    | none => .inconclusive

/-- Two verified heads of one size are consistent exactly when their roots are spelled alike. -/
theorem checkHeads_same_size {K : HeadCrypto} {pinned : String} {a b : SignedTreeHead}
    (ha : verifySthB64 K pinned a = true) (hb : verifySthB64 K pinned b = true)
    (hsize : a.treeSize = b.treeSize) (proof : Option String) :
    checkHeads K pinned a b proof = if a.rootB64 = b.rootB64 then .consistent else .equivocation := by
  unfold checkHeads
  simp [ha, hb, hsize]

/-- A verified head has a root. -/
theorem rootBytes_of_verified {K : HeadCrypto} {pinned : String} {h : SignedTreeHead}
    (hv : verifySthB64 K pinned h = true) : ∃ root, K.b64d h.rootB64 = some root := by
  unfold verifySthB64 SignedTreeHead.verify SignedTreeHead.rootBytes HeadCrypto.decodeTo at hv
  cases hr : K.b64d h.rootB64 with
  | some root => exact ⟨root, rfl⟩
  | none =>
    rw [hr] at hv
    split at hv <;> cases hv

/-- Roots of one value are spelled alike exactly when they end in as much padding. -/
theorem rootB64_eq_iff {K : HeadCrypto} (hK : StrictDecode K.decode) {s t : String} {root : Bytes}
    (hs : K.b64d s = some root) (ht : K.b64d t = some root) :
    s = t ↔ trailingPads s = trailingPads t := by
  constructor
  · rintro rfl
    rfl
  · exact eq_of_trailingPads (hK _ _ root hs ht)

end Sona
