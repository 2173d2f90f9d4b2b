/-
# Uploads of one-time keys

The message that an upload signs (`one_time_keys_signing_message`) writes the
keys behind one another with a bar before each, and nothing is asked of a key:
it may have bars in it. So the message tells the pieces between bars, and not
which of them are one key (`barred_inj`). Two lists that are
cut from the same pieces go with one signature (`upload_binds_iff`), and a
captured upload of two keys can be sent again as an upload of one
(`upload_recut`).

Key definitions: `pieces`, `UploadAt`, `UploadBinds`.
-/
import Sona.Lib.Delimited
import Sona.Relay
import Sona.Handlers
import Sona.Run
import Sona.OneTimeKeys

namespace Sona

/-! ### The message -/

/-- The keys, cut at the bars that they have in them. -/
def pieces (keys : List String) : List (List Char) := keys.flatMap fun k => k.toList.splitOn '|'

/-- Keys without bars are their pieces. -/
theorem pieces_of_bar_free {keys : List String} (h : ∀ k ∈ keys, '|' ∉ k.toList) :
    pieces keys = keys.map String.toList := by
  unfold pieces
  induction keys with
  | nil => rfl
  | cons k keys ih =>
    rw [List.flatMap_cons, List.splitOn_eq_singleton (h k List.mem_cons_self),
      ih fun k' hk' => h k' (List.mem_cons_of_mem k hk')]
    rfl

/-- A message of names behind bars is the text of its parts. -/
theorem barred_eq (domain : String) (fields : List String) :
    barred domain fields = utf8 (String.ofList (domain.toList ++ (fields.map String.toList).flatMap ('|' :: ·))) := by
  have hbar : utf8 "|" = String.utf8EncodeChar '|' := by decide
  have hfields : (fields.flatMap fun f => utf8 "|" ++ utf8 f) =
      ((fields.map String.toList).flatMap ('|' :: ·)).flatMap String.utf8EncodeChar := by
    rw [List.flatMap_assoc, List.flatMap_map]
    refine congrArg (fields.flatMap ·) (funext fun f => ?_)
    rw [List.flatMap_cons, hbar, ← utf8_toList]
  unfold barred
  rw [hfields, utf8_toList domain, ← List.flatMap_append, utf8_toList, String.toList_ofList]

/-- **Behind one domain the message tells the pieces**, and no more. -/
theorem barred_inj (domain : String) (fields fields' : List String) :
    barred domain fields = barred domain fields' ↔ pieces fields = pieces fields' := by
  have hpieces :
      ∀ fs : List String, pieces fs = (fs.map String.toList).flatMap (·.splitOn '|') := by
    intro fs
    rw [List.flatMap_map]
    rfl
  rw [hpieces, hpieces, ← flatMap_sep_inj, barred_eq, barred_eq]
  constructor
  · intro heq
    exact List.append_cancel_left (String.ofList_injective (utf8_inj heq))
  · intro heq
    rw [heq]

theorem oneTimeKeysSigningMessage_inj (h : String) (keys keys' : List String) :
    oneTimeKeysSigningMessage h keys = oneTimeKeysSigningMessage h keys' ↔
    pieces keys = pieces keys' := by
  unfold oneTimeKeysSigningMessage
  rw [barred_inj]
  constructor
  · intro heq
    exact List.append_cancel_left heq
  · intro heq
    exact congrArg (h.toList.splitOn '|' ++ ·) heq

/-! ### What a signature binds -/

/-- A signature is of one message. -/
def Crypto.Binds (C : Crypto) : Prop :=
  ∀ key signature m m', C.verify key m signature = true → C.verify key m' signature = true → m = m'

/-- Where an upload arrives: the relay, who asks, and when. -/
structure UploadAt where
  inner : Inner
  client : Option String
  now : ℕ

/-- The signing key that the directory has for the mailbox. -/
def UploadAt.directoryKey (u : UploadAt) (h : String) : Option String :=
  (u.inner.directory.get h).map (·.signingKey)

def UploadAt.accepts (R : Relay) (u : UploadAt) (req : OneTimeKeysRequest) : Prop :=
  (uploadOneTimeKeys R u.inner u.client req u.now).1.status = 200

/-- One signature, accepted for both lists under one directory key, is of one list. -/
def UploadBinds (h : String) (keys keys' : List String) : Prop :=
  ∀ R : Relay, R.crypto.Binds → ∀ (u u' : UploadAt) (signature : String), u.directoryKey h = u'.directoryKey h →
    u.accepts R { identityHash := h, oneTimeKeys := keys, signature } →
    u'.accepts R { identityHash := h, oneTimeKeys := keys', signature } → keys = keys'

/-- When an upload is answered 200. -/
theorem accepts_iff (R : Relay) (u : UploadAt) (req : OneTimeKeysRequest) : u.accepts R req ↔
    ∃ client entry, u.client = some client ∧ (IdentityHash.fromHex req.identityHash).isSome ∧
      (u.inner.chargeRate ("otk:" ++ client) u.now).1 = true ∧
      u.inner.directory.get req.identityHash = some entry ∧
      R.crypto.verify entry.signingKey (oneTimeKeysSigningMessage req.identityHash req.oneTimeKeys)
        req.signature = true := by
  have herr : ∀ (code : ℕ) (text : String) (s : Inner), code ≠ 200 →
      ¬ ((Response.err code text, s) : Response × Inner).1.status = 200 := fun _ _ _ h => h
  unfold UploadAt.accepts uploadOneTimeKeys
  cases hclient : u.client with
  | none =>
    refine ⟨fun h => absurd h (herr 403 _ _ (by decide)), ?_⟩
    rintro ⟨client, entry, hno, -⟩
    cases hno
  | some client =>
    have hdirectory : (u.inner.chargeRate ("otk:" ++ client) u.now).2.directory =
        u.inner.directory := rfl
    dsimp only
    rw [hdirectory]
    cases hhex : IdentityHash.fromHex req.identityHash with
    | none => exact ⟨fun h => absurd h (herr 400 _ _ (by decide)), by simp⟩
    | some hash =>
      rw [Option.isNone_some, if_neg Bool.false_ne_true]
      cases hrate : (u.inner.chargeRate ("otk:" ++ client) u.now).1 with
      | false =>
        rw [Bool.not_false, if_pos rfl]
        exact ⟨fun h => absurd h (herr 429 _ _ (by decide)), by simp [hrate]⟩
      | true =>
        rw [Bool.not_true, if_neg Bool.false_ne_true]
        cases hentry : u.inner.directory.get req.identityHash with
        | none => exact ⟨fun h => absurd h (herr 404 _ _ (by decide)), by simp⟩
        | some entry =>
          dsimp only
          cases hverify : R.crypto.verify entry.signingKey
            (oneTimeKeysSigningMessage req.identityHash req.oneTimeKeys)
              req.signature with
          | false =>
            rw [Bool.not_false, if_pos rfl]
            exact ⟨fun h => absurd h (herr 401 _ _ (by decide)), by simp [hverify]⟩
          | true =>
            rw [Bool.not_true, if_neg Bool.false_ne_true]
            exact ⟨fun _ => ⟨client, entry, rfl, rfl, hrate, rfl, hverify⟩, fun _ => rfl⟩

/-- Lists that are not cut from the same pieces have signatures of their own. -/
theorem binds_of_pieces {h : String} {keys keys' : List String}
    (hp : keys = keys' ∨ pieces keys ≠ pieces keys') :
    UploadBinds h keys keys' := by
  intro R hR u u' signature hkey haccepts haccepts'
  rcases hp with heq | hpieces
  · exact heq
  · obtain ⟨-, entry, -, -, -, hentry, hverify⟩ := (accepts_iff R u _).mp haccepts
    obtain ⟨-, entry', -, -, -, hentry', hverify'⟩ := (accepts_iff R u' _).mp haccepts'
    have hsame : entry.signingKey = entry'.signingKey := by
      unfold UploadAt.directoryKey at hkey
      rw [hentry, hentry'] at hkey
      exact Option.some.inj hkey
    rw [← hsame] at hverify'
    have hmessage := hR _ _ _ _ hverify hverify'
    exact absurd ((oneTimeKeysSigningMessage_inj h keys keys').mp hmessage) hpieces

/-- No two lists of keys without bars share a signature. -/
theorem binds_bar_free (h : String) {keys keys' : List String} (hkeys : ∀ k ∈ keys, '|' ∉ k.toList)
    (hkeys' : ∀ k ∈ keys', '|' ∉ k.toList) : UploadBinds h keys keys' := by
  refine binds_of_pieces ?_
  rw [pieces_of_bar_free hkeys, pieces_of_bar_free hkeys']
  by_cases heq : keys = keys'
  · exact Or.inl heq
  · exact Or.inr fun hsame => heq (List.map_injective_iff.mpr (fun _ _ => String.toList_injective) hsame)

/-! ### Signatures that were made -/

theorem sampleRelay_accepts {signed : Signatures} {key signature : String} {message : Bytes}
    (hmade : (key, message, signature) ∈ signed) (hkey : readable (· = 32) key = true)
    (hsig : readable (· = 64) signature = true) :
    (sampleRelay signed).crypto.verify key message signature = true := by
  obtain ⟨k, hk, hklen⟩ := readable_iff.mp hkey
  obtain ⟨v, hv, hvlen⟩ := readable_iff.mp hsig
  have hdecode : ∀ s, (sampleRelay signed).crypto.base64Decode s = decodeBase64 (utf8 s) :=
    fun _ => rfl
  unfold Crypto.verify
  rw [hdecode, hdecode, hk, hv]
  dsimp only
  rw [if_pos ⟨by simpa using hklen, by simpa using hvlen⟩]
  refine List.any_eq_true.mpr ⟨_, hmade, ?_⟩
  simp [hk, hv]

/-- Signatures that were made for one message each bind. -/
theorem sampleRelay_binds {signed : Signatures}
    (hone : ∀ p ∈ signed, ∀ p' ∈ signed,
    decodeBase64 (utf8 p.2.2) = decodeBase64 (utf8 p'.2.2) → p.2.1 = p'.2.1) :
    (sampleRelay signed).crypto.Binds := by
  have hmade : ∀ {key signature : String} {m : Bytes},
      (sampleRelay signed).crypto.verify key m signature = true →
      ∃ p ∈ signed, p.2.1 = m ∧ decodeBase64 (utf8 p.2.2) = decodeBase64 (utf8 signature) := by
    intro key signature m h
    unfold Crypto.verify at h
    split at h
    · rename_i k v _ hv
      split at h
      · obtain ⟨p, hp, hmatch⟩ := List.any_eq_true.mp (show sampleVerify signed k m v = true from h)
        simp only [Bool.and_eq_true, decide_eq_true_eq] at hmatch
        exact ⟨p, hp, hmatch.1.2, hmatch.2.trans (show decodeBase64 (utf8 signature) = some v from hv).symm⟩
      · cases h
    · cases h
  intro key signature m m' h h'
  obtain ⟨p, hp, hm, hsig⟩ := hmade h
  obtain ⟨p', hp', hm', hsig'⟩ := hmade h'
  rw [← hm, ← hm']
  exact hone p hp p' hp' (hsig.trans hsig'.symm)

theorem bobKey_readable : readable (· = 32) bobKey = true := by decide +kernel

theorem bobUploads_readable : readable (· = 64) bobUploads.signature = true := by decide +kernel

/-- A record with an empty stock. -/
def bobRecord : DirectoryEntry := { identityKey := bobEntry.identityKey, signingKey := bobKey }

/-- The account has its record at `h`. -/
def uploadFor (h : String) : UploadAt where
  inner := { directory := (∅ : Table String DirectoryEntry).set h bobRecord }
  client := some "10.0.0.1"
  now := 1000

theorem uploadFor_rate (h : String) :
    ((uploadFor h).inner.chargeRate ("otk:" ++ "10.0.0.1") (uploadFor h).now).1 = true := by
  have hrate : (({} : Inner).chargeRate ("otk:" ++ "10.0.0.1") 1000).1 = true := by decide +kernel
  exact hrate

/-- **What the signature of an upload binds.** It goes with one list only, unless another list is
cut from the same pieces. -/
theorem upload_binds_iff (h : String) (hh : (IdentityHash.fromHex h).isSome)
    (keys keys' : List String) :
    UploadBinds h keys keys' ↔ (keys = keys' ∨ pieces keys ≠ pieces keys') := by
  constructor
  · intro hbinds
    by_contra hno
    obtain ⟨hne, hpieces⟩ := not_or.mp hno
    have hmessage := (oneTimeKeysSigningMessage_inj h keys keys').mpr (not_not.mp hpieces)
    -- the account signs one list, and the signature comes with either
    have hmade : ∀ ks, oneTimeKeysSigningMessage h ks = oneTimeKeysSigningMessage h keys →
        (bobKey, oneTimeKeysSigningMessage h ks, bobUploads.signature) ∈
          [(bobKey, oneTimeKeysSigningMessage h keys, bobUploads.signature)] := by
      intro ks hks
      rw [hks]
      exact List.mem_singleton_self _
    have haccepts : ∀ ks, oneTimeKeysSigningMessage h ks = oneTimeKeysSigningMessage h keys →
        (uploadFor h).accepts (sampleRelay [(bobKey, oneTimeKeysSigningMessage h keys, bobUploads.signature)])
          { identityHash := h, oneTimeKeys := ks, signature := bobUploads.signature } := by
      intro ks hks
      have hrecord : (uploadFor h).inner.directory.get h = some bobRecord :=
        Table.get_set_self _ _ _
      refine (accepts_iff _ _ _).mpr ⟨"10.0.0.1", bobRecord, rfl, hh, uploadFor_rate h, hrecord, ?_⟩
      exact sampleRelay_accepts (hmade ks hks) bobKey_readable bobUploads_readable
    refine hne (hbinds _ (sampleRelay_binds ?_) (uploadFor h) (uploadFor h) _ rfl (haccepts keys rfl)
      (haccepts keys' hmessage.symm))
    intro p hp p' hp' _
    rw [List.mem_singleton.mp hp, List.mem_singleton.mp hp']
  · exact binds_of_pieces

theorem upload_binds_bob : UploadBinds bobHash ["k1", "k2"] ["k1|k2"] ↔
    (["k1", "k2"] = ["k1|k2"] ∨ pieces ["k1", "k2"] ≠ pieces ["k1|k2"]) :=
  upload_binds_iff bobHash (by decide +kernel) _ _

/-- Bob signed an upload of two keys. -/
def twoSigned : Signatures :=
  [(bobKey, bobEntry.signingPayload, bobEntry.signature),
    (bobKey, oneTimeKeysSigningMessage bobHash ["k1", "k2"], bobUploads.signature)]

/-- The upload, and after it the same signature with the two keys written as one. -/
def uploadRecut : List Event :=
  [bobRegisters,
    .uploadOneTimeKeys (some "10.0.0.1") { bobUploads with oneTimeKeys := ["k1", "k2"] } 1010,
    .uploadOneTimeKeys (some "10.0.0.9") { bobUploads with oneTimeKeys := ["k1|k2"] } 1020]

/-- Where both arrive: the account is registered. -/
def bobAsks : UploadAt where
  inner := (after (sampleRelay twoSigned) none [bobRegisters]).inner
  client := some "10.0.0.1"
  now := 1010

/-- The signature of the two keys is good for every list with their message. -/
theorem bobAsks_accepts (keys : List String)
    (hkeys : oneTimeKeysSigningMessage bobHash keys = oneTimeKeysSigningMessage bobHash ["k1", "k2"]) :
    bobAsks.accepts (sampleRelay twoSigned) { bobUploads with oneTimeKeys := keys } := by
  have hhex : (IdentityHash.fromHex bobHash).isSome := by decide +kernel
  have hrate : (bobAsks.inner.chargeRate ("otk:" ++ "10.0.0.1") bobAsks.now).1 = true := by
    decide +kernel
  have hbob : bobAsks.inner.directory.get bobHash = some bobRecord := by decide +kernel
  refine (accepts_iff _ _ _).mpr ⟨"10.0.0.1", bobRecord, rfl, hhex, hrate, hbob, ?_⟩
  refine sampleRelay_accepts ?_ bobKey_readable bobUploads_readable
  exact List.mem_cons_of_mem _ (List.mem_singleton.mpr
    (congrArg (fun message => (bobKey, message, bobUploads.signature)) hkeys))

/-- **A captured upload can be cut anew.** Both are accepted, and the stock has
a key that its owner never made. -/
theorem upload_recut :
    (after (sampleRelay twoSigned) none uploadRecut).inner.core.stock bobHash =
      ["k1", "k2", "k1|k2"] ∧
    ¬ ∀ (h : String) (keys keys' : List String), (IdentityHash.fromHex h).isSome →
    UploadBinds h keys keys' := by
  refine ⟨by decide +kernel, fun hall => ?_⟩
  have hhex : (IdentityHash.fromHex bobHash).isSome := by decide +kernel
  have hbinds : (sampleRelay twoSigned).crypto.Binds := by
    refine sampleRelay_binds ?_
    have hne : decodeBase64 (utf8 bobEntry.signature) ≠
        decodeBase64 (utf8 bobUploads.signature) := by decide +kernel
    intro p hp p' hp' hsig
    simp only [twoSigned, List.mem_cons, List.not_mem_nil, or_false] at hp hp'
    rcases hp with rfl | rfl <;> rcases hp' with rfl | rfl
    · rfl
    · exact absurd hsig hne
    · exact absurd hsig.symm hne
    · rfl
  have hcut := hall bobHash ["k1", "k2"] ["k1|k2"] hhex _ hbinds bobAsks bobAsks _ rfl
    (bobAsks_accepts _ rfl)
    (bobAsks_accepts _ (by decide +kernel))
  exact absurd hcut (by decide)

end Sona
