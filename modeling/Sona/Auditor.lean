/-
# The witness of the log

`auditor/src/lib.rs`: a witness pins the log's key, keeps the last head it
verified and is shown further ones, honest or not. It takes a head that is its
first or that extends the one it has, and answers everything else with an
alarm that leaves it as it was (`observe_cases`).

Whatever it is shown, the size it holds does not go back and two heads of one
size that it accepts have one root (`witness_monotone`). A head of a larger
tree needs a consistency proof unless the witness holds the empty tree, which
every tree extends (`empty_baseline_needs_no_proof`). What frames an honest log is
a root in another spelling (`honest_log_not_framed_iff`).

Key definitions: `Witness`, `Witness.observe`, `Observation`, `Extends`.
-/
import Mathlib.Logic.Relation
import Sona.Lib.Base64
import Sona.Lib.Trace
import Sona.Heads
import Sona.Run

namespace Sona

inductive AlarmKind
  | badSignature
  | rollback
  | equivocation
  | badConsistency
deriving DecidableEq, Repr

/-- The evidence of an alarm. -/
structure Alarm where
  kind : AlarmKind
  old : Option SignedTreeHead
  new : SignedTreeHead
  proofB64 : Option String
deriving DecidableEq, Repr

inductive Outcome
  | firstHead
  | unchanged
  | extended (fromSize toSize : ℕ)
  | alarm (a : Alarm)
deriving DecidableEq, Repr

structure Witness where
  pinnedKeyB64 : String
  last : Option SignedTreeHead := none
deriving DecidableEq, Repr

/-- The head the relay serves now; `fetchProof` is asked for a proof from the size held. -/
def Witness.observe (K : HeadCrypto) (w : Witness) (new : SignedTreeHead)
    (fetchProof : ℕ → Option String) :
    Outcome × Witness :=
  if !verifySthB64 K w.pinnedKeyB64 new then
    (.alarm { kind := .badSignature, old := w.last, new, proofB64 := none }, w) else
  match w.last with
  | none => (.firstHead, { w with last := some new })
  | some old =>
    if new.treeSize < old.treeSize then
      (.alarm { kind := .rollback, old := some old, new, proofB64 := none }, w) else
    if new.treeSize = old.treeSize then
      if new.rootB64 = old.rootB64 then (.unchanged, w)
      else (.alarm { kind := .equivocation, old := some old, new, proofB64 := none }, w)
    -- growth from the empty tree needs no proof
    else if old.treeSize = 0 then (.extended 0 new.treeSize, { w with last := some new })
    else
      let proof := fetchProof old.treeSize
      if proof.any fun p => verifyConsistencyB64 K old new p then
        (.extended old.treeSize new.treeSize, { w with last := some new })
      else (.alarm { kind := .badConsistency, old := some old, new, proofB64 := proof }, w)

/-! ### Roots in another spelling -/

/-- Two heads of one history are taken as such: gossip finds them consistent,
and a witness that holds one and is shown the other finds nothing new. -/
structure NotFramed (K : HeadCrypto) (pinned : String) (a b : SignedTreeHead) : Prop where
  gossip : ∀ proof, checkHeads K pinned a b proof = .consistent
  witness : ∀ fetchProof, Witness.observe K ⟨pinned, some a⟩ b fetchProof = (.unchanged, ⟨pinned, some a⟩)

theorem observe_same_size {K : HeadCrypto} {pinned : String} {a b : SignedTreeHead}
    (hb : verifySthB64 K pinned b = true) (hsize : a.treeSize = b.treeSize)
    (fetchProof : ℕ → Option String) :
    Witness.observe K ⟨pinned, some a⟩ b fetchProof =
      if b.rootB64 = a.rootB64 then (.unchanged, ⟨pinned, some a⟩)
      else (.alarm { kind := .equivocation, old := some a, new := b, proofB64 := none }, ⟨pinned, some a⟩) := by
  unfold Witness.observe
  simp [hb, hsize]

/-- **When an honest log is not framed.** Two verified heads of one size and one
root are taken as one history exactly when their roots end in as much padding. -/
theorem honest_log_not_framed_iff (K : HeadCrypto) (hK : StrictDecode K.decode) (pinned : String)
    (a b : SignedTreeHead) (ha : verifySthB64 K pinned a = true)
    (hb : verifySthB64 K pinned b = true) (hsize : a.treeSize = b.treeSize)
    (hroot : K.b64d a.rootB64 = K.b64d b.rootB64) :
    NotFramed K pinned a b ↔ trailingPads a.rootB64 = trailingPads b.rootB64 := by
  obtain ⟨root, hra⟩ := rootBytes_of_verified ha
  have hrb : K.b64d b.rootB64 = some root := hroot ▸ hra
  rw [← rootB64_eq_iff hK hra hrb]
  constructor
  · intro h
    have hg := h.gossip none
    rw [checkHeads_same_size ha hb hsize] at hg
    by_contra hne
    rw [if_neg hne] at hg
    cases hg
  · intro heq
    refine ⟨fun proof => ?_, fun fetchProof => ?_⟩
    · rw [checkHeads_same_size ha hb hsize, if_pos heq]
    · rw [observe_same_size hb hsize, if_pos heq.symm]

/-! ### Concrete heads -/

/-- The head of the log before its first entry. -/
def emptyHead : SignedTreeHead :=
  { treeSize := 0, rootB64 := "47DEQpj8HBSa+/TImW+5JCeuQeRkm5NMpJWZG3hSuFU", timestamp := 900
    signatureB64 := "UGJwPp5mN+Wr+ctaC69y9h5Q2Sikq7s7UmL3iTXDa7vOxhT6CvqRsaQ2EswM2Ze0gX7SEytOwHQOqZRAh9B8Aw" }

/-- The head of the log with one entry, and the same signed again later. -/
def oneHead : SignedTreeHead :=
  { treeSize := 1, rootB64 := "8eBwpP0DvwdO7dNbRLp8S1jQJ8JKsb7mBD5BWu1XTqg", timestamp := 1100
    signatureB64 := "C9iZbOTikOb11bcmYljV5JlyB0n1VMWCULT4LaqyzLSMCFEt/GD8uu2iGMJ9WhuTzPkp7l0Xez7m9aHR6oroBg" }

def laterHead : SignedTreeHead :=
  { oneHead with
    timestamp := 1200
    signatureB64 := "m0DVmbVaTLpRQdJoGa3MBSuwLso82GMMJ1ADRvu5LYTNWfIl70/cd0CTsl9+pKmeJ+sjAs4CI88cAjmZihDHDg" }

/-- The head with its root in another spelling; its signature is still good. -/
def paddedHead : SignedTreeHead := { oneHead with rootB64 := oneHead.rootB64 ++ "=" }

/-- The heads that were signed. -/
def headSigned : Signatures :=
  [emptyHead, oneHead, laterHead].map fun h =>
    (ktKey, headPayload h.treeSize ((decodeBase64 (utf8 h.rootB64)).getD []) h.timestamp, h.signatureB64)

/-- Strict base64, the signatures that were made, and no consistency proof. -/
def sampleHeads : HeadCrypto :=
  { decode := fun s => decodeBase64 (utf8 s)
    keyOk := fun _ => true
    verifyStrict := sampleVerify headSigned
    verifyConsistency := fun _ _ _ _ _ => false }

theorem sampleHeads_strict : StrictDecode sampleHeads.decode :=
  fun _ _ _ hs ht => utf8_inj (decodeBase64_inj hs ht)

theorem sampleHeads_made : MadeHeads sampleHeads headSigned :=
  { decode := rfl, keyOk := fun _ => rfl, verifyStrict := rfl }

theorem headSigned_read : (∀ h ∈ [emptyHead, oneHead, laterHead],
      readable (· = 32) h.rootB64 = true ∧ readable (· = 64) h.signatureB64 = true) ∧
    trimPads paddedHead.rootB64 = trimPads oneHead.rootB64 := by
  decide +kernel

theorem headSigned_verified {h : SignedTreeHead} (hmem : h ∈ [emptyHead, oneHead, laterHead]) :
    verifySthB64 sampleHeads ktKey h = true :=
  sampleHeads_made.verified (List.mem_map_of_mem hmem) (headSigned_read.1 h hmem).1 (headSigned_read.1 h hmem).2

theorem emptyHead_verified : verifySthB64 sampleHeads ktKey emptyHead = true :=
  headSigned_verified (by simp)
theorem oneHead_verified : verifySthB64 sampleHeads ktKey oneHead = true :=
  headSigned_verified (by simp)
theorem laterHead_verified : verifySthB64 sampleHeads ktKey laterHead = true :=
  headSigned_verified (by simp)

theorem trimPads_paddedHead : trimPads paddedHead.rootB64 = trimPads oneHead.rootB64 :=
  headSigned_read.2

theorem paddedHead_verified : verifySthB64 sampleHeads ktKey paddedHead = true :=
  (verifySthB64_respell sampleHeads ktKey oneHead trimPads_paddedHead).trans oneHead_verified

theorem honest_log_not_framed_signed_twice :
    trailingPads oneHead.rootB64 = trailingPads laterHead.rootB64 ∧
    NotFramed sampleHeads ktKey oneHead laterHead := by
  have hroot : laterHead.rootB64 = oneHead.rootB64 := rfl
  have hpads : trailingPads oneHead.rootB64 = trailingPads laterHead.rootB64 := by rw [hroot]
  exact ⟨hpads, (honest_log_not_framed_iff sampleHeads sampleHeads_strict ktKey oneHead laterHead oneHead_verified
    laterHead_verified rfl (by rw [hroot])).mpr hpads⟩

/-- One padding character behind the root makes an honest head look like the
second half of a split view. -/
theorem padded_root_frames_log :
    ¬ ∀ (K : HeadCrypto) (pinned : String) (a b : SignedTreeHead), StrictDecode K.decode →
      verifySthB64 K pinned a = true → verifySthB64 K pinned b = true → a.treeSize = b.treeSize →
      K.b64d a.rootB64 = K.b64d b.rootB64 → NotFramed K pinned a b := by
  intro h
  have hroot : sampleHeads.b64d oneHead.rootB64 = sampleHeads.b64d paddedHead.rootB64 := by
    rw [HeadCrypto.b64d, HeadCrypto.b64d, trimPads_paddedHead]
  have hframed := h sampleHeads ktKey oneHead paddedHead sampleHeads_strict oneHead_verified paddedHead_verified rfl hroot
  have hverdict : checkHeads sampleHeads ktKey oneHead paddedHead none = .equivocation := by
    rw [checkHeads_same_size oneHead_verified paddedHead_verified rfl, if_neg (by decide +kernel)]
  rw [hframed.gossip none] at hverdict
  cases hverdict

/-! ### Runs of a witness -/

/-- What a witness is shown: a head, and how its request for a proof is answered. -/
structure Observation where
  head : SignedTreeHead
  fetchProof : ℕ → Option String

def observeStep (K : HeadCrypto) (w : Witness) (o : Observation) : Witness :=
  (w.observe K o.head o.fetchProof).2

/-- The answer of the witness `w`. -/
def Witness.answer (K : HeadCrypto) (w : Witness) (o : Observation) : Outcome :=
  (w.observe K o.head o.fetchProof).1

/-- The witness of the key `pinned` after the observations. -/
def witnessAfter (K : HeadCrypto) (pinned : String) (os : List Observation) : Witness :=
  Trace.run (observeStep K) { pinnedKeyB64 := pinned } os

/-- The head `new` was proved to extend `old`, by the proof the witness was given. -/
def Proven (K : HeadCrypto) (old : SignedTreeHead) (o : Observation) : Prop :=
  ∃ p, o.fetchProof old.treeSize = some p ∧ verifyConsistencyB64 K old o.head p = true

/-- One step of growth: a larger tree, with a verified consistency proof or from the empty one. -/
def Extends (K : HeadCrypto) (old new : SignedTreeHead) : Prop :=
  old.treeSize < new.treeSize ∧ (old.treeSize = 0 ∨ ∃ p, verifyConsistencyB64 K old new p = true)

/-- **What an observation can do.** -/
inductive ObserveCase (K : HeadCrypto) (w : Witness) (o : Observation) : Outcome → Witness → Prop
  | alarm (a : Alarm) : ObserveCase K w o (.alarm a) w
  | first (held : w.last = none) (verified : verifySthB64 K w.pinnedKeyB64 o.head = true) :
      ObserveCase K w o .firstHead { w with last := some o.head }
  | unchanged {old : SignedTreeHead} (held : w.last = some old)
      (size : o.head.treeSize = old.treeSize)
      (root : o.head.rootB64 = old.rootB64) : ObserveCase K w o .unchanged w
  | extended {old : SignedTreeHead} (held : w.last = some old)
      (verified : verifySthB64 K w.pinnedKeyB64 o.head = true) (larger : old.treeSize < o.head.treeSize)
      (proof : old.treeSize = 0 ∨ Proven K old o) :
      ObserveCase K w o (.extended old.treeSize o.head.treeSize) { w with last := some o.head }

theorem observe_cases (K : HeadCrypto) (w : Witness) (o : Observation) :
    ObserveCase K w o (w.answer K o) (observeStep K w o) := by
  unfold Witness.answer observeStep Witness.observe
  by_cases hv : verifySthB64 K w.pinnedKeyB64 o.head = true
  · simp only [hv, Bool.not_true, Bool.false_eq_true, if_false]
    cases hl : w.last with
    | none => exact .first hl hv
    | some old =>
      dsimp only
      by_cases hless : o.head.treeSize < old.treeSize
      · rw [if_pos hless]
        exact .alarm _
      rw [if_neg hless]
      by_cases hsame : o.head.treeSize = old.treeSize
      · rw [if_pos hsame]
        by_cases hroot : o.head.rootB64 = old.rootB64
        · rw [if_pos hroot]
          exact .unchanged hl hsame hroot
        · rw [if_neg hroot]
          exact .alarm _
      rw [if_neg hsame]
      have hlarger : old.treeSize < o.head.treeSize := by omega
      by_cases hempty : old.treeSize = 0
      · rw [if_pos hempty]
        have h := ObserveCase.extended hl hv hlarger (Or.inl hempty)
        rwa [hempty] at h
      rw [if_neg hempty]
      by_cases hproof : (o.fetchProof old.treeSize).any
        (fun p => verifyConsistencyB64 K old o.head p) = true
      · rw [if_pos hproof]
        obtain ⟨p, hp, hok⟩ := (Option.any_eq_true _ _).mp hproof
        exact .extended hl hv hlarger (Or.inr ⟨p, hp, hok⟩)
      · rw [if_neg hproof]
        exact .alarm _
  · simp only [hv, Bool.not_false, if_true]
    exact .alarm _

/-- A head that the witness accepts is the one it holds, or one of the same size and root. -/
theorem held_of_accepted {K : HeadCrypto} {w : Witness} {o : Observation}
    (h : ∀ a, w.answer K o ≠ .alarm a) :
    ∃ held, (observeStep K w o).last = some held ∧ held.treeSize = o.head.treeSize ∧
    held.rootB64 = o.head.rootB64 := by
  have hc := observe_cases K w o
  generalize w.answer K o = outcome at hc h
  generalize observeStep K w o = w' at hc
  cases hc with
  | alarm a => exact absurd rfl (h a)
  | first held verified => exact ⟨_, rfl, rfl, rfl⟩
  | unchanged held size root => exact ⟨_, held, size.symm, root.symm⟩
  | extended held verified larger proof => exact ⟨_, rfl, rfl, rfl⟩

/-- The head held before a step leads to the one held after it. -/
theorem extends_step {K : HeadCrypto} {w : Witness} {old : SignedTreeHead} (h : w.last = some old)
    (o : Observation) :
    ∃ new, (observeStep K w o).last = some new ∧ (new = old ∨ Extends K old new) := by
  have hc := observe_cases K w o
  generalize w.answer K o = outcome at hc
  generalize observeStep K w o = w' at hc
  cases hc with
  | alarm a => exact ⟨old, h, Or.inl rfl⟩
  | first held verified =>
    rw [held] at h
    cases h
  | unchanged held size root => exact ⟨old, h, Or.inl rfl⟩
  | extended held verified larger proof =>
    rw [held] at h
    cases h
    refine ⟨_, rfl, Or.inr ⟨larger, ?_⟩⟩
    rcases proof with hempty | ⟨p, -, hp⟩
    · exact Or.inl hempty
    · exact Or.inr ⟨p, hp⟩

/-- The head held leads, step by step, to every head held later. -/
theorem extends_run {K : HeadCrypto} (os : List Observation) :
    ∀ {w : Witness} {old : SignedTreeHead},
    w.last = some old →
    ∃ new, (Trace.run (observeStep K) w os).last = some new ∧
    Relation.ReflTransGen (Extends K) old new := by
  induction os with
  | nil => exact fun {w old} h => ⟨old, h, Relation.ReflTransGen.refl⟩
  | cons o os ih =>
    intro w old h
    obtain ⟨next, hnext, hstep⟩ := extends_step (K := K) h o
    obtain ⟨new, hnew, hrest⟩ := ih hnext
    refine ⟨new, hnew, ?_⟩
    rcases hstep with rfl | hstep
    · exact hrest
    · exact Relation.ReflTransGen.head hstep hrest

/-- Growth makes trees larger: heads of one size are one head. -/
theorem size_of_extends {K : HeadCrypto} {old new : SignedTreeHead}
    (h : Relation.ReflTransGen (Extends K) old new) :
    old.treeSize ≤ new.treeSize ∧ (old.treeSize = new.treeSize → old = new) := by
  induction h with
  | refl => exact ⟨le_rfl, fun _ => rfl⟩
  | tail _ hstep ih =>
    have hlt := hstep.1
    refine ⟨by omega, fun heq => ?_⟩
    omega

/-- What a witness promises after the observations `os`. -/
structure Monotone (K : HeadCrypto) (pinned : String) (os : List Observation) : Prop where
  /-- The size it holds does not go back, and every two heads it held are linked
  by steps of growth. -/
  linked : ∀ more old, (witnessAfter K pinned os).last = some old →
    ∃ new, (witnessAfter K pinned (os ++ more)).last = some new ∧ old.treeSize ≤ new.treeSize ∧
      Relation.ReflTransGen (Extends K) old new
  /-- It changes only for a first verified head, or a verified head of a larger
  tree that was proved to extend the last one or extends the empty tree. -/
  change : ∀ o, witnessAfter K pinned (os ++ [o]) ≠ witnessAfter K pinned os →
    verifySthB64 K pinned o.head = true ∧
    witnessAfter K pinned (os ++ [o]) = ⟨pinned, some o.head⟩ ∧
      ((witnessAfter K pinned os).last = none ∨
        ∃ old, (witnessAfter K pinned os).last = some old ∧ old.treeSize < o.head.treeSize ∧
          (old.treeSize = 0 ∨ Proven K old o))
  alarm : ∀ o a, (witnessAfter K pinned os).answer K o = .alarm a →
    witnessAfter K pinned (os ++ [o]) = witnessAfter K pinned os
  /-- Two heads of one size that it accepts have one root. -/
  oneRoot : ∀ o mid o', (∀ a, (witnessAfter K pinned os).answer K o ≠ .alarm a) →
    (∀ a, (witnessAfter K pinned (os ++ o :: mid)).answer K o' ≠ .alarm a) →
    o.head.treeSize = o'.head.treeSize →
    o.head.rootB64 = o'.head.rootB64

theorem pinned_run (K : HeadCrypto) (pinned : String) (os : List Observation) :
    (witnessAfter K pinned os).pinnedKeyB64 = pinned := by
  refine Trace.run_inv (I := fun w : Witness => w.pinnedKeyB64 = pinned) (fun w o hw => ?_) rfl os
  have hc := observe_cases K w o
  generalize w.answer K o = outcome at hc
  generalize observeStep K w o = w' at hc
  cases hc <;> exact hw

theorem witnessAfter_append (K : HeadCrypto) (pinned : String) (os more : List Observation) :
    witnessAfter K pinned (os ++ more) =
      Trace.run (observeStep K) (witnessAfter K pinned os) more :=
  Trace.run_append _ _ _ _

theorem witnessAfter_single (K : HeadCrypto) (pinned : String) (o : Observation) :
    witnessAfter K pinned [o] = observeStep K (witnessAfter K pinned []) o := rfl

/-- **A witness is monotone**, whatever it is shown. -/
theorem witness_monotone (K : HeadCrypto) (pinned : String) (os : List Observation) :
    Monotone K pinned os where
  linked more old h := by
    obtain ⟨new, hnew, hlink⟩ := extends_run (K := K) more h
    exact ⟨new, by rw [witnessAfter_append, hnew], (size_of_extends hlink).1, hlink⟩
  change o hne := by
    have hpin := pinned_run K pinned os
    have hc := observe_cases K (witnessAfter K pinned os) o
    rw [witnessAfter_append] at hne ⊢
    change observeStep K (witnessAfter K pinned os) o ≠ _ at hne
    change _ ∧ observeStep K (witnessAfter K pinned os) o = _ ∧ _
    generalize (witnessAfter K pinned os).answer K o = outcome at hc
    generalize observeStep K (witnessAfter K pinned os) o = w' at hc hne
    cases hc with
    | alarm a => exact absurd rfl hne
    | first held verified => exact ⟨hpin ▸ verified, by rw [hpin], Or.inl held⟩
    | unchanged held size root => exact absurd rfl hne
    | extended held verified larger proof =>
      exact ⟨hpin ▸ verified, by rw [hpin], Or.inr ⟨_, held, larger, proof⟩⟩
  alarm o a h := by
    have hc := observe_cases K (witnessAfter K pinned os) o
    rw [witnessAfter_append]
    change observeStep K (witnessAfter K pinned os) o = _
    rw [h] at hc
    generalize observeStep K (witnessAfter K pinned os) o = w' at hc
    cases hc
    rfl
  oneRoot o mid o' ho ho' hsize := by
    obtain ⟨held, hheld, hs, hr⟩ := held_of_accepted ho
    obtain ⟨held', hheld', hs', hr'⟩ := held_of_accepted ho'
    have hrun : observeStep K (witnessAfter K pinned (os ++ o :: mid)) o' =
        Trace.run (observeStep K) (observeStep K (witnessAfter K pinned os) o) (mid ++ [o']) := by
      rw [witnessAfter_append, Trace.run_cons, Trace.run_snoc]
    obtain ⟨new, hnew, hlink⟩ := extends_run (K := K) (mid ++ [o']) hheld
    rw [← hrun, hheld'] at hnew
    cases hnew
    have hsame := (size_of_extends hlink).2 (by rw [hs, hs', hsize])
    rw [← hr, ← hr', hsame]

theorem observeStep_first {K : HeadCrypto} {w : Witness} {o : Observation} (held : w.last = none)
    (verified : verifySthB64 K w.pinnedKeyB64 o.head = true) :
    observeStep K w o = { w with last := some o.head } := by
  unfold observeStep Witness.observe
  simp [verified, held]

theorem observeStep_from_empty {K : HeadCrypto} {w : Witness} {o : Observation}
    {old : SignedTreeHead} (held : w.last = some old)
    (verified : verifySthB64 K w.pinnedKeyB64 o.head = true) (empty : old.treeSize = 0)
    (larger : 0 < o.head.treeSize) : observeStep K w o = { w with last := some o.head } := by
  unfold observeStep Witness.observe
  simp [verified, held, empty, Nat.ne_of_gt larger]

/-- Growth from the empty tree is taken without a proof. -/
theorem empty_baseline_needs_no_proof :
    ¬ ∀ (K : HeadCrypto) (pinned : String) (os : List Observation) (o : Observation),
      witnessAfter K pinned (os ++ [o]) ≠ witnessAfter K pinned os →
      (witnessAfter K pinned os).last = none ∨
        ∃ old, (witnessAfter K pinned os).last = some old ∧ Proven K old o := by
  intro h
  have hfirst : witnessAfter sampleHeads ktKey [⟨emptyHead, fun _ => none⟩] =
      ⟨ktKey, some emptyHead⟩ := by
    rw [witnessAfter_single]
    exact observeStep_first rfl emptyHead_verified
  have hsecond :
      witnessAfter sampleHeads ktKey ([⟨emptyHead, fun _ => none⟩] ++ [⟨oneHead, fun _ => none⟩]) =
      ⟨ktKey, some oneHead⟩ := by
    rw [witnessAfter_append, hfirst, Trace.run_cons, Trace.run_nil]
    exact observeStep_from_empty rfl oneHead_verified rfl Nat.one_pos
  have hchange := h sampleHeads ktKey [⟨emptyHead, fun _ => none⟩] ⟨oneHead, fun _ => none⟩
  rw [hsecond, hfirst] at hchange
  rcases hchange (by decide) with hnone | ⟨old, -, p, hp, -⟩
  · cases hnone
  · cases hp

end Sona
