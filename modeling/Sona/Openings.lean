/-
# Each ciphertext opens once

What keeps a ciphertext from opening again is the session that opened it: it does not open
one message twice, and while it is held no message starts it anew. A session that has left
its list, pushed out by five newer ones or dropped by `remove_sessions`, keeps nothing from
opening. A pre-key message on the fallback key then starts the same session again, and it and
all that was sent along that handshake open a second time (`opened_twice`). A ciphertext
opens at most once where the session that it is for is not started anew before it comes again
(`opens_at_most_once`).

What a session promises is named by which end of which handshake it is, which end a
message is for, and which messages it is done with (`Vodozemac.Once`).

Key definitions: `RatchetEngine.started`, `Vodozemac.Once`, `NotStartedAnew`.
Key theorems: `RatchetEngine.step_change`, `sided_run`, `opens_at_most_once`.
-/
import Sona.Sessions

namespace Sona

namespace RatchetEngine

variable {V : Vodozemac} (e : RatchetEngine V)

/-- The id of the session that a message starts. -/
def startedBy : V.OlmMessage → Option String
  | .inl preKey =>
    match withId (V.preKeySessionId preKey) (e.list (V.toBase64 (V.preKeyIdentityKey preKey))) with
    | some _ => none
    | none =>
      if (V.createInboundSession e.account (V.preKeyIdentityKey preKey) preKey).1.isOk then
        some (V.preKeySessionId preKey)
      else none
  | .inr _ => none

/-- And the one that an operation starts with a message. -/
def started : RatchetOp V → Option String
  | .decrypt _ msg | .decryptUnattributed _ msg => (parse msg).toOption.bind e.startedBy
  | _ => none

/-- Whether an operation hands in the ciphertext and gets Ok. -/
def opensCiphertext (c : CiphertextMessage) : RatchetOp V → Bool
  | .decryptUnattributed order msg => msg = c && (e.decryptUnattributed order msg).1.isOk
  | _ => false

variable {e}

theorem opensCiphertext_iff {c : CiphertextMessage} {op : RatchetOp V} :
    e.opensCiphertext c op = true ↔
      ∃ order, op = .decryptUnattributed order c ∧
      (e.decryptUnattributed order c).1.isOk = true := by
  unfold opensCiphertext
  cases op with
  | decryptUnattributed order msg =>
    simp only [Bool.and_eq_true, decide_eq_true_eq]
    constructor
    · rintro ⟨rfl, hok⟩
      exact ⟨order, rfl, hok⟩
    · rintro ⟨order', heq, hok⟩
      cases heq
      exact ⟨rfl, hok⟩
  | _ => simp

theorem decryptUnattributed_of_parse {msg : CiphertextMessage} {olm : V.OlmMessage}
    (h : parse msg = .ok olm) (order : List String) :
    e.decryptUnattributed order msg = e.decryptOlm order olm := by
  unfold decryptUnattributed
  rw [h]

theorem started_decryptUnattributed {msg : CiphertextMessage} {olm : V.OlmMessage}
    (h : parse msg = .ok olm) (order : List String) :
    e.started (.decryptUnattributed order msg) = e.startedBy olm := by
  unfold started
  dsimp only
  rw [h]
  rfl

theorem started_decrypt {msg : CiphertextMessage} {olm : V.OlmMessage} (h : parse msg = .ok olm)
    (peer : String) : e.started (.decrypt peer msg) = e.startedBy olm :=
  started_decryptUnattributed h [peer]

theorem parse_of_ok {msg : CiphertextMessage} {order : List String}
    (h : (e.decryptUnattributed order msg).1.isOk = true) :
    ∃ olm, parse (V := V) msg = .ok olm := by
  unfold decryptUnattributed at h
  cases hp : parse (V := V) msg with
  | error err =>
    rw [hp] at h
    cases h
  | ok olm => exact ⟨olm, rfl⟩

end RatchetEngine

/-- What the engine draws for sessions that it starts. -/
def RatchetOp.draws {V : Vodozemac} : RatchetOp V → List V.Draw
  | .establishOutbound _ d => [d]
  | _ => []

@[simp] theorem RatchetOp.draws_decryptUnattributed {V : Vodozemac} (order : List String)
    (msg : CiphertextMessage) :
    (RatchetOp.decryptUnattributed (V := V) order msg).draws = [] := rfl

/-- What vodozemac promises of sessions, by names for what it keeps to itself. A session is one
end of a handshake: the one that accepts the pre-key message with the id, or the one that drew the
key it starts with. A message opens only at the end that it is for, and only if the session is
not done with it. -/
structure Vodozemac.Once (V : Vodozemac) (side : V.Session → String ⊕ V.Draw)
    (recipient : V.OlmMessage → String ⊕ V.Draw) (spent : V.Session → V.OlmMessage → Prop) :
    Prop where
  opens : ∀ s olm bytes, (V.decrypt s olm).1 = .ok bytes →
    recipient olm = side s ∧ ¬ spent s olm ∧ spent (V.decrypt s olm).2 olm
  decrypt_side : ∀ s olm, side (V.decrypt s olm).2 = side s
  decrypt_spent : ∀ s olm olm', spent s olm → spent (V.decrypt s olm').2 olm
  encrypt_side : ∀ s plaintext d, side (V.encrypt s plaintext d).2 = side s
  encrypt_spent : ∀ s olm plaintext d, spent s olm → spent (V.encrypt s plaintext d).2 olm
  inbound : ∀ a key preKey s bytes, (V.createInboundSession a key preKey).1 = .ok (s, bytes) →
    side s = .inl (V.preKeySessionId preKey) ∧ recipient (.inl preKey) = side s ∧
    spent s (.inl preKey)
  outbound : ∀ a identityKey oneTimeKey d s, V.createOutboundSession a identityKey oneTimeKey d = .ok s →
    side s = .inr d
  /-- The id of a handshake is made from the keys in it. -/
  accepted_id : ∀ s id, side s = .inl id → V.sessionId s = id
  handshake : ∀ preKey preKey', V.preKeySessionId preKey = V.preKeySessionId preKey' →
    V.preKeyIdentityKey preKey = V.preKeyIdentityKey preKey'

/-! ### What an operation does to the lists -/

namespace RatchetEngine

variable {V : Vodozemac} {e e' : RatchetEngine V}

/-- A session after a call. -/
def Advanced (s s' : V.Session) : Prop :=
  (∃ olm, s' = (V.decrypt s olm).2) ∨ ∃ plaintext d, s' = (V.encrypt s plaintext d).2

/-- Sessions leave; or one goes on, and may change its place; or a message or a
bundle starts one. -/
inductive Change (e : RatchetEngine V) (op : RatchetOp V) (e' : RatchetEngine V) : Prop
  | left (lists : ∀ p, (e'.list p).Sublist (e.list p))
  | advanced {peer : String} {idx : ℕ} {s s' : V.Session} (place : (e.list peer)[idx]? = some s)
      (goes : Advanced s s')
      (lists : ∀ p, (e'.list p).Perm (if p = peer then (e.list peer).set idx s' else e.list p))
  | accepted {preKey : V.PreKeyMessage} {s : V.Session} {bytes : Bytes}
      (starts : e.started op = some (V.preKeySessionId preKey))
      (fresh : ∀ s' ∈ e.list (V.toBase64 (V.preKeyIdentityKey preKey)), V.sessionId s' ≠ V.preKeySessionId preKey)
      (creates : (V.createInboundSession e.account (V.preKeyIdentityKey preKey) preKey).1 = .ok (s, bytes))
      (lists : ∀ p, e'.list p = if p = V.toBase64 (V.preKeyIdentityKey preKey) then
        Recent.push maxSessionsPerPeer s (e.list (V.toBase64 (V.preKeyIdentityKey preKey))) else e.list p)
  | established {peer : String} {identityKey oneTimeKey : V.Curve25519PublicKey} {d : V.Draw}
      {s : V.Session}
      (draws : d ∈ op.draws) (creates : V.createOutboundSession e.account identityKey oneTimeKey d = .ok s)
      (lists : ∀ p, e'.list p = if p = peer then Recent.push maxSessionsPerPeer s (e.list peer) else e.list p)

theorem Change.same {op : RatchetOp V} (h : ∀ p, e'.list p = e.list p) : Change e op e' :=
  .left fun p => by rw [h p]

theorem startedBy_created {preKey : V.PreKeyMessage} {s : V.Session} {bytes : Bytes}
    {account : V.Account}
    (fresh : ∀ s' ∈ e.list (V.toBase64 (V.preKeyIdentityKey preKey)), V.sessionId s' ≠ V.preKeySessionId preKey)
    (creates : V.createInboundSession e.account (V.preKeyIdentityKey preKey) preKey = (.ok (s, bytes), account)) :
    e.startedBy (.inl preKey) = some (V.preKeySessionId preKey) := by
  unfold startedBy
  have hnone : withId (V.preKeySessionId preKey)
      (e.list (V.toBase64 (V.preKeyIdentityKey preKey))) = none := by
    cases hwith : withId (V.preKeySessionId preKey)
      (e.list (V.toBase64 (V.preKeyIdentityKey preKey))) with
    | none => rfl
    | some hit =>
      obtain ⟨hplace, hid⟩ := withId_some hwith
      exact absurd hid (fresh hit.1 (List.mem_of_getElem? hplace))
  dsimp only
  rw [hnone]
  dsimp only
  rw [creates]
  rfl

theorem Decrypted.change {op : RatchetOp V} {olm : V.OlmMessage}
    {result : Except RatchetError (String × String)} {use : Option (String × String)}
    (hd : Decrypted e olm result e' use) (hop : e.started op = e.startedBy olm) :
    Change e op e' := by
  cases hd with
  | refused known same => exact .same same
  | @opened sender idx s s' bytes e' place opens names account lists =>
    have hs' : s' = (V.decrypt s olm).2 := by rw [opens]
    refine .advanced place (Or.inl ⟨olm, hs'⟩) fun p => ?_
    rw [lists]
    by_cases hp : p = sender
    · rw [if_pos hp, if_pos hp]
      exact Recent.promote_perm idx _
    · rw [if_neg hp, if_neg hp]
  | @created preKey s bytes account e' starts fresh creates lists =>
    subst starts
    refine .accepted ?_ fresh (by rw [creates]) lists
    rw [hop]
    exact startedBy_created fresh creates

theorem change_encrypt (peer plaintext : String) (d : V.Draw) :
    Change e (.encrypt peer plaintext d) (e.encrypt peer plaintext d).2 := by
  unfold encrypt
  cases hs : (e.list peer).head? with
  | none => exact .same fun _ => rfl
  | some s =>
    have hplace : (e.list peer)[0]? = some s := by rw [← List.head?_eq_getElem?, hs]
    dsimp only
    rcases henc : V.encrypt s plaintext d with ⟨olm, s'⟩
    have hput : Change e (.encrypt peer plaintext d) (e.putSession peer 0 s') := by
      refine .advanced hplace (Or.inr ⟨plaintext, d, by rw [henc]⟩) fun p => ?_
      rw [list_putSession]
    cases olm <;> exact hput

/-- **What one operation does to the lists.** -/
theorem step_change (hV : V.Lawful) {fromSlice : Bytes → Option Json}
    (hread : ∀ j, fromSlice (toVec j) = some j) (op : RatchetOp V) :
    Change e op (e.step fromSlice op) := by
  cases op with
  | generateOneTimeKeys | generateFallbackKey | createBundle => exact .same fun _ => rfl
  | establishOutbound bundle d =>
    unfold step
    dsimp only
    rcases establishOutbound_cases (e := e) bundle d with ⟨-, heq⟩ | ⟨s, _, _, -, -, hcreate, heq⟩
    · rw [heq]
      exact .same fun _ => rfl
    · rw [heq]
      exact .established List.mem_cons_self hcreate (list_pushSession _ s)
  | encrypt peer plaintext d => exact change_encrypt peer plaintext d
  | decrypt peer msg =>
    unfold step
    dsimp only
    cases hp : parse (V := V) msg with
    | error err =>
      have hsame : (e.decrypt peer msg).2 = e := by
        unfold decrypt
        rw [hp]
      rw [hsame]
      exact .same fun _ => rfl
    | ok olm =>
      have hstarted := started_decrypt (e := e) hp peer
      cases olm with
      | inl preKey =>
        rw [decrypt_preKey hp]
        exact (decrypted_preKey hV preKey [peer]).change hstarted
      | inr message =>
        rw [decrypt_normal hp]
        exact (decrypted_normal hV message [peer]).change hstarted
  | decryptUnattributed order msg =>
    unfold step decryptUnattributed
    dsimp only
    cases hp : parse (V := V) msg with
    | error err => exact .same fun _ => rfl
    | ok olm => exact (decrypted hV order olm).change (started_decryptUnattributed hp order)
  | removeSessions peer =>
    refine .left fun p => ?_
    rw [show (e.step fromSlice (.removeSessions peer)).list p = _ from list_removeSessions peer p]
    split
    · exact List.nil_sublist _
    · exact List.Sublist.refl _
  | reopen =>
    obtain ⟨e', himport, -, hsame⟩ := import_export hV hread e
    unfold step
    dsimp only
    rw [himport]
    exact .same hsame

/-! ### Which sessions are held -/

section once

variable {side : V.Session → String ⊕ V.Draw} {recipient : V.OlmMessage → String ⊕ V.Draw}
  {spent : V.Session → V.OlmMessage → Prop}

/-- Every end of a handshake is held once, an accepting one in the list of who started it, and the
others by what was drawn for them. -/
structure Sided (side : V.Session → String ⊕ V.Draw) (drawn : List V.Draw) (e : RatchetEngine V) :
    Prop where
  distinct : ∀ p, ((e.list p).map side).Nodup
  apart : ∀ p p' x, x ∈ (e.list p).map side → x ∈ (e.list p').map side → p = p'
  placed : ∀ p id, .inl id ∈ (e.list p).map side →
    ∃ preKey, V.preKeySessionId preKey = id ∧ p = V.toBase64 (V.preKeyIdentityKey preKey)
  known : ∀ p d, .inr d ∈ (e.list p).map side → d ∈ drawn

/-- Every session that a message is for is done with it. -/
def Barred (side : V.Session → String ⊕ V.Draw) (recipient : V.OlmMessage → String ⊕ V.Draw)
    (spent : V.Session → V.OlmMessage → Prop) (olm : V.OlmMessage) (e : RatchetEngine V) : Prop :=
  ∀ p, ∀ s ∈ e.list p, side s = recipient olm → spent s olm

theorem Advanced.same_side (hO : V.Once side recipient spent) {s s' : V.Session}
    (h : Advanced s s') :
    side s' = side s := by
  rcases h with ⟨olm, rfl⟩ | ⟨plaintext, d, rfl⟩
  · exact hO.decrypt_side s olm
  · exact hO.encrypt_side s plaintext d

theorem Advanced.still_spent (hO : V.Once side recipient spent) {s s' : V.Session}
    (h : Advanced s s') {olm : V.OlmMessage} (hs : spent s olm) : spent s' olm := by
  rcases h with ⟨olm', rfl⟩ | ⟨plaintext, d, rfl⟩
  · exact hO.decrypt_spent s olm olm' hs
  · exact hO.encrypt_spent s olm plaintext d hs

variable {drawn : List V.Draw}

/-- What holds fewer ends, each where it was. -/
theorem Sided.mono (h : Sided side drawn e) {drawn' : List V.Draw} (hdrawn : drawn ⊆ drawn')
    (hsides : ∀ p, ((e'.list p).map side).Subperm ((e.list p).map side)) :
    Sided side drawn' e' where
  distinct p := by
    obtain ⟨l, hperm, hsub⟩ := hsides p
    exact hperm.nodup_iff.mp ((h.distinct p).sublist hsub)
  apart p p' x hx hx' := h.apart p p' x ((hsides p).subset hx) ((hsides p').subset hx')
  placed p id hx := h.placed p id ((hsides p).subset hx)
  known p d hx := hdrawn (h.known p d ((hsides p).subset hx))

/-- An end that is new comes into one list. -/
theorem Sided.push (h : Sided side drawn e) {drawn' : List V.Draw} (hdrawn : drawn ⊆ drawn')
    {peer : String} {s : V.Session} (hnew : ∀ p, side s ∉ (e.list p).map side)
    (hplaced : ∀ id, side s = .inl id →
      ∃ preKey, V.preKeySessionId preKey = id ∧ peer = V.toBase64 (V.preKeyIdentityKey preKey))
    (hknown : ∀ d, side s = .inr d → d ∈ drawn')
    (hlists : ∀ p, e'.list p = if p = peer then Recent.push maxSessionsPerPeer s (e.list peer) else e.list p) :
    Sided side drawn' e' := by
  -- an end that is held is the new one, or was held there
  have hmem : ∀ p x, x ∈ (e'.list p).map side → (p = peer ∧ x = side s) ∨
      x ∈ (e.list p).map side := by
    intro p x hx
    rw [hlists] at hx
    by_cases hp : p = peer
    · rw [if_pos hp] at hx
      have hcons := ((Recent.push_sublist maxSessionsPerPeer s (e.list peer)).map side).subset hx
      rcases List.mem_cons.mp hcons with rfl | hold
      · exact Or.inl ⟨hp, rfl⟩
      · exact Or.inr (hp ▸ hold)
    · rw [if_neg hp] at hx
      exact Or.inr hx
  refine ⟨fun p => ?_, fun p p' x hx hx' => ?_, fun p id hx => ?_, fun p d hx => ?_⟩
  · rw [hlists]
    by_cases hp : p = peer
    · rw [if_pos hp]
      have hcons : ((s :: e.list peer).map side).Nodup :=
        List.nodup_cons.mpr ⟨hnew peer, h.distinct peer⟩
      exact hcons.sublist ((Recent.push_sublist maxSessionsPerPeer s (e.list peer)).map side)
    · rw [if_neg hp]
      exact h.distinct p
  · rcases hmem p x hx with ⟨rfl, rfl⟩ | hold
    · rcases hmem p' _ hx' with ⟨rfl, -⟩ | hold'
      · rfl
      · exact absurd hold' (hnew p')
    · rcases hmem p' x hx' with ⟨-, rfl⟩ | hold'
      · exact absurd hold (hnew p)
      · exact h.apart p p' x hold hold'
  · rcases hmem p _ hx with ⟨rfl, heq⟩ | hold
    · exact hplaced id heq.symm
    · exact h.placed p id hold
  · rcases hmem p _ hx with ⟨-, heq⟩ | hold
    · exact hknown d heq.symm
    · exact hdrawn (h.known p d hold)

/-- The end that a message starts is not held, when its sender has no session of the id. -/
theorem Sided.fresh (hO : V.Once side recipient spent) (h : Sided side drawn e)
    {preKey : V.PreKeyMessage}
    (hfresh : ∀ s ∈ e.list (V.toBase64 (V.preKeyIdentityKey preKey)), V.sessionId s ≠ V.preKeySessionId preKey)
    (p : String) : .inl (V.preKeySessionId preKey) ∉ (e.list p).map side := by
  intro hmem
  obtain ⟨preKey', hid, rfl⟩ := h.placed p _ hmem
  rw [hO.handshake preKey' preKey hid] at hmem
  obtain ⟨s, hs, hside⟩ := List.mem_map.mp hmem
  exact hfresh s hs (hO.accepted_id s _ hside)

theorem sided_step (hO : V.Once side recipient spent) (op : RatchetOp V) (h : Sided side drawn e)
    (hdraws : ∀ d ∈ op.draws, d ∉ drawn) (hc : Change e op e') :
    Sided side (drawn ++ op.draws) e' := by
  have hmore : drawn ⊆ drawn ++ op.draws := List.subset_append_left _ _
  cases hc with
  | left lists => exact h.mono hmore fun p => ((lists p).map side).subperm
  | @advanced peer idx s s' place goes lists =>
    refine h.mono hmore fun p => ?_
    have hperm := (lists p).map side
    by_cases hp : p = peer
    · rw [if_pos hp, map_set_same place (goes.same_side hO)] at hperm
      rw [hp] at hperm ⊢
      exact hperm.subperm
    · rw [if_neg hp] at hperm
      exact hperm.subperm
  | @accepted preKey s bytes starts fresh creates lists =>
    obtain ⟨hside, -, -⟩ := hO.inbound e.account _ preKey s bytes creates
    refine h.push hmore (fun p => ?_) (fun id heq => ?_) (fun d heq => ?_) lists
    · rw [hside]
      exact h.fresh hO fresh p
    · rw [hside] at heq
      exact ⟨preKey, Sum.inl.inj heq, rfl⟩
    · rw [hside] at heq
      exact nomatch heq
  | @established peer identityKey oneTimeKey d s draws creates lists =>
    have hside := hO.outbound e.account identityKey oneTimeKey d s creates
    refine h.push hmore (fun p => ?_) (fun id heq => ?_) (fun d' heq => ?_) lists
    · rw [hside]
      intro hmem
      exact hdraws d draws (h.known p d hmem)
    · rw [hside] at heq
      exact nomatch heq
    · rw [hside] at heq
      rw [← Sum.inr.inj heq]
      exact List.mem_append_right _ draws

/-- A message stays barred unless the session that it is for is started anew. -/
theorem barred_step (hO : V.Once side recipient spent) {op : RatchetOp V} {olm : V.OlmMessage}
    (h : Barred side recipient spent olm e) (hc : Change e op e')
    (hstarts : ∀ id, e.started op = some id → recipient olm ≠ .inl id)
    (hdraws : ∀ d ∈ op.draws, recipient olm ≠ .inr d) : Barred side recipient spent olm e' := by
  intro p t ht hside
  cases hc with
  | left lists => exact h p t ((lists p).subset ht) hside
  | @advanced peer idx s s' place goes lists =>
    have hmem := (lists p).subset ht
    by_cases hp : p = peer
    · rw [if_pos hp] at hmem
      rcases List.mem_or_eq_of_mem_set hmem with hold | rfl
      · exact h peer t hold hside
      · rw [goes.same_side hO] at hside
        exact goes.still_spent hO (h peer s (List.mem_of_getElem? place) hside)
    · rw [if_neg hp] at hmem
      exact h p t hmem hside
  | @accepted preKey s bytes starts fresh creates lists =>
    rw [lists] at ht
    by_cases hp : p = V.toBase64 (V.preKeyIdentityKey preKey)
    · rw [if_pos hp] at ht
      rcases List.mem_cons.mp ((Recent.push_sublist _ s _).subset ht) with rfl | hold
      · obtain ⟨hinl, -, -⟩ := hO.inbound e.account _ preKey t bytes creates
        rw [hinl] at hside
        exact absurd hside.symm (hstarts _ starts)
      · exact h _ t hold hside
    · rw [if_neg hp] at ht
      exact h p t ht hside
  | @established peer identityKey oneTimeKey d s draws creates lists =>
    rw [lists] at ht
    by_cases hp : p = peer
    · rw [if_pos hp] at ht
      rcases List.mem_cons.mp ((Recent.push_sublist _ s _).subset ht) with rfl | hold
      · rw [hO.outbound e.account identityKey oneTimeKey d t creates] at hside
        exact absurd hside.symm (hdraws d draws)
      · exact h _ t hold hside
    · rw [if_neg hp] at ht
      exact h p t ht hside

/-- What opens is barred from then on, and a session that it is for is held. -/
theorem barred_of_ok (hO : V.Once side recipient spent) (h : Sided side drawn e)
    {olm : V.OlmMessage} {result : Except RatchetError (String × String)}
    {use : Option (String × String)} (hd : Decrypted e olm result e' use)
    (hok : result.isOk = true) :
    Barred side recipient spent olm e' ∧ ∃ p, ∃ s ∈ e'.list p, side s = recipient olm := by
  cases hd with
  | refused known same => cases hok
  | @opened sender idx s s' bytes e' place opens names account lists =>
    obtain ⟨hto, -, hdone⟩ := hO.opens s olm bytes (by rw [opens])
    have hside : side s' = side s := by
      have hkeep := hO.decrypt_side s olm
      rwa [opens] at hkeep
    rw [opens] at hdone
    obtain ⟨hlt, -⟩ := List.getElem?_eq_some_iff.mp place
    have hmem : ∀ p t, t ∈ e'.list p →
        t ∈ if p = sender then (e.list sender).set idx s' else e.list p := by
      intro p t ht
      rw [lists] at ht
      by_cases hp : p = sender
      · rw [if_pos hp] at ht ⊢
        exact (Recent.promote_perm idx _).subset ht
      · rw [if_neg hp] at ht ⊢
        exact ht
    refine ⟨fun p t ht hfor => ?_, sender, s', ?_, hside.trans hto.symm⟩
    · have ht' := hmem p t ht
      rw [hto] at hfor
      have hs : side s ∈ (e.list sender).map side :=
        List.mem_map_of_mem (List.mem_of_getElem? place)
      by_cases hp : p = sender
      · -- no other session of the list is this end
        rw [if_pos hp] at ht'
        obtain ⟨j, hj⟩ := List.mem_iff_getElem?.mp ht'
        by_cases hidx : idx = j
        · subst hidx
          rw [List.getElem?_set_self hlt] at hj
          cases hj
          exact hdone
        · rw [List.getElem?_set_ne hidx] at hj
          have hsame : ((e.list sender).map side)[idx]? = ((e.list sender).map side)[j]? := by
            rw [List.getElem?_map, List.getElem?_map, place, hj]
            exact congrArg some hfor.symm
          have hbound : idx < ((e.list sender).map side).length := by rwa [List.length_map]
          exact absurd ((List.getElem?_inj hbound (h.distinct sender)).mp hsame) hidx
      · rw [if_neg hp] at ht'
        have hother : side s ∈ (e.list p).map side := hfor ▸ List.mem_map_of_mem ht'
        exact absurd (h.apart p sender _ hother hs) hp
    · rw [lists, if_pos rfl]
      exact (Recent.promote_perm idx _).symm.subset (List.mem_set hlt s')
  | @created preKey s bytes account e' starts fresh creates lists =>
    subst starts
    obtain ⟨hside, hto, hdone⟩ := hO.inbound e.account _ preKey s bytes (by rw [creates])
    have hnew := h.fresh hO fresh
    refine ⟨fun p t ht hfor => ?_, V.toBase64 (V.preKeyIdentityKey preKey), s, ?_, hto.symm⟩
    · rw [hto, hside] at hfor
      have hold : ∀ q, t ∉ e.list q := fun q hq => hnew q (hfor ▸ List.mem_map_of_mem hq)
      rw [lists] at ht
      by_cases hp : p = V.toBase64 (V.preKeyIdentityKey preKey)
      · rw [if_pos hp] at ht
        rcases List.mem_cons.mp ((Recent.push_sublist _ s _).subset ht) with rfl | hmem
        · exact hdone
        · exact absurd hmem (hold _)
      · rw [if_neg hp] at ht
        exact absurd ht (hold p)
    · rw [lists, if_pos rfl]
      exact Recent.mem_push_self (by decide) s _

/-- What is barred does not open, unless it starts its session anew. -/
theorem not_ok_of_barred (hO : V.Once side recipient spent) {olm : V.OlmMessage}
    (h : Barred side recipient spent olm e) {result : Except RatchetError (String × String)}
    {use : Option (String × String)} (hd : Decrypted e olm result e' use)
    (hstarts : ∀ id, e.startedBy olm = some id → recipient olm ≠ .inl id) :
    result.isOk = false := by
  cases hd with
  | refused known same => rfl
  | @opened sender idx s s' bytes e' place opens names account lists =>
    obtain ⟨hto, hnot, -⟩ := hO.opens s olm bytes (by rw [opens])
    exact absurd (h sender s (List.mem_of_getElem? place) hto.symm) hnot
  | @created preKey s bytes account e' starts fresh creates lists =>
    subst starts
    obtain ⟨hside, hto, -⟩ := hO.inbound e.account _ preKey s bytes (by rw [creates])
    exact absurd (hto.trans hside) (hstarts _ (startedBy_created fresh creates))

/-! ### Runs -/

theorem sided_new (d : V.Draw) : Sided side [] (.new d) where
  distinct _ := List.nodup_nil
  apart _ _ _ hx := nomatch hx
  placed _ _ hx := nomatch hx
  known _ _ hx := nomatch hx

theorem sided_run (hV : V.Lawful) (hO : V.Once side recipient spent)
    {fromSlice : Bytes → Option Json} (hread : ∀ j, fromSlice (toVec j) = some j) (d : V.Draw)
    (ops : List (RatchetOp V)) (hdraws : (ops.flatMap RatchetOp.draws).Nodup) :
    Sided side (ops.flatMap RatchetOp.draws) (Trace.run (step fromSlice) (.new d) ops) := by
  induction ops using List.reverseRecOn with
  | nil => exact sided_new d
  | append_singleton ops op ih =>
    rw [List.flatMap_append, List.flatMap_singleton, List.nodup_append] at hdraws
    obtain ⟨hbefore, -, hapart⟩ := hdraws
    rw [Trace.run_snoc, List.flatMap_append, List.flatMap_singleton]
    refine sided_step hO op (ih hbefore) (fun d hd hmem => ?_) (step_change hV hread op)
    exact hapart d hmem d hd rfl

theorem barred_run (hV : V.Lawful) (hO : V.Once side recipient spent)
    {fromSlice : Bytes → Option Json} (hread : ∀ j, fromSlice (toVec j) = some j)
    {olm : V.OlmMessage} (h : Barred side recipient spent olm e) {ops : List (RatchetOp V)}
    (hstarts : Trace.Along (step fromSlice)
      (fun e op => ∀ id, e.started op = some id → recipient olm ≠ .inl id) e ops)
    (hdraws : ∀ d ∈ ops.flatMap RatchetOp.draws, recipient olm ≠ .inr d) :
    Barred side recipient spent olm (Trace.run (step fromSlice) e ops) := by
  have hother : Trace.Along (step fromSlice)
      (fun _ op => ∀ d ∈ op.draws, recipient olm ≠ .inr d) e ops := by
    apply Trace.along_of_split
    rintro pre op post rfl d hd
    exact hdraws d (List.mem_flatMap.mpr ⟨op, by simp, hd⟩)
  have hboth := (Trace.along_and (step fromSlice) _ _ e ops).mpr ⟨hstarts, hother⟩
  exact hboth.inv (fun e op hb hop => barred_step hO hb (step_change hV hread op) hop.1 hop.2) h

end once

end RatchetEngine

/-- When a ciphertext comes twice, and a session that it is for is held after the first time, none
of the operations up to the second time, that one included, starts this session anew. -/
def NotStartedAnew {V : Vodozemac} (side : V.Session → String ⊕ V.Draw)
    (recipient : V.OlmMessage → String ⊕ V.Draw) (fromSlice : Bytes → Option Json)
    (e : RatchetEngine V) (ops : List (RatchetOp V)) : Prop :=
  ∀ pre order c olm mid order' post,
    ops = pre ++ .decryptUnattributed order c :: (mid ++ .decryptUnattributed order' c :: post) →
    RatchetEngine.parse c = .ok olm →
    let e₁ := Trace.run (RatchetEngine.step fromSlice) e (pre ++ [.decryptUnattributed order c])
    (∃ p, ∃ s ∈ e₁.list p, side s = recipient olm) →
    Trace.Along (RatchetEngine.step fromSlice)
      (fun e op => ∀ id, e.started op = some id → recipient olm ≠ .inl id) e₁
      (mid ++ [.decryptUnattributed order' c])

open RatchetEngine in
/-- **Every ciphertext opens at most once**, in every run in which no session is started anew
between two deliveries of a ciphertext that it is for. What is drawn for new
sessions is drawn once. -/
theorem opens_at_most_once {V : Vodozemac} (hV : V.Lawful) {side : V.Session → String ⊕ V.Draw}
    {recipient : V.OlmMessage → String ⊕ V.Draw} {spent : V.Session → V.OlmMessage → Prop}
    (hO : V.Once side recipient spent) {fromSlice : Bytes → Option Json}
    (hread : ∀ j, fromSlice (toVec j) = some j) (d : V.Draw) (ops : List (RatchetOp V))
    (hdraws : (ops.flatMap RatchetOp.draws).Nodup)
    (hops : NotStartedAnew side recipient fromSlice (.new d) ops) (c : CiphertextMessage) :
    Trace.count (step fromSlice) (fun e => e.opensCiphertext c) (.new d) ops ≤ 1 := by
  apply Trace.count_le_one
  intro pre op₁ mid op₂ post heq hopens₁ hopens₂
  obtain ⟨order, rfl, hok₁⟩ := opensCiphertext_iff.mp hopens₁
  obtain ⟨order', rfl, hok₂⟩ := opensCiphertext_iff.mp hopens₂
  obtain ⟨olm, hparse⟩ := parse_of_ok hok₁
  have hfirst : Trace.run (step fromSlice) (.new d) (pre ++ [.decryptUnattributed order c]) =
      ((Trace.run (step fromSlice) (.new d) pre).decryptOlm order olm).2 := by
    rw [Trace.run_snoc, ← decryptUnattributed_of_parse hparse]
    rfl
  have hsecond : Trace.run (step fromSlice) (.new d) (pre ++ .decryptUnattributed order c :: mid) =
      Trace.run (step fromSlice) (Trace.run (step fromSlice) (.new d) (pre ++ [.decryptUnattributed order c])) mid := by
    rw [← Trace.run_append, List.append_assoc]
    rfl
  rw [decryptUnattributed_of_parse hparse] at hok₁
  rw [hsecond, decryptUnattributed_of_parse hparse] at hok₂
  have hsplit := hops pre order c olm mid order' post heq hparse
  rw [heq, List.flatMap_append, List.flatMap_cons, List.flatMap_append] at hdraws
  obtain ⟨hbefore, -, hapart⟩ := List.nodup_append.mp hdraws
  -- the first time bars it
  have hdecrypted := decrypted (e := Trace.run (step fromSlice) (.new d) pre) hV order olm
  have hfresh := sided_run hV hO hread d pre hbefore
  obtain ⟨hbarred, p, s, hs, hside⟩ := barred_of_ok hO hfresh hdecrypted hok₁
  have hsided := sided_step hO (.decryptUnattributed order c) hfresh (fun _ hd => nomatch hd)
    (hdecrypted.change (started_decryptUnattributed hparse order))
  rw [← hfirst] at hbarred hs hsided
  obtain ⟨hmid, hlast, -⟩ := (Trace.along_append (step fromSlice) _ _ mid _).mp (hsplit ⟨p, s, hs, hside⟩)
  -- and it stays barred until the second
  have hdrawn : ∀ d' ∈ mid.flatMap RatchetOp.draws, recipient olm ≠ .inr d' := by
    intro d' hd' hto
    have hknown := hsided.known p d' (hto ▸ hside ▸ List.mem_map_of_mem hs)
    rw [RatchetOp.draws_decryptUnattributed, List.append_nil] at hknown
    exact hapart d' hknown d' (by simp [hd']) rfl
  have hstill := barred_run hV hO hread hbarred hmid hdrawn
  have hnot := not_ok_of_barred hO hstill (decrypted hV order' olm) fun id hid =>
    hlast id ((started_decryptUnattributed hparse order').trans hid)
  rw [hok₂] at hnot
  cases hnot

/-! ### The library to run with -/

def sampleSide (s : SampleSession) : String ⊕ ℕ :=
  if s.initiator then .inr s.handshake.baseKey else .inl s.handshake.id

def sampleRecipient (olm : SamplePreKey ⊕ SampleMessage) : String ⊕ ℕ :=
  let m := innerOf olm
  if m.toInitiator then .inr m.handshake.baseKey else .inl m.handshake.id

def SampleSpent (s : SampleSession) (olm : SamplePreKey ⊕ SampleMessage) : Prop :=
  (innerOf olm).index ∈ s.spent

theorem SampleHandshake.identityKey_of_id {k k' : SampleHandshake} (h : k.id = k'.id) :
    k.identityKey = k'.identityKey := by
  have hlist := String.ofList_injective h
  exact (List.cons.inj hlist).1

theorem SampleSession.open_spent (s : SampleSession) (m : SampleMessage) :
    s.spent ⊆ (s.open m).2.spent := by
  rcases s.open_cases m with ⟨t, h⟩ | ⟨-, -, -, h⟩
  · rw [h]
    exact List.Subset.refl _
  · rw [h]
    exact List.subset_cons_self _ _

theorem sampleOlm_once : sampleOlm.Once sampleSide sampleRecipient SampleSpent where
  opens := by
    intro s olm bytes hok
    have hopen : (SampleSession.open s (innerOf olm)).1 = .ok bytes := hok
    rcases SampleSession.open_cases s (innerOf olm) with ⟨t, h⟩ | ⟨hhandshake, hside, hnew, h⟩
    · rw [h] at hopen
      cases hopen
    · refine ⟨?_, hnew, ?_⟩
      · unfold sampleRecipient sampleSide
        rw [hhandshake, hside]
      · have hspent : (SampleSession.open s (innerOf olm)).2.spent =
            (innerOf olm).index :: s.spent := by rw [h]
        have hmem : (innerOf olm).index ∈ (SampleSession.open s (innerOf olm)).2.spent := by
          rw [hspent]
          exact List.mem_cons_self
        exact hmem
  decrypt_side := by
    intro s olm
    have hhandshake := SampleSession.open_handshake s (innerOf olm)
    have hinitiator := SampleSession.open_initiator s (innerOf olm)
    change sampleSide (SampleSession.open s (innerOf olm)).2 = sampleSide s
    unfold sampleSide
    rw [hhandshake, hinitiator]
  decrypt_spent s olm olm' hs := SampleSession.open_spent s (innerOf olm') hs
  encrypt_side _ _ _ := rfl
  encrypt_spent _ _ _ _ hs := hs
  inbound := by
    intro a key preKey s bytes hok
    obtain ⟨hto, hs⟩ := SampleAccount.open_ok (Prod.ext hok rfl : a.open preKey = (.ok (s, bytes), (a.open preKey).2))
    subst hs
    refine ⟨rfl, ?_, List.mem_cons_self⟩
    exact if_neg (by simp [innerOf, hto])
  outbound := by
    intro a identityKey oneTimeKey d s hok
    cases hok
    rfl
  accepted_id := by
    intro s id hside
    change (if s.initiator then Sum.inr s.handshake.baseKey else Sum.inl s.handshake.id) =
      _ at hside
    by_cases hinit : s.initiator = true
    · rw [if_pos hinit] at hside
      cases hside
    · rw [if_neg hinit] at hside
      exact Sum.inl.inj hside
  handshake _ _ := SampleHandshake.identityKey_of_id

/-- B takes the first message of A, and does not take it again. -/
def replayToB : List (RatchetOp sampleOlm) :=
  [.generateFallbackKey (102 : ℕ), .decryptUnattributed [] (helloOfA 'f' 1), .decryptUnattributed [] (helloOfA 'f' 1)]

theorem replayToB_ok :
    NotStartedAnew sampleSide sampleRecipient readVec (.new (66 : ℕ)) replayToB := by
  intro pre order c olm mid order' post heq hparse
  rcases pre with _ | ⟨op, _ | ⟨op', pre⟩⟩
  · cases heq
  · rcases mid with _ | ⟨op', mid⟩
    · cases heq
      have hnone : (Trace.run (RatchetEngine.step readVec) (RatchetEngine.new (V := sampleOlm) (66 : ℕ))
          [.generateFallbackKey (102 : ℕ), .decryptUnattributed [] (helloOfA 'f' 1)]).started
            (.decryptUnattributed [] (helloOfA 'f' 1)) = none := by
        decide +kernel
      exact fun _ => ⟨fun id hid => (nomatch hnone.symm.trans hid), trivial⟩
    · have hlength := congrArg List.length heq
      simp [replayToB] at hlength
  · have hlength := congrArg List.length heq
    simp [replayToB] at hlength
    omega

theorem opens_at_most_once_again : Trace.count (RatchetEngine.step readVec)
    (fun e => e.opensCiphertext (helloOfA 'f' 1)) (RatchetEngine.new (V := sampleOlm) (66 : ℕ)) replayToB ≤ 1 :=
  opens_at_most_once sampleOlm_lawful sampleOlm_once readVec_toVec (66 : ℕ) replayToB List.nodup_nil replayToB_ok _

/-- B drops the sessions of A in between. -/
def replayAfterReset : List (RatchetOp sampleOlm) :=
  [.generateFallbackKey (102 : ℕ), .decryptUnattributed [] (helloOfA 'f' 1), .removeSessions "A",
    .decryptUnattributed [] (helloOfA 'f' 1)]

theorem opened_twice : ¬ ∀ (V : Vodozemac) (side : V.Session → String ⊕ V.Draw)
    (recipient : V.OlmMessage → String ⊕ V.Draw) (spent : V.Session → V.OlmMessage → Prop)
    (fromSlice : Bytes → Option Json), V.Lawful → V.Once side recipient spent →
    (∀ j, fromSlice (toVec j) = some j) → ∀ (d : V.Draw) (ops : List (RatchetOp V)),
    (ops.flatMap RatchetOp.draws).Nodup → ∀ c : CiphertextMessage,
      Trace.count (RatchetEngine.step fromSlice) (fun e => e.opensCiphertext c) (.new d) ops ≤ 1 := by
  intro h
  have hone := h sampleOlm _ _ _ readVec sampleOlm_lawful sampleOlm_once readVec_toVec
    (66 : ℕ) replayAfterReset
    List.nodup_nil (helloOfA 'f' 1)
  have htwo : Trace.count (RatchetEngine.step readVec) (fun e => e.opensCiphertext (helloOfA 'f' 1))
      (RatchetEngine.new (V := sampleOlm) (66 : ℕ)) replayAfterReset = 2 := by decide +kernel
  omega

end Sona
