/-
# The session lists of an engine

In every run the lists are bounded, and ordered by what was created or opened something
last; a message changes the list of its sender only; and one that starts a session never
starts one that its sender has, whatever is in it (`session_lists`).

Key definitions: `RatchetEngine.Decrypted`, `RatchetEngine.Listed`, `RatchetEngine.KeepsLists`,
`sampleOlm`. Key theorems: `RatchetEngine.decrypted`, `RatchetEngine.import_export`,
`session_lists`.
-/
import Sona.Lib.Trace
import Sona.Ratchet

namespace Sona

/-! ### The lists -/

namespace RatchetEngine

variable {V : Vodozemac} {e : RatchetEngine V}

theorem list_set (peer : String) (l : List V.Session) (p : String) :
    ({ e with sessions := e.sessions.set peer l } : RatchetEngine V).list p =
      if p = peer then l else e.list p := by
  unfold list
  dsimp only
  rw [Table.get_set]
  split <;> rfl

theorem list_pushSession (peer : String) (s : V.Session) (p : String) :
    (e.pushSession peer s).list p =
      if p = peer then Recent.push maxSessionsPerPeer s (e.list peer) else e.list p :=
  list_set peer _ p

theorem promote_nil {α : Type} (idx : ℕ) : Recent.promote idx ([] : List α) = [] := by
  unfold Recent.promote
  simp

theorem list_promoteSession (peer : String) (idx : ℕ) (p : String) :
    (e.promoteSession peer idx).list p =
      if p = peer then Recent.promote idx (e.list peer) else e.list p := by
  unfold promoteSession list
  dsimp only
  rw [Table.get_modify]
  by_cases hp : p = peer
  · rw [if_pos hp, if_pos hp]
    cases e.sessions.get peer with
    | none => exact (promote_nil idx).symm
    | some l => rfl
  · rw [if_neg hp, if_neg hp]

theorem hasSession_iff (peer : String) : e.hasSession peer = true ↔ e.list peer ≠ [] := by
  unfold hasSession list
  cases e.sessions.get peer with
  | none => simp
  | some l => simp

/-- An item that is replaced by one with the same image changes no image. -/
theorem map_set_same {α β : Type} {f : α → β} {l : List α} {i : ℕ} {a b : α} (ha : l[i]? = some a)
    (hf : f b = f a) : (l.set i b).map f = l.map f := by
  obtain ⟨hlt, rfl⟩ := List.getElem?_eq_some_iff.mp ha
  have hself : (l.set i l[i]).map f = l.map f := congrArg (List.map f) (List.set_getElem_self hlt)
  rw [List.map_set] at hself ⊢
  rw [hf, hself]

theorem withId_some {wanted : String} {l : List V.Session} {s : V.Session} {idx : ℕ}
    (h : withId wanted l = some (s, idx)) : l[idx]? = some s ∧ V.sessionId s = wanted := by
  refine ⟨?_, by simpa using List.find?_some h⟩
  have hmem := List.mem_of_find?_eq_some h
  rw [List.mk_mem_zipIdx_iff_getElem?] at hmem
  exact hmem

theorem withId_none {wanted : String} {l : List V.Session} (h : withId wanted l = none) :
    ∀ s ∈ l, V.sessionId s ≠ wanted := by
  intro s hs heq
  obtain ⟨idx, hidx⟩ := List.mem_iff_getElem?.mp hs
  have hmem : (s, idx) ∈ l.zipIdx := List.mk_mem_zipIdx_iff_getElem?.mpr hidx
  exact List.find?_eq_none.mp h (s, idx) hmem (by simpa using heq)

section lawful

variable (hV : V.Lawful)
include hV

/-- The sessions of a list are as they were, up to one that opens the message. -/
theorem openFirst_cases (olm : V.OlmMessage) : ∀ l : List V.Session,
    (openFirst olm l = (none, l) ∧ ∀ s ∈ l, opens olm s = false) ∨
    ∃ idx s s' bytes, l[idx]? = some s ∧ V.decrypt s olm = (.ok bytes, s') ∧
      openFirst olm l = (some (idx, bytes), l.set idx s') ∧ l.find? (opens olm) = some s
  | [] => Or.inl ⟨rfl, by simp⟩
  | s :: ss => by
    unfold openFirst
    rcases hd : V.decrypt s olm with ⟨result, s'⟩
    cases result with
    | ok bytes =>
      have hopens : opens olm s = true := by
        unfold opens
        rw [hd]
        rfl
      exact Or.inr ⟨0, s, s', bytes, rfl, hd, rfl, by simp [hopens]⟩
    | error t =>
      have hopens : opens olm s = false := by
        unfold opens
        rw [hd]
        rfl
      have hsame : s' = s := by
        have hfailed := hV.failed s olm t (by rw [hd])
        rwa [hd] at hfailed
      subst hsame
      rcases openFirst_cases olm ss with ⟨heq, hnone⟩ | ⟨idx, s₁, s₁', bytes, hidx, hd₁, heq, hfind⟩
      · left
        rw [heq]
        refine ⟨rfl, fun x hx => ?_⟩
        rcases List.mem_cons.mp hx with rfl | hx
        · exact hopens
        · exact hnone x hx
      · right
        rw [heq]
        exact ⟨idx + 1, s₁, s₁', bytes, hidx, hd₁, rfl, by simp [hopens, hfind]⟩

/-- And so are the lists, up to one that has such a session. -/
theorem openAny_cases (olm : V.OlmMessage) :
    ∀ (order : List String) (t : Table String (List V.Session)),
    ((openAny olm order t).1 = none ∧ (∀ p, (openAny olm order t).2.get p = t.get p) ∧
      (order.find? fun p => ((t.get p).getD []).any (opens olm)) = none) ∨
    ∃ peer l idx s s' bytes, t.get peer = some l ∧ l[idx]? = some s ∧
    V.decrypt s olm = (.ok bytes, s') ∧
      (openAny olm order t).1 = some (peer, idx, bytes) ∧
      (∀ p, (openAny olm order t).2.get p = if p = peer then some (l.set idx s') else t.get p) ∧
      (order.find? fun p => ((t.get p).getD []).any (opens olm)) = some peer ∧
      l.find? (opens olm) = some s
  | [], t => Or.inl ⟨rfl, fun _ => rfl, rfl⟩
  | peer :: peers, t => by
    unfold openAny
    cases hpeer : t.get peer with
    | none =>
      have hany : ((t.get peer).getD []).any (opens olm) = false := by simp [hpeer]
      simp only [List.find?_cons, hany]
      exact openAny_cases olm peers t
    | some l =>
      dsimp only
      rcases openFirst_cases hV olm l with ⟨heq, hnone⟩ | ⟨idx, s, s', bytes, hidx, hd, heq, hfind⟩
      · have hany : ((t.get peer).getD []).any (opens olm) = false := by simpa [hpeer] using hnone
        rw [heq]
        simp only [List.find?_cons, hany]
        -- the list is put back as it was
        have hsame : ∀ p, (t.set peer l).get p = t.get p := by
          intro p
          rw [Table.get_set]
          split
          · rename_i hp
            rw [hp, hpeer]
          · rfl
        have hrest := openAny_cases olm peers (t.set peer l)
        simp only [hsame] at hrest
        exact hrest
      · have hany : ((t.get peer).getD []).any (opens olm) = true := by
          simp only [hpeer, Option.getD_some]
          exact List.any_eq_true.mpr ⟨s, List.mem_of_find?_eq_some hfind, List.find?_some hfind⟩
        right
        rw [heq]
        simp only [List.find?_cons, hany]
        exact ⟨peer, l, idx, s, s', bytes, hpeer, hidx, hd, rfl, fun p => Table.get_set t peer p _,
          rfl, hfind⟩

end lawful

/-- What the engine does with a message: nothing that shows in the lists; or a session opens it and
is put in front; or it creates a session of its sender. -/
inductive Decrypted (e : RatchetEngine V) (olm : V.OlmMessage) :
    Except RatchetError (String × String) → RatchetEngine V → Option (String × String) → Prop
  | refused {err : RatchetError} {e' : RatchetEngine V} (known : ∀ bytes, err ≠ .invalidUtf8 bytes)
      (same : ∀ p, e'.list p = e.list p) : Decrypted e olm (.error err) e' none
  | opened {sender : String} {idx : ℕ} {s s' : V.Session} {bytes : Bytes} {e' : RatchetEngine V}
      (place : (e.list sender)[idx]? = some s) (opens : V.decrypt s olm = (.ok bytes, s'))
      (names : ∀ preKey, olm = .inl preKey → sender = V.toBase64 (V.preKeyIdentityKey preKey) ∧
        V.sessionId s = V.preKeySessionId preKey)
      (account : e'.account = e.account)
      (lists : ∀ p, e'.list p =
        if p = sender then Recent.promote idx ((e.list sender).set idx s') else e.list p) :
      Decrypted e olm (text sender bytes) e' (some (sender, V.sessionId s))
  | created {preKey : V.PreKeyMessage} {s : V.Session} {bytes : Bytes} {account : V.Account}
      {e' : RatchetEngine V}
      (starts : olm = .inl preKey)
      (fresh : ∀ s' ∈ e.list (V.toBase64 (V.preKeyIdentityKey preKey)), V.sessionId s' ≠ V.preKeySessionId preKey)
      (creates : V.createInboundSession e.account (V.preKeyIdentityKey preKey) preKey = (.ok (s, bytes), account))
      (lists : ∀ p, e'.list p = if p = V.toBase64 (V.preKeyIdentityKey preKey) then
        Recent.push maxSessionsPerPeer s (e.list (V.toBase64 (V.preKeyIdentityKey preKey))) else e.list p) :
      Decrypted e olm (text (V.toBase64 (V.preKeyIdentityKey preKey)) bytes) e'
        (some (V.toBase64 (V.preKeyIdentityKey preKey), V.preKeySessionId preKey))

theorem list_putSession (peer : String) (idx : ℕ) (s : V.Session) (p : String) :
    (e.putSession peer idx s).list p = if p = peer then (e.list peer).set idx s else e.list p :=
  list_set peer _ p

/-- A session that could not open a message is put back as it was. -/
theorem list_putSession_self {peer : String} {idx : ℕ} {s : V.Session}
    (hs : (e.list peer)[idx]? = some s) (p : String) :
    (e.putSession peer idx s).list p = e.list p := by
  rw [list_putSession]
  by_cases hp : p = peer
  · obtain ⟨hlt, hget⟩ := List.getElem?_eq_some_iff.mp hs
    rw [if_pos hp, hp, ← hget]
    exact List.set_getElem_self hlt
  · rw [if_neg hp]

theorem decrypted_preKey (hV : V.Lawful) (preKey : V.PreKeyMessage) (order : List String) :
    Decrypted e (.inl preKey) (e.decryptPreKey preKey).1 (e.decryptPreKey preKey).2 (e.usedBy order (.inl preKey)) := by
  unfold decryptPreKey usedBy
  dsimp only
  rcases hwith : withId (V.preKeySessionId preKey) (e.list (V.toBase64 (V.preKeyIdentityKey preKey)))
    with _ | ⟨s, idx⟩
  · have hfresh := withId_none hwith
    dsimp only
    rcases hcreate : V.createInboundSession e.account (V.preKeyIdentityKey preKey) preKey with ⟨result, account⟩
    cases result with
    | error t => exact .refused (fun _ heq => nomatch heq) fun _ => rfl
    | ok sb => exact .created rfl hfresh hcreate (list_pushSession _ sb.1)
  · obtain ⟨hplace, hid⟩ := withId_some hwith
    dsimp only
    rcases hd : V.decrypt s (.inl preKey) with ⟨result, s'⟩
    cases result with
    | error t =>
      have hopens : opens (.inl preKey) s = false := by
        unfold opens
        rw [hd]
        rfl
      have hsame : s' = s := by
        have hfailed := hV.failed s (.inl preKey) t (by rw [hd])
        rwa [hd] at hfailed
      subst hsame
      rw [if_neg (by simp [hopens])]
      exact .refused (fun _ heq => nomatch heq) (list_putSession_self hplace)
    | ok bytes =>
      have hopens : opens (.inl preKey) s = true := by
        unfold opens
        rw [hd]
        rfl
      have hopened :
          Decrypted e (.inl preKey) (text (V.toBase64 (V.preKeyIdentityKey preKey)) bytes)
          ((e.putSession (V.toBase64 (V.preKeyIdentityKey preKey)) idx s').promoteSession
            (V.toBase64 (V.preKeyIdentityKey preKey)) idx)
          (some (V.toBase64 (V.preKeyIdentityKey preKey), V.sessionId s)) := by
        refine .opened hplace hd ?_ rfl fun p => ?_
        · intro preKey' heq
          cases heq
          exact ⟨rfl, hid⟩
        · rw [list_promoteSession, list_putSession, list_putSession, if_pos rfl]
          split <;> rfl
      rw [hid] at hopened
      rw [if_pos hopens]
      exact hopened

theorem decrypted_normal (hV : V.Lawful) (message : V.Message) (order : List String) :
    Decrypted e (.inr message) (e.decryptNormal order message).1 (e.decryptNormal order message).2
      (e.usedBy order (.inr message)) := by
  unfold decryptNormal usedBy
  dsimp only
  rcases openAny_cases hV (.inr message) order e.sessions with
    ⟨hnone, hsame, hfind⟩ | ⟨peer, l, idx, s, s', bytes, hl, hidx, hd, hhit, hlists, hfind, hs⟩
  · have hfind' : (order.find? fun p => (e.list p).any (opens (.inr message))) = none := hfind
    rcases hall : openAny (.inr message) order e.sessions with ⟨hit, sessions⟩
    rw [hall] at hnone hsame
    obtain rfl : hit = none := hnone
    rw [hfind']
    refine .refused (fun _ heq => by cases heq) fun p => ?_
    unfold list
    exact congrArg (·.getD []) (hsame p)
  · have hlist : e.list peer = l := by simp [list, hl]
    have hfind' : (order.find? fun p => (e.list p).any (opens (.inr message))) = some peer := hfind
    have hused : ((some peer).bind fun peer =>
        ((e.list peer).find? (opens (.inr message))).map fun s => (peer, V.sessionId s)) =
        some (peer, V.sessionId s) := by
      simp [hlist, hs]
    rcases hall : openAny (.inr message) order e.sessions with ⟨hit, sessions⟩
    rw [hall] at hhit hlists
    obtain rfl : hit = some (peer, idx, bytes) := hhit
    rw [hfind', hused]
    refine .opened (hlist ▸ hidx) hd (fun _ heq => by cases heq) rfl fun p => ?_
    have hset : ∀ q, ({ e with sessions } : RatchetEngine V).list q =
        if q = peer then l.set idx s' else e.list q := by
      intro q
      unfold list
      dsimp only
      rw [hlists q]
      split <;> rfl
    rw [list_promoteSession, hset, hset, if_pos rfl, hlist]
    split <;> rfl

theorem decrypted (hV : V.Lawful) (order : List String) (olm : V.OlmMessage) :
    Decrypted e olm (e.decryptOlm order olm).1 (e.decryptOlm order olm).2 (e.usedBy order olm) := by
  cases olm with
  | inl preKey => exact decrypted_preKey hV preKey order
  | inr message => exact decrypted_normal hV message order

/-! ### Storage -/

theorem slotOfJson_arr (hV : V.Lawful) (l : List V.Session) :
    slotOfJson (.arr (l.map fun s => V.sessionToJson (V.pickleSession s))) =
      some (l.map V.pickleSession) := by
  have hread := Json.readAll_map hV.session_json (l.map V.pickleSession)
  rw [List.map_map] at hread
  have hmany : (Json.arr (l.map fun s => V.sessionToJson (V.pickleSession s))).asArr.bind
      (Json.readAll V.sessionOfJson) = some (l.map V.pickleSession) := hread
  unfold slotOfJson
  rw [hmany]

theorem slotsOfJson_map (hV : V.Lawful) :
    ∀ (entries : List (Sigma fun _ : String => List V.Session))
    (t : Table String (List V.Session)),
    slotsOfJson (entries.map fun p => (p.1, .arr (p.2.map fun s => V.sessionToJson (V.pickleSession s)))) t =
      some (entries.foldl (fun t p => t.set p.1 p.2) t)
  | [], _ => rfl
  | p :: entries, t => by
    have hpickles : (p.2.map V.pickleSession).map V.sessionFromPickle = p.2 := by
      rw [List.map_map]
      exact (List.map_congr_left fun s _ => hV.session_pickle s).trans (List.map_id' p.2)
    have hslot := slotOfJson_arr hV p.2
    have hrest := slotsOfJson_map hV entries (t.set p.1 p.2)
    simp only [List.map_cons, slotsOfJson, hslot, Option.bind_eq_bind, Option.bind_some, hpickles]
    exact hrest

/-- **What was exported is imported**: the account, and every list as it was. -/
theorem import_export (hV : V.Lawful) {fromSlice : Bytes → Option Json}
    (hread : ∀ j, fromSlice (toVec j) = some j) (e : RatchetEngine V) :
    ∃ e', importState fromSlice e.exportState = .ok e' ∧ e'.account = e.account ∧
      ∀ p, e'.list p = e.list p := by
  have hslots := slotsOfJson_map hV e.sessions.entries ∅
  refine ⟨{ account := e.account, sessions := e.sessions.entries.foldl (fun t p => t.set p.1 p.2) ∅ }, ?_, rfl, ?_⟩
  · unfold importState exportState
    rw [hread]
    simp [ofJson, Json.field, Json.optField, hV.account_json, hV.account_pickle, hslots]
  · intro p
    have hget := Table.get_foldl_set (fun _ v => v) ∅ e.sessions p
    unfold list
    dsimp only
    rw [hget]
    cases e.sessions.get p <;> rfl

/-! ### Lists over a run -/

/-- Every list is bounded, and stands by the uses of its sessions in the log. -/
structure Listed (log : List (String × String)) (e : RatchetEngine V) : Prop where
  bounded : ∀ peer, (e.list peer).length ≤ maxSessionsPerPeer
  ordered : ∀ peer, Recent.Ordered log ((e.list peer).map fun s => (peer, V.sessionId s))

variable {log : List (String × String)} {e' : RatchetEngine V}

/-- No two sessions of a list have one id. -/
theorem Listed.distinct (h : Listed log e) (peer : String) :
    ((e.list peer).map V.sessionId).Nodup := by
  have hpairs := (h.ordered peer).nodup
  have hmap : (e.list peer).map (fun s => (peer, V.sessionId s)) =
      ((e.list peer).map V.sessionId).map (peer, ·) := by
    rw [List.map_map]
    rfl
  rw [hmap] at hpairs
  exact hpairs.of_map _

theorem Listed.congr (h : Listed log e)
    (hsame : ∀ p, (e'.list p).map V.sessionId = (e.list p).map V.sessionId) :
    Listed log e' := by
  refine ⟨fun p => ?_, fun p => ?_⟩
  · have hlen := congrArg List.length (hsame p)
    rw [List.length_map, List.length_map] at hlen
    rw [hlen]
    exact h.bounded p
  · have hmap : ∀ e : RatchetEngine V, (e.list p).map (fun s => (p, V.sessionId s)) =
        ((e.list p).map V.sessionId).map (p, ·) := by
      intro e
      rw [List.map_map]
      rfl
    rw [hmap, hsame, ← hmap]
    exact h.ordered p

/-- A use in one list leaves the order of the others. -/
theorem Listed.other (h : Listed log e) {p peer : String} (hp : p ≠ peer) (id : String) :
    Recent.Ordered ((peer, id) :: log) ((e.list p).map fun s => (p, V.sessionId s)) := by
  apply (h.ordered p).other
  intro hmem
  obtain ⟨s, -, heq⟩ := List.mem_map.mp hmem
  exact hp (Prod.mk.inj heq).1

theorem Listed.push (h : Listed log e) {peer : String} {s : V.Session}
    (hfresh : ∀ s' ∈ e.list peer, V.sessionId s' ≠ V.sessionId s)
    (hlists : ∀ p, e'.list p =
      if p = peer then Recent.push maxSessionsPerPeer s (e.list peer) else e.list p) :
    Listed ((peer, V.sessionId s) :: log) e' := by
  refine ⟨fun p => ?_, fun p => ?_⟩
  · rw [hlists]
    split
    · exact Recent.length_push_le _ s _
    · exact h.bounded p
  · rw [hlists]
    by_cases hp : p = peer
    · subst hp
      rw [if_pos rfl]
      have hnew : (p, V.sessionId s) ∉ (e.list p).map fun s => (p, V.sessionId s) := by
        intro hmem
        obtain ⟨s', hs', heq⟩ := List.mem_map.mp hmem
        exact hfresh s' hs' (Prod.mk.inj heq).2
      have hfront := (h.ordered p).front hnew
      apply hfront.sublist
      exact (Recent.push_sublist maxSessionsPerPeer s (e.list p)).map _
    · rw [if_neg hp]
      exact h.other hp _

theorem Decrypted.listed (hV : V.Lawful) {olm : V.OlmMessage}
    {result : Except RatchetError (String × String)} {use : Option (String × String)}
    (hd : Decrypted e olm result e' use) (h : Listed log e) :
    Listed (use.toList ++ log) e' := by
  cases hd with
  | refused known same => exact h.congr fun p => by rw [same]
  | @opened sender idx s s' bytes e' place opens names account lists =>
    have hid : V.sessionId s' = V.sessionId s := by
      have hkeep := hV.decrypt_id s olm
      rwa [opens] at hkeep
    refine ⟨fun p => ?_, fun p => ?_⟩
    · rw [lists]
      split
      · rw [(Recent.promote_perm idx _).length_eq, List.length_set]
        exact h.bounded sender
      · exact h.bounded p
    · rw [lists]
      by_cases hp : p = sender
      · subst hp
        have hset : ((e.list p).set idx s').map (fun s => (p, V.sessionId s)) =
            (e.list p).map fun s => (p, V.sessionId s) := map_set_same place (by rw [hid])
        rw [if_pos rfl, Recent.map_promote, hset]
        apply (h.ordered p).promote
        rw [List.getElem?_map, place]
        rfl
      · rw [if_neg hp]
        exact h.other hp _
  | @created preKey s bytes account e' starts fresh creates lists =>
    have hid : V.sessionId s = V.preKeySessionId preKey :=
      hV.inbound_id e.account (V.preKeyIdentityKey preKey) preKey s bytes (by rw [creates])
    rw [← hid] at fresh ⊢
    exact h.push fresh lists

/-- With the peer known, a message that starts no session is tried on the list of the peer. -/
theorem decrypt_normal {peer : String} {msg : CiphertextMessage} {message : V.Message}
    (hp : parse msg = .ok (.inr message)) :
    (e.decrypt peer msg).2 = (e.decryptNormal [peer] message).2 := by
  unfold decrypt decryptNormal
  rw [hp]
  unfold openAny
  cases e.sessions.get peer with
  | none => rfl
  | some l =>
    dsimp only
    rcases openFirst (V := V) (.inr message) l with ⟨hit, l'⟩
    cases hit <;> rfl

theorem decrypt_preKey {peer : String} {msg : CiphertextMessage} {preKey : V.PreKeyMessage}
    (hp : parse msg = .ok (.inl preKey)) : (e.decrypt peer msg).2 = (e.decryptPreKey preKey).2 := by
  unfold decrypt
  rw [hp]
  dsimp only
  rcases e.decryptPreKey preKey with ⟨result, e'⟩
  cases result with
  | error err => rfl
  | ok st =>
    obtain ⟨sender, text⟩ := st
    dsimp only
    split <;> rfl

theorem establishOutbound_cases (bundle : PreKeyBundle) (d : V.Draw) :
    (e.outbound bundle d = none ∧ (e.establishOutbound bundle d).2 = e) ∨
    ∃ s identityKey oneTimeKey, e.outbound bundle d = some s ∧ e.list bundle.identityKey = [] ∧
      V.createOutboundSession e.account identityKey oneTimeKey d = .ok s ∧
      e.establishOutbound bundle d = (.ok (), e.pushSession bundle.identityKey s) := by
  unfold outbound establishOutbound
  by_cases hhas : e.hasSession bundle.identityKey = true
  · rw [if_pos hhas, if_pos hhas]
    exact Or.inl ⟨rfl, rfl⟩
  · have hempty : e.list bundle.identityKey = [] := by
      by_contra hne
      exact hhas ((hasSession_iff _).mpr hne)
    rw [if_neg hhas, if_neg hhas]
    cases V.fromBase64 bundle.identityKey with
    | error t => exact Or.inl ⟨rfl, rfl⟩
    | ok identityKey =>
      cases V.fromBase64 bundle.oneTimeKey with
      | error t => exact Or.inl ⟨rfl, rfl⟩
      | ok oneTimeKey =>
        dsimp only [Except.toOption, Option.bind_eq_bind, Option.bind_some]
        cases hc : V.createOutboundSession e.account identityKey oneTimeKey d with
        | error t => exact Or.inl ⟨rfl, rfl⟩
        | ok s => exact Or.inr ⟨s, identityKey, oneTimeKey, rfl, hempty, hc, rfl⟩

theorem list_removeSessions (peer p : String) :
    (e.removeSessions peer).2.list p = if p = peer then [] else e.list p := by
  unfold removeSessions list
  dsimp only
  rw [Table.get_remove]
  split <;> rfl

theorem ids_encrypt (hV : V.Lawful) (peer plaintext : String) (d : V.Draw) (p : String) :
    ((e.encrypt peer plaintext d).2.list p).map V.sessionId = (e.list p).map V.sessionId := by
  unfold encrypt
  cases hs : (e.list peer).head? with
  | none => rfl
  | some s =>
    have hplace : (e.list peer)[0]? = some s := by rw [← List.head?_eq_getElem?, hs]
    have hid := hV.encrypt_id s plaintext d
    dsimp only
    rcases henc : V.encrypt s plaintext d with ⟨olm, s'⟩
    rw [henc] at hid
    have hput : ((e.putSession peer 0 s').list p).map V.sessionId = (e.list p).map V.sessionId := by
      rw [list_putSession]
      by_cases hp : p = peer
      · rw [if_pos hp, hp]
        exact map_set_same hplace hid
      · rw [if_neg hp]
    cases olm <;> exact hput

/-- One operation keeps the lists by the log that it goes on with. -/
theorem listed_step (hV : V.Lawful) {fromSlice : Bytes → Option Json}
    (hread : ∀ j, fromSlice (toVec j) = some j) (h : Listed log e) (op : RatchetOp V) :
    Listed ((e.used op).toList ++ log) (e.step fromSlice op) := by
  cases op with
  | generateOneTimeKeys | generateFallbackKey | createBundle => exact h.congr fun _ => rfl
  | establishOutbound bundle d =>
    unfold used step
    dsimp only
    rcases establishOutbound_cases (e := e) bundle d with ⟨hnone, heq⟩
      | ⟨s, _, _, hsome, hempty, -, heq⟩
    · rw [hnone, heq]
      exact h
    · rw [hsome, heq]
      exact h.push (by simp [hempty]) (list_pushSession _ s)
  | encrypt peer plaintext d => exact h.congr (ids_encrypt hV peer plaintext d)
  | decrypt peer msg =>
    unfold used step
    dsimp only
    cases hp : parse (V := V) msg with
    | error err =>
      have hsame : (e.decrypt peer msg).2 = e := by
        unfold decrypt
        rw [hp]
      rw [hsame]
      exact h
    | ok olm =>
      cases olm with
      | inl preKey =>
        rw [decrypt_preKey hp]
        exact (decrypted_preKey hV preKey [peer]).listed hV h
      | inr message =>
        rw [decrypt_normal hp]
        exact (decrypted_normal hV message [peer]).listed hV h
  | decryptUnattributed order msg =>
    unfold used step decryptUnattributed
    dsimp only
    cases parse (V := V) msg with
    | error err => exact h
    | ok olm => exact (decrypted hV order olm).listed hV h
  | removeSessions peer =>
    refine ⟨fun p => ?_, fun p => ?_⟩
    · rw [show (e.step fromSlice (.removeSessions peer)).list p = _ from list_removeSessions peer p]
      split
      · exact Nat.zero_le _
      · exact h.bounded p
    · rw [show (e.step fromSlice (.removeSessions peer)).list p = _ from list_removeSessions peer p]
      split
      · exact Recent.Ordered.nil _
      · exact h.ordered p
  | reopen =>
    obtain ⟨e', himport, -, hsame⟩ := import_export hV hread e
    unfold step
    dsimp only
    rw [himport]
    exact h.congr fun p => by rw [hsame]

/-! ### Runs -/

/-- A run of operations, with the log of what they used, the last use first. -/
def logStep (fromSlice : Bytes → Option Json) (s : RatchetEngine V × List (String × String))
    (op : RatchetOp V) :
    RatchetEngine V × List (String × String) :=
  (s.1.step fromSlice op, (s.1.used op).toList ++ s.2)

theorem run_logStep (fromSlice : Bytes → Option Json) : ∀ (ops : List (RatchetOp V))
    (s : RatchetEngine V × List (String × String)),
    (Trace.run (logStep fromSlice) s ops).1 = Trace.run (step fromSlice) s.1 ops
  | [], _ => rfl
  | op :: ops, s => run_logStep fromSlice ops (logStep fromSlice s op)

theorem listed_run (hV : V.Lawful) {fromSlice : Bytes → Option Json}
    (hread : ∀ j, fromSlice (toVec j) = some j) (d : V.Draw) (ops : List (RatchetOp V)) :
    Listed (Trace.run (logStep fromSlice) (.new d, []) ops).2 (Trace.run (logStep fromSlice) (.new d, []) ops).1 := by
  have hstart : Listed [] (RatchetEngine.new (V := V) d) :=
    ⟨fun _ => Nat.zero_le _, fun _ => Recent.Ordered.nil _⟩
  exact Trace.run_inv (I := fun s : RatchetEngine V × List (String × String) => Listed s.2 s.1)
    (fun s op h => listed_step hV hread h op) hstart ops

/-- What one operation may do to the lists. -/
structure KeepsLists (fromSlice : Bytes → Option Json) (e : RatchetEngine V) : Prop where
  /-- A message changes the list of its sender only. -/
  resolved : ∀ order msg sender text, (e.decryptUnattributed order msg).1 = .ok (sender, text) →
    ∀ p, p ≠ sender → (e.decryptUnattributed order msg).2.list p = e.list p
  /-- A message that names a session which is held creates none, and removes none. -/
  named : ∀ order msg preKey, parse msg = .ok (.inl preKey) →
    (∃ s ∈ e.list (V.toBase64 (V.preKeyIdentityKey preKey)), V.sessionId s = V.preKeySessionId preKey) →
    ∀ p, (((e.decryptUnattributed order msg).2.list p).map V.sessionId).Perm ((e.list p).map V.sessionId)
  /-- A bundle adds a session where there is none. -/
  established : ∀ bundle d, e.list bundle.identityKey ≠ [] → (e.establishOutbound bundle d).2 = e
  apart : ∀ bundle d p, p ≠ bundle.identityKey → (e.establishOutbound bundle d).2.list p = e.list p
  /-- What is refused changes nothing. -/
  refused : ∀ order msg err, (e.decryptUnattributed order msg).1 = .error err →
    (∀ bytes, err ≠ .invalidUtf8 bytes) → ∀ p, (e.decryptUnattributed order msg).2.list p = e.list p
  /-- What is exported is imported. -/
  stored : ∃ e', importState fromSlice e.exportState = .ok e' ∧ ∀ p, e'.list p = e.list p

theorem text_ok {sender sender' t : String} {bytes : Bytes}
    (h : text sender bytes = .ok (sender', t)) :
    sender' = sender := by
  unfold text at h
  split at h
  · cases h
    rfl
  · cases h

theorem text_error {sender : String} {bytes : Bytes} {err : RatchetError}
    (h : text sender bytes = .error err) :
    err = .invalidUtf8 bytes := by
  unfold text at h
  split at h
  · cases h
  · cases h
    rfl

theorem Decrypted.resolved {olm : V.OlmMessage} {result : Except RatchetError (String × String)}
    {use : Option (String × String)} (hd : Decrypted e olm result e' use) {sender t : String}
    (hok : result = .ok (sender, t)) {p : String} (hp : p ≠ sender) : e'.list p = e.list p := by
  cases hd with
  | refused => cases hok
  | opened place opens names account lists =>
    obtain rfl := text_ok hok
    rw [lists, if_neg hp]
  | created starts fresh creates lists =>
    obtain rfl := text_ok hok
    rw [lists, if_neg hp]

theorem Decrypted.refuse {olm : V.OlmMessage} {result : Except RatchetError (String × String)}
    {use : Option (String × String)} (hd : Decrypted e olm result e' use) {err : RatchetError}
    (herr : result = .error err) (hknown : ∀ bytes, err ≠ .invalidUtf8 bytes) (p : String) :
    e'.list p = e.list p := by
  cases hd with
  | refused known same => exact same p
  | opened => exact absurd (text_error herr) (hknown _)
  | created => exact absurd (text_error herr) (hknown _)

theorem Decrypted.perm (hV : V.Lawful) {preKey : V.PreKeyMessage}
    {result : Except RatchetError (String × String)} {use : Option (String × String)}
    (hd : Decrypted e (.inl preKey) result e' use)
    (hheld : ∃ s ∈ e.list (V.toBase64 (V.preKeyIdentityKey preKey)), V.sessionId s = V.preKeySessionId preKey)
    (p : String) : ((e'.list p).map V.sessionId).Perm ((e.list p).map V.sessionId) := by
  cases hd with
  | refused known same => rw [same]
  | @opened sender idx s s' bytes e' place opens names account lists =>
    have hid : V.sessionId s' = V.sessionId s := by
      have hkeep := hV.decrypt_id s (.inl preKey)
      rwa [opens] at hkeep
    rw [lists]
    by_cases hp : p = sender
    · rw [if_pos hp, hp, Recent.map_promote, map_set_same place hid]
      exact Recent.promote_perm idx _
    · rw [if_neg hp]
  | created starts fresh creates lists =>
    cases starts
    obtain ⟨s, hs, hid⟩ := hheld
    exact absurd hid (fresh s hs)

theorem keepsLists (hV : V.Lawful) {fromSlice : Bytes → Option Json}
    (hread : ∀ j, fromSlice (toVec j) = some j) (e : RatchetEngine V) : KeepsLists fromSlice e where
  resolved := by
    intro order msg sender text hok p hp
    unfold decryptUnattributed at hok ⊢
    cases hparse : parse (V := V) msg with
    | error err => rfl
    | ok olm =>
      rw [hparse] at hok
      exact (decrypted hV order olm).resolved hok hp
  named := by
    intro order msg preKey hparse hheld p
    unfold decryptUnattributed
    rw [hparse]
    exact (decrypted_preKey hV preKey order).perm hV hheld p
  established := by
    intro bundle d hne
    unfold establishOutbound
    rw [if_pos ((hasSession_iff _).mpr hne)]
  apart := by
    intro bundle d p hp
    rcases establishOutbound_cases (e := e) bundle d with ⟨-, heq⟩ | ⟨s, _, _, -, -, -, heq⟩
    · rw [heq]
    · rw [heq, list_pushSession, if_neg hp]
  refused := by
    intro order msg err herr hknown p
    unfold decryptUnattributed at herr ⊢
    cases hparse : parse (V := V) msg with
    | error err => rfl
    | ok olm =>
      rw [hparse] at herr
      exact (decrypted hV order olm).refuse herr hknown p
  stored := by
    obtain ⟨e', himport, -, hsame⟩ := import_export hV hread e
    exact ⟨e', himport, hsame⟩

end RatchetEngine

/-- **The lists of an engine.** In every run each list is bounded, holds no id
twice, and stands by the last uses of its sessions; and from every state that is
reached the operations keep to what they may do. -/
theorem session_lists {V : Vodozemac} (hV : V.Lawful) {fromSlice : Bytes → Option Json}
    (hread : ∀ j, fromSlice (toVec j) = some j) (d : V.Draw) (ops : List (RatchetOp V)) :
    let s := Trace.run (RatchetEngine.logStep fromSlice) (RatchetEngine.new d, []) ops
    s.1 = Trace.run (RatchetEngine.step fromSlice) (.new d) ops ∧
    (∀ peer, (s.1.list peer).length ≤ maxSessionsPerPeer ∧ ((s.1.list peer).map V.sessionId).Nodup ∧
      Recent.Ordered s.2 ((s.1.list peer).map fun session => (peer, V.sessionId session))) ∧
    s.1.KeepsLists fromSlice := by
  intro s
  have hlisted := RatchetEngine.listed_run hV hread d ops
  refine ⟨?_, fun peer => ⟨hlisted.bounded peer, hlisted.distinct peer, hlisted.ordered peer⟩, ?_⟩
  · exact RatchetEngine.run_logStep fromSlice ops _
  · exact RatchetEngine.keepsLists hV hread s.1

/-! ### A library to run with -/

/-- A handshake: who starts it, with which key of the other side, and what they drew. -/
structure SampleHandshake where
  identityKey : Char
  oneTimeKey : Char
  baseKey : ℕ
deriving DecidableEq, Repr

def SampleHandshake.id (k : SampleHandshake) : String :=
  String.ofList (k.identityKey :: k.oneTimeKey :: Nat.toDigits 10 k.baseKey)

structure SampleMessage where
  handshake : SampleHandshake
  toInitiator : Bool
  index : ℕ
  plaintext : Bytes
deriving DecidableEq, Repr

/-- A message with the handshake sent along, which is in the message here. -/
structure SamplePreKey where
  inner : SampleMessage
deriving DecidableEq, Repr

def innerOf : SamplePreKey ⊕ SampleMessage → SampleMessage
  | .inl preKey => preKey.inner
  | .inr m => m

structure SampleAccount where
  key : Char
  oneTime : List Char := []
  fallback : Option Char := none
  previous : Option Char := none
deriving DecidableEq, Repr

/-- `spent` has the indices of the messages that were opened. -/
structure SampleSession where
  handshake : SampleHandshake
  initiator : Bool
  sent : ℕ := 0
  spent : List ℕ := []
deriving DecidableEq, Repr

/-- A one-time key is used up, and a fallback key stays until the second one after it. -/
def SampleAccount.open (a : SampleAccount) (preKey : SamplePreKey) :
    Except String (SampleSession × Bytes) × SampleAccount :=
  let m := preKey.inner
  let session : SampleSession := { handshake := m.handshake, initiator := false, spent := [m.index] }
  if m.toInitiator then (.error "not for the other side", a)
  else if m.handshake.oneTimeKey ∈ a.oneTime then
    (.ok (session, m.plaintext), { a with oneTime := a.oneTime.erase m.handshake.oneTimeKey })
  else if a.fallback = some m.handshake.oneTimeKey ∨ a.previous = some m.handshake.oneTimeKey then
    (.ok (session, m.plaintext), a)
  else (.error "missing one-time key", a)

/-- A message opens in the session of its handshake, at the side that it is for, and once. -/
def SampleSession.open (s : SampleSession) (m : SampleMessage) :
    Except String Bytes × SampleSession :=
  if s.handshake = m.handshake ∧ s.initiator = m.toInitiator ∧ m.index ∉ s.spent then
    (.ok m.plaintext, { s with spent := m.index :: s.spent })
  else (.error "missing message key", s)

/-- Until there is an answer, the handshake is sent along. -/
def SampleSession.seal (s : SampleSession) (plaintext : String) : SamplePreKey ⊕ SampleMessage :=
  let m : SampleMessage := ⟨s.handshake, !s.initiator, s.sent, utf8 plaintext⟩
  if s.initiator ∧ s.spent = [] then .inl ⟨m⟩ else .inr m

def sampleParts (olm : SamplePreKey ⊕ SampleMessage) : ℕ × Bytes :=
  let m := innerOf olm
  (if olm.isLeft then 0 else 1, [m.handshake.identityKey.toUInt8, m.handshake.oneTimeKey.toUInt8,
    m.handshake.baseKey.toUInt8, if m.toInitiator then 1 else 0, m.index.toUInt8] ++ m.plaintext)

def sampleOfParts (messageType : ℕ) : Bytes → Except String (SamplePreKey ⊕ SampleMessage)
  | i :: o :: b :: t :: n :: plaintext =>
    let m : SampleMessage := ⟨⟨Char.ofUInt8 i, Char.ofUInt8 o, b.toNat⟩, t = 1, n.toNat, plaintext⟩
    match messageType with
    | 0 => .ok (.inl ⟨m⟩)
    | 1 => .ok (.inr m)
    | _ => .error "unknown message type"
  | _ => .error "message too short"

def ofChars (cs : List Char) : Json := .arr (cs.map fun c => .num c.toNat)

def toChars (j : Json) : Option (List Char) := do
  let codes ← Json.readAll Json.asNat (← j.asArr)
  some (codes.map Char.ofNat)

def SampleAccount.toJson (a : SampleAccount) : Json :=
  .obj [("key", .num a.key.toNat), ("one_time", ofChars a.oneTime), ("fallback", ofChars a.fallback.toList),
    ("previous", ofChars a.previous.toList)]

def SampleAccount.ofJson (j : Json) : Option SampleAccount := do
  let key ← (← j.field "key").asNat
  let oneTime ← toChars (← j.field "one_time")
  let fallback ← toChars (← j.field "fallback")
  let previous ← toChars (← j.field "previous")
  some { key := Char.ofNat key, oneTime, fallback := fallback.head?, previous := previous.head? }

def SampleSession.toJson (s : SampleSession) : Json :=
  .obj [("identity_key", .num s.handshake.identityKey.toNat), ("one_time_key", .num s.handshake.oneTimeKey.toNat),
    ("base_key", .num s.handshake.baseKey), ("initiator", .bool s.initiator), ("sent", .num s.sent),
    ("spent", .arr (s.spent.map .num))]

def SampleSession.ofJson (j : Json) : Option SampleSession := do
  let identityKey ← (← j.field "identity_key").asNat
  let oneTimeKey ← (← j.field "one_time_key").asNat
  let baseKey ← (← j.field "base_key").asNat
  let initiator ← (← j.field "initiator").asBool
  let sent ← (← j.field "sent").asNat
  let spent ← Json.readAll Json.asNat (← (← j.field "spent").asArr)
  some { handshake := ⟨Char.ofNat identityKey, Char.ofNat oneTimeKey, baseKey⟩, initiator, sent, spent }

theorem toChars_ofChars (cs : List Char) : toChars (ofChars cs) = some cs := by
  have hread : Json.readAll Json.asNat ((cs.map Char.toNat).map .num) = some (cs.map Char.toNat) :=
    Json.readAll_map Json.asNat_num _
  have hback : (cs.map Char.toNat).map Char.ofNat = cs := by simp [Function.comp_def]
  rw [List.map_map] at hread
  unfold toChars ofChars
  rw [Json.asArr_arr, Option.bind_eq_bind, Option.bind_some]
  exact (congrArg (·.bind fun codes => some (codes.map Char.ofNat)) hread).trans
    (congrArg some hback)

theorem SampleAccount.ofJson_toJson (a : SampleAccount) : ofJson a.toJson = some a := by
  simp [ofJson, toJson, Json.field, Json.optField, toChars_ofChars]

theorem SampleSession.ofJson_toJson (s : SampleSession) : ofJson s.toJson = some s := by
  have hspent := Json.readAll_map Json.asNat_num s.spent
  simp [ofJson, toJson, Json.field, Json.optField, hspent]

/-- A toy of the library: keys are letters, and nothing is hidden. -/
def sampleOlm : Vodozemac where
  Account := SampleAccount
  Session := SampleSession
  Curve25519PublicKey := Char
  PreKeyMessage := SamplePreKey
  Message := SampleMessage
  Draw := ℕ
  newAccount d := { key := Char.ofNat d }
  curve25519Key a := a.key
  ed25519Key a := String.ofList ['e', a.key]
  generateOneTimeKeys a count d :=
    let keys := (List.range count).map fun i => Char.ofNat (d + i)
    (keys, { a with oneTime := a.oneTime ++ keys })
  markKeysAsPublished a := a
  generateFallbackKey a d := { a with previous := a.fallback, fallback := some (Char.ofNat d) }
  fallbackKey a := a.fallback.toList
  createOutboundSession a _ oneTimeKey d := .ok { handshake := ⟨a.key, oneTimeKey, d⟩, initiator := true }
  createInboundSession a _ preKey := a.open preKey
  sessionId s := s.handshake.id
  encrypt s plaintext _ := (.ok (s.seal plaintext), { s with sent := s.sent + 1 })
  decrypt s olm := s.open (innerOf olm)
  preKeyIdentityKey m := m.inner.handshake.identityKey
  preKeySessionId m := m.inner.handshake.id
  toBase64 c := String.ofList [c]
  fromBase64 s :=
    match s.toList with
    | [c] => .ok c
    | _ => .error "invalid length"
  base64Encode bytes := (fromUtf8 bytes).getD ""
  base64Decode s := .ok (utf8 s)
  toParts := sampleParts
  fromParts := sampleOfParts
  AccountPickle := SampleAccount
  SessionPickle := SampleSession
  pickleAccount a := a
  accountFromPickle a := a
  pickleSession s := s
  sessionFromPickle s := s
  accountToJson := SampleAccount.toJson
  accountOfJson := SampleAccount.ofJson
  sessionToJson := SampleSession.toJson
  sessionOfJson := SampleSession.ofJson

theorem SampleSession.open_cases (s : SampleSession) (m : SampleMessage) :
    (∃ t, s.open m = (.error t, s)) ∨
    (s.handshake = m.handshake ∧ s.initiator = m.toInitiator ∧ m.index ∉ s.spent ∧
      s.open m = (.ok m.plaintext, { s with spent := m.index :: s.spent })) := by
  unfold SampleSession.open
  split
  · rename_i h
    exact Or.inr ⟨h.1, h.2.1, h.2.2, rfl⟩
  · exact Or.inl ⟨_, rfl⟩

theorem SampleSession.open_handshake (s : SampleSession) (m : SampleMessage) :
    (s.open m).2.handshake = s.handshake := by
  rcases s.open_cases m with ⟨t, h⟩ | ⟨-, -, -, h⟩ <;> rw [h]

theorem SampleSession.open_initiator (s : SampleSession) (m : SampleMessage) :
    (s.open m).2.initiator = s.initiator := by
  rcases s.open_cases m with ⟨t, h⟩ | ⟨-, -, -, h⟩ <;> rw [h]

theorem SampleAccount.open_ok {a a' : SampleAccount} {preKey : SamplePreKey} {s : SampleSession}
    {bytes : Bytes} (h : a.open preKey = (.ok (s, bytes), a')) : preKey.inner.toInitiator = false ∧
      s = { handshake := preKey.inner.handshake, initiator := false, spent := [preKey.inner.index] } := by
  unfold SampleAccount.open at h
  dsimp only at h
  by_cases hto : preKey.inner.toInitiator = true
  · rw [if_pos hto] at h
    cases h
  · refine ⟨by simpa using hto, ?_⟩
    rw [if_neg hto] at h
    split at h
    · cases h
      rfl
    · split at h
      · cases h
        rfl
      · cases h

theorem sampleOlm_lawful : sampleOlm.Lawful where
  failed := by
    intro s olm t herr
    have herror : (SampleSession.open s (innerOf olm)).1 = .error t := herr
    rcases SampleSession.open_cases s (innerOf olm) with ⟨t', h⟩ | ⟨-, -, -, h⟩
    · exact congrArg Prod.snd h
    · rw [h] at herror
      cases herror
  decrypt_id s olm := congrArg SampleHandshake.id (SampleSession.open_handshake s (innerOf olm))
  encrypt_id _ _ _ := rfl
  inbound_id := by
    intro a key preKey s bytes hok
    obtain ⟨-, hs⟩ := SampleAccount.open_ok (Prod.ext hok rfl : a.open preKey = (.ok (s, bytes), (a.open preKey).2))
    rw [hs]
    rfl
  account_pickle _ := rfl
  session_pickle _ := rfl
  account_json := SampleAccount.ofJson_toJson
  session_json := SampleSession.ofJson_toJson

def ciphertextOf (m : SamplePreKey ⊕ SampleMessage) : CiphertextMessage where
  messageType := (sampleParts m).1
  body := sampleOlm.base64Encode (sampleParts m).2

/-- The first message of A, who draws a number and uses the key. -/
def helloOfA (oneTimeKey : Char) (baseKey : ℕ) : CiphertextMessage :=
  ciphertextOf (.inl ⟨⟨⟨'A', oneTimeKey, baseKey⟩, false, 0, utf8 "hi"⟩⟩)

/-- B publishes a fallback key, on which A starts two sessions, and says one thing in the first
of them after that. -/
def opsOfB : List (RatchetOp sampleOlm) :=
  [.generateFallbackKey (102 : ℕ), .decryptUnattributed [] (helloOfA 'f' 1), .decryptUnattributed [] (helloOfA 'f' 2),
    .establishOutbound { identityKey := "A", signingKey := "eA", oneTimeKey := "o" } (7 : ℕ),
    .decryptUnattributed ["A"] (ciphertextOf (.inr ⟨⟨'A', 'f', 1⟩, false, 1, utf8 "still here?"⟩))]

def engineOfB : RatchetEngine sampleOlm :=
  Trace.run (RatchetEngine.step readVec) (.new (66 : ℕ)) opsOfB

theorem session_lists_two : (engineOfB.list "A").map sampleOlm.sessionId = ["Af1", "Af2"] ∧
    ((engineOfB.list "A").map sampleOlm.sessionId).Nodup ∧
    (engineOfB.list "A").length ≤ maxSessionsPerPeer ∧
    engineOfB.KeepsLists readVec := by
  have hlists := session_lists sampleOlm_lawful readVec_toVec (66 : ℕ) opsOfB
  obtain ⟨hrun, hlist, hkeeps⟩ := hlists
  rw [hrun] at hlist hkeeps
  exact ⟨by decide +kernel, (hlist "A").2.1, (hlist "A").1, hkeeps⟩

end Sona
