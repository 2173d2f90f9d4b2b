/-
# A mailbox is drained

What the relay keeps for a device, and the device that reads it: a socket
subscribes and is flushed, its client decodes the frames and acknowledges them
(`readFrames`). The relay goes on in the meantime, with whatever else it is asked.

One event adds to a queue the message that it sends, and nothing else (`QueueStep`);
a message that is acknowledged on an open socket leaves (`ack_step`). So whatever the
frames say, and whether the client can decrypt them or not, what is left in the
mailbox once they are acknowledged was sent since (`mailbox_drains`).

Key definitions: `QueueStep`. Key theorems: `queueStep`, `left_after`, `mailbox_drains`.
-/
import Sona.Durable
import Sona.Frames
import Sona.Rotation
import Sona.Sockets

namespace Sona

/-! ### What is in a mailbox -/

/-- What an event can do to the queues: the one it sends joins them, and some leave. -/
inductive QueueStep (st : MessageStore) : Event → MessageStore → Prop
  | shrink {e : Event} {st' : MessageStore}
      (sub : ∀ m, st'.entries m ⊆ st.entries m) : QueueStep st e st'
  | send {client : Option String} {env : Envelope} {now : ℕ} :
      QueueStep st (.send client env now) (st.enqueue (env.clamped now) now).2

theorem QueueStep.same {st st' : MessageStore} {e : Event} (h : st' = st) : QueueStep st e st' :=
  .shrink fun _ => h ▸ List.Subset.refl _

theorem entries_purgeAll (m : String) : ∀ (mbs : List String) (st : MessageStore),
    (mbs.foldl MessageStore.purge st).entries m ⊆ st.entries m
  | [], _ => List.Subset.refl _
  | mb :: mbs, st => by
    have hpurged : (st.purge mb).entries m ⊆ st.entries m := by
      rw [MessageStore.entries_purge]
      split
      · exact List.nil_subset _
      · exact List.Subset.refl _
    exact List.Subset.trans (entries_purgeAll m mbs (st.purge mb)) hpurged

theorem queueStep_subscribe (s : Sys) (channel : ChannelId) (now : ℕ) :
    QueueStep s.inner.store (.subscribe channel now) (subscribeSocket s channel now).inner.store := by
  unfold subscribeSocket
  split
  · exact .same rfl
  split
  · exact .same rfl
  split
  · exact .same rfl
  · unfold subscribe
    dsimp only
    split
    · exact .same rfl
    · refine .shrink fun m => ?_
      dsimp only
      rw [MessageStore.entries_fetch]
      split
      · exact (unexpired_sublist now _).subset
      · exact List.Subset.refl _

theorem queueStep_ack (s : Sys) (channel : ChannelId) (msgId : String) :
    QueueStep s.inner.store (.ack channel msgId) (ackSocket s channel msgId).inner.store := by
  unfold ackSocket
  split
  · exact .same rfl
  split
  · exact .same rfl
  split
  · unfold ackMessage
    dsimp only
    split
    · exact .same rfl
    · rename_i recipient hx
      refine .shrink fun m => ?_
      change (s.inner.store.ack recipient msgId).entries m ⊆ _
      rw [MessageStore.entries_ack]
      split
      · exact List.filter_subset_self _
      · exact List.Subset.refl _
  · exact .same rfl

theorem queueStep_auth (R : Relay) (s : Sys) (channel : ChannelId) (frame : AuthFrame) (now : ℕ) :
    QueueStep s.inner.store (.auth channel frame now) (authSocket R s channel frame now).inner.store := by
  have hc := (authenticate_cases R s.inner frame now).1
  unfold authSocket
  split
  · exact .same rfl
  split
  · exact .same rfl
  split
  · rename_i heq
    rw [heq] at hc
    exact .same (store_of_core hc rfl)
  · rename_i heq
    rw [heq] at hc
    exact .same ((hangUp_store _ _ _ _).trans (store_of_core hc rfl))

theorem queueStep (R : Relay) (s : Sys) (e : Event) :
    QueueStep s.inner.store e (sysStep R s e).inner.store := by
  cases e with
  | register client invite req now =>
    obtain ⟨hc, -⟩ | ⟨i, kt, -, -, hc⟩ :=
      register_core (R := R) (s := s.inner) client invite req now
    · exact .same (store_of_core hc rfl)
    · refine .same (store_of_core hc ?_)
      split <;> rfl
  | publishRoster client roster now =>
    obtain ⟨hc, -⟩ | ⟨i, kt, -, -, -, hc⟩ :=
      publishRoster_core (R := R) (s := s.inner) client roster now
    · exact .same (store_of_core hc rfl)
    · exact .same (store_of_core hc rfl)
  | deleteAccount client req now =>
    obtain hc | ⟨account, -, -, hc⟩ := deleteAccount_core (R := R) (s := s.inner) client req now
    · exact .same (store_of_core hc rfl)
    · refine .shrink fun m => ?_
      change (deleteAccount R s.inner client req now).2.1.core.store.entries m ⊆ _
      rw [hc, Core.dropMailboxes_store]
      exact entries_purgeAll m _ _
  | send client env now =>
    obtain ⟨store, push, hcore, hstore, -⟩ :=
      sendMessage_core (R := R) (s := s.inner) client env now
    have hst : (sysStep R s (.send client env now)).inner.store = store := congrArg Core.store hcore
    rw [hst]
    rcases hstore with rfl | rfl
    · exact .same rfl
    · exact .send
  | push i =>
    refine .same ?_
    change (pushSys s i).inner.store = _
    unfold pushSys
    split <;> rfl
  | connect client party =>
    refine .same ?_
    change (connectSys R s client party).inner.store = _
    have hc := core_claimSlot R s.inner client
    unfold connectSys
    split
    · rename_i heq
      rw [heq] at hc
      exact store_of_core hc rfl
    · rename_i heq
      rw [heq] at hc
      exact store_of_core hc rfl
  | auth channel frame now => exact queueStep_auth R s channel frame now
  | subscribe channel now => exact queueStep_subscribe s channel now
  | ack channel msgId => exact queueStep_ack s channel msgId
  | close channel =>
    refine .same ?_
    dsimp only [sysStep]
    split
    · rfl
    · exact hangUp_store _ _ _ _
  | reap now =>
    refine .shrink fun m => ?_
    change (s.inner.store.prune now).entries m ⊆ _
    rw [MessageStore.entries_prune]
    exact (unexpired_sublist now _).subset
  | _ =>
    refine .same (Undelivered.store ?_)
    exact recordsOnly_undelivered R s trivial

/-- What is in a mailbox after an event was there before, or the event sent it. -/
theorem QueueStep.entries {st st' : MessageStore} {e : Event} (h : QueueStep st e st') {m : String}
    {env : Envelope} (henv : env ∈ st'.entries m) :
    env ∈ st.entries m ∨ ∃ client env' t, e = .send client env' t ∧ env = env'.clamped t := by
  cases h with
  | shrink sub => exact Or.inl (sub m henv)
  | @send client env' now =>
    obtain ⟨heq, -, -⟩ | ⟨gone, kept, hsplit, heq, -⟩ := st.enqueue_cases (env'.clamped now) now
    · rw [heq] at henv
      exact Or.inl henv
    · rw [heq, MessageStore.entries_set] at henv
      split at henv
      · rename_i hm
        rcases List.mem_append.mp henv with hkept | hnew
        · have hmem : env ∈ unexpired now (st.entries (env'.clamped now).recipient.asStr) :=
            hsplit ▸ List.mem_append_right _ hkept
          exact Or.inl (hm ▸ (unexpired_sublist now _).subset hmem)
        · rw [List.mem_singleton.mp hnew, Envelope.clamped_clamped]
          exact Or.inr ⟨client, env', now, rfl, rfl⟩
      · exact Or.inl henv

/-- The times of what is queued are values of their type. -/
theorem entries_typed (R : Relay) (db : Option Db) (es : List Event) :
    ∀ m, ∀ env ∈ (after R db es).inner.store.entries m, ∀ t ∈ env.expiresAt, t ≤ u64Max := by
  refine Trace.run_inv (I := fun s : Sys => ∀ m, ∀ env ∈ s.inner.store.entries m, ∀ t ∈ env.expiresAt, t ≤ u64Max)
    (fun s e h m env henv t ht => ?_) (fun m env h => by simp [start, MessageStore.entries] at h) es
  rcases (queueStep R s e).entries henv with hold | ⟨client, env', now, -, rfl⟩
  · exact h m env hold t ht
  · cases ht
    exact clampExpiry_typed now _

/-! ### A mailbox is drained -/

theorem ack_step (R : Relay) {s : Sys} {n : ChannelId} {sock : Socket} {hash key msgId : String}
    {recipient : IdentityHash} (hsock : s.sockets.get n = some sock)
    (hauth : sock.auth = some (hash, key)) (hsub : sock.subscribed = true)
    (hhash : IdentityHash.fromHex hash = some recipient) :
    (sysStep R s (.ack n msgId)).inner.store.entries recipient.asStr =
      (s.inner.store.entries recipient.asStr).filter fun env => env.msgId ≠ msgId := by
  have hstep : sysStep R s (.ack n msgId) = { s with inner := ackMessage s.inner hash msgId } := by
    change ackSocket s n msgId = _
    unfold ackSocket
    rw [hsock]
    dsimp only
    rw [hauth]
    dsimp only
    rw [if_pos hsub]
  have hack : (ackMessage s.inner hash msgId).store = s.inner.store.ack recipient msgId := by
    unfold ackMessage
    rw [hhash]
    rfl
  rw [hstep]
  dsimp only
  rw [hack, MessageStore.entries_ack, if_pos rfl]

/-- While a socket serves a mailbox, what is left in it was sent since, or was
there and is not acknowledged. -/
theorem left_after (R : Relay) {n : ChannelId} {hash : String} {recipient : IdentityHash}
    (hhash : IdentityHash.fromHex hash = some recipient) {env : Envelope} :
    ∀ (fs : List Event) {s : Sys}, s.Serving n hash →
    ((Trace.run (sysStep R) s fs).sockets.get n).isSome →
      env ∈ (Trace.run (sysStep R) s fs).inner.store.entries recipient.asStr →
      (∃ client env' t, .send client env' t ∈ fs ∧ env = env'.clamped t) ∨
        env ∈ s.inner.store.entries recipient.asStr ∧ .ack n env.msgId ∉ fs
  | [], _, _, _, henv => Or.inr ⟨henv, List.not_mem_nil⟩
  | e :: fs, s, hserving, hopen, henv => by
    have hsock : ∃ sock, s.sockets.get n = some sock := by
      cases hs : s.sockets.get n with
      | some sock => exact ⟨sock, rfl⟩
      | none =>
        rw [closed_run (e :: fs) hserving.1 hs] at hopen
        cases hopen
    rcases left_after R hhash fs (hserving.step (socketStep R s e)) hopen henv with ⟨client, env', t, hmem, heq⟩ |
      ⟨hkept, hnot⟩
    · exact Or.inl ⟨client, env', t, List.mem_cons_of_mem e hmem, heq⟩
    · rcases (queueStep R s e).entries hkept with hold | ⟨client, env', t, rfl, heq⟩
      · refine Or.inr ⟨hold, fun hmem => ?_⟩
        rcases List.mem_cons.mp hmem with rfl | hlater
        · obtain ⟨sock, hs⟩ := hsock
          obtain ⟨hsub, key, hauth⟩ := hserving.2 sock hs
          rw [ack_step R hs hauth hsub hhash] at hkept
          simpa using (List.mem_filter.mp hkept).2
        · exact hnot hlater
      · exact Or.inl ⟨client, env', t, List.mem_cons_self, heq⟩

section drains

variable {J : SerdeJson} (hJ : J.Reads) {V : Vodozemac}
include hJ

/-- Of message frames and the mark behind them, the ids of the messages are acknowledged. -/
theorem readFrames_ids (order : RatchetEngine V → List String) :
    ∀ (envs : List Envelope) (account : RatchetEngine V),
    (∀ env ∈ envs, env.Typed) → ∃ account',
      readFrames J order ((envs.map ServerFrame.message ++ [ServerFrame.ready]).map ServerFrame.text) account =
        .ok (envs.map (·.msgId), account')
  | [], account, _ => by
    refine ⟨account, ?_⟩
    have hready : decodeFrame J (order account) ServerFrame.ready.text account =
        .ok (.ready, account) := by
      have htype : (valueAt "type" ServerFrame.ready.toJson.sorted).asStr = some "ready" := by
        unfold valueAt ServerFrame.toJson Json.field
        rw [Json.optField_sorted, Json.optField_obj]
        simp [Json.sorted]
      unfold decodeFrame
      rw [hJ.frame .ready fun _ h => by cases h]
      dsimp only
      rw [htype]
      rfl
    simp only [List.map_nil, List.nil_append, List.map_cons, readFrames, hready, Checked.ok_bind]
    rfl
  | env :: envs, account, h => by
    obtain ⟨decoded, account', hdecode, hack⟩ :=
      decodeFrame_ack hJ (h env List.mem_cons_self) (order account) account
    obtain ⟨account'', hrest⟩ := readFrames_ids order envs account'
      fun e he => h e (List.mem_cons_of_mem env he)
    refine ⟨account'', ?_⟩
    simp only [List.map_cons, List.cons_append, readFrames, hdecode, Checked.ok_bind, hrest]
    rw [hack]
    rfl

/-- **A client that acknowledges what it reads drains its mailbox.** A socket subscribes and is
flushed; the client decodes the frames, whatever is in them, and acknowledges them. Whatever else
happens, as long as the socket is open what is left was sent since. -/
theorem mailbox_drains (R : Relay) (db : Option Db) (es : List Event) {n : ChannelId}
    {sock : Socket} {hash key : String} {recipient : IdentityHash}
    (hsock : (after R db es).sockets.get n = some sock) (hauth : sock.auth = some (hash, key))
    (hfirst : sock.subscribed = false) (hhash : IdentityHash.fromHex hash = some recipient)
    (now : ℕ) (order : RatchetEngine V → List String) (account : RatchetEngine V) :
    ∃ frames account' ids, ((after R db (es ++ [.subscribe n now])).sockets.get n).map (·.frames) =
        some (sock.frames ++ frames) ∧
      readFrames J order (frames.map ServerFrame.text) account = .ok (ids, account') ∧
      ∀ fs, (∀ id ∈ ids, .ack n id ∈ fs) →
      ((after R db (es ++ .subscribe n now :: fs)).sockets.get n).isSome →
        ∀ env ∈ (after R db (es ++ .subscribe n now :: fs)).inner.store.entries recipient.asStr,
          ∃ client env' t, .send client env' t ∈ fs ∧ env = env'.clamped t := by
  have hflushed : flushed (after R db es).inner.store hash now =
      unexpired now ((after R db es).inner.store.entries recipient.asStr) := by
    unfold flushed
    rw [hhash]
  have hstate : after R db (es ++ [.subscribe n now]) = subscribeSocket (after R db es) n now :=
    after_snoc R db es _
  have hsubscribed : (subscribeSocket (after R db es) n now).sockets.get n = some { sock with
      subscribed := true
      frames := sock.frames ++ (flushed (after R db es).inner.store hash now).map .message ++ [.ready] } := by
    unfold subscribeSocket
    rw [hsock]
    dsimp only
    rw [hauth]
    dsimp only
    rw [if_neg (by simp [hfirst]), Table.get_set, if_pos rfl, subscribe_fst]
  have htyped : ∀ env ∈ flushed (after R db es).inner.store hash now, env.Typed := by
    intro env henv
    rw [hflushed] at henv
    have hmem := (unexpired_sublist now _).subset henv
    refine ⟨?_, entries_typed R db es _ env hmem⟩
    rw [filed_after R db es _ env hmem]
    exact IdentityHash.canonical_of_fromHex hhash
  obtain ⟨account', hread⟩ := readFrames_ids hJ order _ account htyped
  refine ⟨_, account', _, ?_, hread, ?_⟩
  · rw [hstate, hsubscribed, Option.map_some, List.append_assoc]
  intro fs hacked hopen env henv
  have hrun : after R db (es ++ .subscribe n now :: fs) = Trace.run (sysStep R)
      (after R db (es ++ [.subscribe n now])) fs := by
    rw [← after_append, List.append_assoc]
    rfl
  rw [hrun] at hopen henv
  have hserving : (after R db (es ++ [.subscribe n now])).Serving n hash := by
    refine ⟨(wired_after R db _).given n _ (hstate ▸ hsubscribed), fun sock' hs' => ?_⟩
    rw [hstate, hsubscribed] at hs'
    cases hs'
    exact ⟨rfl, key, hauth⟩
  rcases left_after R hhash fs hserving hopen henv with hsent | ⟨hold, hnot⟩
  · exact hsent
  · have hkept : env ∈ flushed (after R db es).inner.store hash now := by
      rw [hflushed]
      rw [hstate] at hold
      have hfetched : (subscribeSocket (after R db es) n now).inner.store.entries recipient.asStr =
          unexpired now ((after R db es).inner.store.entries recipient.asStr) := by
        unfold subscribeSocket
        rw [hsock]
        dsimp only
        rw [hauth]
        dsimp only
        rw [if_neg (by simp [hfirst])]
        unfold subscribe
        rw [hhash]
        exact (MessageStore.entries_fetch _ recipient now _).trans (if_pos rfl)
      rwa [hfetched] at hold
    exact absurd (hacked env.msgId (List.mem_map_of_mem hkept)) hnot

end drains

/-- The account is registered and sent a message, and its socket proves its key. -/
def bobProves : List Event :=
  [bobRegisters, .send (some "10.0.0.9") (mailTo bobHash "hello" "m1" none) 1010,
    .challenge (some "10.0.0.1") bobHash sampleNonce 1020, .connect "10.0.0.1" 0, .auth 0 bobAuth 1021]

/-- The client of the account cannot decrypt the message, and the mailbox is drained. -/
theorem mailbox_drains_bob :
    ∃ sock, (after (sampleRelay bobSigned) none bobProves).sockets.get 0 = some sock ∧
    ∃ frames account' ids, ((after (sampleRelay bobSigned) none (bobProves ++ [.subscribe 0 1021])).sockets.get 0).map
      (·.frames) =
        some (sock.frames ++ frames) ∧
      readFrames compactSerde (fun _ => []) (frames.map ServerFrame.text) waitingB =
        .ok (ids, account') ∧
      ∀ fs, (∀ id ∈ ids, .ack 0 id ∈ fs) →
        ((after (sampleRelay bobSigned) none (bobProves ++ .subscribe 0 1021 :: fs)).sockets.get 0).isSome →
        ∀ env ∈ (after (sampleRelay bobSigned) none (bobProves ++ .subscribe 0 1021 :: fs)).inner.store.entries bobHash,
          ∃ client env' t, .send client env' t ∈ fs ∧ env = env'.clamped t := by
  have hproved : ((after (sampleRelay bobSigned) none bobProves).sockets.get 0).map
      (fun sock => (sock.auth, sock.subscribed)) =
      some (some (bobHash, bobKey), false) := by decide +kernel
  cases hs : (after (sampleRelay bobSigned) none bobProves).sockets.get 0 with
  | none => rw [hs] at hproved; cases hproved
  | some sock =>
    rw [hs] at hproved
    obtain ⟨hauth, hfirst⟩ := Prod.mk.inj (Option.some.inj hproved)
    exact ⟨sock, rfl, mailbox_drains compactSerde_reads
      (sampleRelay bobSigned) none bobProves hs hauth hfirst bobHash_reads 1021
      (fun _ => []) waitingB⟩

end Sona
