/-
# Delivery sockets over a run

What an event can do to the sockets, the live channels and the pushes in
flight, said once (`socketStep`), and what every run keeps: a channel that is
live for a mailbox, or that a message is on its way to, belongs to a socket
that authenticated for that mailbox, as long as the socket is open (`Wired`).
None of it depends on who may speak for a mailbox; that is `Sona.Isolation`.

Key definitions: `Core.liveOn`, `flushed`, `SocketStep`, `Wired`.
Key theorems: `socketStep`, `get_transmitAll`, `Wired.step`, `wired_after`.
-/
import Sona.Lib.Table
import Sona.Lib.Trace
import Sona.Store
import Sona.Handlers
import Sona.Run

namespace Sona

/-! ### Live channels -/

/-- No channel is live in `c'` that was not in `c`. -/
def Core.NoNewLive (c c' : Core) : Prop := ∀ m, c'.liveOn m ⊆ c.liveOn m

theorem Core.NoNewLive.of_eq {c c' : Core} (h : c'.live = c.live) : c.NoNewLive c' := by
  intro m
  unfold Core.liveOn
  rw [h]
  exact List.Subset.refl _

theorem Core.NoNewLive.of_core {c c' d : Core} (h : c' = d) (hl : d.live = c.live) :
    c.NoNewLive c' :=
  .of_eq (h ▸ hl)

theorem Core.noNewLive_removeAll {c c' : Core} (mbs : List String)
    (h : c'.live = c.live.removeAll mbs) :
    c.NoNewLive c' := by
  intro m
  unfold Core.liveOn
  rw [h, Table.get_removeAll]
  split
  · exact List.nil_subset _
  · exact List.Subset.refl _

theorem Core.noNewLive_takeMailbox (c : Core) (hash : String) (entry : DirectoryEntry) :
    c.NoNewLive (c.takeMailbox hash entry) := by
  unfold Core.takeMailbox
  cases c.directory.get hash with
  | none => exact .of_eq rfl
  | some prev =>
    dsimp only
    split
    · exact Core.noNewLive_removeAll [hash] rfl
    · exact .of_eq rfl

theorem unsubscribe_noNewLive (s : Inner) (hash : String) (channel : ChannelId) :
    s.core.NoNewLive (unsubscribe s hash channel).core := by
  unfold unsubscribe
  cases hl : s.live.get hash with
  | none => exact .of_eq rfl
  | some senders =>
    dsimp only
    split
    · exact Core.noNewLive_removeAll [hash] rfl
    · intro m
      change ((s.live.set hash _).get m).getD [] ⊆ (s.live.get m).getD []
      rw [Table.get_set]
      split
      · rename_i hm
        rw [hm, hl]
        exact List.filter_subset_self _
      · exact List.Subset.refl _

theorem hangUp_noNewLive (s : Sys) (channel : ChannelId) (sock : Socket) (inner : Inner) :
    inner.core.NoNewLive (hangUp s channel sock inner).inner.core := by
  unfold hangUp
  cases sock.auth with
  | none =>
    dsimp only
    rw [core_releaseSlot]
    exact .of_eq rfl
  | some p =>
    dsimp only
    rw [core_releaseSlot]
    exact unsubscribe_noNewLive inner p.1 channel

/-- What a subscription to `hash` flushes. -/
def flushed (st : MessageStore) (hash : String) (now : ℕ) : List Envelope :=
  match IdentityHash.fromHex hash with
  | none => []
  | some recipient => unexpired now (st.entries recipient.asStr)

theorem subscribe_fst (s : Inner) (hash : String) (channel : ChannelId) (now : ℕ) :
    (subscribe s hash channel now).1 = flushed s.store hash now := by
  unfold subscribe flushed
  cases IdentityHash.fromHex hash with
  | none => rfl
  | some recipient => exact MessageStore.fetch_fst s.store recipient now

theorem liveOn_subscribe (s : Inner) (hash : String) (channel : ChannelId) (now : ℕ) (m : String) :
    (subscribe s hash channel now).2.core.liveOn m =
      if m = hash then s.core.liveOn hash ++ [channel] else s.core.liveOn m := by
  have hlive : (subscribe s hash channel now).2.live =
      s.live.set hash (s.core.liveOn hash ++ [channel]) := by
    unfold subscribe
    dsimp only
    split <;> rfl
  change ((subscribe s hash channel now).2.live.get m).getD [] = _
  rw [hlive, Table.get_set]
  split <;> rfl

/-! ### Frames -/

/-- A frame reaches the socket of its channel and no other. -/
theorem get_transmit (sockets : Table ChannelId Socket) (p : ChannelId × ServerFrame)
    (n : ChannelId) :
    (transmit sockets p).get n =
      (sockets.get n).map fun sock => { sock with frames := sock.frames ++ if p.1 = n then [p.2] else [] } := by
  unfold transmit
  cases hp : sockets.get p.1 with
  | none =>
    by_cases h : p.1 = n
    · subst h; simp [hp]
    · simp [h]
  | some sock =>
    dsimp only
    rw [Table.get_set]
    by_cases h : p.1 = n
    · subst h; simp [hp]
    · simp [h, Ne.symm h]

theorem get_transmitAll (n : ChannelId) :
    ∀ (sent : List (ChannelId × ServerFrame)) (sockets : Table ChannelId Socket),
    (transmitAll sockets sent).get n =
      (sockets.get n).map fun sock =>
        { sock with frames := sock.frames ++ (sent.filter fun p => p.1 = n).map (·.2) }
  | [], sockets => by simp [transmitAll]
  | p :: sent, sockets => by
    have ih := get_transmitAll n sent (transmit sockets p)
    unfold transmitAll at ih ⊢
    rw [List.foldl_cons, ih, get_transmit]
    cases sockets.get n with
    | none => rfl
    | some sock => by_cases h : p.1 = n <;> simp [h]

/-- Only revocations are sent while a roster is mirrored. -/
theorem revokeDevices_sent (R : Relay) (hash : String) (currentKeys : List String) :
    ∀ (dropped : List (String × String)) (st : Inner × List (ChannelId × ServerFrame)),
      (∀ p ∈ st.2, p.2 = .revoked) → ∀ p ∈ (dropped.foldl (revokeDevice R hash currentKeys) st).2, p.2 = .revoked
  | [], _, h => h
  | d :: dropped, (s, sent), h => by
    refine revokeDevices_sent R hash currentKeys dropped _ ?_
    unfold revokeDevice
    dsimp only
    split
    · exact h
    · intro p hp
      rcases List.mem_append.mp hp with hp | hp
      · exact h p hp
      · split at hp
        · simp at hp
        · obtain ⟨ch, -, rfl⟩ := List.mem_map.mp hp
          rfl

theorem publishRoster_sent (R : Relay) (s : Inner) (client : Option String) (roster : KtRosterEntry)
    (now : ℕ) :
    ∀ p ∈ (publishRoster R s client roster now).2.2, p.2 = .revoked := by
  unfold publishRoster
  split
  · simp
  · dsimp only
    split
    case h_5 => exact revokeDevices_sent R _ _ _ _ (by simp)
    all_goals simp

theorem dropMailboxes_sent : ∀ (mbs : List String) (st : Inner × List (ChannelId × ServerFrame)),
    (∀ p ∈ st.2, p.2 = .revoked) → ∀ p ∈ (mbs.foldl dropMailbox st).2, p.2 = .revoked
  | [], _, h => h
  | mb :: mbs, (s, sent), h => by
    refine dropMailboxes_sent mbs _ ?_
    unfold dropMailbox
    intro p hp
    rcases List.mem_append.mp hp with hp | hp
    · exact h p hp
    · obtain ⟨ch, -, rfl⟩ := List.mem_map.mp hp
      rfl

theorem deleteAccount_sent (R : Relay) (s : Inner) (client : Option String)
    (req : AccountDeleteRequest) (now : ℕ) :
    ∀ p ∈ (deleteAccount R s client req now).2.2, p.2 = .revoked := by
  unfold deleteAccount
  dsimp only
  repeat' split
  case h_2 => exact dropMailboxes_sent _ _ (by simp)
  all_goals simp

/-! ### What an event does to the sockets -/

/-- What an event can do to the sockets, the live channels and the pushes in flight. -/
inductive SocketStep (R : Relay) (s : Sys) : Event → Sys → Prop
  | idle {e : Event} {s' : Sys} {sent : List (ChannelId × ServerFrame)}
      (revoked : ∀ p ∈ sent, p.2 = .revoked)
      (sockets : s'.sockets = transmitAll s.sockets sent) (next : s'.next = s.next)
      (flight : s'.flight = s.flight) (live : s.inner.core.NoNewLive s'.inner.core) : SocketStep R s e s'
  | send {client : Option String} {env sent : Envelope} {now : ℕ} {channels : List ChannelId}
      {s' : Sys}
      (clamped : sent = env.clamped now)
      (collected : channels ⊆ s.inner.core.liveOn env.recipient.asStr)
      (sockets : s'.sockets = s.sockets) (next : s'.next = s.next)
      (flight : s'.flight = s.flight ++ channels.map fun ch => (sent, ch))
      (live : s.inner.core.NoNewLive s'.inner.core) : SocketStep R s (.send client env now) s'
  | push {i : ℕ} {env : Envelope} {channel : ChannelId} {s' : Sys}
      (found : s.flight[i]? = some (env, channel))
      (sockets : s'.sockets = transmit s.sockets (channel, .message env)) (next : s'.next = s.next)
      (flight : s'.flight = s.flight.eraseIdx i) (live : s.inner.core.NoNewLive s'.inner.core) :
      SocketStep R s (.push i) s'
  | connect {client : String} {party : ℕ} {s' : Sys}
      (sockets : s'.sockets = s.sockets.set s.next { client, party }) (next : s'.next = s.next + 1)
      (flight : s'.flight = s.flight) (live : s.inner.core.NoNewLive s'.inner.core) :
      SocketStep R s (.connect client party) s'
  | auth {channel : ChannelId} {frame : AuthFrame} {now : ℕ} {sock : Socket}
      {entry : DirectoryEntry} {s' : Sys}
      (found : s.sockets.get channel = some sock) (first : sock.auth = none)
      (record : s.inner.directory.get frame.hash = some entry)
      (signed : R.crypto.verify entry.signingKey (wsAuthSigningMessage frame.hash frame.nonce) frame.signature = true)
      (sockets : s'.sockets = s.sockets.set channel { sock with auth := some (frame.hash, entry.signingKey) })
      (next : s'.next = s.next) (flight : s'.flight = s.flight) (live : s.inner.core.NoNewLive s'.inner.core) :
      SocketStep R s (.auth channel frame now) s'
  | hangUp {e : Event} {channel : ChannelId} {s' : Sys}
      (sockets : s'.sockets = s.sockets.remove channel)
      (next : s'.next = s.next) (flight : s'.flight = s.flight) (live : s.inner.core.NoNewLive s'.inner.core) :
      SocketStep R s e s'
  | subscribe {channel : ChannelId} {now : ℕ} {sock : Socket} {hash key : String} {s' : Sys}
      (found : s.sockets.get channel = some sock) (authed : sock.auth = some (hash, key))
      (first : sock.subscribed = false)
      (sockets : s'.sockets = s.sockets.set channel { sock with
        subscribed := true, frames := sock.frames ++ (flushed s.inner.store hash now).map .message ++ [.ready] })
      (next : s'.next = s.next) (flight : s'.flight = s.flight)
      (live : ∀ m, s'.inner.core.liveOn m =
        if m = hash then s.inner.core.liveOn hash ++ [channel] else s.inner.core.liveOn m) :
      SocketStep R s (.subscribe channel now) s'

/-- An event that leaves the sockets alone. -/
theorem SocketStep.still {R : Relay} {s s' : Sys} {e : Event} (sockets : s'.sockets = s.sockets)
    (next : s'.next = s.next) (flight : s'.flight = s.flight)
    (live : s.inner.core.NoNewLive s'.inner.core) :
    SocketStep R s e s' :=
  .idle (List.forall_mem_nil _) sockets next flight live

theorem authSocket_step (R : Relay) (s : Sys) (channel : ChannelId) (frame : AuthFrame) (now : ℕ) :
    SocketStep R s (.auth channel frame now) (authSocket R s channel frame now) := by
  obtain ⟨hcore, hok⟩ := authenticate_cases R s.inner frame now
  unfold authSocket
  cases hf : s.sockets.get channel with
  | none => exact .still rfl rfl rfl (.of_eq rfl)
  | some sock =>
    dsimp only
    split
    · exact .still rfl rfl rfl (.of_eq rfl)
    rename_i hfirst
    cases ha : authenticate R s.inner frame now with
    | mk outcome inner =>
    rw [ha] at hcore hok
    have hhang : s.inner.core.NoNewLive (hangUp s channel sock inner).inner.core :=
      hcore ▸ hangUp_noNewLive s channel sock inner
    cases outcome with
    | ok hash key =>
      obtain ⟨rfl, ⟨entry, he, rfl⟩, hv⟩ := hok hash key rfl
      exact .auth hf (by simpa using hfirst) he hv rfl rfl rfl (.of_eq (congrArg Core.live hcore))
    | revoked => exact .hangUp rfl rfl rfl hhang
    | failed => exact .hangUp rfl rfl rfl hhang

theorem subscribeSocket_step (R : Relay) (s : Sys) (channel : ChannelId) (now : ℕ) :
    SocketStep R s (.subscribe channel now) (subscribeSocket s channel now) := by
  unfold subscribeSocket
  cases hf : s.sockets.get channel with
  | none => exact .still rfl rfl rfl (.of_eq rfl)
  | some sock =>
    dsimp only
    cases ha : sock.auth with
    | none => exact .still rfl rfl rfl (.of_eq rfl)
    | some p =>
      obtain ⟨hash, key⟩ := p
      dsimp only
      split
      · exact .still rfl rfl rfl (.of_eq rfl)
      · rename_i hfirst
        refine .subscribe hf ha (by simpa using hfirst) ?_ rfl rfl
          (liveOn_subscribe s.inner hash channel now)
        rw [subscribe_fst, ha]

theorem sendSys_step (R : Relay) (s : Sys) (client : Option String) (env : Envelope) (now : ℕ) :
    SocketStep R s (.send client env now) (sendSys R s client env now) := by
  obtain ⟨store, push, hcore, -, hd⟩ := sendMessage_core (R := R) (s := s.inner) client env now
  have hlive : s.inner.core.NoNewLive (sendMessage R s.inner client env now).2.1.core :=
    .of_core hcore rfl
  unfold sendSys
  cases hdel : (sendMessage R s.inner client env now).2.2 with
  | none =>
    refine .still rfl rfl ?_ hlive
    simp [hdel]
  | some d =>
    obtain ⟨henv, hch⟩ := hd d hdel
    have hcollected : d.channels ⊆ s.inner.core.liveOn env.recipient.asStr := by
      rw [hch]
      exact List.Subset.refl _
    refine .send henv hcollected rfl rfl ?_ hlive
    simp [hdel]

/-! ### Requests that deliver nothing -/

/-- The request is for the records, the challenges or the push subscriptions only. -/
def Event.RecordsOnly : Event → Prop
  | .publishCallKey _ _ | .challenge _ _ _ _ | .uploadOneTimeKeys _ _ _ | .fetchBundle _ _ _ | .pushRegister _ _
  | .pushUnregister _ _ | .deadToken _ _ => True
  | _ => False

/-- The sockets, the pushes in flight, the live channels and the queues are the same. -/
structure Undelivered (s s' : Sys) : Prop where
  sockets : s'.sockets = s.sockets
  next : s'.next = s.next
  flight : s'.flight = s.flight
  live : s'.inner.core.live = s.inner.core.live
  store : s'.inner.core.store = s.inner.core.store

theorem Undelivered.of_core {s : Sys} {inner : Inner} {c : Core} (h : inner.core = c)
    (hl : c.live = s.inner.core.live) (hs : c.store = s.inner.core.store) :
    Undelivered s { s with inner } :=
  ⟨rfl, rfl, rfl, h ▸ hl, h ▸ hs⟩

theorem recordsOnly_undelivered (R : Relay) (s : Sys) {e : Event} (h : e.RecordsOnly) :
    Undelivered s (sysStep R s e) := by
  cases e with
  | publishCallKey req now =>
    rw [sysStep]
    obtain ⟨h, -⟩ | ⟨mb, entry, -, -, -, -, -, -, h⟩ :=
      publishCallKey_core (R := R) (s := s.inner) req now
    · exact .of_core h rfl rfl
    · exact .of_core h rfl rfl
  | challenge client hash nonce now => exact .of_core (core_challenge client hash nonce now) rfl rfl
  | uploadOneTimeKeys client req now =>
    rw [sysStep]
    obtain h | ⟨entry, -, -, -, h⟩ := uploadOneTimeKeys_core (R := R) (s := s.inner) client req now
    · exact .of_core h rfl rfl
    · exact .of_core h rfl rfl
  | fetchBundle client hash now =>
    rw [sysStep]
    obtain h | ⟨entry, keys, -, h⟩ := fetchBundle_core (s := s.inner) client hash now
    · exact .of_core h rfl rfl
    · exact .of_core h rfl rfl
  | pushRegister req now =>
    rw [sysStep]
    obtain h | h := pushRegister_core (R := R) (s := s.inner) req now
    · exact .of_core h rfl rfl
    · exact .of_core h rfl rfl
  | pushUnregister req now =>
    rw [sysStep]
    obtain h | h := pushUnregister_core (R := R) (s := s.inner) req now
    · exact .of_core h rfl rfl
    · exact .of_core h rfl rfl
  | deadToken recipient endpoint =>
    rw [sysStep]
    obtain ⟨push, h⟩ := deadToken_core s.inner recipient endpoint
    exact .of_core h rfl rfl
  | _ => exact h.elim

theorem SocketStep.of_undelivered {R : Relay} {s s' : Sys} {e : Event} (h : Undelivered s s') :
    SocketStep R s e s' :=
  .still h.sockets h.next h.flight (.of_eq h.live)

/-- **What an event can do to the sockets.** -/
theorem socketStep (R : Relay) (s : Sys) (e : Event) : SocketStep R s e (sysStep R s e) := by
  cases e with
  | register client invite req now =>
    refine .still rfl rfl rfl ?_
    obtain ⟨h, -⟩ | ⟨i, kt, -, -, h⟩ := register_core (R := R) (s := s.inner) client invite req now
    · exact .of_core h rfl
    · change s.inner.core.NoNewLive (register R s.inner client invite req now).2.core
      rw [h]
      split
      · exact .of_eq rfl
      · exact Core.noNewLive_takeMailbox { s.inner.core with kt } _ _
  | publishRoster client roster now =>
    refine .idle (publishRoster_sent R s.inner client roster now) rfl rfl rfl ?_
    obtain ⟨h, -⟩ | ⟨i, kt, -, -, -, h⟩ :=
      publishRoster_core (R := R) (s := s.inner) client roster now
    · exact .of_core h rfl
    · exact Core.noNewLive_removeAll _ (congrArg Core.live h)
  | deleteAccount client req now =>
    refine .idle (deleteAccount_sent R s.inner client req now) rfl rfl rfl ?_
    obtain h | ⟨account, -, -, h⟩ := deleteAccount_core (R := R) (s := s.inner) client req now
    · exact .of_core h rfl
    · exact Core.noNewLive_removeAll _ ((congrArg Core.live h).trans (Core.dropMailboxes_live _ _))
  | send client env now => exact sendSys_step R s client env now
  | push i =>
    change SocketStep R s (.push i) (pushSys s i)
    unfold pushSys
    split
    · exact .still rfl rfl rfl (.of_eq rfl)
    · rename_i env channel hf
      exact .push hf rfl rfl rfl (.of_eq rfl)
  | connect client party =>
    have h := core_claimSlot R s.inner client
    change SocketStep R s (.connect client party) (connectSys R s client party)
    unfold connectSys
    split
    · rename_i heq
      rw [heq] at h
      exact .still rfl rfl rfl (.of_core h rfl)
    · rename_i heq
      rw [heq] at h
      exact .connect rfl rfl rfl (.of_core h rfl)
  | auth channel frame now => exact authSocket_step R s channel frame now
  | subscribe channel now => exact subscribeSocket_step R s channel now
  | ack channel msgId =>
    change SocketStep R s _ (ackSocket s channel msgId)
    unfold ackSocket ackMessage
    repeat' split
    all_goals exact .still rfl rfl rfl (.of_eq rfl)
  | close channel =>
    dsimp only [sysStep]
    split
    · exact .still rfl rfl rfl (.of_eq rfl)
    · exact .hangUp rfl rfl rfl (hangUp_noNewLive s channel _ s.inner)
  | reap now => exact .still rfl rfl rfl (.of_eq rfl)
  | _ => exact .of_undelivered (recordsOnly_undelivered R s trivial)

theorem SocketStep.next_le {R : Relay} {s s' : Sys} {e : Event} (hstep : SocketStep R s e s') :
    s.next ≤ s'.next := by
  cases hstep with
  | idle revoked sockets next flight live => exact next.ge
  | send clamped collected sockets next flight live => exact next.ge
  | push found sockets next flight live => exact next.ge
  | connect sockets next flight live => rw [next]; exact Nat.le_succ _
  | auth found first record signed sockets next flight live => exact next.ge
  | hangUp sockets next flight live => exact next.ge
  | subscribe found authed first sockets next flight live => exact next.ge

/-- What an event can do to the socket of one channel: nothing, open it, send
it frames, accept its Auth frame, subscribe it or close it. -/
inductive SocketMove (R : Relay) (s : Sys) (e : Event) (n : ℕ) :
    Option Socket → Option Socket → Prop
  | kept {o : Option Socket} : SocketMove R s e n o o
  | opened {o : Option Socket} {client : String} {party : ℕ} (fresh : n = s.next) :
      SocketMove R s e n o (some { client, party })
  | heard {sock : Socket} {frames : List ServerFrame}
      (sent : ∀ f ∈ frames, f = .revoked ∨ ∃ env, f = .message env ∧ (env, n) ∈ s.flight) :
      SocketMove R s e n (some sock) (some { sock with frames := sock.frames ++ frames })
  | authed {sock : Socket} {frame : AuthFrame} {now : ℕ} {entry : DirectoryEntry}
      (event : e = .auth n frame now)
      (first : sock.auth = none) (record : s.inner.directory.get frame.hash = some entry)
      (signed : R.crypto.verify entry.signingKey (wsAuthSigningMessage frame.hash frame.nonce) frame.signature = true) :
      SocketMove R s e n (some sock) (some { sock with auth := some (frame.hash, entry.signingKey) })
  | subscribed {sock : Socket} {hash key : String} {now : ℕ} (auth : sock.auth = some (hash, key))
      (first : sock.subscribed = false) :
      SocketMove R s e n (some sock) (some { sock with
        subscribed := true, frames := sock.frames ++ (flushed s.inner.store hash now).map .message ++ [.ready] })
  | closed {sock : Socket} : SocketMove R s e n (some sock) none

theorem SocketStep.move {R : Relay} {s s' : Sys} {e : Event} (hstep : SocketStep R s e s') (n : ℕ) :
    SocketMove R s e n (s.sockets.get n) (s'.sockets.get n) := by
  cases hstep with
  | idle revoked sockets next flight live =>
    rw [sockets, get_transmitAll]
    cases s.sockets.get n with
    | none => exact .kept
    | some sock =>
      refine .heard fun f hf => Or.inl ?_
      obtain ⟨p, hp, rfl⟩ := List.mem_map.mp hf
      exact revoked p (List.mem_filter.mp hp).1
  | send clamped collected sockets next flight live => rw [sockets]; exact .kept
  | @push i env channel _ found sockets next flight live =>
    rw [sockets, get_transmit]
    cases s.sockets.get n with
    | none => exact .kept
    | some sock =>
      refine .heard fun f hf => Or.inr ?_
      split at hf
      · rename_i hn
        exact ⟨env, List.mem_singleton.mp hf, hn ▸ List.mem_of_getElem? found⟩
      · cases hf
  | connect sockets next flight live =>
    rw [sockets, Table.get_set]
    split
    · exact .opened ‹_›
    · exact .kept
  | auth found first record signed sockets next flight live =>
    rw [sockets, Table.get_set]
    split
    · rename_i hn
      rw [hn, found]
      exact .authed rfl first record signed
    · exact .kept
  | hangUp sockets next flight live =>
    rw [sockets, Table.get_remove]
    split
    · cases s.sockets.get n with
      | none => exact .kept
      | some sock => exact .closed
    · exact .kept
  | subscribe found authed first sockets next flight live =>
    rw [sockets, Table.get_set]
    split
    · rename_i hn
      rw [hn, found]
      exact .subscribed authed first
    · exact .kept

/-! ### Channels belong to sockets -/

/-- The socket is subscribed to the mailbox. -/
def Socket.Serves (sock : Socket) (m : String) : Prop :=
  sock.subscribed = true ∧ ∃ key, sock.auth = some (m, key)

/-- The channel was given out, and its socket is subscribed to the mailbox as long as it is open. -/
def Sys.Serving (s : Sys) (n : ℕ) (m : String) : Prop :=
  n < s.next ∧ ∀ sock, s.sockets.get n = some sock → sock.Serves m

theorem SocketMove.serves {R : Relay} {s : Sys} {e : Event} {n : ℕ} {o o' : Option Socket}
    (hmove : SocketMove R s e n o o') (hlt : n < s.next) {m : String}
    (h : ∀ sock ∈ o, sock.Serves m) :
    ∀ sock ∈ o', sock.Serves m := by
  cases hmove with
  | kept => exact h
  | opened fresh => exact (Nat.ne_of_lt hlt fresh).elim
  | @heard sock frames sent =>
    rintro sock' ⟨⟩
    exact h sock rfl
  | authed event first record signed =>
    -- a socket that serves a mailbox has authenticated before
    obtain ⟨-, key, hkey⟩ := h _ rfl
    rw [first] at hkey
    cases hkey
  | subscribed auth first =>
    have hsub := (h _ rfl).1
    rw [first] at hsub
    cases hsub
  | closed => exact fun _ h => nomatch h

theorem Sys.Serving.step {R : Relay} {s s' : Sys} {e : Event} {n : ℕ} {m : String}
    (h : s.Serving n m) (hstep : SocketStep R s e s') : s'.Serving n m :=
  ⟨Nat.lt_of_lt_of_le h.1 hstep.next_le, (hstep.move n).serves h.1 h.2⟩

/-- Channels are given out in order, and the live ones and those a message is on
its way to serve the mailbox in question. -/
structure Wired (s : Sys) : Prop where
  given : ∀ n sock, s.sockets.get n = some sock → n < s.next
  live : ∀ m, ∀ n ∈ s.inner.core.liveOn m, s.Serving n m
  flight : ∀ p ∈ s.flight, s.Serving p.2 p.1.recipient.asStr

theorem wired_start (R : Relay) (db : Option Db) : Wired (start R db) where
  given n sock h := by simp [start] at h
  live m n h := by simp [start, Core.liveOn, Inner.core] at h
  flight p h := by simp [start] at h

theorem Wired.given_step {R : Relay} {s s' : Sys} {e : Event} (h : Wired s)
    (hstep : SocketStep R s e s') {n : ℕ} {sock : Socket} (hs : s'.sockets.get n = some sock) :
    n < s'.next := by
  by_cases hold : n < s.next
  · exact Nat.lt_of_lt_of_le hold hstep.next_le
  · -- only a new connection opens a channel that was not given out before
    have hnone : s.sockets.get n = none := by
      cases hn : s.sockets.get n with
      | none => rfl
      | some sock => exact (hold (h.given n sock hn)).elim
    cases hstep with
    | idle revoked sockets next flight live => simp [sockets, get_transmitAll, hnone] at hs
    | send clamped collected sockets next flight live => simp [sockets, hnone] at hs
    | push found sockets next flight live => simp [sockets, get_transmit, hnone] at hs
    | connect sockets next flight live =>
      rw [sockets, Table.get_set, hnone] at hs
      split at hs
      · rename_i hn
        rw [next, hn]
        exact Nat.lt_succ_self _
      · cases hs
    | auth found first record signed sockets next flight live =>
      rw [sockets, Table.get_set_ne _ _ (fun hn => by rw [← hn, hnone] at found; cases found),
        hnone] at hs
      cases hs
    | hangUp sockets next flight live =>
      rw [sockets, Table.get_remove, hnone] at hs
      split at hs <;> cases hs
    | subscribe found authed first sockets next flight live =>
      rw [sockets, Table.get_set_ne _ _ (fun hn => by rw [← hn, hnone] at found; cases found),
        hnone] at hs
      cases hs

/-- A channel that is live after an event was live before it or serves its mailbox. -/
theorem SocketStep.serving_of_live {R : Relay} {s s' : Sys} {e : Event} (h : Wired s)
    (hstep : SocketStep R s e s') {m : String} {n : ℕ} (hn : n ∈ s'.inner.core.liveOn m) :
    s'.Serving n m := by
  have hkeep : n ∈ s.inner.core.liveOn m → s'.Serving n m := fun hn => (h.live m n hn).step hstep
  cases hstep with
  | idle revoked sockets next flight live => exact hkeep (live m hn)
  | send clamped collected sockets next flight live => exact hkeep (live m hn)
  | push found sockets next flight live => exact hkeep (live m hn)
  | connect sockets next flight live => exact hkeep (live m hn)
  | auth found first record signed sockets next flight live => exact hkeep (live m hn)
  | hangUp sockets next flight live => exact hkeep (live m hn)
  | @subscribe channel now sock₀ hash key _ found authed first sockets next flight live =>
    rw [live] at hn
    split at hn
    · rename_i hm
      rcases List.mem_append.mp hn with hn | hn
      · exact hkeep (hm ▸ hn)
      · obtain rfl := List.mem_singleton.mp hn
        refine ⟨next ▸ h.given n _ found, fun sock hs => ?_⟩
        rw [sockets, Table.get_set_self] at hs
        cases hs
        exact ⟨rfl, key, hm ▸ authed⟩
    · exact hkeep hn

theorem SocketStep.serving_of_flight {R : Relay} {s s' : Sys} {e : Event} (h : Wired s)
    (hstep : SocketStep R s e s') {p : Envelope × ChannelId} (hp : p ∈ s'.flight) :
    s'.Serving p.2 p.1.recipient.asStr := by
  have hkeep : p ∈ s.flight → s'.Serving p.2 p.1.recipient.asStr :=
    fun hp => (h.flight p hp).step hstep
  have hlive : ∀ m, ∀ ch ∈ s.inner.core.liveOn m, s'.Serving ch m :=
    fun m ch hch => (h.live m ch hch).step hstep
  cases hstep with
  | idle revoked sockets next flight live => exact hkeep (flight ▸ hp)
  | send clamped collected sockets next flight live =>
    rw [flight] at hp
    rcases List.mem_append.mp hp with hp | hp
    · exact hkeep hp
    · obtain ⟨ch, hch, rfl⟩ := List.mem_map.mp hp
      rw [clamped]
      exact hlive _ ch (collected hch)
  | push found sockets next flight live => exact hkeep (List.mem_of_mem_eraseIdx (flight ▸ hp))
  | connect sockets next flight live => exact hkeep (flight ▸ hp)
  | auth found first record signed sockets next flight live => exact hkeep (flight ▸ hp)
  | hangUp sockets next flight live => exact hkeep (flight ▸ hp)
  | subscribe found authed first sockets next flight live => exact hkeep (flight ▸ hp)

theorem Wired.step {R : Relay} {s s' : Sys} {e : Event} (h : Wired s)
    (hstep : SocketStep R s e s') : Wired s' where
  given _ _ hs := h.given_step hstep hs
  live _ _ hn := hstep.serving_of_live h hn
  flight _ hp := hstep.serving_of_flight h hp

theorem wired_after (R : Relay) (db : Option Db) (es : List Event) : Wired (after R db es) :=
  Trace.run_inv (fun s e h => h.step (socketStep R s e)) (wired_start R db) es

/-! ### Messages are in the mailbox they name -/

/-- What an Ack changes is in the mailbox of the socket it came on. -/
theorem ack_entries {R : Relay} {s : Sys} {n : ChannelId} {msgId m : String}
    (h : (sysStep R s (.ack n msgId)).inner.store.entries m ≠ s.inner.store.entries m) :
    ∃ sock hash key recipient, s.sockets.get n = some sock ∧ sock.auth = some (hash, key) ∧
      IdentityHash.fromHex hash = some recipient ∧ m = recipient.asStr := by
  change (ackSocket s n msgId).inner.store.entries m ≠ _ at h
  unfold ackSocket ackMessage at h
  cases hs : s.sockets.get n with
  | none => simp [hs] at h
  | some sock =>
    cases ha : sock.auth with
    | none => simp [hs, ha] at h
    | some p =>
      obtain ⟨hash, key⟩ := p
      cases hsub : sock.subscribed with
      | false => simp [hs, ha, hsub] at h
      | true =>
        cases hx : IdentityHash.fromHex hash with
        | none => simp [hs, ha, hsub, hx] at h
        | some recipient =>
          refine ⟨sock, hash, key, recipient, rfl, ha, hx, ?_⟩
          by_contra hne
          simp only [hs, ha, hsub, hx, if_true] at h
          exact h (by
            change (s.inner.store.ack recipient msgId).entries m = _
            rw [MessageStore.entries_ack, if_neg hne])

/-- Every message is queued under the hash it is for. -/
def Filed (st : MessageStore) : Prop := ∀ m, ∀ env ∈ st.entries m, env.recipient.asStr = m

theorem Filed.of_subset {st st' : MessageStore} (h : Filed st)
    (hsub : ∀ m, st'.entries m ⊆ st.entries m) :
    Filed st' := fun m env henv => h m env (hsub m henv)

theorem Filed.enqueue {st : MessageStore} (h : Filed st) (env : Envelope) (now : ℕ) :
    Filed (st.enqueue env now).2 := by
  obtain ⟨heq, -, -⟩ | ⟨gone, kept, hsplit, heq, -⟩ := st.enqueue_cases env now
  · rw [heq]; exact h
  · rw [heq]
    intro m x hx
    rw [MessageStore.entries_set] at hx
    split at hx
    · rename_i hm
      rcases List.mem_append.mp hx with hx | hx
      · have hmem : x ∈ unexpired now (st.entries env.recipient.asStr) :=
          hsplit ▸ List.mem_append_right _ hx
        rw [hm]
        exact h _ x (unexpired_sublist _ _ |>.subset hmem)
      · rw [List.mem_singleton.mp hx, hm]; rfl
    · exact h m x hx

theorem Filed.purgeAll :
    ∀ (mbs : List String) {st : MessageStore}, Filed st → Filed (mbs.foldl MessageStore.purge st)
  | [], _, h => h
  | mb :: mbs, st, h => by
    refine Filed.purgeAll mbs (h.of_subset fun m => ?_)
    rw [MessageStore.entries_purge]
    split
    · exact List.nil_subset _
    · exact List.Subset.refl _

theorem Filed.sendMessage {s : Inner} (h : Filed s.store) (R : Relay) (client : Option String)
    (env : Envelope) (now : ℕ) : Filed (sendMessage R s client env now).2.1.store := by
  obtain ⟨store, push, hcore, hstore, -⟩ := sendMessage_core (R := R) (s := s) client env now
  rw [show (Sona.sendMessage R s client env now).2.1.store = store from congrArg Core.store hcore]
  rcases hstore with rfl | rfl
  · exact h
  · exact h.enqueue _ now

theorem Filed.subscribe {s : Inner} (h : Filed s.store) (hash : String) (channel : ChannelId)
    (now : ℕ) :
    Filed (subscribe s hash channel now).2.store := by
  unfold Sona.subscribe
  cases IdentityHash.fromHex hash with
  | none => exact h
  | some recipient =>
    refine h.of_subset fun m => ?_
    rw [MessageStore.entries_fetch]
    split
    · exact (unexpired_sublist now _).subset
    · exact List.Subset.refl _

theorem Filed.ackMessage {s : Inner} (h : Filed s.store) (hash msgId : String) :
    Filed (ackMessage s hash msgId).store := by
  unfold Sona.ackMessage
  cases IdentityHash.fromHex hash with
  | none => exact h
  | some recipient =>
    refine h.of_subset fun m => ?_
    change (s.store.ack recipient msgId).entries m ⊆ _
    rw [MessageStore.entries_ack]
    split
    · exact List.filter_subset_self _
    · exact List.Subset.refl _

/-- The store of an event that is neither a message nor a socket's. -/
theorem store_of_core {s s' : Inner} {c : Core} (h : s'.core = c) (hc : c.store = s.store) :
    s'.store = s.store :=
  (congrArg Core.store h).trans hc

theorem hangUp_store (s : Sys) (channel : ChannelId) (sock : Socket) (inner : Inner) :
    (hangUp s channel sock inner).inner.store = inner.store := by
  unfold hangUp releaseSlot unsubscribe
  dsimp only
  repeat' split
  all_goals rfl

theorem Filed.of_undelivered {s s' : Sys} (h : Filed s.inner.store) (hu : Undelivered s s') :
    Filed s'.inner.store := by
  rw [show s'.inner.store = s.inner.store from hu.store]
  exact h

theorem Filed.step {R : Relay} {s : Sys} (h : Filed s.inner.store) (e : Event) :
    Filed (sysStep R s e).inner.store := by
  have hsame : (sysStep R s e).inner.store = s.inner.store → Filed (sysStep R s e).inner.store :=
    fun heq => heq ▸ h
  cases e with
  | register client invite req now =>
    refine hsame ?_
    obtain ⟨hc, -⟩ | ⟨i, kt, -, -, hc⟩ :=
      register_core (R := R) (s := s.inner) client invite req now
    · exact store_of_core hc rfl
    · refine store_of_core hc ?_
      split <;> rfl
  | publishRoster client roster now =>
    refine hsame ?_
    obtain ⟨hc, -⟩ | ⟨i, kt, -, -, -, hc⟩ :=
      publishRoster_core (R := R) (s := s.inner) client roster now
    · exact store_of_core hc rfl
    · exact store_of_core hc rfl
  | deleteAccount client req now =>
    obtain hc | ⟨account, -, -, hc⟩ := deleteAccount_core (R := R) (s := s.inner) client req now
    · exact hsame (store_of_core hc rfl)
    · change Filed (deleteAccount R s.inner client req now).2.1.core.store
      rw [hc, Core.dropMailboxes_store]
      exact Filed.purgeAll _ h
  | send client env now => exact h.sendMessage R client env now
  | push i =>
    refine hsame ?_
    change (pushSys s i).inner.store = _
    unfold pushSys
    split <;> rfl
  | connect client party =>
    refine hsame ?_
    change (connectSys R s client party).inner.store = _
    have hc := core_claimSlot R s.inner client
    unfold connectSys
    split
    · rename_i heq; rw [heq] at hc; exact store_of_core hc rfl
    · rename_i heq; rw [heq] at hc; exact store_of_core hc rfl
  | auth channel frame now =>
    refine hsame ?_
    change (authSocket R s channel frame now).inner.store = _
    have hc := (authenticate_cases R s.inner frame now).1
    unfold authSocket
    split
    · rfl
    split
    · rfl
    split
    · rename_i heq; rw [heq] at hc; exact store_of_core hc rfl
    · rename_i heq; rw [heq] at hc; exact (hangUp_store _ _ _ _).trans (store_of_core hc rfl)
  | subscribe channel now =>
    change Filed (subscribeSocket s channel now).inner.store
    unfold subscribeSocket
    split
    · exact h
    split
    · exact h
    split
    · exact h
    · exact h.subscribe _ channel now
  | ack channel msgId =>
    change Filed (ackSocket s channel msgId).inner.store
    unfold ackSocket
    split
    · exact h
    split
    · exact h
    split
    · exact h.ackMessage _ msgId
    · exact h
  | close channel =>
    refine hsame ?_
    dsimp only [sysStep]
    split
    · rfl
    · exact hangUp_store _ _ _ _
  | reap now =>
    refine h.of_subset fun m => ?_
    change (s.inner.store.prune now).entries m ⊆ _
    rw [MessageStore.entries_prune]
    exact (unexpired_sublist now _).subset
  | _ => exact h.of_undelivered (recordsOnly_undelivered R s trivial)

theorem filed_after (R : Relay) (db : Option Db) (es : List Event) :
    Filed (after R db es).inner.store :=
  Trace.run_inv (I := fun s : Sys => Filed s.inner.store) (fun _ e h => h.step e)
    (fun m env h => by simp [start, MessageStore.entries] at h) es

end Sona
