/-
# Key rotation and the sockets of the old key

`register` drops the live channels of a mailbox whose key it replaces. A socket
that was subscribed under the old key is then live nowhere and never becomes
live again, so nothing that is sent afterwards reaches it (`CutOff`). Its task
goes on, though: it reads Acks until it is closed, a push whose channels were
collected before the rotation still goes out, and a task that had authenticated
but not subscribed yet subscribes under the key it proved before.
`rotation_cuts_off` says what the rotation must find for the old sockets to be
without effect, for the pushes and for the Acks; `stale_socket_acks` is a run
where an old socket deletes what is queued for the new key.

Key definitions: `Replaces`, `AuthedAs`, `CutOff`, `Settled`, `HearsNothing`, `DeletesNothing`.
-/
import Sona.Lib.Table
import Sona.Lib.Trace
import Sona.Store
import Sona.Handlers
import Sona.Run
import Sona.Sockets

namespace Sona

/-- The envelopes a socket was sent. -/
def Socket.received (sock : Socket) : List Envelope :=
  sock.frames.filterMap fun
    | .message env => some env
    | _ => none

/-- The event is a registration that replaces the key `key` of `hash`. -/
def Replaces (R : Relay) (s : Sys) (e : Event) (hash key : String) : Prop :=
  (∃ client invite req now, e = .register client invite req now) ∧
    (∃ old, s.inner.directory.get hash = some old ∧ old.signingKey = key) ∧
    ∃ new, (sysStep R s e).inner.directory.get hash = some new ∧ new.signingKey ≠ key

/-- The socket `n` authenticated for `hash` under `key` in the run. -/
def AuthedAs (R : Relay) (db : Option Db) (es : List Event) (n : ChannelId) (hash key : String) :
    Prop :=
  ∃ pre, pre <+: es ∧ ∃ sock, (after R db pre).sockets.get n = some sock ∧
  sock.auth = some (hash, key)

/-! ### A socket that is live nowhere -/

/-- The channel was given out; it is live for no mailbox, no message is on its
way to it, and its socket has subscribed before. -/
structure CutOff (s : Sys) (n : ChannelId) : Prop where
  given : n < s.next
  subscribed : ∀ sock, s.sockets.get n = some sock → sock.subscribed = true
  live : ∀ m, n ∉ s.inner.core.liveOn m
  flight : ∀ p ∈ s.flight, p.2 ≠ n

/-- A step leaves the envelopes of the socket as they were, unless it is gone. -/
def SameReceived (s s' : Sys) (n : ChannelId) : Prop :=
  ∀ sock', s'.sockets.get n = some sock' →
    ∃ sock, s.sockets.get n = some sock ∧ sock'.received = sock.received ∧
    sock'.subscribed = sock.subscribed

theorem SameReceived.trans {s s' s'' : Sys} {n : ChannelId} (h : SameReceived s s' n)
    (h' : SameReceived s' s'' n) :
    SameReceived s s'' n := by
  intro sock'' hs''
  obtain ⟨sock', hs', hr', hsub'⟩ := h' sock'' hs''
  obtain ⟨sock, hs, hr, hsub⟩ := h sock' hs'
  exact ⟨sock, hs, hr'.trans hr, hsub'.trans hsub⟩

theorem received_append_revoked (sock : Socket) {frames : List ServerFrame}
    (h : ∀ f ∈ frames, f = .revoked) :
    ({ sock with frames := sock.frames ++ frames } : Socket).received = sock.received := by
  unfold Socket.received
  rw [List.filterMap_append]
  have hnone : frames.filterMap (fun | .message env => some env | _ => none) = [] := by
    rw [List.filterMap_eq_nil_iff]
    intro f hf
    rw [h f hf]
  simp [hnone]

/-- A socket that is cut off is sent nothing. -/
theorem CutOff.sameReceived {R : Relay} {s s' : Sys} {e : Event} {n : ChannelId} (h : CutOff s n)
    (hstep : SocketStep R s e s') : SameReceived s s' n := by
  have hmove := hstep.move n
  have hsub := h.subscribed
  unfold SameReceived
  generalize s.sockets.get n = o at hmove hsub ⊢
  generalize s'.sockets.get n = o' at hmove ⊢
  cases hmove with
  | kept => exact fun sock hs => ⟨sock, hs, rfl, rfl⟩
  | opened fresh => exact (Nat.ne_of_lt h.given fresh).elim
  | @heard sock frames sent =>
    intro sock' hs'
    cases hs'
    refine ⟨sock, rfl, received_append_revoked sock fun f hf => ?_, rfl⟩
    obtain hrev | ⟨env, -, hfl⟩ := sent f hf
    · exact hrev
    · exact (h.flight _ hfl rfl).elim
  | @authed sock frame now entry event first record signed =>
    intro sock' hs'
    cases hs'
    exact ⟨sock, rfl, rfl, rfl⟩
  | @subscribed sock hash key now auth first =>
    -- it has subscribed already
    have hsub := hsub sock rfl
    rw [first] at hsub
    cases hsub
  | closed => exact fun _ hs' => nomatch hs'

theorem CutOff.step {R : Relay} {s s' : Sys} {e : Event} {n : ChannelId} (h : CutOff s n)
    (hstep : SocketStep R s e s') :
    CutOff s' n := by
  have hsame := h.sameReceived hstep
  have hsub : ∀ sock, s'.sockets.get n = some sock → sock.subscribed = true := by
    intro sock' hs'
    obtain ⟨sock, hs, -, heq⟩ := hsame sock' hs'
    rw [heq]
    exact h.subscribed sock hs
  cases hstep with
  | idle revoked sockets next flight live =>
    exact ⟨next ▸ h.given, hsub, fun m hm => h.live m (live m hm), flight ▸ h.flight⟩
  | send clamped collected sockets next flight live =>
    refine ⟨next ▸ h.given, hsub, fun m hm => h.live m (live m hm), fun p hp => ?_⟩
    rw [flight] at hp
    rcases List.mem_append.mp hp with hp | hp
    · exact h.flight p hp
    · obtain ⟨ch, hch, rfl⟩ := List.mem_map.mp hp
      rintro rfl
      exact h.live _ (collected hch)
  | push found sockets next flight live =>
    refine ⟨next ▸ h.given, hsub, fun m hm => h.live m (live m hm), fun p hp => ?_⟩
    exact h.flight p (List.mem_of_mem_eraseIdx (flight ▸ hp))
  | connect sockets next flight live =>
    refine ⟨?_, hsub, fun m hm => h.live m (live m hm), flight ▸ h.flight⟩
    rw [next]
    exact Nat.lt_succ_of_lt h.given
  | auth found first record signed sockets next flight live =>
    exact ⟨next ▸ h.given, hsub, fun m hm => h.live m (live m hm), flight ▸ h.flight⟩
  | hangUp sockets next flight live =>
    exact ⟨next ▸ h.given, hsub, fun m hm => h.live m (live m hm), flight ▸ h.flight⟩
  | @subscribe channel now sock hash key _ found authed first sockets next flight live =>
    refine ⟨next ▸ h.given, hsub, fun m hm => ?_, flight ▸ h.flight⟩
    rw [live] at hm
    split at hm
    · rename_i hash'
      rcases List.mem_append.mp hm with hm | hm
      · exact h.live _ hm
      · have hsub' := h.subscribed sock ((List.mem_singleton.mp hm) ▸ found)
        rw [first] at hsub'
        cases hsub'
    · exact h.live m hm

theorem CutOff.run {R : Relay} {n : ChannelId} : ∀ {fs : List Event} {s : Sys}, CutOff s n →
    SameReceived s (Trace.run (sysStep R) s fs) n
  | [], _, _ => fun sock hs => ⟨sock, hs, rfl, rfl⟩
  | e :: _, s, h => (h.sameReceived (socketStep R s e)).trans (CutOff.run (h.step (socketStep R s e)))

/-! ### The rotation -/

/-- A registration that replaces a key leaves no channel live for the mailbox. -/
theorem Replaces.liveOn {R : Relay} {s : Sys} {e : Event} {hash key : String}
    (h : Replaces R s e hash key) :
    (sysStep R s e).inner.core.liveOn hash = [] := by
  obtain ⟨⟨client, invite, req, now, rfl⟩, ⟨old, hold, hkey⟩, new, hnew, hne⟩ := h
  have hd : (sysStep R s (.register client invite req now)).inner.core.directory.get hash =
      some new := hnew
  change (register R s.inner client invite req now).2.core.directory.get hash = some new at hd
  change (register R s.inner client invite req now).2.core.liveOn hash = []
  have hkept : some new = some old → False := by
    intro h
    cases h
    exact hne hkey
  obtain ⟨hc, -⟩ | ⟨i, kt, -, -, hc⟩ := register_core (R := R) (s := s.inner) client invite req now
  · rw [hc, show s.inner.core.directory.get hash = some old from hold] at hd
    exact (hkept hd.symm).elim
  · rw [hc] at hd ⊢
    split at hd
    · rw [show s.inner.core.directory.get hash = some old from hold] at hd
      exact (hkept hd.symm).elim
    · rename_i hrel
      rw [if_neg hrel]
      unfold Core.takeMailbox at hd ⊢
      dsimp only at hd ⊢
      rw [Table.get_set] at hd
      split at hd
      · rename_i hash'
        cases hd
        rw [← hash', show s.inner.core.directory.get hash = some old from hold]
        have hchanged : old.signingKey ≠ req.record.signingKey := fun heq => hne (heq ▸ hkey)
        simp [Core.liveOn, hchanged]
      · rw [show s.inner.core.directory.get hash = some old from hold] at hd
        exact (hkept hd.symm).elim

/-- What a rotation must find for no later envelope to reach the socket: it is
closed, or it is subscribed and no push to it is under way. -/
def Settled (s : Sys) (n : ChannelId) : Prop :=
  ∀ sock, s.sockets.get n = some sock → sock.subscribed = true ∧ ∀ p ∈ s.flight, p.2 ≠ n

theorem Replaces.cutOff {R : Relay} {s : Sys} {e : Event} {hash key : String} {n : ChannelId}
    {sock : Socket} (hwired : Wired s) (hrep : Replaces R s e hash key)
    (hs : s.sockets.get n = some sock) (hauth : sock.auth = some (hash, key)) (hset : Settled s n) :
    CutOff (sysStep R s e) n := by
  have hempty := hrep.liveOn
  obtain ⟨⟨client, invite, req, now, rfl⟩, -, -⟩ := hrep
  have hwired' := hwired.step (socketStep R s (.register client invite req now))
  refine ⟨hwired.given n sock hs, fun sock' hs' => (hset sock' hs').1, fun m hm => ?_,
    (hset sock hs).2⟩
  -- a live channel serves the mailbox of its socket, and that one has just been cleared
  obtain ⟨-, key', hkey'⟩ := (hwired'.live m n hm).2 sock hs
  rw [hauth] at hkey'
  cases hkey'
  rw [hempty] at hm
  cases hm

/-! ### Closed sockets -/

/-- A channel that was given out and is closed stays closed. -/
theorem closed_step {R : Relay} {s : Sys} {n : ChannelId} (hlt : n < s.next)
    (hs : s.sockets.get n = none) (e : Event) :
    (sysStep R s e).sockets.get n = none := by
  have hmove := (socketStep R s e).move n
  rw [hs] at hmove
  generalize (sysStep R s e).sockets.get n = o at hmove ⊢
  cases hmove with
  | kept => rfl
  | opened fresh => exact (Nat.ne_of_lt hlt fresh).elim

theorem closed_run {R : Relay} {n : ChannelId} :
    ∀ (fs : List Event) {s : Sys}, n < s.next → s.sockets.get n = none →
    (Trace.run (sysStep R) s fs).sockets.get n = none
  | [], _, _, hs => hs
  | e :: fs, s, hlt, hs =>
    closed_run fs (Nat.lt_of_lt_of_le hlt (socketStep R s e).next_le) (closed_step hlt hs e)

/-- What a socket proved does not change while it is open. -/
theorem auth_step {R : Relay} {s : Sys} {n : ChannelId} {p : String × String} (hlt : n < s.next)
    (ha : ∀ sock ∈ s.sockets.get n, sock.auth = some p) (e : Event) :
    ∀ sock ∈ (sysStep R s e).sockets.get n, sock.auth = some p := by
  have hmove := (socketStep R s e).move n
  generalize s.sockets.get n = o at hmove ha
  generalize (sysStep R s e).sockets.get n = o' at hmove ⊢
  cases hmove with
  | kept => exact ha
  | opened fresh => exact (Nat.ne_of_lt hlt fresh).elim
  | @heard sock frames sent =>
    rintro sock' ⟨⟩
    exact ha sock rfl
  | @authed sock frame now entry event first record signed =>
    have ha := ha sock rfl
    rw [first] at ha
    cases ha
  | @subscribed sock hash key now auth first =>
    rintro sock' ⟨⟩
    exact ha sock rfl
  | closed => exact fun _ h => nomatch h

theorem auth_run {R : Relay} {n : ChannelId} {p : String × String} :
    ∀ (fs : List Event) {s : Sys}, n < s.next →
    (∀ sock ∈ s.sockets.get n, sock.auth = some p) →
    n < (Trace.run (sysStep R) s fs).next ∧
    ∀ sock ∈ (Trace.run (sysStep R) s fs).sockets.get n, sock.auth = some p
  | [], _, hlt, ha => ⟨hlt, ha⟩
  | e :: fs, s, hlt, ha => auth_run fs (Nat.lt_of_lt_of_le hlt (socketStep R s e).next_le)
      (auth_step hlt ha e)

/-- A socket that authenticated has had its channel, and shows what it proved while it is open. -/
theorem AuthedAs.open_auth {R : Relay} {db : Option Db} {es : List Event} {n : ChannelId}
    {hash key : String} (h : AuthedAs R db es n hash key) :
    n < (after R db es).next ∧ ∀ sock, (after R db es).sockets.get n = some sock →
    sock.auth = some (hash, key) := by
  obtain ⟨pre, ⟨post, rfl⟩, sock, hs, ha⟩ := h
  rw [after_append]
  refine auth_run post ((wired_after R db pre).given n sock hs) fun sock' hs' => ?_
  rw [hs] at hs'
  cases hs'
  exact ha

/-- Through the events `rest` after `es`, the socket `n` is sent no envelope. -/
def HearsNothing (R : Relay) (db : Option Db) (es rest : List Event) (n : ChannelId) : Prop :=
  ∀ sock', (after R db (es ++ rest)).sockets.get n = some sock' →
    ∃ sock, (after R db es).sockets.get n = some sock ∧ sock'.received = sock.received

/-- No Ack on the socket `n` deletes anything. -/
def DeletesNothing (R : Relay) (s : Sys) (n : ChannelId) : Prop :=
  ∀ msgId m, (sysStep R s (.ack n msgId)).inner.store.entries m = s.inner.store.entries m

/-- **A rotation cuts the old sockets off.** In any run, when a registration
replaces the key a socket authenticated under: if the socket is closed or
settled at that point, no later envelope reaches it; if it is closed, no later
Ack on it deletes anything. -/
theorem rotation_cuts_off (R : Relay) (db : Option Db) (es fs : List Event) (e : Event)
    (n : ChannelId) (hash key : String) (hauth : AuthedAs R db es n hash key)
    (hrep : Replaces R (after R db es) e hash key) :
    (Settled (after R db es) n → HearsNothing R db es (e :: fs) n) ∧
    ((after R db es).sockets.get n = none → DeletesNothing R (after R db (es ++ e :: fs)) n) := by
  obtain ⟨hlt, hopen⟩ := hauth.open_auth
  have hclosed : (after R db es).sockets.get n = none →
      (after R db (es ++ e :: fs)).sockets.get n = none := by
    intro hs
    rw [after_append]
    exact closed_run (e :: fs) hlt hs
  constructor
  · intro hset sock' hs'
    cases hs : (after R db es).sockets.get n with
    | none =>
      rw [hclosed hs] at hs'
      cases hs'
    | some sock =>
      have hcut := hrep.cutOff (wired_after R db es) hs (hopen sock hs) hset
      rw [after_append, Trace.run_cons] at hs'
      obtain ⟨sock₁, hs₁, hr, -⟩ := hcut.run sock' hs'
      -- the registration itself sends nothing
      obtain ⟨⟨client, invite, req, now, rfl⟩, -, -⟩ := hrep
      change (after R db es).sockets.get n = some sock₁ at hs₁
      rw [hs] at hs₁
      cases hs₁
      exact ⟨sock, rfl, hr⟩
  · intro hs msgId m
    by_contra hne
    obtain ⟨sock, -, -, -, hsome, -⟩ := ack_entries hne
    rw [hclosed hs] at hsome
    cases hsome

/-! ### Two runs -/

def rotationSigned : Signatures :=
  (bobKey, rotationEntry.signingPayload, rotationEntry.signature) :: bobSigned

def bobRotates : Event :=
  .register (some "10.0.0.1") none { entry := rotationEntry, oneTimeKeys := [], fallbackKey := none } 2000

/-- The socket is closed. -/
def bobCloses : List Event := bobSubscribes ++ [.close 0]

/-- A message that is sent once the key has changed. -/
def sentLater : List Event :=
  [.send (some "10.0.0.9") (mailTo bobHash "again" "m2" none) 2010, .push 0]

/-- The key of the account is this one, and the registration makes it the new one. -/
def KeyReplaced (es : List Event) : Prop :=
  (after (sampleRelay rotationSigned) none es).inner.directory.get bobHash =
      some { identityKey := bobEntry.identityKey, signingKey := bobKey } ∧
    (after (sampleRelay rotationSigned) none (es ++ [bobRotates])).inner.directory.get bobHash =
      some { identityKey := rotationEntry.identityKey, signingKey := rotationEntry.signingKey }

instance (es : List Event) : Decidable (KeyReplaced es) := inferInstanceAs (Decidable (_ ∧ _))

/-- The socket that subscribed, open or closed, and the registration. -/
theorem bobRotates_run :
    (KeyReplaced bobSubscribes ∧ KeyReplaced bobCloses) ∧
      ((after (sampleRelay rotationSigned) none bobSubscribes).sockets.get 0).map (fun s => (s.auth, s.subscribed)) =
        some (some (bobHash, bobKey), true) ∧
      (after (sampleRelay rotationSigned) none bobSubscribes).flight = [] ∧
      ((after (sampleRelay rotationSigned) none bobCloses).sockets.get 0).isNone = true ∧
      ((after (sampleRelay rotationSigned) none (bobSubscribes ++ bobRotates :: sentLater)).sockets.get 0).isSome = true ∧
      (sysStep (sampleRelay rotationSigned) (after (sampleRelay rotationSigned) none
          (bobSubscribes ++ bobRotates :: sentLater)) (.ack 0 "m2")).inner.store.entries bobHash ≠
        (after (sampleRelay rotationSigned) none (bobSubscribes ++ bobRotates :: sentLater)).inner.store.entries bobHash := by
  decide +kernel

/-- The registration replaces the key in a run that has the first one. -/
theorem bobRotates_replaces {es : List Event} (h : KeyReplaced es) :
    Replaces (sampleRelay rotationSigned) (after (sampleRelay rotationSigned) none es) bobRotates bobHash bobKey := by
  obtain ⟨hold, hnew⟩ := h
  rw [after_snoc] at hnew
  exact ⟨⟨_, _, _, _, rfl⟩, ⟨_, hold, rfl⟩, _, hnew, by decide⟩

/-- The socket of the account has authenticated. -/
theorem bobSubscribes_authed {es : List Event} (h : bobSubscribes <+: es) :
    AuthedAs (sampleRelay rotationSigned) none es 0 bobHash bobKey := by
  obtain ⟨-, hsock, -⟩ := bobRotates_run
  obtain ⟨sock, hs, ha⟩ := Option.map_eq_some_iff.mp hsock
  exact ⟨bobSubscribes, h, sock, hs, congrArg Prod.fst ha⟩

/-- A socket that is subscribed hears nothing of it, and one that was closed deletes nothing. -/
theorem rotation_cuts_off_bob :
    (∃ sock sock', (after (sampleRelay rotationSigned) none bobSubscribes).sockets.get 0 = some sock ∧
      (after (sampleRelay rotationSigned) none (bobSubscribes ++ bobRotates :: sentLater)).sockets.get 0 = some sock' ∧
      sock'.received = sock.received) ∧
    DeletesNothing (sampleRelay rotationSigned)
      (after (sampleRelay rotationSigned) none (bobCloses ++ bobRotates :: sentLater)) 0 := by
  obtain ⟨⟨hopen, hclosed⟩, hsock, hflight, hnone, hsome, -⟩ := bobRotates_run
  constructor
  · have hsettled : Settled (after (sampleRelay rotationSigned) none bobSubscribes) 0 := by
      intro sock hs
      rw [hs] at hsock
      exact ⟨congrArg Prod.snd (Option.some.inj hsock), fun p hp => by rw [hflight] at hp; cases hp⟩
    obtain ⟨sock', hs'⟩ := Option.isSome_iff_exists.mp hsome
    obtain ⟨sock, hs, hreceived⟩ := (rotation_cuts_off (sampleRelay rotationSigned) none bobSubscribes sentLater bobRotates 0 bobHash bobKey
      (bobSubscribes_authed (List.prefix_refl _)) (bobRotates_replaces hopen)).1 hsettled sock' hs'
    exact ⟨sock, sock', hs, hs', hreceived⟩
  · exact (rotation_cuts_off (sampleRelay rotationSigned) none bobCloses sentLater bobRotates 0 bobHash bobKey
      (bobSubscribes_authed (List.prefix_append _ _))
      (bobRotates_replaces hclosed)).2 (Option.isNone_iff_eq_none.mp hnone)

/-- **A socket of the old key deletes what is queued for the new one.** -/
theorem stale_socket_acks :
    ¬ ∀ (R : Relay) (db : Option Db) (es fs : List Event) (e : Event) (n : ChannelId) (hash key : String),
      AuthedAs R db es n hash key → Replaces R (after R db es) e hash key →
      HearsNothing R db es (e :: fs) n ∧ DeletesNothing R (after R db (es ++ e :: fs)) n := by
  intro h
  obtain ⟨⟨hopen, -⟩, -, -, -, -, hacked⟩ := bobRotates_run
  exact hacked ((h (sampleRelay rotationSigned) none bobSubscribes sentLater bobRotates 0 bobHash bobKey
    (bobSubscribes_authed (List.prefix_refl _)) (bobRotates_replaces hopen)).2 "m2" bobHash)

end Sona
