/-
# Mailbox isolation

Who reads and deletes what is queued for a mailbox. The directory, the log and
the challenges are keyed by the hash as it was sent, the store by the hash as
`IdentityHash.fromHex` returns it, and a delivery socket goes from the first to
the second. Where every Auth frame spells its hash canonically the two are the
same string, and a mailbox is read and emptied only by sockets that proved a
key its own directory record had (`mailbox_isolation`). Where one does not, a
name that differs in case only is another account with the same mailbox
(`upper_case_socket_reads_mailbox`).

Signatures are unforgeable: whoever sends an Auth frame that verifies under a
key holds the key (`Unforged`).

Key definitions: `Unforged`, `SpelledCanonically`, `Isolated`.
-/
import Sona.Lib.Table
import Sona.Lib.Trace
import Sona.Store
import Sona.Handlers
import Sona.Run
import Sona.Sockets

namespace Sona

/-- Who sends an Auth frame that verifies under a key holds it. -/
def Unforged (R : Relay) (holds : ℕ → String → Prop) (s : Sys) : Event → Prop
  | .auth channel frame _ => ∀ sock, s.sockets.get channel = some sock → ∀ key,
      R.crypto.verify key (wsAuthSigningMessage frame.hash frame.nonce) frame.signature = true →
      holds sock.party key
  | _ => True

/-- An Auth frame whose hash has a record spells it as `fromHex` returns it. -/
def SpelledCanonically (s : Sys) : Event → Prop
  | .auth _ frame _ => ∀ entry, s.inner.directory.get frame.hash = some entry → Canonical frame.hash
  | _ => True

/-- At some point of the run the directory had the key for the mailbox. -/
def Recorded (R : Relay) (db : Option Db) (es : List Event) (m key : String) : Prop :=
  ∃ pre, pre <+: es ∧ ∃ entry, (after R db pre).inner.directory.get m = some entry ∧
  entry.signingKey = key

theorem Recorded.snoc {R : Relay} {db : Option Db} {es : List Event} {m key : String}
    (h : Recorded R db es m key) (e : Event) : Recorded R db (es ++ [e]) m key := by
  obtain ⟨pre, hpre, hentry⟩ := h
  exact ⟨pre, hpre.trans (List.prefix_append es [e]), hentry⟩

/-- What a socket proved, and what it was sent. -/
structure SocketOk (R : Relay) (db : Option Db) (holds : ℕ → String → Prop) (es : List Event)
    (sock : Socket) : Prop where
  proved : ∀ hash key, sock.auth = some (hash, key) →
    Canonical hash ∧ Recorded R db es hash key ∧ holds sock.party key
  read : ∀ env, ServerFrame.message env ∈ sock.frames →
    ∃ key, sock.auth = some (env.recipient.asStr, key)

section step

variable {R : Relay} {db : Option Db} {holds : ℕ → String → Prop} {es : List Event} {sock : Socket}

theorem SocketOk.snoc (h : SocketOk R db holds es sock) (e : Event) :
    SocketOk R db holds (es ++ [e]) sock where
  proved hash key ha := by
    obtain ⟨hc, hr, hh⟩ := h.proved hash key ha
    exact ⟨hc, hr.snoc e, hh⟩
  read := h.read

/-- Frames that are for the mailbox the socket proved. -/
theorem SocketOk.append (h : SocketOk R db holds es sock) {frames : List ServerFrame}
    (hf : ∀ env, ServerFrame.message env ∈ frames → ∃ key, sock.auth = some (env.recipient.asStr, key)) :
    SocketOk R db holds es { sock with frames := sock.frames ++ frames } where
  proved := h.proved
  read env henv := (List.mem_append.mp henv).elim (h.read env) (hf env)

/-- A socket whose Auth frame is accepted. -/
theorem SocketOk.auth (h : SocketOk R db holds es sock) (first : sock.auth = none) {hash : String}
    {entry : DirectoryEntry} (hc : Canonical hash)
    (record : (after R db es).inner.directory.get hash = some entry)
    (hh : holds sock.party entry.signingKey) :
    SocketOk R db holds es { sock with auth := some (hash, entry.signingKey) } where
  proved hash' key ha := by
    cases ha
    exact ⟨hc, ⟨es, List.prefix_refl es, entry, record, rfl⟩, hh⟩
  read env henv := by
    obtain ⟨key, hk⟩ := h.read env henv
    rw [first] at hk
    cases hk

/-- What is flushed to a canonical hash is queued for it. -/
theorem recipient_of_flushed {st : MessageStore} (hfiled : Filed st) {hash : String}
    (hc : Canonical hash) {now : ℕ} {env : Envelope} (h : env ∈ flushed st hash now) :
    env.recipient.asStr = hash := by
  unfold flushed at h
  rw [show IdentityHash.fromHex hash = some ⟨hash⟩ from hc] at h
  exact hfiled hash env ((unexpired_sublist now _).subset h)

/-- Every socket stays within the mailbox it proved. -/
theorem socketOk_step {e : Event}
    (hok : ∀ n sock, (after R db es).sockets.get n = some sock → SocketOk R db holds es sock)
    (hc : Unforged R holds (after R db es) e ∧ SpelledCanonically (after R db es) e) {n : ChannelId}
    (hs : (sysStep R (after R db es) e).sockets.get n = some sock) :
    SocketOk R db holds (es ++ [e]) sock := by
  refine SocketOk.snoc ?_ e
  have hwired := wired_after R db es
  have hfiled := filed_after R db es
  have hmove := (socketStep R (after R db es) e).move n
  have hold := hok n
  rw [hs] at hmove
  generalize hs' : (after R db es).sockets.get n = o at hmove hold
  cases hmove with
  | kept => exact hold sock rfl
  | opened fresh => exact ⟨fun _ _ h => (nomatch h), fun _ h => (nomatch h)⟩
  | @heard sock' frames sent =>
    refine (hold sock' rfl).append fun env henv => ?_
    obtain hrev | ⟨env', hmsg, hfl⟩ := sent _ henv
    · cases hrev
    · -- a push was collected from the live channels of its recipient
      cases hmsg
      exact ((hwired.flight (env, n) hfl).2 sock' hs').2
  | @authed sock' frame now entry event first record signed =>
    subst event
    exact (hold sock' rfl).auth first (hc.2 entry record) record (hc.1 sock' hs' _ signed)
  | @subscribed sock' hash key now auth first =>
    have hsock := hold sock' rfl
    have hcanon := (hsock.proved hash key auth).1
    have hnew : SocketOk R db holds es { sock' with
        frames := sock'.frames ++ ((flushed (after R db es).inner.store hash now).map .message ++ [.ready]) } := by
      refine hsock.append fun env henv => ?_
      rcases List.mem_append.mp henv with henv | henv
      · obtain ⟨env', hmem, hframe⟩ := List.mem_map.mp henv
        cases hframe
        exact ⟨key, recipient_of_flushed hfiled hcanon hmem ▸ auth⟩
      · cases List.mem_singleton.mp henv
    rw [← List.append_assoc] at hnew
    exact ⟨hnew.proved, hnew.read⟩

theorem socketOk_after
    (h : Trace.Along (sysStep R) (fun s e => Unforged R holds s e ∧ SpelledCanonically s e)
    (start R db) es) :
    ∀ n sock, (after R db es).sockets.get n = some sock → SocketOk R db holds es sock := by
  refine Trace.Along.inv_history
    (I := fun es s => ∀ n sock, s.sockets.get n = some sock → SocketOk R db holds es sock) ?_ ?_ h
  · intro n sock hs
    cases hs
  · intro es e hok hc n sock hs
    exact socketOk_step hok hc hs

end step

/-- What a socket is sent and what its Acks delete is queued under the very
string it authenticated for; the directory had the key it proved for that
string, and whoever is at its other end holds it. -/
structure Isolated (R : Relay) (db : Option Db) (holds : ℕ → String → Prop) (es : List Event) :
    Prop where
  read : ∀ n sock env, (after R db es).sockets.get n = some sock →
    ServerFrame.message env ∈ sock.frames →
    ∃ key, sock.auth = some (env.recipient.asStr, key) ∧ Recorded R db es env.recipient.asStr key ∧
      holds sock.party key
  deleted : ∀ n msgId m,
    (sysStep R (after R db es) (.ack n msgId)).inner.store.entries m ≠ (after R db es).inner.store.entries m →
    ∃ sock key, (after R db es).sockets.get n = some sock ∧ sock.auth = some (m, key) ∧
    Recorded R db es m key ∧
      holds sock.party key

/-- **Mailbox isolation.** In a run whose Auth frames for a recorded hash are
spelled canonically, every mailbox is isolated. -/
theorem mailbox_isolation (R : Relay) (db : Option Db) (holds : ℕ → String → Prop) (es : List Event)
    (h : Trace.Along (sysStep R) (fun s e => Unforged R holds s e ∧ SpelledCanonically s e) (start R db) es) :
    Isolated R db holds es := by
  have hok := socketOk_after h
  constructor
  · intro n sock env hs henv
    obtain ⟨key, ha⟩ := (hok n sock hs).read env henv
    obtain ⟨-, hr, hh⟩ := (hok n sock hs).proved _ key ha
    exact ⟨key, ha, hr, hh⟩
  · intro n msgId m hne
    obtain ⟨sock, hash, key, recipient, hs, ha, hx, hm⟩ := ack_entries hne
    obtain ⟨hc, hr, hh⟩ := (hok n sock hs).proved hash key ha
    have hsame : m = hash := by
      rw [show IdentityHash.fromHex hash = some ⟨hash⟩ from hc] at hx
      cases hx
      exact hm
    subst hsame
    exact ⟨sock, key, hs, ha, hr, hh⟩

/-! ### Two runs -/

/-- The first party holds the key of the account, the others another one. -/
def bobHolds (other : String) (party : ℕ) (key : String) : Prop :=
  SameKey key (if party = 0 then bobKey else other)

theorem bobSubscribes_unforged : Trace.Along (sysStep (sampleRelay bobSigned))
    (fun s e => Unforged (sampleRelay bobSigned) (bobHolds bobKey) s e ∧ SpelledCanonically s e)
    (start (sampleRelay bobSigned) none) bobSubscribes := by
  refine ⟨⟨trivial, trivial⟩, ⟨trivial, trivial⟩, ⟨trivial, trivial⟩, ⟨trivial, trivial⟩, ⟨?_, ?_⟩,
    ⟨trivial, trivial⟩, trivial⟩
  · intro sock _ key hv
    obtain ⟨p, hp, -, hkey⟩ := verify_made hv
    have hall : ∀ p ∈ bobSigned, p.1 = bobKey := by decide +kernel
    rw [bobHolds, ite_self, ← hall p hp]
    exact hkey
  · exact fun _ _ => (by decide +kernel : Canonical bobHash)

/-- The socket of the account reads the message, and the account's key is what it proved. -/
theorem mailbox_isolation_bob :
    ∃ sock, (after (sampleRelay bobSigned) none bobSubscribes).sockets.get 0 = some sock ∧
    ∃ key, sock.auth = some (bobHash, key) ∧
    Recorded (sampleRelay bobSigned) none bobSubscribes bobHash key ∧
      bobHolds bobKey sock.party key := by
  have hread : ((after (sampleRelay bobSigned) none bobSubscribes).sockets.get 0).any (fun sock =>
      sock.frames.contains (.message ((mailTo bobHash "hello" "m1" none).clamped 1010))) = true := by decide +kernel
  cases hs : (after (sampleRelay bobSigned) none bobSubscribes).sockets.get 0 with
  | none => rw [hs] at hread; cases hread
  | some sock =>
    rw [hs] at hread
    exact ⟨sock, rfl, (mailbox_isolation _ none (bobHolds bobKey) bobSubscribes bobSubscribes_unforged).read 0 sock _ hs
      (List.contains_iff_mem.mp hread)⟩

/-- The name of the account in upper case. -/
def bobUpper : String := "81B637D8FCD2C6DA6359E6963113A1170DE795E4B725B84D1E0B4CFD9EC58CE9"

/-- Another key claims the name in upper case: for the log it is a new name. -/
def upperEntry : KtEntry :=
  { seq := 0, usernameHash := bobUpper, identityKey := malloryIdentity, signingKey := malloryKey
    prevSigningKey := none, timestamp := 1000, released := false
    signature := "p6Krpg10YX7d0uzHherwlGWt85Yw98b+oap8PX0avlHXOy/OlDM4vLC5QBfkRSLEb55Ygn1kjc4csI8si7OXAw" }

def upperAuth : AuthFrame :=
  { hash := bobUpper, nonce := sampleNonce
    signature := "PWMDTncCh+lpmN+o3dMi5kx9L3es8zhSfW1hLXsa0E14T1ULfT/Jt6+hdZvWlCLVS6lIvha83xb/xmd7aApqCA" }

def upperSigned : Signatures :=
  [(bobKey, bobEntry.signingPayload, bobEntry.signature), (malloryKey, upperEntry.signingPayload, upperEntry.signature),
    (malloryKey, wsAuthSigningMessage bobUpper sampleNonce, upperAuth.signature)]

/-- The other key registers the upper-case name and subscribes under it. -/
def upperSubscribes : List Event :=
  [bobRegisters, .send (some "10.0.0.9") (mailTo bobHash "hello" "m1" none) 1010,
    .register (some "10.0.0.2") none { entry := upperEntry, oneTimeKeys := [], fallbackKey := none } 1020,
    .challenge (some "10.0.0.2") bobUpper sampleNonce 1030, .connect "10.0.0.2" 1, .auth 0 upperAuth 1031,
    .subscribe 0 1031]

/-- **A name in upper case reads and empties the mailbox of the one in lower case.** -/
theorem upper_case_socket_reads_mailbox :
    ¬ ∀ (R : Relay) (db : Option Db) (holds : ℕ → String → Prop) (es : List Event),
      Trace.Along (sysStep R) (Unforged R holds) (start R db) es → Isolated R db holds es := by
  intro h
  have hrun : (((after (sampleRelay upperSigned) none upperSubscribes).sockets.get 0).map fun sock =>
      (sock.auth, sock.frames)) = some (some (bobUpper, malloryKey),
        [.message ((mailTo bobHash "hello" "m1" none).clamped 1010), .ready]) := by decide +kernel
  obtain ⟨sock, hs, hsock⟩ := Option.map_eq_some_iff.mp hrun
  obtain ⟨hauth, hframes⟩ := Prod.mk.injEq .. ▸ hsock
  have hunforged : Trace.Along (sysStep (sampleRelay upperSigned))
      (Unforged (sampleRelay upperSigned) fun _ key => SameKey key malloryKey)
      (start (sampleRelay upperSigned) none) upperSubscribes := by
    refine ⟨trivial, trivial, trivial, trivial, trivial, ?_, trivial, trivial⟩
    intro sock _ key hv
    obtain ⟨p, hp, hm, hkey⟩ := verify_made hv
    have hall : ∀ p ∈ upperSigned, p.2.1 = wsAuthSigningMessage bobUpper sampleNonce →
        p.1 = malloryKey := by
      decide +kernel
    rw [hall p hp hm] at hkey
    exact hkey
  -- the frame is for the lower-case name, the socket authenticated for the other
  obtain ⟨key, ha, -, -⟩ := (h _ none _ upperSubscribes hunforged).read 0 sock _ hs (hframes ▸ List.mem_cons_self)
  have hne : bobUpper ≠ bobHash := by decide +kernel
  rw [hauth, Option.some.injEq, Prod.mk.injEq] at ha
  exact hne ha.1

end Sona
