/-
# The ratchet engine

`RatchetEngine` of `crypto-core/src/ratchet.rs`: one Olm account, and for each
identity key of a peer a few live sessions, the one that proved live last in front.
What it uses of vodozemac is a parameter (`Vodozemac`), with what its documentation
promises named where it is needed (`Vodozemac.Lawful`).

A message that starts a session names it, and is for the session that has that name
if there is one; any other message is tried on all sessions. What an operation
creates or opens a message with is `RatchetEngine.used`.

Key definitions: `Vodozemac`, `RatchetEngine`, `RatchetOp`, `RatchetEngine.used`,
`Vodozemac.Lawful`.
-/
import Sona.Lib.Recent
import Sona.Relay
import Sona.Reopen

namespace Sona

/-- Of the Olm library what the engine uses. What a call draws at random is an argument. -/
structure Vodozemac where
  Account : Type
  Session : Type
  Curve25519PublicKey : Type
  /-- A message that starts a session, with the handshake in it. -/
  PreKeyMessage : Type
  Message : Type
  Draw : Type
  newAccount : Draw → Account
  curve25519Key : Account → Curve25519PublicKey
  ed25519Key : Account → String
  generateOneTimeKeys : Account → ℕ → Draw → List Curve25519PublicKey × Account
  markKeysAsPublished : Account → Account
  generateFallbackKey : Account → Draw → Account
  fallbackKey : Account → List Curve25519PublicKey
  createOutboundSession : Account → Curve25519PublicKey → Curve25519PublicKey → Draw →
    Except String Session
  createInboundSession : Account → Curve25519PublicKey → PreKeyMessage →
    Except String (Session × Bytes) × Account
  sessionId : Session → String
  encrypt : Session → String → Draw → Except String (PreKeyMessage ⊕ Message) × Session
  decrypt : Session → PreKeyMessage ⊕ Message → Except String Bytes × Session
  preKeyIdentityKey : PreKeyMessage → Curve25519PublicKey
  preKeySessionId : PreKeyMessage → String
  toBase64 : Curve25519PublicKey → String
  fromBase64 : String → Except String Curve25519PublicKey
  base64Encode : Bytes → String
  base64Decode : String → Except String Bytes
  toParts : PreKeyMessage ⊕ Message → ℕ × Bytes
  fromParts : ℕ → Bytes → Except String (PreKeyMessage ⊕ Message)
  AccountPickle : Type
  SessionPickle : Type
  pickleAccount : Account → AccountPickle
  accountFromPickle : AccountPickle → Account
  pickleSession : Session → SessionPickle
  sessionFromPickle : SessionPickle → Session
  accountToJson : AccountPickle → Json
  accountOfJson : Json → Option AccountPickle
  sessionToJson : SessionPickle → Json
  sessionOfJson : Json → Option SessionPickle

namespace Vodozemac

/-- `OlmMessage::PreKey` on the left, `OlmMessage::Normal` on the right. -/
abbrev OlmMessage (V : Vodozemac) : Type := V.PreKeyMessage ⊕ V.Message

end Vodozemac

/-- How many live sessions are kept for a peer. -/
def maxSessionsPerPeer : ℕ := 5

structure CiphertextMessage where
  messageType : ℕ
  body : String
deriving DecidableEq, Repr

/-- `invalidUtf8` is `Decrypt` with the text "invalid utf8: " and what `from_utf8` says of the
bytes; `state` has no text, which is that of the JSON library. -/
inductive RatchetError
  | noSession
  | malformed (text : String)
  | encrypt (text : String)
  | decrypt (text : String)
  | invalidUtf8 (bytes : Bytes)
  | establish (text : String)
  | state
deriving DecidableEq, Repr

/-- `String::from_utf8`. -/
def fromUtf8 (bytes : Bytes) : Option String :=
  if h : (ByteArray.mk bytes.toArray).IsValidUTF8 then some (String.fromUTF8 _ h) else none

/-- One account, and the sessions by the identity key of the peer. -/
structure RatchetEngine (V : Vodozemac) where
  account : V.Account
  sessions : Table String (List V.Session) := ∅

namespace RatchetEngine

variable {V : Vodozemac} (e : RatchetEngine V)

def new (d : V.Draw) : RatchetEngine V := { account := V.newAccount d }

def identityKey : String := V.toBase64 (V.curve25519Key e.account)

def signingKey : String := V.ed25519Key e.account

def generateOneTimeKeys (count : ℕ) (d : V.Draw) : List String × RatchetEngine V :=
  let (created, account) := V.generateOneTimeKeys e.account count d
  (created.map V.toBase64, { e with account := V.markKeysAsPublished account })

def generateFallbackKey (d : V.Draw) : String × RatchetEngine V :=
  let account := V.generateFallbackKey e.account d
  (((V.fallbackKey account).head?.map V.toBase64).getD "", { e with account })

/-- None where no key was generated, on which the code panics. -/
def createBundle (d : V.Draw) : Option PreKeyBundle × RatchetEngine V :=
  let (keys, e) := e.generateOneTimeKeys 1 d
  (keys.head?.map fun oneTimeKey => { identityKey := e.identityKey, signingKey := e.signingKey, oneTimeKey }, e)

/-- The sessions of a peer, none if the map has no entry. -/
def list (peer : String) : List V.Session := (e.sessions.get peer).getD []

def hasSession (peer : String) : Bool := (e.sessions.get peer).any fun l => !l.isEmpty

def pushSession (peer : String) (session : V.Session) : RatchetEngine V :=
  { e with sessions := e.sessions.set peer (Recent.push maxSessionsPerPeer session (e.list peer)) }

/-- The session at a place, after a call that changed it. -/
def putSession (peer : String) (idx : ℕ) (session : V.Session) : RatchetEngine V :=
  { e with sessions := e.sessions.set peer ((e.list peer).set idx session) }

def promoteSession (peer : String) (idx : ℕ) : RatchetEngine V :=
  { e with sessions := e.sessions.modify peer (Recent.promote idx) }

def establishOutbound (bundle : PreKeyBundle) (d : V.Draw) :
    Except RatchetError Unit × RatchetEngine V :=
  if e.hasSession bundle.identityKey then (.ok (), e) else
  match V.fromBase64 bundle.identityKey with
  | .error t => (.error (.malformed ("identity_key: " ++ t)), e)
  | .ok identityKey =>
    match V.fromBase64 bundle.oneTimeKey with
    | .error t => (.error (.malformed ("one_time_key: " ++ t)), e)
    | .ok oneTimeKey =>
      match V.createOutboundSession e.account identityKey oneTimeKey d with
      | .error t => (.error (.establish t), e)
      | .ok session => (.ok (), e.pushSession bundle.identityKey session)

/-- The session in front encrypts. -/
def encrypt (peer plaintext : String) (d : V.Draw) :
    Except RatchetError CiphertextMessage × RatchetEngine V :=
  match (e.list peer).head? with
  | none => (.error .noSession, e)
  | some session =>
    match V.encrypt session plaintext d with
    | (.error t, session) => (.error (.encrypt t), e.putSession peer 0 session)
    | (.ok olm, session) =>
      (.ok { messageType := (V.toParts olm).1, body := V.base64Encode (V.toParts olm).2 }, e.putSession peer 0 session)

/-- A body that is taken for a message. -/
def parse (msg : CiphertextMessage) : Except RatchetError V.OlmMessage :=
  match V.base64Decode msg.body with
  | .error t => .error (.malformed ("body: " ++ t))
  | .ok body =>
    match V.fromParts msg.messageType body with
    | .error t => .error (.malformed t)
    | .ok olm => .ok olm

/-- The sessions of a list are tried in turn, up to one that opens the message. -/
def openFirst (olm : V.OlmMessage) : List V.Session → Option (ℕ × Bytes) × List V.Session
  | [] => (none, [])
  | s :: ss =>
    match V.decrypt s olm with
    | (.ok bytes, s) => (some (0, bytes), s :: ss)
    | (.error _, s) =>
      let r := openFirst olm ss
      (r.1.map fun hit => (hit.1 + 1, hit.2), s :: r.2)

/-- And so are the lists, in the order in which the map hands out its peers. -/
def openAny (olm : V.OlmMessage) : List String → Table String (List V.Session) →
    Option (String × ℕ × Bytes) × Table String (List V.Session)
  | [], t => (none, t)
  | peer :: peers, t =>
    match t.get peer with
    | none => openAny olm peers t
    | some l =>
      match openFirst olm l with
      | (some hit, l) => (some (peer, hit), t.set peer l)
      | (none, l) => openAny olm peers (t.set peer l)

/-- The plaintext of a sender, as text. -/
def text (sender : String) (bytes : Bytes) : Except RatchetError (String × String) :=
  match fromUtf8 bytes with
  | some text => .ok (sender, text)
  | none => .error (.invalidUtf8 bytes)

/-- The first session of a list that has the id, and its place. -/
def withId (wanted : String) (l : List V.Session) : Option (V.Session × ℕ) :=
  l.zipIdx.find? fun p => V.sessionId p.1 = wanted

def decryptPreKey (preKey : V.PreKeyMessage) :
    Except RatchetError (String × String) × RatchetEngine V :=
  let sender := V.toBase64 (V.preKeyIdentityKey preKey)
  match withId (V.preKeySessionId preKey) (e.list sender) with
  | some (session, idx) =>
    -- a session that is held opens it, or nothing does
    match V.decrypt session (.inl preKey) with
    | (.error t, session) => (.error (.decrypt t), e.putSession sender idx session)
    | (.ok bytes, session) => (text sender bytes, (e.putSession sender idx session).promoteSession sender idx)
  | none =>
    match V.createInboundSession e.account (V.preKeyIdentityKey preKey) preKey with
    | (.error t, account) => (.error (.establish t), { e with account })
    | (.ok (session, bytes), account) =>
      (text sender bytes, { e with account }.pushSession sender session)

/-- The order is the one in which the map hands out its peers. -/
def decryptNormal (order : List String) (message : V.Message) :
    Except RatchetError (String × String) × RatchetEngine V :=
  match openAny (.inr message) order e.sessions with
  | (none, sessions) => (.error .noSession, { e with sessions })
  | (some (sender, idx, bytes), sessions) =>
    (text sender bytes, { e with sessions }.promoteSession sender idx)

def decryptOlm (order : List String) :
    V.OlmMessage → Except RatchetError (String × String) × RatchetEngine V
  | .inl preKey => e.decryptPreKey preKey
  | .inr message => e.decryptNormal order message

def decryptUnattributed (order : List String) (msg : CiphertextMessage) :
    Except RatchetError (String × String) × RatchetEngine V :=
  match parse msg with
  | .error err => (.error err, e)
  | .ok olm => e.decryptOlm order olm

def decrypt (peer : String) (msg : CiphertextMessage) :
    Except RatchetError String × RatchetEngine V :=
  match parse (V := V) msg with
  | .error err => (.error err, e)
  | .ok (.inl preKey) =>
    match e.decryptPreKey preKey with
    | (.error err, e) => (.error err, e)
    | (.ok (sender, text), e) =>
      if sender = peer then (.ok text, e)
      else (.error (.decrypt "pre-key message is from a different identity"), e)
  | .ok (.inr message) =>
    match e.sessions.get peer with
    | none => (.error .noSession, e)
    | some l =>
      match openFirst (.inr message) l with
      | (none, l) => (.error .noSession, { e with sessions := e.sessions.set peer l })
      | (some (idx, bytes), l) =>
        ((text peer bytes).map (·.2), { e with sessions := e.sessions.set peer l }.promoteSession peer idx)

def removeSessions (peer : String) : Bool × RatchetEngine V :=
  ((e.sessions.get peer).isSome, { e with sessions := e.sessions.remove peer })

/-! ### Storage -/

def exportState : Bytes :=
  toVec (.obj [("account", V.accountToJson (V.pickleAccount e.account)),
    ("sessions", .obj (e.sessions.entries.map fun p =>
      (p.1, .arr (p.2.map fun s => V.sessionToJson (V.pickleSession s)))))])

/-- `SessionSlot`, untagged: a list of pickles, or one as older vaults have it. -/
def slotOfJson (j : Json) : Option (List V.SessionPickle) :=
  match j.asArr.bind (Json.readAll V.sessionOfJson) with
  | some pickles => some pickles
  | none => (V.sessionOfJson j).map fun pickle => [pickle]

/-- The entries of the map, of which the last one of a name counts. -/
def slotsOfJson :
    List (String × Json) → Table String (List V.Session) → Option (Table String (List V.Session))
  | [], t => some t
  | (id, j) :: fields, t => do
    let pickles ← slotOfJson j
    slotsOfJson fields (t.set id (pickles.map V.sessionFromPickle))

def ofJson (j : Json) : Option (RatchetEngine V) := do
  let account ← V.accountOfJson (← j.field "account")
  match ← j.field "sessions" with
  | .obj fields => do
    let sessions ← slotsOfJson fields ∅
    some { account := V.accountFromPickle account, sessions }
  | _ => none

def importState (fromSlice : Bytes → Option Json) (bytes : Bytes) :
    Except RatchetError (RatchetEngine V) :=
  match (fromSlice bytes).bind ofJson with
  | some e => .ok e
  | none => .error .state

end RatchetEngine

/-! ### Runs -/

/-- What may be done to an engine. `reopen` is to export its state and to go on with what the import
of this export gives; the import of an older export is not among the steps. -/
inductive RatchetOp (V : Vodozemac)
  | generateOneTimeKeys (count : ℕ) (d : V.Draw)
  | generateFallbackKey (d : V.Draw)
  | createBundle (d : V.Draw)
  | establishOutbound (bundle : PreKeyBundle) (d : V.Draw)
  | encrypt (peer plaintext : String) (d : V.Draw)
  | decrypt (peer : String) (msg : CiphertextMessage)
  | decryptUnattributed (order : List String) (msg : CiphertextMessage)
  | removeSessions (peer : String)
  | reopen

/-- A state that cannot be imported leaves no engine to go on with: the one in memory stays. -/
def RatchetEngine.step {V : Vodozemac} (fromSlice : Bytes → Option Json) (e : RatchetEngine V) :
    RatchetOp V → RatchetEngine V
  | .generateOneTimeKeys count d => (e.generateOneTimeKeys count d).2
  | .generateFallbackKey d => (e.generateFallbackKey d).2
  | .createBundle d => (e.createBundle d).2
  | .establishOutbound bundle d => (e.establishOutbound bundle d).2
  | .encrypt peer plaintext d => (e.encrypt peer plaintext d).2
  | .decrypt peer msg => (e.decrypt peer msg).2
  | .decryptUnattributed order msg => (e.decryptUnattributed order msg).2
  | .removeSessions peer => (e.removeSessions peer).2
  | .reopen =>
    match RatchetEngine.importState fromSlice e.exportState with
    | .ok e => e
    | .error _ => e

/-! ### What an operation uses -/

namespace RatchetEngine

variable {V : Vodozemac} (e : RatchetEngine V)

def opens (olm : V.OlmMessage) (s : V.Session) : Bool := (V.decrypt s olm).1.isOk

/-- The session that a message opens, or that it creates: the peer and the id. -/
def usedBy (order : List String) : V.OlmMessage → Option (String × String)
  | .inl preKey =>
    let sender := V.toBase64 (V.preKeyIdentityKey preKey)
    match withId (V.preKeySessionId preKey) (e.list sender) with
    | some (session, _) => if opens (.inl preKey) session then some (sender, V.preKeySessionId preKey) else none
    | none =>
      if (V.createInboundSession e.account (V.preKeyIdentityKey preKey) preKey).1.isOk then
        some (sender, V.preKeySessionId preKey)
      else none
  | .inr message =>
    (order.find? fun peer => (e.list peer).any (opens (.inr message))).bind fun peer =>
      ((e.list peer).find? (opens (.inr message))).map fun s => (peer, V.sessionId s)

/-- The session that a bundle starts. -/
def outbound (bundle : PreKeyBundle) (d : V.Draw) : Option V.Session :=
  if e.hasSession bundle.identityKey then none else do
    let identityKey ← (V.fromBase64 bundle.identityKey).toOption
    let oneTimeKey ← (V.fromBase64 bundle.oneTimeKey).toOption
    (V.createOutboundSession e.account identityKey oneTimeKey d).toOption

/-- The session that an operation creates, or that it opens a message with. -/
def used : RatchetOp V → Option (String × String)
  | .establishOutbound bundle d => (e.outbound bundle d).map fun s =>
    (bundle.identityKey, V.sessionId s)
  | .decrypt peer msg => (parse msg).toOption.bind (e.usedBy [peer])
  | .decryptUnattributed order msg => (parse msg).toOption.bind (e.usedBy order)
  | _ => none

end RatchetEngine

/-- What the documentation of vodozemac promises: a failed decrypt leaves the session as it
was, a session keeps its id, which is that of the message it was created from,
and pickles are read back. -/
structure Vodozemac.Lawful (V : Vodozemac) : Prop where
  failed : ∀ s olm t, (V.decrypt s olm).1 = .error t → (V.decrypt s olm).2 = s
  decrypt_id : ∀ s olm, V.sessionId (V.decrypt s olm).2 = V.sessionId s
  encrypt_id : ∀ s plaintext d, V.sessionId (V.encrypt s plaintext d).2 = V.sessionId s
  inbound_id : ∀ a key preKey s bytes, (V.createInboundSession a key preKey).1 = .ok (s, bytes) →
    V.sessionId s = V.preKeySessionId preKey
  account_pickle : ∀ a, V.accountFromPickle (V.pickleAccount a) = a
  session_pickle : ∀ s, V.sessionFromPickle (V.pickleSession s) = s
  account_json : ∀ p, V.accountOfJson (V.accountToJson p) = some p
  session_json : ∀ p, V.sessionOfJson (V.sessionToJson p) = some p

end Sona
