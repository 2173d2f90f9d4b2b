/-
# Voice calls

`run_call` of `client-core/src/call.rs`, a call of two: every 20 ms what is captured
(silence while muted) is encoded, padded and sealed, and what arrives is opened, decoded and
played. A frame that does not open is dropped. When nothing arrived and the speaker has
run dry a frame is made up, for 300 ms at most (`Conceal`).

One end of a room, a key schedule and a decoder, is a machine of its own (`Line`), and so
it is in a call of many. Whatever the relay drops, repeats, reorders or makes up, what is
played is, in order and each once, what the other end encoded (`call_carries`).

The codec and the floating-point arithmetic of volumes are parameters (`Sound`).

Key definitions: `Sound`, `Line`, `Conceal`, `CallRun`, `voiceStep`.
Key theorems: `line_said`, `line_heard`, `line_carries`, `call_carries`.
-/
import Sona.Cells
import Sona.Lib.Base64
import Sona.Lib.Observe

namespace Sona

/-! ### Sound -/

/-- 20 ms of 48 kHz mono. -/
def samplesPerFrame : ℕ := 960

abbrev Frame := Fin samplesPerFrame → Int16

def silence : Frame := fun _ => 0

/-- What is outside of the program: the codec, and a sample times the factor of a percentage. -/
structure Sound where
  Encoder : Type
  Decoder : Type
  encode : Encoder → Frame → Except String Bytes × Encoder
  /-- The samples that are written, or an error. -/
  decode : Decoder → Bytes → Option (List Int16) × Decoder
  conceal : Decoder → Option (List Int16) × Decoder
  scale : ℕ → Int16 → Int16

/-- A buffer of which the front is written. -/
def overwrite (buf : Frame) (samples : List Int16) : Frame := fun i => samples[i.val]?.getD (buf i)

/-- A frame begins with the samples. -/
def Shows (samples : List Int16) (frame : Frame) : Prop :=
  ∀ i x, samples[i.val]? = some x → frame i = x

theorem shows_overwrite (buf : Frame) (samples : List Int16) :
    Shows samples (overwrite buf samples) := by
  intro i x hx
  unfold overwrite
  rw [hx]
  rfl

/-- A packet is decoded, or a lost one is concealed. -/
def Sound.take (S : Sound) (d : S.Decoder) : Option Bytes → Option (List Int16) × S.Decoder
  | some packet => S.decode d packet
  | none => S.conceal d

/-- What a decoder makes of a stream of packets with gaps. -/
def decodeAll (S : Sound) : S.Decoder → List (Option Bytes) → List (List Int16)
  | _, [] => []
  | d, item :: items => (S.take d item).1.toList ++ decodeAll S (S.take d item).2 items

/-! ### The keys of the two ends -/

/-- `hkdf` is HKDF-SHA256 without a salt, of the call key and the info. -/
def CallKeys.derive (hkdf : Bytes → Bytes → Bytes) (key : String) (caller : Bool) :
    Except String CallKeys :=
  match decodeBase64 (utf8 key) with
  | none => .error "bad call key"
  | some raw =>
    if raw.length ≠ 32 then .error "bad call key length" else
    let a := hkdf raw (utf8 "sona-call-v1 caller->callee")
    let b := hkdf raw (utf8 "sona-call-v1 callee->caller")
    .ok { sealKey := if caller then a else b, openKey := if caller then b else a, sendSeq := 0, recvLast := none }

/-- The two ends derive keys that are in sync, or neither derives any. -/
theorem derive_ends (hkdf : Bytes → Bytes → Bytes) (key : String) (caller : Bool) :
    (∃ e e', CallKeys.derive hkdf key caller = .error e ∧
      CallKeys.derive hkdf key (!caller) = .error e') ∨
    ∃ k o, CallKeys.derive hkdf key caller = .ok k ∧ CallKeys.derive hkdf key (!caller) = .ok o ∧
    FramesInSync k o ∧
      k.sendSeq = 0 := by
  unfold CallKeys.derive
  cases decodeBase64 (utf8 key) with
  | none => exact Or.inl ⟨_, _, rfl, rfl⟩
  | some raw =>
    by_cases hlen : raw.length ≠ 32
    · simp only [if_pos hlen]
      exact Or.inl ⟨_, _, rfl, rfl⟩
    · simp only [if_neg hlen]
      refine Or.inr ⟨_, _, rfl, rfl, ⟨?_, fun last h => nomatch h⟩, rfl⟩
      cases caller <;> rfl

/-! ### One end of a room -/

structure Line (S : Sound) where
  keys : CallKeys
  decoder : S.Decoder

inductive LineInput
  /-- A frame of the relay, and the buffer that is decoded into. -/
  | hear (wire : Bytes) (buf : Frame)
  | say (packet : Bytes)
  /-- A gap is filled. -/
  | fill (buf : Frame)
  | hangUp

/-- A packet that decodes is in the buffer then. -/
def Line.take {S : Sound} (l : Line S) (item : Option Bytes) (buf : Frame) :
    Option Frame × Line S :=
  let (samples, decoder) := S.take l.decoder item
  (samples.map (overwrite buf), { l with decoder })

/-- A frame that opens and decodes is in the buffer then. -/
def Line.hear (A : Aead) {S : Sound} (l : Line S) (wire : Bytes) (buf : Frame) :
    Option Frame × Line S :=
  match l.keys.openFrame A wire with
  | (.error _, keys) => (none, { l with keys })
  | (.ok packet, keys) => { l with keys }.take packet buf

def lineStep (A : Aead) {S : Sound} : Option (Line S) → LineInput → Option (Line S)
  | none, _ => none
  | some l, .hear wire buf => some (l.hear A wire buf).2
  | some l, .say packet => some { l with keys := (l.keys.sealFrame A packet).2 }
  | some l, .fill buf => some (l.take none buf).2
  | some _, .hangUp => none

section logs

variable (A : Aead) {S : Sound}

/-- The packets that are to be sealed. -/
def saying : Option (Line S) → LineInput → List Bytes
  | some _, .say packet => [packet]
  | _, _ => []

/-- The frames that are sealed. -/
def said : Option (Line S) → LineInput → List Bytes
  | some l, .say packet => (l.keys.sealFrame A packet).1.toOption.toList
  | _, _ => []

/-- The frames that arrive. -/
def hearing : Option (Line S) → LineInput → List Bytes
  | some _, .hear wire _ => [wire]
  | _, _ => []

/-- The packets that are opened, and the gaps that are filled. -/
def stream : Option (Line S) → LineInput → List (Option Bytes)
  | some l, .hear wire _ => (l.keys.openFrame A wire).1.toOption.toList.map some
  | some _, .fill _ => [none]
  | _, _ => []

/-- The sound that is heard. -/
def sounded : Option (Line S) → LineInput → List Frame
  | some l, .hear wire buf => (l.hear A wire buf).1.toList
  | some l, .fill buf => (l.take none buf).1.toList
  | _, _ => []

end logs

section line

variable {A : Aead} {S : Sound}

theorem gone_run {B : Type} {f : Option (Line S) → LineInput → List B} (hf : ∀ i, f none i = [])
    (ins : List LineInput) :
    Trace.observe (lineStep A) f none ins = [] :=
  Trace.observe_eq_nil (I := fun l => l = none) (fun _ _ hl => by subst hl; rfl)
    (fun _ i hl => by subst hl; exact hf i) ins rfl

/-- Opening does not change what is sealed, nor sealing what is opened. -/
theorem openFrame_sealing (k : CallKeys) (wire : Bytes) :
    (k.openFrame A wire).2.sealKey = k.sealKey ∧ (k.openFrame A wire).2.sendSeq = k.sendSeq := by
  unfold CallKeys.openFrame
  dsimp only
  split
  · exact ⟨rfl, rfl⟩
  split
  · exact ⟨rfl, rfl⟩
  split
  · exact ⟨rfl, rfl⟩
  split <;> exact ⟨rfl, rfl⟩

theorem sealFrame_opening (k : CallKeys) (packet : Bytes) :
    (k.sealFrame A packet).2.openKey = k.openKey ∧
    (k.sealFrame A packet).2.recvLast = k.recvLast := by
  unfold CallKeys.sealFrame
  split <;> exact ⟨rfl, rfl⟩

theorem sealFrames_congr :
    ∀ (packets : List Bytes) {k k' : CallKeys}, k'.sealKey = k.sealKey → k'.sendSeq = k.sendSeq →
    k'.sealFrames A packets = k.sealFrames A packets
  | [], _, _, _, _ => rfl
  | packet :: packets, k, k', hkey, hseq => by
    unfold CallKeys.sealFrames CallKeys.sealFrame
    by_cases hlen : packet.length > paddedPlaintext - 2
    · simp only [if_pos hlen]
      rw [sealFrames_congr packets hkey hseq]
    · simp only [if_neg hlen, hkey, hseq]
      have hrest : CallKeys.sealFrames A { k' with sealKey := k.sealKey, sendSeq := (k.sendSeq + 1) % 2 ^ 64 } packets =
          CallKeys.sealFrames A { k with sendSeq := (k.sendSeq + 1) % 2 ^ 64 } packets := sealFrames_congr packets rfl rfl
      rw [hrest]

theorem openFrames_congr :
    ∀ (wires : List Bytes) {k k' : CallKeys}, k'.openKey = k.openKey → k'.recvLast = k.recvLast →
    k'.openFrames A wires = k.openFrames A wires
  | [], _, _, _, _ => rfl
  | wire :: wires, k, k', hkey, hlast => by
    have hopen : (k'.openFrame A wire).1 = (k.openFrame A wire).1 ∧
        (k'.openFrame A wire).2.openKey = (k.openFrame A wire).2.openKey ∧
        (k'.openFrame A wire).2.recvLast = (k.openFrame A wire).2.recvLast := by
      unfold CallKeys.openFrame
      rw [hkey, hlast]
      dsimp only
      split
      · exact ⟨rfl, hkey, hlast⟩
      split
      · exact ⟨rfl, hkey, hlast⟩
      split
      · exact ⟨rfl, hkey, hlast⟩
      split
      · exact ⟨rfl, hkey, hlast⟩
      · exact ⟨rfl, rfl, rfl⟩
    have hrest := openFrames_congr wires hopen.2.1 hopen.2.2
    unfold CallKeys.openFrames
    dsimp only
    rw [hopen.1, hrest]

theorem hear_keys (l : Line S) (wire : Bytes) (buf : Frame) :
    (l.hear A wire buf).2.keys = (l.keys.openFrame A wire).2 := by
  unfold Line.hear
  rcases l.keys.openFrame A wire with ⟨_ | _, _⟩ <;> rfl

/-- What an end says is what its keys seal of its packets. -/
theorem line_said : ∀ (ins : List LineInput) (l : Line S),
    Trace.observe (lineStep A) (said A) (some l) ins =
      l.keys.sealFrames A (Trace.observe (lineStep A) saying (some l) ins)
  | [], _ => rfl
  | .hear wire buf :: ins, l => by
    have hsame := openFrame_sealing (A := A) l.keys wire
    have hrest := line_said ins (l.hear A wire buf).2
    rw [hear_keys, sealFrames_congr _ hsame.1 hsame.2] at hrest
    exact hrest
  | .say packet :: ins, l => by
    have hrest := line_said ins { l with keys := (l.keys.sealFrame A packet).2 }
    rw [Trace.observe_cons, Trace.observe_cons]
    change _ ++ Trace.observe (lineStep A) (said A)
      (some { l with keys := (l.keys.sealFrame A packet).2 }) ins = _
    rw [hrest]
    rfl
  | .fill buf :: ins, l => line_said ins (l.take none buf).2
  | .hangUp :: ins, l => by
    change Trace.observe (lineStep A) (said A) none ins =
      l.keys.sealFrames A (Trace.observe (lineStep A) saying none ins)
    rw [gone_run (fun _ => rfl), gone_run (fun _ => rfl)]
    rfl

theorem take_shows (l : Line S) (item : Option Bytes) (buf : Frame) {items : List (Option Bytes)}
    {frames : List Frame}
    (h : List.Forall₂ Shows (decodeAll S (l.take item buf).2.decoder items) frames) :
    List.Forall₂ Shows (decodeAll S l.decoder (item :: items)) ((l.take item buf).1.toList ++ frames) := by
  unfold decodeAll
  unfold Line.take at h ⊢
  dsimp only at h ⊢
  rcases htake : S.take l.decoder item with ⟨_ | samples, decoder⟩
  · rw [htake] at h
    exact h
  · rw [htake] at h
    exact .cons (shows_overwrite buf samples) h

/-- What an end hears is what its decoder makes of the packets that it opened
and of the gaps between them. -/
theorem line_heard : ∀ (ins : List LineInput) (l : Line S),
    (Trace.observe (lineStep A) (stream A) (some l) ins).filterMap id =
        l.keys.openFrames A (Trace.observe (lineStep A) hearing (some l) ins) ∧
      List.Forall₂ Shows (decodeAll S l.decoder (Trace.observe (lineStep A) (stream A) (some l) ins))
        (Trace.observe (lineStep A) (sounded A) (some l) ins)
  | [], _ => ⟨rfl, .nil⟩
  | .hear wire buf :: ins, l => by
    obtain ⟨hopened, hshows⟩ := line_heard ins (l.hear A wire buf).2
    rw [hear_keys] at hopened
    simp only [Trace.observe_cons, lineStep, stream, hearing, sounded, List.singleton_append,
      CallKeys.openFrames, List.filterMap_append, hopened]
    unfold Line.hear at hshows ⊢
    rcases hopen : l.keys.openFrame A wire with ⟨_ | packet, keys⟩
    · rw [hopen] at hshows
      exact ⟨rfl, hshows⟩
    · rw [hopen] at hshows
      exact ⟨rfl, take_shows { l with keys } (some packet) buf hshows⟩
  | .say packet :: ins, l => by
    obtain ⟨hopened, hshows⟩ := line_heard ins { l with keys := (l.keys.sealFrame A packet).2 }
    have hsame := sealFrame_opening (A := A) l.keys packet
    rw [openFrames_congr _ hsame.1 hsame.2] at hopened
    exact ⟨hopened, hshows⟩
  | .fill buf :: ins, l => by
    obtain ⟨hopened, hshows⟩ := line_heard ins (l.take none buf).2
    exact ⟨hopened, take_shows l none buf hshows⟩
  | .hangUp :: ins, l => by
    simp only [Trace.observe_cons, lineStep, stream, hearing, sounded, List.nil_append]
    rw [gone_run (fun _ => rfl), gone_run (fun _ => rfl), gone_run (fun _ => rfl)]
    exact ⟨rfl, .nil⟩

/-- Where no gap is filled, an end hears packets only. -/
theorem stream_unfilled :
    ∀ (ins : List LineInput) (l : Option (Line S)), (∀ i ∈ ins, ∀ buf, i ≠ .fill buf) →
    Trace.observe (lineStep A) (stream A) l ins =
      ((Trace.observe (lineStep A) (stream A) l ins).filterMap id).map some
  | [], _, _ => rfl
  | i :: ins, l, h => by
    have hrest := stream_unfilled ins (lineStep A l i) fun j hj => h j (List.mem_cons_of_mem i hj)
    have hfirst : stream A l i = ((stream A l i).filterMap id).map some := by
      cases l with
      | none => rfl
      | some l =>
        cases i with
        | hear wire buf =>
          unfold stream
          dsimp only
          cases (l.keys.openFrame A wire).1 <;> rfl
        | fill buf => exact absurd rfl (h _ List.mem_cons_self buf)
        | _ => rfl
    rw [Trace.observe_cons, List.filterMap_append, List.map_append, ← hfirst, ← hrest]

/-- A packet that a frame has room for. -/
def fits (packet : Bytes) : Bool := packet.length ≤ paddedPlaintext - 2

theorem sealFrames_fits : ∀ (packets : List Bytes) (k : CallKeys),
    k.sealFrames A packets = k.sealFrames A (packets.filter fits) ∧
      (k.sealFrames A packets).length = (packets.filter fits).length
  | [], _ => ⟨rfl, rfl⟩
  | packet :: packets, k => by
    by_cases hfits : packet.length ≤ paddedPlaintext - 2
    · have hrest := sealFrames_fits packets { k with sendSeq := (k.sendSeq + 1) % 2 ^ 64 }
      rw [List.filter_cons_of_pos (by simpa [fits] using hfits)]
      unfold CallKeys.sealFrames CallKeys.sealFrame
      simp only [if_neg (Nat.not_lt.mpr hfits)]
      rw [← hrest.1]
      exact ⟨rfl, by simpa [Except.toOption] using hrest.2⟩
    · have hrest := sealFrames_fits packets k
      rw [List.filter_cons_of_neg (by simpa [fits] using hfits)]
      have hskip : k.sealFrames A (packet :: packets) = k.sealFrames A packets := by
        conv_lhs => unfold CallKeys.sealFrames CallKeys.sealFrame
        simp only [if_pos (Nat.lt_of_not_le hfits)]
        rfl
      rw [hskip]
      exact hrest

/-- **Two ends of a room.** Whatever is delivered to the one end, the packets that it opens are
packets that the other end said, in order and each at most once. -/
theorem line_carries (hA : A.Opens) {S' : Sound} {l : Line S} {m : Line S'}
    (hsync : FramesInSync l.keys m.keys) (ins ins' : List LineInput)
    (hcount : l.keys.sendSeq + (Trace.observe (lineStep A) (said A) (some l) ins).length < 2 ^ 64)
    (hdelivered : ∀ w ∈ Trace.observe (lineStep A) hearing (some m) ins',
      w ∈ Trace.observe (lineStep A) (said A) (some l) ins ∨ decryptFrame A m.keys.openKey w = none) :
    ((Trace.observe (lineStep A) (stream A) (some m) ins').filterMap id).Sublist
      (Trace.observe (lineStep A) saying (some l) ins) := by
  rw [line_said] at hcount hdelivered
  obtain ⟨heq, hlen⟩ := sealFrames_fits (A := A) (Trace.observe (lineStep A) saying (some l) ins) l.keys
  rw [hlen] at hcount
  have hfits : ∀ p ∈ (Trace.observe (lineStep A) saying (some l) ins).filter fits, p.length ≤
      paddedPlaintext - 2 := by
    intro p hp
    simpa [fits] using (List.mem_filter.mp hp).2
  rw [heq] at hdelivered
  have hsub := (frames_in_order hA hsync hfits hcount).sublist _ hdelivered
  rw [(line_heard ins' m).1]
  exact hsub.trans List.filter_sublist

end line

/-! ### Gaps -/

/-- Playout gaps. -/
structure Conceal where
  gotFrame : Bool := false
  seenAny : Bool := false
  run : ℕ := 0

/-- 300 ms. -/
def Conceal.maxRun : ℕ := 15

def Conceal.onFrame : Conceal := { gotFrame := true, seenAny := true, run := 0 }

/-- Whether playout wants a frame that is made up, of a tick that finds so many frames queued. -/
def Conceal.tick (c : Conceal) (playoutQueued : Option ℕ) : Bool × Conceal :=
  let c' := { c with gotFrame := false }
  if c.gotFrame || !c.seenAny || c.run ≥ Conceal.maxRun then (false, c') else
  if playoutQueued ≠ some 0 then (false, c') else
  (true, { c' with run := c.run + 1 })

/-! ### A call of two -/

inductive CallWireEvent
  | joined (peers : ℕ)
  | peerJoined
  | peerLeft
  | frame (wire : Bytes)
  | closed

inductive CallEvent
  | connected
  | peerLeft
  | ended
deriving DecidableEq

structure VoiceCall (S : Sound) where
  keys : CallKeys
  enc : S.Encoder
  dec : S.Decoder
  playout : Frame := silence
  peerHere : Bool := false
  connectedSent : Bool := false
  conceal : Conceal := {}

inductive CallRun (S : Sound)
  | running (call : VoiceCall S)
  | finished (result : Except String Unit)

/-- What the loop finds ready. -/
inductive CallInput
  | stop
  /-- 20 ms are over: what is captured, if anything, whether the socket takes the frame, and how
  many frames are queued toward the speaker, if that is known. -/
  | tick (muted : Bool) (captured : Option Frame) (taken : Bool) (playoutQueued : Option ℕ)
  /-- An event of the room, or an error of the socket. -/
  | wire (event : Except String CallWireEvent)

inductive CallOutput
  | sent (wire : Bytes)
  /-- A frame that is played, and whether it was made up. -/
  | played (concealed : Bool) (frame : Frame)
  | event (event : CallEvent)

def startCall (hkdf : Bytes → Bytes → Bytes) {S : Sound} (key : String) (caller : Bool)
    (enc : Except String S.Encoder) (dec : Except String S.Decoder) : CallRun S :=
  match CallKeys.derive hkdf key caller, enc, dec with
  | .error e, _, _ => .finished (.error e)
  | .ok _, .error e, _ => .finished (.error e)
  | .ok _, .ok _, .error e => .finished (.error e)
  | .ok keys, .ok enc, .ok dec => .running { keys, enc, dec }

/-- What goes to the encoder. -/
def voiced (muted : Bool) (captured : Option Frame) : Frame :=
  if muted then silence else captured.getD silence

/-- Nothing arrived and the speaker has run dry: a frame is made up. -/
def VoiceCall.fill {S : Sound} (c : VoiceCall S) (playoutQueued : Option ℕ) :
    List CallOutput × VoiceCall S :=
  match c.conceal.tick playoutQueued with
  | (false, conceal) => ([], { c with conceal })
  | (true, conceal) =>
    match Line.take ⟨c.keys, c.dec⟩ none c.playout with
    | (none, line) => ([], { c with conceal, dec := line.decoder })
    | (some frame, line) => ([.played true frame], { c with conceal, dec := line.decoder, playout := frame })

def VoiceCall.tick (A : Aead) {S : Sound} (c : VoiceCall S) (muted : Bool) (captured : Option Frame)
    (taken : Bool) (playoutQueued : Option ℕ) : List CallOutput × CallRun S :=
  match S.encode c.enc (voiced muted captured) with
  | (.error e, _) => ([], .finished (.error e))
  | (.ok packet, enc) =>
    match c.keys.sealFrame A packet with
    | (.error e, _) => ([], .finished (.error e))
    | (.ok wire, keys) =>
      if taken then
        let (out, c) := { c with enc, keys }.fill playoutQueued
        (.sent wire :: out, .running c)
      else ([.event .ended], .finished (.ok ()))

/-- The peer is in the room. -/
def VoiceCall.here {S : Sound} (c : VoiceCall S) (peerHere : Bool) : List CallOutput × CallRun S :=
  (if peerHere && !c.connectedSent then [.event .connected] else [],
    .running { c with peerHere, connectedSent := c.connectedSent || peerHere })

/-- A frame that opens and decodes is played at once. -/
def VoiceCall.hear (A : Aead) {S : Sound} (c : VoiceCall S) (wire : Bytes) :
    List CallOutput × CallRun S :=
  match Line.hear A ⟨c.keys, c.dec⟩ wire c.playout with
  | (none, line) => ([], .running { c with keys := line.keys, dec := line.decoder })
  | (some frame, line) =>
    ([.played false frame],
      .running { c with keys := line.keys, dec := line.decoder, conceal := Conceal.onFrame, playout := frame })

def voiceStep (A : Aead) {S : Sound} : CallRun S → CallInput → List CallOutput × CallRun S
  | .finished r, _ => ([], .finished r)
  | .running _, .stop => ([.event .ended], .finished (.ok ()))
  | .running c, .tick muted captured taken queued =>
    if c.peerHere then c.tick A muted captured taken queued else ([], .running c)
  | .running _, .wire (.error e) => ([], .finished (.error e))
  | .running c, .wire (.ok (.joined peers)) => c.here (peers ≥ 2)
  | .running c, .wire (.ok .peerJoined) => c.here true
  | .running c, .wire (.ok (.frame wire)) => c.hear A wire
  | .running _, .wire (.ok .peerLeft) => ([.event .peerLeft, .event .ended], .finished (.ok ()))
  | .running _, .wire (.ok .closed) => ([.event .ended], .finished (.ok ()))

/-! ### What a call puts out -/

section call

variable (A : Aead) {S : Sound}

def voiceNext (s : CallRun S) (e : CallInput) : CallRun S := (voiceStep A s e).2

def CallOutput.wire : CallOutput → Option Bytes
  | .sent wire => some wire
  | _ => none

def CallOutput.frame : CallOutput → Option Frame
  | .played _ frame => some frame
  | _ => none

def CallOutput.told : CallOutput → Option CallEvent
  | .event e => some e
  | _ => none

/-- Whether a frame that is played was made up. -/
def CallOutput.concealed : CallOutput → Option Bool
  | .played concealed _ => some concealed
  | _ => none

/-- What the steps of a run put out, of one kind. -/
def voiceOut {B : Type} (kind : CallOutput → Option B) (s : CallRun S) (es : List CallInput) :
    List B :=
  Trace.observe (voiceNext A) (fun s e => (voiceStep A s e).1.filterMap kind) s es

/-- The frames that arrive while the call is on. -/
def arriving : CallRun S → CallInput → List Bytes
  | .running _, .wire (.ok (.frame wire)) => [wire]
  | _, _ => []

def arrivals (s : CallRun S) (es : List CallInput) : List Bytes :=
  Trace.observe (voiceNext A) arriving s es

/-- The audio that goes to the encoder. -/
def voicing : CallRun S → CallInput → List Frame
  | .running c, .tick muted captured _ _ => if c.peerHere then [voiced muted captured] else []
  | _, _ => []

def voices (s : CallRun S) (es : List CallInput) : List Frame :=
  Trace.observe (voiceNext A) voicing s es

/-- The packets of an encoder, up to its first error. -/
def encodeAll (S : Sound) : S.Encoder → List Frame → List Bytes
  | _, [] => []
  | enc, frame :: frames =>
    match S.encode enc frame with
    | (.error _, _) => []
    | (.ok packet, enc) => packet :: encodeAll S enc frames

/-! ### The end of a room in a call -/

def lineOf : CallRun S → Option (Line S)
  | .running c => some ⟨c.keys, c.dec⟩
  | .finished _ => none

/-- What an event of a call gives to its end of the room. -/
def lineGiven : CallRun S → CallInput → List LineInput
  | .finished _, _ => []
  | .running c, .tick muted captured taken queued =>
    if c.peerHere then
      match S.encode c.enc (voiced muted captured) with
      | (.error _, _) => [.hangUp]
      | (.ok packet, _) =>
        if fits packet && taken then
          .say packet :: if (c.conceal.tick queued).1 then [.fill c.playout] else []
        else [.hangUp]
    else []
  | .running _, .wire (.ok (.joined _)) => []
  | .running _, .wire (.ok .peerJoined) => []
  | .running c, .wire (.ok (.frame wire)) => [.hear wire c.playout]
  | .running _, _ => [.hangUp]

/-- What a tick of a call with a peer does. -/
theorem tick_cases (c : VoiceCall S) (muted : Bool) (captured : Option Frame) (taken : Bool)
    (queued : Option ℕ) :
    (∃ e enc, S.encode c.enc (voiced muted captured) = (.error e, enc) ∧
      c.tick A muted captured taken queued = ([], .finished (.error e))) ∨
    ∃ packet enc, S.encode c.enc (voiced muted captured) = (.ok packet, enc) ∧
      ((fits packet = false ∧ ∃ e, c.tick A muted captured taken queued = ([], .finished (.error e))) ∨
        fits packet = true ∧ ∃ wire keys, c.keys.sealFrame A packet = (.ok wire, keys) ∧
          ((taken = false ∧ c.tick A muted captured taken queued = ([.event .ended], .finished (.ok ()))) ∨
            taken = true ∧ c.tick A muted captured taken queued =
              (.sent wire :: ({ c with enc, keys }.fill queued).1, .running ({ c with enc, keys }.fill queued).2))) := by
  unfold VoiceCall.tick
  rcases S.encode c.enc (voiced muted captured) with ⟨e | packet, enc⟩
  · exact Or.inl ⟨e, enc, rfl, rfl⟩
  refine Or.inr ⟨packet, enc, rfl, ?_⟩
  dsimp only
  cases hfits : fits packet with
  | false =>
    have hlarge : packet.length > paddedPlaintext - 2 := by simpa [fits] using hfits
    refine Or.inl ⟨rfl, "audio frame too large", ?_⟩
    unfold CallKeys.sealFrame
    rw [if_pos hlarge]
  | true =>
    have hsmall : ¬ packet.length > paddedPlaintext - 2 := by simpa [fits] using hfits
    have hseal : c.keys.sealFrame A packet =
        (.ok (frameWire A c.keys.sealKey c.keys.sendSeq packet), { c.keys with sendSeq := (c.keys.sendSeq + 1) % 2 ^ 64 }) := by
      unfold CallKeys.sealFrame
      rw [if_neg hsmall]
    refine Or.inr ⟨rfl, _, _, hseal, ?_⟩
    rw [hseal]
    cases taken with
    | false => exact Or.inl ⟨rfl, rfl⟩
    | true => exact Or.inr ⟨rfl, rfl⟩

/-- What a step does to the end of the room, and what is heard of it, is what
the end does on its inputs. -/
structure OnLine (s : CallRun S) (ins : List LineInput) (out : List CallOutput) (s' : CallRun S) :
    Prop where
  moves : lineOf s' = Trace.run (lineStep A) (lineOf s) ins
  said : out.filterMap CallOutput.wire = Trace.observe (lineStep A) (said A) (lineOf s) ins
  sounded : out.filterMap CallOutput.frame = Trace.observe (lineStep A) (sounded A) (lineOf s) ins

theorem OnLine.hangUp {c : VoiceCall S} {r : Except String Unit} {out : List CallOutput}
    (hwire : out.filterMap CallOutput.wire = []) (hframe : out.filterMap CallOutput.frame = []) :
    OnLine A (.running c) [.hangUp] out (.finished r) :=
  ⟨rfl, hwire, hframe⟩

theorem onLine_fill (c : VoiceCall S) (queued : Option ℕ) :
    OnLine A (.running c) (if (c.conceal.tick queued).1 then [.fill c.playout] else []) (c.fill queued).1
      (.running (c.fill queued).2) := by
  unfold VoiceCall.fill
  rcases c.conceal.tick queued with ⟨_ | _, conceal⟩
  · exact ⟨rfl, rfl, rfl⟩
  · rcases htake : Line.take ⟨c.keys, c.dec⟩ none c.playout with ⟨_ | frame, line⟩
    all_goals
      refine ⟨?_, rfl, ?_⟩
      · change some (Line.mk (Line.take ⟨c.keys, c.dec⟩ none c.playout).2.keys line.decoder) =
          some (Line.take ⟨c.keys, c.dec⟩ none c.playout).2
        rw [htake]
      · change _ = (Line.take ⟨c.keys, c.dec⟩ none c.playout).1.toList ++ []
        rw [htake]
        rfl

theorem onLine_tick (c : VoiceCall S) (hhere : c.peerHere = true) (muted : Bool)
    (captured : Option Frame) (taken : Bool) (queued : Option ℕ) :
    OnLine A (.running c) (lineGiven (.running c) (.tick muted captured taken queued))
      (c.tick A muted captured taken queued).1 (c.tick A muted captured taken queued).2 := by
  simp only [lineGiven, hhere, if_true]
  obtain ⟨e, enc, henc, htick⟩ | ⟨packet, enc, henc,
    ⟨hfits, e, htick⟩ | ⟨hfits, wire, keys, hseal, hsent⟩⟩ :=
    tick_cases A c muted captured taken queued
  · rw [htick, henc]
    exact .hangUp A rfl rfl
  · rw [htick, henc]
    dsimp only
    rw [hfits]
    exact .hangUp A rfl rfl
  obtain ⟨rfl, htick⟩ | ⟨rfl, htick⟩ := hsent
  · rw [htick, henc]
    dsimp only
    rw [hfits]
    exact .hangUp A rfl rfl
  -- the frame is sent, and then a gap may be filled
  rw [htick, henc]
  dsimp only
  rw [hfits]
  have hsealed : (c.keys.sealFrame A packet).2 = keys := by rw [hseal]
  have hfill := onLine_fill A { c with enc, keys } queued
  refine ⟨?_, ?_, ?_⟩
  · have hmoves := hfill.moves
    simp only [lineOf, Bool.and_self, if_true, Trace.run_cons, lineStep, hsealed] at hmoves ⊢
    exact hmoves
  · have hsaid := hfill.said
    simp only [lineOf, Bool.and_self, if_true, Trace.observe_cons, lineStep, hsealed,
      List.filterMap_cons, CallOutput.wire] at hsaid ⊢
    rw [hsaid]
    simp only [Sona.said, hseal]
    rfl
  · have hsounded := hfill.sounded
    simp only [lineOf, Bool.and_self, if_true, Trace.observe_cons, lineStep, hsealed,
      List.filterMap_cons, CallOutput.frame] at hsounded ⊢
    rw [hsounded]
    rfl

theorem onLine_hear (c : VoiceCall S) (wire : Bytes) :
    OnLine A (.running c) [.hear wire c.playout] (c.hear A wire).1 (c.hear A wire).2 := by
  unfold VoiceCall.hear
  rcases hhear : Line.hear A ⟨c.keys, c.dec⟩ wire c.playout with ⟨_ | frame, line⟩
  all_goals
    refine ⟨?_, rfl, ?_⟩
    · change some line = some (Line.hear A ⟨c.keys, c.dec⟩ wire c.playout).2
      rw [hhear]
    · change _ = (Line.hear A ⟨c.keys, c.dec⟩ wire c.playout).1.toList ++ []
      rw [hhear]
      rfl

theorem onLine_here (c : VoiceCall S) (peerHere : Bool) :
    OnLine A (.running c) [] (c.here peerHere).1 (c.here peerHere).2 := by
  unfold VoiceCall.here
  refine ⟨rfl, ?_, ?_⟩
  all_goals
    dsimp only
    split <;> rfl

theorem onLine (s : CallRun S) (e : CallInput) :
    OnLine A s (lineGiven s e) (voiceStep A s e).1 (voiceNext A s e) := by
  unfold voiceNext
  cases s with
  | finished r => exact ⟨rfl, rfl, rfl⟩
  | running c =>
    cases e with
    | stop => exact .hangUp A rfl rfl
    | tick muted captured taken queued =>
      cases hhere : c.peerHere with
      | false =>
        unfold voiceStep lineGiven
        simp only [hhere]
        exact ⟨rfl, rfl, rfl⟩
      | true =>
        have hstep : voiceStep A (.running c)
            (.tick muted captured taken queued) = c.tick A muted captured taken queued := by
          unfold voiceStep
          exact if_pos hhere
        rw [hstep]
        exact onLine_tick A c hhere muted captured taken queued
    | wire event =>
      rcases event with e | peers | _ | _ | wire | _
      · exact .hangUp A rfl rfl
      · exact onLine_here A c _
      · exact onLine_here A c true
      · exact .hangUp A rfl rfl
      · exact onLine_hear A c wire
      · exact .hangUp A rfl rfl

/-- An end of the room is a component of its call. -/
def callLine : Trace.Component (voiceNext A (S := S)) (lineStep A (S := S)) where
  inv _ := True
  view := lineOf
  given := lineGiven
  keep _ _ _ := trivial
  moves s e _ := (onLine A s e).moves

/-- The inputs of an end of the room in the run of a call. -/
def lineInputs (s : CallRun S) (es : List CallInput) : List LineInput :=
  Trace.observe (voiceNext A) lineGiven s es

/-- The frames that a call sends are what its end of the room says. -/
theorem call_said (s : CallRun S) (es : List CallInput) :
    voiceOut A CallOutput.wire s es = Trace.observe (lineStep A) (said A) (lineOf s) (lineInputs A s es) :=
  (callLine A).observe (fun s e _ => (onLine A s e).said) es trivial

/-- What is played is what is heard at its end of the room. -/
theorem call_sounded (s : CallRun S) (es : List CallInput) :
    voiceOut A CallOutput.frame s es =
      Trace.observe (lineStep A) (sounded A) (lineOf s) (lineInputs A s es) :=
  (callLine A).observe (fun s e _ => (onLine A s e).sounded) es trivial

theorem call_hearing (s : CallRun S) (es : List CallInput) :
    arrivals A s es = Trace.observe (lineStep A) hearing (lineOf s) (lineInputs A s es) := by
  refine (callLine A).observe (fun s e _ => ?_) es trivial
  cases s with
  | finished r => rfl
  | running c =>
    cases e with
    | stop => rfl
    | tick muted captured taken queued =>
      change [] = Trace.observe (lineStep A) hearing (some ⟨c.keys, c.dec⟩)
        (lineGiven (.running c) (.tick muted captured taken queued))
      unfold lineGiven
      dsimp only
      cases c.peerHere with
      | false => rfl
      | true =>
        rcases S.encode c.enc (voiced muted captured) with ⟨_ | packet, _⟩
        · rfl
        · simp only [if_true]
          split
          · split <;> rfl
          · rfl
    | wire event => rcases event with e | peers | _ | _ | wire | _ <;> rfl

/-- What a step says is what its encoder makes of the audio, or the call is over. -/
theorem call_encodes (c : VoiceCall S) (e : CallInput) :
    (∃ r, voiceNext A (.running c) e = .finished r ∧
      Trace.observe (lineStep A) saying (some ⟨c.keys, c.dec⟩) (lineGiven (.running c) e) = []) ∨
    ∃ c', voiceNext A (.running c) e = .running c' ∧
      ((voicing (.running c) e = [] ∧ c'.enc = c.enc ∧
          Trace.observe (lineStep A) saying (some ⟨c.keys, c.dec⟩) (lineGiven (.running c) e) = []) ∨
        ∃ frame packet, voicing (.running c) e = [frame] ∧
        S.encode c.enc frame = (.ok packet, c'.enc) ∧
          Trace.observe (lineStep A) saying (some ⟨c.keys, c.dec⟩) (lineGiven (.running c) e) =
            [packet]) := by
  cases e with
  | stop => exact Or.inl ⟨_, rfl, rfl⟩
  | tick muted captured taken queued =>
    unfold voiceNext voiceStep lineGiven voicing
    cases hhere : c.peerHere with
    | false =>
      simp only [hhere]
      exact Or.inr ⟨c, rfl, Or.inl ⟨rfl, rfl, rfl⟩⟩
    | true =>
      simp only [hhere, if_true]
      obtain ⟨e, enc, henc, htick⟩ | ⟨packet, enc, henc,
        ⟨hfits, e, htick⟩ | ⟨hfits, wire, keys, hseal, hsent⟩⟩ :=
        tick_cases A c muted captured taken queued
      · rw [htick, henc]
        exact Or.inl ⟨_, rfl, rfl⟩
      · rw [htick, henc]
        dsimp only
        rw [hfits]
        exact Or.inl ⟨_, rfl, rfl⟩
      obtain ⟨rfl, htick⟩ | ⟨rfl, htick⟩ := hsent
      · rw [htick, henc]
        dsimp only
        rw [hfits]
        exact Or.inl ⟨_, rfl, rfl⟩
      have hkept : ∀ c : VoiceCall S, (c.fill queued).2.enc = c.enc := by
        intro c
        unfold VoiceCall.fill
        rcases c.conceal.tick queued with ⟨_ | _, conceal⟩
        · rfl
        · rcases Line.take ⟨c.keys, c.dec⟩ none c.playout with ⟨_ | frame, line⟩ <;> rfl
      rw [htick]
      refine Or.inr ⟨_, rfl, Or.inr ⟨_, packet, rfl, ?_, ?_⟩⟩
      · rw [henc, hkept]
      · rw [henc]
        dsimp only
        rw [hfits]
        simp only [Bool.and_self, if_true, Trace.observe_cons, lineStep]
        split <;> rfl
  | wire event =>
    rcases event with e | peers | _ | _ | wire | _
    · exact Or.inl ⟨_, rfl, rfl⟩
    · exact Or.inr ⟨_, rfl, Or.inl ⟨rfl, rfl, rfl⟩⟩
    · exact Or.inr ⟨_, rfl, Or.inl ⟨rfl, rfl, rfl⟩⟩
    · exact Or.inl ⟨_, rfl, rfl⟩
    · refine Or.inr ?_
      unfold voiceNext voiceStep VoiceCall.hear
      dsimp only
      split
      · exact ⟨_, rfl, Or.inl ⟨rfl, rfl, rfl⟩⟩
      · exact ⟨_, rfl, Or.inl ⟨rfl, rfl, rfl⟩⟩
    · exact Or.inl ⟨_, rfl, rfl⟩

theorem lineInputs_over (r : Except String Unit) (es : List CallInput) :
    lineInputs A (S := S) (.finished r) es = [] :=
  Trace.observe_eq_nil (I := fun s : CallRun S => s = .finished r) (fun s e hs => by subst hs; rfl)
    (fun s e hs => by subst hs; rfl) es rfl

/-- What a call says is, in order, what its encoder makes of the audio that went to it. -/
theorem call_saying : ∀ (es : List CallInput) (c : VoiceCall S),
    (Trace.observe (lineStep A) saying (some ⟨c.keys, c.dec⟩) (lineInputs A (.running c) es)).Sublist
      (encodeAll S c.enc (voices A (.running c) es))
  | [], _ => List.nil_sublist _
  | e :: es, c => by
    have hmoves := (onLine A (.running c) e).moves
    change (Trace.observe (lineStep A) saying (some ⟨c.keys, c.dec⟩)
        (lineGiven (.running c) e ++ lineInputs A (voiceNext A (.running c) e) es)).Sublist
      (encodeAll S c.enc (voicing (.running c) e ++ voices A (voiceNext A (.running c) e) es))
    change _ = Trace.run (lineStep A) (some ⟨c.keys, c.dec⟩) _ at hmoves
    rw [Trace.observe_append, ← hmoves]
    obtain ⟨r, hnext, hsaid⟩ | ⟨c', hnext,
      ⟨hvoice, henc, hsaid⟩ | ⟨frame, packet, hvoice, henc, hsaid⟩⟩ :=
      call_encodes A c e
    · rw [hnext, hsaid, lineInputs_over]
      exact List.nil_sublist _
    · have hrest := call_saying es c'
      rw [henc] at hrest
      rw [hnext, hsaid, hvoice]
      exact hrest
    · have hrest := call_saying es c'
      rw [hnext, hsaid, hvoice]
      unfold encodeAll
      simp only [List.singleton_append, henc]
      exact hrest.cons_cons packet

end call

/-- **A call carries what is said.** Two ends run a call with the ticket of one offer. Whatever the
relay makes of the frames in between, what the one end plays is what its decoder makes of packets
that the other end encoded, in order and each at most once, and of gaps that are concealed. -/
theorem call_carries {A : Aead} (hA : A.Opens) (hkdf : Bytes → Bytes → Bytes) {S S' : Sound}
    (key : String) (caller : Bool) (enc : S.Encoder) (dec : S.Decoder) (enc' : S'.Encoder)
    (dec' : S'.Decoder) (es fs : List CallInput)
    (hcount :
      (voiceOut A CallOutput.wire (startCall hkdf key caller (.ok enc) (.ok dec)) es).length < 2 ^ 64)
    (hdelivered : ∀ w ∈ arrivals A (startCall hkdf key (!caller) (.ok enc') (.ok dec')) fs,
      w ∈ voiceOut A CallOutput.wire (startCall hkdf key caller (.ok enc) (.ok dec)) es ∨
        ∀ k, CallKeys.derive hkdf key (!caller) = .ok k → decryptFrame A k.openKey w = none) :
    ∃ items : List (Option Bytes),
      (items.filterMap id).Sublist
        (encodeAll S enc (voices A (startCall hkdf key caller (.ok enc) (.ok dec)) es)) ∧
      List.Forall₂ Shows (decodeAll S' dec' items)
        (voiceOut A CallOutput.frame (startCall hkdf key (!caller) (.ok enc') (.ok dec')) fs) := by
  rw [call_said] at hcount
  rw [call_sounded]
  simp only [call_hearing, call_said] at hdelivered
  unfold startCall at *
  obtain ⟨e, e', hk, ho⟩ | ⟨k, o, hk, ho, hsync, hfresh⟩ := derive_ends hkdf key caller
  · refine ⟨[], List.nil_sublist _, ?_⟩
    simp only [ho, lineInputs_over]
    exact .nil
  · simp only [hk, ho] at hcount hdelivered ⊢
    have hopened := line_carries hA (l := ⟨k, dec⟩)
        (m := ⟨o, dec'⟩) hsync (lineInputs A (.running { keys := k, enc, dec }) es)
      (lineInputs A (.running { keys := o, enc := enc', dec := dec' }) fs)
      (by rw [hfresh, Nat.zero_add]; exact hcount)
      fun w hw => (hdelivered w hw).imp_right fun h => h o rfl
    have hheard := (line_heard (A := A) (lineInputs A (.running { keys := o, enc := enc', dec := dec' }) fs)
      (⟨o, dec'⟩ : Line S')).2
    exact ⟨_, hopened.trans (call_saying A es { keys := k, enc, dec }), hheard⟩

/-- A codec of which a packet is the first sample of a frame. -/
def toneCodec : Sound where
  Encoder := Unit
  Decoder := Unit
  encode _ frame := (.ok [UInt8.ofNat (frame ⟨0, by decide⟩).toInt.toNat], ())
  decode _ packet := (some (packet.map fun b => Int16.ofNat b.toNat), ())
  conceal _ := (some [], ())
  scale _ sample := sample

def toneKey : String := "AAAAAAAAAAAAAAAAAAAAAAAAAAAAAAAAAAAAAAAAAAA"

def toneCall (caller : Bool) : CallRun toneCodec :=
  startCall (fun _ info => info) toneKey caller (.ok ()) (.ok ())

/-- The frame of a tone. -/
def toneWire : Bytes := frameWire Aead.plain (utf8 "sona-call-v1 caller->callee") 0 [7]

/-- A tone is captured, and its frame is delivered twice. -/
theorem call_carries_tone :
    ∃ items : List (Option Bytes),
      (items.filterMap id).Sublist (encodeAll toneCodec () (voices Aead.plain (toneCall true)
        [.wire (.ok (.joined 2)), .tick false (some fun _ => 7) true none])) ∧
      List.Forall₂ Shows (decodeAll toneCodec () items)
        (voiceOut Aead.plain CallOutput.frame (toneCall false)
          [.wire (.ok (.joined 2)), .wire (.ok (.frame toneWire)), .wire (.ok (.frame toneWire))]) := by
  have hsent : voiceOut Aead.plain CallOutput.wire (toneCall true)
      [.wire (.ok (.joined 2)), .tick false (some fun _ => 7) true none] = [toneWire] ∧
    arrivals Aead.plain (toneCall false)
      [.wire (.ok (.joined 2)), .wire (.ok (.frame toneWire)),
      .wire (.ok (.frame toneWire))] = [toneWire, toneWire] := by
    decide +kernel
  refine @call_carries Aead.plain Aead.plain_opens
    (fun _ info => info) toneCodec toneCodec toneKey true () () ()
    () _ _ ?_
    fun w hw => Or.inl ?_
  · have hlen := congrArg List.length hsent.1
    exact Nat.lt_of_le_of_lt (Nat.le_of_eq hlen) (by decide)
  · have harrive : w ∈ [toneWire, toneWire] := hsent.2 ▸ hw
    have hmem : w ∈ [toneWire] := by simpa using harrive
    exact hsent.1.symm ▸ hmem

/-! ### What the shell is told -/

section told

variable (A : Aead) {S : Sound}

/-- The events that are left to a call. -/
def CallRun.left : CallRun S → List CallEvent
  | .running c => if c.connectedSent then [.peerLeft, .ended] else [.connected, .peerLeft, .ended]
  | .finished _ => []

/-- What a step of a call tells. -/
theorem told_cases (c : VoiceCall S) (e : CallInput) :
    (∃ c', voiceNext A (.running c) e = .running c' ∧
      (((voiceStep A (.running c) e).1.filterMap CallOutput.told = [] ∧ c'.connectedSent = c.connectedSent) ∨
        ((voiceStep A (.running c) e).1.filterMap CallOutput.told = [.connected] ∧
          c.connectedSent = false ∧
          c'.connectedSent = true))) ∨
    (voiceNext A (.running c) e = .finished (.ok ()) ∧
      ((voiceStep A (.running c) e).1.filterMap CallOutput.told = [.ended] ∨
        (voiceStep A (.running c) e).1.filterMap CallOutput.told = [.peerLeft, .ended])) ∨
    ∃ err, voiceNext A (.running c) e = .finished (.error err) ∧
    (voiceStep A (.running c) e).1.filterMap CallOutput.told =
      [] := by
  have hthere : ∀ peerHere, ∃ c', (c.here peerHere).2 = .running c' ∧
      (((c.here peerHere).1.filterMap CallOutput.told = [] ∧ c'.connectedSent = c.connectedSent) ∨
        ((c.here peerHere).1.filterMap CallOutput.told = [.connected] ∧ c.connectedSent = false ∧ c'.connectedSent =
          true)) := by
    intro peerHere
    unfold VoiceCall.here
    cases peerHere <;> cases hsent : c.connectedSent <;> exact ⟨_, rfl, by simp [CallOutput.told]⟩
  cases e with
  | stop => exact Or.inr (Or.inl ⟨rfl, Or.inl rfl⟩)
  | tick muted captured taken queued =>
    unfold voiceNext voiceStep
    cases hhere : c.peerHere with
    | false =>
      simp only [hhere]
      exact Or.inl ⟨c, rfl, Or.inl ⟨rfl, rfl⟩⟩
    | true =>
      simp only [hhere, if_true]
      obtain ⟨e, enc, henc, htick⟩ | ⟨packet, enc, henc,
        ⟨hfits, e, htick⟩ | ⟨hfits, wire, keys, hseal, hsent⟩⟩ :=
        tick_cases A c muted captured taken queued
      · rw [htick]
        exact Or.inr (Or.inr ⟨_, rfl, rfl⟩)
      · rw [htick]
        exact Or.inr (Or.inr ⟨_, rfl, rfl⟩)
      obtain ⟨rfl, htick⟩ | ⟨rfl, htick⟩ := hsent
      · rw [htick]
        exact Or.inr (Or.inl ⟨rfl, Or.inl rfl⟩)
      have hquiet : ∀ c : VoiceCall S, (c.fill queued).1.filterMap CallOutput.told = [] ∧
          (c.fill queued).2.connectedSent = c.connectedSent := by
        intro c
        unfold VoiceCall.fill
        rcases c.conceal.tick queued with ⟨_ | _, conceal⟩
        · exact ⟨rfl, rfl⟩
        · rcases Line.take ⟨c.keys, c.dec⟩ none c.playout with ⟨_ | frame, line⟩ <;>
            exact ⟨rfl, rfl⟩
      rw [htick]
      exact Or.inl ⟨_, rfl, Or.inl (hquiet { c with enc, keys })⟩
  | wire event =>
    rcases event with e | peers | _ | _ | wire | _
    · exact Or.inr (Or.inr ⟨_, rfl, rfl⟩)
    · exact Or.inl (hthere _)
    · exact Or.inl (hthere true)
    · exact Or.inr (Or.inl ⟨rfl, Or.inr rfl⟩)
    · refine Or.inl ?_
      unfold voiceNext voiceStep VoiceCall.hear
      dsimp only
      split
      · exact ⟨_, rfl, Or.inl ⟨rfl, rfl⟩⟩
      · exact ⟨_, rfl, Or.inl ⟨rfl, rfl⟩⟩
    · exact Or.inr (Or.inl ⟨rfl, Or.inl rfl⟩)

theorem over_run (r : Except String Unit) (es : List CallInput) :
    voiceOut A CallOutput.told (S := S) (.finished r) es = [] ∧
    Trace.run (voiceNext A (S := S)) (.finished r) es = .finished r :=
  ⟨Trace.observe_eq_nil (I := fun s : CallRun S => s = .finished r) (fun s e hs => by subst hs; rfl)
    (fun s e hs => by subst hs; rfl)
      es rfl,
    Trace.run_inv (I := fun s : CallRun S => s = .finished r) (fun s e hs => by subst hs; rfl) rfl es⟩

theorem told_run : ∀ (es : List CallInput) (c : VoiceCall S),
    (voiceOut A CallOutput.told (.running c) es).Sublist (CallRun.running c).left ∧
      (.ended ∈ voiceOut A CallOutput.told (.running c) es ↔
        Trace.run (voiceNext A) (.running c) es = .finished (.ok ()))
  | [], c => ⟨List.nil_sublist _, iff_of_false List.not_mem_nil fun h => nomatch h⟩
  | e :: es, c => by
    change ((voiceStep A (.running c) e).1.filterMap CallOutput.told ++ voiceOut A CallOutput.told
      (voiceNext A (.running c) e) es).Sublist _ ∧
      (_ ∈ (voiceStep A (.running c) e).1.filterMap CallOutput.told ++ voiceOut A CallOutput.told
        (voiceNext A (.running c) e) es ↔
        Trace.run (voiceNext A) (voiceNext A (.running c) e) es = .finished (.ok ()))
    obtain ⟨c', hnext, ⟨htold, hsame⟩ | ⟨htold, hbefore, hafter⟩⟩ | ⟨hnext, htold⟩
      | ⟨err, hnext, htold⟩ :=
      told_cases A c e
    · obtain ⟨hsub, hended⟩ := told_run es c'
      simp only [CallRun.left, hsame] at hsub ⊢
      rw [hnext, htold]
      exact ⟨hsub, hended⟩
    · obtain ⟨hsub, hended⟩ := told_run es c'
      simp only [CallRun.left, hafter, hbefore, if_true] at hsub ⊢
      rw [hnext, htold]
      exact ⟨hsub.cons_cons _, by simpa using hended⟩
    · obtain ⟨hquiet, hover⟩ := over_run (S := S) A (.ok ()) es
      rw [hnext, hquiet, hover, List.append_nil]
      refine ⟨?_, iff_of_true ?_ rfl⟩
      · have hleft : [CallEvent.peerLeft, .ended].Sublist (CallRun.running c).left := by
          cases hsent : c.connectedSent <;> simp [CallRun.left, hsent]
        rcases htold with htold | htold <;> rw [htold]
        · exact List.Sublist.trans (by decide) hleft
        · exact hleft
      · rcases htold with htold | htold <;> rw [htold] <;> decide
    · obtain ⟨hquiet, hover⟩ := over_run (S := S) A (.error err) es
      rw [hnext, hquiet, hover, htold]
      exact ⟨List.nil_sublist _, iff_of_false List.not_mem_nil fun h => nomatch h⟩

end told

/-- **What the shell is told of a call**: that it connected, that the peer left and that it ended,
each at most once and in this order. It is told the end exactly of a call that
returns without an error. -/
theorem call_events (A : Aead) (hkdf : Bytes → Bytes → Bytes) {S : Sound} (key : String)
    (caller : Bool) (enc : Except String S.Encoder) (dec : Except String S.Decoder)
    (es : List CallInput) :
    (voiceOut A CallOutput.told (startCall hkdf key caller enc dec) es).Sublist [.connected, .peerLeft, .ended] ∧
      (.ended ∈ voiceOut A CallOutput.told (startCall hkdf key caller enc dec) es ↔
        Trace.run (voiceNext A) (startCall hkdf key caller enc dec) es = .finished (.ok ())) := by
  have hfailed : ∀ e,
      (voiceOut A CallOutput.told (S := S) (.finished (.error e)) es).Sublist
        [.connected, .peerLeft, .ended] ∧
      (.ended ∈ voiceOut A CallOutput.told (S := S) (.finished (.error e)) es ↔
        Trace.run (voiceNext A (S := S)) (.finished (.error e)) es = .finished (.ok ())) := by
    intro e
    obtain ⟨hquiet, hover⟩ := over_run (S := S) A (.error e) es
    rw [hquiet, hover]
    exact ⟨List.nil_sublist _, iff_of_false List.not_mem_nil fun h => nomatch h⟩
  unfold startCall
  split
  · exact hfailed _
  · exact hfailed _
  · exact hfailed _
  · exact told_run A es _

/-! ### What is made up -/

/-- Frames that are played, of which at most `n` are made up before the next
that arrived, and 15 after each. -/
def Patched : ℕ → List Bool → Prop
  | _, [] => True
  | _, false :: rest => Patched Conceal.maxRun rest
  | n, true :: rest => 0 < n ∧ Patched (n - 1) rest

theorem Patched.mono : ∀ {flags : List Bool} {n m : ℕ}, n ≤ m → Patched n flags → Patched m flags
  | [], _, _, _, _ => trivial
  | false :: _, _, _, _, h => h
  | true :: _, _, _, hle, h => ⟨Nat.lt_of_lt_of_le h.1 hle, h.2.mono (Nat.sub_le_sub_right hle 1)⟩

theorem Patched.skip :
    ∀ {pre rest : List Bool} {n : ℕ}, pre ≠ [] → n ≤ Conceal.maxRun → Patched n (pre ++ rest) →
    Patched Conceal.maxRun rest
  | [], _, _, hne, _, _ => absurd rfl hne
  | false :: pre, rest, _, _, _, h => by
    cases pre with
    | nil => exact h
    | cons b pre => exact Patched.skip (List.cons_ne_nil b pre) (Nat.le_refl _) h
  | true :: pre, rest, n, _, hle, h => by
    have hle' : n - 1 ≤ Conceal.maxRun := (Nat.sub_le n 1).trans hle
    cases pre with
    | nil => exact h.2.mono hle'
    | cons b pre => exact Patched.skip (List.cons_ne_nil b pre) hle' h.2

/-- A block of made-up frames is no longer than what is allowed before it. -/
theorem Patched.block :
    ∀ {block rest : List Bool} {n : ℕ}, (∀ b ∈ block, b = true) → Patched n (block ++ rest) →
    block.length ≤ n
  | [], _, n, _, _ => Nat.zero_le n
  | b :: block, rest, n, hall, h => by
    obtain rfl := hall b List.mem_cons_self
    have hrest : block.length ≤ n - 1 :=
      Patched.block (fun c hc => hall c (List.mem_cons_of_mem _ hc)) h.2
    have hpos := h.1
    rw [List.length_cons]
    omega

/-- How many frames may still be made up. -/
def Conceal.budget (c : Conceal) : ℕ := if c.seenAny then Conceal.maxRun - c.run else 0

theorem Conceal.tick_budget (c : Conceal) (queued : Option ℕ) :
    ((c.tick queued).1 = false ∧ (c.tick queued).2.budget = c.budget) ∨
      (c.tick queued).1 = true ∧ (c.tick queued).2.budget + 1 = c.budget := by
  unfold Conceal.tick
  dsimp only
  split
  · exact Or.inl ⟨rfl, rfl⟩
  rename_i hmay
  split
  · exact Or.inl ⟨rfl, rfl⟩
  · refine Or.inr ⟨rfl, ?_⟩
    simp only [Bool.or_eq_true, Bool.not_eq_true', decide_eq_true_eq, not_or, Bool.not_eq_false,
      Nat.not_le] at hmay
    obtain ⟨⟨-, hseen⟩, hrun⟩ := hmay
    simp only [Conceal.budget, hseen, if_true]
    omega

section gaps

variable (A : Aead) {S : Sound}

/-- How many frames a call may still make up. -/
def CallRun.budget : CallRun S → ℕ
  | .running c => c.conceal.budget
  | .finished _ => 0

theorem fill_budget (c : VoiceCall S) (queued : Option ℕ) :
    ((c.fill queued).1.filterMap CallOutput.concealed = [] ∧
      (c.fill queued).2.conceal.budget ≤ c.conceal.budget) ∨
      ((c.fill queued).1.filterMap CallOutput.concealed = [true] ∧
        (c.fill queued).2.conceal.budget + 1 = c.conceal.budget) := by
  have hbudget := c.conceal.tick_budget queued
  unfold VoiceCall.fill
  rcases htick : c.conceal.tick queued with ⟨_ | _, conceal⟩
  · rw [htick] at hbudget
    obtain ⟨-, hsame⟩ | ⟨hno, -⟩ := hbudget
    · exact Or.inl ⟨rfl, Nat.le_of_eq hsame⟩
    · cases hno
  · rw [htick] at hbudget
    obtain ⟨hno, -⟩ | ⟨-, hspent⟩ := hbudget
    · cases hno
    · rcases Line.take ⟨c.keys, c.dec⟩ none c.playout with ⟨_ | frame, line⟩
      · exact Or.inl ⟨rfl, Nat.le_of_succ_le (Nat.le_of_eq hspent)⟩
      · exact Or.inr ⟨rfl, hspent⟩

/-- What a step makes up is taken from what may be made up. -/
theorem budget_step (s : CallRun S) (e : CallInput) :
    ((voiceStep A s e).1.filterMap CallOutput.concealed = [] ∧
      (voiceNext A s e).budget ≤ s.budget) ∨
      ((voiceStep A s e).1.filterMap CallOutput.concealed = [true] ∧
        (voiceNext A s e).budget + 1 = s.budget) ∨
      ((voiceStep A s e).1.filterMap CallOutput.concealed = [false] ∧
        (voiceNext A s e).budget = Conceal.maxRun) := by
  cases s with
  | finished r => exact Or.inl ⟨rfl, Nat.le_refl _⟩
  | running c =>
    have hthere : ∀ peerHere, (c.here peerHere).1.filterMap CallOutput.concealed = [] ∧
        (c.here peerHere).2.budget ≤ c.conceal.budget := by
      intro peerHere
      unfold VoiceCall.here
      refine ⟨?_, Nat.le_refl _⟩
      dsimp only
      split <;> rfl
    cases e with
    | stop => exact Or.inl ⟨rfl, Nat.zero_le _⟩
    | tick muted captured taken queued =>
      unfold voiceNext voiceStep
      cases hhere : c.peerHere with
      | false =>
        simp only [hhere]
        exact Or.inl ⟨rfl, Nat.le_refl _⟩
      | true =>
        simp only [hhere, if_true]
        obtain ⟨e, enc, henc, htick⟩ | ⟨packet, enc, henc,
          ⟨hfits, e, htick⟩ | ⟨hfits, wire, keys, hseal, hsent⟩⟩ :=
          tick_cases A c muted captured taken queued
        · rw [htick]
          exact Or.inl ⟨rfl, Nat.zero_le _⟩
        · rw [htick]
          exact Or.inl ⟨rfl, Nat.zero_le _⟩
        obtain ⟨rfl, htick⟩ | ⟨rfl, htick⟩ := hsent
        · rw [htick]
          exact Or.inl ⟨rfl, Nat.zero_le _⟩
        · rw [htick]
          exact (fill_budget { c with enc, keys } queued).imp_right Or.inl
    | wire event =>
      rcases event with e | peers | _ | _ | wire | _
      · exact Or.inl ⟨rfl, Nat.zero_le _⟩
      · exact Or.inl (hthere _)
      · exact Or.inl (hthere true)
      · exact Or.inl ⟨rfl, Nat.zero_le _⟩
      · unfold voiceNext voiceStep VoiceCall.hear
        dsimp only
        split
        · exact Or.inl ⟨rfl, Nat.le_refl _⟩
        · exact Or.inr (Or.inr ⟨rfl, rfl⟩)
      · exact Or.inl ⟨rfl, Nat.zero_le _⟩

theorem patched_run :
    ∀ (es : List CallInput) (s : CallRun S), Patched s.budget (voiceOut A CallOutput.concealed s es)
  | [], _ => trivial
  | e :: es, s => by
    have hrest := patched_run es (voiceNext A s e)
    change Patched s.budget ((voiceStep A s e).1.filterMap CallOutput.concealed ++ voiceOut A CallOutput.concealed
      (voiceNext A s e) es)
    obtain ⟨hnone, hle⟩ | ⟨hmade, hspent⟩ | ⟨harrived, hfull⟩ := budget_step A s e
    · rw [hnone]
      exact hrest.mono hle
    · rw [hmade]
      exact ⟨by omega, hrest.mono (by omega)⟩
    · rw [harrived]
      rw [hfull] at hrest
      exact hrest

end gaps

/-- Of frames that are played, the first one arrived, and no more than 15 in a row were made up. -/
structure GapsBounded (flags : List Bool) : Prop where
  first : ∀ b ∈ flags.head?, b = false
  rows : ∀ pre block post, flags = pre ++ block ++ post → (∀ b ∈ block, b = true) →
    block.length ≤ 15

theorem Patched.gapsBounded {flags : List Bool} (h : Patched 0 flags) : GapsBounded flags where
  first b hb := by
    cases flags with
    | nil => cases hb
    | cons c flags =>
      cases c with
      | false => exact (Option.some.inj hb).symm
      | true => exact absurd h.1 (Nat.lt_irrefl 0)
  rows pre block post hsplit hall := by
    rw [hsplit, List.append_assoc] at h
    by_cases hpre : pre = []
    · subst hpre
      exact (h.block hall).trans (Nat.zero_le 15)
    · exact (h.skip hpre (Nat.zero_le _)).block hall

/-- **Gaps are concealed for 300 ms at most**, and no frame is made up before
the first one that arrived. -/
theorem call_gaps (A : Aead) (hkdf : Bytes → Bytes → Bytes) {S : Sound} (key : String)
    (caller : Bool) (enc : Except String S.Encoder) (dec : Except String S.Decoder)
    (es : List CallInput) :
    GapsBounded (voiceOut A CallOutput.concealed (startCall hkdf key caller enc dec) es) := by
  have hbudget : (startCall hkdf key caller enc dec).budget = 0 := by
    unfold startCall
    split <;> rfl
  have hrun := patched_run A es (startCall hkdf key caller enc dec)
  rw [hbudget] at hrun
  exact hrun.gapsBounded

end Sona
