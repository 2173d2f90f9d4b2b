/-
# Group calls

`run_group_call` of `client-core/src/groupcall.rs`: a call of many is a mesh of calls of
two, and the engine of each participant has a leg to every other one. What is captured is
encoded once and sealed for each leg; what arrives on a leg waits in a queue of 60 ms,
and every tick one frame of each leg goes, at the volume of its peer, into the mix.

The legs share the encoder, the buffer that is decoded into and the mix, and nothing else:
a leg is an end of its room (`groupLine`) and a queue of its own (`groupQueue`), whatever
the others do. So what is heard of a peer is what that peer said (`group_leg_carries`), the
shell is told of each leg once that it connected and once that it left
(`group_events`), no leg builds up lag (`group_lag`), and it does not matter in which order the
map gives its legs (`group_unordered`).

`select!` takes whichever branch is ready: the inputs of a run are in any order. A volume
is read and written between the ticks. The task of a socket (`spawn_leg_pump`) is not modelled:
what it hands on is an input.

Key definitions: `GroupCall`, `GroupRun`, `groupStep`, `mixed`, `ShuffledRun`.
Key theorems: `legStep`, `group_leg_carries`, `group_lag`, `group_events`, `sameStep`,
`group_unordered`.
-/
import Sona.Lib.Jitter
import Sona.Lib.Table
import Sona.Voice

namespace Sona

/-! ### Volumes -/

/-- The volume, in percent, of what is played as it was sent. -/
def gainUnity : ℕ := 100

def gainMax : ℕ := 200

def applyGain (S : Sound) (percent : ℕ) (frame : Frame) : Frame :=
  if percent = gainUnity then frame else
  if percent = 0 then silence else
  fun i => S.scale (min percent gainMax) (frame i)

/-- `PeerGains`: of each peer whose volume was set. -/
abbrev PeerGains := Table String ℕ

def PeerGains.gainOf (gains : PeerGains) (peerKey : String) : ℕ :=
  (gains.get peerKey).getD gainUnity

def PeerGains.setGain (gains : PeerGains) (peerKey : String) (percent : ℕ) : PeerGains :=
  gains.set peerKey (min percent gainMax)

/-! ### The engine -/

/-- Frames per leg that wait for playout. -/
def jitterFrames : ℕ := 3

/-- A pair leg that is handed to the engine. -/
structure GroupLeg where
  peerKey : String
  keyB64 : String
  caller : Bool
deriving DecidableEq

inductive GroupCallEvent
  | peerConnected (peerKey : String)
  | peerLeft (peerKey : String)
  | ended
deriving DecidableEq

structure LegState (S : Sound) where
  peerKey : String
  keys : CallKeys
  decoder : S.Decoder
  playout : List Frame := []
  peerHere : Bool := false
  connectedReported : Bool := false

/-- The end of its room that a leg is. -/
def LegState.line {S : Sound} (leg : LegState S) : Line S := ⟨leg.keys, leg.decoder⟩

structure GroupCall (S : Sound) where
  enc : S.Encoder
  legs : Table ℕ (LegState S) := ∅
  nextLegId : ℕ := 0
  legsOpen : Bool := true
  decodeBuf : Frame := silence
  gains : PeerGains := ∅

inductive GroupRun (S : Sound)
  | running (call : GroupCall S)
  | finished (result : Except String Unit)

/-- What the loop finds ready. -/
inductive GroupInput (S : Sound)
  | stop
  /-- A leg joins, with its decoder. -/
  | leg (leg : GroupLeg) (decoder : Except String S.Decoder)
  | legsClosed
  | wire (id : ℕ) (event : CallWireEvent)
  | tick (muted : Bool) (captured : Option Frame)
  | gain (peerKey : String) (percent : ℕ)

/-- What it puts out: a frame for a leg, an event (and the leg that it is about, which the shell is
not told), and what is played. -/
inductive GroupOutput
  | sent (id : ℕ) (wire : Bytes)
  | event (id : Option ℕ) (event : GroupCallEvent)
  | played (frame : Frame)

/-- `clamp` to the range of a sample. -/
def clampSample (m : Int32) : Int16 :=
  if m < -32768 then -32768 else if 32767 < m then 32767 else m.toInt16

def mixed (frames : List Frame) : Frame :=
  fun i => clampSample (frames.foldl (fun m frame => m + (frame i).toInt32) 0)

section engine

variable (A : Aead) (hkdf : Bytes → Bytes → Bytes) {S : Sound}

/-- The frames of a packet for the legs whose peer is in the room; the first
that does not seal ends the call. -/
def sendAll (packet : Bytes) :
    List (Sigma fun _ : ℕ => LegState S) → List GroupOutput × Except String Unit
  | [] => ([], .ok ())
  | ⟨id, leg⟩ :: rest =>
    if leg.peerHere then
      match leg.keys.sealFrame A packet with
      | (.error e, _) => ([], .error e)
      | (.ok wire, _) => (.sent id wire :: (sendAll packet rest).1, (sendAll packet rest).2)
    else sendAll packet rest

def LegState.sealed (packet : Bytes) (leg : LegState S) : LegState S :=
  if leg.peerHere then { leg with keys := (leg.keys.sealFrame A packet).2 } else leg

/-- Capture, encode once, seal for each leg. -/
def GroupCall.capture (g : GroupCall S) (muted : Bool) (captured : Option Frame) :
    List GroupOutput × Except String (GroupCall S) :=
  if g.legs.entries.any (·.2.peerHere) then
    match S.encode g.enc (voiced muted captured) with
    | (.error e, _) => ([], .error e)
    | (.ok packet, enc) =>
      match sendAll A packet g.legs.entries with
      | (out, .error e) => (out, .error e)
      | (out, .ok ()) => (out, .ok { g with enc, legs := g.legs.mapValues (LegState.sealed A packet) })
  else ([], .ok g)

def LegState.popped (leg : LegState S) : LegState S := { leg with playout := leg.playout.tail }

/-- What goes into the mix: of each leg that has any a frame, and the volume of its peer. -/
def GroupCall.sheet (g : GroupCall S) : List (ℕ × ℕ × Frame) :=
  g.legs.entries.filterMap fun e => e.2.playout.head?.map fun frame => (e.1, g.gains.gainOf e.2.peerKey, frame)

def mixSheet (S : Sound) (sheet : List (ℕ × ℕ × Frame)) : Frame :=
  mixed (sheet.map fun x => applyGain S x.2.1 x.2.2)

/-- One frame of each leg that has any is mixed and played. -/
def GroupCall.mix (g : GroupCall S) : List GroupOutput × GroupCall S :=
  (if g.sheet.isEmpty then [] else [.played (mixSheet S g.sheet)], { g with legs := g.legs.mapValues LegState.popped })

def GroupCall.tick (g : GroupCall S) (muted : Bool) (captured : Option Frame) :
    List GroupOutput × GroupRun S :=
  match g.capture A muted captured with
  | (out, .error e) => (out, .finished (.error e))
  | (out, .ok g) => (out ++ g.mix.1, .running g.mix.2)

/-- A frame that opens and decodes joins the queue of its leg. -/
def GroupCall.hear (g : GroupCall S) (id : ℕ) (leg : LegState S) (wire : Bytes) :
    List GroupOutput × GroupRun S :=
  match leg.line.hear A wire g.decodeBuf with
  | (none, line) =>
    ([], .running { g with legs := g.legs.set id { leg with keys := line.keys, decoder := line.decoder } })
  | (some frame, line) =>
    (if leg.connectedReported then [] else [.event (some id) (.peerConnected leg.peerKey)],
      .running { g with
        legs := g.legs.set id { leg with
          keys := line.keys
          decoder := line.decoder
          connectedReported := true
          playout := Jitter.push jitterFrames leg.playout frame }
        decodeBuf := frame })

/-- A leg joins under a number of its own. -/
def GroupCall.join (g : GroupCall S) (leg : GroupLeg) (decoder : Except String S.Decoder) :
    List GroupOutput × GroupRun S :=
  match CallKeys.derive hkdf leg.keyB64 leg.caller, decoder with
  | .error e, _ => ([], .finished (.error e))
  | .ok _, .error e => ([], .finished (.error e))
  | .ok keys, .ok decoder =>
    ([], .running { g with
      legs := g.legs.set g.nextLegId { peerKey := leg.peerKey, keys, decoder }
      nextLegId := g.nextLegId + 1 })

def GroupCall.onWire (g : GroupCall S) (id : ℕ) (leg : LegState S) :
    CallWireEvent → List GroupOutput × GroupRun S
  | .joined peers => ([], .running { g with legs := g.legs.set id { leg with peerHere := peers ≥ 2 } })
  | .peerJoined => ([], .running { g with legs := g.legs.set id { leg with peerHere := true } })
  | .frame wire => g.hear A id leg wire
  | .peerLeft | .closed => ([.event (some id) (.peerLeft leg.peerKey)], .running { g with legs := g.legs.remove id })

def groupStep : GroupRun S → GroupInput S → List GroupOutput × GroupRun S
  | .finished r, _ => ([], .finished r)
  | .running _, .stop => ([.event none .ended], .finished (.ok ()))
  | .running g, .leg leg decoder => if g.legsOpen then g.join hkdf leg decoder else ([], .running g)
  | .running g, .legsClosed => ([], .running { g with legsOpen := false })
  | .running g, .wire id event =>
    match g.legs.get id with
    | none => ([], .running g)
    | some leg => g.onWire A id leg event
  | .running g, .tick muted captured => g.tick A muted captured
  | .running g, .gain peerKey percent =>
    ([], .running { g with gains := g.gains.setGain peerKey percent })

def groupNext (s : GroupRun S) (e : GroupInput S) : GroupRun S := (groupStep A hkdf s e).2

def startGroup : Except String S.Encoder → GroupRun S
  | .error e => .finished (.error e)
  | .ok enc => .running { enc }

end engine

/-! ### What a run tells of a leg -/

def GroupOutput.wireOf (n : ℕ) : GroupOutput → Option Bytes
  | .sent id wire => if id = n then some wire else none
  | _ => none

def GroupOutput.frame : GroupOutput → Option Frame
  | .played frame => some frame
  | _ => none

/-- The events about a leg, or about none. -/
def GroupOutput.eventOf (k : Option ℕ) : GroupOutput → Option GroupCallEvent
  | .event id e => if id = k then some e else none
  | _ => none

section logs

variable (A : Aead) (hkdf : Bytes → Bytes → Bytes) {S : Sound}

/-- What the steps of a run put out, of one kind. -/
def groupOut {B : Type} (kind : GroupOutput → Option B) (s : GroupRun S)
    (es : List (GroupInput S)) : List B :=
  Trace.observe (groupNext A hkdf) (fun s e => (groupStep A hkdf s e).1.filterMap kind) s es

/-- The legs that join, with their decoders. -/
def joining : GroupRun S → GroupInput S → List (GroupLeg × S.Decoder)
  | .running g, .leg leg (.ok decoder) =>
    if g.legsOpen && (CallKeys.derive hkdf leg.keyB64 leg.caller).toOption.isSome then [(leg, decoder)] else []
  | _, _ => []

def joined (s : GroupRun S) (es : List (GroupInput S)) : List (GroupLeg × S.Decoder) :=
  Trace.observe (groupNext A hkdf) (joining hkdf) s es

/-- The frames that arrive on a leg while it is up. -/
def legArriving (n : ℕ) : GroupRun S → GroupInput S → List Bytes
  | .running g, .wire id (.frame wire) => if id = n && (g.legs.get n).isSome then [wire] else []
  | _, _ => []

def legArrivals (n : ℕ) (s : GroupRun S) (es : List (GroupInput S)) : List Bytes :=
  Trace.observe (groupNext A hkdf) (legArriving n) s es

/-- The audio that goes to the encoder. -/
def groupVoicing : GroupRun S → GroupInput S → List Frame
  | .running g, .tick muted captured =>
    if g.legs.entries.any (·.2.peerHere) then [voiced muted captured] else []
  | _, _ => []

def groupVoices (s : GroupRun S) (es : List (GroupInput S)) : List Frame :=
  Trace.observe (groupNext A hkdf) groupVoicing s es

/-- What is mixed, tick for tick. -/
def sheeting : GroupRun S → GroupInput S → List (List (ℕ × ℕ × Frame))
  | .running g, .tick muted captured =>
    match (g.capture A muted captured).2 with
    | .error _ => []
    | .ok g => if g.sheet.isEmpty then [] else [g.sheet]
  | _, _ => []

def sheets (s : GroupRun S) (es : List (GroupInput S)) : List (List (ℕ × ℕ × Frame)) :=
  Trace.observe (groupNext A hkdf) (sheeting A) s es

/-- The frames of a leg in a mix. -/
def heardOf (n : ℕ) (sheet : List (ℕ × ℕ × Frame)) :
    List Frame := sheet.filterMap fun x => if x.1 = n then some x.2.2 else none

end logs

/-! ### A leg in the engine -/

section leg

variable (A : Aead) (hkdf : Bytes → Bytes → Bytes) {S : Sound}

/-- The end of the room of a leg that is up. -/
def legLine (n : ℕ) : GroupRun S → Option (Line S)
  | .running g => (g.legs.get n).map LegState.line
  | .finished _ => none

/-- What waits for playout. -/
def legQueue (n : ℕ) : GroupRun S → List Frame
  | .running g => ((g.legs.get n).map LegState.playout).getD []
  | .finished _ => []

/-- What an event gives to the end of the room of a leg. -/
def legGiven (n : ℕ) : GroupRun S → GroupInput S → List LineInput
  | .finished _, _ => []
  | .running _, .stop => [.hangUp]
  | .running g, .leg leg decoder =>
    if g.legsOpen && ((CallKeys.derive hkdf leg.keyB64 leg.caller).toOption.isNone ||
      decoder.toOption.isNone) then [.hangUp] else []
  | .running g, .wire id event =>
    if id = n then
      match event with
      | .frame wire => [.hear wire g.decodeBuf]
      | .peerLeft | .closed => [.hangUp]
      | _ => []
    else []
  | .running g, .tick muted captured =>
    if g.legs.entries.any (·.2.peerHere) then
      match S.encode g.enc (voiced muted captured) with
      | (.error _, _) => [.hangUp]
      | (.ok packet, _) =>
        if fits packet then
          if (g.legs.get n).any (·.peerHere) then [.say packet] else []
        else [.hangUp]
    else []
  | .running _, _ => []

/-- What an event does to the queue of a leg. -/
def queueGiven (n : ℕ) (s : GroupRun S) (e : GroupInput S) : List (Jitter.Op Frame) :=
  match s, e with
  | .finished _, _ => []
  | .running _, .stop => [.clear]
  | .running g, .leg leg decoder =>
    if g.legsOpen && ((CallKeys.derive hkdf leg.keyB64 leg.caller).toOption.isNone ||
      decoder.toOption.isNone) then [.clear] else []
  | .running g, .wire id event =>
    if id = n then
      match event with
      | .frame wire => (((g.legs.get n).bind fun leg => (leg.line.hear A wire g.decodeBuf).1).toList).map .push
      | .peerLeft | .closed => [.clear]
      | _ => []
    else []
  | .running g, .tick muted captured =>
    match (g.capture A muted captured).2 with
    | .error _ => [.clear]
    | .ok _ => [.pop]
  | .running _, _ => []

/-- The frame of a packet for a leg. -/
def LegState.frameOf (packet : Bytes) (leg : LegState S) : Option Bytes :=
  if leg.peerHere then (leg.keys.sealFrame A packet).1.toOption else none

theorem sendAll_fits {packet : Bytes} (hfits : fits packet = true) :
    ∀ entries : List (Sigma fun _ : ℕ => LegState S),
    sendAll A packet entries = (entries.filterMap fun e => (e.2.frameOf A packet).map (.sent e.1), .ok ())
  | [] => rfl
  | ⟨id, leg⟩ :: rest => by
    have hsmall : ¬ packet.length > paddedPlaintext - 2 := by simpa [fits] using hfits
    have hrest := sendAll_fits hfits rest
    unfold sendAll
    unfold LegState.frameOf CallKeys.sealFrame at hrest ⊢
    simp only [if_neg hsmall] at hrest ⊢
    cases hhere : leg.peerHere with
    | false => simp [hhere, hrest]
    | true => simp [hhere, hrest, Except.toOption]

theorem sendAll_large {packet : Bytes} (hfits : fits packet = false) :
    ∀ entries : List (Sigma fun _ : ℕ => LegState S), entries.any (·.2.peerHere) = true →
      sendAll A packet entries = ([], .error "audio frame too large")
  | [], h => by cases h
  | ⟨id, leg⟩ :: rest, h => by
    have hlarge : packet.length > paddedPlaintext - 2 := by simpa [fits] using hfits
    unfold sendAll
    cases hhere : leg.peerHere with
    | false =>
      have hrest := sendAll_large hfits rest (by simpa [hhere] using h)
      simpa using hrest
    | true =>
      unfold CallKeys.sealFrame
      simp [if_pos hlarge]

/-- What a tick sends. -/
theorem capture_cases (g : GroupCall S) (muted : Bool) (captured : Option Frame) :
    (g.legs.entries.any (·.2.peerHere) = false ∧ g.capture A muted captured = ([], .ok g)) ∨
    (g.legs.entries.any (·.2.peerHere) = true ∧
      ((∃ e enc, S.encode g.enc (voiced muted captured) = (.error e, enc) ∧ g.capture A muted captured = ([], .error e)) ∨
      ∃ packet enc, S.encode g.enc (voiced muted captured) = (.ok packet, enc) ∧
        ((fits packet = false ∧ ∃ e, g.capture A muted captured = ([], .error e)) ∨
          fits packet = true ∧ g.capture A muted captured =
            (g.legs.entries.filterMap fun e => (e.2.frameOf A packet).map (.sent e.1),
            .ok { g with enc, legs := g.legs.mapValues (LegState.sealed A packet) })))) := by
  unfold GroupCall.capture
  cases hany : g.legs.entries.any (·.2.peerHere) with
  | false => exact Or.inl ⟨rfl, rfl⟩
  | true =>
    refine Or.inr ⟨rfl, ?_⟩
    rcases S.encode g.enc (voiced muted captured) with ⟨e | packet, enc⟩
    · exact Or.inl ⟨e, enc, rfl, rfl⟩
    refine Or.inr ⟨packet, enc, rfl, ?_⟩
    cases hfits : fits packet with
    | false =>
      have hlarge := sendAll_large A hfits _ hany
      exact Or.inl ⟨rfl, "audio frame too large", by simp only [if_true, hlarge]⟩
    | true =>
      refine Or.inr ⟨rfl, ?_⟩
      simp only [if_true, sendAll_fits A hfits]

/-- What a step does to a leg, and what is sent and heard of it, is what the
two parts of the leg do. -/
structure LegStep (n : ℕ) (s : GroupRun S) (ins : List LineInput) (ops : List (Jitter.Op Frame))
    (out : List GroupOutput) (s' : GroupRun S) : Prop where
  line : legLine n s' = Trace.run (lineStep A) (legLine n s) ins
  queue : legQueue n s' = Trace.run (Jitter.step jitterFrames) (legQueue n s) ops
  said : out.filterMap (GroupOutput.wireOf n) = Trace.observe (lineStep A) (said A) (legLine n s) ins
  pushed : Jitter.pushes ops = Trace.observe (lineStep A) (sounded A) (legLine n s) ins

/-- A step that leaves the leg as it is. -/
theorem LegStep.same {n : ℕ} {g g' : GroupCall S} {out : List GroupOutput}
    (h : g'.legs.get n = g.legs.get n) (hout : out.filterMap (GroupOutput.wireOf n) = []) :
    LegStep A n (.running g) [] [] out (.running g') where
  line := by
    simp only [legLine, h]
    rfl
  queue := by
    simp only [legQueue, h]
    rfl
  said := hout
  pushed := rfl

/-- A step that ends the call. -/
theorem LegStep.ends {n : ℕ} {g : GroupCall S} {out : List GroupOutput} {r : Except String Unit}
    (hout : out.filterMap (GroupOutput.wireOf n) = []) :
    LegStep A n (.running g) [.hangUp] [.clear] out (.finished r) where
  line := by
    unfold legLine
    dsimp only
    cases g.legs.get n <;> rfl
  queue := rfl
  said := by
    rw [hout]
    unfold legLine
    dsimp only
    cases g.legs.get n <;> rfl
  pushed := by
    unfold legLine
    dsimp only
    cases g.legs.get n <;> rfl

theorem wireOf_entries (n : ℕ) (f : LegState S → Option Bytes) (legs : Table ℕ (LegState S)) :
    (legs.entries.filterMap fun e => (f e.2).map (GroupOutput.sent e.1)).filterMap (GroupOutput.wireOf n) =
      ((legs.get n).bind f).toList := by
  rw [← Table.filterMap_entries, List.filterMap_filterMap]
  refine List.filterMap_congr fun e _ => ?_
  cases f e.2 with
  | none => simp
  | some wire => rfl

theorem legStep_tick (n : ℕ) (g : GroupCall S) (muted : Bool) (captured : Option Frame) :
    LegStep A n (.running g) (legGiven hkdf n (.running g) (.tick muted captured))
      (queueGiven A hkdf n (.running g) (.tick muted captured))
        (g.tick A muted captured).1 (g.tick A muted captured).2 := by
  have hmix : ∀ (g' : GroupCall S), g'.mix.1.filterMap (GroupOutput.wireOf n) = [] := by
    intro g'
    unfold GroupCall.mix
    dsimp only
    split <;> rfl
  have hpopped : ∀ (g' : GroupCall S), g'.mix.2.legs.get n = (g'.legs.get n).map LegState.popped :=
    fun g' => Table.get_mapValues _ _ _
  unfold GroupCall.tick
  simp only [legGiven, queueGiven]
  obtain ⟨hany, hcap⟩ | ⟨hany, ⟨e, enc, henc, hcap⟩ | ⟨packet, enc, henc, ⟨hfits, e, hcap⟩ | ⟨hfits, hcap⟩⟩⟩ :=
    capture_cases A g muted captured
  · rw [hcap, hany]
    refine ⟨?_, ?_, hmix g, rfl⟩
    · simp only [legLine, hpopped]
      cases g.legs.get n <;> rfl
    · simp only [legQueue, hpopped]
      cases g.legs.get n <;> rfl
  · rw [hcap, hany, henc]
    exact .ends A rfl
  · rw [hcap, hany, henc]
    simp only [hfits, if_true]
    exact .ends A rfl
  · have hsent := wireOf_entries n (LegState.frameOf A packet) g.legs
    rw [hcap, hany, henc]
    simp only [hfits, if_true]
    refine ⟨?_, ?_, ?_, ?_⟩
    · simp only [legLine, hpopped, Table.get_mapValues]
      rcases g.legs.get n with _ | leg
      · rfl
      · cases hhere : leg.peerHere <;> simp [LegState.sealed, LegState.popped, LegState.line,
          hhere, lineStep]
    · simp only [legQueue, hpopped, Table.get_mapValues]
      rcases g.legs.get n with _ | leg
      · rfl
      · cases hhere : leg.peerHere <;> simp [LegState.sealed, LegState.popped, hhere, Jitter.step]
    · rw [List.filterMap_append, hsent, hmix, List.append_nil]
      simp only [legLine]
      rcases g.legs.get n with _ | leg
      · rfl
      · cases hhere : leg.peerHere <;> simp [LegState.frameOf, hhere, LegState.line, Sona.said]
    · simp only [legLine]
      rcases g.legs.get n with _ | leg
      · rfl
      · cases hhere : leg.peerHere <;> simp [hhere, Jitter.pushes, sounded]

theorem legStep_hear (n : ℕ) (g : GroupCall S) {leg : LegState S} (hleg : g.legs.get n = some leg)
    (wire : Bytes) :
    LegStep A n (.running g) [.hear wire g.decodeBuf] ((leg.line.hear A wire g.decodeBuf).1.toList.map .push)
      (g.hear A n leg wire).1 (g.hear A n leg wire).2 := by
  unfold GroupCall.hear
  rcases hhear : leg.line.hear A wire g.decodeBuf with ⟨_ | frame, line⟩
  · refine ⟨?_, ?_, ?_, ?_⟩
    · simp only [legLine, Table.get_set_self, hleg, Option.map_some, Trace.run_cons, Trace.run_nil,
        lineStep, hhear]
      rfl
    · simp only [legQueue, Table.get_set_self, hleg]
      rfl
    · simp only [legLine, hleg]
      rfl
    · simp only [legLine, hleg, Option.map_some, Trace.observe_cons, Trace.observe_nil,
        sounded, hhear]
      rfl
  · refine ⟨?_, ?_, ?_, ?_⟩
    · simp only [legLine, Table.get_set_self, hleg, Option.map_some, Trace.run_cons, Trace.run_nil,
        lineStep, hhear]
      rfl
    · simp only [legQueue, Table.get_set_self, hleg]
      rfl
    · simp only [legLine, hleg]
      cases leg.connectedReported <;> rfl
    · simp only [legLine, hleg, Option.map_some, Trace.observe_cons, Trace.observe_nil,
        sounded, hhear]
      rfl

theorem legStep_wire (n id : ℕ) (g : GroupCall S) (event : CallWireEvent) :
    LegStep A n (.running g) (legGiven hkdf n (.running g) (.wire id event))
      (queueGiven A hkdf n (.running g) (.wire id event)) (groupStep A hkdf (.running g) (.wire id event)).1
      (groupNext A hkdf (.running g) (.wire id event)) := by
  unfold groupNext groupStep legGiven queueGiven
  by_cases hid : id = n
  · subst hid
    dsimp only
    cases hleg : g.legs.get id with
    | none =>
      -- the leg is gone, and what still arrives for it is dropped
      rcases event with _ | _ | _ | wire | _ <;> refine ⟨?_, ?_, ?_, ?_⟩
        <;> simp [legLine, legQueue, hleg, lineStep, Jitter.step,
        said, sounded, Jitter.pushes]
    | some leg =>
      simp only [if_true, Option.bind_some]
      rcases event with peers | _ | _ | wire | _
      · refine ⟨?_, ?_, rfl, rfl⟩ <;> simp only [GroupCall.onWire, legLine, legQueue,
          Table.get_set_self, hleg] <;> rfl
      · refine ⟨?_, ?_, rfl, rfl⟩ <;> simp only [GroupCall.onWire, legLine, legQueue,
          Table.get_set_self, hleg] <;> rfl
      · refine ⟨?_, ?_, ?_, ?_⟩ <;> simp only [GroupCall.onWire, legLine, legQueue,
          Table.get_remove_self, hleg] <;> rfl
      · exact legStep_hear A id g hleg wire
      · refine ⟨?_, ?_, ?_, ?_⟩ <;> simp only [GroupCall.onWire, legLine, legQueue,
          Table.get_remove_self, hleg] <;> rfl
  · have hne : n ≠ id := fun h => hid h.symm
    simp only [if_neg hid]
    cases hleg : g.legs.get id with
    | none => exact .same A rfl rfl
    | some leg =>
      rcases event with peers | _ | _ | wire | _
      · exact .same A (Table.get_set_ne _ _ hne) rfl
      · exact .same A (Table.get_set_ne _ _ hne) rfl
      · exact .same A (Table.get_remove_ne _ hne) rfl
      · unfold GroupCall.onWire GroupCall.hear
        dsimp only
        split
        · exact .same A (Table.get_set_ne _ _ hne) rfl
        · refine .same A (Table.get_set_ne _ _ hne) ?_
          split <;> rfl
      · exact .same A (Table.get_remove_ne _ hne) rfl

/-- A leg has a number that was given out. -/
def GroupRun.Given (n : ℕ) : GroupRun S → Prop
  | .running g => n < g.nextLegId
  | .finished _ => True

/-- What is no leg that joins moves a leg as its own two parts move. -/
theorem legStep_other (n : ℕ) (s : GroupRun S) (e : GroupInput S)
    (he : ∀ leg decoder, e ≠ .leg leg decoder) :
    LegStep A n s (legGiven hkdf n s e) (queueGiven A hkdf n s e) (groupStep A hkdf s e).1 (groupNext A hkdf s e) := by
  cases s with
  | finished r => exact ⟨rfl, rfl, rfl, rfl⟩
  | running g =>
    cases e with
    | stop => exact .ends A rfl
    | legsClosed => exact .same A rfl rfl
    | gain peerKey percent => exact .same A rfl rfl
    | tick muted captured => exact legStep_tick A hkdf n g muted captured
    | wire id event => exact legStep_wire A hkdf n id g event
    | leg leg decoder => exact absurd rfl (he leg decoder)

/-- **A leg is a component of its engine**, whatever the other legs do. -/
theorem legStep (n : ℕ) (s : GroupRun S) (e : GroupInput S) (hn : s.Given n) :
    LegStep A n s (legGiven hkdf n s e) (queueGiven A hkdf n s e) (groupStep A hkdf s e).1 (groupNext A hkdf s e) := by
  cases e with
  | leg leg decoder =>
    cases s with
    | finished r => exact ⟨rfl, rfl, rfl, rfl⟩
    | running g =>
      simp only [groupNext, groupStep, legGiven, queueGiven]
      cases hopen : g.legsOpen with
      | false => exact .same A rfl rfl
      | true =>
        simp only [if_true, Bool.true_and, GroupCall.join]
        cases hkeys : CallKeys.derive hkdf leg.keyB64 leg.caller with
        | error e =>
          cases decoder <;> exact .ends A rfl
        | ok keys =>
          cases decoder with
          | error e => exact .ends A rfl
          | ok decoder => exact .same A (Table.get_set_ne _ _ (Nat.ne_of_lt hn)) rfl
  | _ => exact legStep_other A hkdf n s _ (by simp)

/-- The numbers that were given out, of a step: a leg that joins has the next one. -/
theorem nextLegId_step (g : GroupCall S) (e : GroupInput S) :
    ∀ g', groupNext A hkdf (.running g) e = .running g' →
    g'.nextLegId = g.nextLegId + (joining hkdf (.running g) e).length := by
  intro g' h
  cases e with
  | stop => cases h
  | legsClosed => cases h; rfl
  | gain peerKey percent => cases h; rfl
  | tick muted captured =>
    simp only [groupNext, groupStep, GroupCall.tick] at h
    obtain ⟨-, hcap⟩ | ⟨-, ⟨e, enc, -, hcap⟩ | ⟨packet, enc, -, ⟨-, e, hcap⟩ | ⟨-, hcap⟩⟩⟩ :=
      capture_cases A g muted captured
    all_goals
      rw [hcap] at h
      cases h
      try rfl
  | wire id event =>
    simp only [groupNext, groupStep] at h
    cases hleg : g.legs.get id with
    | none =>
      rw [hleg] at h
      cases h
      rfl
    | some leg =>
      rw [hleg] at h
      rcases event with peers | _ | _ | wire | _
      · cases h; rfl
      · cases h; rfl
      · cases h; rfl
      · simp only [GroupCall.onWire, GroupCall.hear] at h
        split at h <;> cases h <;> rfl
      · cases h; rfl
  | leg leg decoder =>
    simp only [groupNext, groupStep] at h
    cases hopen : g.legsOpen with
    | false =>
      rw [hopen] at h
      cases h
      cases decoder <;> simp [joining, hopen]
    | true =>
      simp only [hopen, if_true, GroupCall.join] at h
      cases hkeys : CallKeys.derive hkdf leg.keyB64 leg.caller with
      | error e =>
        rw [hkeys] at h
        cases decoder <;> cases h
      | ok keys =>
        rw [hkeys] at h
        cases decoder with
        | error e => cases h
        | ok decoder =>
          cases h
          simp [joining, hopen, hkeys, Except.toOption]

theorem given_step (n : ℕ) (s : GroupRun S) (e : GroupInput S) (hn : s.Given n) :
    (groupNext A hkdf s e).Given n := by
  cases s with
  | finished r => exact trivial
  | running g =>
    cases hnext : groupNext A hkdf (.running g) e with
    | finished r => exact trivial
    | running g' =>
      have hid := nextLegId_step A hkdf g e g' hnext
      change n < g'.nextLegId
      have hlt : n < g.nextLegId := hn
      omega

/-- The end of its room. -/
def groupLine (n : ℕ) : Trace.Component (groupNext A hkdf (S := S)) (lineStep A (S := S)) where
  inv := GroupRun.Given n
  view := legLine n
  given := legGiven hkdf n
  keep := given_step A hkdf n
  moves s e hn := (legStep A hkdf n s e hn).line

/-- The queue of frames that wait for playout. -/
def groupQueue (n : ℕ) : Trace.Component (groupNext A hkdf (S := S))
    (Jitter.step jitterFrames : List Frame → Jitter.Op Frame → List Frame) where
  inv := GroupRun.Given n
  view := legQueue n
  given := queueGiven A hkdf n
  keep := given_step A hkdf n
  moves s e hn := (legStep A hkdf n s e hn).queue

/-! ### What is heard -/

theorem sheet_heard (n : ℕ) (g : GroupCall S) :
    heardOf n g.sheet = ((g.legs.get n).bind fun leg => leg.playout.head?).toList := by
  unfold heardOf GroupCall.sheet
  rw [← Table.filterMap_entries, List.filterMap_filterMap]
  refine List.filterMap_congr fun e _ => ?_
  cases e.2.playout.head? with
  | none => simp
  | some frame => rfl

/-- What goes into the mix of a leg is what is popped from its queue. -/
theorem heard_step (n : ℕ) (s : GroupRun S) (e : GroupInput S) :
    (sheeting A s e).flatMap (heardOf n) =
    Trace.observe (Jitter.step jitterFrames) Jitter.popped (legQueue n s) (queueGiven A hkdf n s e) := by
  have hempty : ∀ g' : GroupCall S, (if g'.sheet.isEmpty then [] else [g'.sheet]).flatMap
      (heardOf n) =
      heardOf n g'.sheet := by
    intro g'
    cases hsheet : g'.sheet with
    | nil => rfl
    | cons x sheet => simp
  cases s with
  | finished r => rfl
  | running g =>
    cases e with
    | tick muted captured =>
      simp only [sheeting, queueGiven]
      have hhead : ∀ l : List Frame, l.head?.toList = l.take 1 := fun l => by cases l <;> rfl
      have hqueue : ∀ o : Option (LegState S), (o.bind fun leg => leg.playout.head?).toList =
          ((o.map LegState.playout).getD []).take 1 := by
        rintro (_ | leg)
        · rfl
        · exact hhead _
      obtain ⟨hany, hcap⟩ | ⟨hany, ⟨e, enc, henc, hcap⟩ | ⟨packet, enc, henc, ⟨hfits, e, hcap⟩ | ⟨hfits, hcap⟩⟩⟩ :=
        capture_cases A g muted captured
      · rw [hcap]
        simp only [hempty, sheet_heard, hqueue, Trace.observe_cons, Trace.observe_nil,
          List.append_nil, Jitter.popped, legQueue]
      · rw [hcap]
        rfl
      · rw [hcap]
        rfl
      · rw [hcap]
        have hsame : ((g.legs.mapValues (LegState.sealed A packet)).get n).map LegState.playout =
            (g.legs.get n).map LegState.playout := by
          rw [Table.get_mapValues]
          rcases g.legs.get n with _ | leg
          · rfl
          · unfold LegState.sealed
            cases hhere : leg.peerHere <;> simp [hhere]
        simp only [hempty, sheet_heard, hqueue, hsame, Trace.observe_cons, Trace.observe_nil,
          List.append_nil, Jitter.popped,
          legQueue]
    | wire id event =>
      simp only [sheeting, queueGiven]
      split
      · split
        · rename_i wire
          cases (g.legs.get n).bind fun leg => (leg.line.hear A wire g.decodeBuf).1 <;> rfl
        · rfl
        · rfl
        · rfl
      · rfl
    | leg leg decoder =>
      simp only [sheeting, queueGiven]
      split <;> rfl
    | _ => rfl

theorem frame_sent (f : Sigma (fun _ : ℕ => LegState S) → Option Bytes)
    (entries : List (Sigma fun _ : ℕ => LegState S)) :
    (entries.filterMap fun e => (f e).map (GroupOutput.sent e.1)).filterMap GroupOutput.frame = [] := by
  rw [List.filterMap_filterMap, List.filterMap_eq_nil_iff]
  intro e _
  cases f e <;> rfl

theorem played_step (s : GroupRun S) (e : GroupInput S) :
    (groupStep A hkdf s e).1.filterMap GroupOutput.frame = (sheeting A s e).map (mixSheet S) := by
  have hmix : ∀ g : GroupCall S, g.mix.1.filterMap GroupOutput.frame =
      (if g.sheet.isEmpty then [] else [g.sheet]).map (mixSheet S) := by
    intro g
    unfold GroupCall.mix
    cases hsheet : g.sheet <;> simp [GroupOutput.frame]
  cases s with
  | finished r => rfl
  | running g =>
    cases e with
    | stop => rfl
    | legsClosed => rfl
    | gain peerKey percent => rfl
    | tick muted captured =>
      simp only [groupStep, GroupCall.tick, sheeting]
      obtain ⟨hany, hcap⟩ | ⟨hany, ⟨e, enc, henc, hcap⟩ | ⟨packet, enc, henc, ⟨hfits, e, hcap⟩ | ⟨hfits, hcap⟩⟩⟩ :=
        capture_cases A g muted captured
      · rw [hcap]
        exact hmix g
      · rw [hcap]
        rfl
      · rw [hcap]
        rfl
      · rw [hcap]
        simp only [List.filterMap_append]
        rw [frame_sent fun e => e.2.frameOf A packet]
        exact hmix _
    | wire id event =>
      simp only [groupStep]
      cases g.legs.get id with
      | none => rfl
      | some leg =>
        rcases event with peers | _ | _ | wire | _
        · rfl
        · rfl
        · rfl
        · simp only [GroupCall.onWire, GroupCall.hear]
          split
          · rfl
          · dsimp only
            split <;> rfl
        · rfl
    | leg leg decoder =>
      simp only [groupStep, GroupCall.join]
      split
      · split <;> rfl
      · rfl

/-- Every frame that is played is the mix of a sheet. -/
theorem group_played (s : GroupRun S) (es : List (GroupInput S)) :
    groupOut A hkdf GroupOutput.frame s es = (sheets A hkdf s es).map (mixSheet S) := by
  unfold groupOut sheets
  rw [Trace.map_observe]
  exact Trace.observe_congr (I := fun _ => True) (fun _ _ _ => trivial)
    (fun s e _ => played_step A hkdf s e) es trivial

theorem groupOut_cons {B : Type} (kind : GroupOutput → Option B) (s : GroupRun S) (e : GroupInput S)
    (es : List (GroupInput S)) :
    groupOut A hkdf kind s (e :: es) =
      (groupStep A hkdf s e).1.filterMap kind ++ groupOut A hkdf kind
      (groupNext A hkdf s e) es :=
  rfl

/-! ### A leg from when it joins -/

theorem groupOver_stays (r : Except String Unit) (es : List (GroupInput S)) :
    Trace.run (groupNext A hkdf (S := S)) (.finished r) es = .finished r :=
  Trace.run_inv (I := fun s : GroupRun S => s = .finished r) (fun s e hs => by subst hs; rfl) rfl es

theorem groupOver_quiet {B : Type} {f : GroupRun S → GroupInput S → List B}
    (hf : ∀ r e, f (.finished r) e = []) (r : Except String Unit) (es : List (GroupInput S)) :
    Trace.observe (groupNext A hkdf) f (.finished r) es = [] :=
  Trace.observe_eq_nil (I := fun s : GroupRun S => s = .finished r) (fun s e hs => by subst hs; rfl)
    (fun s e hs => by subst hs; exact hf r e) es rfl

theorem groupOut_over {B : Type} (kind : GroupOutput → Option B) (r : Except String Unit)
    (es : List (GroupInput S)) :
    groupOut A hkdf kind (S := S) (.finished r) es = [] :=
  groupOver_quiet A hkdf (fun _ _ => rfl) r es

/-- A leg joins, or none does. -/
theorem joining_cases (g : GroupCall S) (e : GroupInput S) : joining hkdf (.running g) e = [] ∨
    ∃ leg decoder keys, e = .leg leg (.ok decoder) ∧
    joining hkdf (.running g) e = [(leg, decoder)] ∧ g.legsOpen = true ∧
      CallKeys.derive hkdf leg.keyB64 leg.caller = .ok keys ∧
      groupNext A hkdf (.running g) e = .running { g with
        legs := g.legs.set g.nextLegId { peerKey := leg.peerKey, keys, decoder }
        nextLegId := g.nextLegId + 1 } := by
  cases e with
  | leg leg decoder =>
    cases decoder with
    | error e => exact Or.inl rfl
    | ok decoder =>
      cases hopen : g.legsOpen with
      | false => exact Or.inl (by simp [joining, hopen])
      | true =>
        cases hkeys : CallKeys.derive hkdf leg.keyB64 leg.caller with
        | error e => exact Or.inl (by simp [joining, hkeys, Except.toOption])
        | ok keys =>
          refine Or.inr ⟨leg, decoder, keys, rfl, ?_, rfl, hkeys, ?_⟩
          · simp [joining, hopen, hkeys, Except.toOption]
          · simp only [groupNext, groupStep, hopen, if_true, GroupCall.join, hkeys]
  | _ => exact Or.inl rfl

/-- A leg that joins, of the legs that do. -/
theorem joined_split :
    ∀ (es : List (GroupInput S)) (g : GroupCall S) (k : ℕ) (x : GroupLeg × S.Decoder),
    (joined A hkdf (.running g) es)[k]? = some x →
    ∃ pre post g' keys, es = pre ++ .leg x.1 (.ok x.2) :: post ∧
      Trace.run (groupNext A hkdf) (.running g) pre = .running g' ∧ g'.nextLegId = g.nextLegId + k ∧
      g'.legsOpen = true ∧
      CallKeys.derive hkdf x.1.keyB64 x.1.caller = .ok keys
  | [], _, _, _, h => by cases h
  | e :: es, g, k, x, h => by
    have hcons : joined A hkdf (.running g) (e :: es) =
        joining hkdf (.running g) e ++ joined A hkdf (groupNext A hkdf (.running g) e) es := rfl
    rw [hcons] at h
    have hlater : ∀ j, (joined A hkdf (groupNext A hkdf (.running g) e) es)[j]? = some x →
        (joining hkdf (.running g) e).length + j = k →
        ∃ pre post g' keys, e :: es = pre ++ .leg x.1 (.ok x.2) :: post ∧
          Trace.run (groupNext A hkdf) (.running g) pre = .running g' ∧
          g'.nextLegId = g.nextLegId + k ∧ g'.legsOpen =
            true ∧
          CallKeys.derive hkdf x.1.keyB64 x.1.caller = .ok keys := by
      intro j hj hk
      cases hnext : groupNext A hkdf (.running g) e with
      | finished r =>
        rw [hnext] at hj
        have hnone : joined A hkdf (.finished r) es = [] :=
          groupOver_quiet A hkdf (fun _ _ => rfl) r es
        rw [hnone] at hj
        cases hj
      | running g₁ =>
        rw [hnext] at hj
        obtain ⟨pre, post, g', keys, rfl, hrun, hid, hopen, hkeys⟩ := joined_split es g₁ j x hj
        have hnum := nextLegId_step A hkdf g e g₁ hnext
        refine ⟨e :: pre, post, g', keys, rfl, ?_, by omega, hopen, hkeys⟩
        rw [Trace.run_cons, hnext]
        exact hrun
    obtain hnone | ⟨leg, decoder, keys, rfl, hone, hopen, hkeys, -⟩ := joining_cases A hkdf g e
    · rw [hnone] at h
      exact hlater k h (by rw [hnone]; exact Nat.zero_add k)
    · rw [hone] at h
      cases k with
      | zero =>
        cases h
        exact ⟨[], es, g, keys, rfl, rfl, rfl, hopen, hkeys⟩
      | succ k => exact hlater k h (by rw [hone]; exact Nat.add_comm 1 k)

/-- No leg has a number that was not given out. -/
def GroupCall.Fresh (g : GroupCall S) : Prop := ∀ m, g.nextLegId ≤ m → g.legs.get m = none

theorem fresh_step {g g' : GroupCall S} (hfresh : g.Fresh) {e : GroupInput S}
    (hnext : groupNext A hkdf (.running g) e = .running g') :
    g'.Fresh := by
  intro m hm
  have hid := nextLegId_step A hkdf g e g' hnext
  have hnone : g.legs.get m = none := hfresh m (by omega)
  have hother : (∀ leg decoder, e ≠ .leg leg decoder) → g'.legs.get m = none := by
    intro he
    have hline := (legStep_other A hkdf m (.running g) e he).line
    have hgone : ∀ ins, Trace.run (lineStep A) (none : Option (Line S)) ins = none :=
      fun ins => Trace.run_inv (I := fun l => l = none) (fun _ _ hl => by subst hl; rfl) rfl ins
    simp only [hnext, legLine, hnone, Option.map_none, hgone] at hline
    simpa using hline
  cases e with
  | leg leg decoder =>
    simp only [groupNext, groupStep] at hnext
    cases hopen : g.legsOpen with
    | false =>
      rw [hopen] at hnext
      cases hnext
      exact hnone
    | true =>
      simp only [hopen, if_true, GroupCall.join] at hnext
      cases hkeys : CallKeys.derive hkdf leg.keyB64 leg.caller with
      | error e =>
        rw [hkeys] at hnext
        cases decoder <;> cases hnext
      | ok keys =>
        rw [hkeys] at hnext
        cases decoder with
        | error e => cases hnext
        | ok decoder =>
          cases hnext
          have hne : m ≠ g.nextLegId := by
            intro heq
            subst heq
            exact absurd hm (Nat.not_succ_le_self _)
          exact (Table.get_set_ne _ _ hne).trans hnone
  | _ => exact hother (by simp)

/-- Of a leg that has not joined nothing is told. -/
theorem unborn_run {B : Type} {f : GroupRun S → GroupInput S → List B} {n : ℕ}
    (hf : ∀ g e, g.legs.get n = none → f (.running g) e = []) :
      ∀ (pre : List (GroupInput S)) (g g' : GroupCall S), g.Fresh →
    Trace.run (groupNext A hkdf) (.running g) pre = .running g' → g'.nextLegId ≤ n →
    g.nextLegId ≤ n ∧ g'.Fresh ∧ Trace.observe (groupNext A hkdf) f (.running g) pre = []
  | [], g, g', hfresh, hrun, hn => by
    cases hrun
    exact ⟨hn, hfresh, rfl⟩
  | e :: pre, g, g', hfresh, hrun, hn => by
    rw [Trace.run_cons] at hrun
    cases hnext : groupNext A hkdf (.running g) e with
    | finished r =>
      rw [hnext, groupOver_stays] at hrun
      cases hrun
    | running g₁ =>
      rw [hnext] at hrun
      obtain ⟨hle, hfresh', hrest⟩ := unborn_run hf pre g₁ g' (fresh_step A hkdf hfresh hnext) hrun hn
      have hid := nextLegId_step A hkdf g e g₁ hnext
      have hbefore : g.nextLegId ≤ n := by omega
      refine ⟨hbefore, hfresh', ?_⟩
      rw [Trace.observe_cons, hnext, hrest, hf g e (hfresh n hbefore)]
      rfl

/-- What is told of a leg is told of what happens from when it joins. -/
theorem leg_joins {enc : S.Encoder} {es : List (GroupInput S)} {n : ℕ} {x : GroupLeg × S.Decoder}
    (hn : (joined A hkdf (startGroup (.ok enc)) es)[n]? = some x) :
    ∃ keys s post, CallKeys.derive hkdf x.1.keyB64 x.1.caller = .ok keys ∧ s.Given n ∧
    legLine n s = some ⟨keys, x.2⟩ ∧
      legQueue n s = [] ∧ ∀ {B : Type} (f : GroupRun S → GroupInput S → List B),
        (∀ g e, g.legs.get n = none → f (.running g) e = []) →
        Trace.observe (groupNext A hkdf) f (startGroup (.ok enc)) es =
          Trace.observe (groupNext A hkdf) f s post := by
  obtain ⟨pre, post, g, keys, rfl, hrun, hid, hopen, hkeys⟩ := joined_split A hkdf es { enc } n x hn
  rw [Nat.zero_add] at hid
  have hempty : GroupCall.Fresh ({ enc } : GroupCall S) := fun _ _ => rfl
  have hnext : groupNext A hkdf (.running g) (.leg x.1 (.ok x.2)) = .running { g with
      legs := g.legs.set n { peerKey := x.1.peerKey, keys, decoder := x.2 }
      nextLegId := n + 1 } := by
    simp only [groupNext, groupStep, hopen, if_true, GroupCall.join, hkeys, hid]
  refine ⟨keys, .running { g with
      legs := g.legs.set n { peerKey := x.1.peerKey, keys, decoder := x.2 }
      nextLegId := n + 1 }, post, hkeys, Nat.lt_succ_self n, ?_, ?_, fun f hf => ?_⟩
  rotate_left 2
  · obtain ⟨-, hfresh, hbefore⟩ := unborn_run A hkdf hf pre { enc } g hempty hrun (Nat.le_of_eq hid)
    change Trace.observe (groupNext A hkdf) f (.running { enc }) _ = _
    rw [Trace.observe_append, hbefore, hrun, Trace.observe_cons,
      hf g _ (hfresh n (Nat.le_of_eq hid)), hnext]
    rfl
  · simp only [legLine, Table.get_set_self]
    rfl
  · simp only [legQueue, Table.get_set_self]
    rfl

theorem unborn_said (n : ℕ) (g : GroupCall S) (e : GroupInput S) (hn : g.legs.get n = none) :
    (groupStep A hkdf (.running g) e).1.filterMap (GroupOutput.wireOf n) = [] := by
  by_cases he : ∀ leg decoder, e ≠ .leg leg decoder
  · have hsaid := (legStep_other A hkdf n (.running g) e he).said
    simp only [legLine, hn, Option.map_none] at hsaid
    exact hsaid.trans (gone_run (fun _ => rfl) _)
  · cases e with
    | leg leg decoder =>
      simp only [groupStep, GroupCall.join]
      split
      · split <;> rfl
      · rfl
    | _ => exact absurd (by simp) he

theorem unborn_heard (n : ℕ) (g : GroupCall S) (e : GroupInput S) (hn : g.legs.get n = none) :
    (sheeting A (.running g) e).flatMap (heardOf n) = [] := by
  rw [heard_step A fun _ info => info]
  simp only [legQueue, hn, Option.map_none, Option.getD_none]
  cases e with
  | tick muted captured =>
    simp only [queueGiven]
    split <;> rfl
  | wire id event =>
    simp only [queueGiven, hn]
    split
    · split <;> rfl
    · rfl
  | leg leg decoder =>
    simp only [queueGiven]
    split <;> rfl
  | _ => rfl

theorem legGiven_unfilled (n : ℕ) (s : GroupRun S) (e : GroupInput S) :
    ∀ i ∈ legGiven hkdf n s e, ∀ buf, i ≠ .fill buf := by
  cases s with
  | finished r => simp [legGiven]
  | running g =>
    cases e with
    | stop => simp [legGiven]
    | legsClosed => simp [legGiven]
    | gain peerKey percent => simp [legGiven]
    | leg leg decoder =>
      simp only [legGiven]
      split <;> simp
    | wire id event =>
      simp only [legGiven]
      split
      · split <;> simp
      · simp
    | tick muted captured =>
      simp only [legGiven]
      split
      · split
        · simp
        · split
          · split <;> simp
          · simp
      · simp

/-- The packets that are said on a leg. -/
def legSaying (n : ℕ) (s : GroupRun S) (e : GroupInput S) : List Bytes :=
  Trace.observe (lineStep A) saying (legLine n s) (legGiven hkdf n s e)

/-- What a step says on a leg is what the encoder makes of the audio, or the call is over. -/
theorem group_encodes (n : ℕ) (g : GroupCall S) (e : GroupInput S) :
    (legSaying A hkdf n (.running g) e = [] ∧
      ((∃ r, groupNext A hkdf (.running g) e = .finished r) ∨
      ∃ g', groupNext A hkdf (.running g) e = .running g' ∧ groupVoicing (.running g) e = [] ∧
      g'.enc = g.enc)) ∨
    ∃ g' frame packet, groupNext A hkdf (.running g) e = .running g' ∧
    groupVoicing (.running g) e = [frame] ∧
      S.encode g.enc frame = (.ok packet, g'.enc) ∧
      (legSaying A hkdf n (.running g) e).Sublist [packet] := by
  have hquiet : ∀ (o : Option (Line S)) ins, (∀ i ∈ ins, ∀ packet, i ≠ .say packet) →
      Trace.observe (lineStep A) saying o ins = [] := by
    intro o ins
    induction ins generalizing o with
    | nil => exact fun _ => rfl
    | cons i ins ih =>
      intro h
      rw [Trace.observe_cons, ih _ fun j hj => h j (List.mem_cons_of_mem i hj), List.append_nil]
      cases i with
      | say packet => exact absurd rfl (h _ List.mem_cons_self packet)
      | _ => cases o <;> rfl
  cases e with
  | stop => exact Or.inl ⟨hquiet _ _ (by simp [legGiven]), Or.inl ⟨_, rfl⟩⟩
  | legsClosed => exact Or.inl ⟨rfl, Or.inr ⟨_, rfl, rfl, rfl⟩⟩
  | gain peerKey percent => exact Or.inl ⟨rfl, Or.inr ⟨_, rfl, rfl, rfl⟩⟩
  | leg leg decoder =>
    refine Or.inl ⟨hquiet _ _ ?_, ?_⟩
    · simp only [legGiven]
      split <;> simp
    · simp only [groupNext, groupStep, GroupCall.join]
      split
      · split
        · exact Or.inl ⟨_, rfl⟩
        · exact Or.inl ⟨_, rfl⟩
        · exact Or.inr ⟨_, rfl, rfl, rfl⟩
      · exact Or.inr ⟨_, rfl, rfl, rfl⟩
  | wire id event =>
    refine Or.inl ⟨hquiet _ _ ?_, Or.inr ?_⟩
    · simp only [legGiven]
      split
      · split <;> simp
      · simp
    · simp only [groupNext, groupStep]
      cases g.legs.get id with
      | none => exact ⟨_, rfl, rfl, rfl⟩
      | some leg =>
        rcases event with peers | _ | _ | wire | _
        · exact ⟨_, rfl, rfl, rfl⟩
        · exact ⟨_, rfl, rfl, rfl⟩
        · exact ⟨_, rfl, rfl, rfl⟩
        · simp only [GroupCall.onWire, GroupCall.hear]
          split <;> exact ⟨_, rfl, rfl, rfl⟩
        · exact ⟨_, rfl, rfl, rfl⟩
  | tick muted captured =>
    simp only [groupNext, groupStep, GroupCall.tick, legSaying, legGiven, groupVoicing]
    obtain ⟨hany, hcap⟩ | ⟨hany, ⟨e, enc, henc, hcap⟩ | ⟨packet, enc, henc, ⟨hfits, e, hcap⟩ | ⟨hfits, hcap⟩⟩⟩ :=
      capture_cases A g muted captured
    · rw [hcap, hany]
      exact Or.inl ⟨rfl, Or.inr ⟨_, rfl, rfl, rfl⟩⟩
    · rw [hcap, hany, henc]
      exact Or.inl ⟨hquiet _ _ (by simp), Or.inl ⟨_, rfl⟩⟩
    · rw [hcap, hany, henc]
      exact Or.inl ⟨hquiet _ _ (by simp [hfits]), Or.inl ⟨_, rfl⟩⟩
    · rw [hcap, hany, henc]
      refine Or.inr ⟨_, _, packet, rfl, rfl, henc, ?_⟩
      simp only [hfits, if_true]
      split
      · cases legLine n (.running g) <;> simp [saying]
      · exact List.nil_sublist _

/-- The packets that are said on a leg are, in order, what the encoder makes of the audio. -/
theorem group_saying (n : ℕ) : ∀ (es : List (GroupInput S)) (g : GroupCall S),
    (Trace.observe (groupNext A hkdf) (legSaying A hkdf n) (.running g) es).Sublist
      (encodeAll S g.enc (groupVoices A hkdf (.running g) es))
  | [], _ => List.nil_sublist _
  | e :: es, g => by
    change (legSaying A hkdf n (.running g) e ++ Trace.observe (groupNext A hkdf) (legSaying A hkdf n)
        (groupNext A hkdf (.running g) e) es).Sublist
      (encodeAll S g.enc (groupVoicing (.running g) e ++ groupVoices A hkdf (groupNext A hkdf (.running g) e) es))
    obtain ⟨hnone, ⟨r, hnext⟩ | ⟨g', hnext, hvoice, henc⟩⟩
      | ⟨g', frame, packet, hnext, hvoice, henc, hsaid⟩ :=
      group_encodes A hkdf n g e
    · rw [hnext, hnone, groupOver_quiet A hkdf (fun _ _ => rfl) r es]
      exact List.nil_sublist _
    · have hrest := group_saying n es g'
      rw [henc] at hrest
      rw [hnext, hnone, hvoice]
      exact hrest
    · have hrest := group_saying n es g'
      rw [hnext, hvoice]
      unfold encodeAll
      simp only [List.singleton_append, henc]
      exact hsaid.append hrest

/-- What arrives on a leg is what its end of the room hears. -/
theorem leg_hearing (n : ℕ) (s : GroupRun S) (e : GroupInput S) :
    legArriving n s e = Trace.observe (lineStep A) hearing (legLine n s) (legGiven hkdf n s e) := by
  have hquiet : ∀ (o : Option (Line S)) i,
      (∀ wire buf, i ≠ .hear wire buf) → Trace.observe (lineStep A) hearing o [i] = [] := by
    intro o i h
    cases i with
    | hear wire buf => exact absurd rfl (h wire buf)
    | _ => cases o <;> rfl
  cases s with
  | finished r => rfl
  | running g =>
    cases e with
    | stop => exact (hquiet _ _ (by simp)).symm
    | legsClosed => rfl
    | gain peerKey percent => rfl
    | leg leg decoder =>
      simp only [legArriving, legGiven]
      split
      · exact (hquiet _ _ (by simp)).symm
      · rfl
    | tick muted captured =>
      simp only [legArriving, legGiven]
      split
      · split
        · exact (hquiet _ _ (by simp)).symm
        · split
          · split
            · exact (hquiet _ _ (by simp)).symm
            · rfl
          · exact (hquiet _ _ (by simp)).symm
      · rfl
    | wire id event =>
      by_cases hid : id = n
      · subst hid
        rcases event with peers | _ | _ | wire | _
        · simp [legArriving, legGiven]
        · simp [legArriving, legGiven]
        · simp only [legArriving, legGiven, if_true]
          exact (hquiet _ _ (by simp)).symm
        · simp only [legArriving, legGiven, legLine, if_true, decide_true, Bool.true_and]
          cases g.legs.get id <;> rfl
        · simp only [legArriving, legGiven, if_true]
          exact (hquiet _ _ (by simp)).symm
      · rcases event with peers | _ | _ | wire | _ <;> simp [legArriving, legGiven, hid]

end leg

/-- **A call of many carries what is said.** Of two engines each has a leg to the other, with the
ticket of one offer. Whatever the relay makes of the frames in between and whatever the other legs
do, every frame that the one plays is the mix of a sheet, and what the sheets have of its leg is
what its decoder makes of packets that the other encoded, in order and each at most once. -/
theorem group_leg_carries {A : Aead} (hA : A.Opens) (hkdf : Bytes → Bytes → Bytes) {S S' : Sound}
    (enc : S.Encoder) (enc' : S'.Encoder) (es : List (GroupInput S)) (fs : List (GroupInput S'))
    {n m : ℕ} {leg leg' : GroupLeg} {dec : S.Decoder} {dec' : S'.Decoder}
    (hn : (joined A hkdf (startGroup (.ok enc)) es)[n]? = some (leg, dec))
    (hm : (joined A hkdf (startGroup (.ok enc')) fs)[m]? = some (leg', dec'))
    (hkey : leg'.keyB64 = leg.keyB64) (hside : leg'.caller = !leg.caller)
    (hcount : (groupOut A hkdf (GroupOutput.wireOf n) (startGroup (.ok enc)) es).length < 2 ^ 64)
    (hdelivered : ∀ w ∈ legArrivals A hkdf m (startGroup (.ok enc')) fs,
      w ∈ groupOut A hkdf (GroupOutput.wireOf n) (startGroup (.ok enc)) es ∨
        ∀ k, CallKeys.derive hkdf leg'.keyB64 leg'.caller = .ok k →
          decryptFrame A k.openKey w = none) :
    groupOut A hkdf GroupOutput.frame (startGroup (.ok enc')) fs =
        (sheets A hkdf (startGroup (.ok enc')) fs).map (mixSheet S') ∧
      ∃ (packets : List Bytes) (frames : List Frame),
        packets.Sublist (encodeAll S enc (groupVoices A hkdf (startGroup (.ok enc)) es)) ∧
        List.Forall₂ Shows (decodeAll S' dec' (packets.map some)) frames ∧
        ((sheets A hkdf (startGroup (.ok enc')) fs).flatMap (heardOf m)).Sublist frames := by
  obtain ⟨k, s, post, hk, hgiven, hline, -, hfrom⟩ := leg_joins A hkdf hn
  obtain ⟨o, s', post', ho, hgiven', hline', hqueue', hfrom'⟩ := leg_joins A hkdf hm
  -- the two ends of the room, and what is given to them
  have hsaid : groupOut A hkdf (GroupOutput.wireOf n) (startGroup (.ok enc)) es =
      Trace.observe (lineStep A) (said A) (some ⟨k, dec⟩)
        (Trace.observe (groupNext A hkdf) (legGiven hkdf n) s post) := by
    rw [← hline]
    exact (hfrom _ (unborn_said A hkdf n)).trans
      ((groupLine A hkdf n).observe (fun s e hn => (legStep A hkdf n s e hn).said) post hgiven)
  have hsaying : Trace.observe (groupNext A hkdf) (legSaying A hkdf n) (startGroup (.ok enc)) es =
      Trace.observe (lineStep A) saying (some ⟨k, dec⟩)
      (Trace.observe (groupNext A hkdf) (legGiven hkdf n) s post) := by
    rw [← hline]
    refine (hfrom _ fun g e hnone => ?_).trans
      ((groupLine A hkdf n).observe (fun _ _ _ => rfl) post hgiven)
    simp only [legSaying, legLine, hnone, Option.map_none]
    exact gone_run (fun _ => rfl) _
  have harrived : legArrivals A hkdf m (startGroup (.ok enc')) fs =
      Trace.observe (lineStep A) hearing (some ⟨o, dec'⟩)
        (Trace.observe (groupNext A hkdf) (legGiven hkdf m) s' post') := by
    rw [← hline']
    refine (hfrom' _ fun g e hnone => ?_).trans
      ((groupLine A hkdf m).observe (fun s e _ => leg_hearing A hkdf m s e) post' hgiven')
    rw [leg_hearing A hkdf]
    simp only [legLine, hnone, Option.map_none]
    exact gone_run (fun _ => rfl) _
  have hheard : (sheets A hkdf (startGroup (.ok enc')) fs).flatMap (heardOf m) =
      Trace.observe (Jitter.step jitterFrames) Jitter.popped [] (Trace.observe (groupNext A hkdf)
        (queueGiven A hkdf m) s' post') := by
    unfold sheets
    rw [Trace.flatMap_observe, ← hqueue']
    exact (hfrom' _ (unborn_heard A m)).trans
      ((groupQueue A hkdf m).observe (fun s e _ => heard_step A hkdf m s e) post' hgiven')
  have hpushed : Jitter.pushes (Trace.observe (groupNext A hkdf) (queueGiven A hkdf m) s' post') =
      Trace.observe (lineStep A) (sounded A) (some ⟨o, dec'⟩)
        (Trace.observe (groupNext A hkdf) (legGiven hkdf m) s' post') := by
    unfold Jitter.pushes
    rw [Trace.filterMap_observe, ← hline']
    exact (groupLine A hkdf m).observe
      (fun s e hm => (legStep A hkdf m s e hm).pushed) post' hgiven'
  -- the keys of the two are in sync
  have hends := derive_ends hkdf leg.keyB64 leg.caller
  rw [hkey, hside] at ho hdelivered
  rw [hk, ho] at hends
  obtain ⟨e, e', herr, -⟩ | ⟨k', o', hk', ho', hsync, hfresh⟩ := hends
  · cases herr
  cases hk'
  cases ho'
  rw [hsaid] at hcount hdelivered
  rw [harrived] at hdelivered
  have hopened := line_carries hA (l := ⟨k, dec⟩) (m := ⟨o, dec'⟩) hsync _ _
    (by rw [hfresh, Nat.zero_add]; exact hcount)
    fun w hw => (hdelivered w hw).imp_right fun h => h o ho
  have hshown := (line_heard (A := A) (Trace.observe (groupNext A hkdf) (legGiven hkdf m) s' post')
      (⟨o, dec'⟩ : Line S')).2
  have hunfilled :
      ∀ i ∈ Trace.observe (groupNext A hkdf) (legGiven hkdf m) s' post', ∀ buf, i ≠ .fill buf := by
    intro i hi
    obtain ⟨pre, e, rest, -, hmem⟩ := Trace.mem_observe hi
    exact legGiven_unfilled hkdf m _ e i hmem
  have hpopped := Jitter.popped_sublist jitterFrames
    (Trace.observe (groupNext A hkdf) (queueGiven A hkdf m) s' post') []
  rw [List.nil_append, hpushed, ← hheard] at hpopped
  rw [stream_unfilled _ _ hunfilled] at hshown
  rw [← hsaying] at hopened
  have hpackets := hopened.trans (group_saying A hkdf n es { enc })
  exact ⟨group_played A hkdf _ fs, _, _, hpackets, hshown,
    (List.sublist_append_left _ _).trans hpopped⟩

def toneLeg (caller : Bool) : GroupLeg := { peerKey := "peer", keyB64 := toneKey, caller }

/-- One leg, whose peer hears a tone. -/
def toneSent : List (GroupInput toneCodec) :=
  [.leg (toneLeg true) (.ok ()), .wire 0 .peerJoined, .tick false (some fun _ => 7)]

/-- The leg of the peer, on which the frame of the tone is delivered twice. -/
def toneHeard : List (GroupInput toneCodec) :=
  [.leg (toneLeg false) (.ok ()), .wire 0 (.frame toneWire), .wire 0 (.frame toneWire), .tick false none]

theorem group_leg_carries_tone :
    groupOut Aead.plain (fun _ info => info) GroupOutput.frame (startGroup (.ok ())) toneHeard =
        (sheets Aead.plain (fun _ info => info) (startGroup (.ok ())) toneHeard).map
          (mixSheet toneCodec) ∧
      ∃ (packets : List Bytes) (frames : List Frame),
        packets.Sublist (encodeAll toneCodec ()
          (groupVoices Aead.plain (fun _ info => info) (startGroup (.ok ())) toneSent)) ∧
        List.Forall₂ Shows (decodeAll toneCodec () (packets.map some)) frames ∧
        ((sheets Aead.plain (fun _ info => info) (startGroup (.ok ())) toneHeard).flatMap
          (heardOf 0)).Sublist frames := by
  have hsent : groupOut Aead.plain (fun _ info => info) (GroupOutput.wireOf 0)
      (startGroup (.ok ())) toneSent = [toneWire] ∧
      legArrivals Aead.plain (fun _ info => info) 0 (startGroup (.ok ())) toneHeard =
        [toneWire, toneWire] ∧
      (joined Aead.plain (fun _ info => info) (startGroup (.ok ())) toneSent).map Prod.fst =
        [toneLeg true] ∧
      (joined Aead.plain (fun _ info => info) (startGroup (.ok ())) toneHeard).map Prod.fst =
        [toneLeg false] := by
    decide +kernel
  have hfirst : ∀ {legs : List (GroupLeg × Unit)} {leg : GroupLeg},
      legs.map Prod.fst = [leg] → legs[0]? = some (leg, ()) := by
    intro legs leg h
    obtain ⟨x, rfl, rfl⟩ := List.map_eq_singleton_iff.mp h
    rfl
  have hn := hfirst hsent.2.2.1
  have hm := hfirst hsent.2.2.2
  refine @group_leg_carries Aead.plain Aead.plain_opens (fun _ info => info) toneCodec toneCodec ()
    () toneSent toneHeard 0 0
    (toneLeg true) (toneLeg false) () () hn hm rfl rfl ?_ fun w hw => Or.inl ?_
  · have hlen := congrArg List.length hsent.1
    exact Nat.lt_of_le_of_lt (Nat.le_of_eq hlen) (by decide)
  · have harrive : w ∈ [toneWire, toneWire] := hsent.2.1 ▸ hw
    have hmem : w ∈ [toneWire] := by simpa using harrive
    exact hsent.1.symm ▸ hmem

/-! ### How long a frame waits -/

section lag

variable (A : Aead) (hkdf : Bytes → Bytes → Bytes) {S : Sound}

/-- The frames that are heard on a leg, whether they are played or not. -/
def legSounding (n : ℕ) (s : GroupRun S) (e : GroupInput S) : List Frame :=
  Trace.observe (lineStep A) (sounded A) (legLine n s) (legGiven hkdf n s e)

def GroupRun.Unborn : GroupRun S → Prop
  | .running g => g.Fresh
  | .finished _ => True

theorem unborn_step (s : GroupRun S) (hs : s.Unborn) (e : GroupInput S) :
    (groupNext A hkdf s e).Unborn := by
  cases s with
  | finished r => exact trivial
  | running g =>
    cases hnext : groupNext A hkdf (.running g) e with
    | finished r => exact trivial
    | running g' => exact fresh_step A hkdf hs hnext

/-- Nothing waits of a leg that has not joined, nor of one that joins. -/
theorem unborn_queue {g : GroupCall S} (hfresh : g.Fresh) {n : ℕ} (hn : g.nextLegId ≤ n)
    (e : GroupInput S) :
    legQueue n (groupNext A hkdf (.running g) e) = [] := by
  obtain hnone | ⟨leg, decoder, keys, rfl, -, -, -, hnext⟩ := joining_cases A hkdf g e
  · cases hnext : groupNext A hkdf (.running g) e with
    | finished r => rfl
    | running g' =>
      have hid := nextLegId_step A hkdf g e g' hnext
      rw [hnone, List.length_nil, Nat.add_zero] at hid
      have hgone := fresh_step A hkdf hfresh hnext n (hid.le.trans hn)
      simp only [legQueue, hgone]
      rfl
  · rw [hnext]
    simp only [legQueue, Table.get_set]
    split
    · rfl
    · rw [hfresh n hn]
      rfl

/-- What waits of a leg is what is heard last. -/
theorem lag_step (n : ℕ) (s : GroupRun S) (hs : s.Unborn) (e : GroupInput S)
    (hlen : (legQueue n s).length ≤ jitterFrames) :
    (legQueue n (groupNext A hkdf s e)).length ≤ jitterFrames ∧
      legQueue n (groupNext A hkdf s e) <:+ legQueue n s ++ legSounding A hkdf n s e := by
  by_cases hn : s.Given n
  · have hstep := legStep A hkdf n s e hn
    rw [hstep.queue, legSounding, ← hstep.pushed]
    exact ⟨Jitter.run_length (by decide) hlen _, Jitter.run_suffix jitterFrames _ _⟩
  · cases s with
    | finished r => exact absurd trivial hn
    | running g =>
      rw [unborn_queue A hkdf hs (Nat.le_of_not_lt hn) e]
      exact ⟨Nat.zero_le _, List.nil_suffix⟩

end lag

/-- **No leg builds up lag**: at any time what waits of a leg are the last frames that were heard on
it, three at most. -/
theorem group_lag (A : Aead) (hkdf : Bytes → Bytes → Bytes) {S : Sound} (enc : S.Encoder)
    (es : List (GroupInput S)) (n : ℕ) :
    (legQueue n (Trace.run (groupNext A hkdf) (startGroup (.ok enc)) es)).length ≤ jitterFrames ∧
      legQueue n (Trace.run (groupNext A hkdf) (startGroup (.ok enc)) es) <:+
        Trace.observe (groupNext A hkdf) (legSounding A hkdf n) (startGroup (.ok enc)) es := by
  induction es using List.reverseRecOn with
  | nil => exact ⟨Nat.zero_le _, List.suffix_refl _⟩
  | append_singleton es e ih =>
    have hunborn : (Trace.run (groupNext A hkdf) (startGroup (S := S) (.ok enc)) es).Unborn :=
      Trace.run_inv (fun s e hs => unborn_step A hkdf s hs e)
      (show (startGroup (.ok enc)).Unborn from fun _ _ => rfl) es
    obtain ⟨hlen, hsuffix⟩ := lag_step A hkdf n _ hunborn e ih.1
    rw [Trace.run_snoc, Trace.observe_append, Trace.observe_cons, Trace.observe_nil,
      List.append_nil]
    obtain ⟨before, hbefore⟩ := ih.2
    refine ⟨hlen, hsuffix.trans ⟨before, ?_⟩⟩
    rw [← List.append_assoc, hbefore]

/-! ### What the shell is told -/

section told

variable (A : Aead) (hkdf : Bytes → Bytes → Bytes) {S : Sound}

/-- The events that are left to a leg that is up. -/
def LegState.left (leg : LegState S) : List GroupCallEvent :=
  if leg.connectedReported then [.peerLeft leg.peerKey] else [.peerConnected leg.peerKey, .peerLeft leg.peerKey]

def legLeft (n : ℕ) : GroupRun S → List GroupCallEvent
  | .running g => ((g.legs.get n).map LegState.left).getD []
  | .finished _ => []

theorem eventOf_sent (k : Option ℕ) (f : Sigma (fun _ : ℕ => LegState S) → Option Bytes)
    (entries : List (Sigma fun _ : ℕ => LegState S)) :
    (entries.filterMap fun e => (f e).map (GroupOutput.sent e.1)).filterMap (GroupOutput.eventOf k) = [] := by
  rw [List.filterMap_filterMap, List.filterMap_eq_nil_iff]
  intro e _
  cases f e <;> rfl

/-- A tick tells nothing, and the legs are told apart as before. -/
theorem tick_told (k : Option ℕ) (g : GroupCall S) (muted : Bool) (captured : Option Frame) :
    (g.tick A muted captured).1.filterMap (GroupOutput.eventOf k) = [] ∧
      ((∃ e, (g.tick A muted captured).2 = .finished (.error e)) ∨
        ∃ g', (g.tick A muted captured).2 = .running g' ∧ ∀ n,
          (g'.legs.get n).map LegState.left = (g.legs.get n).map LegState.left) := by
  have hmix : ∀ g' : GroupCall S, g'.mix.1.filterMap (GroupOutput.eventOf k) = [] := by
    intro g'
    unfold GroupCall.mix
    dsimp only
    split <;> rfl
  have hpopped : ∀ (g' : GroupCall S) n, (g'.mix.2.legs.get n).map LegState.left =
      (g'.legs.get n).map LegState.left := by
    intro g' n
    have hget : g'.mix.2.legs.get n = (g'.legs.get n).map LegState.popped :=
      Table.get_mapValues _ _ _
    rw [hget]
    cases g'.legs.get n <;> rfl
  unfold GroupCall.tick
  obtain ⟨-, hcap⟩ | ⟨-, ⟨e, enc, -, hcap⟩ | ⟨packet, enc, -, ⟨-, e, hcap⟩ | ⟨-, hcap⟩⟩⟩ :=
    capture_cases A g muted captured
  · rw [hcap]
    exact ⟨hmix g, Or.inr ⟨_, rfl, hpopped g⟩⟩
  · rw [hcap]
    exact ⟨rfl, Or.inl ⟨_, rfl⟩⟩
  · rw [hcap]
    exact ⟨rfl, Or.inl ⟨_, rfl⟩⟩
  · rw [hcap]
    refine ⟨?_, Or.inr ⟨_, rfl, fun n => ?_⟩⟩
    · rw [List.filterMap_append, hmix, List.append_nil]
      exact eventOf_sent k (fun e => e.2.frameOf A packet) _
    · rw [hpopped]
      simp only [Table.get_mapValues]
      cases g.legs.get n with
      | none => rfl
      | some leg =>
        simp only [Option.map_some, LegState.sealed]
        split <;> rfl

/-- What a step tells of a leg is taken from what is left to tell. -/
theorem told_step (n : ℕ) (s : GroupRun S) (e : GroupInput S) (hn : s.Given n) :
    ((groupStep A hkdf s e).1.filterMap (GroupOutput.eventOf (some n)) ++ legLeft n (groupNext A hkdf s e)).Sublist
      (legLeft n s) := by
  cases s with
  | finished r => exact List.Sublist.refl _
  | running g =>
    cases e with
    | stop => exact List.nil_sublist _
    | legsClosed => exact List.Sublist.refl _
    | gain peerKey percent => exact List.Sublist.refl _
    | leg leg decoder =>
      simp only [groupNext, groupStep]
      cases g.legsOpen with
      | false => exact List.Sublist.refl _
      | true =>
        simp only [if_true, GroupCall.join]
        split
        · exact List.nil_sublist _
        · exact List.nil_sublist _
        · have hne : n ≠ g.nextLegId := Nat.ne_of_lt hn
          simp only [List.filterMap_nil, List.nil_append, legLeft, Table.get_set_ne _ _ hne]
          exact List.Sublist.refl _
    | tick muted captured =>
      obtain ⟨hquiet, ⟨e, hover⟩ | ⟨g', hrun, hsame⟩⟩ := tick_told A (some n) g muted captured
      · simp only [groupNext, groupStep, hquiet, hover]
        exact List.nil_sublist _
      · simp only [groupNext, groupStep, hquiet, hrun, legLeft, hsame, List.nil_append]
        exact List.Sublist.refl _
    | wire id event =>
      simp only [groupNext, groupStep]
      cases hleg : g.legs.get id with
      | none => exact List.Sublist.refl _
      | some leg =>
        by_cases hid : id = n
        · subst hid
          rcases event with peers | _ | _ | wire | _
          · simp only [GroupCall.onWire, legLeft, Table.get_set_self, hleg]
            exact List.Sublist.refl _
          · simp only [GroupCall.onWire, legLeft, Table.get_set_self, hleg]
            exact List.Sublist.refl _
          · simp only [GroupCall.onWire, legLeft, Table.get_remove_self, hleg]
            cases hsaid : leg.connectedReported <;> simp [GroupOutput.eventOf, LegState.left, hsaid]
          · simp only [GroupCall.onWire, GroupCall.hear]
            rcases leg.line.hear A wire g.decodeBuf with ⟨_ | frame, line⟩
            · simp only [legLeft, Table.get_set_self, hleg]
              exact List.Sublist.refl _
            · simp only [legLeft, Table.get_set_self, hleg]
              cases hsaid : leg.connectedReported <;>
                simp [GroupOutput.eventOf, LegState.left, hsaid]
          · simp only [GroupCall.onWire, legLeft, Table.get_remove_self, hleg]
            cases hsaid : leg.connectedReported <;> simp [GroupOutput.eventOf, LegState.left, hsaid]
        · have hne : n ≠ id := fun h => hid h.symm
          have hsome : some id ≠ some n := fun h => hid (Option.some.inj h)
          rcases event with peers | _ | _ | wire | _
          · simp only [GroupCall.onWire, legLeft, Table.get_set_ne _ _ hne]
            exact List.Sublist.refl _
          · simp only [GroupCall.onWire, legLeft, Table.get_set_ne _ _ hne]
            exact List.Sublist.refl _
          · simp [GroupCall.onWire, legLeft, Table.get_remove_ne _ hne, GroupOutput.eventOf, hsome]
          · simp only [GroupCall.onWire, GroupCall.hear]
            rcases leg.line.hear A wire g.decodeBuf with ⟨_ | frame, line⟩
            · simp only [legLeft, Table.get_set_ne _ _ hne]
              exact List.Sublist.refl _
            · simp only [legLeft, Table.get_set_ne _ _ hne]
              cases leg.connectedReported <;> simp [GroupOutput.eventOf, hsome]
          · simp [GroupCall.onWire, legLeft, Table.get_remove_ne _ hne, GroupOutput.eventOf, hsome]

/-- Of a leg that is not up nothing is told. -/
theorem unborn_told (n : ℕ) (g : GroupCall S) (e : GroupInput S) (hn : g.legs.get n = none) :
    (groupStep A hkdf (.running g) e).1.filterMap (GroupOutput.eventOf (some n)) = [] := by
  cases e with
  | stop => rfl
  | legsClosed => rfl
  | gain peerKey percent => rfl
  | leg leg decoder =>
    simp only [groupStep, GroupCall.join]
    split
    · split <;> rfl
    · rfl
  | tick muted captured => exact (tick_told A (some n) g muted captured).1
  | wire id event =>
    simp only [groupStep]
    cases hleg : g.legs.get id with
    | none => rfl
    | some leg =>
      have hsome : some id ≠ some n := by
        intro h
        cases h
        rw [hn] at hleg
        cases hleg
      rcases event with peers | _ | _ | wire | _
      · rfl
      · rfl
      · simp [GroupCall.onWire, GroupOutput.eventOf, hsome]
      · simp only [GroupCall.onWire, GroupCall.hear]
        split
        · rfl
        · dsimp only
          split <;> simp [GroupOutput.eventOf, hsome]
      · simp [GroupCall.onWire, GroupOutput.eventOf, hsome]

theorem told_given (n : ℕ) : ∀ (es : List (GroupInput S)) (s : GroupRun S), s.Given n →
    (groupOut A hkdf (GroupOutput.eventOf (some n)) s es).Sublist (legLeft n s)
  | [], _, _ => List.nil_sublist _
  | e :: es, s, hn => by
    have hrest := told_given n es (groupNext A hkdf s e) (given_step A hkdf n s e hn)
    exact ((List.Sublist.refl _).append hrest).trans (told_step A hkdf n s e hn)

/-- The end of a call is told, and that it ended without an error. -/
theorem ended_run : ∀ (es : List (GroupInput S)) (g : GroupCall S),
    (groupOut A hkdf (GroupOutput.eventOf none) (.running g) es).Sublist [.ended] ∧
      (.ended ∈ groupOut A hkdf (GroupOutput.eventOf none) (.running g) es ↔
        Trace.run (groupNext A hkdf) (.running g) es = .finished (.ok ()))
  | [], g => ⟨List.nil_sublist _, iff_of_false List.not_mem_nil fun h => by cases h⟩
  | e :: es, g => by
    have hstep : ((groupStep A hkdf (.running g) e).1.filterMap (GroupOutput.eventOf none) = [] ∧
        groupNext A hkdf (.running g) e ≠ .finished (.ok ())) ∨
        ((groupStep A hkdf (.running g) e).1.filterMap (GroupOutput.eventOf none) = [.ended] ∧
          groupNext A hkdf (.running g) e = .finished (.ok ())) := by
      cases e with
      | stop => exact Or.inr ⟨rfl, rfl⟩
      | legsClosed => exact Or.inl ⟨rfl, fun h => by cases h⟩
      | gain peerKey percent => exact Or.inl ⟨rfl, fun h => by cases h⟩
      | leg leg decoder =>
        simp only [groupNext, groupStep, GroupCall.join]
        split
        · split <;> exact Or.inl ⟨rfl, fun h => by cases h⟩
        · exact Or.inl ⟨rfl, fun h => by cases h⟩
      | tick muted captured =>
        obtain ⟨hquiet, ⟨e, hover⟩ | ⟨g', hrun, -⟩⟩ := tick_told A none g muted captured
        · exact Or.inl ⟨hquiet, fun h => by cases hover.symm.trans h⟩
        · exact Or.inl ⟨hquiet, fun h => by cases hrun.symm.trans h⟩
      | wire id event =>
        simp only [groupNext, groupStep]
        cases g.legs.get id with
        | none => exact Or.inl ⟨rfl, fun h => by cases h⟩
        | some leg =>
          rcases event with peers | _ | _ | wire | _
          · exact Or.inl ⟨rfl, fun h => by cases h⟩
          · exact Or.inl ⟨rfl, fun h => by cases h⟩
          · exact Or.inl ⟨rfl, fun h => by cases h⟩
          · simp only [GroupCall.onWire, GroupCall.hear]
            split
            · exact Or.inl ⟨rfl, fun h => by cases h⟩
            · dsimp only
              split <;> exact Or.inl ⟨rfl, fun h => by cases h⟩
          · exact Or.inl ⟨rfl, fun h => by cases h⟩
    rw [groupOut_cons, Trace.run_cons]
    obtain ⟨hquiet, hnot⟩ | ⟨htold, hover⟩ := hstep
    · rw [hquiet]
      cases hnext : groupNext A hkdf (.running g) e with
      | running g' => exact ended_run es g'
      | finished r =>
        have hr : r ≠ .ok () := fun h => hnot (by rw [hnext, h])
        rw [groupOut_over, groupOver_stays]
        exact ⟨List.nil_sublist _, iff_of_false List.not_mem_nil fun h => hr (by cases h; rfl)⟩
    · rw [htold, hover, groupOut_over, groupOver_stays]
      exact ⟨List.Sublist.refl _, iff_of_true (by simp) rfl⟩

/-- What is told of a leg that has not joined yet. -/
theorem told_unborn (n : ℕ) :
    ∀ (es : List (GroupInput S)) (g : GroupCall S), g.Fresh → g.nextLegId ≤ n →
    match (joined A hkdf (.running g) es)[n - g.nextLegId]? with
    | none => groupOut A hkdf (GroupOutput.eventOf (some n)) (.running g) es = []
    | some x => (groupOut A hkdf (GroupOutput.eventOf (some n)) (.running g) es).Sublist
        [.peerConnected x.1.peerKey, .peerLeft x.1.peerKey]
  | [], _, _, _ => rfl
  | e :: es, g, hfresh, hn => by
    have hquiet := unborn_told A hkdf n g e (hfresh n hn)
    have hout : groupOut A hkdf (GroupOutput.eventOf (some n)) (.running g) (e :: es) =
        groupOut A hkdf (GroupOutput.eventOf (some n)) (groupNext A hkdf (.running g) e) es := by
      rw [groupOut_cons, hquiet]
      rfl
    have hjoin : joined A hkdf (.running g) (e :: es) =
        joining hkdf (.running g) e ++ joined A hkdf (groupNext A hkdf (.running g) e) es := rfl
    rw [hout, hjoin]
    obtain hnone | ⟨leg, decoder, keys, rfl, hone, -, -, hnext⟩ := joining_cases A hkdf g e
    · rw [hnone, List.nil_append]
      cases hnext : groupNext A hkdf (.running g) e with
      | finished r =>
        have hnobody : joined A hkdf (S := S) (.finished r) es = [] :=
          groupOver_quiet A hkdf (fun _ _ => rfl) r es
        rw [hnobody]
        exact groupOut_over A hkdf _ r es
      | running g' =>
        have hid := nextLegId_step A hkdf g e g' hnext
        rw [hnone, List.length_nil, Nat.add_zero] at hid
        rw [← hid]
        exact told_unborn n es g' (fresh_step A hkdf hfresh hnext) (hid.le.trans hn)
    · rw [hone, hnext]
      by_cases heq : n = g.nextLegId
      · -- it joins now
        subst heq
        rw [Nat.sub_self]
        have hgiven := told_given A hkdf g.nextLegId es (.running { g with
          legs := g.legs.set g.nextLegId { peerKey := leg.peerKey, keys, decoder }
          nextLegId := g.nextLegId + 1 }) (Nat.lt_succ_self _)
        simp only [legLeft, Table.get_set_self] at hgiven
        exact hgiven
      · have hlt : g.nextLegId + 1 ≤ n := Nat.lt_of_le_of_ne hn fun h => heq h.symm
        have hrest := told_unborn n es _ (fresh_step A hkdf hfresh hnext) hlt
        have hidx : n - g.nextLegId = (n - (g.nextLegId + 1)) + 1 := by omega
        rw [hidx]
        exact hrest

end told

/-- **What the shell is told of a call of many.** Of each leg that joins it is told that its peer
connected and that it left, each at most once and in this order, and of a leg that did not join
nothing; and it is told the end exactly of a call that returns without an error, once. -/
theorem group_events (A : Aead) (hkdf : Bytes → Bytes → Bytes) {S : Sound} (enc : S.Encoder)
    (es : List (GroupInput S)) :
    (∀ n, match (joined A hkdf (startGroup (.ok enc)) es)[n]? with
      | none => groupOut A hkdf (GroupOutput.eventOf (some n)) (startGroup (.ok enc)) es = []
      | some x => (groupOut A hkdf (GroupOutput.eventOf (some n)) (startGroup (.ok enc)) es).Sublist
          [.peerConnected x.1.peerKey, .peerLeft x.1.peerKey]) ∧
      (groupOut A hkdf (GroupOutput.eventOf none) (startGroup (.ok enc)) es).Sublist [.ended] ∧
      (.ended ∈ groupOut A hkdf (GroupOutput.eventOf none) (startGroup (.ok enc)) es ↔
        Trace.run (groupNext A hkdf) (startGroup (.ok enc)) es = .finished (.ok ())) :=
  ⟨fun n => told_unborn A hkdf n es { enc } (fun _ _ => rfl) (Nat.zero_le n), ended_run A hkdf es { enc }⟩

/-! ### The order of the legs -/

section order

variable {A : Aead} {hkdf : Bytes → Bytes → Bytes} {S : Sound}

/-- Two states whose maps hold the same legs, in whatever order. -/
def Shuffled : GroupRun S → GroupRun S → Prop
  | .running g, .running g' => g' = { g with legs := g'.legs } ∧ g.legs.entries.Perm g'.legs.entries
  | .finished r, .finished r' => r = r'
  | _, _ => False

/-- A run in which the map may give its legs in another order each time. -/
inductive ShuffledRun (A : Aead) (hkdf : Bytes → Bytes → Bytes) {S : Sound} :
    GroupRun S → List (GroupInput S) →
    List GroupOutput → GroupRun S → Prop
  | done {s s' : GroupRun S} (order : Shuffled s s') : ShuffledRun A hkdf s [] [] s'
  | step {s s₁ s' : GroupRun S} {e : GroupInput S} {es : List (GroupInput S)}
      {out : List GroupOutput}
      (order : Shuffled s s₁)
      (rest : ShuffledRun A hkdf (groupNext A hkdf s₁ e) es out s') :
      ShuffledRun A hkdf s (e :: es) ((groupStep A hkdf s₁ e).1 ++ out) s'

theorem Shuffled.refl (s : GroupRun S) : Shuffled s s := by
  cases s with
  | running g => exact ⟨rfl, .refl _⟩
  | finished r => rfl

/-- The sum does not depend on the order of what is mixed. -/
theorem mixed_perm {frames frames' : List Frame} (h : frames.Perm frames') :
    mixed frames = mixed frames' := by
  funext i
  have hsum := h.foldl_eq' (f := fun (m : Int32) (frame : Frame) => m + (frame i).toInt32)
    (fun x _ y _ m => by rw [Int32.add_assoc, Int32.add_assoc, Int32.add_comm (x i).toInt32]) 0
  exact congrArg clampSample hsum

theorem entries_perm_of_get {legs legs' : Table ℕ (LegState S)}
    (h : ∀ n, legs.get n = legs'.get n) :
    legs.entries.Perm legs'.entries :=
  List.lookup_ext legs.nodupKeys legs'.nodupKeys fun n leg => by
    have hn : List.dlookup n legs.entries = List.dlookup n legs'.entries := h n
    rw [hn]

theorem get_of_entries_perm {legs legs' : Table ℕ (LegState S)}
    (h : legs.entries.Perm legs'.entries) (n : ℕ) :
    legs.get n = legs'.get n :=
  AList.perm_lookup h

/-- What is put out is the same: the frames of each leg, the events, and what is played. -/
structure SameOut (out out' : List GroupOutput) : Prop where
  wires : ∀ n, out.filterMap (GroupOutput.wireOf n) = out'.filterMap (GroupOutput.wireOf n)
  events : ∀ k, out.filterMap (GroupOutput.eventOf k) = out'.filterMap (GroupOutput.eventOf k)
  frames : out.filterMap GroupOutput.frame = out'.filterMap GroupOutput.frame

theorem SameOut.refl (out : List GroupOutput) : SameOut out out := ⟨fun _ => rfl, fun _ => rfl, rfl⟩

theorem SameOut.append {out out' more more' : List GroupOutput} (h : SameOut out out')
    (h' : SameOut more more') :
    SameOut (out ++ more) (out' ++ more') where
  wires n := by rw [List.filterMap_append, List.filterMap_append, h.wires, h'.wires]
  events k := by rw [List.filterMap_append, List.filterMap_append, h.events, h'.events]
  frames := by rw [List.filterMap_append, List.filterMap_append, h.frames, h'.frames]

/-- Two states whose legs are looked up alike. -/
theorem Shuffled.of_get {g : GroupCall S} {legs : Table ℕ (LegState S)}
    (h : ∀ n, g.legs.get n = legs.get n) :
    Shuffled (.running g) (.running { g with legs }) :=
  ⟨rfl, entries_perm_of_get h⟩

/-- What a step does to two states whose maps are in different orders. -/
structure SameStep (x y : List GroupOutput × GroupRun S) : Prop where
  out : SameOut x.1 y.1
  state : Shuffled x.2 y.2

theorem sameStep_mix (g : GroupCall S) {legs : Table ℕ (LegState S)}
    (h : g.legs.entries.Perm legs.entries) :
    SameStep (g.mix.1, .running g.mix.2)
      (({ g with legs } : GroupCall S).mix.1, .running ({ g with legs } : GroupCall S).mix.2) where
  out := by
    have hsheet : g.sheet.Perm ({ g with legs } : GroupCall S).sheet := h.filterMap _
    have hmix : mixSheet S g.sheet = mixSheet S ({ g with legs } : GroupCall S).sheet :=
      mixed_perm (hsheet.map _)
    unfold GroupCall.mix
    dsimp only
    rw [hmix]
    cases hg : g.sheet with
    | nil =>
      rw [hg] at hsheet
      rw [hsheet.nil_eq]
      exact .refl _
    | cons x sheet =>
      cases hg' : ({ g with legs } : GroupCall S).sheet with
      | nil =>
        rw [hg, hg'] at hsheet
        exact absurd hsheet.eq_nil (List.cons_ne_nil _ _)
      | cons x' sheet' => exact .refl _
  state := by
    refine Shuffled.of_get fun n => ?_
    have hget := get_of_entries_perm h n
    exact (Table.get_mapValues _ _ _).trans
      ((congrArg (Option.map LegState.popped) hget).trans (Table.get_mapValues _ _ _).symm)

theorem sameStep_tick (g : GroupCall S) {legs : Table ℕ (LegState S)}
    (h : g.legs.entries.Perm legs.entries) (muted : Bool) (captured : Option Frame) :
      SameStep (g.tick A muted captured) (({ g with legs } : GroupCall S).tick A muted captured) := by
  have hany : g.legs.entries.any (·.2.peerHere) = legs.entries.any (·.2.peerHere) := by
    rw [Bool.eq_iff_iff, List.any_eq_true, List.any_eq_true]
    exact exists_congr fun e => and_congr_left fun _ => h.mem_iff
  have hcap : ∀ g' : GroupCall S, g'.tick A muted captured = match g'.capture A muted captured with
      | (out, .error e) => (out, .finished (.error e))
      | (out, .ok g) => (out ++ g.mix.1, .running g.mix.2) := fun _ => rfl
  rw [hcap, hcap]
  unfold GroupCall.capture
  rw [← hany]
  dsimp only
  cases hhere : g.legs.entries.any (·.2.peerHere) with
  | false => exact sameStep_mix g h
  | true =>
    rcases S.encode g.enc (voiced muted captured) with ⟨e | packet, enc⟩
    · exact ⟨.refl _, rfl⟩
    cases hfits : fits packet with
    | false =>
      simp only [if_true, sendAll_large A hfits _ hhere, sendAll_large A hfits _ (hany ▸ hhere)]
      exact ⟨.refl _, rfl⟩
    | true =>
      simp only [if_true, sendAll_fits A hfits]
      have hsealed : (g.legs.mapValues (LegState.sealed A packet)).entries.Perm
          (legs.mapValues (LegState.sealed A packet)).entries := by
        refine entries_perm_of_get fun n => ?_
        rw [Table.get_mapValues, Table.get_mapValues, get_of_entries_perm h]
      have hmix := sameStep_mix { g with enc, legs := g.legs.mapValues (LegState.sealed A packet) } hsealed
      refine ⟨SameOut.append ⟨fun n => ?_, fun k => ?_, ?_⟩ hmix.out, hmix.state⟩
      · rw [wireOf_entries, wireOf_entries, get_of_entries_perm h]
      · rw [eventOf_sent k fun e => e.2.frameOf A packet,
          eventOf_sent k fun e => e.2.frameOf A packet]
      · rw [frame_sent fun e => e.2.frameOf A packet, frame_sent fun e => e.2.frameOf A packet]

/-- **A step does the same in whatever order the map gives its legs.** -/
theorem sameStep {s s' : GroupRun S} (h : Shuffled s s') (e : GroupInput S) :
    SameStep (groupStep A hkdf s e) (groupStep A hkdf s' e) := by
  rcases s with g | r <;> rcases s' with g' | r'
  rotate_left
  · exact h.elim
  · exact h.elim
  · obtain rfl : r = r' := h
    exact ⟨.refl _, rfl⟩
  obtain ⟨heq, hperm⟩ := h
  generalize g'.legs = legs at heq hperm
  subst heq
  have hget := get_of_entries_perm hperm
  have hset : ∀ id leg n, (g.legs.set id leg).get n = (legs.set id leg).get n := fun id leg n => by
    rw [Table.get_set, Table.get_set, hget]
  cases e with
  | stop => exact ⟨.refl _, rfl⟩
  | legsClosed => exact ⟨.refl _, Shuffled.of_get hget⟩
  | gain peerKey percent => exact ⟨.refl _, Shuffled.of_get hget⟩
  | tick muted captured => exact sameStep_tick g hperm muted captured
  | leg leg decoder =>
    simp only [groupStep, GroupCall.join]
    split
    · split
      · exact ⟨.refl _, rfl⟩
      · exact ⟨.refl _, rfl⟩
      · exact ⟨.refl _, Shuffled.of_get (hset _ _)⟩
    · exact ⟨.refl _, Shuffled.of_get hget⟩
  | wire id event =>
    simp only [groupStep, ← hget]
    cases g.legs.get id with
    | none => exact ⟨.refl _, Shuffled.of_get hget⟩
    | some leg =>
      have hremove : ∀ n, (g.legs.remove id).get n = (legs.remove id).get n := fun n => by
        rw [Table.get_remove, Table.get_remove, hget]
      rcases event with peers | _ | _ | wire | _
      · exact ⟨.refl _, Shuffled.of_get (hset _ _)⟩
      · exact ⟨.refl _, Shuffled.of_get (hset _ _)⟩
      · exact ⟨.refl _, Shuffled.of_get hremove⟩
      · simp only [GroupCall.onWire, GroupCall.hear]
        rcases leg.line.hear A wire g.decodeBuf with ⟨_ | frame, line⟩
        · exact ⟨.refl _, Shuffled.of_get (hset _ _)⟩
        · exact ⟨.refl _, Shuffled.of_get (hset _ _)⟩
      · exact ⟨.refl _, Shuffled.of_get hremove⟩

theorem groupOut_shuffled {s s' : GroupRun S} (h : Shuffled s s') : ∀ (es : List (GroupInput S)),
    (∀ n, groupOut A hkdf (GroupOutput.wireOf n) s es =
      groupOut A hkdf (GroupOutput.wireOf n) s' es) ∧
      (∀ k, groupOut A hkdf (GroupOutput.eventOf k) s es =
        groupOut A hkdf (GroupOutput.eventOf k) s' es) ∧
      groupOut A hkdf GroupOutput.frame s es = groupOut A hkdf GroupOutput.frame s' es := by
  intro es
  induction es generalizing s s' with
  | nil => exact ⟨fun _ => rfl, fun _ => rfl, rfl⟩
  | cons e es ih =>
    have hstep : SameStep (groupStep A hkdf s e) (groupStep A hkdf s' e) := sameStep h e
    have hnext : Shuffled (groupNext A hkdf s e) (groupNext A hkdf s' e) := hstep.state
    obtain ⟨hwires, hevents, hframes⟩ := ih hnext
    refine ⟨fun n => ?_, fun k => ?_, ?_⟩
    · rw [groupOut_cons, groupOut_cons, hstep.out.wires, hwires n]
    · rw [groupOut_cons, groupOut_cons, hstep.out.events, hevents k]
    · rw [groupOut_cons, groupOut_cons, hstep.out.frames, hframes]

end order

/-- **The order of the map does not matter.** Whatever the order in which the map gives its legs
each time, each leg is sent the same frames, the shell is told the same of it
and the same mix is played. -/
theorem group_unordered {A : Aead} {hkdf : Bytes → Bytes → Bytes} {S : Sound} {s s' : GroupRun S}
    {es : List (GroupInput S)}
    {out : List GroupOutput} (h : ShuffledRun A hkdf s es out s') :
    (∀ n, out.filterMap (GroupOutput.wireOf n) = groupOut A hkdf (GroupOutput.wireOf n) s es) ∧
      (∀ k, out.filterMap (GroupOutput.eventOf k) = groupOut A hkdf (GroupOutput.eventOf k) s es) ∧
      out.filterMap GroupOutput.frame = groupOut A hkdf GroupOutput.frame s es := by
  induction h with
  | done order => exact ⟨fun _ => rfl, fun _ => rfl, rfl⟩
  | @step s s₁ s' e es out order rest ih =>
    have hstep : SameStep (groupStep A hkdf s e) (groupStep A hkdf s₁ e) := sameStep order e
    obtain ⟨hwires, hevents, hframes⟩ := ih
    have hstate : Shuffled (groupNext A hkdf s e) (groupNext A hkdf s₁ e) := hstep.state
    obtain ⟨hwires', hevents', hframes'⟩ := groupOut_shuffled hstate es
    refine ⟨fun n => ?_, fun k => ?_, ?_⟩
    · rw [List.filterMap_append, groupOut_cons, hwires n, ← hstep.out.wires n]
      exact congrArg _ (hwires' n).symm
    · rw [List.filterMap_append, groupOut_cons, hevents k, ← hstep.out.events k]
      exact congrArg _ (hevents' k).symm
    · rw [List.filterMap_append, groupOut_cons, hframes, ← hstep.out.frames]
      exact congrArg _ hframes'.symm

/-- A leg on which a frame waits. -/
def waitingLeg (peerKey : String) : LegState toneCodec :=
  { peerKey, keys := ⟨[], [], 0, none⟩, decoder := (), playout := [fun _ => 7], peerHere := true }

def twoLegs (legs : Table ℕ (LegState toneCodec)) : GroupRun toneCodec :=
  .running { enc := (), legs, nextLegId := 2 }

/-- Two legs, of which the map gives the other one first. -/
theorem group_unordered_two : ∃ out,
    ShuffledRun Aead.plain (fun _ info => info)
      (twoLegs ((Table.set ∅ 0 (waitingLeg "a")).set 1 (waitingLeg "b"))) [.tick false none] out
        (groupNext Aead.plain (fun _ info => info) (twoLegs ((Table.set ∅ 1 (waitingLeg "b")).set 0 (waitingLeg "a")))
          (.tick false none)) ∧
      (∀ n, out.filterMap (GroupOutput.wireOf n) =
        groupOut Aead.plain (fun _ info => info) (GroupOutput.wireOf n)
        (twoLegs ((Table.set ∅ 0 (waitingLeg "a")).set 1 (waitingLeg "b"))) [.tick false none]) ∧
      (∀ k, out.filterMap (GroupOutput.eventOf k) =
        groupOut Aead.plain (fun _ info => info) (GroupOutput.eventOf k)
        (twoLegs ((Table.set ∅ 0 (waitingLeg "a")).set 1 (waitingLeg "b"))) [.tick false none]) ∧
      out.filterMap GroupOutput.frame = groupOut Aead.plain (fun _ info => info) GroupOutput.frame
        (twoLegs ((Table.set ∅ 0 (waitingLeg "a")).set 1 (waitingLeg "b"))) [.tick false none] := by
  have horder : Shuffled (twoLegs ((Table.set ∅ 0 (waitingLeg "a")).set 1 (waitingLeg "b")))
      (twoLegs ((Table.set ∅ 1 (waitingLeg "b")).set 0 (waitingLeg "a"))) := by
    refine Shuffled.of_get fun n => ?_
    simp only [Table.get_set]
    by_cases h₁ : n = 1
    · subst h₁
      rfl
    · rw [if_neg h₁]
      split
      · rfl
      · rfl
  have hrun : ShuffledRun Aead.plain (fun _ info => info) _ [.tick false none] _ _ :=
    .step horder (.done (.refl _))
  exact ⟨_, hrun, group_unordered hrun⟩

end Sona
