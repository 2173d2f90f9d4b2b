/-
# The framing of cell groups

`quicwire` of `protocol-types`: over QUIC the cells that belong together travel on a stream of
their own, each behind its length in two bytes. What `frameCells` writes is what `parseCells`
accepts, and nothing else is (`parseCells_iff`), for cells of one byte up to the largest.
A media message that is sealed makes such a group, and it fits a stream (`media_group_fits`).

The relay (`call.rs`, `quic.rs`) forwards between WebSocket and QUIC. What it sends on carries the
cells that came in, each once and as it is, until it closes the leg (`relayOne_cells`). A leg hands
over what is sent on it, but for datagrams, which may be lost; so the peer is handed no cell that
did not come in, and all of them but those that went as datagrams (`relay_bridges`): the frames of
voice and screen audio that came alone (`datagram_lost`).

Key definitions: `frameCells`, `parseCells`, `MemberTx.forwardFrame`, `MemberTx.forwardCells`,
`OnLeg.cells`, `relayOne`, `relayAll`, `LegCarries`, `Bridged`.
Key theorems: `parseCells_iff`, `media_group_fits`, `relayOne_cells`, `relay_bridges`,
`cell_groups`.
-/
import Mathlib.Data.List.Flatten
import Mathlib.Data.List.TakeWhile
import Sona.Cells

namespace Sona

/-! ### Framing -/

/-- Hard cap of a media frame or cell. -/
def maxFrameBytes : ℕ := 1 + 8 + 16 * 1024 + 16

/-- Hard cap of a group on a stream. -/
def maxStreamGroupBytes : ℕ := 300 * 1024

/-- Loss of the frame is tolerable: a voice frame, or a cell of screen audio. -/
def lossyOk (frame : Bytes) : Bool := frame.head? == some 0 || frame.head? == some 3

/-- The cells, each behind its length; a length that does not fit two bytes is cut off. -/
def frameCells (cells : List Bytes) : Bytes :=
  cells.flatMap fun cell => beBytes16 cell.length ++ cell

/-- The loop of `parseCells`: `cells` are those before `buf`. -/
def splitCells (cells : List Bytes) (buf : Bytes) : Option (List Bytes) :=
  if buf.isEmpty then some cells else
  if buf.length < 2 then none else
  let len := beValue (buf.take 2)
  if len = 0 || len > maxFrameBytes || buf.length < 2 + len then none else
  splitCells (cells ++ [(buf.drop 2).take len]) (buf.drop (2 + len))
termination_by buf.length
decreasing_by
  rw [List.length_drop]
  omega

def parseCells (buf : Bytes) : Option (List Bytes) := (splitCells [] buf).filter (!·.isEmpty)

/-- A cell that can be sent. -/
def CellFits (cell : Bytes) : Prop := 0 < cell.length ∧ cell.length ≤ maxFrameBytes

theorem frameCells_cons (cell : Bytes) (cells : List Bytes) :
    frameCells (cell :: cells) = beBytes16 cell.length ++ cell ++ frameCells cells :=
  List.flatMap_cons

theorem beBytes16_length (n : ℕ) : (beBytes16 n).length = 2 := by simp [beBytes16]

/-- Two bytes are the bytes of the number that they are. -/
theorem beBytes16_beValue {bytes : Bytes} (h : bytes.length = 2) :
    beBytes16 (beValue bytes) = bytes := by
  obtain ⟨a, b, rfl⟩ := List.length_eq_two.mp h
  have ha := a.toNat_lt
  have hb := b.toNat_lt
  simp only [beBytes16, beValue, List.range_succ, List.range_zero, List.nil_append,
    List.cons_append, List.map_cons, List.map_nil, List.foldl_cons, List.foldl_nil, List.cons.injEq, and_true, ← UInt8.toNat_inj, UInt8.toNat_ofNat']
  omega

/-- The loop takes a cell that fits off the front. -/
theorem splitCells_cell {cell : Bytes} (h : CellFits cell) (cells : List Bytes) (rest : Bytes) :
    splitCells cells (beBytes16 cell.length ++ cell ++ rest) =
      splitCells (cells ++ [cell]) rest := by
  have h16 := beBytes16_length cell.length
  have hpos := h.1
  have hmax := h.2
  have hlen : beValue ((beBytes16 cell.length ++ cell ++ rest).take 2) = cell.length := by
    rw [List.append_assoc, List.take_left' h16]
    refine beValue_beBytes16 ?_
    unfold maxFrameBytes at hmax
    omega
  have hsize : (beBytes16 cell.length ++ cell ++ rest).length = 2 + cell.length + rest.length := by
    rw [List.length_append, List.length_append, h16]
  have hsome : (beBytes16 cell.length ++ cell ++ rest).isEmpty = false := by
    rw [List.isEmpty_eq_false_iff]
    exact List.ne_nil_of_length_pos (by omega)
  have hcell : ((beBytes16 cell.length ++ cell ++ rest).drop 2).take cell.length = cell := by
    rw [List.append_assoc, List.drop_left' h16, List.take_left' rfl]
  have hrest : (beBytes16 cell.length ++ cell ++ rest).drop (2 + cell.length) = rest :=
    List.drop_left' (by rw [List.length_append, h16])
  rw [splitCells, hsome, if_neg Bool.false_ne_true, if_neg (by omega)]
  dsimp only
  rw [hlen, if_neg (by simp only [Bool.or_eq_true, decide_eq_true_eq]; omega), hcell, hrest]

theorem splitCells_frameCells : ∀ {cells : List Bytes}, (∀ cell ∈ cells, CellFits cell) → ∀ before,
    splitCells before (frameCells cells) = some (before ++ cells)
  | [], _, before => by
    rw [List.append_nil, frameCells, List.flatMap_nil, splitCells]
    rfl
  | cell :: cells, h, before => by
    have hcells := fun c hc => h c (List.mem_cons_of_mem cell hc)
    rw [frameCells_cons, splitCells_cell (h cell List.mem_cons_self), splitCells_frameCells hcells,
      List.append_assoc]
    rfl

/-- What the loop takes apart is the framing of cells that fit. -/
theorem frameCells_splitCells (before : List Bytes) (buf : Bytes) :
    ∀ {out}, splitCells before buf = some out →
    ∃ cells, out = before ++ cells ∧ frameCells cells = buf ∧ ∀ cell ∈ cells, CellFits cell := by
  fun_induction splitCells before buf with
  | case1 before buf hempty =>
    intro out h
    cases h
    exact ⟨[], (List.append_nil _).symm, (List.isEmpty_iff.mp hempty).symm,
      fun _ hc => (by cases hc)⟩
  | case2 => exact fun h => (by cases h)
  | case3 => exact fun h => (by cases h)
  | case4 before buf hsome htwo len hlen =>
    rename_i ih
    intro out h
    obtain ⟨cells, rfl, hframe, hcells⟩ := ih h
    simp only [Bool.or_eq_true, decide_eq_true_eq, not_or, Nat.not_lt] at hlen
    obtain ⟨⟨hpos, hmax⟩, hroom⟩ := hlen
    have hcell : ((buf.drop 2).take len).length = len := by
      rw [List.length_take, List.length_drop]
      omega
    have hfront : beBytes16 len = buf.take 2 := beBytes16_beValue (by rw [List.length_take]; omega)
    refine ⟨(buf.drop 2).take len :: cells, by rw [List.append_assoc]; rfl, ?_, ?_⟩
    · rw [frameCells_cons, hcell, hframe, hfront, List.append_assoc, ← List.drop_drop,
        List.take_append_drop, List.take_append_drop]
    · intro cell hc
      rcases List.mem_cons.mp hc with rfl | hc
      · exact ⟨by omega, by omega⟩
      · exact hcells cell hc

/-- **Framing.** A group is parsed exactly when it is the framing of cells, of
at least one, that fit. -/
theorem parseCells_iff {buf : Bytes} {cells : List Bytes} :
    parseCells buf = some cells ↔ frameCells cells = buf ∧ cells ≠ [] ∧
    ∀ cell ∈ cells, CellFits cell := by
  unfold parseCells
  rw [Option.filter_eq_some_iff]
  constructor
  · rintro ⟨hsplit, hsome⟩
    obtain ⟨cells', rfl, hframe, hcells⟩ := frameCells_splitCells [] buf hsplit
    exact ⟨hframe, by simpa using hsome, hcells⟩
  · rintro ⟨rfl, hne, hcells⟩
    exact ⟨splitCells_frameCells hcells [], by simpa using hne⟩

/-! ### The cells of a message -/

theorem frameCells_length : ∀ {cells : List Bytes}, (∀ cell ∈ cells, CellFits cell) →
    (frameCells cells).length ≤ cells.length * (2 + maxFrameBytes)
  | [], _ => Nat.zero_le _
  | cell :: cells, h => by
    have hcell := (h cell List.mem_cons_self).2
    have hcells := frameCells_length fun c hc => h c (List.mem_cons_of_mem cell hc)
    rw [frameCells_cons, List.length_append, List.length_append, beBytes16_length, List.length_cons,
      Nat.succ_mul]
    omega

/-- Fragments that fit make cells that fit, whatever the counter is. -/
theorem sealChunks_fit {A : Aead} (hA : A.Opens) :
    ∀ {chunks : List Bytes}, (∀ x ∈ chunks, x.length ≤ maxChunk) →
    ∀ (t : TrackSeal), ∀ cell ∈ (t.sealChunks A chunks).1, CellFits cell
  | [], _, _, _, hcell => by cases hcell
  | chunk :: chunks, h, t, cell, hcell => by
    unfold TrackSeal.sealChunks TrackSeal.sealOne at hcell
    dsimp only at hcell
    rcases List.mem_cons.mp hcell with rfl | hcell
    · obtain ⟨hshort, hlong⟩ := cellWire_length hA t.key t.track t.nextSeq (!chunks.isEmpty) (h chunk List.mem_cons_self)
      exact ⟨by omega, hlong⟩
    · exact sealChunks_fit hA (fun x hx => h x (List.mem_cons_of_mem chunk hx)) _ cell hcell

/-- **A message that is sealed makes a group that fits a stream**: seventeen cells at most. -/
theorem media_group_fits {A : Aead} (hA : A.Opens) {t : TrackSeal} {data : Bytes}
    {cells : List Bytes} (h : (t.sealCells A data).1 = .ok cells) :
    cells ≠ [] ∧ (∀ cell ∈ cells, CellFits cell) ∧
    (frameCells cells).length ≤ maxStreamGroupBytes := by
  cases hsize : mediaSize data with
  | false =>
    rw [sealCells_refused A t hsize] at h
    cases h
  | true =>
    rw [sealCells_sealed A t hsize] at h
    have hcells := Except.ok.inj h
    simp only [mediaSize, Bool.not_eq_true', Bool.or_eq_false_iff, decide_eq_false_iff_not,
      Nat.not_lt, List.isEmpty_eq_false_iff] at hsize
    obtain ⟨hne, hmax⟩ := hsize
    obtain ⟨hflat, hchunks⟩ := Fragments.chunks_spec maxChunk_ne_zero data
    have hcount := Fragments.chunks_count maxChunk_ne_zero data
    have hlength : cells.length = (Fragments.chunks maxChunk data).length := by
      rw [← hcells, sealChunks_length]
    have hfit : ∀ cell ∈ cells, CellFits cell := by
      rw [← hcells]
      exact sealChunks_fit hA (fun x hx => (hchunks x hx).2) t
    have hseventeen : cells.length ≤ 17 := by
      rw [hlength]
      unfold maxChunk maxCellPlaintext cellHeader at hcount ⊢
      unfold maxMediaMessage at hmax
      omega
    refine ⟨?_, hfit, (frameCells_length hfit).trans ?_⟩
    · rintro rfl
      rw [List.length_nil] at hlength
      rw [List.eq_nil_of_length_eq_zero hlength.symm, List.flatten_nil] at hflat
      exact hne hflat.symm
    · refine (Nat.mul_le_mul_right _ hseventeen).trans ?_
      unfold maxFrameBytes maxStreamGroupBytes
      omega

/-! ### The relay between the legs -/

/-- How a member's leg reaches it. -/
inductive MemberTx
  | ws
  | quic
deriving DecidableEq, Repr

/-- What travels on a leg: a binary frame of WebSocket, a datagram, or a stream with a group. -/
inductive OnLeg
  | binary (frame : Bytes)
  | datagram (frame : Bytes)
  | stream (group : Bytes)
deriving DecidableEq, Repr

/-- Forward a frame that arrived as a standalone unit. -/
def MemberTx.forwardFrame (tx : MemberTx) (frame : Bytes) : List OnLeg :=
  match tx with
  | .ws => [.binary frame]
  | .quic => if lossyOk frame then [.datagram frame] else [.stream (frameCells [frame])]

/-- Forward a group of cells that arrived together. The `send_cells` of a
client sends its own this way. -/
def MemberTx.forwardCells (tx : MemberTx) (cells : List Bytes) : List OnLeg :=
  match tx with
  | .ws => cells.map .binary
  | .quic => [.stream (frameCells cells)]

def OnLeg.isBinary : OnLeg → Bool
  | .binary _ => true
  | _ => false

def OnLeg.isDatagram : OnLeg → Bool
  | .datagram _ => true
  | _ => false

/-- The frame of a unit that is not a group. -/
def OnLeg.alone : OnLeg → Option Bytes
  | .binary frame => some frame
  | .datagram frame => some frame
  | .stream _ => none

/-- The cells that a client is handed of what arrives. -/
def OnLeg.cells : OnLeg → List Bytes
  | .binary frame => [frame]
  | .datagram frame => [frame]
  | .stream group => if group.length > maxStreamGroupBytes then [] else (parseCells group).getD []

/-- Something arrives at the relay; the byte budget of the leg grants it or
not, and the room has a peer or not. -/
structure LegEvent where
  unit : OnLeg
  granted : Bool
  peer : Option MemberTx

/-- What the relay sends to the peer; none if it closes the leg. -/
def relayOne (e : LegEvent) : Option (List OnLeg) :=
  match e.unit with
  | .binary b => if b.length > maxFrameBytes || !e.granted then none else some (e.peer.elim [] (·.forwardFrame b))
  | .datagram b =>
    if b.length > maxFrameBytes || !e.granted then none else
    if !lossyOk b then none else some (e.peer.elim [] (·.forwardFrame b))
  | .stream group =>
    if group.length > maxStreamGroupBytes then none else
    if !e.granted then none else
    match parseCells group with
    | none => some []
    | some cells =>
      if cells.any (·.length > maxFrameBytes) then none else some (e.peer.elim [] (·.forwardCells cells))

/-- What the relay sends to the peer until it closes the leg. -/
def relayAll : List LegEvent → List OnLeg
  | [] => []
  | e :: es =>
    match relayOne e with
    | none => []
    | some out => out ++ relayAll es

/-- A stream of a group that fits is read as the group. -/
theorem cells_stream {cells : List Bytes} (hne : cells ≠ [])
    (hcells : ∀ cell ∈ cells, CellFits cell)
    (hfits : (frameCells cells).length ≤ maxStreamGroupBytes) :
    (OnLeg.stream (frameCells cells)).cells = cells := by
  unfold OnLeg.cells
  dsimp only
  rw [if_neg (Nat.not_lt.mpr hfits), parseCells_iff.mpr ⟨rfl, hne, hcells⟩, Option.getD_some]

theorem cells_forwardCells (tx : MemberTx) {cells : List Bytes} (hne : cells ≠ [])
    (hcells : ∀ cell ∈ cells, CellFits cell)
    (hfits : (frameCells cells).length ≤ maxStreamGroupBytes) :
    (tx.forwardCells cells).flatMap OnLeg.cells = cells := by
  cases tx with
  | ws =>
    unfold MemberTx.forwardCells
    dsimp only
    rw [List.flatMap_map]
    exact List.flatMap_singleton' cells
  | quic =>
    unfold MemberTx.forwardCells
    dsimp only
    rw [List.flatMap_singleton, cells_stream hne hcells hfits]

theorem cells_forwardFrame (tx : MemberTx) {frame : Bytes} (h : CellFits frame) :
    (tx.forwardFrame frame).flatMap OnLeg.cells = [frame] := by
  cases tx with
  | ws => rfl
  | quic =>
    unfold MemberTx.forwardFrame
    dsimp only
    split
    · rfl
    · have hcells : ∀ cell ∈ [frame], CellFits cell := by simpa using h
      have hlen := frameCells_length hcells
      have hfits : (frameCells [frame]).length ≤ maxStreamGroupBytes := by
        unfold maxFrameBytes maxStreamGroupBytes at *
        rw [List.length_singleton] at hlen
        omega
      rw [List.flatMap_singleton, cells_stream (List.cons_ne_nil _ _) hcells hfits]

/-- What is forwarded to a peer, if there is one, of a frame that fits. -/
theorem cells_peer_frame (peer : Option MemberTx) {frame : Bytes} (h : CellFits frame) :
    (peer.elim [] (·.forwardFrame frame)).flatMap OnLeg.cells =
      if peer.isSome then [frame] else [] := by
  cases peer with
  | none => rfl
  | some tx => exact cells_forwardFrame tx h

theorem cells_peer_group (peer : Option MemberTx) {cells : List Bytes} (hne : cells ≠ [])
    (hcells : ∀ cell ∈ cells, CellFits cell)
    (hfits : (frameCells cells).length ≤ maxStreamGroupBytes) :
    (peer.elim [] (·.forwardCells cells)).flatMap OnLeg.cells =
      if peer.isSome then cells else [] := by
  cases peer with
  | none => rfl
  | some tx => exact cells_forwardCells tx hne hcells hfits

/-- What the relay does with a unit that does not close the leg. -/
theorem relayOne_ways {e : LegEvent} {out : List OnLeg} (h : relayOne e = some out) :
    (∃ frame, (e.unit = .binary frame ∨ (e.unit = .datagram frame ∧ lossyOk frame = true)) ∧
      frame.length ≤ maxFrameBytes ∧ out = e.peer.elim [] (·.forwardFrame frame)) ∨
    ∃ group, e.unit = .stream group ∧ group.length ≤ maxStreamGroupBytes ∧
      out = (parseCells group).elim [] fun cells => e.peer.elim [] (·.forwardCells cells) := by
  obtain ⟨unit, granted, peer⟩ := e
  dsimp only
  cases unit with
  | binary frame =>
    unfold relayOne at h
    dsimp only at h
    split at h
    · cases h
    · rename_i hchecked
      simp only [Bool.or_eq_true, decide_eq_true_eq, not_or, Nat.not_lt] at hchecked
      exact Or.inl ⟨frame, Or.inl rfl, hchecked.1, (Option.some.inj h).symm⟩
  | datagram frame =>
    unfold relayOne at h
    dsimp only at h
    split at h
    · cases h
    · rename_i hchecked
      simp only [Bool.or_eq_true, decide_eq_true_eq, not_or, Nat.not_lt] at hchecked
      split at h
      · cases h
      · rename_i hlossy
        exact Or.inl ⟨frame, Or.inr ⟨rfl, by simpa using hlossy⟩, hchecked.1,
          (Option.some.inj h).symm⟩
  | stream group =>
    refine Or.inr ⟨group, rfl, ?_⟩
    unfold relayOne at h
    dsimp only at h
    split at h
    · cases h
    rename_i hsize
    refine ⟨Nat.not_lt.mp hsize, ?_⟩
    split at h
    · cases h
    cases hparse : parseCells group with
    | none =>
      rw [hparse] at h
      exact (Option.some.inj h).symm
    | some cells =>
      rw [hparse] at h
      dsimp only at h
      split at h
      · cases h
      · exact (Option.some.inj h).symm

/-- **One unit.** What the relay sends to the peer carries the cells that came in. -/
theorem relayOne_cells {e : LegEvent} {out : List OnLeg} (hne : e.unit ≠ .binary [])
    (h : relayOne e = some out) :
    out.flatMap OnLeg.cells = if e.peer.isSome then e.unit.cells else [] := by
  rcases relayOne_ways h with ⟨frame, hunit, hmax, rfl⟩ | ⟨group, hunit, hsize, rfl⟩
  · have hpos : 0 < frame.length := by
      refine List.length_pos_of_ne_nil ?_
      rintro rfl
      rcases hunit with hbinary | ⟨-, hlossy⟩
      · exact hne hbinary
      · cases hlossy
    have hcells : e.unit.cells = [frame] := by
      rcases hunit with hunit | ⟨hunit, -⟩ <;> rw [hunit] <;> rfl
    rw [cells_peer_frame e.peer ⟨hpos, hmax⟩, hcells]
  · rw [hunit]
    cases hparse : parseCells group with
    | none =>
      unfold OnLeg.cells
      dsimp only [Option.elim]
      rw [if_neg (Nat.not_lt.mpr hsize), hparse]
      simp
    | some cells =>
      obtain ⟨rfl, hsome, hcells⟩ := parseCells_iff.mp hparse
      rw [cells_stream hsome hcells hsize]
      exact cells_peer_group e.peer hsome hcells hsize

/-! ### What arrives -/

/-- What a leg hands over of what is sent on it, as long as it stays up. A datagram may be lost: it
is larger than the path takes, or nobody sends it again. Streams are opened by tasks of their own
and may overtake one another. -/
structure LegCarries (sent arrived : List OnLeg) : Prop where
  /-- What arrives was sent, and arrives once. -/
  once : arrived.Subperm sent
  /-- Nothing but datagrams is lost. -/
  reliable : (sent.filter (!·.isDatagram)).Subperm arrived
  /-- The frames of WebSocket stay in order. -/
  inOrder : arrived.filter OnLeg.isBinary = sent.filter OnLeg.isBinary

/-- What came in while the leg was open and the peer was there. -/
def carried (es : List LegEvent) : List LegEvent :=
  (es.takeWhile fun e => (relayOne e).isSome).filter (·.peer.isSome)

/-- The relay sends a frame on as a datagram: loss is tolerable, it came alone,
and the peer is on QUIC. -/
def LegEvent.asDatagram (e : LegEvent) : Bool := e.peer = some .quic && e.unit.alone.any lossyOk

/-- The peer is handed cells that came in, each as it was and once; all of them, but for those that
went as datagrams; those for WebSocket in order, and those of a stream as they came in together. -/
structure Bridged (es : List LegEvent) (arrived : List OnLeg) : Prop where
  noneInvented : (arrived.flatMap OnLeg.cells).Subperm ((carried es).flatMap (·.unit.cells))
  noneDropped :
    (((carried es).filter (!·.asDatagram)).flatMap (·.unit.cells)).Subperm (arrived.flatMap OnLeg.cells)
  inOrder : (arrived.filter OnLeg.isBinary).flatMap OnLeg.cells =
    ((carried es).filter (·.peer = some .ws)).flatMap (·.unit.cells)
  grouped : ∀ group, .stream group ∈ arrived →
    ∃ e ∈ carried es, (OnLeg.stream group).cells = e.unit.cells

/-- To nobody nothing is sent. -/
theorem relayOne_alone {e : LegEvent} {out : List OnLeg} (h : relayOne e = some out)
    (hpeer : e.peer = none) :
    out = [] := by
  rcases relayOne_ways h with ⟨frame, -, -, rfl⟩ | ⟨group, -, -, rfl⟩ <;> rw [hpeer]
  · rfl
  · cases parseCells group <;> rfl

/-- What is sent of one unit goes one way: to WebSocket in binary frames, to
QUIC as a datagram or on one stream. -/
theorem relayOne_units {e : LegEvent} {out : List OnLeg} (h : relayOne e = some out) {unit : OnLeg}
    (hunit : unit ∈ out) :
    unit.isDatagram = e.asDatagram ∧ unit.isBinary = decide (e.peer = some .ws) ∧
      (unit.isBinary = false → out = [unit]) := by
  cases hpeer : e.peer with
  | none =>
    rw [relayOne_alone h hpeer] at hunit
    cases hunit
  | some tx =>
    unfold LegEvent.asDatagram
    rcases relayOne_ways h with ⟨frame, hcame, -, rfl⟩ | ⟨group, hcame, -, rfl⟩
    · rw [hpeer] at hunit ⊢
      have halone : e.unit.alone = some frame := by
        rcases hcame with hcame | ⟨hcame, -⟩ <;> rw [hcame] <;> rfl
      rw [halone, Option.any_some]
      dsimp only [Option.elim] at hunit ⊢
      unfold MemberTx.forwardFrame at hunit ⊢
      cases tx with
      | ws =>
        cases List.mem_singleton.mp hunit
        exact ⟨rfl, rfl, fun hno => by cases hno⟩
      | quic =>
        dsimp only at hunit ⊢
        cases hloss : lossyOk frame with
        | true =>
          rw [hloss, if_pos rfl] at hunit
          cases List.mem_singleton.mp hunit
          exact ⟨rfl, rfl, fun _ => rfl⟩
        | false =>
          rw [hloss, if_neg Bool.false_ne_true] at hunit
          cases List.mem_singleton.mp hunit
          exact ⟨rfl, rfl, fun _ => rfl⟩
    · cases hparse : parseCells group with
      | none =>
        rw [hparse] at hunit
        cases hunit
      | some cells =>
        rw [hparse, hpeer] at hunit
        rw [hcame]
        dsimp only [Option.elim] at hunit ⊢
        rw [hpeer]
        unfold MemberTx.forwardCells at hunit ⊢
        cases tx with
        | ws =>
          obtain ⟨cell, -, rfl⟩ := List.mem_map.mp hunit
          exact ⟨rfl, rfl, fun hno => by cases hno⟩
        | quic =>
          cases List.mem_singleton.mp hunit
          exact ⟨rfl, rfl, fun _ => rfl⟩

theorem relayAll_eq :
    ∀ es : List LegEvent, relayAll es = (carried es).flatMap fun e => (relayOne e).getD []
  | [] => rfl
  | e :: es => by
    have hrest := relayAll_eq es
    unfold carried at hrest ⊢
    unfold relayAll
    cases hone : relayOne e with
    | none =>
      rw [List.takeWhile_cons_of_neg (by rw [hone]; decide)]
      rfl
    | some out =>
      dsimp only
      rw [List.takeWhile_cons_of_pos (by rw [hone]; rfl), List.filter_cons, hrest]
      cases hpeer : e.peer with
      | none =>
        rw [relayOne_alone hone hpeer]
        rfl
      | some tx =>
        rw [Option.isSome_some, if_pos rfl, List.flatMap_cons, hone, Option.getD_some]

/-- What a client sends of a group does not close its leg. -/
theorem relayOne_sent (tx : MemberTx) {cells : List Bytes} (hne : cells ≠ [])
    (hcells : ∀ cell ∈ cells, CellFits cell)
    (hfits : (frameCells cells).length ≤ maxStreamGroupBytes) (peer : Option MemberTx) :
    ∀ unit ∈ tx.forwardCells cells, unit ≠ .binary [] ∧
    (relayOne ⟨unit, true, peer⟩).isSome = true := by
  intro unit hunit
  cases tx with
  | ws =>
    obtain ⟨cell, hcell, rfl⟩ := List.mem_map.mp hunit
    have hchecked : (decide (cell.length > maxFrameBytes) || !true) = false := by
      simpa using (hcells cell hcell).2
    refine ⟨fun heq => ?_, ?_⟩
    · cases heq
      exact absurd (hcells [] hcell).1 (lt_irrefl 0)
    · unfold relayOne
      dsimp only
      rw [hchecked]
      rfl
  | quic =>
    cases List.mem_singleton.mp hunit
    have hsmall : cells.any (·.length > maxFrameBytes) = false := by
      rw [List.any_eq_false]
      intro cell hcell
      simpa using (hcells cell hcell).2
    refine ⟨fun heq => (by cases heq), ?_⟩
    unfold relayOne
    dsimp only
    rw [if_neg (Nat.not_lt.mpr hfits), if_neg (by decide), parseCells_iff.mpr ⟨rfl, hne, hcells⟩]
    dsimp only
    rw [hsmall]
    rfl

/-- Units of one property are sent by events of one property. -/
theorem filter_flatMap_of {α β : Type} {p : β → Bool} {q : α → Bool} {f : α → List β} {l : List α}
    (h : ∀ a ∈ l, ∀ b ∈ f a, p b = q a) : (l.flatMap f).filter p = (l.filter q).flatMap f := by
  induction l with
  | nil => rfl
  | cons a l ih =>
    have ha := h a List.mem_cons_self
    have hl := ih fun a' ha' => h a' (List.mem_cons_of_mem a ha')
    rw [List.flatMap_cons, List.filter_append, hl, List.filter_cons]
    cases hq : q a with
    | true =>
      rw [if_pos rfl, List.flatMap_cons, List.filter_eq_self.mpr fun b hb => (ha b hb).trans hq]
    | false =>
      rw [if_neg Bool.false_ne_true, List.filter_eq_nil_iff.mpr fun b hb => by rw [ha b hb, hq]; decide]
      rfl

section bridge

variable {es : List LegEvent}

theorem mem_carried {e : LegEvent} (he : e ∈ carried es) :
    e ∈ es ∧ ∃ out, relayOne e = some out ∧ e.peer.isSome := by
  obtain ⟨htake, hpeer⟩ := List.mem_filter.mp he
  have hopen : (relayOne e).isSome = true :=
    List.mem_takeWhile_imp (p := fun e => (relayOne e).isSome) htake
  obtain ⟨out, hout⟩ := Option.isSome_iff_exists.mp hopen
  exact ⟨(List.takeWhile_prefix _).subset htake, out, hout, hpeer⟩

/-- What is sent of some of the units carries their cells. -/
theorem cells_carried (h : ∀ e ∈ es, e.unit ≠ .binary []) (q : LegEvent → Bool) :
    (((carried es).filter q).flatMap fun e => (relayOne e).getD []).flatMap OnLeg.cells =
      ((carried es).filter q).flatMap (·.unit.cells) := by
  rw [List.flatMap_assoc]
  refine List.flatMap_congr fun e he => ?_
  obtain ⟨hmem, out, hout, hpeer⟩ := mem_carried (List.mem_filter.mp he).1
  rw [hout, Option.getD_some, relayOne_cells (h e hmem) hout, if_pos hpeer]

/-- **The whole leg.** Whatever came in, and whatever the legs to the peer
lost, the relay bridges. -/
theorem relay_bridges (h : ∀ e ∈ es, e.unit ≠ .binary []) {arrived : List OnLeg}
    (hleg : LegCarries (relayAll es) arrived) :
    Bridged es arrived := by
  have hway : ∀ e ∈ carried es, ∀ unit ∈ (relayOne e).getD [], unit.isDatagram = e.asDatagram ∧
      unit.isBinary = decide (e.peer = some .ws) ∧
      (unit.isBinary = false → (relayOne e).getD [] = [unit]) := by
    intro e he unit hunit
    obtain ⟨-, out, hout, -⟩ := mem_carried he
    rw [hout, Option.getD_some] at hunit ⊢
    exact relayOne_units hout hunit
  have hall := cells_carried h fun _ => true
  rw [List.filter_true] at hall
  obtain ⟨honce, hreliable, horder⟩ := hleg
  rw [relayAll_eq] at honce hreliable horder
  have hsubperm : ∀ {l l' : List OnLeg}, l.Subperm l' →
      (l.flatMap OnLeg.cells).Subperm (l'.flatMap OnLeg.cells) := by
    rintro l l' ⟨k, hperm, hsub⟩
    exact ⟨k.flatMap OnLeg.cells, hperm.flatMap_right _, hsub.flatMap _⟩
  exact {
    noneInvented := hall ▸ hsubperm honce
    noneDropped := by
      rw [filter_flatMap_of (q := fun e => !e.asDatagram) fun e he unit hunit => by rw [(hway e he unit hunit).1]]
        at hreliable
      rw [← cells_carried h]
      exact hsubperm hreliable
    inOrder := by
      rw [horder, filter_flatMap_of (q := fun e => decide (e.peer = some .ws)) fun e he unit hunit =>
        (hway e he unit hunit).2.1]
      exact cells_carried h _
    grouped := by
      intro group hgroup
      obtain ⟨e, he, hunit⟩ := List.mem_flatMap.mp (honce.subset hgroup)
      obtain ⟨hmem, out, hout, hpeer⟩ := mem_carried he
      have hone := (hway e he _ hunit).2.2 rfl
      refine ⟨e, he, ?_⟩
      have hcells := relayOne_cells (h e hmem) hout
      rw [hout, Option.getD_some] at hone
      rw [hone, List.flatMap_singleton, if_pos hpeer] at hcells
      exact hcells }

end bridge

/-- A group that a client sends to a peer that is there. -/
def groupEvents (sender receiver : MemberTx) (cells : List Bytes) : List LegEvent :=
  (sender.forwardCells cells).map fun unit => ⟨unit, true, some receiver⟩

section group

variable (sender receiver : MemberTx) {cells : List Bytes}

/-- The relay sends on all of the group. -/
theorem carried_group (hne : cells ≠ []) (hcells : ∀ cell ∈ cells, CellFits cell)
    (hfits : (frameCells cells).length ≤ maxStreamGroupBytes) :
    carried (groupEvents sender receiver cells) = groupEvents sender receiver cells := by
  have hsent := relayOne_sent sender hne hcells hfits (some receiver)
  unfold carried
  rw [List.takeWhile_eq_self_iff.mpr, List.filter_eq_self.mpr]
  · intro e he
    obtain ⟨unit, -, rfl⟩ := List.mem_map.mp he
    rfl
  · intro e he
    obtain ⟨unit, hunit, rfl⟩ := List.mem_map.mp he
    exact (hsent unit hunit).2

/-- A group that came on a stream is sent on as one, and a frame whose loss is not tolerable on one
of its own. -/
theorem group_reliable (h : sender = .quic ∨ ∀ cell ∈ cells, lossyOk cell = false) :
    ∀ e ∈ groupEvents sender receiver cells, (!e.asDatagram) = true := by
  intro e he
  obtain ⟨unit, hunit, rfl⟩ := List.mem_map.mp he
  have halone : unit.alone.any lossyOk = false := by
    cases sender with
    | ws =>
      obtain ⟨cell, hcell, rfl⟩ := List.mem_map.mp hunit
      rcases h with hquic | hnone
      · cases hquic
      · exact hnone cell hcell
    | quic =>
      cases List.mem_singleton.mp hunit
      rfl
  unfold LegEvent.asDatagram
  rw [halone, Bool.and_false]
  rfl

theorem group_peer : ∀ e ∈ groupEvents sender receiver cells, e.peer = some receiver := by
  intro e he
  obtain ⟨unit, -, rfl⟩ := List.mem_map.mp he
  rfl

/-- To a peer on WebSocket nothing but its frames is sent. -/
theorem arrived_binary {es : List LegEvent} {arrived : List OnLeg}
    (hleg : LegCarries (relayAll es) arrived) (hpeer : ∀ e ∈ carried es, e.peer = some .ws) :
    ∀ unit ∈ arrived, unit.isBinary = true := by
  intro unit hunit
  have hmem := hleg.once.subset hunit
  rw [relayAll_eq] at hmem
  obtain ⟨e, he, hunit⟩ := List.mem_flatMap.mp hmem
  obtain ⟨-, out, hout, -⟩ := mem_carried he
  rw [hout, Option.getD_some] at hunit
  rw [(relayOne_units hout hunit).2.1, hpeer e he]
  rfl

/-- **A group across the relay**: over whatever legs, the peer is handed its cells, unless they may
go as datagrams; over WebSocket in order. -/
theorem relay_group (hne : cells ≠ []) (hcells : ∀ cell ∈ cells, CellFits cell)
    (hfits : (frameCells cells).length ≤ maxStreamGroupBytes) {arrived : List OnLeg}
    (hleg : LegCarries (relayAll (groupEvents sender receiver cells)) arrived) :
    (sender = .quic ∨ (∀ cell ∈ cells, lossyOk cell = false) →
      (arrived.flatMap OnLeg.cells).Perm cells) ∧
    (receiver = .ws → arrived.flatMap OnLeg.cells = cells) := by
  have hbinary : ∀ e ∈ groupEvents sender receiver cells, e.unit ≠ .binary [] := by
    intro e he
    obtain ⟨unit, hunit, rfl⟩ := List.mem_map.mp he
    exact (relayOne_sent sender hne hcells hfits (some receiver) unit hunit).1
  have hcarried := carried_group sender receiver hne hcells hfits
  have hgroup : (groupEvents sender receiver cells).flatMap (·.unit.cells) = cells := by
    unfold groupEvents
    rw [List.flatMap_map]
    exact cells_forwardCells sender hne hcells hfits
  have hbridged := relay_bridges hbinary hleg
  have honce := hbridged.noneInvented
  have hall := hbridged.noneDropped
  have horder := hbridged.inOrder
  rw [hcarried] at honce hall horder
  rw [hgroup] at honce
  constructor
  · intro hreliable
    rw [List.filter_eq_self.mpr (group_reliable sender receiver hreliable), hgroup] at hall
    exact honce.antisymm hall
  · rintro rfl
    have hpeer : ∀ e ∈ groupEvents sender .ws cells, e.peer = some .ws := group_peer sender .ws
    have hframes := arrived_binary hleg fun e he => hpeer e (hcarried ▸ he)
    rw [List.filter_eq_self.mpr hframes,
      List.filter_eq_self.mpr fun e he => by rw [hpeer e he]; rfl, hgroup] at horder
    exact horder

end group

/-- **Cell groups.** Framing and parsing are inverse to one another on the cells that can be sent;
the group of a message fits a stream and is parsed; and the relay carries the cells of a leg to the
peer as they are, all of them but the frames that go as datagrams. -/
theorem cell_groups (A : Aead) (hA : A.Opens) :
    (∀ cells : List Bytes, cells ≠ [] → (∀ cell ∈ cells, CellFits cell) →
      parseCells (frameCells cells) = some cells) ∧
    (∀ buf cells, parseCells buf = some cells →
      frameCells cells = buf ∧ ∀ cell ∈ cells, CellFits cell) ∧
    (∀ (t : TrackSeal) (data : Bytes) (cells : List Bytes), (t.sealCells A data).1 = .ok cells →
      parseCells (frameCells cells) = some cells ∧
      (frameCells cells).length ≤ maxStreamGroupBytes) ∧
    (∀ es arrived, (∀ e ∈ es, e.unit ≠ .binary []) → LegCarries (relayAll es) arrived →
      Bridged es arrived) ∧
    (∀ (sender receiver : MemberTx) (cells : List Bytes) (arrived : List OnLeg), cells ≠ [] →
      (∀ cell ∈ cells, CellFits cell) → (frameCells cells).length ≤ maxStreamGroupBytes →
      LegCarries (relayAll (groupEvents sender receiver cells)) arrived →
      (sender = .quic ∨ (∀ cell ∈ cells, lossyOk cell = false) →
        (arrived.flatMap OnLeg.cells).Perm cells) ∧
      (receiver = .ws → arrived.flatMap OnLeg.cells = cells)) := by
  refine ⟨?_, ?_, ?_, fun es arrived h hleg => relay_bridges h hleg, ?_⟩
  · exact fun cells hne hcells => parseCells_iff.mpr ⟨rfl, hne, hcells⟩
  · intro buf cells h
    obtain ⟨hframe, -, hcells⟩ := parseCells_iff.mp h
    exact ⟨hframe, hcells⟩
  · intro t data cells h
    obtain ⟨hne, hcells, hfits⟩ := media_group_fits hA h
    exact ⟨parseCells_iff.mpr ⟨rfl, hne, hcells⟩, hfits⟩
  · exact fun sender receiver cells arrived hne hcells hfits hleg => relay_group sender receiver hne hcells hfits hleg

/-- Two camera cells, from WebSocket to QUIC, where the streams overtake one another, and the cells
of a small message. -/
theorem cell_groups_small :
    parseCells [0, 2, 1, 7, 0, 1, 15] = some [[1, 7], [15]] ∧
    (List.flatMap OnLeg.cells [.stream [0, 1, 15], .stream [0, 2, 1, 7]]).Perm [[1, 7], [15]] ∧
    ∃ cells, (TrackSeal.sealCells Aead.plain ⟨[], .camera, 0⟩ [1, 2, 3]).1 = .ok cells ∧
      parseCells (frameCells cells) = some cells := by
  obtain ⟨hparse, -, hmedia, -, hrelay⟩ := cell_groups Aead.plain Aead.plain_opens
  have hcells : ∀ cell ∈ ([[1, 7], [15]] : List Bytes), CellFits cell := by
    intro cell hcell
    simp only [List.mem_cons, List.not_mem_nil, or_false] at hcell
    rcases hcell with rfl | rfl <;> exact ⟨by decide, by decide⟩
  have hleg : LegCarries (relayAll (groupEvents .ws .quic [[1, 7], [15]])) [.stream [0, 1, 15],
    .stream [0, 2, 1, 7]] := by
    have hsent : relayAll (groupEvents .ws .quic [[1, 7], [15]]) =
        [.stream [0, 2, 1, 7], .stream [0, 1, 15]] := by
      decide +kernel
    rw [hsent]
    exact { once := (List.Perm.swap _ _ _).subperm, reliable := (List.Perm.swap _ _ _).subperm, inOrder := rfl }
  refine ⟨hparse [[1, 7], [15]] (List.cons_ne_nil _ _) hcells, ?_, _, rfl,
    (hmedia ⟨[], .camera, 0⟩ [1, 2, 3] _ rfl).1⟩
  exact (hrelay .ws .quic _ _ (List.cons_ne_nil _ _) hcells (by decide) hleg).1 (Or.inr (by decide))

/-- A cell of screen audio that no datagram of the path takes. -/
def audioCell : Bytes := 3 :: List.replicate 1999 0

/-- **A datagram may be lost.** The relay sends the cell on, and the peer is handed nothing. -/
theorem datagram_lost :
    CellFits audioCell ∧ relayAll [⟨.binary audioCell, true, some .quic⟩] = [.datagram audioCell] ∧
      LegCarries [.datagram audioCell] [] ∧
      ¬ ∀ (es : List LegEvent) (arrived : List OnLeg), (∀ e ∈ es, e.unit ≠ .binary []) →
        LegCarries (relayAll es) arrived →
        (arrived.flatMap OnLeg.cells).Perm ((carried es).flatMap (·.unit.cells)) := by
  have hlen : audioCell.length = 2000 := by
    unfold audioCell
    rw [List.length_cons, List.length_replicate]
  have hfits : CellFits audioCell := by
    unfold CellFits maxFrameBytes
    omega
  have hone : relayOne ⟨.binary audioCell, true, some .quic⟩ = some [.datagram audioCell] := by
    have hmax : ¬ (decide (audioCell.length > maxFrameBytes) || !true) = true := by
      rw [hlen]
      decide
    unfold relayOne
    dsimp only
    rw [if_neg hmax]
    rfl
  have hsent : relayAll [⟨.binary audioCell, true, some .quic⟩] = [.datagram audioCell] := by
    unfold relayAll
    rw [hone]
    rfl
  have hcame : carried [⟨.binary audioCell, true, some .quic⟩] =
      [⟨.binary audioCell, true, some .quic⟩] := by
    unfold carried
    rw [List.takeWhile_cons_of_pos (by rw [hone]; rfl)]
    rfl
  have hleg : LegCarries [.datagram audioCell] [] :=
    { once := (List.nil_sublist _).subperm, reliable := List.Subperm.refl _, inOrder := rfl }
  refine ⟨hfits, hsent, hleg, fun hall => ?_⟩
  have hperm := hall [⟨.binary audioCell, true, some .quic⟩] [] (by
    intro e he heq
    cases List.mem_singleton.mp he
    cases heq) (hsent ▸ hleg)
  rw [hcame] at hperm
  exact absurd hperm.length_eq (by decide)

end Sona
