/-
# Media cells

`client-core/src/media.rs`: a media message is cut into cells of at most 16 KiB,
each sealed under the key of its track and direction with its number in the
nonce. The opening side takes a cell that authenticates if its number is above
the last one, and puts the fragments together.

A cell says whether more of its message follow and nothing else, and the opening
side does not look for gaps: a message that lost a cell is joined to the next one
(`lost_cell_splices`). While every cell that is taken joins what is held
(`InOrder`), the messages that are returned are messages that were sealed, each
once and in order (`media_never_spliced`). The argument about fragments is that of
`Fragments`; here `openCell_cell` and `openCell_forged` say that the opening side is
such a receiver.

Key definitions: `TrackSeal`, `TrackOpen`, `TrackSeal.sealAll`, `TrackOpen.openCell`, `InOrder`.
-/
import Sona.Kt
import Sona.Lib.Aead
import Sona.Lib.Fragments
import Sona.Lib.Trace

namespace Sona

/-! ### Cells -/

inductive Track
  | camera
  | screen
  | screenAudio
  | control
deriving DecidableEq, Repr

/-- The value on the wire. -/
def Track.byte : Track → UInt8
  | .camera => 1
  | .screen => 2
  | .screenAudio => 3
  | .control => 15

def cellQuantum : ℕ := 1024

/-- Largest plaintext of a cell. -/
def maxCellPlaintext : ℕ := 16 * 1024

/-- `more`, and the length of the fragment. -/
def cellHeader : ℕ := 5

def maxWireCell : ℕ := 1 + 8 + maxCellPlaintext + 16

/-- Largest message that is sealed, and that is put together. -/
def maxMediaMessage : ℕ := 256 * 1024

/-- A length rounded up to the grid. -/
def bucket (n : ℕ) : ℕ := (n + cellQuantum - 1) / cellQuantum * cellQuantum

/-- `u32::to_be_bytes`. -/
def beBytes32 (n : ℕ) : Bytes := (List.range 4).map fun i => UInt8.ofNat (n / 256 ^ (3 - i))

/-- The number of big-endian bytes. -/
def beValue (bytes : Bytes) : ℕ := bytes.foldl (fun acc b => acc * 256 + b.toNat) 0

def cellNonce (track : Track) (seq : ℕ) : Bytes :=
  track.byte :: (List.replicate 15 0 ++ beBytes seq)

/-- The sealing half of one direction of a track. -/
structure TrackSeal where
  key : Bytes
  track : Track
  nextSeq : ℕ

/-- The plaintext of a cell: the header, the fragment and zeros. -/
def cellPlain (more : Bool) (chunk : Bytes) (padded : ℕ) : Bytes :=
  (if more then 1 else 0) :: (beBytes32 chunk.length ++ (chunk ++ List.replicate (padded - (cellHeader + chunk.length)) 0))

/-- What authenticates beside the plaintext: the track and the number. -/
def cellAad (track : Track) (seq : ℕ) : Bytes := track.byte :: beBytes seq

/-- The cell of a fragment. -/
def cellWire (A : Aead) (key : Bytes) (track : Track) (seq : ℕ) (more : Bool) (chunk : Bytes)
    (padded : ℕ) : Bytes :=
  cellAad track seq ++ A.encrypt key (cellNonce track seq) (cellAad track seq) (cellPlain more chunk padded)

def TrackSeal.sealOne (A : Aead) (t : TrackSeal) (more : Bool) (chunk : Bytes) (padded : ℕ) :
    Bytes × TrackSeal :=
  (cellWire A t.key t.track t.nextSeq more chunk padded, { t with nextSeq := (t.nextSeq + 1) % 2 ^ 64 })

/-- The cells of a message's fragments. -/
def TrackSeal.sealChunks (A : Aead) (t : TrackSeal) : List Bytes → List Bytes × TrackSeal
  | [] => ([], t)
  | chunk :: chunks =>
    let (cell, t) := t.sealOne A (!chunks.isEmpty) chunk (bucket (cellHeader + chunk.length))
    let (cells, t) := t.sealChunks A chunks
    (cell :: cells, t)

def maxChunk : ℕ := maxCellPlaintext - cellHeader

def TrackSeal.sealCells (A : Aead) (t : TrackSeal) (data : Bytes) :
    Except String (List Bytes) × TrackSeal :=
  if data.isEmpty || data.length > maxMediaMessage then (.error "media message size", t) else
  let (cells, t) := t.sealChunks A (Fragments.chunks maxChunk data)
  (.ok cells, t)

/-- The opening half of one direction of a track; `held` is the field `partial`. -/
structure TrackOpen where
  key : Bytes
  track : Track
  lastSeq : Option ℕ
  held : Bytes

/-- The number a cell names. -/
def seqOf (wire : Bytes) : ℕ := beValue ((wire.drop 1).take 8)

/-- The plaintext of a cell, if it authenticates. -/
def decryptCell (A : Aead) (key : Bytes) (track : Track) (wire : Bytes) : Option Bytes :=
  A.decrypt key (cellNonce track (seqOf wire)) (wire.take 9) (wire.drop 9)

def TrackOpen.openCell (A : Aead) (t : TrackOpen) (wire : Bytes) :
    Except String (Option Bytes) × TrackOpen :=
  if wire.length < 1 + 8 + cellHeader + 16 || wire.length > maxWireCell || wire.head? != some t.track.byte then
    (.error "bad cell", { t with held := [] }) else
  let seq := seqOf wire
  if t.lastSeq.any (seq ≤ ·) then (.error "replayed media cell", { t with held := [] }) else
  match decryptCell A t.key t.track wire with
  | none => (.error "cell authentication failed", { t with held := [] })
  | some plain =>
    let t := { t with lastSeq := some seq }
    let flag := plain.headD 0
    if flag != 0 && flag != 1 then (.error "bad cell header", { t with held := [] }) else
    let len := beValue ((plain.drop 1).take 4)
    if cellHeader + len > plain.length || t.held.length + len > maxMediaMessage then
      (.error "bad cell length", { t with held := [] }) else
    let held := t.held ++ (plain.drop cellHeader).take len
    if flag == 1 then (.ok none, { t with held }) else (.ok (some held), { t with held := [] })

/-! ### A cell and what is read from it -/

theorem beBytes_length (n : ℕ) : (beBytes n).length = 8 := by simp [beBytes]

theorem beValue_beBytes {n : ℕ} (hn : n < 2 ^ 64) : beValue (beBytes n) = n := by
  simp only [beValue, beBytes, List.range_succ, List.range_zero, List.nil_append, List.cons_append,
    List.map_cons, List.map_nil, List.foldl_cons, List.foldl_nil, UInt8.toNat_ofNat']
  omega

theorem beBytes32_length (n : ℕ) : (beBytes32 n).length = 4 := by simp [beBytes32]

theorem beValue_beBytes32 {n : ℕ} (hn : n < 2 ^ 32) : beValue (beBytes32 n) = n := by
  simp only [beValue, beBytes32, List.range_succ, List.range_zero, List.nil_append,
    List.cons_append, List.map_cons, List.map_nil, List.foldl_cons, List.foldl_nil, UInt8.toNat_ofNat']
  omega

theorem le_bucket (n : ℕ) : n ≤ bucket n := by
  unfold bucket cellQuantum
  omega

theorem bucket_le {n : ℕ} (hn : n ≤ maxCellPlaintext) : bucket n ≤ maxCellPlaintext := by
  unfold bucket cellQuantum maxCellPlaintext at *
  omega

theorem cellPlain_length (more : Bool) {chunk : Bytes} {padded : ℕ}
    (h : cellHeader + chunk.length ≤ padded) :
    (cellPlain more chunk padded).length = padded := by
  unfold cellHeader at h
  simp only [cellPlain, List.length_cons, List.length_append, beBytes32_length,
    List.length_replicate, cellHeader]
  omega

/-- What a fragment as long as a cell holds is read back from its plaintext. -/
theorem cellPlain_reads (more : Bool) {chunk : Bytes} (hlen : chunk.length ≤ maxChunk)
    (padded : ℕ) :
    beValue (((cellPlain more chunk padded).drop 1).take 4) = chunk.length ∧
      ((cellPlain more chunk padded).drop cellHeader).take chunk.length = chunk := by
  have hchunk32 : chunk.length < 2 ^ 32 := by
    unfold maxChunk maxCellPlaintext cellHeader at hlen
    omega
  have hhdr : ((if more then (1 : UInt8) else 0) :: beBytes32 chunk.length).length =
      cellHeader := by
    simp [beBytes32_length, cellHeader]
  unfold cellPlain
  constructor
  · rw [List.drop_one, List.tail_cons, List.take_left' (beBytes32_length _)]
    exact beValue_beBytes32 hchunk32
  · rw [← List.cons_append, List.drop_left' hhdr, List.take_left' rfl]

theorem cellAad_length (track : Track) (seq : ℕ) : (cellAad track seq).length = 9 := by
  simp [cellAad, beBytes_length]

section cell

variable {A : Aead} (key : Bytes) (track : Track) (more : Bool) (chunk : Bytes) (padded : ℕ)

theorem seqOf_cellWire {seq : ℕ} (hseq : seq < 2 ^ 64) :
    seqOf (cellWire A key track seq more chunk padded) = seq := by
  have hlen := beBytes_length seq
  unfold seqOf cellWire cellAad
  rw [List.cons_append, List.drop_one, List.tail_cons, List.take_left' hlen]
  exact beValue_beBytes hseq

theorem decryptCell_cellWire (hA : A.Opens) {seq : ℕ} (hseq : seq < 2 ^ 64) :
    decryptCell A key track (cellWire A key track seq more chunk padded) =
      some (cellPlain more chunk padded) := by
  unfold decryptCell
  rw [seqOf_cellWire key track more chunk padded hseq]
  unfold cellWire
  rw [List.take_left' (cellAad_length track seq), List.drop_left' (cellAad_length track seq)]
  exact hA.open_seal _ _ _ _

end cell

/-! ### The opening side puts fragments together -/

/-- What an answer returns. -/
def returned : Except String (Option Bytes) → Option Bytes
  | .ok msg => msg
  | .error _ => none

/-- The opening half as a receiver of pieces. -/
def TrackOpen.reassembly (t : TrackOpen) : Fragments.Reassembly UInt8 := ⟨t.lastSeq, t.held⟩

section opening

variable {A : Aead} {t : TrackOpen}

/-- A cell that does not authenticate loses what is held, and nothing else. -/
theorem openCell_forged {wire : Bytes} (h : decryptCell A t.key t.track wire = none) :
    returned (t.openCell A wire).1 = none ∧ (t.openCell A wire).2 = { t with held := [] } := by
  unfold TrackOpen.openCell
  split
  · exact ⟨rfl, rfl⟩
  dsimp only
  split
  · exact ⟨rfl, rfl⟩
  rw [h]
  exact ⟨rfl, rfl⟩

/-- The length of a sealed cell is one that is opened. -/
theorem cellWire_length (hA : A.Opens) (key : Bytes) (track : Track) (seq : ℕ) (more : Bool)
    {chunk : Bytes} (hlen : chunk.length ≤ maxChunk) :
    1 + 8 + cellHeader + 16 ≤ (cellWire A key track seq more chunk (bucket (cellHeader + chunk.length))).length ∧
      (cellWire A key track seq more chunk (bucket (cellHeader + chunk.length))).length ≤
        maxWireCell := by
  have hle : cellHeader + chunk.length ≤ maxCellPlaintext := by
    unfold maxChunk cellHeader maxCellPlaintext at *
    omega
  have hpadded := le_bucket (cellHeader + chunk.length)
  have hmax := bucket_le hle
  unfold cellWire
  rw [List.length_append, hA.length, cellAad_length, cellPlain_length more hpadded]
  unfold maxWireCell Aead.tagLen
  omega

/-- A sealed cell passes the first checks, and names its number and its plaintext. -/
theorem openCell_checked (hA : A.Opens) {seq : ℕ} (hseq : seq < 2 ^ 64) (more : Bool)
    {chunk : Bytes} (hlen : chunk.length ≤ maxChunk) :
    let wire := cellWire A t.key t.track seq more chunk (bucket (cellHeader + chunk.length))
    (wire.length < 1 + 8 + cellHeader + 16 || wire.length > maxWireCell || wire.head? != some t.track.byte) = false ∧
    seqOf wire = seq ∧
    decryptCell A t.key t.track wire = some (cellPlain more chunk (bucket (cellHeader + chunk.length))) ∧
    (t.lastSeq.any (seq ≤ ·) = true ↔ ¬ t.reassembly.fresh seq) := by
  intro wire
  obtain ⟨hshort, hlong⟩ := cellWire_length hA t.key t.track seq more hlen
  have hhead : wire.head? = some t.track.byte := rfl
  refine ⟨?_, seqOf_cellWire t.key t.track more chunk _ hseq,
    decryptCell_cellWire t.key t.track more chunk _ hA hseq, ?_⟩
  · rw [hhead]
    simp only [Bool.or_eq_false_iff, decide_eq_false_iff_not, bne_self_eq_false, and_true]
    exact ⟨Nat.not_lt.mpr hshort, Nat.not_lt.mpr hlong⟩
  · unfold Fragments.Reassembly.fresh TrackOpen.reassembly
    cases t.lastSeq <;> simp

/-- **A sealed cell that is new, and does not overflow what is held, is opened.** -/
theorem openCell_fresh (hA : A.Opens) {seq : ℕ} (hseq : seq < 2 ^ 64) (more : Bool) {chunk : Bytes}
    (hlen : chunk.length ≤ maxChunk) (hfresh : t.reassembly.fresh seq)
    (hfits : t.held.length + chunk.length ≤ maxMediaMessage) :
    t.openCell A (cellWire A t.key t.track seq more chunk (bucket (cellHeader + chunk.length))) =
      (.ok (t.reassembly.arrive seq chunk more).1,
        { t with lastSeq := (t.reassembly.arrive seq chunk more).2.last
                 held := (t.reassembly.arrive seq chunk more).2.held }) := by
  obtain ⟨hchecked, hseqOf, hplain, hstale⟩ := openCell_checked (t := t) hA hseq more hlen
  unfold TrackOpen.openCell
  rw [if_neg (by rw [hchecked]; decide), hseqOf, hplain]
  dsimp only
  rw [if_neg fun hany => hstale.mp hany hfresh]
  -- the header says what was sealed
  have hpadded := le_bucket (cellHeader + chunk.length)
  have hlength := cellPlain_length more hpadded
  generalize bucket (cellHeader + chunk.length) = padded at hpadded hlength
  have hflag : (cellPlain more chunk padded).headD 0 = if more then 1 else 0 := rfl
  obtain ⟨hsize, hbody⟩ := cellPlain_reads more hlen padded
  have hlenOk : (cellHeader + chunk.length > (cellPlain more chunk padded).length ||
      t.held.length + chunk.length > maxMediaMessage) = false := by
    rw [hlength]
    simp only [Bool.or_eq_false_iff, decide_eq_false_iff_not]
    exact ⟨Nat.not_lt.mpr hpadded, Nat.not_lt.mpr hfits⟩
  rw [hflag, hsize, hbody]
  rw [if_neg (by cases more <;> decide), if_neg (by rw [hlenOk]; decide)]
  cases more <;> rfl

/-- **A sealed cell that is new, and does not overflow what is held, arrives as its fragment.** -/
theorem openCell_cell (hA : A.Opens) {seq : ℕ} (hseq : seq < 2 ^ 64) (more : Bool) {chunk : Bytes}
    (hlen : chunk.length ≤ maxChunk) :
    let wire := cellWire A t.key t.track seq more chunk (bucket (cellHeader + chunk.length))
    (¬ t.reassembly.fresh seq → returned (t.openCell A wire).1 = none ∧ (t.openCell A wire).2 = { t with held := [] }) ∧
    (t.reassembly.fresh seq → t.held.length + chunk.length ≤ maxMediaMessage →
      returned (t.openCell A wire).1 = (t.reassembly.arrive seq chunk more).1 ∧
      (t.openCell A wire).2 = { t with lastSeq := (t.reassembly.arrive seq chunk more).2.last
                                       held := (t.reassembly.arrive seq chunk more).2.held }) := by
  intro wire
  refine ⟨fun hold => ?_, fun hfresh hfits => ?_⟩
  · obtain ⟨hchecked, hseqOf, -, hstale⟩ := openCell_checked (t := t) hA hseq more hlen
    unfold TrackOpen.openCell
    rw [if_neg (by rw [hchecked]; decide), hseqOf]
    dsimp only
    rw [if_pos (hstale.mpr hold)]
    exact ⟨rfl, rfl⟩
  · rw [openCell_fresh hA hseq more hlen hfresh hfits]
    exact ⟨rfl, rfl⟩

end opening

/-! ### All cells of a direction -/

/-- The sizes of messages that are sealed. -/
def mediaSize (data : Bytes) : Bool := !(data.isEmpty || data.length > maxMediaMessage)

/-- The cells of messages that are sealed one after another; a message that is
refused has none. -/
def TrackSeal.sealAll (A : Aead) (t : TrackSeal) : List Bytes → List Bytes
  | [] => []
  | data :: msgs =>
    let (r, t) := t.sealCells A data
    (match r with
      | .ok cells => cells
      | .error _ => []) ++ t.sealAll A msgs

/-- The fragments of the messages that are sealed. -/
def piecesOf (msgs : List Bytes) : List (List Bytes) :=
  (msgs.filter mediaSize).map (Fragments.chunks maxChunk)

/-- The cell with the number `n`. -/
def CellAt (A : Aead) (key : Bytes) (track : Track) (n : ℕ) (x : Bytes) (post : List Bytes)
    (wire : Bytes) : Prop :=
  wire = cellWire A key track n (!post.isEmpty) x (bucket (cellHeader + x.length))

theorem maxChunk_ne_zero : maxChunk ≠ 0 := by decide

theorem piecesOf_flatten (msgs : List Bytes) :
    (piecesOf msgs).map List.flatten = msgs.filter mediaSize := by
  unfold piecesOf
  rw [List.map_map]
  have heach : ∀ m ∈ msgs.filter mediaSize, (List.flatten ∘ Fragments.chunks maxChunk) m = m :=
    fun m _ => (Fragments.chunks_spec maxChunk_ne_zero m).1
  rw [List.map_congr_left heach, List.map_id']

/-- The messages that are put together are not larger than those that are sealed. -/
theorem piecesOf_length {msgs : List Bytes} {m : List Bytes} (hm : m ∈ piecesOf msgs) :
    m.flatten.length ≤ maxMediaMessage := by
  have hmem : m.flatten ∈ msgs.filter mediaSize := piecesOf_flatten msgs ▸ List.mem_map_of_mem hm
  have hsize := (List.mem_filter.mp hmem).2
  simp only [mediaSize, Bool.not_eq_true', Bool.or_eq_false_iff, decide_eq_false_iff_not] at hsize
  exact Nat.le_of_not_lt hsize.2

theorem piece_length {msgs : List Bytes} {m : List Bytes} (hm : m ∈ piecesOf msgs) {x : Bytes}
    (hx : x ∈ m) :
    x.length ≤ maxChunk := by
  obtain ⟨data, -, rfl⟩ := List.mem_map.mp hm
  exact ((Fragments.chunks_spec maxChunk_ne_zero data).2 x hx).2

theorem sealChunks_cells (A : Aead) {w : Bytes} : ∀ (chunks : List Bytes) (t : TrackSeal),
    t.nextSeq + chunks.length < 2 ^ 64 →
    (t.sealChunks A chunks).2 = { t with nextSeq := t.nextSeq + chunks.length } ∧
    (w ∈ (t.sealChunks A chunks).1 → ∃ pre x post, chunks = pre ++ x :: post ∧
      CellAt A t.key t.track (t.nextSeq + pre.length) x post w)
  | [], _, _ => ⟨rfl, fun h => by simp [TrackSeal.sealChunks] at h⟩
  | chunk :: chunks, t, hcount => by
    rw [List.length_cons] at hcount
    have hnext : (t.nextSeq + 1) % 2 ^ 64 = t.nextSeq + 1 := Nat.mod_eq_of_lt (by omega)
    obtain ⟨hstate, hcells⟩ := sealChunks_cells A chunks { t with nextSeq := t.nextSeq + 1 } (by dsimp only; omega)
    unfold TrackSeal.sealChunks TrackSeal.sealOne
    rw [hnext]
    dsimp only
    refine ⟨?_, fun h => ?_⟩
    · rw [hstate, List.length_cons]
      dsimp only
      rw [Nat.add_assoc, Nat.add_comm 1]
    · rcases List.mem_cons.mp h with rfl | h
      · exact ⟨[], chunk, chunks, rfl, rfl⟩
      · obtain ⟨pre, x, post, rfl, hat⟩ := hcells h
        refine ⟨chunk :: pre, x, post, rfl, ?_⟩
        rw [List.length_cons, ← Nat.add_assoc, Nat.add_right_comm]
        exact hat

theorem sealCells_refused (A : Aead) (t : TrackSeal) {data : Bytes} (h : mediaSize data = false) :
    t.sealCells A data = (.error "media message size", t) := by
  simp only [mediaSize, Bool.not_eq_false'] at h
  unfold TrackSeal.sealCells
  rw [if_pos h]

theorem sealCells_sealed (A : Aead) (t : TrackSeal) {data : Bytes} (h : mediaSize data = true) :
    t.sealCells A data = (.ok (t.sealChunks A (Fragments.chunks maxChunk data)).1,
      (t.sealChunks A (Fragments.chunks maxChunk data)).2) := by
  simp only [mediaSize, Bool.not_eq_true'] at h
  unfold TrackSeal.sealCells
  rw [if_neg (by rw [h]; decide)]

/-- **A cell of the direction is that of a fragment, and names its number.** -/
theorem sealAll_cells (A : Aead) {w : Bytes} : ∀ (msgs : List Bytes) (t : TrackSeal),
    t.nextSeq + (piecesOf msgs).flatten.length < 2 ^ 64 → w ∈ t.sealAll A msgs →
    ∃ n before pre x post, Fragments.PieceAt (piecesOf msgs) n before pre x post ∧
      CellAt A t.key t.track (t.nextSeq + n) x post w
  | [], _, _, h => by simp [TrackSeal.sealAll] at h
  | data :: msgs, t, hcount, h => by
    unfold TrackSeal.sealAll at h
    cases hsize : mediaSize data with
    | false =>
      have hpieces : piecesOf (data :: msgs) = piecesOf msgs := by
        unfold piecesOf
        rw [List.filter_cons_of_neg (by rw [hsize]; decide)]
      rw [sealCells_refused A t hsize] at h
      rw [hpieces] at hcount ⊢
      exact sealAll_cells A msgs t hcount h
    | true =>
      have hpieces : piecesOf (data :: msgs) = Fragments.chunks maxChunk data :: piecesOf msgs := by
        unfold piecesOf
        rw [List.filter_cons_of_pos hsize, List.map_cons]
      rw [sealCells_sealed A t hsize] at h
      rw [hpieces, List.flatten_cons, List.length_append] at hcount
      obtain ⟨hstate, hcells⟩ := sealChunks_cells A (w := w) (Fragments.chunks maxChunk data) t (by omega)
      dsimp only at h
      rw [hstate] at h
      rw [hpieces]
      rcases List.mem_append.mp h with h | h
      · obtain ⟨pre, x, post, hsplit, hat⟩ := hcells h
        exact ⟨pre.length, [], pre, x, post, ⟨⟨piecesOf msgs, by rw [hsplit]; rfl⟩, by simp⟩, hat⟩
      · have hcount' : t.nextSeq + (Fragments.chunks maxChunk data).length +
            (piecesOf msgs).flatten.length < 2 ^ 64 := by
          omega
        obtain ⟨n, before, pre, x, post, hpiece, hat⟩ := sealAll_cells A msgs _ hcount' h
        refine ⟨(Fragments.chunks maxChunk data).length + n,
          Fragments.chunks maxChunk data :: before, pre, x, post,
          ⟨(List.prefix_cons_inj _).mpr hpiece.split, ?_⟩, ?_⟩
        · have hn := hpiece.number
          simp only [List.flatten_cons, List.length_append]
          omega
        · rw [← Nat.add_assoc]
          exact hat

/-! ### Receiving -/

/-- The opening half, and the messages it returned. -/
structure Receiving where
  opener : TrackOpen
  out : List Bytes := []

def receive (A : Aead) (s : Receiving) (wire : Bytes) : Receiving :=
  let (r, opener) := s.opener.openCell A wire
  { opener, out := s.out ++ (returned r).toList }

/-- What may be delivered: any cell of the direction, and cells that do not authenticate. -/
def Delivered (A : Aead) (key : Bytes) (track : Track) (msgs : List Bytes) (wire : Bytes) : Prop :=
  wire ∈ TrackSeal.sealAll A ⟨key, track, 0⟩ msgs ∨ decryptCell A key track wire = none

/-- A cell that authenticates and is new joins what is held: the first one of a
message finds nothing held, any other one directly follows the last one that was
taken and finds the beginning of its message held. -/
def InOrder (A : Aead) (msgs : List Bytes) (t : TrackOpen) (wire : Bytes) : Prop :=
  decryptCell A t.key t.track wire ≠ none → t.reassembly.fresh (seqOf wire) → ∀ before pre x post,
    Fragments.PieceAt (piecesOf msgs) (seqOf wire) before pre x post →
    Fragments.Joins t.reassembly (seqOf wire) pre

/-- The opening half of the direction is faithful to what was sealed. -/
structure Unspliced (key : Bytes) (track : Track) (msgs : List Bytes) (s : Receiving) : Prop where
  key : s.opener.key = key
  track : s.opener.track = track
  faithful : Fragments.Faithful (piecesOf msgs) s.opener.reassembly s.out

section receive

variable {A : Aead} {key : Bytes} {track : Track} {msgs : List Bytes} {s : Receiving} {wire : Bytes}

theorem receive_dropped
    (hdrop : returned (s.opener.openCell A wire).1 = none ∧ (s.opener.openCell A wire).2 = { s.opener with held := [] }) :
    receive A s wire = { opener := { s.opener with held := [] }, out := s.out } := by
  unfold receive
  dsimp only
  rw [hdrop.1, hdrop.2, Option.toList_none, List.append_nil]

theorem Unspliced.dropped (h : Unspliced key track msgs s)
    (hdrop : returned (s.opener.openCell A wire).1 = none ∧ (s.opener.openCell A wire).2 = { s.opener with held := [] }) :
    Unspliced key track msgs (receive A s wire) := by
  rw [receive_dropped hdrop]
  exact { key := h.key, track := h.track, faithful := h.faithful.discard }

/-- A sealed cell that is new and fits arrives. -/
theorem receive_cell (hA : A.Opens) {seq : ℕ} (hseq : seq < 2 ^ 64) (more : Bool) {chunk : Bytes}
    (hlen : chunk.length ≤ maxChunk) (hfresh : s.opener.reassembly.fresh seq)
    (hfits : s.opener.held.length + chunk.length ≤ maxMediaMessage) :
    receive A s (cellWire A s.opener.key s.opener.track seq more chunk (bucket (cellHeader + chunk.length))) =
      { opener := { s.opener with lastSeq := (s.opener.reassembly.arrive seq chunk more).2.last
                                  held := (s.opener.reassembly.arrive seq chunk more).2.held }
        out := s.out ++ (s.opener.reassembly.arrive seq chunk more).1.toList } := by
  obtain ⟨hreturned, hopener⟩ := (openCell_cell (t := s.opener) hA hseq more hlen).2 hfresh hfits
  unfold receive
  dsimp only
  rw [hreturned, hopener]

/-- **A delivered cell that is in order keeps the opening half faithful.** -/
theorem Unspliced.receive (hA : A.Opens) (hcount : (piecesOf msgs).flatten.length < 2 ^ 64)
    (h : Unspliced key track msgs s) (hwire : Delivered A key track msgs wire)
    (horder : InOrder A msgs s.opener wire) :
    Unspliced key track msgs (receive A s wire) := by
  rcases hwire with hcell | hforged
  · obtain ⟨n, before, pre, x, post, hat, hcellAt⟩ :=
      sealAll_cells A msgs _ (by dsimp only; omega) hcell
    dsimp only at hcellAt
    rw [Nat.zero_add] at hcellAt
    have hmem : pre ++ x :: post ∈ piecesOf msgs := hat.split.subset (by simp)
    have hlen : x.length ≤ maxChunk := piece_length hmem (by simp)
    have hn : n < 2 ^ 64 := by
      obtain ⟨rest, hrest⟩ := hat.split
      have hnum := hat.number
      rw [← hrest] at hcount
      simp only [List.flatten_append, List.flatten_cons, List.flatten_nil, List.append_nil,
        List.length_append, List.length_cons] at hcount
      omega
    have hwire : wire = cellWire A s.opener.key s.opener.track n (!post.isEmpty) x
        (bucket (cellHeader + x.length)) := by
      rw [h.key, h.track]
      exact hcellAt
    by_cases hfresh : s.opener.reassembly.fresh n
    · have hseq : seqOf wire = n := by
        rw [hwire]
        exact seqOf_cellWire _ _ _ _ _ hn
      have hopens : decryptCell A s.opener.key s.opener.track wire ≠ none := by
        rw [hwire, decryptCell_cellWire _ _ _ _ _ hA hn]
        simp
      have hjoins : Fragments.Joins s.opener.reassembly n pre := by
        have := horder hopens (by rw [hseq]; exact hfresh) before pre x post
          (by rw [hseq]; exact hat)
        rwa [hseq] at this
      -- what is held and the fragment are the beginning of a message that was sealed
      have hheld : s.opener.held = pre.flatten := (h.faithful.upTo hat hfresh hjoins).2
      have hfits : s.opener.held.length + x.length ≤ maxMediaMessage := by
        have hsize := piecesOf_length hmem
        rw [List.flatten_append, List.flatten_cons, List.length_append, List.length_append] at hsize
        rw [hheld]
        omega
      rw [hwire, receive_cell hA hn _ hlen hfresh hfits]
      exact { key := h.key, track := h.track, faithful := h.faithful.arrive hat hfresh hjoins }
    · have hstale := (openCell_cell (t := s.opener) hA hn (!post.isEmpty) hlen).1 hfresh
      rw [← hwire] at hstale
      exact h.dropped hstale
  · rw [← h.key, ← h.track] at hforged
    exact h.dropped (openCell_forged hforged)

end receive

/-- **Media messages are not spliced while every cell that is taken joins what is held.** -/
theorem media_never_spliced {A : Aead} (hA : A.Opens) (key : Bytes) (track : Track)
    (msgs wires : List Bytes) (hcount : (piecesOf msgs).flatten.length < 2 ^ 64)
    (hwires : ∀ w ∈ wires, Delivered A key track msgs w)
    (horder : Trace.Along (receive A) (fun s w => InOrder A msgs s.opener w) ⟨⟨key, track, none, []⟩, []⟩ wires) :
    (Trace.run (receive A) ⟨⟨key, track, none, []⟩, []⟩ wires).out.Sublist (msgs.filter mediaSize) := by
  have hstart : Unspliced key track msgs ⟨⟨key, track, none, []⟩, []⟩ :=
    { key := rfl, track := rfl, faithful := ⟨rfl, rfl⟩ }
  have hdelivered : Trace.Along (receive A)
      (fun _ w => Delivered A key track msgs w) ⟨⟨key, track, none, []⟩, []⟩ wires :=
    Trace.along_of_split _ _ _ _ fun pre e post heq => hwires e (by simp [heq])
  have hend : Unspliced key track msgs (Trace.run (receive A) ⟨⟨key, track, none, []⟩, []⟩ wires) :=
    Trace.Along.inv (fun _ _ h hC => h.receive hA hcount hC.1 hC.2) hstart
      ((Trace.along_and _ _ _ _ _).mpr ⟨hdelivered, horder⟩)
  rw [← piecesOf_flatten]
  exact hend.faithful.sublist

/-- A cell that joins what is held is in order. -/
theorem inOrder_of_joins {A : Aead} {msgs : List Bytes} {t : TrackOpen} {wire : Bytes}
    {before : List (List Bytes)} {pre : List Bytes} {x : Bytes} {post : List Bytes}
    (hat : Fragments.PieceAt (piecesOf msgs) (seqOf wire) before pre x post)
    (hjoins : Fragments.Joins t.reassembly (seqOf wire) pre) : InOrder A msgs t wire := by
  intro _ _ before' pre' x' post' hat'
  obtain ⟨rfl, rfl, rfl, rfl⟩ := hat.unique hat'
  exact hjoins

theorem sealAll_sealed (A : Aead) (t : TrackSeal) {data : Bytes} (h : mediaSize data = true)
    (msgs : List Bytes) :
    t.sealAll A (data :: msgs) = (t.sealChunks A (Fragments.chunks maxChunk data)).1 ++
      (t.sealChunks A (Fragments.chunks maxChunk data)).2.sealAll A msgs := by
  rw [TrackSeal.sealAll, sealCells_sealed A t h]

/-- A message of two fragments. -/
def longMedia : Bytes := List.replicate maxChunk 1 ++ [2]

theorem longMedia_chunks :
    Fragments.chunks maxChunk longMedia = [List.replicate maxChunk 1, [2]] := by
  have hlen : (List.replicate maxChunk (1 : UInt8)).length = maxChunk := List.length_replicate
  rw [longMedia, Fragments.chunks_cons maxChunk_ne_zero (by simp), List.take_left' hlen,
    List.drop_left' hlen, Fragments.chunks_of_length_le maxChunk_ne_zero (by simp) (by decide)]

theorem longMedia_size : mediaSize longMedia = true := by
  have hlen : longMedia.length = maxChunk + 1 := by
    rw [longMedia, List.length_append, List.length_replicate, List.length_singleton]
  have hne : longMedia.isEmpty = false := by simp [longMedia]
  rw [mediaSize, hne, hlen]
  decide

theorem shortMedia_chunks : Fragments.chunks maxChunk ([8] : Bytes) = [[8]] :=
  Fragments.chunks_of_length_le maxChunk_ne_zero (by decide) (by decide)

/-- The first cell of `longMedia`. -/
def longCell : Bytes :=
  cellWire Aead.plain [] .camera 0 true (List.replicate maxChunk 1) (bucket (cellHeader + maxChunk))

def sampleCell (seq : ℕ) (chunk : Bytes) : Bytes :=
  cellWire Aead.plain [] .camera seq false chunk 1024

/-- A message of two cells and one of a single cell. -/
def sampleMedia : List Bytes := [longMedia, [8]]

theorem sampleMedia_pieces : piecesOf sampleMedia = [[List.replicate maxChunk 1, [2]], [[8]]] := by
  have hfilter : sampleMedia.filter mediaSize = sampleMedia := by
    rw [sampleMedia, List.filter_cons_of_pos longMedia_size, List.filter_cons_of_pos (by decide),
      List.filter_nil]
  unfold piecesOf
  rw [hfilter, sampleMedia, List.map_cons, List.map_cons, List.map_nil, longMedia_chunks,
    shortMedia_chunks]

theorem sampleMedia_cells :
    TrackSeal.sealAll Aead.plain ⟨[], .camera, 0⟩ sampleMedia =
      [longCell, sampleCell 1 [2], sampleCell 2 [8]] := by
  have hlen : (List.replicate maxChunk (1 : UInt8)).length = maxChunk := List.length_replicate
  rw [sampleMedia, sealAll_sealed _ _ longMedia_size, longMedia_chunks,
    sealAll_sealed _ _ (by decide), shortMedia_chunks, longCell]
  generalize List.replicate maxChunk (1 : UInt8) = x at hlen
  rw [← hlen]
  rfl

/-- What is held after the first cell. -/
theorem receive_longCell : receive Aead.plain ⟨⟨[], .camera, none, []⟩, []⟩ longCell =
    ⟨⟨[], .camera, some 0, List.replicate maxChunk 1⟩, []⟩ := by
  have hlen : (List.replicate maxChunk (1 : UInt8)).length = maxChunk := List.length_replicate
  have h := receive_cell (s := ⟨⟨[], .camera, none, []⟩, []⟩) Aead.plain_opens
    (by decide : 0 < 2 ^ 64) true
    (Nat.le_of_eq hlen) (by intro last h; cases h) (by rw [hlen]; decide)
  rw [hlen] at h
  exact h

/-- A cell that was tampered with, the two cells of the first message, its first
cell once more, and the second message. -/
theorem media_never_spliced_long :
    (Trace.run (receive Aead.plain) ⟨⟨[], .camera, none, []⟩, []⟩
      [[1], longCell, sampleCell 1 [2], longCell, sampleCell 2 [8]]).out.Sublist (sampleMedia.filter mediaSize) := by
  have hlen : (List.replicate maxChunk (1 : UInt8)).length = maxChunk := List.length_replicate
  have hfirst : Fragments.PieceAt (piecesOf sampleMedia) 0 [] []
      (List.replicate maxChunk 1) [[2]] := by
    rw [sampleMedia_pieces]
    exact ⟨⟨_, rfl⟩, rfl⟩
  have hsecond :
      Fragments.PieceAt (piecesOf sampleMedia) 1 [] [List.replicate maxChunk 1] [2] [] := by
    rw [sampleMedia_pieces]
    exact ⟨⟨_, rfl⟩, rfl⟩
  have hthird : Fragments.PieceAt (piecesOf sampleMedia) 2 [[List.replicate maxChunk 1, [2]]] [] [8] [] := by
    rw [sampleMedia_pieces]
    exact ⟨⟨_, rfl⟩, rfl⟩
  have hseq₀ : seqOf longCell = 0 := seqOf_cellWire _ _ _ _ _ (by decide)
  have hseq₁ : seqOf (sampleCell 1 [2]) = 1 := seqOf_cellWire _ _ _ _ _ (by decide)
  have hseq₂ : seqOf (sampleCell 2 [8]) = 2 := seqOf_cellWire _ _ _ _ _ (by decide)
  -- the states on the way
  have hforged : receive Aead.plain ⟨⟨[], .camera, none, []⟩, []⟩ [1] =
      ⟨⟨[], .camera, none, []⟩, []⟩ := rfl
  have hreceived :
      receive Aead.plain ⟨⟨[], .camera, some 0, List.replicate maxChunk 1⟩, []⟩ (sampleCell 1 [2]) =
      ⟨⟨[], .camera, some 1, []⟩, [List.replicate maxChunk 1 ++ [2]]⟩ :=
    receive_cell (s := ⟨⟨[], .camera, some 0, List.replicate maxChunk 1⟩, []⟩) Aead.plain_opens
      (by decide : 1 < 2 ^ 64) false (by decide : ([2] : Bytes).length ≤ maxChunk)
      (by intro last h; cases h; decide)
      (by rw [hlen]; decide)
  have hstale : ¬ (⟨[], .camera, some 1, []⟩ : TrackOpen).reassembly.fresh 0 :=
    fun h => absurd (h 1 rfl) (by decide)
  have hlate : receive Aead.plain ⟨⟨[], .camera, some 1, []⟩,
    [List.replicate maxChunk 1 ++ [2]]⟩ longCell =
      ⟨⟨[], .camera, some 1, []⟩, [List.replicate maxChunk 1 ++ [2]]⟩ := by
    refine receive_dropped ?_
    have h := (openCell_cell (t := ⟨[], .camera, some 1, []⟩) Aead.plain_opens (by decide : 0 < 2 ^ 64) true
      (Nat.le_of_eq hlen)).1 hstale
    rw [hlen] at h
    exact h
  refine media_never_spliced Aead.plain_opens [] .camera sampleMedia _
    (by rw [sampleMedia_pieces]; decide) ?_ ?_
  · intro w hw
    unfold Delivered
    rw [sampleMedia_cells]
    simp only [List.mem_cons, List.not_mem_nil, or_false] at hw
    rcases hw with rfl | rfl | rfl | rfl | rfl
    · exact Or.inr (by decide +kernel)
    all_goals exact Or.inl (by simp)
  · refine ⟨fun hopens => absurd (by decide +kernel) hopens, ?_⟩
    rw [hforged]
    refine ⟨inOrder_of_joins (hseq₀.symm ▸ hfirst) ?_, ?_⟩
    · rw [Fragments.Joins, if_pos rfl]
      rfl
    rw [receive_longCell]
    refine ⟨inOrder_of_joins (hseq₁.symm ▸ hsecond) ?_, ?_⟩
    · rw [Fragments.Joins, if_neg (List.cons_ne_nil _ _)]
      exact ⟨fun h => absurd (hlen.symm.trans (congrArg List.length h)) (by decide), 0, rfl, hseq₁⟩
    rw [hreceived]
    refine ⟨fun _ hfresh => absurd (hseq₀ ▸ hfresh) hstale, ?_⟩
    rw [hlate]
    refine ⟨inOrder_of_joins (hseq₂.symm ▸ hthird) ?_, trivial⟩
    rw [Fragments.Joins, if_pos rfl]
    rfl

/-! ### A message that lost a cell -/

/-- The first cell of `longMedia`, and the cell of the message after it. -/
def splicedCells : List Bytes := [longCell, sampleCell 2 [8]]

theorem splicedCells_delivered :
    ∀ w ∈ splicedCells, Delivered Aead.plain [] .camera sampleMedia w := by
  intro w hw
  refine Or.inl ?_
  rw [sampleMedia_cells]
  exact List.Sublist.subset (by simp [splicedCells]) hw

theorem splicedCells_out :
    (Trace.run (receive Aead.plain) ⟨⟨[], .camera, none, []⟩, []⟩ splicedCells).out =
      [List.replicate maxChunk 1 ++ [8]] := by
  have hlen : (List.replicate maxChunk (1 : UInt8)).length = maxChunk := List.length_replicate
  have hsecond := receive_cell (s := ⟨⟨[], .camera, some 0, List.replicate maxChunk 1⟩, []⟩) Aead.plain_opens
    (by decide : 2 < 2 ^ 64) false (by decide : ([8] : Bytes).length ≤ maxChunk)
    (by intro last h; cases h; decide)
    (by rw [hlen]; decide)
  unfold splicedCells
  rw [Trace.run_cons, Trace.run_cons, Trace.run_nil, receive_longCell]
  exact congrArg Receiving.out hsecond

/-- **A cell is lost, and the next message is joined to what was held.** -/
theorem lost_cell_splices :
    (∀ w ∈ splicedCells, Delivered Aead.plain [] .camera [longMedia, [8]] w) ∧
      (Trace.run (receive Aead.plain) ⟨⟨[], .camera, none, []⟩, []⟩ splicedCells).out =
        [List.replicate maxChunk 1 ++ [8]] ∧
      List.replicate maxChunk 1 ++ [8] ∉ [longMedia, [8]] := by
  refine ⟨splicedCells_delivered, splicedCells_out, ?_⟩
  intro hmem
  simp only [List.mem_cons, List.not_mem_nil, or_false] at hmem
  rcases hmem with heq | heq
  · exact absurd (List.append_cancel_left heq) (by decide)
  · have hlen := congrArg List.length heq
    rw [List.length_append, List.length_replicate] at hlen
    exact absurd hlen (by decide)

end Sona
