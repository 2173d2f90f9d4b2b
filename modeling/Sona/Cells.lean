/-
# Sealing and opening in order

Over a channel that delivers in order, the cells of a message that `TrackSeal` seals
are opened by the `TrackOpen` in sync with it to that message, and to nothing before its
last cell (`openAll_chunks`). A cell's number is in its nonce and is used once
(`sealRun_numbered`), it is as long as the bucket of its fragment (`sealChunks_shapes`), and what is
held never passes the largest message, whatever arrives (`openCell_held`).

The audio frames of a call (`client-core/src/call.rs`) are of one size. Whatever part of
them is delivered, in whatever order, mixed with frames that do not authenticate, is opened to
a part of the payloads in the order they were sealed, each at most once (`openFrames_sublist`).

Key definitions: `InSync`, `TrackOpen.openAll`, `SealOp`, `CallKeys.sealFrame`,
`CallKeys.openFrame`, `MediaRoundTrip`, `FramesInOrder`.
Key theorems: `openAll_chunks`, `sealRun_numbered`, `openCell_held`, `openFrames_sublist`,
`cells_round_trip`.
-/
import Mathlib.Data.List.Infix
import Sona.Media

namespace Sona

/-! ### Deriving the two halves -/

/-- `derive_track_key`: `hkdf` is HKDF-SHA256 without a salt, of the call key and the info. -/
def deriveTrackKey (decode : String → Option Bytes) (hkdf : Bytes → Bytes → Bytes) (key : String)
    (callerToCallee : Bool) (track : Track) : Except String Bytes :=
  match decode key with
  | none => .error "bad call key"
  | some raw =>
    if raw.length ≠ 32 then .error "bad call key length" else
    .ok (hkdf raw (utf8 "sona-call-v2 " ++ utf8 (if callerToCallee then "caller->callee" else "callee->caller") ++
      utf8 " track " ++ [track.byte]))

def TrackSeal.derive (decode : String → Option Bytes) (hkdf : Bytes → Bytes → Bytes) (key : String)
    (caller : Bool) (track : Track) : Except String TrackSeal :=
  (deriveTrackKey decode hkdf key caller track).map fun key => { key, track, nextSeq := 0 }

def TrackOpen.derive (decode : String → Option Bytes) (hkdf : Bytes → Bytes → Bytes) (key : String)
    (caller : Bool) (track : Track) : Except String TrackOpen :=
  (deriveTrackKey decode hkdf key (!caller) track).map fun key => { key, track, lastSeq := none, held := [] }

/-- The two halves of one direction: what is sealed next is new to the opening
half, which holds nothing. -/
structure InSync (s : TrackSeal) (o : TrackOpen) : Prop where
  key : o.key = s.key
  track : o.track = s.track
  fresh : o.reassembly.fresh s.nextSeq
  held : o.held = []

/-- The two ends of a call derive halves that are in sync. -/
theorem inSync_derive {decode : String → Option Bytes} {hkdf : Bytes → Bytes → Bytes} {key : String}
    {caller : Bool} {track : Track} {s : TrackSeal} {o : TrackOpen}
    (hs : TrackSeal.derive decode hkdf key caller track = .ok s)
    (ho : TrackOpen.derive decode hkdf key (!caller) track = .ok o) : InSync s o := by
  unfold TrackSeal.derive at hs
  unfold TrackOpen.derive at ho
  rw [Bool.not_not] at ho
  cases hkey : deriveTrackKey decode hkdf key caller track with
  | error e =>
    rw [hkey] at hs
    cases hs
  | ok k =>
    rw [hkey] at hs ho
    cases hs
    cases ho
    exact { key := rfl, track := rfl, fresh := fun last hlast => (by cases hlast), held := rfl }

/-! ### Delivery in order -/

/-- Cells are opened one after another. -/
def TrackOpen.openAll (A : Aead) (t : TrackOpen) :
    List Bytes → List (Except String (Option Bytes)) × TrackOpen
  | [] => ([], t)
  | wire :: wires =>
    let (r, t) := t.openCell A wire
    let (rs, t) := t.openAll A wires
    (r :: rs, t)

/-- **The cells of a message's fragments** are opened to nothing until the last one, and then to
what was held and the fragments. -/
theorem openAll_chunks {A : Aead} (hA : A.Opens) :
    ∀ (chunks : List Bytes) {s : TrackSeal} {o : TrackOpen},
    chunks ≠ [] → (∀ x ∈ chunks, x.length ≤ maxChunk) → o.key = s.key → o.track = s.track →
    o.reassembly.fresh s.nextSeq → s.nextSeq + chunks.length < 2 ^ 64 →
    o.held.length + chunks.flatten.length ≤ maxMediaMessage →
    o.openAll A (s.sealChunks A chunks).1 =
      (List.replicate (chunks.length - 1) (.ok none) ++ [.ok (some (o.held ++ chunks.flatten))],
        { o with lastSeq := some (s.nextSeq + (chunks.length - 1)), held := [] })
  | [], _, _, hne, _, _, _, _, _, _ => absurd rfl hne
  | chunk :: chunks, s, o, _, hlens, hkey, htrack, hfresh, hcount, hfits => by
    obtain ⟨key, track, seq⟩ := s
    obtain ⟨_, _, last, held⟩ := o
    cases hkey
    cases htrack
    rw [List.length_cons] at hcount
    rw [List.flatten_cons, List.length_append] at hfits
    dsimp only at hfresh hcount hfits ⊢
    have hlen := hlens chunk List.mem_cons_self
    have hnext : (seq + 1) % 2 ^ 64 = seq + 1 := Nat.mod_eq_of_lt (by omega)
    have hseq : seq < 2 ^ 64 := by omega
    have hroom : held.length + chunk.length ≤ maxMediaMessage := by omega
    have hopen := openCell_fresh hA hseq (!chunks.isEmpty) hlen hfresh hroom
    dsimp only at hopen
    unfold TrackSeal.sealChunks TrackSeal.sealOne
    dsimp only
    rw [hnext]
    unfold TrackOpen.openAll
    rw [hopen]
    cases chunks with
    | nil => simp [TrackSeal.sealChunks, TrackOpen.openAll, Fragments.Reassembly.arrive, TrackOpen.reassembly]
    | cons next rest =>
      have hafter : (⟨key, track, some seq, held ++ chunk⟩ : TrackOpen).reassembly.fresh
          (seq + 1) := by
        intro last hlast
        cases hlast
        exact Nat.lt_succ_self _
      have hleft : (held ++ chunk).length + (next :: rest).flatten.length ≤ maxMediaMessage := by
        rw [List.length_append]
        omega
      have hcount' : seq + 1 + (next :: rest).length < 2 ^ 64 := by omega
      have hrest := openAll_chunks hA (next :: rest) (s := ⟨key, track, seq + 1⟩)
        (o := ⟨key, track, some seq, held ++ chunk⟩) (List.cons_ne_nil _ _)
        (fun x hx => hlens x (List.mem_cons_of_mem _ hx)) rfl rfl hafter hcount' hleft
      simp only [List.isEmpty_cons, Bool.not_false, Fragments.Reassembly.arrive, if_true,
        TrackOpen.reassembly]
      rw [hrest]
      simp only [List.length_cons, Nat.add_sub_cancel, List.append_assoc, List.flatten_cons]
      rw [List.replicate_succ, List.cons_append]
      congr 2
      rw [Nat.add_assoc, Nat.add_comm 1]

/-! ### Numbers and sizes -/

/-- Seal a small message into a single cell with an exact plaintext size. -/
def TrackSeal.sealPadded (A : Aead) (t : TrackSeal) (data : Bytes) (padded : ℕ) :
    Except String Bytes × TrackSeal :=
  if cellHeader + data.length > padded then (.error "cell payload too large", t) else
  let (cell, t) := t.sealOne A false data padded
  (.ok cell, t)

/-- A call on the sealing half. -/
inductive SealOp
  | cells (data : Bytes)
  | padded (data : Bytes) (size : ℕ)

/-- The cells that a call makes. -/
def TrackSeal.step (A : Aead) (t : TrackSeal) : SealOp → List Bytes × TrackSeal
  | .cells data =>
    let (r, t) := t.sealCells A data
    (r.toOption.getD [], t)
  | .padded data size =>
    let (r, t) := t.sealPadded A data size
    (r.toOption.toList, t)

/-- The cells that a sealing half makes over its calls. -/
def TrackSeal.sealRun (A : Aead) (t : TrackSeal) : List SealOp → List Bytes
  | [] => []
  | op :: ops =>
    let (cells, t) := t.step A op
    cells ++ t.sealRun A ops

/-- The cell is sealed under the number `n`: with the nonce of `n`, and naming `n`. -/
def SealedUnder (A : Aead) (key : Bytes) (track : Track) (n : ℕ) (wire : Bytes) : Prop :=
  ∃ more chunk padded, wire = cellWire A key track n more chunk padded

/-- Cells under the numbers from `n` on. -/
def Numbered (A : Aead) (key : Bytes) (track : Track) (n : ℕ) (wires : List Bytes) : Prop :=
  List.Forall₂ (SealedUnder A key track) (List.range' n wires.length) wires

section numbers

variable {A : Aead}

theorem Numbered.append {key : Bytes} {track : Track} {n : ℕ} {front back : List Bytes}
    (hfront : Numbered A key track n front) (hback : Numbered A key track (n + front.length) back) :
    Numbered A key track n (front ++ back) := by
  unfold Numbered at *
  rw [List.length_append, List.range'_append_1.symm]
  exact List.rel_append hfront hback

/-- A fragment makes a cell. -/
theorem sealChunks_length (A : Aead) : ∀ (chunks : List Bytes) (t : TrackSeal),
    (t.sealChunks A chunks).1.length = chunks.length
  | [], _ => rfl
  | _ :: chunks, _ => congrArg (· + 1) (sealChunks_length A chunks _)

theorem sealChunks_numbered :
    ∀ (chunks : List Bytes) (t : TrackSeal), t.nextSeq + chunks.length < 2 ^ 64 →
    Numbered A t.key t.track t.nextSeq (t.sealChunks A chunks).1
  | [], _, _ => List.Forall₂.nil
  | chunk :: chunks, t, hcount => by
    rw [List.length_cons] at hcount
    have hnext : (t.nextSeq + 1) % 2 ^ 64 = t.nextSeq + 1 := Nat.mod_eq_of_lt (by omega)
    have hcount' : t.nextSeq + 1 + chunks.length < 2 ^ 64 := by omega
    have hcells := sealChunks_numbered chunks { t with nextSeq := t.nextSeq + 1 } hcount'
    unfold TrackSeal.sealChunks TrackSeal.sealOne
    dsimp only
    rw [hnext]
    exact List.Forall₂.cons ⟨_, _, _, rfl⟩ hcells

/-- A call numbers its cells from the counter on, and moves it by as many. -/
theorem step_numbered {t : TrackSeal} (op : SealOp)
    (hcount : t.nextSeq + (t.step A op).1.length < 2 ^ 64) :
    Numbered A t.key t.track t.nextSeq (t.step A op).1 ∧
    (t.step A op).2 = { t with nextSeq := t.nextSeq + (t.step A op).1.length } := by
  cases op with
  | cells data =>
    cases hsize : mediaSize data with
    | false =>
      unfold TrackSeal.step
      dsimp only
      rw [sealCells_refused A t hsize]
      exact ⟨List.Forall₂.nil, rfl⟩
    | true =>
      have hstep : t.step A (.cells data) = t.sealChunks A (Fragments.chunks maxChunk data) := by
        unfold TrackSeal.step
        dsimp only
        rw [sealCells_sealed A t hsize]
        rfl
      rw [hstep] at hcount ⊢
      rw [sealChunks_length] at hcount
      have hcells := sealChunks_numbered (A := A) _ t hcount
      rw [sealChunks_length]
      exact ⟨hcells, (sealChunks_cells (w := []) A _ t hcount).1⟩
  | padded data size =>
    unfold TrackSeal.step TrackSeal.sealPadded at *
    dsimp only at *
    by_cases hbig : cellHeader + data.length > size
    · rw [if_pos hbig]
      exact ⟨List.Forall₂.nil, rfl⟩
    · rw [if_neg hbig] at hcount ⊢
      refine ⟨List.Forall₂.cons ⟨_, _, _, rfl⟩ List.Forall₂.nil, ?_⟩
      have hnext : (t.nextSeq + 1) % 2 ^ 64 = t.nextSeq + 1 := Nat.mod_eq_of_lt hcount
      unfold TrackSeal.sealOne
      dsimp only
      rw [hnext]
      rfl

/-- **Every cell has a number of its own**: the cells of a sealing half are
numbered in the order they are made. -/
theorem sealRun_numbered : ∀ (ops : List SealOp) (t : TrackSeal),
    t.nextSeq + (t.sealRun A ops).length < 2 ^ 64 →
    Numbered A t.key t.track t.nextSeq (t.sealRun A ops)
  | [], _, _ => List.Forall₂.nil
  | op :: ops, t, hcount => by
    unfold TrackSeal.sealRun at hcount ⊢
    dsimp only at hcount ⊢
    rw [List.length_append] at hcount
    obtain ⟨hcells, hstate⟩ := step_numbered (A := A) (t := t) op (by omega)
    rw [hstate] at hcount ⊢
    have hcount' : t.nextSeq + (t.step A op).1.length +
        (TrackSeal.sealRun A { t with nextSeq := t.nextSeq + (t.step A op).1.length } ops).length < 2 ^ 64 := by omega
    have hrest := sealRun_numbered ops { t with nextSeq := t.nextSeq + (t.step A op).1.length } hcount'
    exact hcells.append hrest

end numbers

/-- Numbers have nonces of their own. -/
theorem cellNonce_nodup (track : Track) {n count : ℕ} (h : n + count ≤ 2 ^ 64) :
    ((List.range' n count).map (cellNonce track)).Nodup := by
  refine List.Nodup.map_on (fun a ha b hb heq => ?_) List.nodup_range'
  rw [List.mem_range'_1] at ha hb
  have hbytes : beBytes a = beBytes b := List.append_cancel_left (List.cons.inj heq).2
  rw [← beValue_beBytes (n := a) (by omega), ← beValue_beBytes (n := b) (by omega), hbytes]

theorem bucket_grid {n : ℕ} (hpos : 0 < n) : cellQuantum ∣ bucket n ∧ cellQuantum ≤ bucket n := by
  unfold bucket cellQuantum
  omega

/-- What is held after a cell is not larger than the largest message, whatever the cell is. -/
theorem openCell_held (A : Aead) (t : TrackOpen) (wire : Bytes) :
    (t.openCell A wire).2.held.length ≤ maxMediaMessage := by
  unfold TrackOpen.openCell
  dsimp only
  split
  · exact Nat.zero_le _
  split
  · exact Nat.zero_le _
  split
  · exact Nat.zero_le _
  · split
    · exact Nat.zero_le _
    split
    · exact Nat.zero_le _
    · rename_i plain _ _ hlen
      simp only [Bool.or_eq_true, decide_eq_true_eq, not_or, Nat.not_lt] at hlen
      split
      · dsimp only
        rw [List.length_append]
        have htake := List.length_take_le (beValue ((plain.drop 1).take 4)) (plain.drop cellHeader)
        omega
      · exact Nat.zero_le _

/-! ### Audio frames -/

/-- Every plaintext frame is padded to exactly this many bytes. -/
def paddedPlaintext : ℕ := 256

def wireFrame : ℕ := 8 + paddedPlaintext + 16

/-- `u16::to_be_bytes`. -/
def beBytes16 (n : ℕ) : Bytes := (List.range 2).map fun i => UInt8.ofNat (n / 256 ^ (1 - i))

/-- Per-direction keys, and the counters of frames. -/
structure CallKeys where
  sealKey : Bytes
  openKey : Bytes
  sendSeq : ℕ
  recvLast : Option ℕ

def frameNonce (seq : ℕ) : Bytes := List.replicate 16 0 ++ beBytes seq

/-- Constant-size plaintext: the length, the payload and zeros. -/
def framePlain (opus : Bytes) : Bytes :=
  beBytes16 opus.length ++ (opus ++ List.replicate (paddedPlaintext - (2 + opus.length)) 0)

def frameWire (A : Aead) (key : Bytes) (seq : ℕ) (opus : Bytes) : Bytes :=
  beBytes seq ++ A.encrypt key (frameNonce seq) (beBytes seq) (framePlain opus)

def CallKeys.sealFrame (A : Aead) (k : CallKeys) (opus : Bytes) : Except String Bytes × CallKeys :=
  if opus.length > paddedPlaintext - 2 then (.error "audio frame too large", k) else
  (.ok (frameWire A k.sealKey k.sendSeq opus), { k with sendSeq := (k.sendSeq + 1) % 2 ^ 64 })

/-- The plaintext of a frame, if it authenticates. -/
def decryptFrame (A : Aead) (key wire : Bytes) : Option Bytes :=
  A.decrypt key (frameNonce (beValue (wire.take 8))) (beBytes (beValue (wire.take 8))) (wire.drop 8)

def CallKeys.openFrame (A : Aead) (k : CallKeys) (wire : Bytes) : Except String Bytes × CallKeys :=
  if wire.length ≠ wireFrame then (.error "bad frame size", k) else
  let seq := beValue (wire.take 8)
  if k.recvLast.any (seq ≤ ·) then (.error "replayed call frame", k) else
  match decryptFrame A k.openKey wire with
  | none => (.error "frame authentication failed", k)
  | some plain =>
    let len := beValue (plain.take 2)
    if len > paddedPlaintext - 2 then (.error "bad frame length", k) else
    (.ok ((plain.drop 2).take len), { k with recvLast := some seq })

/-- The frames of payloads that are sealed one after another. -/
def CallKeys.sealFrames (A : Aead) (k : CallKeys) : List Bytes → List Bytes
  | [] => []
  | opus :: rest =>
    let (r, k) := k.sealFrame A opus
    r.toOption.toList ++ k.sealFrames A rest

/-- The payloads of the frames that are opened, of those that are delivered. -/
def CallKeys.openFrames (A : Aead) (k : CallKeys) : List Bytes → List Bytes
  | [] => []
  | wire :: wires =>
    let (r, k) := k.openFrame A wire
    r.toOption.toList ++ k.openFrames A wires

section frames

variable {A : Aead}

theorem beValue_beBytes16 {n : ℕ} (hn : n < 2 ^ 16) : beValue (beBytes16 n) = n := by
  simp only [beValue, beBytes16, List.range_succ, List.range_zero, List.nil_append,
    List.cons_append, List.map_cons, List.map_nil, List.foldl_cons, List.foldl_nil, UInt8.toNat_ofNat']
  omega

theorem framePlain_length {opus : Bytes} (h : opus.length ≤ paddedPlaintext - 2) :
    (framePlain opus).length = paddedPlaintext := by
  unfold paddedPlaintext at *
  simp only [framePlain, beBytes16, List.length_append, List.length_map, List.length_range,
    List.length_replicate, paddedPlaintext]
  omega

/-- A frame is of the one size. -/
theorem frameWire_length (hA : A.Opens) (key : Bytes) (seq : ℕ) {opus : Bytes}
    (h : opus.length ≤ paddedPlaintext - 2) : (frameWire A key seq opus).length = wireFrame := by
  unfold frameWire
  rw [List.length_append, hA.length, framePlain_length h, beBytes_length]
  rfl

/-- The frames of payloads that are numbered from `n` on. -/
def numberedFrames (A : Aead) (key : Bytes) : ℕ → List Bytes → List Bytes
  | _, [] => []
  | n, opus :: rest => frameWire A key n opus :: numberedFrames A key (n + 1) rest

theorem sealFrames_eq : ∀ (payloads : List Bytes) (k : CallKeys),
    (∀ p ∈ payloads, p.length ≤ paddedPlaintext - 2) → k.sendSeq + payloads.length < 2 ^ 64 →
    k.sealFrames A payloads = numberedFrames A k.sealKey k.sendSeq payloads
  | [], _, _, _ => rfl
  | opus :: rest, k, hlens, hcount => by
    rw [List.length_cons] at hcount
    have hnext : (k.sendSeq + 1) % 2 ^ 64 = k.sendSeq + 1 := Nat.mod_eq_of_lt (by omega)
    have hfits : ¬ opus.length > paddedPlaintext - 2 :=
      Nat.not_lt.mpr (hlens opus List.mem_cons_self)
    have hcount' : k.sendSeq + 1 + rest.length < 2 ^ 64 := by omega
    have hrest := sealFrames_eq rest { k with sendSeq := k.sendSeq + 1 }
      (fun p hp => hlens p (List.mem_cons_of_mem _ hp)) hcount'
    unfold CallKeys.sealFrames CallKeys.sealFrame
    rw [if_neg hfits]
    dsimp only
    rw [hnext, hrest]
    rfl

theorem mem_numberedFrames {key wire : Bytes} : ∀ {payloads : List Bytes} {n : ℕ},
    wire ∈ numberedFrames A key n payloads →
    ∃ pre opus post, payloads = pre ++ opus :: post ∧ wire = frameWire A key (n + pre.length) opus
  | [], _, h => by cases h
  | opus :: rest, n, h => by
    rcases List.mem_cons.mp h with rfl | h
    · exact ⟨[], opus, rest, rfl, rfl⟩
    · obtain ⟨pre, opus', post, rfl, rfl⟩ := mem_numberedFrames h
      refine ⟨opus :: pre, opus', post, rfl, ?_⟩
      rw [List.length_cons, Nat.add_assoc, Nat.add_comm 1]

/-- **A frame that is new is opened to its payload**, and one that is not is refused. -/
theorem openFrame_frame (hA : A.Opens) {k : CallKeys} {seq : ℕ} (hseq : seq < 2 ^ 64) {opus : Bytes}
    (h : opus.length ≤ paddedPlaintext - 2) : k.openFrame A (frameWire A k.openKey seq opus) =
      if k.recvLast.any (seq ≤ ·) then (.error "replayed call frame", k)
      else (.ok opus, { k with recvLast := some seq }) := by
  have hlen := frameWire_length hA k.openKey seq h
  have hnumber : beValue ((frameWire A k.openKey seq opus).take 8) = seq := by
    unfold frameWire
    rw [List.take_left' (beBytes_length seq)]
    exact beValue_beBytes hseq
  have hplain : decryptFrame A k.openKey (frameWire A k.openKey seq opus) =
      some (framePlain opus) := by
    unfold decryptFrame
    rw [hnumber]
    unfold frameWire
    rw [List.drop_left' (beBytes_length seq)]
    exact hA.open_seal _ _ _ _
  have h16 : (beBytes16 opus.length).length = 2 := by simp [beBytes16]
  have hsize : beValue ((framePlain opus).take 2) = opus.length := by
    unfold framePlain
    rw [List.take_left' h16]
    refine beValue_beBytes16 ?_
    unfold paddedPlaintext at h
    omega
  have hbody : ((framePlain opus).drop 2).take opus.length = opus := by
    unfold framePlain
    rw [List.drop_left' h16, List.take_left' rfl]
  unfold CallKeys.openFrame
  rw [if_neg (not_not.mpr hlen), hnumber, hplain]
  dsimp only
  rw [hsize, hbody, if_neg (Nat.not_lt.mpr h)]

/-- A frame that does not authenticate changes nothing. -/
theorem openFrame_forged {k : CallKeys} {wire : Bytes} (h : decryptFrame A k.openKey wire = none) :
    (k.openFrame A wire).1.toOption = none ∧ (k.openFrame A wire).2 = k := by
  unfold CallKeys.openFrame
  dsimp only
  split
  · exact ⟨rfl, rfl⟩
  split
  · exact ⟨rfl, rfl⟩
  rw [h]
  exact ⟨rfl, rfl⟩

/-- **Whatever is delivered**: what is opened from now on is a part, in order, of the payloads
behind the last one that was opened. -/
theorem openFrames_sublist (hA : A.Opens) {key : Bytes} {n : ℕ} {payloads : List Bytes}
    (hlens : ∀ p ∈ payloads, p.length ≤ paddedPlaintext - 2)
    (hcount : n + payloads.length < 2 ^ 64) :
    ∀ (wires : List Bytes) {k : CallKeys} {m : ℕ}, k.openKey = key →
    (∀ j, k.recvLast.any (n + j ≤ ·) = false → m ≤ j) →
    (∀ w ∈ wires, w ∈ numberedFrames A key n payloads ∨ decryptFrame A key w = none) →
    (k.openFrames A wires).Sublist (payloads.drop m)
  | [], _, _, _, _, _ => List.nil_sublist _
  | wire :: wires, k, m, hkey, hfresh, hdelivered => by
    have hlater := fun w hw => hdelivered w (List.mem_cons_of_mem wire hw)
    unfold CallKeys.openFrames
    dsimp only
    rcases hdelivered wire List.mem_cons_self with hsealed | hforged
    · obtain ⟨pre, opus, post, rfl, rfl⟩ := mem_numberedFrames hsealed
      rw [List.length_append, List.length_cons] at hcount
      have hopus := hlens opus (by simp)
      have hseq : n + pre.length < 2 ^ 64 := by omega
      rw [← hkey, openFrame_frame hA hseq hopus]
      cases hstale : k.recvLast.any (n + pre.length ≤ ·) with
      | true =>
        rw [if_pos rfl]
        exact openFrames_sublist hA hlens (by simpa using hcount) wires hkey hfresh hlater
      | false =>
        rw [if_neg Bool.false_ne_true]
        have hrest := openFrames_sublist hA hlens (by simpa using hcount) wires
          (k := { k with recvLast := some (n + pre.length) }) (m := pre.length + 1) hkey
          (fun j hj => Nat.succ_le_of_lt (by simpa using hj)) hlater
        have htail : (pre ++ opus :: post).drop (pre.length + 1) = post := by
          rw [← List.drop_drop, List.drop_left' rfl, List.drop_one, List.tail_cons]
        rw [htail] at hrest
        have hfrom : (opus :: post).Sublist ((pre ++ opus :: post).drop m) := by
          have hdrop := List.drop_sublist_drop_left (pre ++ opus :: post) (hfresh pre.length hstale)
          rwa [List.drop_left' rfl] at hdrop
        exact (hrest.cons_cons opus).trans hfrom
    · obtain ⟨hnone, hsame⟩ := openFrame_forged (k := k) (hkey ▸ hforged)
      rw [hnone, hsame]
      exact openFrames_sublist hA hlens hcount wires hkey hfresh hlater

/-- A part of the frames, in order, is opened whole. -/
theorem openFrames_inOrder (hA : A.Opens) {key : Bytes} :
    ∀ {payloads : List Bytes} {n : ℕ} {k : CallKeys}
    {taken : List (Bytes × Bytes)}, (∀ p ∈ payloads, p.length ≤ paddedPlaintext - 2) →
    n + payloads.length < 2 ^ 64 → k.openKey = key → (∀ last, k.recvLast = some last → last < n) →
    taken.Sublist (payloads.zip (numberedFrames A key n payloads)) →
    k.openFrames A (taken.map Prod.snd) = taken.map Prod.fst
  | [], _, _, _, _, _, _, _, htaken => by
    rw [List.sublist_nil.mp htaken]
    rfl
  | opus :: rest, n, k, taken, hlens, hcount, hkey, hfresh, htaken => by
    rw [List.length_cons] at hcount
    have hcount' : n + 1 + rest.length < 2 ^ 64 := by omega
    have hrest := fun p hp => hlens p (List.mem_cons_of_mem opus hp)
    cases htaken with
    | cons _ hskipped =>
      exact openFrames_inOrder hA hrest hcount' hkey
        (fun last hlast => Nat.lt_succ_of_lt (hfresh last hlast)) hskipped
    | cons_cons _ hmore =>
      have hnew : k.recvLast.any (n ≤ ·) = false := by
        cases hlast : k.recvLast with
        | none => rfl
        | some last => simpa using hfresh last hlast
      have hopen : k.openFrame A (frameWire A key n opus) =
          (.ok opus, { k with recvLast := some n }) := by
        rw [← hkey, openFrame_frame hA (by omega) (hlens opus List.mem_cons_self), hnew,
          if_neg Bool.false_ne_true]
      have hafter : ∀ last, some n = some last → last < n + 1 := fun last hlast => by
        cases hlast
        exact Nat.lt_succ_self n
      rw [List.map_cons, CallKeys.openFrames, hopen]
      dsimp only
      rw [openFrames_inOrder hA (k := { k with recvLast := some n }) hrest hcount' hkey hafter hmore]
      rfl

end frames

/-! ### The round trip -/

/-- The cell of a fragment: its plaintext holds the fragment, and is as long as the bucket of the
fragment's length, which is on the grid. -/
def CellShape (A : Aead) (key : Bytes) (track : Track) (chunk wire : Bytes) : Prop :=
  ∃ plain : Bytes, decryptCell A key track wire = some plain ∧
    (plain.drop cellHeader).take (beValue ((plain.drop 1).take 4)) = chunk ∧
    plain.length = bucket (cellHeader + chunk.length) ∧ cellQuantum ∣ plain.length ∧
    cellQuantum ≤ plain.length ∧ plain.length ≤ maxCellPlaintext ∧
    wire.length = 1 + 8 + plain.length + 16 ∧ wire.length ≤ maxWireCell

theorem cellShape {A : Aead} (hA : A.Opens) (key : Bytes) (track : Track) {n : ℕ} (hn : n < 2 ^ 64)
    (more : Bool) {chunk : Bytes} (hlen : chunk.length ≤ maxChunk) :
    CellShape A key track chunk (cellWire A key track n more chunk (bucket (cellHeader + chunk.length))) := by
  have hplain := cellPlain_length more (le_bucket (cellHeader + chunk.length))
  obtain ⟨hsize, hbody⟩ := cellPlain_reads more hlen (bucket (cellHeader + chunk.length))
  have hmax : bucket (cellHeader + chunk.length) ≤ maxCellPlaintext := by
    apply bucket_le
    unfold maxChunk at hlen
    unfold cellHeader maxCellPlaintext at *
    omega
  obtain ⟨hdvd, hquantum⟩ := bucket_grid (n := cellHeader + chunk.length) (by unfold cellHeader; omega)
  have hwire : (cellWire A key track n more chunk (bucket (cellHeader + chunk.length))).length =
      1 + 8 + bucket (cellHeader + chunk.length) + 16 := by
    unfold cellWire
    rw [List.length_append, hA.length, cellAad_length, hplain]
    unfold Aead.tagLen
    omega
  refine ⟨_, decryptCell_cellWire key track more chunk _ hA hn, by rw [hsize, hbody], hplain, ?_⟩
  rw [hplain]
  exact ⟨hdvd, hquantum, hmax, hwire, (cellWire_length hA key track n more hlen).2⟩

/-- A message makes a cell of each of its fragments, in order. -/
theorem sealChunks_shapes {A : Aead} (hA : A.Opens) : ∀ (chunks : List Bytes) (t : TrackSeal),
    (∀ x ∈ chunks, x.length ≤ maxChunk) → t.nextSeq + chunks.length < 2 ^ 64 →
    List.Forall₂ (CellShape A t.key t.track) chunks (t.sealChunks A chunks).1
  | [], _, _, _ => List.Forall₂.nil
  | chunk :: chunks, t, hlens, hcount => by
    rw [List.length_cons] at hcount
    have hnext : (t.nextSeq + 1) % 2 ^ 64 = t.nextSeq + 1 := Nat.mod_eq_of_lt (by omega)
    have hcount' : t.nextSeq + 1 + chunks.length < 2 ^ 64 := by omega
    have hrest := sealChunks_shapes hA chunks { t with nextSeq := t.nextSeq + 1 }
      (fun x hx => hlens x (List.mem_cons_of_mem _ hx)) hcount'
    unfold TrackSeal.sealChunks TrackSeal.sealOne
    dsimp only
    rw [hnext]
    exact List.Forall₂.cons (cellShape hA _ _ (by omega) _ (hlens chunk List.mem_cons_self)) hrest

/-- A message that is sealed, and its cells opened in order. -/
structure MediaRoundTrip (A : Aead) (s : TrackSeal) (o : TrackOpen) (data : Bytes)
    (cells : List Bytes) : Prop where
  sealed : (s.sealCells A data).1 = .ok cells
  nonempty : cells ≠ []
  opened : (o.openAll A cells).1 = List.replicate (cells.length - 1) (.ok none) ++ [.ok (some data)]
  synced : InSync (s.sealCells A data).2 (o.openAll A cells).2
  shapes : List.Forall₂ (CellShape A s.key s.track) (Fragments.chunks maxChunk data) cells

/-- A message is opened to itself. -/
theorem media_round_trip {A : Aead} (hA : A.Opens) {s : TrackSeal} {o : TrackOpen}
    (hsync : InSync s o) {data : Bytes} (hne : data ≠ []) (hlen : data.length ≤ maxMediaMessage)
    (hcount : s.nextSeq + (Fragments.chunks maxChunk data).length < 2 ^ 64) :
    ∃ cells, MediaRoundTrip A s o data cells := by
  obtain ⟨hflat, hchunks⟩ := Fragments.chunks_spec maxChunk_ne_zero data
  have hsize : mediaSize data = true := by
    simp only [mediaSize, Bool.not_eq_true', Bool.or_eq_false_iff, decide_eq_false_iff_not,
      List.isEmpty_eq_false_iff]
    exact ⟨hne, Nat.not_lt.mpr hlen⟩
  have hsome : Fragments.chunks maxChunk data ≠ [] :=
    fun hnil => hne (by rw [← hflat, hnil, List.flatten_nil])
  have hpos : 0 < (Fragments.chunks maxChunk data).length := List.length_pos_of_ne_nil hsome
  have hopened := openAll_chunks hA _ hsome
    (fun x hx => (hchunks x hx).2) hsync.key hsync.track hsync.fresh hcount
    (by rw [hsync.held, hflat, List.length_nil, Nat.zero_add]; exact hlen)
  rw [hsync.held, List.nil_append, hflat] at hopened
  have hcells : (s.sealChunks A (Fragments.chunks maxChunk data)).1.length =
      (Fragments.chunks maxChunk data).length := sealChunks_length A _ s
  refine ⟨(s.sealChunks A (Fragments.chunks maxChunk data)).1, ?_⟩
  exact {
    sealed := by rw [sealCells_sealed A s hsize]
    nonempty := List.ne_nil_of_length_pos (hcells ▸ hpos)
    opened := by rw [hopened, hcells]
    synced := by
      rw [sealCells_sealed A s hsize, hopened, (sealChunks_cells (w := []) A _ s hcount).1]
      exact {
        key := hsync.key
        track := hsync.track
        fresh := fun last hlast => by
          cases hlast
          dsimp only
          omega
        held := rfl }
    shapes := sealChunks_shapes hA _ s (fun x hx => (hchunks x hx).2) hcount }

/-- The two ends of one direction of frames. -/
structure FramesInSync (k o : CallKeys) : Prop where
  key : o.openKey = k.sealKey
  fresh : ∀ last, o.recvLast = some last → last < k.sendSeq

/-- The frames of payloads, sealed by the one end and opened by the other. -/
structure FramesInOrder (A : Aead) (k o : CallKeys) (payloads : List Bytes) : Prop where
  sizes : ∀ wire ∈ k.sealFrames A payloads, wire.length = wireFrame
  count : (k.sealFrames A payloads).length = payloads.length
  /-- Whatever is delivered. -/
  sublist : ∀ wires, (∀ w ∈ wires, w ∈ k.sealFrames A payloads ∨ decryptFrame A o.openKey w = none) →
    (o.openFrames A wires).Sublist payloads
  /-- A part of the frames in order, whole. -/
  inOrder : ∀ taken : List (Bytes × Bytes), taken.Sublist (payloads.zip (k.sealFrames A payloads)) →
    o.openFrames A (taken.map Prod.snd) = taken.map Prod.fst

theorem numberedFrames_length (A : Aead) (key : Bytes) : ∀ (payloads : List Bytes) (n : ℕ),
    (numberedFrames A key n payloads).length = payloads.length
  | [], _ => rfl
  | _ :: rest, n => congrArg (· + 1) (numberedFrames_length A key rest (n + 1))

theorem frames_in_order {A : Aead} (hA : A.Opens) {k o : CallKeys} (hsync : FramesInSync k o)
    {payloads : List Bytes} (hlens : ∀ p ∈ payloads, p.length ≤ paddedPlaintext - 2)
    (hcount : k.sendSeq + payloads.length < 2 ^ 64) :
    FramesInOrder A k o payloads := by
  have hframes := sealFrames_eq (A := A) payloads k hlens hcount
  exact {
    sizes := by
      intro wire hwire
      rw [hframes] at hwire
      obtain ⟨pre, opus, post, rfl, rfl⟩ := mem_numberedFrames hwire
      exact frameWire_length hA _ _ (hlens opus (by simp))
    count := by rw [hframes, numberedFrames_length]
    sublist := by
      intro wires hdelivered
      rw [hframes, hsync.key] at hdelivered
      exact openFrames_sublist hA hlens hcount wires (m := 0) hsync.key
        (fun j _ => Nat.zero_le j) hdelivered
    inOrder := by
      intro taken htaken
      rw [hframes] at htaken
      exact openFrames_inOrder hA hlens hcount hsync.key hsync.fresh htaken }

/-- **Sealing and opening.** A message comes out of its cells, which show their buckets only; no two
cells of a sealing half share a nonce; what is held is bounded; and frames are
opened in order, each once. -/
theorem cells_round_trip (A : Aead) (hA : A.Opens) :
    (∀ s o data, InSync s o → data ≠ [] → data.length ≤ maxMediaMessage →
      s.nextSeq + (Fragments.chunks maxChunk data).length < 2 ^ 64 →
      ∃ cells, MediaRoundTrip A s o data cells) ∧
    (∀ t ops, t.nextSeq + (TrackSeal.sealRun A t ops).length < 2 ^ 64 →
      Numbered A t.key t.track t.nextSeq (t.sealRun A ops) ∧
      ((List.range' t.nextSeq (t.sealRun A ops).length).map (cellNonce t.track)).Nodup) ∧
    (∀ t wires, t.held.length ≤ maxMediaMessage →
      (TrackOpen.openAll A t wires).2.held.length ≤ maxMediaMessage) ∧
    (∀ k o payloads, FramesInSync k o → (∀ p ∈ payloads, p.length ≤ paddedPlaintext - 2) →
      k.sendSeq + payloads.length < 2 ^ 64 → FramesInOrder A k o payloads) := by
  refine ⟨fun s o data hsync hne hlen hcount => media_round_trip hA hsync hne hlen hcount,
    ?_, ?_, ?_⟩
  · intro t ops hcount
    exact ⟨sealRun_numbered ops t hcount, cellNonce_nodup t.track hcount.le⟩
  · intro t wires
    induction wires generalizing t with
    | nil => exact id
    | cons wire wires ih => exact fun _ => ih (t.openCell A wire).2 (openCell_held A t wire)
  · exact fun k o payloads hsync hlens hcount => frames_in_order hA hsync hlens hcount

/-- A message that does not fit a cell. -/
def longMessage : Bytes := List.replicate 16400 7

theorem longMessage_ne_nil : longMessage ≠ [] := fun h => by cases h

theorem longMessage_chunks : (Fragments.chunks maxChunk longMessage).length = 2 := by
  have hrest : longMessage.drop maxChunk = List.replicate 21 7 := List.drop_replicate
  rw [Fragments.chunks_cons maxChunk_ne_zero longMessage_ne_nil, hrest,
    Fragments.chunks_of_length_le maxChunk_ne_zero (by decide) (by decide)]
  rfl

/-- A message of two cells, and three frames of which the last is delivered first. -/
theorem cells_round_trip_small :
    (Fragments.chunks maxChunk longMessage).length = 2 ∧
    (∃ cells, MediaRoundTrip Aead.plain ⟨[], .camera, 0⟩ ⟨[], .camera, none, []⟩ longMessage cells) ∧
    FramesInOrder Aead.plain ⟨[], [], 0, none⟩ ⟨[], [], 0, none⟩ [[1], [2], [1]] ∧
    (CallKeys.openFrames Aead.plain ⟨[], [], 0, none⟩
      ((CallKeys.sealFrames Aead.plain ⟨[], [], 0, none⟩ [[1], [2], [3]]).reverse)) = [[3]] := by
  have hsync : InSync ⟨[], .camera, 0⟩ ⟨[], .camera, none, []⟩ :=
    { key := rfl, track := rfl, fresh := fun _ hlast => (by cases hlast), held := rfl }
  have hframes : FramesInSync ⟨[], [], 0, none⟩ ⟨[], [], 0, none⟩ :=
    { key := rfl, fresh := fun _ hlast => (by cases hlast) }
  have hlen : longMessage.length ≤ maxMediaMessage := (List.length_replicate).trans_le (by decide)
  obtain ⟨hmedia, -, -, hinOrder⟩ := cells_round_trip Aead.plain Aead.plain_opens
  exact ⟨longMessage_chunks, hmedia _ _ _ hsync longMessage_ne_nil hlen (by rw [longMessage_chunks]; decide),
    hinOrder _ _ _ hframes (by decide) (by decide), by decide +kernel⟩

end Sona
