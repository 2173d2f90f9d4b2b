/-
# Lengths behind buckets

A payload is put behind its length and filled up to a bucket before it is
encrypted, so its ciphertext tells the bucket and no more. The buckets of
messages grow by a quarter from 256 bytes (`Padding.bucketSize`); a history
export goes up to a multiple of 64 KiB (`Sync.pad`). Both ends are machine
code, and what may stop them is in the model.

A payload comes back from its padded form (`Padding.unpad_pad`, `Sync.unpad_pad`), and
`Padding.unpad` reads every buffer (`Padding.unpad_eq`). `Sync.unpad` adds eight to the
length field before it looks whether the field fits, and stops on the fields that
are within eight of 2^64 (`Sync.unpad_stops`).

Key definitions: `Padding.bucketSize`, `Padding.pad`, `Padding.unpad`, `Sync.pad`, `Sync.unpad`.
-/
import Sona.Media
import Sona.Lib.Checked

namespace Sona

/-! ### Messages -/

namespace Padding

def minBucket : ℕ := 256

/-- The `PREFIX`: bytes of the length field. -/
def lenField : ℕ := 4

/-- The first bucket from `b` on that holds `n` bytes. -/
def bucketFrom (n b : ℕ) (hb : minBucket ≤ b) : Checked ℕ :=
  if hn : b < n then
    if b + b / 4 < 2 ^ 64 then bucketFrom n (b + b / 4) (Nat.le_add_right_of_le hb) else .error .overflow
  else .ok b
termination_by n - b
decreasing_by
  have hquarter : 0 < b / 4 := Nat.div_pos (le_trans (by decide) hb) (by decide)
  omega

/-- The bucket a payload of `n` bytes is padded to. -/
def bucketSize (n : ℕ) : Checked ℕ := bucketFrom n minBucket le_rfl

def pad (data : Bytes) : Checked Bytes := do
  let bucket ← bucketSize (← addWord lenField data.length)
  return resize (beBytes32 (data.length % 2 ^ 32) ++ data) bucket 0

def unpad (padded : Bytes) : Checked (Option Bytes) := do
  if padded.length < lenField then return none
  let len := beValue (← slice padded 0 lenField)
  -- a sum that overflows is no length of this buffer
  let some stop := (addWord lenField len).toOption | return none
  if stop > padded.length then return none
  return some (← slice padded lenField stop)

/-! #### The buckets -/

/-- The loop ends for the length of every slice, in a bucket that holds it and
is at most a quarter larger. -/
theorem bucketFrom_spec {n b : ℕ} (hb : minBucket ≤ b) (hn : n ≤ lenField + maxLength)
    (hcoarse : 4 * b ≤ 5 * max minBucket n) :
    ∃ size, bucketFrom n b hb = .ok size ∧ n ≤ size ∧ b ≤ size ∧
    4 * size ≤ 5 * max minBucket n := by
  fun_induction bucketFrom n b hb with
  | case1 b hb hlt hfits ih =>
    obtain ⟨size, hsize, hle, hge, hcoarse'⟩ := ih (by omega)
    exact ⟨size, hsize, hle, le_trans (Nat.le_add_right b _) hge, hcoarse'⟩
  | case2 b hb hlt hfits =>
    unfold lenField maxLength at hn
    omega
  | case3 b hb hlt => exact ⟨b, rfl, Nat.le_of_not_lt hlt, le_rfl, hcoarse⟩

theorem bucketSize_spec {n : ℕ} (hn : n ≤ lenField + maxLength) :
    ∃ size, bucketSize n = .ok size ∧ n ≤ size ∧ 4 * size ≤ 5 * max minBucket n := by
  obtain ⟨size, hsize, hle, -, hcoarse⟩ := bucketFrom_spec le_rfl hn (by unfold minBucket; omega)
  exact ⟨size, hsize, hle, hcoarse⟩

/-- More bytes are in no smaller bucket: the loop for fewer bytes ends first. -/
theorem bucketFrom_mono {m n b size size' : ℕ} (hb : minBucket ≤ b) (hmn : m ≤ n)
    (hn : n ≤ lenField + maxLength) (hcoarse : 4 * b ≤ 5 * max minBucket n)
    (hsize : bucketFrom m b hb = .ok size) (hsize' : bucketFrom n b hb = .ok size') :
    size ≤ size' := by
  fun_induction bucketFrom m b hb with
  | case1 b hb hlt hfits ih =>
    rw [bucketFrom, dif_pos (by omega), if_pos hfits] at hsize'
    exact ih (by omega) hsize hsize'
  | case2 b hb hlt hfits => cases hsize
  | case3 b hb hlt =>
    obtain ⟨size'', hsize'', -, hge, -⟩ := bucketFrom_spec hb hn hcoarse
    cases hsize
    cases hsize'.symm.trans hsize''
    exact hge

theorem bucketSize_mono {m n size size' : ℕ} (hmn : m ≤ n) (hn : n ≤ lenField + maxLength)
    (hsize : bucketSize m = .ok size) (hsize' : bucketSize n = .ok size') : size ≤ size' :=
  bucketFrom_mono le_rfl hmn hn (by unfold minBucket; omega) hsize hsize'

/-! #### A payload and its padded form -/

/-- The padded form of a payload, which fills its bucket. -/
theorem pad_eq {data : Bytes} (hdata : data.length < 2 ^ 32) :
    ∃ size, bucketSize (lenField + data.length) = .ok size ∧ lenField + data.length ≤ size ∧
    size ≤ maxLength ∧
      pad data = .ok (beBytes32 data.length ++ data ++ List.replicate (size - (lenField + data.length)) 0) := by
  obtain ⟨size, hsize, hle, hcoarse⟩ :=
    bucketSize_spec (n := lenField + data.length) (by unfold maxLength; omega)
  have hlen : (beBytes32 data.length ++ data).length = lenField + data.length := by
    rw [List.length_append, beBytes32_length, lenField]
  have hsum : addWord lenField data.length = .ok (lenField + data.length) :=
    addWord_eq (by unfold lenField; omega)
  refine ⟨size, hsize, hle, by unfold lenField minBucket at hcoarse; unfold maxLength; omega, ?_⟩
  unfold pad
  rw [hsum, Checked.ok_bind, hsize, Checked.ok_bind, Nat.mod_eq_of_lt hdata,
    resize_eq_append 0 (by rw [hlen]; exact hle), hlen]
  rfl

/-- How long the padded form is depends on the bucket only. -/
theorem pad_length {data : Bytes} (hdata : data.length < 2 ^ 32) :
    (pad data).map List.length = bucketSize (lenField + data.length) := by
  obtain ⟨size, hsize, hle, -, hpad⟩ := pad_eq hdata
  rw [hpad, hsize]
  simp only [Except.map, List.length_append, beBytes32_length, List.length_replicate]
  unfold lenField at hle ⊢
  congr 1
  omega

/-- **No buffer stops the reader.** It returns the bytes behind the length
field, as many as the field says. -/
theorem unpad_eq (buf : Bytes) (hbuf : buf.length ≤ maxLength) :
    unpad buf = .ok (if lenField + beValue (buf.take lenField) ≤ buf.length then
      some ((buf.drop lenField).take (beValue (buf.take lenField))) else none) := by
  unfold unpad
  by_cases hshort : buf.length < lenField
  · rw [if_pos hshort, if_neg (by omega)]
    rfl
  · have hword : slice buf 0 lenField = .ok (buf.take lenField) := slice_front (by omega)
    rw [if_neg hshort]
    simp only [hword, Checked.ok_bind]
    by_cases hfits : lenField + beValue (buf.take lenField) ≤ buf.length
    · rw [addWord_eq (by unfold maxLength at hbuf; omega)]
      simp [Except.toOption, slice_eq hfits, hfits]
    · by_cases hsum : lenField + beValue (buf.take lenField) < 2 ^ 64
      · rw [addWord_eq hsum, if_neg hfits]
        simp only [Except.toOption, gt_iff_lt, if_pos (Nat.lt_of_not_le hfits)]
        rfl
      · rw [addWord_overflow (Nat.le_of_not_lt hsum), if_neg hfits]
        rfl

/-- **A payload comes back from its padded form.** -/
theorem unpad_pad {data : Bytes} (hdata : data.length < 2 ^ 32) :
    ∃ padded, pad data = .ok padded ∧ unpad padded = .ok (some data) := by
  obtain ⟨size, -, hle, hmax, hpad⟩ := pad_eq hdata
  have hword : (beBytes32 data.length).length = lenField := beBytes32_length data.length
  refine ⟨_, hpad, ?_⟩
  have hfield : beValue (List.take lenField (beBytes32 data.length ++ data ++
      List.replicate (size - (lenField + data.length)) 0)) = data.length := by
    rw [List.append_assoc, List.take_left' hword]
    exact beValue_beBytes32 hdata
  rw [unpad_eq _ (by simp only [List.length_append, hword, List.length_replicate]; unfold lenField at *; omega), hfield,
    if_pos (by simp only [List.length_append, hword, lenField]; omega), List.append_assoc, List.drop_left' hword,
    List.take_left]

end Padding

/-! ### History exports -/

namespace Sync

def padBucket : ℕ := 64 * 1024

def divCeil (a b : ℕ) : ℕ := (a + b - 1) / b

def pad (plaintext : Bytes) : Checked Bytes := do
  let raw ← addWord 8 plaintext.length
  let padded ← mulWord (max (divCeil raw padBucket) 1) padBucket
  return resize (beBytes plaintext.length ++ plaintext) padded 0

def unpad (padded : Bytes) : Checked (Option Bytes) := do
  let some word := getSlice padded 0 8 | return none
  let stop ← addWord 8 (beValue word)
  return getSlice padded 8 stop

theorem pad_eq {plaintext : Bytes} (hmax : plaintext.length ≤ maxLength) :
    ∃ k, 0 < k ∧ 8 + plaintext.length ≤ k * padBucket ∧ pad plaintext =
      .ok (beBytes plaintext.length ++ plaintext ++ List.replicate (k * padBucket - (8 + plaintext.length)) 0) := by
  have hlen : (beBytes plaintext.length ++ plaintext).length = 8 + plaintext.length := by
    rw [List.length_append, beBytes_length]
  have hsum : addWord 8 plaintext.length = .ok (8 + plaintext.length) :=
    addWord_eq (by unfold maxLength at hmax; omega)
  obtain ⟨k, hk, hpos, hle, hfits⟩ : ∃ k, max (divCeil (8 + plaintext.length) padBucket) 1 = k ∧ 0 < k ∧
      8 + plaintext.length ≤ k * padBucket ∧ k * padBucket < 2 ^ 64 := by
    refine ⟨_, rfl, ?_⟩
    unfold divCeil padBucket
    unfold maxLength at hmax
    omega
  refine ⟨k, hpos, hle, ?_⟩
  unfold pad
  rw [hsum, Checked.ok_bind, hk, mulWord_eq hfits, Checked.ok_bind,
    resize_eq_append 0 (by rw [hlen]; exact hle), hlen]
  rfl

/-- The reader on the buffers it does not stop on. -/
theorem unpad_eq {buf : Bytes} (h : buf.length < 8 ∨ 8 + beValue (buf.take 8) < 2 ^ 64) :
    unpad buf = .ok (if 8 + beValue (buf.take 8) ≤ buf.length then some ((buf.drop 8).take (beValue (buf.take 8)))
      else none) := by
  unfold unpad
  by_cases hshort : buf.length < 8
  · rw [getSlice_past hshort, if_neg (by omega)]
    rfl
  · have hword : getSlice buf 0 8 = some (buf.take 8) := getSlice_front (by omega)
    rw [hword]
    simp only [addWord_eq (h.resolve_left hshort), Checked.ok_bind]
    by_cases hfits : 8 + beValue (buf.take 8) ≤ buf.length
    · rw [getSlice_eq hfits, if_pos hfits]
      rfl
    · rw [getSlice_past (by omega), if_neg hfits]
      rfl

/-- On the fields within eight of `2 ^ 64` the reader stops. -/
theorem unpad_stops {buf : Bytes} (hlong : 8 ≤ buf.length)
    (hfield : 2 ^ 64 ≤ 8 + beValue (buf.take 8)) :
    unpad buf = .error .overflow := by
  have hword : getSlice buf 0 8 = some (buf.take 8) := getSlice_front (by omega)
  unfold unpad
  rw [hword]
  simp only [addWord_overflow hfield, Checked.error_bind]

theorem unpad_pad {plaintext : Bytes} (hmax : plaintext.length ≤ maxLength) :
    ∃ padded k, pad plaintext = .ok padded ∧ 0 < k ∧ padded.length = k * padBucket ∧
      unpad padded = .ok (some plaintext) := by
  obtain ⟨k, hk, hle, hpad⟩ := pad_eq hmax
  have hword := beBytes_length plaintext.length
  have hfield : beValue (List.take 8 (beBytes plaintext.length ++ plaintext ++
      List.replicate (k * padBucket - (8 + plaintext.length)) 0)) = plaintext.length := by
    rw [List.append_assoc, List.take_left' hword]
    exact beValue_beBytes (by unfold maxLength at hmax; omega)
  refine ⟨_, k, hpad, hk, ?_, ?_⟩
  · simp only [List.length_append, hword, List.length_replicate]
    omega
  · rw [unpad_eq (.inr (by rw [hfield]; unfold maxLength at hmax; omega)), hfield,
      if_pos (by simp only [List.length_append, hword]; omega), List.append_assoc, List.drop_left' hword,
      List.take_left]

end Sync

/-! ### Both codecs -/

/-- What is asked of the two codecs at lengths `m ≤ n`, payloads and a buffer. -/
structure LengthsHidden (m n : ℕ) (p p' q buf : Bytes) : Prop where
  grid : ∃ size size', Padding.bucketSize m = .ok size ∧
    Padding.bucketSize n = .ok size' ∧ size ≤ size' ∧
    n ≤ size' ∧ 4 * size' ≤ 5 * max Padding.minBucket n
  roundTrip : ∃ padded, Padding.pad p = .ok padded ∧ Padding.unpad padded = .ok (some p)
  length : (Padding.pad p).map List.length = Padding.bucketSize (Padding.lenField + p.length)
  sameBucket : Padding.bucketSize (Padding.lenField + p.length) = Padding.bucketSize (Padding.lenField + p'.length) →
    (Padding.pad p).map List.length = (Padding.pad p').map List.length
  reads : Padding.unpad buf = .ok (if Padding.lenField + beValue (buf.take Padding.lenField) ≤ buf.length then
    some ((buf.drop Padding.lenField).take (beValue (buf.take Padding.lenField))) else none)
  syncRoundTrip : ∃ padded k, Sync.pad q = .ok padded ∧ 0 < k ∧ padded.length = k * Sync.padBucket ∧
    Sync.unpad padded = .ok (some q)
  syncRefuses : buf.length < 8 + beValue (buf.take 8) → Sync.unpad buf = .ok none

/-- **Both codecs do what is asked of them unless an export's length field is
within eight of `2 ^ 64`.** -/
theorem lengthsHidden_iff {m n : ℕ} {p p' q buf : Bytes} (hmn : m ≤ n)
    (hn : n ≤ Padding.lenField + maxLength) (hp : p.length < 2 ^ 32) (hp' : p'.length < 2 ^ 32)
    (hq : q.length ≤ maxLength) (hbuf : buf.length ≤ maxLength) :
    LengthsHidden m n p p' q buf ↔ (buf.length < 8 ∨ 8 + beValue (buf.take 8) < 2 ^ 64) := by
  constructor
  · intro h
    by_contra! hcond
    have hrefused := h.syncRefuses (by unfold maxLength at hbuf; omega)
    rw [Sync.unpad_stops hcond.1 hcond.2] at hrefused
    cases hrefused
  · intro hcond
    obtain ⟨size, hsize, -⟩ := Padding.bucketSize_spec (le_trans hmn hn)
    obtain ⟨size', hsize', hle, hcoarse⟩ := Padding.bucketSize_spec hn
    have hlength := Padding.pad_length hp
    exact {
      grid := ⟨size, size', hsize, hsize', Padding.bucketSize_mono hmn hn hsize hsize',
        hle, hcoarse⟩
      roundTrip := Padding.unpad_pad hp
      length := hlength
      sameBucket := fun h => by rw [hlength, Padding.pad_length hp', h]
      reads := Padding.unpad_eq buf hbuf
      syncRoundTrip := Sync.unpad_pad hq
      syncRefuses := fun h => by rw [Sync.unpad_eq hcond, if_neg (by omega)] }

theorem lengthsHidden_iff_zeros :
    LengthsHidden 5 300 [7] [8, 9] [7] (List.replicate 8 0) ↔
      ((List.replicate 8 (0 : UInt8)).length < 8 ∨
        8 + beValue ((List.replicate 8 0).take 8) < 2 ^ 64) :=
  lengthsHidden_iff (by decide) (by decide) (by decide) (by decide) (by decide) (by decide)

/-- Eight bytes of ones are the largest length field. -/
theorem sync_unpad_ones :
    ¬ ∀ buf : Bytes, buf.length ≤ maxLength → buf.length < 8 + beValue (buf.take 8) →
    Sync.unpad buf = .ok none := by
  intro h
  have hrefused := h (List.replicate 8 255) (by decide) (by decide)
  rw [Sync.unpad_stops (by decide) (by decide)] at hrefused
  cases hrefused

end Sona
