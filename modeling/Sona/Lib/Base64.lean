/-
# Base64 without padding

The standard alphabet, four digits for three bytes, no padding, and the bits of
the last digit that stand for nothing must be zero. Read this strictly a value
has one spelling (`decodeBase64_inj`), which is the one that is written
(`decodeBase64_encodeBase64`), and its length tells the number of bytes only.

Key definitions: `base64Digit`, `decodeBase64`, `base64Char`, `encodeBase64`.
-/
import Mathlib.Data.List.Basic

/-- The value of a base64 digit. -/
def base64Digit (b : UInt8) : Option ℕ :=
  let n := b.toNat
  if 65 ≤ n ∧ n ≤ 90 then some (n - 65) else
  if 97 ≤ n ∧ n ≤ 122 then some (n - 71) else
  if 48 ≤ n ∧ n ≤ 57 then some (n + 4) else
  if n = 43 then some 62 else
  if n = 47 then some 63 else none

/-- Base64 without padding. -/
def decodeBase64 : List UInt8 → Option (List UInt8)
  | [] => some []
  | [_] => none
  | [a, b] => do
    let (a, b) := (← base64Digit a, ← base64Digit b)
    if b % 16 = 0 then some [UInt8.ofNat (a * 4 + b / 16)] else none
  | [a, b, c] => do
    let (a, b, c) := (← base64Digit a, ← base64Digit b, ← base64Digit c)
    if c % 4 = 0 then some [UInt8.ofNat (a * 4 + b / 16), UInt8.ofNat (b % 16 * 16 + c / 4)] else none
  | a :: b :: c :: d :: rest => do
    let (a, b, c, d) := (← base64Digit a, ← base64Digit b, ← base64Digit c, ← base64Digit d)
    let bytes ← decodeBase64 rest
    some (UInt8.ofNat (a * 4 + b / 16) :: UInt8.ofNat (b % 16 * 16 + c / 4) :: UInt8.ofNat (c % 4 * 64 + d) :: bytes)

theorem base64Digit_lt {b : UInt8} {n : ℕ} (h : base64Digit b = some n) : n < 64 := by
  unfold base64Digit at h
  dsimp only at h
  have hb := b.toNat_lt
  split_ifs at h <;> (cases h; omega)

theorem base64Digit_inj {a b : UInt8} {n : ℕ} (ha : base64Digit a = some n)
    (hb : base64Digit b = some n) : a = b := by
  unfold base64Digit at ha hb
  dsimp only at ha hb
  apply UInt8.toNat_inj.mp
  split_ifs at ha hb <;> (simp only [Option.some.injEq] at ha hb; omega)

/-- Digits that stand for the same byte agree in what they contribute to it. -/
theorem byte_eq {m n : ℕ} (h : UInt8.ofNat m = UInt8.ofNat n) : m % 256 = n % 256 := by
  have := congrArg UInt8.toNat h
  simpa using this

/-- The digit `a` has the value `x`. -/
def IsDigit (a : UInt8) (x : ℕ) : Prop := base64Digit a = some x

theorem decodeBase64_two {a b : UInt8} {v : List UInt8} (h : decodeBase64 [a, b] = some v) :
    ∃ x y, IsDigit a x ∧ IsDigit b y ∧ y % 16 = 0 ∧ v = [UInt8.ofNat (x * 4 + y / 16)] := by
  simp only [decodeBase64, Option.bind_eq_bind, Option.bind_eq_some_iff,
    Option.ite_none_right_eq_some, Option.some.injEq] at h
  obtain ⟨x, hx, y, hy, hpad, rfl⟩ := h
  exact ⟨x, y, hx, hy, hpad, rfl⟩

theorem decodeBase64_three {a b c : UInt8} {v : List UInt8} (h : decodeBase64 [a, b, c] = some v) :
    ∃ x y z, IsDigit a x ∧ IsDigit b y ∧ IsDigit c z ∧ z % 4 = 0 ∧
      v = [UInt8.ofNat (x * 4 + y / 16), UInt8.ofNat (y % 16 * 16 + z / 4)] := by
  simp only [decodeBase64, Option.bind_eq_bind, Option.bind_eq_some_iff,
    Option.ite_none_right_eq_some, Option.some.injEq] at h
  obtain ⟨x, hx, y, hy, z, hz, hpad, rfl⟩ := h
  exact ⟨x, y, z, hx, hy, hz, hpad, rfl⟩

theorem decodeBase64_four {a b c d : UInt8} {rest v : List UInt8}
    (h : decodeBase64 (a :: b :: c :: d :: rest) = some v) :
    ∃ x y z w bytes, IsDigit a x ∧ IsDigit b y ∧ IsDigit c z ∧ IsDigit d w ∧
    decodeBase64 rest = some bytes ∧
      v = UInt8.ofNat (x * 4 + y / 16) :: UInt8.ofNat (y % 16 * 16 + z / 4) :: UInt8.ofNat (z % 4 * 64 + w) :: bytes := by
  simp only [decodeBase64, Option.bind_eq_bind, Option.bind_eq_some_iff, Option.some.injEq] at h
  obtain ⟨x, hx, y, hy, z, hz, w, hw, bytes, hb, rfl⟩ := h
  exact ⟨x, y, z, w, bytes, hx, hy, hz, hw, hb, rfl⟩

/-- What is decoded is digits only. -/
theorem decodeBase64_digits :
    ∀ {s v : List UInt8}, decodeBase64 s = some v → ∀ b ∈ s, ∃ n, IsDigit b n
  | [], _, _, b, hb => (List.not_mem_nil hb).elim
  | [_], _, h, _, _ => by cases h
  | [a, b], _, h, c, hc => by
    obtain ⟨x, y, ha, hb, -, -⟩ := decodeBase64_two h
    rcases List.mem_pair.mp hc with rfl | rfl
    · exact ⟨x, ha⟩
    · exact ⟨y, hb⟩
  | [a, b, c], _, h, d, hd => by
    obtain ⟨x, y, z, ha, hb, hc, -, -⟩ := decodeBase64_three h
    simp only [List.mem_cons, List.not_mem_nil, or_false] at hd
    rcases hd with rfl | rfl | rfl
    · exact ⟨x, ha⟩
    · exact ⟨y, hb⟩
    · exact ⟨z, hc⟩
  | a :: b :: c :: d :: rest, _, h, e, he => by
    obtain ⟨x, y, z, w, bytes, ha, hb, hc, hd, hrest, -⟩ := decodeBase64_four h
    simp only [List.mem_cons] at he
    rcases he with rfl | rfl | rfl | rfl | he
    · exact ⟨x, ha⟩
    · exact ⟨y, hb⟩
    · exact ⟨z, hc⟩
    · exact ⟨w, hd⟩
    · exact decodeBase64_digits hrest e he

/-- Digits of equal values are equal. -/
theorem IsDigit.eq {a b : UInt8} {x y : ℕ} (ha : IsDigit a x) (hb : IsDigit b y) (h : x = y) :
    a = b :=
  base64Digit_inj ha (h ▸ hb)

/-- **A value has one spelling.** -/
theorem decodeBase64_inj :
    ∀ {s t v : List UInt8}, decodeBase64 s = some v → decodeBase64 t = some v → s = t
  | [], t, v, hs, ht => by
    cases hs
    match t, ht with
    | [], _ => rfl
    | [a, b], ht => obtain ⟨x, y, -, -, -, h⟩ := decodeBase64_two ht; simp at h
    | [a, b, c], ht => obtain ⟨x, y, z, -, -, -, -, h⟩ := decodeBase64_three ht; simp at h
    | a :: b :: c :: d :: rest, ht => obtain ⟨x, y, z, w, bytes, -, -, -, -, -, h⟩ := decodeBase64_four ht; simp at h
  | [a], t, v, hs, ht => by cases hs
  | [a, b], t, v, hs, ht => by
    obtain ⟨x, y, ha, hb, hpad, rfl⟩ := decodeBase64_two hs
    have hx := base64Digit_lt ha
    have hy := base64Digit_lt hb
    match t, ht with
    | [a', b'], ht =>
      obtain ⟨x', y', ha', hb', hpad', h⟩ := decodeBase64_two ht
      have hx' := base64Digit_lt ha'
      have hy' := base64Digit_lt hb'
      have hbyte := byte_eq (List.cons.inj h).1
      rw [ha.eq ha' (by omega), hb.eq hb' (by omega)]
    | [], ht => cases ht
    | [a', b', c'], ht => obtain ⟨x', y', z', -, -, -, -, h⟩ := decodeBase64_three ht; simp at h
    | a' :: b' :: c' :: d' :: rest, ht =>
      obtain ⟨x', y', z', w', bytes, -, -, -, -, -, h⟩ := decodeBase64_four ht
      simp at h
  | [a, b, c], t, v, hs, ht => by
    obtain ⟨x, y, z, ha, hb, hc, hpad, rfl⟩ := decodeBase64_three hs
    have hx := base64Digit_lt ha
    have hy := base64Digit_lt hb
    have hz := base64Digit_lt hc
    match t, ht with
    | [a', b', c'], ht =>
      obtain ⟨x', y', z', ha', hb', hc', hpad', h⟩ := decodeBase64_three ht
      have hx' := base64Digit_lt ha'
      have hy' := base64Digit_lt hb'
      have hz' := base64Digit_lt hc'
      obtain ⟨h1, h⟩ := List.cons.inj h
      obtain ⟨h2, -⟩ := List.cons.inj h
      have h1 := byte_eq h1
      have h2 := byte_eq h2
      rw [ha.eq ha' (by omega), hb.eq hb' (by omega), hc.eq hc' (by omega)]
    | [], ht => cases ht
    | [a', b'], ht => obtain ⟨x', y', -, -, -, h⟩ := decodeBase64_two ht; simp at h
    | a' :: b' :: c' :: d' :: rest, ht =>
      obtain ⟨x', y', z', w', bytes, -, -, -, -, -, h⟩ := decodeBase64_four ht
      simp at h
  | a :: b :: c :: d :: rest, t, v, hs, ht => by
    obtain ⟨x, y, z, w, bytes, ha, hb, hc, hd, hrest, rfl⟩ := decodeBase64_four hs
    have hx := base64Digit_lt ha
    have hy := base64Digit_lt hb
    have hz := base64Digit_lt hc
    have hw := base64Digit_lt hd
    match t, ht with
    | a' :: b' :: c' :: d' :: rest', ht =>
      obtain ⟨x', y', z', w', bytes', ha', hb', hc', hd', hrest', h⟩ := decodeBase64_four ht
      have hx' := base64Digit_lt ha'
      have hy' := base64Digit_lt hb'
      have hz' := base64Digit_lt hc'
      have hw' := base64Digit_lt hd'
      obtain ⟨h1, h⟩ := List.cons.inj h
      obtain ⟨h2, h⟩ := List.cons.inj h
      obtain ⟨h3, rfl⟩ := List.cons.inj h
      have h1 := byte_eq h1
      have h2 := byte_eq h2
      have h3 := byte_eq h3
      rw [ha.eq ha' (by omega), hb.eq hb' (by omega), hc.eq hc' (by omega), hd.eq hd' (by omega),
        decodeBase64_inj hrest hrest']
    | [], ht => cases ht
    | [a', b'], ht => obtain ⟨x', y', -, -, -, h⟩ := decodeBase64_two ht; simp at h
    | [a', b', c'], ht => obtain ⟨x', y', z', -, -, -, -, h⟩ := decodeBase64_three ht; simp at h

/-! ### Writing -/

/-- The digit of a value below 64. -/
def base64Char (n : ℕ) : UInt8 :=
  UInt8.ofNat
    (if n < 26 then n + 65 else if n < 52 then n + 71 else if n < 62 then n - 4 else if n = 62 then 43 else 47)

def encodeBase64 : List UInt8 → List UInt8
  | [] => []
  | [a] => [base64Char (a.toNat / 4), base64Char (a.toNat % 4 * 16)]
  | [a, b] =>
    [base64Char (a.toNat / 4), base64Char (a.toNat % 4 * 16 + b.toNat / 16), base64Char (b.toNat % 16 * 4)]
  | a :: b :: c :: rest =>
    base64Char (a.toNat / 4) :: base64Char (a.toNat % 4 * 16 + b.toNat / 16) ::
      base64Char (b.toNat % 16 * 4 + c.toNat / 64) :: base64Char (c.toNat % 64) :: encodeBase64 rest

theorem base64Char_toNat {n : ℕ} (h : n < 64) : (base64Char n).toNat =
    if n < 26 then n + 65 else if n < 52 then n + 71 else if n < 62 then n - 4 else if n = 62 then 43 else 47 := by
  unfold base64Char
  rw [UInt8.toNat_ofNat']
  split_ifs <;> omega

theorem base64Digit_char {n : ℕ} (h : n < 64) : base64Digit (base64Char n) = some n := by
  unfold base64Digit
  simp only [base64Char_toNat h]
  split_ifs <;> first | omega | exact congrArg some (by omega)

/-- **What was encoded is decoded.** -/
theorem decodeBase64_encodeBase64 :
    ∀ bytes : List UInt8, decodeBase64 (encodeBase64 bytes) = some bytes
  | [] => rfl
  | [a] => by
    have ha := a.toNat_lt
    have hbyte : UInt8.ofNat (a.toNat / 4 * 4 + a.toNat % 4 * 16 / 16) = a := by
      rw [show a.toNat / 4 * 4 + a.toNat % 4 * 16 / 16 = a.toNat by omega, UInt8.ofNat_toNat]
    simp only [encodeBase64, decodeBase64, base64Digit_char (show a.toNat / 4 < 64 by omega),
      base64Digit_char (show a.toNat % 4 * 16 < 64 by omega), Option.bind_eq_bind, Option.bind_some, hbyte]
    rw [if_pos (by omega)]
  | [a, b] => by
    have ha := a.toNat_lt
    have hb := b.toNat_lt
    have hbyte : UInt8.ofNat (a.toNat / 4 * 4 + (a.toNat % 4 * 16 + b.toNat / 16) / 16) = a := by
      rw [show a.toNat / 4 * 4 + (a.toNat % 4 * 16 + b.toNat / 16) / 16 = a.toNat by omega, UInt8.ofNat_toNat]
    have hbyte' : UInt8.ofNat ((a.toNat % 4 * 16 + b.toNat / 16) % 16 * 16 + b.toNat % 16 * 4 / 4) = b := by
      rw [show (a.toNat % 4 * 16 + b.toNat / 16) % 16 * 16 + b.toNat % 16 * 4 / 4 = b.toNat by omega, UInt8.ofNat_toNat]
    simp only [encodeBase64, decodeBase64, base64Digit_char (show a.toNat / 4 < 64 by omega),
      base64Digit_char (show a.toNat % 4 * 16 + b.toNat / 16 < 64 by omega),
      base64Digit_char (show b.toNat % 16 * 4 < 64 by omega), Option.bind_eq_bind, Option.bind_some, hbyte, hbyte']
    rw [if_pos (by omega)]
  | a :: b :: c :: rest => by
    have ha := a.toNat_lt
    have hb := b.toNat_lt
    have hc := c.toNat_lt
    have hbyte : UInt8.ofNat (a.toNat / 4 * 4 + (a.toNat % 4 * 16 + b.toNat / 16) / 16) = a := by
      rw [show a.toNat / 4 * 4 + (a.toNat % 4 * 16 + b.toNat / 16) / 16 = a.toNat by omega, UInt8.ofNat_toNat]
    have hbyte' : UInt8.ofNat ((a.toNat % 4 * 16 + b.toNat / 16) % 16 * 16 + (b.toNat % 16 * 4 + c.toNat / 64) / 4) =
        b := by
      rw [show (a.toNat % 4 * 16 + b.toNat / 16) % 16 * 16 + (b.toNat % 16 * 4 + c.toNat / 64) / 4 = b.toNat by omega,
        UInt8.ofNat_toNat]
    have hbyte'' : UInt8.ofNat ((b.toNat % 16 * 4 + c.toNat / 64) % 4 * 64 + c.toNat % 64) = c := by
      rw [show (b.toNat % 16 * 4 + c.toNat / 64) % 4 * 64 + c.toNat % 64 = c.toNat by omega, UInt8.ofNat_toNat]
    simp only [encodeBase64, decodeBase64, base64Digit_char (show a.toNat / 4 < 64 by omega),
      base64Digit_char (show a.toNat % 4 * 16 + b.toNat / 16 < 64 by omega),
      base64Digit_char (show b.toNat % 16 * 4 + c.toNat / 64 < 64 by omega),
      base64Digit_char (show c.toNat % 64 < 64 by omega), Option.bind_eq_bind, Option.bind_some,
      decodeBase64_encodeBase64 rest, hbyte, hbyte', hbyte'']

theorem base64Char_ascii {n : ℕ} (h : n < 64) : (base64Char n).toNat < 128 := by
  rw [base64Char_toNat h]
  split_ifs <;> omega

theorem encodeBase64_ascii : ∀ bytes : List UInt8, ∀ b ∈ encodeBase64 bytes, b.toNat < 128
  | [], _, h => (List.not_mem_nil h).elim
  | [a], b, h => by
    have ha := a.toNat_lt
    simp only [encodeBase64, List.mem_cons, List.not_mem_nil, or_false] at h
    rcases h with rfl | rfl <;> exact base64Char_ascii (by omega)
  | [a, a'], b, h => by
    have ha := a.toNat_lt
    have ha' := a'.toNat_lt
    simp only [encodeBase64, List.mem_cons, List.not_mem_nil, or_false] at h
    rcases h with rfl | rfl | rfl <;> exact base64Char_ascii (by omega)
  | a :: a' :: a'' :: rest, b, h => by
    have ha := a.toNat_lt
    have ha' := a'.toNat_lt
    have ha'' := a''.toNat_lt
    simp only [encodeBase64, List.mem_cons] at h
    rcases h with rfl | rfl | rfl | rfl | h
    · exact base64Char_ascii (by omega)
    · exact base64Char_ascii (by omega)
    · exact base64Char_ascii (by omega)
    · exact base64Char_ascii (by omega)
    · exact encodeBase64_ascii rest b h
