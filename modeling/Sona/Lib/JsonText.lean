/-
# JSON text

The compact text of a JSON value, without blanks, and how many bytes of UTF-8
it takes (`Json.width`, an equation for each kind of value). The text can be
read back: `Json.read` takes the compact spelling and nothing else, and gives
back the value of any text that was written (`Json.read_text`).

A list of items between brackets is read by one function for arrays and
objects, `Json.listed`, whose rule (`Json.listed_join`) asks only that each item
is read back in front of whatever may follow it.

Key definitions: `Json.text`, `Json.width`, `Json.read`.
Key theorems: `Json.induct`, `Json.width_arr`, `Json.width_obj`, `Json.quotedWidth_le_cost`,
`Json.read_text`.
-/
import Mathlib.Algebra.BigOperators.Group.List.Basic
import Mathlib.Tactic.IntervalCases
import Sona.Lib.Json

namespace Json

/-- Induction over a value: over the items of an array and the fields of an object. -/
@[elab_as_elim]
theorem induct {P : Json → Prop} (null : P .null) (bool : ∀ b, P (.bool b)) (num : ∀ n, P (.num n))
    (str : ∀ s, P (.str s)) (arr : ∀ items, (∀ j ∈ items, P j) → P (.arr items))
    (obj : ∀ fields, (∀ f ∈ fields, P f.2) → P (.obj fields)) : ∀ j, P j
  | .null => null
  | .bool b => bool b
  | .num n => num n
  | .str s => str s
  | .arr items => arr items fun j hj => by
    have hlt := List.sizeOf_lt_of_mem hj
    exact induct null bool num str arr obj j
  | .obj fields => obj fields fun f hf => by
    have hlt := List.sizeOf_lt_of_mem hf
    exact induct null bool num str arr obj f.2
termination_by j => sizeOf j
decreasing_by
  · simp only [Json.arr.sizeOf_spec]
    omega
  · have hpair : sizeOf f = 1 + sizeOf f.1 + sizeOf f.2 := rfl
    simp only [Json.obj.sizeOf_spec]
    omega

/-! ### Writing -/

/-- A character inside a string. -/
def escape (c : Char) : List Char :=
  if c = '"' then ['\\', '"']
  else if c = '\\' then ['\\', '\\']
  else if c = '\x08' then ['\\', 'b']
  else if c = '\x0c' then ['\\', 'f']
  else if c = '\n' then ['\\', 'n']
  else if c = '\r' then ['\\', 'r']
  else if c = '\t' then ['\\', 't']
  else if c.toNat < 32 then ['\\', 'u', '0', '0', Nat.digitChar (c.toNat / 16), Nat.digitChar (c.toNat % 16)]
  else [c]

def quoted (s : String) : List Char := '"' :: (s.toList.flatMap escape ++ ['"'])

/-- The parts with a comma between. -/
def join : List (List Char) → List Char
  | [] => []
  | p :: ps => p ++ ps.flatMap fun q => ',' :: q

mutual

/-- The compact text of a value. -/
def text : Json → List Char
  | null => ['n', 'u', 'l', 'l']
  | bool true => ['t', 'r', 'u', 'e']
  | bool false => ['f', 'a', 'l', 's', 'e']
  | num n => Nat.toDigits 10 n
  | str s => quoted s
  | arr items => '[' :: (join (texts items) ++ [']'])
  | obj fields => '{' :: (join (fieldTexts fields) ++ ['}'])

def texts : List Json → List (List Char)
  | [] => []
  | j :: js => text j :: texts js

def fieldTexts : List (String × Json) → List (List Char)
  | [] => []
  | (name, j) :: fields => (quoted name ++ ':' :: text j) :: fieldTexts fields

end

def fieldText (f : String × Json) : List Char := quoted f.1 ++ ':' :: text f.2

theorem texts_eq_map : ∀ items : List Json, texts items = items.map text
  | [] => by simp [texts]
  | j :: js => by simp [texts, texts_eq_map js]

theorem fieldTexts_eq_map :
    ∀ fields : List (String × Json), fieldTexts fields = fields.map fieldText
  | [] => by simp [fieldTexts]
  | (name, j) :: fields => by simp [fieldTexts, fieldText, fieldTexts_eq_map fields]

theorem text_arr (items : List Json) :
    text (arr items) = '[' :: (join (items.map text) ++ [']']) := by
  rw [text, texts_eq_map]

theorem text_obj (fields : List (String × Json)) :
    text (obj fields) = '{' :: (join (fields.map fieldText) ++ ['}']) := by
  rw [text, fieldTexts_eq_map]

/-! ### The width of a text -/

/-- The bytes a text takes. -/
def bytesOf (cs : List Char) : ℕ := (cs.map Char.utf8Size).sum

@[simp] theorem bytesOf_nil : bytesOf [] = 0 := rfl

@[simp] theorem bytesOf_cons (c : Char) (cs : List Char) :
    bytesOf (c :: cs) = c.utf8Size + bytesOf cs := by
  simp [bytesOf]

@[simp] theorem bytesOf_append (cs ds : List Char) :
    bytesOf (cs ++ ds) = bytesOf cs + bytesOf ds := by
  simp [bytesOf]

theorem bytesOf_ascii {cs : List Char} (h : ∀ c ∈ cs, c.utf8Size = 1) : bytesOf cs = cs.length := by
  unfold bytesOf
  rw [List.map_congr_left h]
  simp

/-- The bytes of a string with its quotes. -/
def quotedWidth (s : String) : ℕ := bytesOf (s.toList.flatMap escape) + 2

/-- The decimal digits of a number. -/
def digits (n : ℕ) : ℕ := (Nat.toDigits 10 n).length

/-- The bytes of the text of a value. -/
def width (j : Json) : ℕ := bytesOf (text j)

theorem bytesOf_quoted (s : String) : bytesOf (quoted s) = quotedWidth s := by
  have hquote : ('"' : Char).utf8Size = 1 := rfl
  simp only [quoted, quotedWidth, bytesOf_cons, bytesOf_append, bytesOf_nil, hquote]
  omega

theorem bytesOf_join :
    ∀ parts : List (List Char), bytesOf (join parts) = (parts.map bytesOf).sum + (parts.length - 1)
  | [] => rfl
  | p :: ps => by
    have hcomma : (',' : Char).utf8Size = 1 := rfl
    have hrest : bytesOf (ps.flatMap fun q => ',' :: q) = (ps.map bytesOf).sum + ps.length := by
      induction ps with
      | nil => rfl
      | cons q ps ih =>
        simp only [List.flatMap_cons, bytesOf_append, bytesOf_cons, ih, hcomma, List.map_cons,
          List.sum_cons, List.length_cons]
        omega
    simp only [join, bytesOf_append, hrest, List.map_cons, List.sum_cons, List.length_cons,
      Nat.add_sub_cancel]
    omega

@[simp] theorem width_null : width null = 4 := by
  rw [width, text]
  rfl

@[simp] theorem width_bool (b : Bool) : width (bool b) = if b then 4 else 5 := by
  unfold width
  cases b <;> rw [text] <;> rfl

@[simp] theorem width_num (n : ℕ) : width (num n) = digits n := by
  rw [width, text]
  refine bytesOf_ascii fun c hc => ?_
  have hdigit := Nat.isDigit_of_mem_toDigits (by decide) (by decide) hc
  simp only [Char.isDigit, Bool.and_eq_true, decide_eq_true_eq] at hdigit
  rw [Char.utf8Size_eq_one_iff]
  have hle := hdigit.2
  simp only [UInt32.le_iff_toNat_le] at hle ⊢
  exact hle.trans (by decide)

@[simp] theorem width_str (s : String) : width (str s) = quotedWidth s := by
  rw [width, text]
  exact bytesOf_quoted s

theorem width_arr (items : List Json) :
    width (arr items) = (items.map width).sum + (items.length - 1) + 2 := by
  have hopen : ('[' : Char).utf8Size = 1 := rfl
  have hclose : (']' : Char).utf8Size = 1 := rfl
  have hmap : (items.map text).map bytesOf = items.map width := by
    rw [List.map_map]
    rfl
  rw [width, text_arr, bytesOf_cons, bytesOf_append, bytesOf_join, hmap, List.length_map]
  simp only [bytesOf_cons, bytesOf_nil, hopen, hclose]
  omega

/-- The bytes of a field: its name, a colon and its value. -/
def fieldWidth (f : String × Json) : ℕ := quotedWidth f.1 + 1 + width f.2

theorem width_obj (fields : List (String × Json)) :
    width (obj fields) = (fields.map fieldWidth).sum + (fields.length - 1) + 2 := by
  have hopen : ('{' : Char).utf8Size = 1 := rfl
  have hclose : ('}' : Char).utf8Size = 1 := rfl
  have hcolon : (':' : Char).utf8Size = 1 := rfl
  have hfield : ∀ f : String × Json, bytesOf (fieldText f) = fieldWidth f := by
    intro f
    simp only [fieldText, fieldWidth, bytesOf_append, bytesOf_cons, bytesOf_quoted, hcolon, width]
    omega
  have hmap : (fields.map fieldText).map bytesOf = fields.map fieldWidth := by
    rw [List.map_map]
    exact List.map_congr_left fun f _ => hfield f
  rw [width, text_obj, bytesOf_cons, bytesOf_append, bytesOf_join, hmap, List.length_map]
  simp only [bytesOf_cons, bytesOf_nil, hopen, hclose]
  omega

/-! ### How wide a string gets -/

/-- What a byte of a string takes at most. -/
def byteCost (b : UInt8) : ℕ := if 32 ≤ b && b != 34 && b != 92 then 1 else 6

theorem one_le_byteCost (b : UInt8) : 1 ≤ byteCost b := by
  unfold byteCost
  split <;> decide

theorem byteCost_le (b : UInt8) : byteCost b ≤ 6 := by
  unfold byteCost
  split <;> decide

/-- A character is no wider than its bytes cost. -/
theorem bytesOf_escape_le (c : Char) :
    bytesOf (escape c) ≤ ((String.utf8EncodeChar c).map byteCost).sum := by
  by_cases hone : c.utf8Size = 1
  · rw [String.utf8EncodeChar_eq_singleton hone, List.map_singleton, List.sum_singleton]
    unfold escape
    split
    · subst c; decide
    split
    · subst c; decide
    split
    · subst c; decide
    split
    · subst c; decide
    split
    · subst c; decide
    split
    · subst c; decide
    split
    · subst c; decide
    split
    · rename_i hcontrol
      have hwidth : ∀ n < 32, bytesOf ['\\', 'u', '0', '0', Nat.digitChar (n / 16),
        Nat.digitChar (n % 16)] = 6 := by
        decide
      have hcost : byteCost c.val.toUInt8 = 6 := by
        have hbyte : c.val.toUInt8.toNat = c.toNat := by
          have hn : c.toNat = c.val.toNat := rfl
          rw [UInt32.toNat_toUInt8]
          omega
        unfold byteCost
        rw [if_neg]
        simp only [Bool.and_eq_true, decide_eq_true_eq, UInt8.le_iff_toNat_le, hbyte]
        intro h
        exact absurd h.1.1 (by simp; omega)
      rw [hwidth c.toNat hcontrol, hcost]
    · rw [bytesOf_cons, bytesOf_nil, hone]
      exact one_le_byteCost _
  · -- a character of more bytes stands for itself
    have hself : escape c = [c] := by
      have hlarge : 128 ≤ c.toNat := by
        by_contra hsmall
        refine hone (Char.utf8Size_eq_one_iff.mpr (UInt32.le_iff_toNat_le.mpr ?_))
        have hn : c.toNat = c.val.toNat := rfl
        have h7f : (0x7f : UInt32).toNat = 127 := rfl
        omega
      have hne : ∀ d : Char, d.toNat < 128 → c ≠ d := by
        rintro d hd rfl
        omega
      unfold escape
      rw [if_neg (hne _ (by decide)), if_neg (hne _ (by decide)), if_neg (hne _ (by decide)),
        if_neg (hne _ (by decide)), if_neg (hne _ (by decide)), if_neg (hne _ (by decide)),
        if_neg (hne _ (by decide)), if_neg (by omega)]
    have hcount : (String.utf8EncodeChar c).length ≤
        ((String.utf8EncodeChar c).map byteCost).sum := by
      have hlen := List.length_le_sum_of_one_le ((String.utf8EncodeChar c).map byteCost)
        fun i hi => by
        obtain ⟨b, -, rfl⟩ := List.mem_map.mp hi
        exact one_le_byteCost b
      rwa [List.length_map] at hlen
    rw [hself, bytesOf_cons, bytesOf_nil, Nat.add_zero, ← String.length_utf8EncodeChar]
    exact hcount

/-- A string is no wider than its bytes cost, with the quotes. -/
theorem quotedWidth_le_cost (s : String) :
    quotedWidth s ≤ ((s.toList.flatMap String.utf8EncodeChar).map byteCost).sum + 2 := by
  have hchars : ∀ cs : List Char,
      bytesOf (cs.flatMap escape) ≤ ((cs.flatMap String.utf8EncodeChar).map byteCost).sum := by
    intro cs
    induction cs with
    | nil => exact le_refl _
    | cons c cs ih =>
      have hc := bytesOf_escape_le c
      rw [List.flatMap_cons, List.flatMap_cons, bytesOf_append, List.map_append, List.sum_append]
      omega
  exact Nat.add_le_add_right (hchars s.toList) 2

/-! ### Reading -/

/-- The value of a hex digit in lower case. -/
def hexValue (c : Char) : Option ℕ :=
  if c.isDigit then some (c.toNat - 48) else if 'a' ≤ c && c ≤ 'f' then some (c.toNat - 87) else none

/-- The rest of a string up to its closing quote. -/
def readString : List Char → Option (List Char × List Char)
  | [] => none
  | '"' :: cs => some ([], cs)
  | '\\' :: 'u' :: '0' :: '0' :: h :: l :: cs => do
    let high ← hexValue h
    let low ← hexValue l
    let (s, rest) ← readString cs
    some (Char.ofNat (16 * high + low) :: s, rest)
  | '\\' :: c :: cs => do
    let char ← match c with
      | '"' => some '"'
      | '\\' => some '\\'
      | 'b' => some '\x08'
      | 'f' => some '\x0c'
      | 'n' => some '\n'
      | 'r' => some '\r'
      | 't' => some '\t'
      | _ => none
    let (s, rest) ← readString cs
    some (char :: s, rest)
  | c :: cs => do
    let (s, rest) ← readString cs
    some (c :: s, rest)

/-- The items after the first, up to the bracket that closes the list. -/
def more {α : Type} (item : List Char → Option (α × List Char)) (close : Char) :
    ℕ → List Char → Option (List α × List Char)
  | 0, _ => none
  | _ + 1, [] => none
  | n + 1, c :: cs =>
    if c = close then some ([], cs) else
    if c ≠ ',' then none else do
      let (a, cs) ← item cs
      let (as, cs) ← more item close n cs
      some (a :: as, cs)

/-- Items up to the bracket that closes the list. -/
def listed {α : Type} (item : List Char → Option (α × List Char)) (close : Char) (n : ℕ)
    (cs : List Char) :
    Option (List α × List Char) :=
  if cs.head? = some close then some ([], cs.tail) else do
    let (a, cs) ← item cs
    let (as, cs) ← more item close n cs
    some (a :: as, cs)

/-- A name and the value behind its colon. -/
def member (value : List Char → Option (Json × List Char)) :
    List Char → Option ((String × Json) × List Char)
  | '"' :: cs => do
    let (name, cs) ← readString cs
    match cs with
    | ':' :: cs => do
      let (j, cs) ← value cs
      some ((String.ofList name, j), cs)
    | _ => none
  | _ => none

/-- A value at the head of a text, of a depth below the fuel. -/
def value : ℕ → List Char → Option (Json × List Char)
  | 0, _ => none
  | n + 1, cs =>
    match cs with
    | [] => none
    | 'n' :: cs => if cs.take 3 = ['u', 'l', 'l'] then some (null, cs.drop 3) else none
    | 't' :: cs => if cs.take 3 = ['r', 'u', 'e'] then some (bool true, cs.drop 3) else none
    | 'f' :: cs => if cs.take 4 = ['a', 'l', 's', 'e'] then some (bool false, cs.drop 4) else none
    | '"' :: cs => (readString cs).map fun p => (str (String.ofList p.1), p.2)
    | '[' :: cs => (listed (value n) ']' n cs).map fun p => (arr p.1, p.2)
    | '{' :: cs => (listed (member (value n)) '}' n cs).map fun p => (obj p.1, p.2)
    | c :: cs =>
      if c.isDigit then
        some (num (Nat.ofDigitChars 10 ((c :: cs).takeWhile (·.isDigit)) 0), (c :: cs).dropWhile (·.isDigit))
      else none

/-- The value of a text that holds one and nothing else. -/
def read (cs : List Char) : Option Json :=
  match value (cs.length + 1) cs with
  | some (j, []) => some j
  | _ => none

/-! ### What was written is read back -/

theorem hexValue_digitChar {n : ℕ} (h : n < 16) : hexValue (Nat.digitChar n) = some n := by
  interval_cases n <;> rfl

theorem readString_escape (c : Char) (rest : List Char) :
    readString (escape c ++ rest) = (readString rest).map fun p => (c :: p.1, p.2) := by
  have hbind : ∀ o : Option (List Char × List Char),
      (o.bind fun p => some (c :: p.1, p.2)) = o.map fun p => (c :: p.1, p.2) :=
      fun o => by cases o <;> rfl
  unfold escape
  by_cases hshort : c = '"' ∨ c = '\\' ∨ c = '\x08' ∨ c = '\x0c' ∨ c = '\n' ∨ c = '\r' ∨ c = '\t'
  · rcases hshort with rfl | rfl | rfl | rfl | rfl | rfl | rfl <;> exact hbind _
  · simp only [not_or] at hshort
    obtain ⟨hquote, hslash, hb, hf, hn, hr, ht⟩ := hshort
    simp only [hquote, hslash, hb, hf, hn, hr, ht, if_false]
    split
    · rename_i hlow
      have hhigh := @hexValue_digitChar (c.toNat / 16) (by omega)
      have hlow' := @hexValue_digitChar (c.toNat % 16) (by omega)
      have hchar : Char.ofNat (16 * (c.toNat / 16) + c.toNat % 16) = c := by
        rw [Nat.div_add_mod]
        exact Char.ofNat_toNat c
      simp only [List.cons_append, List.nil_append, readString, hhigh, hlow', Option.bind_eq_bind,
        Option.bind_some, hchar]
      exact hbind _
    · rw [List.singleton_append, readString.eq_def]
      split
      · rename_i heq
        cases heq
      · rename_i heq
        cases heq
        exact absurd rfl hquote
      · rename_i heq
        cases heq
        exact absurd rfl hslash
      · rename_i heq
        cases heq
        exact absurd rfl hslash
      · rename_i heq
        cases heq
        exact hbind _

theorem readString_escaped (rest : List Char) : ∀ cs : List Char,
    readString (cs.flatMap escape ++ '"' :: rest) = some (cs, rest)
  | [] => rfl
  | c :: cs => by
    rw [List.flatMap_cons, List.append_assoc, readString_escape, readString_escaped rest cs]
    rfl

/-- The text does not start with a digit. -/
def Ends (cs : List Char) : Prop := ∀ c ∈ cs.head?, c.isDigit = false

theorem ends_cons {c : Char} (h : c.isDigit = false) (cs : List Char) : Ends (c :: cs) := by
  intro d hd
  cases hd
  exact h

theorem ends_nil : Ends [] := fun _ h => by cases h

section listed

variable {α : Type} {item : List Char → Option (α × List Char)} {write : α → List Char}
  {close : Char}

theorem more_flatMap (hclose : close.isDigit = false) (hcomma : close ≠ ',') (rest : List Char) :
    ∀ (as : List α) (n : ℕ), as.length < n →
      (∀ a ∈ as, ∀ cs, Ends cs → item (write a ++ cs) = some (a, cs)) →
      more item close n ((as.map write).flatMap (fun q => ',' :: q) ++ close :: rest) =
        some (as, rest)
  | _, 0, hn, _ => absurd hn (Nat.not_lt_zero _)
  | [], n + 1, _, _ => by simp [more]
  | a :: as, n + 1, hn, hitem => by
    have hlen : as.length < n := by simpa using hn
    have htail := more_flatMap hclose hcomma rest as n hlen
      fun b hb => hitem b (List.mem_cons_of_mem _ hb)
    -- what follows the item is a comma or the closing bracket
    have hends : Ends ((as.map write).flatMap (fun q => ',' :: q) ++ close :: rest) := by
      cases as with
      | nil => exact ends_cons hclose rest
      | cons b bs => exact ends_cons (by decide) _
    simp only [List.map_cons, List.flatMap_cons, List.cons_append, List.append_assoc, more,
      hcomma.symm, if_false, ne_eq, not_true_eq_false, hitem a List.mem_cons_self _ hends, Option.bind_eq_bind, Option.bind_some, htail]

/-- **A list whose items are read back is read back.** -/
theorem listed_join (hclose : close.isDigit = false) (hcomma : close ≠ ',') (rest : List Char)
    (as : List α) {n : ℕ} (hn : as.length ≤ n)
    (hitem : ∀ a ∈ as, ∀ cs, Ends cs → item (write a ++ cs) = some (a, cs))
    (hhead : ∀ a ∈ as, ∀ cs, (write a ++ cs).head? ≠ some close) :
    listed item close n (join (as.map write) ++ close :: rest) = some (as, rest) := by
  cases as with
  | nil => simp [listed, join]
  | cons a as =>
    have hmore := more_flatMap hclose hcomma rest as n hn
      fun b hb => hitem b (List.mem_cons_of_mem _ hb)
    have hends : Ends ((as.map write).flatMap (fun q => ',' :: q) ++ close :: rest) := by
      cases as with
      | nil => exact ends_cons hclose rest
      | cons b bs => exact ends_cons (by decide) _
    have hfirst := hhead a List.mem_cons_self
      ((as.map write).flatMap (fun q => ',' :: q) ++ close :: rest)
    unfold listed
    simp only [List.map_cons, join, List.append_assoc] at hfirst ⊢
    rw [if_neg hfirst]
    simp only [hitem a List.mem_cons_self _ hends, Option.bind_eq_bind, Option.bind_some, hmore]

end listed

theorem text_ne_nil (j : Json) : text j ≠ [] := by
  cases j with
  | null => simp [text]
  | bool b => cases b <;> simp [text]
  | num n =>
    rw [text]
    exact Nat.toDigits_ne_nil
  | str s => simp [text, quoted]
  | arr items => simp [text]
  | obj fields => simp [text]

/-- No value starts with the bracket that closes an array. -/
theorem text_head (j : Json) (cs : List Char) : (text j ++ cs).head? ≠ some ']' := by
  cases j with
  | null => simp [text]
  | bool b => cases b <;> simp [text]
  | num n =>
    rw [text]
    cases hdigits : Nat.toDigits 10 n with
    | nil => exact absurd hdigits Nat.toDigits_ne_nil
    | cons d ds =>
      have hmem : d ∈ Nat.toDigits 10 n := by simp [hdigits]
      have hd : d.isDigit = true := Nat.isDigit_of_mem_toDigits (by decide) (by decide) hmem
      intro h
      cases h
      exact absurd hd (by decide)
  | str s => simp [text, quoted]
  | arr items => simp [text]
  | obj fields => simp [text]

theorem length_le_join {p : List Char} {parts : List (List Char)} (h : p ∈ parts) :
    p.length ≤ (join parts).length := by
  cases parts with
  | nil => cases h
  | cons q qs =>
    simp only [join, List.length_append]
    rcases List.mem_cons.mp h with rfl | h
    · omega
    · have hle : p.length ≤ (qs.flatMap fun q => ',' :: q).length := by
        induction qs with
        | nil => cases h
        | cons q qs ih =>
          simp only [List.flatMap_cons, List.length_append, List.length_cons]
          rcases List.mem_cons.mp h with rfl | h
          · omega
          · have := ih (List.mem_cons_of_mem _ h) h
            omega
      omega

theorem count_le_join :
    ∀ {parts : List (List Char)}, (∀ p ∈ parts, p ≠ []) → parts.length ≤ (join parts).length
  | [], _ => Nat.zero_le _
  | p :: ps, h => by
    have hp : 0 < p.length := List.length_pos_iff.mpr (h p List.mem_cons_self)
    have hps : ps.length ≤ (ps.flatMap fun q => ',' :: q).length := by
      induction ps with
      | nil => exact Nat.zero_le _
      | cons q qs ih =>
        have hle := ih fun r hr => h r (by
          rcases List.mem_cons.mp hr with rfl | hr
          · exact List.mem_cons_self
          · exact List.mem_cons_of_mem _ (List.mem_cons_of_mem _ hr))
        simp only [List.flatMap_cons, List.length_append, List.length_cons]
        omega
    simp only [join, List.length_append, List.length_cons]
    omega

/-- A name and its value are read back, if the value is. -/
theorem member_fieldText {read : List Char → Option (Json × List Char)} {f : String × Json}
    {cs : List Char} (h : read (text f.2 ++ cs) = some (f.2, cs)) :
    member read (fieldText f ++ cs) = some (f, cs) := by
  have hname : readString (f.1.toList.flatMap escape ++ '"' :: (':' :: (text f.2 ++ cs))) =
      some (f.1.toList, ':' :: (text f.2 ++ cs)) := readString_escaped _ _
  simp only [fieldText, quoted, List.cons_append, List.append_assoc, List.nil_append, member, hname,
    Option.bind_eq_bind, Option.bind_some, h, String.ofList_toList]

/-- **A value is read back** in front of what does not start with a digit. -/
theorem value_text (j : Json) :
    ∀ n, (text j).length ≤ n → ∀ cs, Ends cs → value n (text j ++ cs) = some (j, cs) := by
  induction j using Json.induct with
  | null =>
    intro n hn cs _
    cases n with
    | zero => exact absurd hn (by simp [text])
    | succ n => simp [text, value]
  | bool b =>
    intro n hn cs _
    cases n with
    | zero => exact absurd hn (by cases b <;> simp [text])
    | succ n => cases b <;> simp [text, value]
  | num m =>
    intro n hn cs hcs
    have hall : ∀ c ∈ Nat.toDigits 10 m, c.isDigit = true := fun c hc =>
      Nat.isDigit_of_mem_toDigits (by decide) (by decide) hc
    have htake : (Nat.toDigits 10 m ++ cs).takeWhile (·.isDigit) = Nat.toDigits 10 m := by
      rw [List.takeWhile_append_of_pos hall]
      cases cs with
      | nil => simp
      | cons c cs => simp [hcs c rfl]
    have hdrop : (Nat.toDigits 10 m ++ cs).dropWhile (·.isDigit) = cs := by
      rw [List.dropWhile_append_of_pos hall]
      cases cs with
      | nil => simp
      | cons c cs => simp [hcs c rfl]
    cases n with
    | zero =>
      rw [text] at hn
      exact absurd (List.length_eq_zero_iff.mp (Nat.le_zero.mp hn)) Nat.toDigits_ne_nil
    | succ n =>
      rw [text]
      cases hdigits : Nat.toDigits 10 m with
      | nil => exact absurd hdigits Nat.toDigits_ne_nil
      | cons d ds =>
        rw [hdigits] at hall htake hdrop
        have hd : d.isDigit = true := hall d List.mem_cons_self
        have hvalue : Nat.ofDigitChars 10 (d :: ds) 0 = m := by
          rw [← hdigits]
          exact Nat.ofDigitChars_ten_toDigits
        rw [List.cons_append] at htake hdrop ⊢
        unfold value
        split
        case h_8 heq =>
          cases heq
          rw [if_pos hd, htake, hdrop, hvalue]
        all_goals
          rename_i heq
          cases heq
        all_goals exact absurd hd (by decide)
  | str s =>
    intro n hn cs _
    cases n with
    | zero => exact absurd hn (by simp [text, quoted])
    | succ n =>
      simp only [text, quoted, List.cons_append, List.append_assoc, List.nil_append, value,
        readString_escaped, Option.map_some, String.ofList_toList]
  | arr items ih =>
    intro n hn cs _
    rw [text_arr] at hn ⊢
    cases n with
    | zero => exact absurd hn (by simp)
    | succ n =>
      simp only [List.length_cons, List.length_append, List.length_nil] at hn
      have hcount := @count_le_join (items.map text) fun p hp => by
        obtain ⟨j, -, rfl⟩ := List.mem_map.mp hp
        exact text_ne_nil j
      rw [List.length_map] at hcount
      have hlist := @listed_join Json (value n) text ']' (by decide) (by decide) cs items n
        (by omega)
        (fun j hj ds hds => ih j hj n (by
          have := length_le_join (List.mem_map_of_mem (f := text) hj)
          omega) ds hds)
        (fun j _ ds => text_head j ds)
      simp only [List.cons_append, List.append_assoc, List.nil_append, value, hlist,
        Option.map_some]
  | obj fields ih =>
    intro n hn cs _
    rw [text_obj] at hn ⊢
    cases n with
    | zero => exact absurd hn (by simp)
    | succ n =>
      simp only [List.length_cons, List.length_append, List.length_nil] at hn
      have hcount := @count_le_join (fields.map fieldText) fun p hp => by
        obtain ⟨f, -, rfl⟩ := List.mem_map.mp hp
        simp [fieldText, quoted]
      rw [List.length_map] at hcount
      have hlist := @listed_join (String × Json) (member (value n)) fieldText '}' (by decide) (by decide) cs fields n
        (by omega)
        (fun f hf ds hds => member_fieldText (ih f hf n (by
          have := length_le_join (List.mem_map_of_mem (f := fieldText) hf)
          have hlen : (text f.2).length ≤ (fieldText f).length := by
            simp only [fieldText, List.length_append, List.length_cons]
            omega
          omega) ds hds))
        (fun f _ ds => by simp [fieldText, quoted])
      simp only [List.cons_append, List.append_assoc, List.nil_append, value, hlist,
        Option.map_some]

/-- **The text of a value is read back as the value.** -/
theorem read_text (j : Json) : read (text j) = some j := by
  have h := value_text j ((text j).length + 1) (Nat.le_succ _) [] ends_nil
  rw [List.append_nil] at h
  rw [read, h]

end Json
