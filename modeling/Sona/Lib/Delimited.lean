/-
# Self-delimiting encodings

An encoding is self-delimiting on the values that meet `P` when bytes that
start with the encoding of one of them determine which one it is and where it
ends. The two that everything starts from are injective codes of one length
(`delimited_of_length`) and a value behind its length (`Delimited.prefixed`). A
record is taken apart field by field; a list of items behind its length is
delimited when its items are (`Delimited.counted`).

Where items stand behind a separator each and may have it in them, the text tells
the pieces between separators and not the items (`flatMap_sep_inj`).

Key definitions: `Delimited`.
-/
import Mathlib.Data.List.Basic

variable {α γ : Type}

/-- What starts with the encoding of a value determines the value and the rest. -/
def Delimited (P : α → Prop) (enc : α → List γ) : Prop :=
  ∀ a b, P a → P b → ∀ x y, enc a ++ x = enc b ++ y → a = b ∧ x = y

theorem delimited_of_length {P : α → Prop} {enc : α → List γ} (n : ℕ)
    (hlen : ∀ a, (enc a).length = n) (hinj : ∀ a b, P a → P b → enc a = enc b → a = b) :
    Delimited P enc := by
  intro a b ha hb x y h
  obtain ⟨henc, hrest⟩ := List.append_inj h (by rw [hlen, hlen])
  exact ⟨hinj a b ha hb henc, hrest⟩

/-- A value behind the length of its bytes. -/
theorem Delimited.prefixed {Q : ℕ → Prop} {len : ℕ → List γ} (h : Delimited Q len)
    {enc : α → List γ} (hinj : ∀ a b, enc a = enc b → a = b) :
    Delimited (fun a => Q (enc a).length) fun a => len (enc a).length ++ enc a := by
  intro a b ha hb x y hxy
  rw [List.append_assoc, List.append_assoc] at hxy
  obtain ⟨hlen, hrest⟩ := h _ _ ha hb _ _ hxy
  obtain ⟨henc, hrest⟩ := List.append_inj hrest hlen
  exact ⟨hinj a b henc, hrest⟩

/-- Lists of one length, their items behind one another. -/
theorem Delimited.flatMap {P : α → Prop} {enc : α → List γ} (h : Delimited P enc) :
    ∀ {as bs : List α},
    as.length = bs.length → (∀ a ∈ as, P a) → (∀ b ∈ bs, P b) → ∀ {x y : List γ},
    as.flatMap enc ++ x = bs.flatMap enc ++ y → as = bs ∧ x = y
  | [], [], _, _, _, _, _, hxy => ⟨rfl, hxy⟩
  | a :: as, b :: bs, hlen, ha, hb, x, y, hxy => by
    rw [List.flatMap_cons, List.flatMap_cons, List.append_assoc, List.append_assoc] at hxy
    obtain ⟨hab, hxy⟩ := h a b (ha a List.mem_cons_self) (hb b List.mem_cons_self) _ _ hxy
    obtain ⟨hrest, hxy⟩ := Delimited.flatMap h (Nat.succ.inj hlen)
      (fun c hc => ha c (List.mem_cons_of_mem a hc))
      (fun c hc => hb c (List.mem_cons_of_mem b hc)) hxy
    exact ⟨by rw [hab, hrest], hxy⟩

/-- A list behind its length. -/
theorem Delimited.counted {P : α → Prop} {enc : α → List γ} (h : Delimited P enc) {Q : ℕ → Prop}
    {len : ℕ → List γ} (hl : Delimited Q len) :
    Delimited (fun as : List α => Q as.length ∧ ∀ a ∈ as, P a)
      fun as => len as.length ++ as.flatMap enc := by
  intro as bs ha hb x y hxy
  rw [List.append_assoc, List.append_assoc] at hxy
  obtain ⟨hlen, hxy⟩ := hl _ _ ha.1 hb.1 _ _ hxy
  exact h.flatMap hlen ha.2 hb.2 hxy

/-- A number is determined by its digits. -/
theorem decimal_inj {m n : ℕ} (h : Nat.repr m = Nat.repr n) : m = n := by
  rw [Nat.repr_eq_ofList_toDigits, Nat.repr_eq_ofList_toDigits, String.ofList_inj] at h
  rw [← Nat.ofDigitChars_toDigits (b := 10) (n := m) (by omega) (by omega), h,
    Nat.ofDigitChars_toDigits (by omega) (by omega)]

/-! ### Behind a separator -/

section separated

variable [DecidableEq γ] (sep : γ)

/-- Behind a separator each, items can be cut again at it. -/
theorem splitOn_append_flatMap : ∀ (items : List (List γ)) (before : List γ),
    (before ++ items.flatMap (sep :: ·)).splitOn sep =
      before.splitOn sep ++ items.flatMap (·.splitOn sep)
  | [], before => by simp
  | item :: items, before => by
    have hcut := splitOn_append_flatMap items item
    rw [List.flatMap_cons, List.cons_append, List.splitOn_append_cons_self, hcut, List.flatMap_cons]

/-- Items behind separators are the same text if they are the same once they are cut at the
separators that they have in them. -/
theorem flatMap_sep_inj {items items' : List (List γ)} :
    items.flatMap (sep :: ·) = items'.flatMap (sep :: ·) ↔
      items.flatMap (·.splitOn sep) = items'.flatMap (·.splitOn sep) := by
  have hcut := splitOn_append_flatMap sep items []
  have hcut' := splitOn_append_flatMap sep items' []
  rw [List.nil_append] at hcut hcut'
  constructor
  · intro h
    rw [h, hcut'] at hcut
    exact (List.append_cancel_left hcut).symm
  · intro h
    rw [h, ← hcut'] at hcut
    have hjoin := congrArg [sep].intercalate hcut
    rwa [List.intercalate_splitOn, List.intercalate_splitOn] at hjoin

end separated
