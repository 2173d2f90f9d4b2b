/-
# Messages in numbered pieces

A stream of messages, each cut into pieces that are not empty; the pieces of all
messages are numbered one after another, and a piece says whether more of its
message follow. The receiver takes a piece only if its number is above the last
one it took, appends it to what it holds, and returns what it holds at a last
piece (`Reassembly.arrive`); it may also lose what it holds at any time
(`Reassembly.discard`). It does not look for gaps.

When each piece that is taken joins what is held (`Joins`: the first piece of a
message finds nothing held, any other one directly follows the last and finds
something held), what was returned is a sublist of the messages: each is
returned whole, once, and in order (`Faithful.arrive`).

Key definitions: `chunks`, `PieceAt`, `Reassembly`, `Joins`, `Faithful`.
Key theorems: `chunks_spec`, `PieceAt.unique`, `Faithful.discard`, `Faithful.arrive`.
-/
import Mathlib.Data.List.Basic
import Mathlib.Data.List.Infix
import Mathlib.Tactic.Tauto

namespace Fragments

variable {α : Type}

/-! ### Cutting -/

/-- The pieces of a message, all but the last of length `n`. -/
def chunks (n : ℕ) (l : List α) : List (List α) :=
  if l = [] ∨ n = 0 then [] else l.take n :: chunks n (l.drop n)
termination_by l.length
decreasing_by
  rename_i h
  rw [not_or] at h
  have hpos := List.length_pos_iff.mpr h.1
  rw [List.length_drop]
  omega

theorem chunks_nil (n : ℕ) : chunks n ([] : List α) = [] := by
  rw [chunks]
  simp

theorem chunks_cons {n : ℕ} (hn : n ≠ 0) {l : List α} (hl : l ≠ []) :
    chunks n l = l.take n :: chunks n (l.drop n) := by
  rw [chunks]
  simp [hn, hl]

theorem chunks_of_length_le {n : ℕ} (hn : n ≠ 0) {l : List α} (hl : l ≠ []) (hle : l.length ≤ n) :
    chunks n l = [l] := by
  rw [chunks_cons hn hl, List.take_of_length_le hle, List.drop_of_length_le hle, chunks_nil]

/-- The pieces make up the message, and none is empty or longer than `n`. -/
theorem chunks_spec {n : ℕ} (hn : n ≠ 0) (l : List α) :
    (chunks n l).flatten = l ∧ ∀ c ∈ chunks n l, c ≠ [] ∧ c.length ≤ n := by
  induction l using chunks.induct n with
  | case1 l h =>
    have hl : l = [] := by tauto
    rw [hl, chunks_nil]
    simp
  | case2 l h ih =>
    rw [not_or] at h
    rw [chunks_cons hn h.1]
    refine ⟨by rw [List.flatten_cons, ih.1, List.take_append_drop], fun c hc => ?_⟩
    rcases List.mem_cons.mp hc with rfl | hc
    · exact ⟨by simp [List.take_eq_nil_iff, hn, h.1], List.length_take_le _ _⟩
    · exact ih.2 c hc

/-- All pieces but the last are full. -/
theorem chunks_count {n : ℕ} (hn : n ≠ 0) (l : List α) :
    (chunks n l).length * n < l.length + n := by
  induction l using chunks.induct n with
  | case1 l h =>
    have hl : l = [] := by tauto
    rw [hl, chunks_nil]
    simpa using Nat.pos_of_ne_zero hn
  | case2 l h ih =>
    rw [not_or] at h
    have hpos := List.length_pos_iff.mpr h.1
    rw [chunks_cons hn h.1, List.length_cons, Nat.succ_mul]
    by_cases hfull : n ≤ l.length
    · rw [List.length_drop] at ih
      omega
    · rw [List.drop_of_length_le (by omega), chunks_nil, List.length_nil]
      omega

/-! ### Numbers -/

/-- The piece `x` has the number `n`: it comes after the messages `before`, and
after `pre` and before `post` in its own. -/
structure PieceAt (msgs : List (List (List α))) (n : ℕ) (before : List (List (List α)))
    (pre : List (List α)) (x : List α) (post : List (List α)) : Prop where
  split : before ++ [pre ++ x :: post] <+: msgs
  number : n = before.flatten.length + pre.length

section pieceAt

variable {msgs : List (List (List α))} {n n' : ℕ} {before before' : List (List (List α))}
  {pre pre' : List (List α)} {x x' : List α} {post post' : List (List α)}

theorem PieceAt.prefix_of_length (h : PieceAt msgs n before pre x post)
    (h' : PieceAt msgs n' before' pre' x' post') (hlt : before.length < before'.length) :
    before ++ [pre ++ x :: post] <+: before' := by
  have hbefore' : before' <+: msgs := (List.prefix_append _ _).trans h'.split
  refine List.prefix_of_prefix_length_le h.split hbefore' ?_
  simp only [List.length_append, List.length_singleton]
  omega

/-- The messages before a later message have all pieces up to its first. -/
theorem PieceAt.below (h : PieceAt msgs n before pre x post)
    (h' : PieceAt msgs n' before' pre' x' post') (hlt : before.length < before'.length) :
    n < before'.flatten.length := by
  obtain ⟨rest, hrest⟩ := h.prefix_of_length h' hlt
  have hn := h.number
  rw [← hrest]
  simp only [List.flatten_append, List.flatten_cons, List.flatten_nil, List.append_nil,
    List.length_append, List.length_cons]
  omega

/-- **A number is that of one piece.** -/
theorem PieceAt.unique (h : PieceAt msgs n before pre x post)
    (h' : PieceAt msgs n before' pre' x' post') :
    before = before' ∧ pre = pre' ∧ x = x' ∧ post = post' := by
  have hn := h.number
  have hn' := h'.number
  have hlen : before.length = before'.length := by
    rcases Nat.lt_trichotomy before.length before'.length with hlt | heq | hlt
    · have := h.below h' hlt
      omega
    · exact heq
    · have := h'.below h hlt
      omega
  have hsame : before ++ [pre ++ x :: post] = before' ++ [pre' ++ x' :: post'] := by
    have hp := List.prefix_of_prefix_length_le h.split h'.split (by simp [hlen])
    exact hp.eq_of_length (by simp [hlen])
  obtain ⟨rfl, hmsg⟩ := List.append_inj hsame hlen
  simp only [List.cons.injEq, and_true] at hmsg
  obtain ⟨rfl, hrest⟩ := List.append_inj hmsg (by omega)
  simp only [List.cons.injEq] at hrest
  exact ⟨rfl, rfl, hrest.1, hrest.2⟩

end pieceAt

/-! ### The receiver -/

/-- The number of the last piece taken, and what is held of a message. -/
structure Reassembly (α : Type) where
  last : Option ℕ := none
  held : List α := []

def Reassembly.discard (s : Reassembly α) : Reassembly α := { s with held := [] }

/-- The piece comes after the last one taken. -/
def Reassembly.fresh (s : Reassembly α) (n : ℕ) : Prop := ∀ last, s.last = some last → last < n

/-- A piece is taken: it is appended to what is held, and the last one of a message returns it. -/
def Reassembly.arrive (s : Reassembly α) (n : ℕ) (x : List α) (more : Bool) :
    Option (List α) × Reassembly α :=
  if more then (none, ⟨some n, s.held ++ x⟩) else (some (s.held ++ x), ⟨some n, []⟩)

/-- The piece joins what is held. -/
def Joins (s : Reassembly α) (n : ℕ) (pre : List (List α)) : Prop :=
  if pre = [] then s.held = [] else s.held ≠ [] ∧ ∃ last, s.last = some last ∧ n = last + 1

/-- What was returned, and what is held, are of the messages up to the last piece. -/
def Faithful (msgs : List (List (List α))) (s : Reassembly α) (out : List (List α)) : Prop :=
  match s.last with
  | none => s.held = [] ∧ out = []
  | some last => ∃ before pre x post, PieceAt msgs last before pre x post ∧
    out.Sublist ((if post = [] then before ++ [pre ++ x :: post] else before).map List.flatten) ∧
    (s.held = [] ∨ (post ≠ [] ∧ s.held = (pre ++ [x]).flatten))

section faithful

variable {msgs : List (List (List α))} {s : Reassembly α} {out : List (List α)}

/-- All messages come back in a sublist. -/
theorem Faithful.sublist (h : Faithful msgs s out) : out.Sublist (msgs.map List.flatten) := by
  unfold Faithful at h
  split at h
  · rw [h.2]
    exact List.nil_sublist _
  · obtain ⟨before, pre, x, post, hat, hout, -⟩ := h
    refine hout.trans (List.Sublist.map _ ?_)
    split
    · exact hat.split.sublist
    · exact ((List.prefix_append _ _).trans hat.split).sublist

theorem Faithful.discard (h : Faithful msgs s out) : Faithful msgs s.discard out := by
  unfold Faithful Reassembly.discard at *
  cases hlast : s.last with
  | none =>
    rw [hlast] at h
    exact ⟨rfl, h.2⟩
  | some last =>
    rw [hlast] at h
    obtain ⟨before, pre, x, post, hat, hout, -⟩ := h
    exact ⟨before, pre, x, post, hat, hout, Or.inl rfl⟩

variable {n : ℕ} {before : List (List (List α))} {pre : List (List α)} {x : List α}
  {post : List (List α)}

/-- Before a piece that joins, all that was returned is of messages before its own,
and what is held is its message up to the piece. -/
theorem Faithful.upTo (h : Faithful msgs s out) (hat : PieceAt msgs n before pre x post)
    (hfresh : s.fresh n) (hjoins : Joins s n pre) :
    out.Sublist (before.map List.flatten) ∧ s.held = pre.flatten := by
  unfold Faithful at h
  unfold Joins at hjoins
  have hn := hat.number
  cases hlast : s.last with
  | none =>
    rw [hlast] at h hjoins
    split at hjoins
    · rename_i hpre
      exact ⟨h.2 ▸ List.nil_sublist _, by simp [hjoins, hpre]⟩
    · exact absurd h.1 hjoins.1
  | some last =>
    rw [hlast] at h hjoins
    obtain ⟨before₀, pre₀, x₀, post₀, hat₀, hout, hheld⟩ := h
    have hlt := hfresh last hlast
    have hn₀ := hat₀.number
    split at hjoins
    · -- the first piece of a later message
      rename_i hpre
      rw [hpre] at hn
      simp only [List.length_nil, Nat.add_zero] at hn
      refine ⟨?_, by simp [hjoins, hpre]⟩
      have hlonger : before₀.length < before.length := by
        by_contra hle
        have hp : before <+: before₀ := List.prefix_of_prefix_length_le
          ((List.prefix_append _ _).trans hat.split)
          ((List.prefix_append _ _).trans hat₀.split) (Nat.le_of_not_lt hle)
        obtain ⟨rest, hrest⟩ := hp
        rw [← hrest] at hn₀
        simp only [List.flatten_append, List.length_append] at hn₀
        omega
      have hprefix := hat₀.prefix_of_length hat hlonger
      refine hout.trans (List.Sublist.map _ ?_)
      split
      · exact hprefix.sublist
      · exact ((List.prefix_append _ _).trans hprefix).sublist
    · -- the piece after the last one, with the message held up to it
      obtain ⟨hne, last', heq, hnext⟩ := hjoins
      cases heq
      rcases hheld with hempty | ⟨hpost, hheld⟩
      · exact absurd hempty hne
      · obtain ⟨y, ys, rfl⟩ := List.exists_cons_of_ne_nil hpost
        have hat₁ : PieceAt msgs n before₀ (pre₀ ++ [x₀]) y ys := by
          refine ⟨?_, ?_⟩
          · have hsplit := hat₀.split
            rwa [List.append_assoc, List.singleton_append]
          · simp only [List.length_append, List.length_singleton]
            omega
        obtain ⟨rfl, rfl, rfl, rfl⟩ := hat.unique hat₁
        rw [if_neg hpost] at hout
        exact ⟨hout, hheld⟩

/-- **A piece that joins what is held keeps the receiver faithful.** -/
theorem Faithful.arrive (h : Faithful msgs s out) (hat : PieceAt msgs n before pre x post)
    (hfresh : s.fresh n) (hjoins : Joins s n pre) :
    Faithful msgs (s.arrive n x (!post.isEmpty)).2 (out ++ (s.arrive n x (!post.isEmpty)).1.toList) := by
  obtain ⟨hout, hheld⟩ := h.upTo hat hfresh hjoins
  unfold Reassembly.arrive
  cases post with
  | nil =>
    simp only [List.isEmpty_nil, Bool.not_true, Bool.false_eq_true, if_false, Option.toList_some]
    refine ⟨before, pre, x, [], hat, ?_, Or.inl rfl⟩
    rw [if_pos rfl, List.map_append, hheld]
    refine hout.append ?_
    simp
  | cons y ys =>
    simp only [List.isEmpty_cons, Bool.not_false, if_true, Option.toList_none, List.append_nil]
    refine ⟨before, pre, x, y :: ys, hat, ?_, Or.inr ⟨by simp, by simp [hheld]⟩⟩
    rw [if_neg (by simp)]
    exact hout

end faithful

end Fragments
