/-
# Positions in a growing list

The positions at which a test holds, in order, as an index over a list that
only grows keeps them: one more element adds its own position or nothing
(`positions_snoc`).

Key definitions: `positions`.
-/
import Mathlib.Data.List.Basic
import Mathlib.Data.List.Induction
import Mathlib.Data.List.Pairwise

variable {α : Type}

/-- The positions of `l` at which `p` holds. -/
def positions (p : α → Bool) (l : List α) : List ℕ :=
  (List.range l.length).filter fun i => l[i]?.any p

@[simp] theorem positions_nil (p : α → Bool) : positions p [] = [] := rfl

theorem positions_snoc (p : α → Bool) (l : List α) (a : α) :
    positions p (l ++ [a]) = positions p l ++ if p a then [l.length] else [] := by
  unfold positions
  rw [List.length_append, List.length_singleton, List.range_succ, List.filter_append]
  congr 1
  · refine List.filter_congr fun i hi => ?_
    rw [List.getElem?_append_left (List.mem_range.mp hi)]
  · rw [List.filter_singleton, List.getElem?_concat_length, Option.any_some]
    by_cases hp : p a <;> simp [hp]

theorem mem_positions {p : α → Bool} {l : List α} {i : ℕ} :
    i ∈ positions p l ↔ ∃ a, l[i]? = some a ∧ p a = true := by
  unfold positions
  rw [List.mem_filter, List.mem_range, Option.any_eq_true]
  constructor
  · rintro ⟨-, a, ha, hp⟩
    exact ⟨a, ha, hp⟩
  · rintro ⟨a, ha, hp⟩
    exact ⟨(List.getElem?_eq_some_iff.mp ha).1, a, ha, hp⟩

theorem lt_of_mem_positions {p : α → Bool} {l : List α} {i : ℕ} (h : i ∈ positions p l) :
    i < l.length := by
  obtain ⟨a, ha, -⟩ := mem_positions.mp h
  exact (List.getElem?_eq_some_iff.mp ha).1

/-- The last position at which `f` has a value leads to the last value. -/
theorem getLast?_positions {β : Type} (f : α → Option β) (l : List α) :
    (positions (fun a => (f a).isSome) l).getLast?.bind (fun i => l[i]?.bind f) =
      (l.filterMap f).getLast? := by
  induction l using List.reverseRecOn with
  | nil => rfl
  | append_singleton l a ih =>
    rw [positions_snoc, List.filterMap_append]
    cases hf : f a with
    | some b => simp [hf]
    | none =>
      simp only [Option.isSome_none, Bool.false_eq_true, if_false, List.append_nil,
        List.filterMap_cons, hf, List.filterMap_nil]
      rw [← ih]
      -- the positions are all in front of `a`
      cases hi : (positions (fun a => (f a).isSome) l).getLast? with
      | none => rfl
      | some i =>
        have hlt := lt_of_mem_positions (List.mem_of_getLast? hi)
        simp only [Option.bind_some]
        rw [List.getElem?_append_left hlt]

theorem positions_sorted (p : α → Bool) (l : List α) : (positions p l).Pairwise (· < ·) :=
  List.pairwise_lt_range.filter _

theorem le_getLast?_of_sorted {l : List ℕ} (hs : l.Pairwise (· < ·)) {k i : ℕ}
    (hk : l.getLast? = some k) (hi : i ∈ l) : i ≤ k := by
  obtain ⟨init, rfl⟩ := List.getLast?_eq_some_iff.mp hk
  rcases List.mem_append.mp hi with hi | hi
  · exact Nat.le_of_lt ((List.pairwise_append.mp hs).2.2 i hi k (by simp))
  · exact Nat.le_of_eq (List.mem_singleton.mp hi)

/-- The last entry of an increasing list that passes a test, searched from the end. -/
theorem find?_reverse_of_sorted {q : ℕ → Bool} {i : ℕ} (hq : q i = true) :
    ∀ {l : List ℕ}, l.Pairwise (· < ·) → i ∈ l → (∀ j ∈ l, i < j → q j = false) →
    l.reverse.find? q = some i := by
  intro l
  induction l using List.reverseRecOn with
  | nil => simp
  | append_singleton l a ih =>
    intro hs hi hmax
    obtain ⟨hl, -, hlt⟩ := List.pairwise_append.mp hs
    rw [List.reverse_append, List.reverse_singleton, List.singleton_append, List.find?_cons]
    by_cases ha : i = a
    · rw [← ha, hq]
    · have hi' : i ∈ l := by simpa [ha] using hi
      have hlast : q a = false := hmax a (by simp) (hlt i hi' a (by simp))
      rw [hlast]
      exact ih hl hi' fun j hj => hmax j (by simp [hj])

/-- The last position leads to the last value behind `i`, when it lies there. -/
theorem getLast?_filterMap_drop {β : Type} (f : α → Option β) {l : List α} {i k : ℕ}
    (hk : (positions (fun a => (f a).isSome) l).getLast? = some k) :
    ((l.drop i).filterMap f).getLast? = if i ≤ k then l[k]?.bind f else none := by
  have hwhole := getLast?_positions f l
  rw [hk, Option.bind_some] at hwhole
  obtain ⟨a, ha, hf⟩ := mem_positions.mp (List.mem_of_getLast? hk)
  obtain ⟨b, hb⟩ := Option.isSome_iff_exists.mp hf
  obtain ⟨hlt, -⟩ := List.getElem?_eq_some_iff.mp ha
  split
  · rename_i hik
    -- the value at `k` is one of those behind `i`
    have hmem : b ∈ (l.drop i).filterMap f := by
      refine List.mem_filterMap.mpr ⟨a, List.mem_iff_getElem?.mpr ⟨k - i, ?_⟩, hb⟩
      rw [List.getElem?_drop, Nat.add_sub_cancel' hik, ha]
    have hne : (l.drop i).filterMap f ≠ [] := List.ne_nil_of_mem hmem
    conv at hwhole => rhs; rw [← List.take_append_drop i l, List.filterMap_append]
    rw [hwhole, List.getLast?_append_of_ne_nil _ hne]
  · rename_i hik
    rw [List.getLast?_eq_none_iff, List.filterMap_eq_nil_iff]
    intro c hc
    obtain ⟨j, hj⟩ := List.mem_iff_getElem?.mp hc
    rw [List.getElem?_drop] at hj
    by_contra hsome
    have hpos : i + j ∈ positions (fun a => (f a).isSome) l :=
      mem_positions.mpr ⟨c, hj, Option.isSome_iff_ne_none.mpr hsome⟩
    have hle := le_getLast?_of_sorted (positions_sorted _ l) hk hpos
    omega
