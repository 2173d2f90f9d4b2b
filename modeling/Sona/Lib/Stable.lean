/-
# Insertion in the order of a key, ties in the order of arrival

A list that is kept sorted while its elements come in any order: a new element
goes in from the end, before everything with a larger key (`insertLast`). Equal
keys keep their order of arrival, so what a list of arrivals ends as is said
by two facts, that it is sorted (`insertAll_sorted`) and that the elements of
each key are those of the arrivals in their order (`filter_insertAll`).

Elements may have names, of which only the first one to arrive counts
(`firsts`), so that the same arrivals in another order and with repetitions
come to a rearrangement of the same elements (`firsts_perm`).

Key definitions: `Stable.insertLast`, `Stable.insertAll`, `Stable.firsts`.
Key theorems: `Stable.insertLast_sorted`, `Stable.filter_insertAll`, `Stable.firsts_perm`.
-/
import Mathlib.Data.List.Basic
import Mathlib.Data.List.Nodup
import Mathlib.Data.List.Induction
import Mathlib.Data.List.TakeWhile
import Mathlib.Order.Lattice

namespace Stable

variable {α κ : Type} [LinearOrder κ] (key : α → κ)

/-- No key is larger than one behind it. -/
def Sorted (xs : List α) : Prop := xs.Pairwise fun a b => key a ≤ key b

/-- `a` goes before the elements at the end whose key is larger. -/
def insertLast (xs : List α) (a : α) : List α :=
  (xs.reverse.dropWhile fun x => key a < key x).reverse ++ a :: (xs.reverse.takeWhile fun x => key a < key x).reverse

/-- The arrivals one after another, into an empty list. -/
def insertAll (xs : List α) : List α := xs.foldl (insertLast key) []

/-- A list is what stays before a new element and what goes behind it. -/
theorem split_last (xs : List α) (a : α) :
    (xs.reverse.dropWhile fun x => key a < key x).reverse ++ (xs.reverse.takeWhile fun x => key a < key x).reverse
      = xs := by
  rw [← List.reverse_append, List.takeWhile_append_dropWhile, List.reverse_reverse]

theorem insertLast_perm (xs : List α) (a : α) : (insertLast key xs a).Perm (a :: xs) := by
  have h := split_last key xs a
  unfold insertLast
  rw [← h]
  simp

theorem sublist_insertLast (xs : List α) (a : α) : xs.Sublist (insertLast key xs a) := by
  have h := split_last key xs a
  unfold insertLast
  nth_rewrite 1 [← h]
  exact (List.Sublist.refl _).append (List.sublist_cons_self _ _)

theorem length_insertLast (xs : List α) (a : α) : (insertLast key xs a).length = xs.length + 1 := by
  rw [(insertLast_perm key xs a).length_eq, List.length_cons]

/-- The last element stays the last one if its key is larger. -/
theorem insertLast_append_of_lt (xs : List α) {a b : α} (h : key a < key b) :
    insertLast key (xs ++ [b]) a = insertLast key xs a ++ [b] := by
  simp [insertLast, h]

theorem insertLast_append_of_le (xs : List α) {a b : α} (h : key b ≤ key a) :
    insertLast key (xs ++ [b]) a = xs ++ [b, a] := by
  simp [insertLast, not_lt.mpr h]

/-- What goes behind the new element has a larger key. -/
theorem lt_of_mem_takeWhile {xs : List α} {a x : α}
    (hx : x ∈ (xs.reverse.takeWhile fun x => key a < key x).reverse) : key a < key x := by
  have h := List.mem_takeWhile_imp (List.mem_reverse.mp hx)
  exact of_decide_eq_true h

/-- What stays before it, in a sorted list, has none. -/
theorem le_of_mem_dropWhile {xs : List α} (hs : Sorted key xs) {a x : α}
    (hx : x ∈ (xs.reverse.dropWhile fun x => key a < key x).reverse) : key x ≤ key a := by
  have hrev : xs.reverse.Pairwise fun a b => key b ≤ key a := List.pairwise_reverse.mpr hs
  have hdrop := hrev.sublist (List.dropWhile_sublist fun x => key a < key x)
  have hx := List.mem_reverse.mp hx
  cases hd : xs.reverse.dropWhile fun x => key a < key x with
  | nil => simp [hd] at hx
  | cons y ys =>
    have hy : key y ≤ key a := by
      have hne : (xs.reverse.dropWhile fun x => key a < key x) ≠ [] := by simp [hd]
      have hnot := List.head_dropWhile_not (fun x => decide (key a < key x)) hne
      simp only [hd, List.head_cons, decide_eq_false_iff_not, not_lt] at hnot
      exact hnot
    rw [hd] at hx hdrop
    rcases List.mem_cons.mp hx with rfl | hx
    · exact hy
    · exact le_trans (List.rel_of_pairwise_cons hdrop hx) hy

theorem insertLast_sorted {xs : List α} (hs : Sorted key xs) (a : α) :
    Sorted key (insertLast key xs a) := by
  have hsplit := split_last key xs a
  have hbefore : ∀ x ∈ (xs.reverse.dropWhile fun x => key a < key x).reverse, key x ≤ key a :=
    fun x hx => le_of_mem_dropWhile key hs hx
  have hbehind : ∀ x ∈ (xs.reverse.takeWhile fun x => key a < key x).reverse, key a < key x :=
    fun x hx => lt_of_mem_takeWhile key hx
  unfold Sorted at hs ⊢
  rw [← hsplit, List.pairwise_append] at hs
  unfold insertLast
  rw [List.pairwise_append]
  refine ⟨hs.1, List.pairwise_cons.mpr ⟨fun x hx => (hbehind x hx).le, hs.2.1⟩, ?_⟩
  intro x hx y hy
  rcases List.mem_cons.mp hy with rfl | hy
  · exact hbefore x hx
  · exact hs.2.2 x hx y hy

/-- The new element comes behind those with its key. -/
theorem filter_insertLast (xs : List α) (a : α) (t : κ) :
    (insertLast key xs a).filter (fun x => key x = t) =
      (xs ++ [a]).filter fun x => key x = t := by
  have hsplit := split_last key xs a
  have hbehind : ∀ x ∈ (xs.reverse.takeWhile fun x => key a < key x).reverse, key a < key x :=
    fun x hx => lt_of_mem_takeWhile key hx
  by_cases ht : key a = t
  · have hnone : (xs.reverse.takeWhile fun x => key a < key x).reverse.filter
        (fun x => key x = t) = [] := by
      rw [List.filter_eq_nil_iff]
      intro x hx heq
      have hlt := hbehind x hx
      have heq : key x = t := of_decide_eq_true heq
      exact absurd hlt (by rw [ht, heq]; exact lt_irrefl t)
    nth_rewrite 2 [← hsplit]
    unfold insertLast
    simp only [List.filter_append, List.filter_cons, hnone, List.append_nil, List.filter_nil]
  · nth_rewrite 2 [← hsplit]
    unfold insertLast
    simp [ht]

/-! ### All arrivals -/

theorem insertAll_snoc (xs : List α) (a : α) :
    insertAll key (xs ++ [a]) = insertLast key (insertAll key xs) a := by
  simp [insertAll]

theorem insertAll_perm (xs : List α) : (insertAll key xs).Perm xs := by
  induction xs using List.reverseRecOn with
  | nil => exact List.Perm.refl _
  | append_singleton xs a ih =>
    rw [insertAll_snoc]
    calc (insertLast key (insertAll key xs) a).Perm (a :: insertAll key xs) := insertLast_perm key _ a
      List.Perm _ (a :: xs) := ih.cons a
      List.Perm _ (xs ++ [a]) := (List.perm_append_singleton a xs).symm

theorem insertAll_sorted (xs : List α) : Sorted key (insertAll key xs) := by
  induction xs using List.reverseRecOn with
  | nil => exact List.Pairwise.nil
  | append_singleton xs a ih =>
    rw [insertAll_snoc]
    exact insertLast_sorted key ih a

/-- Equal keys stand in the order of arrival. -/
theorem filter_insertAll (xs : List α) (t : κ) :
    (insertAll key xs).filter (fun x => key x = t) = xs.filter fun x => key x = t := by
  induction xs using List.reverseRecOn with
  | nil => rfl
  | append_singleton xs a ih => rw [insertAll_snoc, filter_insertLast, List.filter_append, List.filter_append, ih]

/-- Arrivals of distinct keys come to one list, whatever their order. -/
theorem insertAll_congr {xs ys : List α} (hp : xs.Perm ys)
    (hinj : ∀ a ∈ xs, ∀ b ∈ xs, key a = key b → a = b) :
    insertAll key xs = insertAll key ys := by
  have hperm : (insertAll key xs).Perm (insertAll key ys) :=
    ((insertAll_perm key xs).trans hp).trans (insertAll_perm key ys).symm
  apply List.Perm.eq_of_pairwise _ (insertAll_sorted key xs) (insertAll_sorted key ys) hperm
  intro a b ha hb hab hba
  have ha := (insertAll_perm key xs).mem_iff.mp ha
  have hb := hp.mem_iff.mpr ((insertAll_perm key ys).mem_iff.mp hb)
  exact hinj a ha b hb (le_antisymm hab hba)

/-! ### The first of each name -/

variable {ι : Type} [DecidableEq ι] (name : α → ι)

/-- `a` arrives, unless its name is there. -/
def addNew (xs : List α) (a : α) : List α :=
  if xs.any fun x => name x = name a then xs else xs ++ [a]

/-- The arrivals without those whose name came before. -/
def firsts (xs : List α) : List α := xs.foldl (addNew name) []

theorem firsts_snoc (xs : List α) (a : α) :
    firsts name (xs ++ [a]) = addNew name (firsts name xs) a := by
  simp [firsts]

theorem mem_of_mem_firsts {xs : List α} {a : α} (h : a ∈ firsts name xs) : a ∈ xs := by
  induction xs using List.reverseRecOn with
  | nil => simp [firsts] at h
  | append_singleton xs b ih =>
    rw [firsts_snoc, addNew] at h
    split at h
    · exact List.mem_append_left _ (ih h)
    · rcases List.mem_append.mp h with h | h
      · exact List.mem_append_left _ (ih h)
      · exact List.mem_append_right _ h

theorem exists_firsts {xs : List α} {a : α} (h : a ∈ xs) :
    ∃ b ∈ firsts name xs, name b = name a := by
  induction xs using List.reverseRecOn with
  | nil => simp at h
  | append_singleton xs b ih =>
    rw [firsts_snoc, addNew]
    rcases List.mem_append.mp h with h | h
    · obtain ⟨c, hc, hname⟩ := ih h
      split
      · exact ⟨c, hc, hname⟩
      · exact ⟨c, List.mem_append_left _ hc, hname⟩
    · rw [List.mem_singleton.mp h]
      split
      · rename_i hany
        simpa using hany
      · exact ⟨b, by simp, rfl⟩

theorem firsts_nodup (xs : List α) : ((firsts name xs).map name).Nodup := by
  induction xs using List.reverseRecOn with
  | nil => simp [firsts]
  | append_singleton xs a ih =>
    rw [firsts_snoc, addNew]
    split
    · exact ih
    · rename_i hnew
      rw [List.map_append, List.nodup_append]
      refine ⟨ih, by simp, ?_⟩
      intro n hn m hm
      obtain ⟨x, hx, rfl⟩ := List.mem_map.mp hn
      have hm : m = name a := by simpa using hm
      rw [hm]
      intro heq
      exact hnew (List.any_eq_true.mpr ⟨x, hx, by simp [heq]⟩)

/-- Where a name belongs to one element, the first ones are all of them. -/
theorem mem_firsts {xs : List α} (hinj : ∀ a ∈ xs, ∀ b ∈ xs, name a = name b → a = b) {a : α} :
    a ∈ firsts name xs ↔ a ∈ xs := by
  constructor
  · exact mem_of_mem_firsts name
  · intro h
    obtain ⟨b, hb, hname⟩ := exists_firsts name h
    rwa [hinj b (mem_of_mem_firsts name hb) a h hname] at hb

/-- The same elements in another order, and with repetitions. -/
theorem firsts_perm {xs ys : List α} (hinj : ∀ a ∈ xs, ∀ b ∈ xs, name a = name b → a = b)
    (hsame : ∀ a, a ∈ xs ↔ a ∈ ys) : (firsts name xs).Perm (firsts name ys) := by
  have hinj' : ∀ a ∈ ys, ∀ b ∈ ys, name a = name b → a = b :=
    fun a ha b hb => hinj a ((hsame a).mpr ha) b ((hsame b).mpr hb)
  apply (List.perm_ext_iff_of_nodup (firsts_nodup name xs).of_map (firsts_nodup name ys).of_map).mpr
  intro a
  rw [mem_firsts name hinj, mem_firsts name hinj', hsame]

/-- Arrivals that go in unless their name is there are the first ones of each
name, inserted one after another. -/
theorem foldl_insertNew (xs : List α) :
    xs.foldl (fun l a => if l.any fun x => name x = name a then l else insertLast key l a) [] =
      insertAll key (firsts name xs) := by
  induction xs using List.reverseRecOn with
  | nil => rfl
  | append_singleton xs a ih =>
    have hany : (insertAll key (firsts name xs)).any (fun x => name x = name a) =
        (firsts name xs).any fun x => name x = name a :=
        (insertAll_perm key (firsts name xs)).any_eq
    rw [List.foldl_append, ih, List.foldl_cons, List.foldl_nil, hany, firsts_snoc, addNew]
    split
    · rfl
    · rw [insertAll_snoc]

end Stable
