/-
# Lists by recent use

A bounded list of items that puts what was used last in front: a new item comes in at the
front and what is past the bound is dropped (`Recent.push`), and an item that is
used goes to the front (`Recent.promote`). What such a list is worth is said against
the log of all uses, the last one first: its keys were all used, and they stand in the
order of their last uses (`Recent.Ordered`), so that what is dropped was used the
longest ago.

Key definitions: `Recent.push`, `Recent.promote`, `Recent.Ordered`.
Key theorems: `Recent.Ordered.front`, `Recent.Ordered.promote`, `Recent.promote_perm`.
-/
import Mathlib.Data.List.InsertIdx
import Mathlib.Data.List.Nodup
import Mathlib.Data.List.Perm.Basic

namespace Recent

variable {α K : Type}

/-- A new item is put in front, and the list is cut at the bound. -/
def push (cap : ℕ) (a : α) (l : List α) : List α := (a :: l).take cap

/-- The item at the place is put in front. -/
def promote (i : ℕ) (l : List α) : List α :=
  match l[i]? with
  | some a => a :: l.eraseIdx i
  | none => l

theorem length_push_le (cap : ℕ) (a : α) (l : List α) : (push cap a l).length ≤ cap :=
  List.length_take_le cap _

theorem push_sublist (cap : ℕ) (a : α) (l : List α) : (push cap a l).Sublist (a :: l) :=
  List.take_sublist cap _

theorem mem_push_self {cap : ℕ} (hcap : 0 < cap) (a : α) (l : List α) : a ∈ push cap a l := by
  cases cap with
  | zero => omega
  | succ n => simp [push]

theorem promote_of_get {l : List α} {i : ℕ} {a : α} (h : l[i]? = some a) :
    promote i l = a :: l.eraseIdx i := by
  unfold promote
  rw [h]

theorem cons_eraseIdx_perm {l : List α} {i : ℕ} {a : α} (h : l[i]? = some a) :
    (a :: l.eraseIdx i).Perm l := by
  obtain ⟨hi, rfl⟩ := List.getElem?_eq_some_iff.mp h
  exact List.getElem_cons_eraseIdx_perm hi

/-- What is put in front was there. -/
theorem promote_perm (i : ℕ) (l : List α) : (promote i l).Perm l := by
  unfold promote
  split
  · rename_i a h
    exact cons_eraseIdx_perm h
  · exact List.Perm.refl l

theorem map_promote {β : Type} (f : α → β) (i : ℕ) (l : List α) :
    (promote i l).map f = promote i (l.map f) := by
  unfold promote
  rw [List.getElem?_map]
  cases h : l[i]? with
  | none => rfl
  | some a => simp [List.eraseIdx_map]

variable [DecidableEq K]

/-- The keys were all used, and stand by their last uses. The log has the last use first. -/
structure Ordered (log ks : List K) : Prop where
  used : ∀ k ∈ ks, k ∈ log
  order : ks.Pairwise fun a b => log.idxOf a < log.idxOf b

variable {log ks ks' : List K} {k : K}

theorem Ordered.nil (log : List K) : Ordered log [] := ⟨by simp, List.Pairwise.nil⟩

theorem Ordered.sublist (h : Ordered log ks) (hs : ks'.Sublist ks) : Ordered log ks' :=
  ⟨fun k hk => h.used k (hs.subset hk), h.order.sublist hs⟩

theorem Ordered.nodup (h : Ordered log ks) : ks.Nodup :=
  h.order.imp fun {a b} hlt heq => by
    subst heq
    omega

/-- A use of another key changes no order. -/
theorem Ordered.other (h : Ordered log ks) (hk : k ∉ ks) : Ordered (k :: log) ks := by
  have hidx : ∀ a ∈ ks, (k :: log).idxOf a = log.idxOf a + 1 := by
    intro a ha
    have hne : k ≠ a := by
      rintro rfl
      exact hk ha
    exact List.idxOf_cons_ne log hne
  refine ⟨fun a ha => List.mem_cons_of_mem k (h.used a ha), ?_⟩
  refine h.order.imp_of_mem ?_
  intro a b ha hb hlt
  have ha' := hidx a ha
  have hb' := hidx b hb
  omega

/-- A key that is used now comes before all others. -/
theorem Ordered.front (h : Ordered log ks) (hk : k ∉ ks) : Ordered (k :: log) (k :: ks) := by
  have hother := h.other hk
  refine ⟨fun a ha => ?_, List.pairwise_cons.mpr ⟨fun a ha => ?_, hother.order⟩⟩
  · rcases List.mem_cons.mp ha with rfl | ha
    · exact List.mem_cons_self
    · exact hother.used a ha
  · have hne : k ≠ a := by
      rintro rfl
      exact hk ha
    have hself : (k :: log).idxOf k = 0 := List.idxOf_cons_self
    have hnext : (k :: log).idxOf a = log.idxOf a + 1 := List.idxOf_cons_ne log hne
    omega

/-- So does one that was there. -/
theorem Ordered.promote {i : ℕ} (h : Ordered log ks) (hi : ks[i]? = some k) :
    Ordered (k :: log) (promote i ks) := by
  have hnodup : (k :: ks.eraseIdx i).Nodup := (cons_eraseIdx_perm hi).nodup_iff.mpr h.nodup
  rw [promote_of_get hi]
  exact (h.sublist (List.eraseIdx_sublist ks i)).front (List.nodup_cons.mp hnodup).1

end Recent
