/-
# The weekly limit of renames

A completed rename is recorded with its time (`note_rename_time`), and what
lies more than a week back is pruned then. The window that ends at a moment
counts every recorded rename in it, whatever was pruned
(`filter_renameWindow_noteRenames`). The moment promised for the next rename is the
oldest of these times and a week, and the window that ends there still begins with
that rename: the count is what it was up to the promised moment and at it
(`renamesInWindow_kept`), and falls a second later.

Key definitions: `History.renamesInWindow`, `RenameLimitHonest`.
Key theorems: `filter_renameWindow_noteRenames`, `renamesInWindow_kept`, `renameLimitHonest_iff`.
-/
import Sona.History
import Sona.Lib.Checked

namespace Sona

open History (renameLimitWindowSecs)

/-- The window of the limit that ends at `now`. -/
def renameWindow (now t : ℕ) : Bool := t ≥ now - renameLimitWindowSecs && t ≤ now

/-- How many username changes lie in the window that ends at `now`, and when
the oldest of them leaves it. -/
def History.renamesInWindow (h : History) (now : ℕ) : Checked (ℕ × Option ℕ) :=
  let inWindow := h.ownRenameTimes.filter (renameWindow now)
  match inWindow.min? with
  | none => return (inWindow.length, none)
  | some oldest => do
    let nextFree ← addWord oldest renameLimitWindowSecs
    return (inWindow.length, some nextFree)

/-- The renames at `times` are recorded, one after the other. -/
def History.noteRenames (h : History) (times : List ℕ) : History :=
  times.foldl History.noteRenameTime h

theorem renameWindow_iff {now t : ℕ} :
    renameWindow now t = true ↔ now ≤ t + renameLimitWindowSecs ∧ t ≤ now := by
  simp only [renameWindow, ge_iff_le, Bool.and_eq_true, decide_eq_true_eq]
  omega

/-! ### What is pruned is not counted -/

/-- One recorded rename: later windows see the old ones and the new one. -/
theorem filter_renameWindow_noteRenameTime (h : History) {t now : ℕ} (hlater : t ≤ now) :
    (h.noteRenameTime t).ownRenameTimes.filter (renameWindow now) =
      h.ownRenameTimes.filter (renameWindow now) ++ [t].filter (renameWindow now) := by
  unfold History.noteRenameTime
  rw [List.filter_filter, ← List.filter_append]
  refine List.filter_congr fun a _ => ?_
  -- the window that ends at `now` begins no earlier than the one that was kept at `t`
  have hin : renameWindow now a = true ↔ now ≤ a + renameLimitWindowSecs ∧ a ≤ now :=
    renameWindow_iff
  cases hwindow : renameWindow now a with
  | false => rfl
  | true =>
    have hbounds := hin.mp hwindow
    rw [Bool.true_and, decide_eq_true_eq]
    omega

/-- **Pruning drops nothing that a later window counts.** -/
theorem filter_renameWindow_noteRenames {h : History} (hnew : h.ownRenameTimes = [])
    (times : List ℕ) {now : ℕ} (hlater : ∀ t ∈ times, t ≤ now) :
    (h.noteRenames times).ownRenameTimes.filter (renameWindow now) =
      times.filter (renameWindow now) := by
  induction times using List.reverseRecOn with
  | nil => simp [History.noteRenames, hnew]
  | append_singleton times t ih =>
    have hkept := ih fun a ha => hlater a (List.mem_append_left [t] ha)
    have hlast := hlater t (List.mem_append_right times List.mem_cons_self)
    have hstep : h.noteRenames (times ++ [t]) = (h.noteRenames times).noteRenameTime t := by
      rw [History.noteRenames, List.foldl_append]
      rfl
    rw [hstep, filter_renameWindow_noteRenameTime _ hlast, hkept, List.filter_append]

/-! ### What is counted, and what is promised -/

/-- What a report is made of. -/
theorem renamesInWindow_eq_ok {h : History} {now count : ℕ} {next : Option ℕ}
    (hok : h.renamesInWindow now = .ok (count, next)) :
    count = h.ownRenameTimes.countP (renameWindow now) ∧
      next = (h.ownRenameTimes.filter (renameWindow now)).min?.map (· + renameLimitWindowSecs) := by
  unfold History.renamesInWindow at hok
  dsimp only at hok
  rw [List.countP_eq_length_filter]
  cases hmin : (h.ownRenameTimes.filter (renameWindow now)).min? with
  | none =>
    rw [hmin] at hok
    cases hok
    exact ⟨rfl, rfl⟩
  | some oldest =>
    rw [hmin] at hok
    by_cases hfits : oldest + renameLimitWindowSecs < 2 ^ 64
    · simp only [addWord_eq hfits, Checked.ok_bind] at hok
      cases hok
      exact ⟨rfl, rfl⟩
    · simp only [addWord_overflow (Nat.le_of_not_lt hfits), Checked.error_bind] at hok
      cases hok

/-- **The promised moment is too early.** Up to it, and at it, the window holds
every rename that it held. -/
theorem renamesInWindow_kept {h : History} {now count t : ℕ}
    (hok : h.renamesInWindow now = .ok (count, some t)) {u : ℕ} (hnow : now ≤ u) (hu : u ≤ t) :
    count ≤ h.ownRenameTimes.countP (renameWindow u) := by
  obtain ⟨hcount, hnext⟩ := renamesInWindow_eq_ok hok
  obtain ⟨oldest, hmin, rfl⟩ := Option.map_eq_some_iff.mp hnext.symm
  have hleast := (List.min?_eq_some_iff.mp hmin).2
  rw [hcount]
  refine List.countP_mono_left fun a ha hwindow => ?_
  have hold := hleast a (List.mem_filter.mpr ⟨ha, hwindow⟩)
  have hbounds := renameWindow_iff.mp hwindow
  exact renameWindow_iff.mpr ⟨by omega, by omega⟩

/-- What the limit promises of the renames at `times`. -/
structure RenameLimitHonest (h : History) (times : List ℕ) (now : ℕ) : Prop where
  counts : ∃ next, h.renamesInWindow now = .ok (times.countP (renameWindow now), next)
  frees : ∀ count t, h.renamesInWindow now = .ok (count, some t) →
    ∃ count' next', h.renamesInWindow t = .ok (count', next') ∧ count' < count
  keeps : ∀ count t, h.renamesInWindow now = .ok (count, some t) → ∀ u, now ≤ u → u < t →
    ∃ next', h.renamesInWindow u = .ok (count, next')

/-- **The limit keeps its promise only where it makes none**: when every recorded rename is more
than a week back. Its count is exact at every later time. -/
theorem renameLimitHonest_iff {h : History} (hnew : h.ownRenameTimes = []) {times : List ℕ}
    {now : ℕ} (hlater : ∀ t ∈ times, t ≤ now) :
    (∀ later, now ≤ later → ∀ count next, (h.noteRenames times).renamesInWindow later =
      .ok (count, next) →
      count = times.countP (renameWindow later)) ∧
    (RenameLimitHonest (h.noteRenames times) times now ↔
      ∀ t ∈ times, t + renameLimitWindowSecs < now) := by
  have hcounted : ∀ later, now ≤ later →
      (h.noteRenames times).ownRenameTimes.filter (renameWindow later) = times.filter
      (renameWindow later) :=
    fun later hle => filter_renameWindow_noteRenames hnew times
    fun t ht => le_trans (hlater t ht) hle
  refine ⟨fun later hle count next hok => ?_, fun honest t ht => ?_, fun hpast => ?_⟩
  · rw [(renamesInWindow_eq_ok hok).1, List.countP_eq_length_filter, List.countP_eq_length_filter,
      hcounted later hle]
  · -- a rename of the window makes a promise, and at the promised moment the count has not fallen
    by_contra! hrecent
    obtain ⟨next, hok⟩ := honest.counts
    have hin : t ∈ (h.noteRenames times).ownRenameTimes.filter (renameWindow now) := by
      rw [hcounted now le_rfl]
      exact List.mem_filter.mpr ⟨ht, renameWindow_iff.mpr ⟨hrecent, hlater t ht⟩⟩
    obtain ⟨oldest, hmin⟩ := Option.isSome_iff_exists.mp (List.isSome_min?_of_mem hin)
    have hnext := (renamesInWindow_eq_ok hok).2
    rw [hmin, Option.map_some] at hnext
    subst hnext
    obtain ⟨count', next', hok', hfell⟩ := honest.frees _ _ hok
    have hmem := (List.mem_filter.mp (List.min?_eq_some_iff.mp hmin).1).2
    have hkept := renamesInWindow_kept hok (renameWindow_iff.mp hmem).1 le_rfl
    rw [← (renamesInWindow_eq_ok hok').1] at hkept
    omega
  · have hnone : (h.noteRenames times).ownRenameTimes.filter (renameWindow now) = [] := by
      rw [hcounted now le_rfl, List.filter_eq_nil_iff]
      intro t ht hwindow
      have hbounds := renameWindow_iff.mp hwindow
      have hweek := hpast t ht
      omega
    have hcount : times.countP (renameWindow now) = 0 := by
      rw [List.countP_eq_length_filter, ← hcounted now le_rfl, hnone, List.length_nil]
    have hok : (h.noteRenames times).renamesInWindow now = .ok (0, none) := by
      unfold History.renamesInWindow
      rw [hnone]
      rfl
    exact {
      counts := ⟨none, by rw [hcount]; exact hok⟩
      frees := fun count t h => by rw [hok] at h; cases h
      keeps := fun count t h => by rw [hok] at h; cases h }

theorem renameLimitHonest_iff_two :
    (∀ later, 500000 ≤ later → ∀ count next,
      (History.noteRenames {} [86400, 172800]).renamesInWindow later = .ok (count, next) →
      count = [86400, 172800].countP (renameWindow later)) ∧
    (RenameLimitHonest (History.noteRenames {} [86400, 172800]) [86400, 172800] 500000 ↔
      ∀ t ∈ [86400, 172800], t + renameLimitWindowSecs < 500000) :=
  renameLimitHonest_iff rfl (by decide)

/-- One rename, and the moment that is promised for it: the count is still one. -/
theorem renames_promise_early :
    ¬ RenameLimitHonest (History.noteRenames {} [86400]) [86400] 86400 := by
  intro honest
  obtain ⟨count', next', hok', hfell⟩ := honest.frees 1 691200 (by decide +kernel)
  have hkept : (History.noteRenames {} [86400]).renamesInWindow 691200 = .ok (1, some 691200) := by
    decide +kernel
  cases hkept.symm.trans hok'
  omega

end Sona
