/-
# Pinned rosters do not go back

`History::apply_roster_update` for one name: a pin moves forward along two numbers,
the binding and, under one account key, the epoch of the roster (`RosterPin.Advances`);
it changes its key only with a higher binding and goes away only for another key
with a higher binding (`PinStep`). What one update may do holds over every run in
which the pin stays (`unbroken_run`).

The epoch that is pinned is taken again, with the device list it comes with
(`same_epoch_relists`): only a lower one is refused.

Key definitions: `RosterPin.Advances`, `PinStep`, `RollbackFree`.
-/
import Sona.History
import Sona.Lib.Trace

namespace Sona

/-- A pin takes the place of another: under the same key neither number goes back,
and another key comes with a higher binding. -/
def RosterPin.Advances (p q : RosterPin) : Prop :=
  if p.primaryKey = q.primaryKey then p.bindingSeq ≤ q.bindingSeq ∧ p.seq ≤ q.seq else p.bindingSeq < q.bindingSeq

theorem RosterPin.rolledBack_iff {p q : RosterPin} :
    p.rolledBack q.bindingSeq q.seq q.primaryKey = true ↔ ¬ p.Advances q := by
  unfold RosterPin.rolledBack RosterPin.Advances
  by_cases hkey : p.primaryKey = q.primaryKey
  · simp only [if_pos hkey, Bool.or_eq_true, decide_eq_true_eq, not_and_or, Nat.not_le]
  · simp only [if_neg hkey, decide_eq_true_eq, Nat.not_lt]

theorem RosterPin.Advances.refl (p : RosterPin) : p.Advances p := by
  unfold RosterPin.Advances
  simp

theorem RosterPin.Advances.bindingSeq_le {p q : RosterPin} (h : p.Advances q) :
    p.bindingSeq ≤ q.bindingSeq := by
  unfold RosterPin.Advances at h
  split at h
  · exact h.1
  · omega

/-! ### One update -/

/-- What an update makes of a pin. -/
inductive PinStep (update : RosterUpdate) : Option RosterPin → Option RosterPin → Prop
  | same (pin : Option RosterPin) : (∀ b s k ds, update ≠ .verified b s k ds) → PinStep update pin pin
  | pinned (pin : Option RosterPin) (q : RosterPin) : update = .verified q.bindingSeq q.seq q.primaryKey q.devices →
      (∀ p, pin = some p → p.Advances q) → PinStep update pin (some q)
  | dropped (p : RosterPin) (key : String)
      (bindingSeq : ℕ) : update = .absent key bindingSeq → key ≠ p.primaryKey →
      p.bindingSeq < bindingSeq → PinStep update (some p) none

theorem clearPinnedRoster_pin (h : History) (username : String) :
    (h.clearPinnedRoster username).contactRosters.get username = none := by
  unfold History.clearPinnedRoster
  cases hpin : h.contactRosters.get username with
  | none => exact hpin
  | some pin => exact Table.get_remove_self _ _

/-- **An update is refused, with the history as it was, or it moves the pin.** -/
theorem applyRosterUpdate_cases (h : History) (username : String) (update : RosterUpdate) :
    (∃ e, h.applyRosterUpdate username update = (.error e, h)) ∨
      (∃ h', h.applyRosterUpdate username update = (.ok (), h') ∧
        PinStep update (h.contactRosters.get username) (h'.contactRosters.get username)) := by
  cases update with
  | stale => exact Or.inr ⟨h, rfl, .same _ fun b s k ds => by simp⟩
  | absent key bindingSeq =>
    unfold History.applyRosterUpdate
    dsimp only
    cases hpin : h.contactRosters.get username with
    | none => exact Or.inr ⟨h, rfl, by rw [hpin]; exact .same _ fun b s k ds => by simp⟩
    | some p =>
      dsimp only
      split
      · rename_i hmoved
        refine Or.inr ⟨_, rfl, ?_⟩
        rw [clearPinnedRoster_pin]
        exact .dropped p key bindingSeq rfl (Ne.symm hmoved.1) hmoved.2
      · exact Or.inl ⟨_, rfl⟩
  | verified bindingSeq seq key devices =>
    unfold History.applyRosterUpdate History.pinRoster
    dsimp only
    cases hpin : h.contactRosters.get username with
    | none =>
      refine Or.inr ⟨_, rfl, ?_⟩
      rw [Table.get_set_self]
      exact .pinned none ⟨seq, bindingSeq, key, devices⟩ rfl fun p hp => by cases hp
    | some p =>
      dsimp only
      split
      · exact Or.inl ⟨_, rfl⟩
      · rename_i hback
        refine Or.inr ⟨_, rfl, ?_⟩
        rw [Table.get_set_self]
        refine .pinned _ ⟨seq, bindingSeq, key, devices⟩ rfl fun p' hp => ?_
        cases hp
        exact not_not.mp fun hnot => hback (RosterPin.rolledBack_iff.mpr hnot)

/-! ### Runs -/

def rosterStep (username : String) (h : History) (update : RosterUpdate) : History :=
  (h.applyRosterUpdate username update).2

/-- What an update may do to the pin of the name. -/
structure RollbackFree (username : String) (h : History) (update : RosterUpdate) : Prop where
  refused : ∀ e h', h.applyRosterUpdate username update = (.error e, h') → h' = h
  advances : ∀ p q, h.contactRosters.get username = some p →
    (rosterStep username h update).contactRosters.get username = some q →
    p.Advances q
  dropped : ∀ p, h.contactRosters.get username = some p →
    (rosterStep username h update).contactRosters.get username = none →
    ∃ key bindingSeq, update = .absent key bindingSeq ∧ key ≠ p.primaryKey ∧
    p.bindingSeq < bindingSeq
  /-- The epoch that is pinned is taken again, with its device list. -/
  relisted : ∀ p devices, h.contactRosters.get username = some p →
    update = .verified p.bindingSeq p.seq p.primaryKey devices →
    (rosterStep username h update).contactRosters.get username = some { p with devices }
  /-- And nothing else lists other devices under the numbers that are pinned. -/
  listed : ∀ p q, h.contactRosters.get username = some p →
    (rosterStep username h update).contactRosters.get username = some q →
    q = p ∨ update = .verified q.bindingSeq q.seq q.primaryKey q.devices

/-- **Every update is free of rollback**, in any history. -/
theorem rollbackFree (username : String) (h : History) (update : RosterUpdate) :
    RollbackFree username h update := by
  have hcases := applyRosterUpdate_cases h username update
  refine { refused := ?_, advances := ?_, dropped := ?_, relisted := ?_, listed := ?_ }
  · intro e h' he
    rcases hcases with ⟨e', hr⟩ | ⟨h'', hr, -⟩
    · rw [hr] at he
      cases he
      rfl
    · rw [hr] at he
      cases he
  · intro p q hp hq
    unfold rosterStep at hq
    rcases hcases with ⟨e, hr⟩ | ⟨h', hr, hstep⟩
    · rw [hr] at hq
      cases hp.symm.trans hq
      exact .refl p
    · rw [hr] at hq
      rw [hp, hq] at hstep
      cases hstep with
      | same _ _ => exact .refl p
      | pinned _ _ _ hadv => exact hadv p rfl
  · intro p hp hnone
    unfold rosterStep at hnone
    rcases hcases with ⟨e, hr⟩ | ⟨h', hr, hstep⟩
    · rw [hr] at hnone
      cases hp.symm.trans hnone
    · rw [hr] at hnone
      rw [hp, hnone] at hstep
      cases hstep with
      | dropped _ key bindingSeq hupdate hkey hlt => exact ⟨key, bindingSeq, hupdate, hkey, hlt⟩
  · rintro p devices hp rfl
    unfold rosterStep History.applyRosterUpdate History.pinRoster
    dsimp only
    have hback : ¬ p.rolledBack p.bindingSeq p.seq p.primaryKey = true :=
      fun hback => RosterPin.rolledBack_iff.mp hback (.refl p)
    rw [hp]
    dsimp only
    rw [if_neg hback]
    exact Table.get_set_self _ _ _
  · intro p q hp hq
    unfold rosterStep at hq
    rcases hcases with ⟨e, hr⟩ | ⟨h', hr, hstep⟩
    · rw [hr] at hq
      exact Or.inl (Option.some.inj (hq.symm.trans hp))
    · rw [hr] at hq
      rw [hp, hq] at hstep
      cases hstep with
      | same _ _ => exact Or.inl rfl
      | pinned _ _ hupdate _ => exact Or.inr hupdate

/-- The name is pinned in every state of the run. -/
def Unbroken (username : String) (h : History) (updates : List RosterUpdate) : Prop :=
  ∀ pre, pre <+: updates → (Trace.run (rosterStep username) h pre).contactRosters.get username ≠ none

/-- **While a name is pinned, its binding does not go back, its key changes only with
a higher one, and under one key the epoch does not go back.** -/
theorem unbroken_run (username : String) (h : History) (updates : List RosterUpdate)
    (hu : Unbroken username h updates) {p q : RosterPin}
    (hp : h.contactRosters.get username = some p)
    (hq : (Trace.run (rosterStep username) h updates).contactRosters.get username = some q) :
    p.bindingSeq ≤ q.bindingSeq ∧ (p.primaryKey ≠ q.primaryKey → p.bindingSeq < q.bindingSeq) ∧
      ((∀ pre r, pre <+: updates → (Trace.run (rosterStep username) h pre).contactRosters.get username = some r →
        r.primaryKey = p.primaryKey) → p.seq ≤ q.seq) := by
  induction updates using List.reverseRecOn generalizing q with
  | nil =>
    cases hp.symm.trans hq
    exact ⟨le_refl _, fun hne => absurd rfl hne, fun _ => le_refl _⟩
  | append_singleton updates update ih =>
    have hpre : updates <+: updates ++ [update] := List.prefix_append _ _
    obtain ⟨r, hr⟩ := Option.ne_none_iff_exists'.mp (hu updates hpre)
    obtain ⟨hle, hlt, hseq⟩ := ih (fun pre h' => hu pre (h'.trans hpre)) hr
    rw [Trace.run_snoc] at hq
    have hstep : r.Advances q := (rollbackFree username _ update).advances r q hr hq
    refine ⟨hle.trans hstep.bindingSeq_le, fun hne => ?_, fun hsame => ?_⟩
    · unfold RosterPin.Advances at hstep
      split at hstep
      · rename_i hkey
        exact Nat.lt_of_lt_of_le (hlt (hkey ▸ hne)) hstep.1
      · omega
    · have hrkey := hsame updates r hpre hr
      have hqkey := hsame (updates ++ [update]) q (List.prefix_refl _)
        (by rw [Trace.run_snoc]; exact hq)
      unfold RosterPin.Advances at hstep
      rw [if_pos (hrkey.trans hqkey.symm)] at hstep
      exact (hseq fun pre r' h' => hsame pre r' (h'.trans hpre)).trans hstep.2

/-- **Roster anti-rollback**: what the updates of a run do to the pin of the name, one
by one and from any state to any later one. -/
theorem roster_anti_rollback (username : String) (h : History) (updates : List RosterUpdate) :
    Trace.Along (rosterStep username) (RollbackFree username) h updates ∧
      ∀ pre mid, pre ++ mid <+: updates →
      Unbroken username (Trace.run (rosterStep username) h pre) mid → ∀ p q,
        (Trace.run (rosterStep username) h pre).contactRosters.get username = some p →
        (Trace.run (rosterStep username) h (pre ++ mid)).contactRosters.get username = some q →
        p.bindingSeq ≤ q.bindingSeq ∧ (p.primaryKey ≠ q.primaryKey → p.bindingSeq < q.bindingSeq) ∧
          ((∀ m r, m <+: mid → (Trace.run (rosterStep username) h (pre ++ m)).contactRosters.get username = some r →
            r.primaryKey = p.primaryKey) → p.seq ≤ q.seq) := by
  refine ⟨Trace.along_of_split _ _ _ _ fun pre e _ _ => rollbackFree username _ e, ?_⟩
  intro pre mid _ hu p q hp hq
  rw [Trace.run_append] at hq
  obtain ⟨hle, hlt, hseq⟩ := unbroken_run username _ mid hu hp hq
  refine ⟨hle, hlt, fun hsame => hseq fun m r hm hr => hsame m r hm ?_⟩
  rw [Trace.run_append]
  exact hr

/-- A device list for an epoch, and another one for the same epoch. -/
def relistUpdates : List RosterUpdate :=
  [.verified 4 7 "ka" [⟨primaryDeviceId, "ka", "sa"⟩],
    .verified 4 7 "ka" [⟨primaryDeviceId, "ka", "sa"⟩, ⟨"00000000000000000000000000000002", "kb", "sb"⟩]]

/-- **An epoch is pinned with two different device lists.** -/
theorem same_epoch_relists :
    ¬ ∀ (username : String) (h : History) (updates pre mid : List RosterUpdate), pre ++ mid <+: updates →
      Unbroken username (Trace.run (rosterStep username) h pre) mid → ∀ p q,
      (Trace.run (rosterStep username) h pre).contactRosters.get username = some p →
      (Trace.run (rosterStep username) h (pre ++ mid)).contactRosters.get username = some q →
      p.primaryKey = q.primaryKey → p.bindingSeq = q.bindingSeq → p.seq = q.seq →
      p.devices = q.devices := by
  intro hall
  have hfirst : (Trace.run (rosterStep "alice") {} (relistUpdates.take 1)).contactRosters.get "alice" =
      some ⟨7, 4, "ka", [⟨primaryDeviceId, "ka", "sa"⟩]⟩ := by decide +kernel
  have hsecond :
      (Trace.run (rosterStep "alice") {} (relistUpdates.take 1 ++ relistUpdates.drop 1)).contactRosters.get
      "alice" = some ⟨7, 4, "ka", [⟨primaryDeviceId, "ka", "sa"⟩, ⟨"00000000000000000000000000000002", "kb", "sb"⟩]⟩ := by
    decide +kernel
  have hunbroken : Unbroken "alice" (Trace.run (rosterStep "alice") {} (relistUpdates.take 1))
      (relistUpdates.drop 1) := by
    intro pre hpre
    rcases List.prefix_cons_iff.mp hpre with rfl | ⟨rest, rfl, hrest⟩
    · rw [Trace.run_nil, hfirst]
      simp
    · rw [List.prefix_nil.mp hrest, ← Trace.run_append]
      exact ne_of_eq_of_ne hsecond (by simp)
  have hsame := hall "alice" {} relistUpdates (relistUpdates.take 1) (relistUpdates.drop 1)
    (by decide) hunbroken _ _ hfirst hsecond rfl rfl rfl
  exact absurd hsame (by decide)

end Sona
