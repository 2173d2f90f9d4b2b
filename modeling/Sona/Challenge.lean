/-
# Login nonces

`ChallengeStore` of `server/src/auth.rs`: for each hash a short list of live
nonces with their expiries, oldest first. The random nonce of an `issue` is an
argument, since the environment chooses it.

Every step keeps the list of a hash within the nonces issued for it, in order
(`entries_step_sublist`), which is all that replay safety needs; that a nonce
in flight stays is the other direction (`Kept`). `nonces_single_use` has both.

The ceiling over all hashes binds those that have no nonce; a hash that has one
gets more of them at the ceiling too (`nonce_ceiling_iff`, `nonce_ceiling_broken`).

Key definitions: `ChallengeStore.issue`, `ChallengeStore.consume`, `ChallengeOp`, `Kept`,
`ChallengeStore.Roomy`. Key theorems: `entries_step_sublist`, `kept_run`, `nonces_single_use`,
`live_step`, `nonce_ceiling_iff`.
-/
import Mathlib.Data.List.Induction
import Sona.Lib.Delimited
import Sona.Lib.Table
import Sona.Lib.Trace

namespace Sona

/-! ### The store -/

/-- How long a login nonce is valid, in seconds. -/
def nonceTtlSecs : ℕ := 60

/-- Live nonces one hash may hold at once. -/
def maxNoncesPerHash : ℕ := 64

/-- Outstanding nonces over all hashes. -/
def maxNonces : ℕ := 100000

structure ChallengeStore where
  nonces : Table String (List (String × ℕ)) := ∅

/-- The nonces a `retain` of the unexpired ones keeps. -/
def liveNonces (now : ℕ) (set : List (String × ℕ)) : List (String × ℕ) :=
  set.filter fun p => now < p.2

/-- All live nonces, over every hash. -/
def ChallengeStore.live (cs : ChallengeStore) : ℕ := cs.nonces.total List.length

def ChallengeStore.sweep (cs : ChallengeStore) (now : ℕ) : ChallengeStore :=
  ⟨cs.nonces.filterMap fun _ set =>
    let set := liveNonces now set
    if set.isEmpty then none else some set⟩

/-- The part of `issue` after its opportunistic sweep. -/
def ChallengeStore.addNonce (cs : ChallengeStore) (hash nonce : String) (now : ℕ) :
    ChallengeStore :=
  -- at the ceiling a hash without a set gets its nonce back unstored
  if cs.live ≥ maxNonces ∧ cs.nonces.get hash = none then cs else
  let set := liveNonces now ((cs.nonces.get hash).getD [])
  let set := if set.length ≥ maxNoncesPerHash then set.drop 1 else set
  ⟨cs.nonces.set hash (set ++ [(nonce, now + nonceTtlSecs)])⟩

def ChallengeStore.issue (cs : ChallengeStore) (hash nonce : String) (now : ℕ) :
    String × ChallengeStore :=
  let cs := if cs.live ≥ 1024 then cs.sweep now else cs
  (nonce, cs.addNonce hash nonce now)

/-- The table with the set of `hash` written back, or without it when it is empty. -/
def putSet (nonces : Table String (List (String × ℕ))) (hash : String) (set : List (String × ℕ)) :
    Table String (List (String × ℕ)) :=
  if set.isEmpty then nonces.remove hash else nonces.set hash set

def ChallengeStore.consume (cs : ChallengeStore) (hash nonce : String) (now : ℕ) :
    Bool × ChallengeStore :=
  match cs.nonces.get hash with
  | none => (false, cs)
  | some set =>
    match set.find? fun p => p.1 == nonce with
    | none => (false, ⟨putSet cs.nonces hash (liveNonces now set)⟩)
    | some (_, expires) =>
      (now < expires, ⟨putSet cs.nonces hash (set.eraseP fun p => p.1 == nonce)⟩)

/-! ### What each call does to the set of one hash -/

/-- The nonces held for `hash`. -/
def ChallengeStore.entries (cs : ChallengeStore) (hash : String) : List (String × ℕ) :=
  (cs.nonces.get hash).getD []

theorem entries_sweep (cs : ChallengeStore) (now : ℕ) (hash : String) :
    (cs.sweep now).entries hash = liveNonces now (cs.entries hash) := by
  unfold ChallengeStore.entries ChallengeStore.sweep
  rw [Table.get_filterMap]
  cases cs.nonces.get hash with
  | none => rfl
  | some set =>
    simp only [Option.bind_some, Option.getD_some, List.isEmpty_iff]
    split
    · rename_i h; rw [h]; rfl
    · rfl

theorem liveNonces_idem (now : ℕ) (set : List (String × ℕ)) :
    liveNonces now (liveNonces now set) = liveNonces now set := by
  simp [liveNonces, List.filter_filter]

theorem entries_addNonce_ne (cs : ChallengeStore) {hash other : String} (nonce : String) (now : ℕ)
    (h : other ≠ hash) : (cs.addNonce hash nonce now).entries other = cs.entries other := by
  unfold ChallengeStore.addNonce
  split
  · rfl
  · simp [ChallengeStore.entries, Table.get_set_ne _ _ h]

/-- The set with room for one more: over the cap it loses its oldest. -/
def roomForOne (set : List (String × ℕ)) : List (String × ℕ) :=
  if set.length ≥ maxNoncesPerHash then set.drop 1 else set

theorem roomForOne_sublist (set : List (String × ℕ)) : (roomForOne set).Sublist set := by
  unfold roomForOne
  split
  · exact List.drop_sublist _ _
  · exact List.Sublist.refl _

theorem entries_addNonce (cs : ChallengeStore) (hash nonce : String) (now : ℕ) :
    ((cs.addNonce hash nonce now).entries hash = [] ∧ cs.entries hash = []) ∨
      (cs.addNonce hash nonce now).entries hash =
        roomForOne (liveNonces now (cs.entries hash)) ++ [(nonce, now + nonceTtlSecs)] := by
  unfold ChallengeStore.addNonce
  split
  · rename_i hfull
    exact Or.inl (by simp [ChallengeStore.entries, hfull.2])
  · exact Or.inr (by simp [ChallengeStore.entries, roomForOne])

/-- A set of another hash is swept or left alone by an `issue`. -/
theorem entries_issue_ne (cs : ChallengeStore) {hash other : String} (nonce : String) (now : ℕ)
    (h : other ≠ hash) :
    (cs.issue hash nonce now).2.entries other = cs.entries other ∨
      (cs.issue hash nonce now).2.entries other = liveNonces now (cs.entries other) := by
  unfold ChallengeStore.issue
  dsimp only
  rw [entries_addNonce_ne _ _ _ h]
  split
  · exact Or.inr (entries_sweep cs now other)
  · exact Or.inl rfl

/-- An `issue` sheds the expired nonces of its hash and then adds the new one
at the end, over the cap without the oldest; or it stores nothing, when nothing
live was held. -/
theorem entries_issue (cs : ChallengeStore) (hash nonce : String) (now : ℕ) :
    ((cs.issue hash nonce now).2.entries hash = [] ∧ liveNonces now (cs.entries hash) = []) ∨
      (cs.issue hash nonce now).2.entries hash =
        roomForOne (liveNonces now (cs.entries hash)) ++ [(nonce, now + nonceTtlSecs)] := by
  unfold ChallengeStore.issue
  dsimp only
  by_cases hs : cs.live ≥ 1024
  · have h := entries_addNonce (cs.sweep now) hash nonce now
    rw [entries_sweep, liveNonces_idem] at h
    rwa [if_pos hs]
  · rw [if_neg hs]
    exact (entries_addNonce cs hash nonce now).imp_left fun h => ⟨h.1, by rw [h.2]; rfl⟩

theorem get_putSet_self (nonces : Table String (List (String × ℕ))) (hash : String)
    (set : List (String × ℕ)) :
    ((putSet nonces hash set).get hash).getD [] = set := by
  unfold putSet
  cases set <;> simp

theorem get_putSet_ne (nonces : Table String (List (String × ℕ))) {hash other : String}
    (set : List (String × ℕ)) (h : other ≠ hash) :
    (putSet nonces hash set).get other = nonces.get other := by
  unfold putSet
  split
  · exact Table.get_remove_ne _ h
  · exact Table.get_set_ne _ _ h

theorem entries_consume_ne (cs : ChallengeStore) {hash other : String} (nonce : String) (now : ℕ)
    (h : other ≠ hash) : (cs.consume hash nonce now).2.entries other = cs.entries other := by
  unfold ChallengeStore.consume
  split
  · rfl
  · split <;> simp [ChallengeStore.entries, get_putSet_ne _ _ h]

/-- A `consume` takes its nonce out; without a match it sheds what is expired. -/
theorem entries_consume (cs : ChallengeStore) (hash nonce : String) (now : ℕ) :
    (cs.consume hash nonce now).2.entries hash =
      match (cs.entries hash).find? fun p => p.1 == nonce with
      | none => liveNonces now (cs.entries hash)
      | some _ => (cs.entries hash).eraseP fun p => p.1 == nonce := by
  unfold ChallengeStore.consume
  cases hg : cs.nonces.get hash with
  | none => simp [ChallengeStore.entries, hg, liveNonces]
  | some set =>
    rw [show cs.entries hash = set by simp [ChallengeStore.entries, hg]]
    cases hf : set.find? fun p => p.1 == nonce with
    | none => simp [ChallengeStore.entries, hf, get_putSet_self]
    | some p => simp [ChallengeStore.entries, hf, get_putSet_self]

/-- A `consume` answers yes when its nonce is held and the entry is not expired. -/
theorem consume_answer (cs : ChallengeStore) (hash nonce : String) (now : ℕ) :
    (cs.consume hash nonce now).1 = true ↔
      ∃ expires, (cs.entries hash).find? (fun p => p.1 == nonce) = some (nonce, expires) ∧
      now < expires := by
  unfold ChallengeStore.consume ChallengeStore.entries
  cases hg : cs.nonces.get hash with
  | none => simp
  | some set =>
    cases hf : set.find? fun p => p.1 == nonce with
    | none => simp [hf]
    | some p =>
      have hp : p.1 = nonce := by simpa using List.find?_some hf
      obtain ⟨name, expires⟩ := p
      simp only at hp
      subst hp
      simp [hf]

/-! ### Runs -/

/-- The calls on the store. -/
inductive ChallengeOp
  | issue (hash nonce : String) (now : ℕ)
  | consume (hash nonce : String) (now : ℕ)
  | sweep (now : ℕ)

def ChallengeOp.time : ChallengeOp → ℕ
  | .issue _ _ now | .consume _ _ now | .sweep now => now

def challengeStep (cs : ChallengeStore) : ChallengeOp → ChallengeStore
  | .issue hash nonce now => (cs.issue hash nonce now).2
  | .consume hash nonce now => (cs.consume hash nonce now).2
  | .sweep now => cs.sweep now

/-- The store after the calls `ops`. -/
def challengesAfter (ops : List ChallengeOp) : ChallengeStore := Trace.run challengeStep {} ops

/-- The answer of a `consume` after the calls `ops`. -/
def answer (ops : List ChallengeOp) (hash nonce : String) (now : ℕ) : Bool :=
  ((challengesAfter ops).consume hash nonce now).1

/-- The nonce a call issues. -/
def ChallengeOp.nonce? : ChallengeOp → Option String
  | .issue _ nonce _ => some nonce
  | _ => none

/-- The entry a call issues for `hash`. -/
def ChallengeOp.issued? (hash : String) : ChallengeOp → Option (String × ℕ)
  | .issue h nonce now => if h = hash then some (nonce, now + nonceTtlSecs) else none
  | _ => none

/-- The nonces issued by `ops`. -/
def noncesOf (ops : List ChallengeOp) : List String := ops.filterMap (·.nonce?)

/-- The entries issued for `hash` by `ops`, in order. -/
def issuesFor (hash : String) (ops : List ChallengeOp) : List (String × ℕ) :=
  ops.filterMap (·.issued? hash)

theorem issuesFor_append (hash : String) (ops more : List ChallengeOp) :
    issuesFor hash (ops ++ more) = issuesFor hash ops ++ issuesFor hash more :=
  List.filterMap_append

theorem noncesOf_append (ops more : List ChallengeOp) :
    noncesOf (ops ++ more) = noncesOf ops ++ noncesOf more :=
  List.filterMap_append

theorem liveNonces_sublist (now : ℕ) (set : List (String × ℕ)) : (liveNonces now set).Sublist set :=
  List.filter_sublist

/-- A call adds to the set of a hash at most what it issues for it. -/
theorem entries_step_sublist (cs : ChallengeStore) (op : ChallengeOp) (hash : String) :
    ((challengeStep cs op).entries hash).Sublist (cs.entries hash ++ issuesFor hash [op]) := by
  cases op with
  | issue h nonce now =>
    by_cases hh : h = hash
    · subst hh
      simp only [challengeStep, issuesFor, ChallengeOp.issued?, List.filterMap_cons, if_true,
        List.filterMap_nil]
      rcases entries_issue cs h nonce now with ⟨h0, -⟩ | h0
      · rw [h0]; exact List.nil_sublist _
      · rw [h0]
        exact ((roomForOne_sublist _).trans (liveNonces_sublist now _)).append (List.Sublist.refl _)
    · simp only [challengeStep, issuesFor, ChallengeOp.issued?, List.filterMap_cons, if_neg hh,
        List.filterMap_nil, List.append_nil]
      rcases entries_issue_ne cs nonce now (Ne.symm hh) with h0 | h0
      · rw [h0]
      · rw [h0]; exact liveNonces_sublist now _
  | consume h nonce now =>
    simp only [challengeStep, issuesFor, ChallengeOp.issued?, List.filterMap_cons,
      List.filterMap_nil, List.append_nil]
    by_cases hh : h = hash
    · subst hh
      rw [entries_consume]
      split
      · exact liveNonces_sublist now _
      · exact List.eraseP_sublist
    · rw [entries_consume_ne _ _ _ (Ne.symm hh)]
  | sweep now =>
    simp only [challengeStep, issuesFor, ChallengeOp.issued?, List.filterMap_cons,
      List.filterMap_nil, List.append_nil, entries_sweep]
    exact liveNonces_sublist now _

theorem entries_run_sublist (cs : ChallengeStore) (ops : List ChallengeOp) (hash : String) :
    ((Trace.run challengeStep cs ops).entries hash).Sublist (cs.entries hash ++ issuesFor hash ops) := by
  induction ops using List.reverseRecOn with
  | nil => simp [issuesFor]
  | append_singleton ops op ih =>
    rw [Trace.run_snoc]
    refine (entries_step_sublist _ op hash).trans ?_
    rw [issuesFor_append, ← List.append_assoc]
    exact ih.append (List.Sublist.refl _)

/-- What is held for a hash is a part of what was issued for it, in order. -/
theorem entries_sublist (ops : List ChallengeOp) (hash : String) :
    ((challengesAfter ops).entries hash).Sublist (issuesFor hash ops) := by
  have h := entries_run_sublist {} ops hash
  rwa [show ({} : ChallengeStore).entries hash = [] from rfl, List.nil_append] at h

theorem mem_issuesFor {hash : String} {ops : List ChallengeOp} {nonce : String} {expires : ℕ} :
    (nonce, expires) ∈ issuesFor hash ops ↔
      ∃ t, ChallengeOp.issue hash nonce t ∈ ops ∧ expires = t + nonceTtlSecs := by
  simp only [issuesFor, List.mem_filterMap]
  constructor
  · rintro ⟨op, hop, h⟩
    cases op with
    | issue h' n t =>
      simp only [ChallengeOp.issued?] at h
      split at h
      · rename_i hh
        simp only [Option.some.injEq, Prod.mk.injEq] at h
        obtain ⟨rfl, rfl⟩ := h
        exact ⟨t, hh ▸ hop, rfl⟩
      · cases h
    | consume => cases h
    | sweep => cases h
  · rintro ⟨t, hop, rfl⟩
    exact ⟨_, hop, by simp [ChallengeOp.issued?]⟩

/-- Distinct issued nonces are distinct within one hash. -/
theorem names_sublist (hash : String) (ops : List ChallengeOp) :
    ((issuesFor hash ops).map (·.1)).Sublist (noncesOf ops) := by
  induction ops with
  | nil => simp [issuesFor, noncesOf]
  | cons op ops ih =>
    unfold issuesFor noncesOf at ih ⊢
    cases op with
    | issue h nonce now =>
      by_cases hh : h = hash
      · simpa [ChallengeOp.issued?, ChallengeOp.nonce?, hh] using ih
      · simpa [ChallengeOp.issued?, ChallengeOp.nonce?,
          hh] using ih.trans (List.sublist_cons_self _ _)
    | consume => simpa [ChallengeOp.issued?, ChallengeOp.nonce?] using ih
    | sweep => simpa [ChallengeOp.issued?, ChallengeOp.nonce?] using ih

theorem entries_names_nodup {ops : List ChallengeOp} (hfresh : (noncesOf ops).Nodup)
    (hash : String) :
    (((challengesAfter ops).entries hash).map (·.1)).Nodup :=
  hfresh.sublist (((entries_sublist ops hash).map _).trans (names_sublist hash ops))

/-- With distinct nonces, a held one was issued once, so for one hash only. -/
theorem issue_unique {ops : List ChallengeOp} (hfresh : (noncesOf ops).Nodup)
    {nonce hash hash' : String} {t t' : ℕ} (h : ChallengeOp.issue hash nonce t ∈ ops)
    (h' : ChallengeOp.issue hash' nonce t' ∈ ops) :
    hash = hash' ∧ t = t' := by
  induction ops with
  | nil => cases h
  | cons op ops ih =>
    have hlater : ∀ {hs t}, ChallengeOp.issue hs nonce t ∈ ops → nonce ∈ noncesOf ops :=
      fun hm => List.mem_filterMap.mpr ⟨_, hm, rfl⟩
    rcases List.mem_cons.mp h with rfl | h1 <;> rcases List.mem_cons.mp h' with h2 | h2
    · cases h2; exact ⟨rfl, rfl⟩
    · exact absurd (hlater h2) (List.nodup_cons.mp hfresh).1
    · subst h2; exact absurd (hlater h1) (List.nodup_cons.mp hfresh).1
    · exact ih (hfresh.sublist ((List.sublist_cons_self op ops).filterMap _)) h1 h2

/-! ### A nonce in flight -/

/-- The entry is in the set, with at most `k` newer ones. -/
def Kept (set : List (String × ℕ)) (entry : String × ℕ) (k : ℕ) : Prop :=
  ∃ older newer, set = older ++ entry :: newer ∧ newer.length ≤ k

theorem Kept.live {set : List (String × ℕ)} {entry : String × ℕ} {k now : ℕ} (h : Kept set entry k)
    (hnow : now < entry.2) : Kept (liveNonces now set) entry k := by
  obtain ⟨older, newer, rfl, hk⟩ := h
  refine ⟨liveNonces now older, liveNonces now newer, ?_,
    (liveNonces_sublist now newer).length_le.trans hk⟩
  simp [liveNonces, hnow]

theorem Kept.eraseP {set : List (String × ℕ)} {entry : String × ℕ} {k : ℕ} {nonce : String}
    (h : Kept set entry k) (hne : entry.1 ≠ nonce) :
    Kept (set.eraseP fun p => p.1 == nonce) entry k := by
  obtain ⟨older, newer, rfl, hk⟩ := h
  by_cases hold : ∃ p ∈ older, (p.1 == nonce) = true
  · obtain ⟨p, hp, hpn⟩ := hold
    exact ⟨older.eraseP fun p => p.1 == nonce, newer,
      List.eraseP_append_left (p := fun p => p.1 == nonce) (a := p) hpn _ hp, hk⟩
  · refine ⟨older, newer.eraseP fun p => p.1 == nonce, ?_, List.eraseP_sublist.length_le.trans hk⟩
    rw [List.eraseP_append_right _ (fun p hp hpn => hold ⟨p, hp, hpn⟩),
      List.eraseP_cons_of_neg (by simpa using hne)]

/-- Making room drops an older entry first. -/
theorem Kept.roomForOne {set : List (String × ℕ)} {entry : String × ℕ} {k : ℕ}
    (h : Kept set entry k) (hk : k + 1 < maxNoncesPerHash) : Kept (roomForOne set) entry k := by
  obtain ⟨older, newer, rfl, hn⟩ := h
  unfold Sona.roomForOne
  split
  · cases older with
    | nil =>
      -- with nothing older the set is below the cap
      rename_i hlen
      simp only [List.nil_append, List.length_cons] at hlen
      omega
    | cons o older => exact ⟨older, newer, rfl, hn⟩
  · exact ⟨older, newer, rfl, hn⟩

theorem Kept.push {set : List (String × ℕ)} {entry new : String × ℕ} {k : ℕ}
    (h : Kept set entry k) :
    Kept (set ++ [new]) entry (k + 1) := by
  obtain ⟨older, newer, rfl, hk⟩ := h
  exact ⟨older, newer ++ [new], by simp, by simpa using hk⟩

theorem Kept.mem {set : List (String × ℕ)} {entry : String × ℕ} {k : ℕ} (h : Kept set entry k) :
    entry ∈ set := by
  obtain ⟨older, newer, rfl, -⟩ := h
  simp

/-- One call keeps a nonce in flight, unless it consumes it or there have been
too many further issues. -/
theorem Kept.step {cs : ChallengeStore} {hash : String} {entry : String × ℕ} {k : ℕ}
    (h : Kept (cs.entries hash) entry k) (op : ChallengeOp) (hnow : op.time < entry.2)
    (hop : ∀ now, op ≠ .consume hash entry.1 now)
    (hk : k + (issuesFor hash [op]).length < maxNoncesPerHash) :
    Kept ((challengeStep cs op).entries hash) entry (k + (issuesFor hash [op]).length) := by
  cases op with
  | issue other nonce now =>
    by_cases hh : other = hash
    · subst hh
      simp only [issuesFor, ChallengeOp.issued?, if_true, List.filterMap_cons, List.filterMap_nil,
        List.length_singleton] at hk ⊢
      have hlive := h.live hnow
      rcases entries_issue cs other nonce now with ⟨-, h0⟩ | h0
      · rw [show liveNonces (ChallengeOp.issue other nonce now).time (cs.entries other) = [] from h0] at hlive
        exact absurd hlive.mem (List.not_mem_nil)
      · rw [challengeStep, h0]
        exact (hlive.roomForOne hk).push
    · simp only [issuesFor, ChallengeOp.issued?, if_neg hh, List.filterMap_cons, List.filterMap_nil,
        List.length_nil, Nat.add_zero, challengeStep]
      rcases entries_issue_ne cs nonce now (Ne.symm hh) with h0 | h0
      · rw [h0]; exact h
      · rw [h0]; exact h.live hnow
  | consume other nonce now =>
    simp only [issuesFor, ChallengeOp.issued?, List.filterMap_cons, List.filterMap_nil,
      List.length_nil, Nat.add_zero, challengeStep]
    by_cases hh : other = hash
    · subst hh
      have hne : entry.1 ≠ nonce := fun he => hop now (by rw [he])
      rw [entries_consume]
      split
      · exact h.live hnow
      · exact h.eraseP hne
    · rw [entries_consume_ne _ _ _ (Ne.symm hh)]; exact h
  | sweep now =>
    simp only [issuesFor, ChallengeOp.issued?, List.filterMap_cons, List.filterMap_nil,
      List.length_nil, Nat.add_zero, challengeStep, entries_sweep]
    exact h.live hnow

/-- In a set with distinct names the first entry of a name is the only one. -/
theorem find_of_mem {set : List (String × ℕ)} (hn : (set.map (·.1)).Nodup) {entry : String × ℕ}
    (h : entry ∈ set) : set.find? (fun p => p.1 == entry.1) = some entry := by
  induction set with
  | nil => cases h
  | cons p set ih =>
    rw [List.map_cons, List.nodup_cons] at hn
    rcases List.mem_cons.mp h with rfl | h
    · simp
    · have hne : p.1 ≠ entry.1 := fun he => hn.1 (he ▸ List.mem_map_of_mem h)
      simpa [hne] using ih hn.2 h

/-- A nonce that is held answers yes until it expires. -/
theorem answer_of_kept {ops : List ChallengeOp} (hfresh : (noncesOf ops).Nodup)
    {hash nonce : String} {expires k now : ℕ}
    (h : Kept ((challengesAfter ops).entries hash) (nonce, expires) k) (hnow : now < expires) :
    answer ops hash nonce now = true :=
  (consume_answer _ _ _ _).mpr ⟨expires, find_of_mem (entries_names_nodup hfresh hash) h.mem, hnow⟩

theorem challengesAfter_snoc (ops : List ChallengeOp) (op : ChallengeOp) :
    challengesAfter (ops ++ [op]) = challengeStep (challengesAfter ops) op := Trace.run_snoc _ _ _ _

/-- A stored nonce stays in the set through any calls that do not consume it,
while it is unexpired and fewer than the cap were issued after it. -/
theorem kept_run (before : List ChallengeOp) (hash nonce : String) (t : ℕ)
    (between : List ChallengeOp)
    (hfresh : (noncesOf (before ++ .issue hash nonce t :: between)).Nodup)
    (hstored : (nonce, t + nonceTtlSecs) ∈ (challengesAfter (before ++ [.issue hash nonce t])).entries hash)
    (htime : ∀ op ∈ between, op.time < t + nonceTtlSecs)
    (hunused : ∀ pre now post, between = pre ++ .consume hash nonce now :: post →
      answer (before ++ .issue hash nonce t :: pre) hash nonce now = false)
    (hfew : (issuesFor hash between).length < maxNoncesPerHash) :
    Kept ((challengesAfter (before ++ .issue hash nonce t :: between)).entries hash) (nonce, t + nonceTtlSecs)
      (issuesFor hash between).length := by
  induction between using List.reverseRecOn with
  | nil =>
    rw [challengesAfter_snoc, challengeStep] at hstored ⊢
    rcases entries_issue (challengesAfter before) hash nonce t with ⟨h0, -⟩ | h0
    · rw [h0] at hstored; cases hstored
    · rw [h0]; exact ⟨_, [], rfl, by simp⟩
  | append_singleton between op ih =>
    have hassoc : before ++ ChallengeOp.issue hash nonce t :: (between ++ [op]) =
        (before ++ .issue hash nonce t :: between) ++ [op] := by simp
    rw [hassoc] at hfresh ⊢
    rw [noncesOf_append] at hfresh
    have hfresh' := (List.nodup_append.mp hfresh).1
    rw [issuesFor_append, List.length_append] at hfew ⊢
    have hkept := ih hfresh' (fun o ho => htime o (by simp [ho]))
      (fun pre now post hb => hunused pre now (post ++ [op]) (by simp [hb])) (by omega)
    rw [challengesAfter_snoc]
    refine hkept.step op (htime op (by simp)) ?_ hfew
    -- a `consume` of the nonce would have answered yes
    rintro now rfl
    have hyes : answer _ hash nonce now = true :=
      answer_of_kept hfresh' hkept (htime (.consume hash nonce now) (by simp))
    rw [hunused between now [] rfl] at hyes
    cases hyes

/-! ### Single use -/

/-- A nonce in no set stays out while it is not issued. -/
theorem absent_run {cs : ChallengeStore} {nonce : String} {ops : List ChallengeOp}
    (h : ∀ hash expires, (nonce, expires) ∉ cs.entries hash) (hop : nonce ∉ noncesOf ops)
    (hash : String) (expires : ℕ) :
    (nonce, expires) ∉ (Trace.run challengeStep cs ops).entries hash := by
  intro hm
  rcases List.mem_append.mp ((entries_run_sublist cs ops hash).subset hm) with hm | hm
  · exact h hash expires hm
  · obtain ⟨t, hi, -⟩ := mem_issuesFor.mp hm
    exact hop (List.mem_filterMap.mpr ⟨_, hi, rfl⟩)

/-- An accepted nonce is in no set any more. -/
theorem absent_of_answer {ops : List ChallengeOp} (hfresh : (noncesOf ops).Nodup)
    {hash nonce : String} {now : ℕ} (h : answer ops hash nonce now = true) (other : String)
    (expires : ℕ) :
    (nonce, expires) ∉ (challengesAfter (ops ++ [.consume hash nonce now])).entries other := by
  obtain ⟨e, hfind, -⟩ := (consume_answer _ _ _ _).mp h
  have hmem := List.mem_of_find?_eq_some hfind
  rw [challengesAfter_snoc, challengeStep]
  intro hm
  by_cases hh : other = hash
  · subst hh
    rw [entries_consume, hfind] at hm
    -- the names are distinct, so the removed entry was the only one of its name
    have hn := entries_names_nodup hfresh other
    obtain ⟨a, l₁, l₂, hl₁, ha, hl, herase⟩ :=
      List.exists_of_eraseP (p := fun p : String × ℕ => p.1 == nonce) hmem (by simp)
    simp only [herase] at hm
    rw [hl, List.map_append, List.map_cons, List.nodup_append, List.nodup_cons] at hn
    have hname : a.1 = nonce := by simpa using ha
    rcases List.mem_append.mp hm with hm | hm
    · exact hl₁ _ hm (by simp)
    · exact hn.2.1.1 (hname ▸ List.mem_map_of_mem hm)
  · rw [entries_consume_ne _ _ _ hh] at hm
    obtain ⟨t, hi, -⟩ := mem_issuesFor.mp ((entries_sublist ops hash).subset hmem)
    obtain ⟨t', hi', -⟩ := mem_issuesFor.mp ((entries_sublist ops other).subset hm)
    exact hh (issue_unique hfresh hi' hi).1

/-- An accepted nonce was issued for its hash, and is within its time. -/
theorem issued_of_answer {ops : List ChallengeOp} {hash nonce : String} {now : ℕ}
    (h : answer ops hash nonce now = true) :
    ∃ t, ChallengeOp.issue hash nonce t ∈ ops ∧ now < t + nonceTtlSecs := by
  obtain ⟨e, hfind, hnow⟩ := (consume_answer _ _ _ _).mp h
  obtain ⟨t, hi, rfl⟩ := mem_issuesFor.mp ((entries_sublist ops hash).subset (List.mem_of_find?_eq_some hfind))
  exact ⟨t, hi, hnow⟩

/-- **Login nonces are single use, and cannot be poisoned.** In any run with
distinct nonces and a clock that does not go back: a nonce is accepted at most
once, whatever the hash; only for the hash it was issued for and within its
time; and a stored, unexpired nonce that no earlier `consume` accepted is
accepted, if fewer than the cap were issued for its hash after it. -/
theorem nonces_single_use (ops : List ChallengeOp) (htime : (ops.map (·.time)).Pairwise (· ≤ ·))
    (hfresh : (noncesOf ops).Nodup) :
    (∀ pre mid post hash hash' nonce now now',
      ops = pre ++ .consume hash nonce now :: (mid ++ .consume hash' nonce now' :: post) →
      answer pre hash nonce now = true →
      answer (pre ++ .consume hash nonce now :: mid) hash' nonce now' = false) ∧
    (∀ pre post hash nonce now, ops = pre ++ .consume hash nonce now :: post →
      answer pre hash nonce now = true →
      ∃ t, ChallengeOp.issue hash nonce t ∈ pre ∧ t ≤ now ∧ now < t + nonceTtlSecs) ∧
    (∀ pre mid post hash nonce t now,
      ops = pre ++ .issue hash nonce t :: (mid ++ .consume hash nonce now :: post) →
      (nonce, t + nonceTtlSecs) ∈ (challengesAfter (pre ++ [.issue hash nonce t])).entries hash →
      (∀ pre' now' post', mid = pre' ++ .consume hash nonce now' :: post' →
        answer (pre ++ .issue hash nonce t :: pre') hash nonce now' = false) →
      now < t + nonceTtlSecs → (issuesFor hash mid).length < maxNoncesPerHash →
      answer (pre ++ .issue hash nonce t :: mid) hash nonce now = true) := by
  refine ⟨?_, ?_, ?_⟩
  · rintro pre mid post hash hash' nonce now now' rfl hyes
    rw [noncesOf_append] at hfresh
    have hpre := (List.nodup_append.mp hfresh).1
    -- the nonce was issued in `pre`, so it is not issued again
    have hmid : nonce ∉ noncesOf mid := by
      obtain ⟨t, hi, -⟩ := issued_of_answer hyes
      have hin : nonce ∈ noncesOf pre := List.mem_filterMap.mpr ⟨_, hi, rfl⟩
      intro hm
      refine (List.nodup_append.mp hfresh).2.2 _ hin _ ?_ rfl
      obtain ⟨op, hop, hn⟩ := List.mem_filterMap.mp hm
      exact List.mem_filterMap.mpr ⟨op, by simp [hop], hn⟩
    have habs := absent_run (absent_of_answer hpre hyes) hmid hash'
    rw [Bool.eq_false_iff]
    intro hagain
    obtain ⟨e, hfind, -⟩ := (consume_answer _ _ _ _).mp hagain
    refine habs e ?_
    have happ : challengesAfter (pre ++ ChallengeOp.consume hash nonce now :: mid) =
        Trace.run challengeStep (challengesAfter (pre ++ [.consume hash nonce now])) mid := by
      rw [challengesAfter, challengesAfter, ← Trace.run_append]; simp
    exact happ ▸ List.mem_of_find?_eq_some hfind
  · rintro pre post hash nonce now rfl hyes
    obtain ⟨t, hi, hnow⟩ := issued_of_answer hyes
    rw [List.map_append, List.pairwise_append] at htime
    exact ⟨t, hi, htime.2.2 _ (List.mem_map_of_mem hi) now (by simp [ChallengeOp.time]), hnow⟩
  · rintro pre mid post hash nonce t now rfl hstored hunused hnow hfew
    have hassoc : pre ++ ChallengeOp.issue hash nonce t ::
        (mid ++ .consume hash nonce now :: post) =
        (pre ++ .issue hash nonce t :: mid) ++ .consume hash nonce now :: post := by simp
    rw [hassoc] at htime hfresh
    rw [noncesOf_append] at hfresh
    have hbefore : ∀ op ∈ mid, op.time < t + nonceTtlSecs := by
      intro op hop
      rw [List.map_append, List.pairwise_append] at htime
      have := htime.2.2 op.time (List.mem_map_of_mem (by simp [hop])) now
        (by simp [ChallengeOp.time])
      omega
    have hfresh' := (List.nodup_append.mp hfresh).1
    exact answer_of_kept hfresh' (kept_run pre hash nonce t mid hfresh' hstored hbefore hunused hfew) hnow

/-- Two challenges for one hash: the first is still good after the second, and only once. -/
theorem nonces_single_use_two_challenges :
    answer [.issue "ab" "n1" 100, .issue "ab" "n2" 110] "ab" "n1" 120 = true ∧
      answer [.issue "ab" "n1" 100, .issue "ab" "n2" 110, .consume "ab" "n1" 120] "ab" "n1" 121 = false := by
  have h := nonces_single_use [.issue "ab" "n1" 100, .issue "ab" "n2" 110, .consume "ab" "n1" 120,
    .consume "ab" "n1" 121] (by decide) (by decide)
  have hyes : answer [.issue "ab" "n1" 100, .issue "ab" "n2" 110] "ab" "n1" 120 = true := by
    refine h.2.2 [] [.issue "ab" "n2" 110] [.consume "ab" "n1" 121] "ab" "n1" 100 120 rfl
      (by decide) ?_
      (by decide) (by decide)
    intro pre' now' post' hm
    cases pre' with
    | nil => cases hm
    | cons op pre' => cases pre' <;> cases hm
  exact ⟨hyes, h.1 [.issue "ab" "n1" 100, .issue "ab" "n2" 110] [] [] "ab" "ab" "n1" 120 121 rfl hyes⟩

/-! ### The ceiling over all hashes -/

theorem live_sweep_le (cs : ChallengeStore) (now : ℕ) : (cs.sweep now).live ≤ cs.live := by
  unfold ChallengeStore.sweep ChallengeStore.live
  apply Table.total_filterMap_le
  intro hash set set' h
  dsimp only at h
  split at h
  · cases h
  · cases h
    exact (liveNonces_sublist now set).length_le

/-- A set that is written back and no longer than before adds nothing. -/
theorem live_putSet_le {cs : ChallengeStore} {hash : String} {set set' : List (String × ℕ)}
    (hget : cs.nonces.get hash = some set) (hlen : set'.length ≤ set.length) :
    (ChallengeStore.mk (putSet cs.nonces hash set')).live ≤ cs.live := by
  have hbefore : cs.live = set.length + (cs.nonces.remove hash).total List.length :=
    Table.total_split _ _ hget
  unfold ChallengeStore.live putSet
  dsimp only
  split
  · exact Table.total_remove_le _ _ _
  · have hafter : (cs.nonces.set hash set').total List.length =
        set'.length + (cs.nonces.remove hash).total List.length := Table.total_set _ _ _ _
    unfold ChallengeStore.live at hbefore
    omega

theorem live_consume_le (cs : ChallengeStore) (hash nonce : String) (now : ℕ) :
    (cs.consume hash nonce now).2.live ≤ cs.live := by
  unfold ChallengeStore.consume
  cases hget : cs.nonces.get hash with
  | none => exact le_rfl
  | some set =>
    dsimp only
    split
    · exact live_putSet_le hget (liveNonces_sublist now set).length_le
    · exact live_putSet_le hget List.eraseP_sublist.length_le

/-- An issue that stores its nonce replaces the set of the hash. -/
theorem live_addNonce (cs : ChallengeStore) (hash nonce : String) (now : ℕ) :
    (cs.live ≥ maxNonces ∧ cs.nonces.get hash = none ∧ cs.addNonce hash nonce now = cs) ∨
      (cs.addNonce hash nonce now).live + (cs.entries hash).length =
        cs.live + (roomForOne (liveNonces now (cs.entries hash))).length + 1 := by
  unfold ChallengeStore.addNonce
  by_cases hfull : cs.live ≥ maxNonces ∧ cs.nonces.get hash = none
  · rw [if_pos hfull]
    exact Or.inl ⟨hfull.1, hfull.2, rfl⟩
  · rw [if_neg hfull]
    refine Or.inr ?_
    have hafter : ∀ set, (ChallengeStore.mk (cs.nonces.set hash set)).live =
        set.length + (cs.nonces.remove hash).total List.length := fun set => Table.total_set _ _ _ _
    have hbefore :
        cs.live = (cs.entries hash).length + (cs.nonces.remove hash).total List.length := by
      unfold ChallengeStore.entries ChallengeStore.live
      cases hget : cs.nonces.get hash with
      | none =>
        rw [Table.remove_of_none _ hget]
        simp
      | some set => exact Table.total_split _ _ hget
    dsimp only
    rw [hafter, hbefore]
    unfold ChallengeStore.entries roomForOne
    rw [List.length_append, List.length_singleton]
    omega

/-- **When an issue keeps the ceiling**: once what is expired is swept, there is room, or
the hash has no nonce, or as many as one hash may hold. -/
def ChallengeStore.Roomy (cs : ChallengeStore) : ChallengeOp → Prop
  | .issue hash _ now => (cs.sweep now).live < maxNonces ∨ (cs.sweep now).nonces.get hash = none ∨
      maxNoncesPerHash ≤ ((cs.sweep now).entries hash).length
  | .consume .. | .sweep _ => True

theorem live_issue (cs : ChallengeStore) (hash nonce : String) (now : ℕ)
    (hle : cs.live ≤ maxNonces) :
    (cs.issue hash nonce now).2.live ≤ maxNonces ↔ cs.Roomy (.issue hash nonce now) := by
  have hsweep := live_sweep_le cs now
  have hroom : ∀ set, (roomForOne set).length ≤ set.length :=
    fun set => (roomForOne_sublist set).length_le
  have hkept : ∀ cs : ChallengeStore, (liveNonces now (cs.entries hash)).length ≤
      (cs.entries hash).length :=
    fun cs => (liveNonces_sublist now _).length_le
  unfold ChallengeStore.issue ChallengeStore.Roomy
  dsimp only
  by_cases hmany : cs.live ≥ 1024
  · rw [if_pos hmany]
    have hsame : liveNonces now ((cs.sweep now).entries hash) = (cs.sweep now).entries hash := by
      rw [entries_sweep, liveNonces_idem]
    generalize cs.sweep now = swept at hsweep hsame ⊢
    rcases live_addNonce swept hash nonce now with ⟨-, hnone, heq⟩ | hadd
    · rw [heq]
      exact iff_of_true (le_trans hsweep hle) (Or.inr (Or.inl hnone))
    · rw [hsame] at hadd
      have hlen := hroom (swept.entries hash)
      have hcap : (roomForOne (swept.entries hash)).length + 1 ≤ (swept.entries hash).length ↔
          maxNoncesPerHash ≤ (swept.entries hash).length := by
        unfold roomForOne
        by_cases hfull : (swept.entries hash).length ≥ maxNoncesPerHash
        · rw [if_pos hfull, List.length_drop]
          have hpos : 0 < maxNoncesPerHash := by decide
          omega
        · rw [if_neg hfull]
          omega
      constructor
      · intro hafter
        by_cases hroomy : swept.live < maxNonces
        · exact Or.inl hroomy
        · exact Or.inr (Or.inr (hcap.mp (by omega)))
      · rintro (hroomy | hnone | hfull)
        · omega
        · by_cases hroomy : swept.live < maxNonces
          · omega
          · -- a hash without a nonce gets none at the ceiling
            have hstays : swept.addNonce hash nonce now = swept := by
              unfold ChallengeStore.addNonce
              rw [if_pos ⟨not_lt.mp hroomy, hnone⟩]
            rw [hstays]
            exact le_trans hsweep hle
        · have hleast := hcap.mpr hfull
          omega
  · rw [if_neg hmany]
    have hfew : cs.live < 1024 := not_le.mp hmany
    have hmax : 1024 < maxNonces := by decide
    refine iff_of_true ?_ (Or.inl (by omega))
    rcases live_addNonce cs hash nonce now with ⟨hfull, -, -⟩ | hadd
    · omega
    · have hlen := hroom (liveNonces now (cs.entries hash))
      have hset := hkept cs
      omega

theorem live_step (cs : ChallengeStore) (op : ChallengeOp) (hle : cs.live ≤ maxNonces) :
    (challengeStep cs op).live ≤ maxNonces ↔ cs.Roomy op := by
  cases op with
  | issue hash nonce now => exact live_issue cs hash nonce now hle
  | consume hash nonce now => exact iff_of_true (le_trans (live_consume_le cs hash nonce now) hle) trivial
  | sweep now => exact iff_of_true (le_trans (live_sweep_le cs now) hle) trivial

/-- **The nonces of all hashes stay within the ceiling all along a run exactly
if each issue keeps it.** -/
theorem nonce_ceiling_iff (ops : List ChallengeOp) :
    Trace.Along challengeStep ChallengeStore.Roomy {} ops ↔
      ∀ pre, pre <+: ops → (challengesAfter pre).live ≤ maxNonces :=
  Trace.along_iff_inv (I := fun cs => cs.live ≤ maxNonces) (fun cs op hle => live_step cs op hle) (Nat.zero_le _) ops

/-- As many challenges as the ceiling has room for, each for another hash. -/
def challengeFlood (n : ℕ) : List ChallengeOp :=
  (List.range n).map fun i => .issue (Nat.repr i) (Nat.repr i) 0

/-- The store after them: one nonce for each hash, and none of them expired. -/
structure Flooded (n : ℕ) (cs : ChallengeStore) : Prop where
  live : cs.live = n
  unknown : ∀ i, n ≤ i → cs.nonces.get (Nat.repr i) = none
  single : ∀ hash set, cs.nonces.get hash = some set → ∃ nonce, set = [(nonce, nonceTtlSecs)]
  first : ∀ i < n, ∃ set, cs.nonces.get (Nat.repr i) = some set

theorem Flooded.sweep_eq {n : ℕ} {cs : ChallengeStore} (h : Flooded n cs) : cs.sweep 0 = cs := by
  unfold ChallengeStore.sweep
  congr 1
  apply Table.filterMap_eq_self
  intro hash set hget
  obtain ⟨nonce, rfl⟩ := h.single hash set hget
  rfl

theorem Flooded.issue {n : ℕ} {cs : ChallengeStore} (h : Flooded n cs) (hn : n < maxNonces) :
    Flooded (n + 1) (cs.issue (Nat.repr n) (Nat.repr n) 0).2 := by
  have hnone := h.unknown n le_rfl
  have hswept : (if cs.live ≥ 1024 then cs.sweep 0 else cs) = cs := by
    rw [h.sweep_eq]
    exact ite_self cs
  have hstored : (cs.issue (Nat.repr n) (Nat.repr n) 0).2 =
      ⟨cs.nonces.set (Nat.repr n) [(Nat.repr n, nonceTtlSecs)]⟩ := by
    have hroom : ¬ (cs.live ≥ maxNonces ∧ cs.nonces.get (Nat.repr n) = none) := by
      rw [h.live]
      omega
    unfold ChallengeStore.issue
    dsimp only
    rw [hswept]
    unfold ChallengeStore.addNonce
    rw [if_neg hroom, hnone]
    rfl
  rw [hstored]
  constructor
  · have hadd : (cs.nonces.set (Nat.repr n) [(Nat.repr n, nonceTtlSecs)]).total List.length =
        1 + (cs.nonces.remove (Nat.repr n)).total List.length := Table.total_set _ _ _ _
    have hlive := h.live
    unfold ChallengeStore.live at hlive ⊢
    rw [hadd, Table.remove_of_none _ hnone]
    omega
  · intro i hi
    have hne : Nat.repr i ≠ Nat.repr n := fun heq => by
      have hin := decimal_inj heq
      omega
    dsimp only
    rw [Table.get_set_ne _ _ hne]
    exact h.unknown i (by omega)
  · intro hash set hget
    dsimp only at hget
    rw [Table.get_set] at hget
    by_cases hhash : hash = Nat.repr n
    · rw [if_pos hhash] at hget
      cases hget
      exact ⟨Nat.repr n, rfl⟩
    · rw [if_neg hhash] at hget
      exact h.single hash set hget
  · intro i hi
    dsimp only
    by_cases hlast : i = n
    · rw [hlast]
      exact ⟨_, Table.get_set_self _ _ _⟩
    · have hne : Nat.repr i ≠ Nat.repr n := fun heq => hlast (decimal_inj heq)
      rw [Table.get_set_ne _ _ hne]
      exact h.first i (by omega)

theorem flooded : ∀ n, n ≤ maxNonces → Flooded n (challengesAfter (challengeFlood n))
  | 0, _ =>
    { live := rfl
      unknown := fun _ _ => rfl
      single := fun _ _ h => nomatch h
      first := fun _ h => absurd h (Nat.not_lt_zero _) }
  | n + 1, hn => by
    have hsnoc : challengeFlood (n + 1) =
        challengeFlood n ++ [.issue (Nat.repr n) (Nat.repr n) 0] := by
      unfold challengeFlood
      rw [List.range_succ, List.map_append]
      rfl
    rw [hsnoc, challengesAfter_snoc]
    exact (flooded n (by omega)).issue (by omega)

/-- **At the ceiling a hash that has a nonce gets a second one.** -/
theorem nonce_ceiling_broken :
    maxNonces < (challengesAfter (challengeFlood maxNonces ++ [.issue (Nat.repr 0) "again" 0])).live := by
  have hflood := flooded maxNonces le_rfl
  have hroomy : ¬ (challengesAfter (challengeFlood maxNonces)).Roomy
      (.issue (Nat.repr 0) "again" 0) := by
    obtain ⟨set, hget⟩ := hflood.first 0 (by decide)
    obtain ⟨nonce, rfl⟩ := hflood.single _ _ hget
    dsimp only [ChallengeStore.Roomy, ChallengeStore.entries]
    rw [hflood.sweep_eq, hflood.live, hget]
    simp [maxNoncesPerHash]
  rw [challengesAfter_snoc]
  by_contra hle
  exact hroomy ((live_step _ _ hflood.live.le).mp (not_lt.mp hle))

end Sona
