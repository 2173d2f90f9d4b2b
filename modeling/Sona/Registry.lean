/-
# The registry of calls

What holds of `CallRegistry` in every state it can reach, whatever operations
came and in whatever order, and what one operation can do to a record.

An operation writes the registry in one of five ways (`RegistryWrite`): it
leaves it, purges it, appends the record of a call the registry does not hold,
changes one record, or sweeps over all of them. `callStep_writes` is the only
place that looks into the operations; the bounds (`RegistryOk`) and the fate of
a record (`Becomes`, `Dropped`) follow from the five ways.

Key definitions: `RegistryOk`, `RegistryWrite`, `Becomes`, `Dropped`, `CallOp.refused`.
-/
import Mathlib.Data.List.Nodup
import Sona.CallState

namespace Sona

/-! ### Records -/

/-- The bounds of one record. -/
structure RecordOk (r : CallRecord) : Prop where
  current : r.offerId ∉ r.priorOfferIds
  nodup : r.priorOfferIds.Nodup
  priors : r.priorOfferIds.length ≤ maxPriorOffers
  kept : ∀ reason retainUntil, r.state = .terminal reason retainUntil →
    saturatingAdd r.updatedAt minTombstoneSecs ≤ retainUntil

/-- The bounds of the registry. -/
structure RegistryOk (c : CallRegistry) : Prop where
  count : c.records.length ≤ maxCallRecords
  ids : (c.records.map (·.callInstanceId)).Nodup
  each : ∀ r ∈ c.records, RecordOk r

/-- A record and what became of it: the phase does not fall, and a tombstone
keeps its reason and its time and is not kept longer. -/
structure Becomes (r r' : CallRecord) : Prop where
  call : r'.callInstanceId = r.callInstanceId
  live : ∀ phase', r'.state = .live phase' → ∃ phase, r.state = .live phase ∧
    phase.rank ≤ phase'.rank
  terminal : ∀ reason retainUntil, r.state = .terminal reason retainUntil →
    r'.updatedAt = r.updatedAt ∧ ∃ retainUntil', r'.state = .terminal reason retainUntil' ∧
    retainUntil' ≤ retainUntil

theorem Becomes.refl (r : CallRecord) : Becomes r r :=
  ⟨rfl, fun phase' h => ⟨phase', h, le_rfl⟩, fun _ retainUntil h => ⟨rfl, retainUntil, h, le_rfl⟩⟩

theorem Becomes.trans {r r' r'' : CallRecord} (h : Becomes r r') (h' : Becomes r' r'') :
    Becomes r r'' where
  call := h'.call.trans h.call
  live phase'' hs := by
    obtain ⟨phase', hs', hle'⟩ := h'.live phase'' hs
    obtain ⟨phase, hs, hle⟩ := h.live phase' hs'
    exact ⟨phase, hs, hle.trans hle'⟩
  terminal reason retainUntil hs := by
    obtain ⟨hu, retainUntil', hs', hle⟩ := h.terminal reason retainUntil hs
    obtain ⟨hu', retainUntil'', hs'', hle'⟩ := h'.terminal reason retainUntil' hs'
    exact ⟨hu'.trans hu, retainUntil'', hs'', hle'.trans hle⟩

/-- The record is active, or on the step before it. -/
def CallRecord.won (r : CallRecord) : Prop := r.state = .live .winner ∨ r.state = .live .active

/-- A change of a record that the bounds allow. -/
structure Moved (r r' : CallRecord) : Prop extends Becomes r r' where
  ok : RecordOk r → RecordOk r'
  active : r'.state = .live .active → r.won

theorem Moved.refl (r : CallRecord) : Moved r r := ⟨Becomes.refl r, id, Or.inr⟩

/-- A live record ends. -/
theorem moved_terminal {r : CallRecord} {phase : CallPhase} (hlive : r.state = .live phase)
    (reason : CallTerminalReason) (now retention : ℕ) :
    Moved r { r with updatedAt := now, state := .terminal reason (tombstoneDeadline now retention) } where
  call := rfl
  live _ h := by cases h
  terminal _ _ h := by
    rw [hlive] at h
    cases h
  ok h := by
    refine ⟨h.current, h.nodup, h.priors, fun reason' retainUntil hs => ?_⟩
    simp only [CallRecordState.terminal.injEq] at hs
    rw [← hs.2]
    exact tombstone_le_deadline le_rfl retention
  active h := by cases h

/-- A live record goes over to another phase. -/
theorem moved_phase {r : CallRecord} {current phase : CallPhase} (hlive : r.state = .live current)
    (hrank : current.rank ≤ phase.rank) (hactive : phase = .active → current = .winner) (now : ℕ) :
    Moved r { r with state := .live phase, updatedAt := now } where
  call := rfl
  live phase' h := by
    cases h
    exact ⟨current, hlive, hrank⟩
  terminal _ _ h := by
    rw [hlive] at h
    cases h
  ok h := ⟨h.current, h.nodup, h.priors, fun _ _ hs => by cases hs⟩
  active h := by
    have hphase : phase = .active := by simpa using h
    exact Or.inl (by rw [hlive, hactive hphase])

/-- A live record goes over to an offer that it does not know. -/
theorem moved_rotate {r : CallRecord} {phase : CallPhase} (hlive : r.state = .live phase)
    {offer : String} (hcurrent : r.offerId ≠ offer) (hprior : offer ∉ r.priorOfferIds)
    (expiresAt now : ℕ) :
    Moved r (r.rotate offer expiresAt now) where
  call := rfl
  live phase' h := ⟨phase', h, le_rfl⟩
  terminal _ _ h := by
    rw [hlive] at h
    cases h
  ok h := by
    have hsub : r.priorOfferIds.drop (r.priorOfferIds.length + 1 - maxPriorOffers) ⊆ r.priorOfferIds :=
      List.drop_subset _ _
    refine ⟨?_, ?_, ?_, fun reason retainUntil hs => ?_⟩
    · simp only [CallRecord.rotate, List.mem_append, List.mem_singleton, not_or]
      exact ⟨fun hmem => hprior (hsub hmem), hcurrent.symm⟩
    · simp only [CallRecord.rotate, List.nodup_append, List.nodup_singleton, List.mem_singleton,
        forall_eq, true_and]
      refine ⟨h.nodup.sublist (List.drop_sublist _ _), fun offer' hmem heq => ?_⟩
      rw [heq] at hmem
      exact h.current (hsub hmem)
    · simp only [CallRecord.rotate, List.length_append, List.length_drop, List.length_singleton]
      have hle := h.priors
      simp only [maxPriorOffers] at hle ⊢
      omega
    · change r.state = _ at hs
      rw [hlive] at hs
      cases hs
  active h := Or.inr h

theorem moved_expire (now retention : ℕ) (r : CallRecord) : Moved r (r.expire now retention) := by
  unfold CallRecord.expire
  split
  · rename_i h
    simp only [Bool.and_eq_true] at h
    have hlive : ∃ phase, r.state = .live phase := by
      cases hs : r.state with
      | live phase => exact ⟨phase, rfl⟩
      | terminal reason retainUntil => simp [CallRecord.expirable, hs] at h
    obtain ⟨phase, hs⟩ := hlive
    exact moved_terminal hs .expired now retention
  · exact Moved.refl r

theorem moved_retain (retention : ℕ) (r : CallRecord) : Moved r (r.retain retention) := by
  unfold CallRecord.retain
  cases hs : r.state with
  | live phase => exact Moved.refl r
  | terminal reason retainUntil =>
    dsimp only
    refine ⟨⟨rfl, fun _ h => (by cases h), fun reason' retainUntil' h => ?_⟩, fun h => ?_,
      fun h => by cases h⟩
    · rw [hs] at h
      cases h
      exact ⟨rfl, _, rfl, min_le_left _ _⟩
    · refine ⟨h.current, h.nodup, h.priors, fun reason' retainUntil' hs' => ?_⟩
      simp only [CallRecordState.terminal.injEq] at hs'
      rw [← hs'.2]
      exact le_min (h.kept reason retainUntil hs) (tombstone_le_deadline le_rfl retention)

/-! ### Lists of records -/

theorem map_changeFirst {p : CallRecord → Bool} {f : CallRecord → CallRecord} {r₀ : CallRecord} :
    ∀ {l : List CallRecord}, l.find? p = some r₀ → (f r₀).callInstanceId = r₀.callInstanceId →
      (changeFirst p f l).map (·.callInstanceId) = l.map (·.callInstanceId)
  | r :: rs, h, hid => by
    unfold changeFirst
    rw [List.find?_cons] at h
    cases hp : p r with
    | true =>
      simp only [hp, Option.some.injEq] at h
      subst h
      simp [hid]
    | false =>
      simp only [hp] at h
      simp [map_changeFirst h hid]

theorem length_changeFirst (p : CallRecord → Bool) (f : CallRecord → CallRecord) :
    ∀ l : List CallRecord, (changeFirst p f l).length = l.length
  | [] => rfl
  | r :: rs => by
    unfold changeFirst
    split
    · rfl
    · simp [length_changeFirst p f rs]

theorem evictTerminals_sublist : ∀ (n : ℕ) (l : List CallRecord), (evictTerminals n l).2.Sublist l
  | 0, _ => List.Sublist.refl _
  | n + 1, l => by
    unfold evictTerminals
    split
    · split
      · exact List.Sublist.refl _
      · exact (evictTerminals_sublist n _).trans (List.eraseIdx_sublist _ _)
    · exact List.Sublist.refl _

/-- Only tombstones are evicted, and only from a full list. -/
theorem evictTerminals_keeps : ∀ (n : ℕ) (l : List CallRecord) {r : CallRecord}, r ∈ l →
    r ∈ (evictTerminals n l).2 ∨ (r.isTerminal ∧ maxCallRecords ≤ l.length)
  | 0, _, _, hr => Or.inl hr
  | n + 1, l, r, hr => by
    unfold evictTerminals
    by_cases hfull : l.length ≥ maxCallRecords
    · rw [if_pos hfull]
      cases hfind : l.findIdx? (·.isTerminal) with
      | none => exact Or.inl hr
      | some i =>
        obtain ⟨hi, hterm, -⟩ := List.findIdx?_eq_some_iff_getElem.mp hfind
        by_cases hmem : r ∈ l.eraseIdx i
        · rcases evictTerminals_keeps n _ hmem with h | h
          · exact Or.inl h
          · exact Or.inr ⟨h.1, hfull⟩
        · -- the record that is not among the rest is the one at the index
          obtain ⟨j, hj, rfl⟩ := List.getElem_of_mem hr
          have hji : j = i := by
            by_contra hne
            exact hmem (List.mem_eraseIdx_iff_getElem.mpr ⟨j, hj, hne, rfl⟩)
          subst hji
          exact Or.inr ⟨hterm, hfull⟩
    · rw [if_neg hfull]
      exact Or.inl hr

/-- When the eviction says that there is room, there is. -/
theorem evictTerminals_length : ∀ (n : ℕ) (l : List CallRecord), l.length < maxCallRecords + n →
    (evictTerminals n l).1 = true → (evictTerminals n l).2.length < maxCallRecords
  | 0, _, h, _ => h
  | n + 1, l, h, hroom => by
    unfold evictTerminals at hroom ⊢
    by_cases hfull : l.length ≥ maxCallRecords
    · rw [if_pos hfull] at hroom ⊢
      cases hfind : l.findIdx? (·.isTerminal) with
      | none =>
        rw [hfind] at hroom
        cases hroom
      | some i =>
        rw [hfind] at hroom
        obtain ⟨hi, -⟩ := List.findIdx?_eq_some_iff_getElem.mp hfind
        have hlen := List.length_eraseIdx_of_lt hi
        exact evictTerminals_length n _ (by omega) hroom
    · rw [if_neg hfull]
      exact Nat.lt_of_not_ge hfull

/-- A list within the cap that has no room for one more is left as it is. -/
theorem evictTerminals_full (n : ℕ) {l : List CallRecord} (hl : l.length ≤ maxCallRecords)
    (hfull : (evictTerminals (n + 1) l).1 = false) : (evictTerminals (n + 1) l).2 = l := by
  unfold evictTerminals at hfull ⊢
  split
  · rename_i hge
    rw [if_pos hge] at hfull
    cases hfind : l.findIdx? (·.isTerminal) with
    | none => rfl
    | some i =>
      -- one tombstone less is room enough
      rw [hfind] at hfull
      obtain ⟨hi, -⟩ := List.findIdx?_eq_some_iff_getElem.mp hfind
      have hlen := List.length_eraseIdx_of_lt hi
      have hroom : (l.eraseIdx i).length < maxCallRecords := by omega
      dsimp only at hfull
      cases n with
      | zero => cases hfull
      | succ n =>
        unfold evictTerminals at hfull
        rw [if_neg (by omega)] at hfull
        cases hfull
  · rfl

theorem purge_purge (c : CallRegistry) (now : ℕ) : (c.purge now).purge now = c.purge now := by
  simp [CallRegistry.purge]

theorem recordTerminal_purge (c : CallRegistry) (call offer : String) (reason : CallTerminalReason)
    (now retention : ℕ) :
    (c.purge now).recordTerminal call offer reason now retention =
      c.recordTerminal call offer reason now retention := by
  simp only [CallRegistry.recordTerminal, purge_purge]

theorem makeRoom_purge (c : CallRegistry) (now : ℕ) :
    (c.purge now).makeRoom now = c.makeRoom now := by
  simp only [CallRegistry.makeRoom, purge_purge]

theorem makeRoom_full {c : CallRegistry} {now : ℕ} (hc : c.records.length ≤ maxCallRecords)
    (hfull : (c.makeRoom now).1 = false) : (c.makeRoom now).2 = c.purge now := by
  have hle := (length_purge_le c now).trans hc
  unfold CallRegistry.makeRoom at hfull ⊢
  dsimp only at hfull ⊢
  cases hn : (c.purge now).records.length with
  | zero =>
    rw [hn] at hfull
    cases hfull
  | succ n =>
    rw [hn] at hfull
    rw [evictTerminals_full n hle hfull]

theorem makeRoom_length {c : CallRegistry} {now : ℕ} (hc : c.records.length ≤ maxCallRecords)
    (hroom : (c.makeRoom now).1 = true) : (c.makeRoom now).2.records.length < maxCallRecords := by
  have hpos : 0 < maxCallRecords := by decide
  have hle := (length_purge_le c now).trans hc
  exact evictTerminals_length _ _ (by omega) hroom

theorem makeRoom_sublist (c : CallRegistry) (now : ℕ) :
    (c.makeRoom now).2.records.Sublist (c.purge now).records :=
  evictTerminals_sublist _ _

/-! ### What an operation writes -/

def OfferDecision.refused : OfferDecision → Bool
  | .invalid | .capacity => true
  | _ => false

def ResumeDecision.refused : ResumeDecision → Bool
  | .invalid | .missing | .stale => true
  | _ => false

def TransitionDecision.refused : TransitionDecision → Bool
  | .missing | .regressive | .prerequisite => true
  | _ => false

def TerminalDecision.refused : TerminalDecision → Bool
  | .conflict | .invalid | .capacity => true
  | _ => false

/-- The operation answers that it did nothing. -/
def CallOp.refused (c : CallRegistry) : CallOp → Bool
  | .receiveOffer call offer createdAt expiresAt now retention =>
    (c.receiveOffer call offer createdAt expiresAt now retention).1.refused
  | .receiveResume call offer createdAt expiresAt now =>
    (c.receiveResume call offer createdAt expiresAt now).1.refused
  | .transition call offer phase now => (c.transition call offer phase now).1.refused
  | .recordTerminal call offer reason now retention =>
    (c.recordTerminal call offer reason now retention).1.refused
  | .expire _ _ | .retainWithin _ _ | .purge _ => false

/-- What a record is when the operation purges. -/
def CallOp.sweep : CallOp → CallRecord → CallRecord
  | .expire now retention, r => r.expire now retention
  | .retainWithin _ retention, r => r.retain retention
  | _, r => r

/-- How an operation that was refused, or was not, writes the registry. -/
inductive RegistryWrite (c : CallRegistry) (op : CallOp) : Bool → CallRegistry → Prop
  | kept (refused : Bool) : RegistryWrite c op refused c
  | purged (refused : Bool) : RegistryWrite c op refused (c.purge op.time)
  | pushed (r : CallRecord) : RecordOk r → r.state ≠ .live .active →
      (∀ r' ∈ (c.purge op.time).records, r'.callInstanceId ≠ r.callInstanceId) →
      (c.makeRoom op.time).1 = true →
      RegistryWrite c op false ⟨(c.makeRoom op.time).2.records ++ [r]⟩
  | changed (base : CallRegistry) (p : CallRecord → Bool) (f : CallRecord → CallRecord)
      (r : CallRecord) :
      base = c ∨ base = c.purge op.time → base.records.find? p = some r → Moved r (f r) →
      RegistryWrite c op false ⟨changeFirst p f base.records⟩
  | swept : (∀ r, Moved r (op.sweep r)) →
      RegistryWrite c op false (CallRegistry.purge ⟨c.records.map op.sweep⟩ op.time)

/-- What a refused operation may write, any other may write too. -/
theorem RegistryWrite.accepted {c c' : CallRegistry} {op : CallOp} {refused : Bool}
    (h : RegistryWrite c op refused c') :
    RegistryWrite c op false c' := by
  cases h with
  | kept => exact .kept _
  | purged => exact .purged _
  | pushed r hok hactive hnew hroom => exact .pushed r hok hactive hnew hroom
  | changed base p f r hbase hfind hmoved => exact .changed base p f r hbase hfind hmoved
  | swept hmoved => exact .swept hmoved

/-- What an answer and the registry beside it say. -/
def Writes {D : Type} (c : CallRegistry) (op : CallOp) (refused : D → Bool)
    (out : D × CallRegistry) : Prop :=
  RegistryWrite c op (refused out.1) out.2

section writes

variable {c : CallRegistry} {op : CallOp}

/-- No record is of a call that is not found. -/
theorem not_of_find_none {l : List CallRecord} {call : String} (h : l.find? (·.isOf call) = none) :
    ∀ r ∈ l, r.callInstanceId ≠ call := by
  intro r hr heq
  have hnot := List.find?_eq_none.mp h r hr
  simp [CallRecord.isOf, heq] at hnot

theorem recordTerminal_writes (hc : c.records.length ≤ maxCallRecords) (call offer : String)
    (reason : CallTerminalReason) (retention : ℕ) :
    Writes c op TerminalDecision.refused (c.recordTerminal call offer reason op.time retention) := by
  unfold CallRegistry.recordTerminal
  dsimp only
  split
  · exact .purged _
  split
  · rename_i record hfind
    split
    · exact .purged _
    split
    · exact .purged _
    · rename_i hlive
      exact .changed _ _ _ record (Or.inr rfl) hfind (moved_terminal hlive reason op.time retention)
  · rename_i hfind
    rw [makeRoom_purge]
    split
    · rename_i hfull
      have hroom : (c.makeRoom op.time).1 = false := by simpa using hfull
      rw [makeRoom_full hc hroom]
      exact .purged _
    · rename_i hroom
      refine .pushed _ ⟨by simp, List.nodup_nil, Nat.zero_le _, fun _ retainUntil h => ?_⟩ (by simp)
        (not_of_find_none hfind) (by simpa using hroom)
      simp only [CallRecordState.terminal.injEq] at h
      rw [← h.2]
      exact tombstone_le_deadline le_rfl retention

theorem receiveOffer_writes (hc : c.records.length ≤ maxCallRecords) (call offer : String)
    (createdAt expiresAt retention : ℕ) :
    Writes c op OfferDecision.refused (c.receiveOffer call offer createdAt expiresAt op.time retention) := by
  unfold CallRegistry.receiveOffer
  dsimp only
  split
  · exact .purged _
  split
  · split
    · split <;> exact .purged _
    · split <;> exact .purged _
  · rename_i hfind
    split
    · rw [recordTerminal_purge]
      -- the answer `expired` refuses nothing, whatever the terminal was answered
      exact (recordTerminal_writes hc call offer .expired retention).accepted
    · rw [makeRoom_purge]
      split
      · rename_i hfull
        have hroom : (c.makeRoom op.time).1 = false := by simpa using hfull
        rw [makeRoom_full hc hroom]
        exact .purged _
      · rename_i hroom
        exact .pushed _ ⟨by simp, List.nodup_nil, Nat.zero_le _, fun _ _ h => by cases h⟩ (by simp)
          (not_of_find_none hfind) (by simpa using hroom)

theorem receiveResume_writes (call offer : String) (createdAt expiresAt : ℕ) :
    Writes c op ResumeDecision.refused (c.receiveResume call offer createdAt expiresAt op.time) := by
  rcases receiveResume_cases c call offer createdAt expiresAt op.time with
    ⟨_, heq⟩ | ⟨record, phase, hfind, hlive, hcurrent, hprior, heq⟩
  · rw [heq]
    exact .purged _
  · rw [heq]
    exact .changed _ _ _ record (Or.inr rfl) hfind
      (moved_rotate hlive hcurrent hprior expiresAt op.time)

theorem transition_writes (call offer : String) (phase : CallPhase) :
    Writes c op TransitionDecision.refused (c.transition call offer phase op.time) := by
  rcases transition_cases c call offer phase op.time with
    ⟨_, heq⟩ | ⟨record, current, hfind, hlive, hrank, hactive, heq⟩
  · rw [heq]
    exact .kept _
  · rw [heq]
    exact .changed _ _ _ record (Or.inl rfl) hfind (moved_phase hlive hrank hactive op.time)

/-- **Every operation writes the registry in one of the five ways**, and a
refused one at most purges. -/
theorem callStep_writes (hc : c.records.length ≤ maxCallRecords) (op : CallOp) :
    RegistryWrite c op (op.refused c) (callStep c op) := by
  cases op with
  | receiveOffer call offer createdAt expiresAt now retention =>
    exact receiveOffer_writes hc call offer createdAt expiresAt retention
  | receiveResume call offer createdAt expiresAt now =>
    exact receiveResume_writes call offer createdAt expiresAt
  | transition call offer phase now => exact transition_writes call offer phase
  | recordTerminal call offer reason now retention =>
    exact recordTerminal_writes hc call offer reason retention
  | expire now retention => exact .swept (moved_expire now retention)
  | retainWithin now retention => exact .swept (moved_retain retention)
  | purge now => exact .purged _

end writes

/-! ### The bounds -/

theorem RegistryOk.sublist {c : CallRegistry} (h : RegistryOk c) {l : List CallRecord}
    (hl : l.Sublist c.records) :
    RegistryOk ⟨l⟩ where
  count := hl.length_le.trans h.count
  ids := h.ids.sublist (hl.map _)
  each r hr := h.each r (hl.subset hr)

theorem RegistryOk.purge {c : CallRegistry} (h : RegistryOk c) (now : ℕ) :
    RegistryOk (c.purge now) :=
  h.sublist List.filter_sublist

theorem RegistryOk.push {c : CallRegistry} (h : RegistryOk c)
    (hroom : c.records.length < maxCallRecords) {r : CallRecord} (hr : RecordOk r)
    (hnew : ∀ r' ∈ c.records, r'.callInstanceId ≠ r.callInstanceId) :
    RegistryOk ⟨c.records ++ [r]⟩ where
  count := by
    simp only [List.length_append, List.length_singleton]
    omega
  ids := by
    rw [List.map_append, List.map_singleton, List.nodup_append]
    refine ⟨h.ids, List.nodup_singleton _, fun id hid id' hid' heq => ?_⟩
    obtain ⟨r', hr', rfl⟩ := List.mem_map.mp hid
    rw [List.mem_singleton] at hid'
    exact hnew r' hr' (heq.trans hid')
  each r' hr' := by
    rcases List.mem_append.mp hr' with hr' | hr'
    · exact h.each r' hr'
    · rw [List.mem_singleton.mp hr']
      exact hr

theorem RegistryOk.changeFirst {c : CallRegistry} (h : RegistryOk c) {p : CallRecord → Bool}
    {f : CallRecord → CallRecord} {r : CallRecord} (hfind : c.records.find? p = some r)
    (hf : Moved r (f r)) :
    RegistryOk ⟨Sona.changeFirst p f c.records⟩ where
  count := by
    rw [length_changeFirst]
    exact h.count
  ids := by
    rw [map_changeFirst hfind hf.call]
    exact h.ids
  each r' hr' := by
    rcases (mem_changeFirst hfind).2.2 r' hr' with rfl | hr'
    · exact hf.ok (h.each r (List.mem_of_find?_eq_some hfind))
    · exact h.each r' hr'

theorem RegistryOk.map {c : CallRegistry} (h : RegistryOk c) {f : CallRecord → CallRecord}
    (hf : ∀ r, Moved r (f r)) :
    RegistryOk ⟨c.records.map f⟩ where
  count := by
    rw [List.length_map]
    exact h.count
  ids := by
    have hid : (fun r => (f r).callInstanceId) = fun r : CallRecord => r.callInstanceId :=
      funext fun r => (hf r).call
    rw [List.map_map]
    change (c.records.map fun r => (f r).callInstanceId).Nodup
    rw [hid]
    exact h.ids
  each r' hr' := by
    obtain ⟨r, hr, rfl⟩ := List.mem_map.mp hr'
    exact (hf r).ok (h.each r hr)

/-- **An operation keeps the bounds.** -/
theorem RegistryOk.write {c c' : CallRegistry} {op : CallOp} {refused : Bool} (h : RegistryOk c)
    (hw : RegistryWrite c op refused c') : RegistryOk c' := by
  cases hw with
  | kept => exact h
  | purged => exact h.purge _
  | pushed r hok hactive hnew hroom =>
    have hsub := makeRoom_sublist c op.time
    have hmade : RegistryOk (c.makeRoom op.time).2 := (h.purge op.time).sublist hsub
    exact hmade.push (makeRoom_length h.count hroom) hok fun r' hr' => hnew r' (hsub.subset hr')
  | changed base p f r hbase hfind hmoved =>
    have hok : RegistryOk base := by
      rcases hbase with rfl | rfl
      · exact h
      · exact h.purge _
    exact hok.changeFirst hfind hmoved
  | swept hmoved => exact (h.map hmoved).purge _

theorem registryOk_run (ops : List CallOp) : RegistryOk (registryAfter ops) := by
  have hstart : RegistryOk {} := ⟨Nat.zero_le _, List.nodup_nil, fun _ hr => by cases hr⟩
  exact Trace.run_inv (fun c op hc => hc.write (callStep_writes hc.count op)) hstart ops

/-! ### What becomes of a record -/

/-- The operation removes the record, or what it has just made of it, as a
tombstone that is due, or to make room in a full registry. -/
def Dropped (c : CallRegistry) (op : CallOp) (r : CallRecord) : Prop :=
  (op.sweep r).isTerminal ∧ ((op.sweep r).due op.time ∨ maxCallRecords ≤ (c.purge op.time).records.length)

theorem isTerminal_of_due {r : CallRecord} {now : ℕ} (h : r.due now) : r.isTerminal := by
  unfold CallRecord.due at h
  unfold CallRecord.isTerminal
  cases hs : r.state with
  | live phase => simp [hs] at h
  | terminal reason retainUntil => rfl

/-- A tombstone, once swept, is one still. -/
theorem isTerminal_sweep (op : CallOp) {r : CallRecord} (h : r.isTerminal) :
    (op.sweep r).isTerminal := by
  unfold CallRecord.isTerminal at h
  cases hs : r.state with
  | live phase => simp [hs] at h
  | terminal reason retainUntil =>
    cases op <;> simp [CallOp.sweep, CallRecord.expire, CallRecord.expirable, CallRecord.retain,
      CallRecord.isTerminal, hs]

/-- A tombstone that is due is due after the sweep. -/
theorem due_sweep (op : CallOp) {r : CallRecord} {now : ℕ} (h : r.due now) :
    (op.sweep r).due now := by
  unfold CallRecord.due at h
  cases hs : r.state with
  | live phase => simp [hs] at h
  | terminal reason retainUntil =>
    rw [hs] at h
    have hle : retainUntil ≤ now := by simpa using h
    cases op <;> simp [CallOp.sweep, CallRecord.expire, CallRecord.expirable, CallRecord.retain,
      CallRecord.due, hs, hle]

theorem dropped_of_due {c : CallRegistry} {op : CallOp} {r : CallRecord}
    (h : (op.sweep r).due op.time) :
    Dropped c op r := ⟨isTerminal_of_due h, Or.inl h⟩

/-- The record lives on in the registry. -/
def LivesOn (c : CallRegistry) (r : CallRecord) : Prop := ∃ r' ∈ c.records, Becomes r r'

theorem livesOn_of_mem {c : CallRegistry} {r : CallRecord} (h : r ∈ c.records) : LivesOn c r :=
  ⟨r, h, Becomes.refl r⟩

/-- The purge leaves a record or the record is due. -/
theorem mem_purge (c : CallRegistry) (now : ℕ) {r : CallRecord} (hr : r ∈ c.records) :
    r ∈ (c.purge now).records ∨ r.due now := by
  by_cases hdue : r.due now = true
  · exact Or.inr hdue
  · refine Or.inl (List.mem_filter.mpr ⟨hr, ?_⟩)
    simpa using hdue

section fate

variable {c c' : CallRegistry} {op : CallOp} {refused : Bool} (h : RegistryWrite c op refused c')
include h

/-- **A record lives on or is dropped as a tombstone.** -/
theorem RegistryWrite.fate : ∀ r ∈ c.records, LivesOn c' r ∨ Dropped c op r := by
  intro r hr
  cases h with
  | kept => exact Or.inl (livesOn_of_mem hr)
  | purged =>
    rcases mem_purge c op.time hr with hkept | hdue
    · exact Or.inl (livesOn_of_mem hkept)
    · exact Or.inr (dropped_of_due (due_sweep op hdue))
  | pushed new hok hactive hnew hroom =>
    rcases mem_purge c op.time hr with hkept | hdue
    · rcases evictTerminals_keeps (c.purge op.time).records.length _ hkept with hmade
        | ⟨hterm, hfull⟩
      · exact Or.inl (livesOn_of_mem (List.mem_append_left _ hmade))
      · exact Or.inr ⟨isTerminal_sweep op hterm, Or.inr hfull⟩
    · exact Or.inr (dropped_of_due (due_sweep op hdue))
  | changed base p f r₀ hbase hfind hmoved =>
    have hmem : r ∈ base.records ∨ r.due op.time := by
      rcases hbase with rfl | rfl
      · exact Or.inl hr
      · exact mem_purge c op.time hr
    rcases hmem with hkept | hdue
    · obtain ⟨hnew, hrest, -⟩ := mem_changeFirst (f := f) hfind
      rcases hrest r hkept with rfl | hstays
      · exact Or.inl ⟨f r, hnew, hmoved.toBecomes⟩
      · exact Or.inl (livesOn_of_mem hstays)
    · exact Or.inr (dropped_of_due (due_sweep op hdue))
  | swept hmoved =>
    have hswept : op.sweep r ∈ c.records.map op.sweep := List.mem_map_of_mem hr
    rcases mem_purge ⟨c.records.map op.sweep⟩ op.time hswept with hkept | hdue
    · exact Or.inl ⟨op.sweep r, hkept, (hmoved r).toBecomes⟩
    · exact Or.inr (dropped_of_due hdue)

/-- A record is active only if it was, or was on the step before. -/
theorem RegistryWrite.active : ∀ r' ∈ c'.records, r'.state = .live .active →
    ∃ r ∈ c.records, r.callInstanceId = r'.callInstanceId ∧ r.won := by
  intro r' hr' hs
  have hpurge : r' ∈ (c.purge op.time).records →
      ∃ r ∈ c.records, r.callInstanceId = r'.callInstanceId ∧ r.won :=
    fun hmem => ⟨r', (List.mem_filter.mp hmem).1, rfl, Or.inr hs⟩
  cases h with
  | kept => exact ⟨r', hr', rfl, Or.inr hs⟩
  | purged => exact hpurge hr'
  | pushed new hok hactive hnew hroom =>
    rcases List.mem_append.mp hr' with hr' | hr'
    · exact hpurge ((makeRoom_sublist c op.time).subset hr')
    · rw [List.mem_singleton.mp hr'] at hs
      exact absurd hs hactive
  | changed base p f r₀ hbase hfind hmoved =>
    have hold : ∀ r ∈ base.records, r ∈ c.records := by
      rcases hbase with rfl | rfl
      · exact fun r hr => hr
      · exact fun r hr => (List.mem_filter.mp hr).1
    rcases (mem_changeFirst hfind).2.2 r' hr' with rfl | hr'
    · exact ⟨r₀, hold r₀ (List.mem_of_find?_eq_some hfind), hmoved.call.symm, hmoved.active hs⟩
    · exact ⟨r', hold r' hr', rfl, Or.inr hs⟩
  | swept hmoved =>
    obtain ⟨r, hr, rfl⟩ := List.mem_map.mp (List.mem_filter.mp hr').1
    exact ⟨r, hr, (hmoved r).call.symm, (hmoved r).active hs⟩

end fate

theorem RegistryWrite.refused {c c' : CallRegistry} {op : CallOp} (h : RegistryWrite c op true c') :
    c' = c ∨ c' = c.purge op.time := by
  cases h with
  | kept => exact Or.inl rfl
  | purged => exact Or.inr rfl

/-- **A record over a run**: it lives on at the end, or at some operation what
it had become was dropped. -/
theorem livesOn_run (ops more : List CallOp) {r : CallRecord}
    (hr : r ∈ (registryAfter ops).records) :
    LivesOn (registryAfter (ops ++ more)) r ∨ ∃ pre op post, more = pre ++ op :: post ∧
      ∃ r' ∈ (registryAfter (ops ++ pre)).records, Becomes r r' ∧
      Dropped (registryAfter (ops ++ pre)) op r' := by
  induction more using List.reverseRecOn with
  | nil =>
    rw [List.append_nil]
    exact Or.inl (livesOn_of_mem hr)
  | append_singleton more op ih =>
    rcases ih with ⟨r', hr', hbecomes⟩ | ⟨pre, op', post, rfl, hdropped⟩
    · have hwrite := callStep_writes (registryOk_run (ops ++ more)).count op
      rcases hwrite.fate r' hr' with ⟨r'', hr'', hbecomes'⟩ | hdropped
      · rw [← List.append_assoc, registryAfter, Trace.run_snoc]
        exact Or.inl ⟨r'', hr'', hbecomes.trans hbecomes'⟩
      · exact Or.inr ⟨more, op, [], rfl, r', hr', hbecomes, hdropped⟩
    · exact Or.inr ⟨pre, op', post ++ [op], by simp, hdropped⟩

/-- **The registry of calls.** In every state it can reach: the bounds hold; an
operation leaves every record living on or drops it as a tombstone, makes a
record active only from `winner`, and at most purges when it is refused; and
over any further operations a record lives on until it is dropped. -/
theorem call_registry_invariant (ops : List CallOp) :
    RegistryOk (registryAfter ops) ∧
    (∀ op, (∀ r ∈ (registryAfter ops).records, LivesOn (callStep (registryAfter ops) op) r ∨ Dropped (registryAfter ops) op r) ∧
      (∀ r' ∈ (callStep (registryAfter ops) op).records, r'.state = .live .active →
        ∃ r ∈ (registryAfter ops).records, r.callInstanceId = r'.callInstanceId ∧ r.won) ∧
      (op.refused (registryAfter ops) = true →
        callStep (registryAfter ops) op = registryAfter ops ∨
          callStep (registryAfter ops) op = (registryAfter ops).purge op.time)) ∧
    ∀ more, ∀ r ∈ (registryAfter ops).records,
      LivesOn (registryAfter (ops ++ more)) r ∨ ∃ pre op post, more = pre ++ op :: post ∧
        ∃ r' ∈ (registryAfter (ops ++ pre)).records, Becomes r r' ∧
        Dropped (registryAfter (ops ++ pre)) op r' := by
  refine ⟨registryOk_run ops, fun op => ?_, fun more r hr => livesOn_run ops more hr⟩
  have hwrite := callStep_writes (registryOk_run ops).count op
  refine ⟨hwrite.fate, hwrite.active, fun hrefused => ?_⟩
  rw [hrefused] at hwrite
  exact hwrite.refused

end Sona
