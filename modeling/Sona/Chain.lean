/-
# The log over any sequence of calls

What holds of every log that `append` and `append_roster` can build, whatever
they are called with. The indices of a name are the positions of its records
and the leaves are the bytes of the records (`KtLog.Indexed`), the bindings of
a name form one chain of ownership (`Chain`), and the rosters of a name are
numbered from zero in each era of its ownership (`eras`). One lemma says what
a call can do (`KtLog.call_cases`), one for each of the two pushes what it
keeps, and the two results are assembled from them: `log_invariant` and
`roster_eras`.

Key definitions: `appendInPlace`, `appendRosterInPlace`, `Chain`, `KtLog.Indexed`, `eras`.
-/
import Mathlib.Data.List.Chain
import Mathlib.Data.List.Sort
import Sona.Lib.Trace
import Sona.Lib.Positions
import Sona.Wire
import Sona.Kt

namespace Sona

/-! ### Calls that change the log in place -/

/-- `append` on `&mut self`: the answer and the log it leaves, field by field. -/
def appendInPlace (C : Crypto) (kt : KtLog) (entry : KtEntry) : Except AppendError ℕ × KtLog :=
  if !entry.verifySignature C then (.error .badSignature, kt) else
  match kt.checkChain entry with
  | .error e => (.error e, kt)
  | .ok () =>
    let index := kt.records.length
    let kt := { kt with tree := kt.tree ++ [entry.leafBytes] }
    let kt :=
      { kt with byUser := kt.byUser.set entry.usernameHash (kt.bindingIndices entry.usernameHash ++ [index]) }
    let kt := { kt with records := kt.records ++ [.binding entry] }
    (.ok index, kt)

/-- `append_roster` on `&mut self`. -/
def appendRosterInPlace (C : Crypto) (kt : KtLog) (roster : KtRosterEntry) :
    Except AppendError ℕ × KtLog :=
  match kt.latestBindingFor roster.usernameHash with
  | none => (.error (.brokenChain "no binding exists for this username"), kt)
  | some current =>
    if current.released then (.error (.brokenChain "no roster changes on a released username"), kt) else
    match roster.validateAgainst C current with
    | .error e => (.error (.roster e), kt)
    | .ok () =>
      let expected := kt.expectedSeq roster.usernameHash
      if roster.seq ≠ expected then
        (.error (.brokenChain s!"roster epoch not contiguous (expected {expected})"), kt) else
      let index := kt.records.length
      let kt := { kt with tree := kt.tree ++ [roster.leafBytes] }
      let kt :=
        { kt with
          rostersByUser := kt.rostersByUser.set roster.usernameHash (kt.rosterIndices roster.usernameHash ++ [index]) }
      let kt := { kt with records := kt.records ++ [.roster roster] }
      (.ok index, kt)

/-- A call of the log. -/
inductive KtCall
  | append (entry : KtEntry)
  | appendRoster (roster : KtRosterEntry)

/-- The answer of a call and the log after it. -/
def KtLog.call (C : Crypto) (kt : KtLog) : KtCall → Except AppendError ℕ × KtLog
  | .append entry => appendInPlace C kt entry
  | .appendRoster roster => appendRosterInPlace C kt roster

/-- A log before its first call. -/
def freshLog (grace : ℕ) : KtLog := { releaseGraceSecs := grace }

/-- The log after the calls, accepted and refused. -/
def KtLog.calls (C : Crypto) (kt : KtLog) (cs : List KtCall) : KtLog :=
  Trace.run (fun kt c => (kt.call C c).2) kt cs

/-- The answer and the log, from the result of `append` or `appendRoster`. -/
def settle (kt : KtLog) : Except AppendError (ℕ × KtLog) → Except AppendError ℕ × KtLog
  | .error e => (.error e, kt)
  | .ok (i, kt') => (.ok i, kt')

theorem appendInPlace_eq (C : Crypto) (kt : KtLog) (entry : KtEntry) :
    appendInPlace C kt entry = settle kt (kt.append C entry) := by
  unfold appendInPlace KtLog.append
  split
  · rfl
  · cases kt.checkChain entry <;> rfl

/-! ### What a call can do -/

/-- The bytes of a record as a leaf. -/
def KtRecord.leafBytes : KtRecord → Bytes
  | .binding e => e.leafBytes
  | .roster r => r.leafBytes

/-- The record is a binding of `u`. -/
def KtRecord.bindingOf (u : String) : KtRecord → Option KtEntry
  | .binding e => if e.usernameHash = u then some e else none
  | .roster _ => none

/-- The record is a roster of `u`. -/
def KtRecord.rosterOf (u : String) : KtRecord → Option KtRosterEntry
  | .binding _ => none
  | .roster r => if r.usernameHash = u then some r else none

/-- The bindings of a name in log order. -/
def bindingsOf (u : String) (records : List KtRecord) : List KtEntry :=
  records.filterMap (·.bindingOf u)

/-- The indices are the positions of the records of the name, and the leaves are
the bytes of the records. -/
structure KtLog.Indexed (kt : KtLog) : Prop where
  binding : ∀ u, kt.bindingIndices u = positions (fun r => (r.bindingOf u).isSome) kt.records
  roster : ∀ u, kt.rosterIndices u = positions (fun r => (r.rosterOf u).isSome) kt.records
  leaves : kt.tree = kt.records.map KtRecord.leafBytes

theorem KtRecord.bindingOf_eq_some {u : String} {r : KtRecord} {e : KtEntry} :
    r.bindingOf u = some e ↔ r = .binding e ∧ e.usernameHash = u := by
  cases r with
  | binding e' =>
    simp only [KtRecord.bindingOf, Option.ite_none_right_eq_some, Option.some.injEq,
      KtRecord.binding.injEq]
    constructor
    · rintro ⟨hu, rfl⟩
      exact ⟨rfl, hu⟩
    · rintro ⟨rfl, hu⟩
      exact ⟨hu, rfl⟩
  | roster r => simp [KtRecord.bindingOf]

theorem KtRecord.rosterOf_eq_some {u : String} {r : KtRecord} {e : KtRosterEntry} :
    r.rosterOf u = some e ↔ r = .roster e ∧ e.usernameHash = u := by
  cases r with
  | binding e' => simp [KtRecord.rosterOf]
  | roster r' =>
    simp only [KtRecord.rosterOf, Option.ite_none_right_eq_some, Option.some.injEq,
      KtRecord.roster.injEq]
    constructor
    · rintro ⟨hu, rfl⟩
      exact ⟨rfl, hu⟩
    · rintro ⟨rfl, hu⟩
      exact ⟨hu, rfl⟩

theorem KtLog.bindingAt_eq_some {kt : KtLog} {i : ℕ} {e : KtEntry} :
    kt.bindingAt i = some e ↔ kt.records[i]? = some (.binding e) := by
  unfold KtLog.bindingAt
  split
  · rename_i e' he
    simp [he]
  · rename_i hno
    simp only [reduceCtorEq, false_iff]
    exact fun h => hno e h

theorem KtLog.rosterAt_eq_some {kt : KtLog} {i : ℕ} {r : KtRosterEntry} :
    kt.rosterAt i = some r ↔ kt.records[i]? = some (.roster r) := by
  unfold KtLog.rosterAt
  split
  · rename_i r' hr
    simp [hr]
  · rename_i hno
    simp only [reduceCtorEq, false_iff]
    exact fun h => hno r h

section indexed

variable {kt : KtLog} (h : kt.Indexed) {u : String} {i : ℕ}
include h

theorem KtLog.Indexed.mem_binding : i ∈ kt.bindingIndices u ↔
    ∃ e, kt.records[i]? = some (.binding e) ∧ e.usernameHash = u := by
  rw [h.binding, mem_positions]
  constructor
  · rintro ⟨r, hr, hs⟩
    obtain ⟨e, he⟩ := Option.isSome_iff_exists.mp hs
    obtain ⟨rfl, hu⟩ := KtRecord.bindingOf_eq_some.mp he
    exact ⟨e, hr, hu⟩
  · rintro ⟨e, hr, hu⟩
    exact ⟨_, hr, by simp [KtRecord.bindingOf, hu]⟩

theorem KtLog.Indexed.mem_roster : i ∈ kt.rosterIndices u ↔
    ∃ r, kt.records[i]? = some (.roster r) ∧ r.usernameHash = u := by
  rw [h.roster, mem_positions]
  constructor
  · rintro ⟨r, hr, hs⟩
    obtain ⟨e, he⟩ := Option.isSome_iff_exists.mp hs
    obtain ⟨rfl, hu⟩ := KtRecord.rosterOf_eq_some.mp he
    exact ⟨e, hr, hu⟩
  · rintro ⟨e, hr, hu⟩
    exact ⟨_, hr, by simp [KtRecord.rosterOf, hu]⟩

theorem KtLog.Indexed.wf : kt.Wf where
  binding u i hi := by
    obtain ⟨e, he, hu⟩ := h.mem_binding.mp hi
    exact ⟨e, KtLog.bindingAt_eq_some.mpr he, hu⟩
  roster u i hi := by
    obtain ⟨r, hr, hu⟩ := h.mem_roster.mp hi
    exact ⟨r, KtLog.rosterAt_eq_some.mpr hr, hu⟩

/-- The head of a name is the last of its bindings. -/
theorem KtLog.Indexed.latestBindingFor :
    kt.latestBindingFor u = (bindingsOf u kt.records).getLast? := by
  unfold KtLog.latestBindingFor KtLog.latestIndexFor bindingsOf
  rw [← getLast?_positions, ← h.binding]
  cases hi : (kt.bindingIndices u).getLast? with
  | none => rfl
  | some i =>
    obtain ⟨e, he, hu⟩ := h.mem_binding.mp (List.mem_of_getLast? hi)
    simp only [Option.bind_some, KtLog.bindingAt_eq_some.mpr he, he]
    exact (KtRecord.bindingOf_eq_some.mpr ⟨rfl, hu⟩).symm

theorem KtLog.Indexed.pushBinding (entry : KtEntry) : (kt.pushBinding entry).Indexed where
  binding u := by
    rw [KtLog.bindingIndices_pushBinding, h.binding]
    change _ = positions _ (kt.records ++ [.binding entry])
    rw [positions_snoc]
    by_cases hu : u = entry.usernameHash
    · simp [KtRecord.bindingOf, hu]
    · simp [KtRecord.bindingOf, hu, Ne.symm hu]
  roster u := by
    change kt.rosterIndices u = positions _ (kt.records ++ [.binding entry])
    rw [positions_snoc, h.roster]
    simp [KtRecord.rosterOf]
  leaves := by
    change kt.tree ++ [entry.leafBytes] =
      (kt.records ++ [KtRecord.binding entry]).map KtRecord.leafBytes
    rw [List.map_append, h.leaves]
    rfl

theorem KtLog.Indexed.pushRoster (roster : KtRosterEntry) : (kt.pushRoster roster).Indexed where
  binding u := by
    change kt.bindingIndices u = positions _ (kt.records ++ [.roster roster])
    rw [positions_snoc, h.binding]
    simp [KtRecord.bindingOf]
  roster u := by
    rw [KtLog.rosterIndices_pushRoster, h.roster]
    change _ = positions _ (kt.records ++ [.roster roster])
    rw [positions_snoc]
    by_cases hu : u = roster.usernameHash
    · simp [KtRecord.rosterOf, hu]
    · simp [KtRecord.rosterOf, hu, Ne.symm hu]
  leaves := by
    change kt.tree ++ [roster.leafBytes] =
      (kt.records ++ [KtRecord.roster roster]).map KtRecord.leafBytes
    rw [List.map_append, h.leaves]
    rfl

end indexed

theorem indexed_fresh (grace : ℕ) : (freshLog grace).Indexed where
  binding _ := rfl
  roster _ := rfl
  leaves := rfl

/-- The `expect` in `append` does not fire where the indices point at bindings. -/
theorem KtLog.Wf.checkChain_ne_panic {kt : KtLog} (h : kt.Wf) {entry : KtEntry} {why : String} :
    kt.checkChain entry ≠ .error (.panic why) := by
  unfold KtLog.checkChain
  cases hi : kt.latestIndexFor entry.usernameHash with
  | none =>
    dsimp only
    split <;> simp
  | some i =>
    obtain ⟨last, hl, -⟩ := h.binding _ i (List.mem_of_getLast? hi)
    simp only [hl]
    repeat' split
    all_goals simp

/-- **What a call can do.** It is refused and leaves the log as it was; or the
entry is well signed, continues the chain of its name and is pushed; or the
roster is valid against the unreleased binding its name stands at, has the next
epoch and is pushed. -/
theorem KtLog.call_cases (C : Crypto) {kt : KtLog} (h : kt.Wf) (c : KtCall) :
    (∃ e, kt.call C c = (.error e, kt) ∧ ∀ why, e ≠ .panic why) ∨
    (∃ entry, c = .append entry ∧ kt.call C c = (.ok kt.records.length, kt.pushBinding entry) ∧
      entry.verifySignature C = true ∧
      Continues kt.releaseGraceSecs (kt.latestBindingFor entry.usernameHash) entry) ∨
    (∃ roster current, c = .appendRoster roster ∧
      kt.call C c = (.ok kt.records.length, kt.pushRoster roster) ∧
      kt.latestBindingFor roster.usernameHash = some current ∧ current.released = false ∧
      roster.validateAgainst C current = .ok () ∧
      roster.seq = kt.expectedSeq roster.usernameHash) := by
  cases c with
  | append entry =>
    simp only [KtLog.call, appendInPlace_eq]
    cases ha : kt.append C entry with
    | ok p =>
      obtain ⟨i, kt'⟩ := p
      obtain ⟨hsig, hcont, rfl⟩ := KtLog.append_cases h ha
      have hi : i = kt.records.length := by
        unfold KtLog.append at ha
        repeat' split at ha
        all_goals cases ha
        rfl
      exact Or.inr (Or.inl ⟨entry, rfl, by rw [settle, hi], hsig, hcont⟩)
    | error e =>
      refine Or.inl ⟨e, rfl, ?_⟩
      rintro why rfl
      unfold KtLog.append at ha
      split at ha
      · cases ha
      · split at ha
        · rename_i hc
          cases ha
          exact h.checkChain_ne_panic hc
        · cases ha
  | appendRoster roster =>
    simp only [KtLog.call]
    unfold appendRosterInPlace
    cases hl : kt.latestBindingFor roster.usernameHash with
    | none => exact Or.inl ⟨_, rfl, by simp⟩
    | some current =>
      dsimp only
      split
      · exact Or.inl ⟨_, rfl, by simp⟩
      rename_i hrel
      split
      · exact Or.inl ⟨_, rfl, by simp⟩
      rename_i hval
      split
      · exact Or.inl ⟨_, rfl, by simp⟩
      rename_i hseq
      exact Or.inr (Or.inr ⟨roster, current, rfl, rfl, hl, by simpa using hrel, hval, not_not.mp hseq⟩)

/-! ### The chain of a name -/

/-- The entry is signed by the key. -/
def KtEntry.SignedBy (C : Crypto) (e : KtEntry) (key : String) : Prop :=
  C.verifyEd25519 key e.signingPayload e.signature = true

/-- How an entry may stand behind `last`: it names the key of `last` and is
signed by it, or it names none, is signed by its own, and `last` is a release
whose grace is over. -/
def Follows (C : Crypto) (grace : ℕ) (last e : KtEntry) : Prop :=
  (e.prevSigningKey = some last.signingKey ∧ e.SignedBy C last.signingKey) ∨
    (e.prevSigningKey = none ∧ e.SignedBy C e.signingKey ∧ last.released = true ∧
      saturatingAdd last.timestamp grace ≤ e.timestamp)

/-- One chain of ownership: numbered from zero, opened by a claim under its own
key, and each entry follows the one before. -/
structure Chain (C : Crypto) (grace : ℕ) (es : List KtEntry) : Prop where
  seqs : es.map (·.seq) = List.range es.length
  first : ∀ e ∈ es.head?, e.prevSigningKey = none ∧ e.SignedBy C e.signingKey
  next : es.IsChain (Follows C grace)

theorem chain_nil (C : Crypto) (grace : ℕ) : Chain C grace [] where
  seqs := rfl
  first := by simp
  next := List.isChain_nil

/-- An entry that was checked against the last of the chain extends it. -/
theorem Chain.snoc {C : Crypto} {grace : ℕ} {es : List KtEntry} (h : Chain C grace es) {e : KtEntry}
    (hsig : e.verifySignature C = true) (hc : Continues grace es.getLast? e) :
    Chain C grace (es ++ [e]) := by
  have hself : e.prevSigningKey = none → e.SignedBy C e.signingKey := by
    intro hp
    simpa [KtEntry.SignedBy, KtEntry.verifySignature, KtEntry.signer, hp] using hsig
  rcases List.eq_nil_or_concat es with rfl | ⟨init, last, rfl⟩
  · obtain ⟨hseq, hp⟩ : e.seq = 0 ∧ e.prevSigningKey = none := hc
    exact ⟨by simp [hseq], by simpa using ⟨hp, hself hp⟩, by simp⟩
  · simp only [List.concat_eq_append, List.getLast?_append, List.getLast?_singleton,
      Option.some_or] at hc h ⊢
    obtain ⟨hseq, hc⟩ := hc
    have hlast : last.seq = init.length := by
      have hs := congrArg List.getLast? h.seqs
      simpa [List.range_succ] using hs
    refine ⟨?_, ?_, ?_⟩
    · have hs := h.seqs
      simp only [List.map_append, List.map_cons, List.map_nil, List.length_append,
        List.length_singleton] at hs ⊢
      rw [hs, hseq, hlast]
      exact List.range_succ.symm
    · intro e' he'
      refine h.first e' ?_
      cases init with
      | nil => simpa using he'
      | cons a init => simpa using he'
    · refine List.isChain_append.mpr ⟨h.next, List.isChain_singleton e, ?_⟩
      intro x hx y hy
      obtain rfl : last = x := by simpa using hx
      obtain rfl : e = y := by simpa using hy
      rcases hc with hp | ⟨hp, hrel, hg⟩
      · refine Or.inl ⟨hp, ?_⟩
        simpa [KtEntry.SignedBy, KtEntry.verifySignature, KtEntry.signer, hp] using hsig
      · exact Or.inr ⟨hp, hself hp, hrel, hg⟩

/-- The invariant of the log: it is indexed, and every name has one chain. -/
structure KtLog.Owned (C : Crypto) (grace : ℕ) (kt : KtLog) : Prop where
  indexed : kt.Indexed
  graceSecs : kt.releaseGraceSecs = grace
  chain : ∀ u, Chain C grace (bindingsOf u kt.records)

theorem owned_fresh (C : Crypto) (grace : ℕ) : (freshLog grace).Owned C grace where
  indexed := indexed_fresh grace
  graceSecs := rfl
  chain _ := chain_nil C grace

theorem bindingsOf_snoc (u : String) (records : List KtRecord) (r : KtRecord) :
    bindingsOf u (records ++ [r]) = bindingsOf u records ++ (r.bindingOf u).toList := by
  unfold bindingsOf
  rw [List.filterMap_append]
  cases hr : r.bindingOf u <;> simp [hr]

section owned

variable {C : Crypto} {grace : ℕ} {kt : KtLog} (h : kt.Owned C grace)
include h

theorem KtLog.Owned.pushBinding {entry : KtEntry} (hsig : entry.verifySignature C = true)
    (hc : Continues kt.releaseGraceSecs (kt.latestBindingFor entry.usernameHash) entry) :
    (kt.pushBinding entry).Owned C grace where
  indexed := h.indexed.pushBinding entry
  graceSecs := h.graceSecs
  chain u := by
    change Chain C grace (bindingsOf u (kt.records ++ [.binding entry]))
    rw [bindingsOf_snoc]
    by_cases hu : entry.usernameHash = u
    · rw [h.graceSecs, h.indexed.latestBindingFor, hu] at hc
      simpa [KtRecord.bindingOf, hu] using (h.chain u).snoc hsig hc
    · simpa [KtRecord.bindingOf, hu] using h.chain u

theorem KtLog.Owned.pushRoster (roster : KtRosterEntry) : (kt.pushRoster roster).Owned C grace where
  indexed := h.indexed.pushRoster roster
  graceSecs := h.graceSecs
  chain u := by
    change Chain C grace (bindingsOf u (kt.records ++ [.roster roster]))
    rw [bindingsOf_snoc]
    simpa [KtRecord.bindingOf] using h.chain u

theorem KtLog.Owned.call (c : KtCall) : (kt.call C c).2.Owned C grace := by
  rcases KtLog.call_cases C h.indexed.wf c with ⟨e, hc, -⟩ | ⟨entry, -, hc, hsig, hcont⟩
    | ⟨roster, current, -, hc, -⟩
  · rw [hc]
    exact h
  · rw [hc]
    exact h.pushBinding hsig hcont
  · rw [hc]
    exact h.pushRoster roster

end owned

theorem owned_calls (C : Crypto) (grace : ℕ) (cs : List KtCall) :
    ((freshLog grace).calls C cs).Owned C grace :=
  Trace.run_inv (fun _ c h => h.call c) (owned_fresh C grace) cs

/-- What is promised of the log after any calls. -/
structure OwnershipInvariant (C : Crypto) (grace : ℕ) (kt : KtLog) : Prop where
  chain : ∀ u, Chain C grace (bindingsOf u kt.records)
  byUser_increasing : ∀ u, (kt.bindingIndices u).Pairwise (· < ·)
  rostersByUser_increasing : ∀ u, (kt.rosterIndices u).Pairwise (· < ·)
  byUser : ∀ u, ∀ i ∈ kt.bindingIndices u, ∃ e, kt.records[i]? = some (.binding e) ∧
    e.usernameHash = u
  rostersByUser : ∀ u, ∀ i ∈ kt.rosterIndices u, ∃ r, kt.records[i]? = some (.roster r) ∧
    r.usernameHash = u
  disjoint_byUser : ∀ u v, u ≠ v → List.Disjoint (kt.bindingIndices u) (kt.bindingIndices v)
  disjoint_rostersByUser : ∀ u v, u ≠ v → List.Disjoint (kt.rosterIndices u) (kt.rosterIndices v)
  disjoint_kinds : ∀ u v, List.Disjoint (kt.bindingIndices u) (kt.rosterIndices v)
  cover : ∀ i < kt.records.length, ∃ u, i ∈ kt.bindingIndices u ∨ i ∈ kt.rosterIndices u
  leaves : kt.tree = kt.records.map KtRecord.leafBytes
  refused : ∀ c e, (kt.call C c).1 = .error e → (kt.call C c).2 = kt ∧ ∀ why, e ≠ .panic why

theorem KtLog.Owned.invariant {C : Crypto} {grace : ℕ} {kt : KtLog} (h : kt.Owned C grace) :
    OwnershipInvariant C grace kt where
  chain := h.chain
  byUser_increasing u := by
    rw [h.indexed.binding]
    exact positions_sorted _ _
  rostersByUser_increasing u := by
    rw [h.indexed.roster]
    exact positions_sorted _ _
  byUser u i hi := h.indexed.mem_binding.mp hi
  rostersByUser u i hi := h.indexed.mem_roster.mp hi
  disjoint_byUser u v huv i hi hj := by
    obtain ⟨e, he, rfl⟩ := h.indexed.mem_binding.mp hi
    obtain ⟨e', he', rfl⟩ := h.indexed.mem_binding.mp hj
    rw [he] at he'
    cases he'
    exact huv rfl
  disjoint_rostersByUser u v huv i hi hj := by
    obtain ⟨r, hr, rfl⟩ := h.indexed.mem_roster.mp hi
    obtain ⟨r', hr', rfl⟩ := h.indexed.mem_roster.mp hj
    rw [hr] at hr'
    cases hr'
    exact huv rfl
  disjoint_kinds u v i hi hj := by
    obtain ⟨e, he, -⟩ := h.indexed.mem_binding.mp hi
    obtain ⟨r, hr, -⟩ := h.indexed.mem_roster.mp hj
    rw [he] at hr
    cases hr
  cover i hi := by
    cases hr : kt.records[i] with
    | binding e =>
      exact ⟨e.usernameHash, Or.inl (h.indexed.mem_binding.mpr ⟨e, by rw [List.getElem?_eq_getElem hi, hr], rfl⟩)⟩
    | roster r =>
      exact ⟨r.usernameHash, Or.inr (h.indexed.mem_roster.mpr ⟨r, by rw [List.getElem?_eq_getElem hi, hr], rfl⟩)⟩
  leaves := h.indexed.leaves
  refused c e he := by
    rcases KtLog.call_cases C h.indexed.wf c with
      ⟨e', hc, hp⟩ | ⟨entry, -, hc, -⟩ | ⟨roster, current, -, hc, -⟩
    · rw [hc] at he ⊢
      cases he
      exact ⟨rfl, hp⟩
    · rw [hc] at he
      cases he
    · rw [hc] at he
      cases he

/-- **The ownership invariant.** It holds after any calls on a fresh log. -/
theorem log_invariant (C : Crypto) (grace : ℕ) (cs : List KtCall) :
    OwnershipInvariant C grace ((freshLog grace).calls C cs) :=
  (owned_calls C grace cs).invariant

/-! ### Eras and their rosters -/

/-- The record is a binding of `u` under its own key: it opens an era. -/
def KtRecord.opensEra (u : String) (r : KtRecord) : Bool :=
  (r.bindingOf u).any fun e => e.prevSigningKey.isNone

/-- The rosters of a name in log order. -/
def rostersOf (u : String) (records : List KtRecord) : List KtRosterEntry :=
  records.filterMap (·.rosterOf u)

/-- The records from `i` to `j` lie in one era of `u`, which `i` opens. -/
structure Era (u : String) (records : List KtRecord) (i j : ℕ) : Prop where
  lt : i < j
  le : j ≤ records.length
  opened : records[i]?.any (·.opensEra u) = true
  inside : ∀ k, i < k → k < j → records[k]?.any (·.opensEra u) = false

/-- The records from `i` up to `j`. -/
def between (records : List KtRecord) (i j : ℕ) : List KtRecord := (records.take j).drop i

/-- All leaves of a name, bindings and rosters together, in log order. -/
def KtLog.allIndicesFor (kt : KtLog) (usernameHash : String) : List ℕ :=
  (kt.bindingIndices usernameHash ++ kt.rosterIndices usernameHash).mergeSort

theorem rostersOf_append (u : String) (l l' : List KtRecord) :
    rostersOf u (l ++ l') = rostersOf u l ++ rostersOf u l' :=
  List.filterMap_append

theorem KtRecord.rosterOf_of_opensEra {u : String} {r : KtRecord} (h : r.opensEra u = true) :
    r.rosterOf u = none := by
  cases r with
  | binding e => rfl
  | roster r => simp [KtRecord.opensEra, KtRecord.bindingOf] at h

section snoc

variable {u : String} {records : List KtRecord} {r : KtRecord} {i j : ℕ}

theorem between_append (hj : j ≤ records.length) :
    between (records ++ [r]) i j = between records i j := by
  unfold between
  rw [List.take_append_of_le_length hj]

theorem between_all (hi : i ≤ records.length) :
    between (records ++ [r]) i (records.length + 1) = between records i records.length ++ [r] := by
  unfold between
  rw [List.take_of_length_le (by simp), List.take_length, List.drop_append_of_le_length hi]

/-- An era that ends before the last record is an era without it. -/
theorem Era.of_snoc (h : Era u (records ++ [r]) i j) (hj : j ≤ records.length) :
    Era u records i j where
  lt := h.lt
  le := hj
  opened := by
    have := h.opened
    rwa [List.getElem?_append_left (Nat.lt_of_lt_of_le h.lt hj)] at this
  inside k hik hkj := by
    have := h.inside k hik hkj
    rwa [List.getElem?_append_left (Nat.lt_of_lt_of_le hkj hj)] at this

/-- An era up to the last record that was opened before it. -/
theorem Era.of_snoc_all (h : Era u (records ++ [r]) i (records.length + 1))
    (hi : i < records.length) :
    Era u records i records.length :=
  Era.of_snoc ⟨hi, by simp, h.opened, fun k hik hk => h.inside k hik (by omega)⟩ le_rfl

end snoc

/-- The rosters of the eras are numbered from zero. -/
def RostersNumbered (records : List KtRecord) : Prop :=
  ∀ u i j, Era u records i j →
    (rostersOf u (between records i j)).map (·.seq) = List.range (rostersOf u (between records i j)).length

section era

variable {kt : KtLog} (h : kt.Indexed) {u : String} {i : ℕ}
  (he : Era u kt.records i kt.records.length)
include h he

/-- The record that opened the running era is the one `append_roster` looks for. -/
theorem Era.eraStart : kt.eraStart u = i := by
  have htest : ∀ k ∈ kt.bindingIndices u,
      ((kt.bindingAt k).any fun e => e.prevSigningKey.isNone) = kt.records[k]?.any
      (·.opensEra u) := by
    intro k hk
    obtain ⟨e, he, hu⟩ := h.mem_binding.mp hk
    simp [KtLog.bindingAt_eq_some.mpr he, he, KtRecord.opensEra, KtRecord.bindingOf, hu]
  have hi : i ∈ kt.bindingIndices u := by
    obtain ⟨r, hr, ho⟩ := (Option.any_eq_true _ _).mp he.opened
    obtain ⟨e, hb, -⟩ := (Option.any_eq_true _ _).mp ho
    obtain ⟨rfl, hu⟩ := KtRecord.bindingOf_eq_some.mp hb
    exact h.mem_binding.mpr ⟨e, hr, hu⟩
  have hsorted : (kt.bindingIndices u).Pairwise (· < ·) := h.binding u ▸ positions_sorted _ _
  unfold KtLog.eraStart
  rw [find?_reverse_of_sorted (by rw [htest i hi, he.opened]) hsorted hi, Option.getD_some]
  intro k hk hik
  rw [htest k hk]
  exact he.inside k hik (lt_of_mem_positions (h.binding u ▸ hk))

/-- The epoch `append_roster` expects is the number of rosters of the era. -/
theorem Era.expectedSeq (hn : RostersNumbered kt.records) :
    kt.expectedSeq u = (rostersOf u (between kt.records i kt.records.length)).length := by
  have hb : between kt.records i kt.records.length = kt.records.drop i := by
    unfold between
    rw [List.take_length]
  have hseqs := hn u i _ he
  rw [hb] at hseqs ⊢
  unfold KtLog.expectedSeq
  rw [he.eraStart h]
  cases hk : kt.latestRosterIndexFor u with
  | none =>
    have hnil : positions (fun r => (r.rosterOf u).isSome) kt.records = [] := by
      rw [← h.roster]
      exact List.getLast?_eq_none_iff.mp hk
    symm
    rw [List.length_eq_zero_iff]
    refine List.filterMap_eq_nil_iff.mpr fun r hr => ?_
    obtain ⟨k, hk⟩ := List.mem_iff_getElem?.mp (List.mem_of_mem_drop hr)
    by_contra hsome
    have : k ∈ positions (fun r => (r.rosterOf u).isSome) kt.records :=
      mem_positions.mpr ⟨r, hk, Option.isSome_iff_ne_none.mpr hsome⟩
    simp [hnil] at this
  | some k =>
    obtain ⟨r, hr, hu⟩ := h.mem_roster.mp (List.mem_of_getLast? hk)
    have hpos : (positions (fun r => (r.rosterOf u).isSome) kt.records).getLast? = some k := by
      rw [← h.roster]
      exact hk
    have hlast := getLast?_filterMap_drop (KtRecord.rosterOf u) (i := i) hpos
    -- the record that opened the era is no roster
    have hne : i ≠ k := by
      rintro rfl
      have := he.opened
      simp [hr, KtRecord.opensEra, KtRecord.bindingOf] at this
    dsimp only
    split
    · rename_i hik
      rw [if_pos (Nat.le_of_lt hik), hr, Option.bind_some,
        KtRecord.rosterOf_eq_some.mpr ⟨rfl, hu⟩] at hlast
      simp only [KtLog.rosterAt_eq_some.mpr hr]
      have hs := congrArg List.getLast? hseqs
      rw [List.getLast?_map, rostersOf, hlast, List.getLast?_range] at hs
      unfold rostersOf
      split at hs
      · cases hs
      · simp only [Option.map_some, Option.some.injEq] at hs
        omega
    · rename_i hik
      rw [if_neg (by omega), List.getLast?_eq_none_iff] at hlast
      rw [rostersOf, hlast]
      rfl

end era

/-- Where the first binding of a name is under its own key, the records end in an era of it. -/
theorem exists_era {u : String} {records : List KtRecord} {e : KtEntry}
    (he : (bindingsOf u records).head? = some e) (hp : e.prevSigningKey = none) :
    ∃ i, Era u records i records.length := by
  obtain ⟨r, hr, hb⟩ := List.mem_filterMap.mp (List.mem_of_head? he)
  obtain ⟨m, hm⟩ := List.mem_iff_getElem?.mp hr
  have hmem : m ∈ positions (·.opensEra u) records :=
    mem_positions.mpr ⟨r, hm, by simp [KtRecord.opensEra, hb, hp]⟩
  obtain ⟨i, hi⟩ := Option.isSome_iff_exists.mp (List.getLast?_isSome.mpr (List.ne_nil_of_mem hmem))
  have hipos := List.mem_of_getLast? hi
  obtain ⟨r', hr', ho⟩ := mem_positions.mp hipos
  refine ⟨i, lt_of_mem_positions hipos, le_rfl, by simp [hr', ho], ?_⟩
  intro k hik hk
  by_contra hopen
  have hkpos : k ∈ positions (·.opensEra u) records := by
    obtain ⟨a, ha, hq⟩ := (Option.any_eq_true _ _).mp (Bool.not_eq_false _ ▸ hopen)
    exact mem_positions.mpr ⟨a, ha, hq⟩
  have hle := le_getLast?_of_sorted (positions_sorted _ _) hi hkpos
  omega

/-- What one more record does to the numbering: a roster must carry the length
of the era it joins. -/
theorem RostersNumbered.snoc {records : List KtRecord} (h : RostersNumbered records) {r : KtRecord}
    (hr : ∀ u roster i, r.rosterOf u = some roster → Era u records i records.length →
      roster.seq = (rostersOf u (between records i records.length)).length) :
    RostersNumbered (records ++ [r]) := by
  intro u i j he
  by_cases hj : j ≤ records.length
  · rw [between_append hj]
    exact h u i j (he.of_snoc hj)
  · have hlen := he.le
    simp only [List.length_append, List.length_singleton] at hlen
    obtain rfl : j = records.length + 1 := by omega
    have hile : i ≤ records.length := Nat.le_of_lt_succ he.lt
    rw [between_all hile, rostersOf_append]
    have hone : rostersOf u [r] = (r.rosterOf u).toList := by
      cases hro : r.rosterOf u <;> simp [rostersOf, hro]
    rw [hone]
    by_cases hi : i < records.length
    · have hera := he.of_snoc_all hi
      have hold := h u i _ hera
      cases hro : r.rosterOf u with
      | none => simpa using hold
      | some roster =>
        simp only [Option.toList_some, List.map_append, List.map_cons, List.map_nil,
          List.length_append, List.length_singleton]
        rw [hold, hr u roster i hro hera, List.range_succ]
    · -- the last record opens the era itself
      obtain rfl : i = records.length := by omega
      have hopen := he.opened
      rw [List.getElem?_concat_length, Option.any_some] at hopen
      rw [KtRecord.rosterOf_of_opensEra hopen]
      simp [rostersOf, between]

/-- The name of a record. -/
def KtRecord.usernameHash : KtRecord → String
  | .binding e => e.usernameHash
  | .roster r => r.usernameHash

/-- What `validate_against` promises: the account key signed the roster, one
device is the primary and carries the keys of the account, the ids are distinct,
and every device proves possession of its key. -/
structure RosterChecked (C : Crypto) (roster : KtRosterEntry) (current : KtEntry) : Prop where
  signed : C.verifyEd25519 current.signingKey roster.signingPayload roster.signature = true
  onePrimary : roster.devices.countP (fun d => d.deviceId = primaryDeviceId) = 1
  primaryKeys : ∀ d ∈ roster.devices, d.deviceId = primaryDeviceId →
    d.identityKey = current.identityKey ∧ d.signingKey = current.signingKey
  ids : (roster.devices.map (·.deviceId)).Nodup
  proofs : ∀ d ∈ roster.devices, d.verify C roster.usernameHash = true

theorem checkDevices_primaries {C : Crypto} {u : String} {current : KtEntry} :
    ∀ {ds seen : List DeviceRecord} {primaries n : ℕ},
      checkDevices C u current seen primaries ds = .ok n →
      n = primaries + ds.countP (fun d => d.deviceId = primaryDeviceId)
  | [], _, _, _, h => by
    cases h
    rfl
  | d :: ds, seen, primaries, n, h => by
    unfold checkDevices at h
    iterate 4
      split at h
      · cases h
    rw [checkDevices_primaries h, List.countP_cons]
    by_cases hd : d.deviceId = primaryDeviceId
    · simp only [hd, if_true, decide_true]
      omega
    · simp [hd]

theorem RosterChecked.of_validateAgainst {C : Crypto} {roster : KtRosterEntry} {current : KtEntry}
    (h : roster.validateAgainst C current = .ok ()) : RosterChecked C roster current := by
  obtain ⟨hsig, hids, hall⟩ := KtRosterEntry.validateAgainst_ok h
  refine ⟨hsig, ?_, fun d hd => (hall d hd).2.2, hids, fun d hd => (hall d hd).2.1⟩
  unfold KtRosterEntry.validateAgainst at h
  iterate 3
    split at h
    · cases h
  rename_i primaries hdev
  split at h
  · cases h
  rename_i hone
  have := checkDevices_primaries hdev
  omega

/-- The roster at `k` was checked against the binding its name stood at then,
and that was no release. -/
def Stood (C : Crypto) (records : List KtRecord) (k : ℕ) (roster : KtRosterEntry) : Prop :=
  ∃ current, (bindingsOf roster.usernameHash (records.take k)).getLast? = some current ∧
    current.released = false ∧ roster.validateAgainst C current = .ok ()

/-- The invariant of the rosters. -/
structure KtLog.Rostered (C : Crypto) (grace : ℕ) (kt : KtLog) : Prop extends kt.Owned C grace where
  numbered : RostersNumbered kt.records
  stood : ∀ k roster, kt.records[k]? = some (.roster roster) → Stood C kt.records k roster

theorem rostered_fresh (C : Crypto) (grace : ℕ) : (freshLog grace).Rostered C grace where
  toOwned := owned_fresh C grace
  numbered u i j h := by
    obtain rfl : j = 0 := by simpa [freshLog] using h.le
    exact absurd h.lt (Nat.not_lt_zero i)
  stood k roster h := by simp [freshLog] at h

theorem Stood.snoc {C : Crypto} {records : List KtRecord} {k : ℕ} {roster : KtRosterEntry}
    (h : Stood C records k roster) (hk : k ≤ records.length) (r : KtRecord) :
    Stood C (records ++ [r]) k roster := by
  unfold Stood
  rwa [List.take_append_of_le_length hk]

section rostered

variable {C : Crypto} {grace : ℕ} {kt : KtLog} (h : kt.Rostered C grace)
include h

theorem KtLog.Rostered.pushBinding {entry : KtEntry} (hsig : entry.verifySignature C = true)
    (hc : Continues kt.releaseGraceSecs (kt.latestBindingFor entry.usernameHash) entry) :
    (kt.pushBinding entry).Rostered C grace where
  toOwned := h.toOwned.pushBinding hsig hc
  numbered := h.numbered.snoc fun u roster i hr => by cases hr
  stood k roster hk := by
    change (kt.records ++ [KtRecord.binding entry])[k]? = _ at hk
    rw [List.getElem?_append] at hk
    split at hk
    · rename_i hlt
      exact (h.stood k roster hk).snoc (Nat.le_of_lt hlt) _
    · cases List.mem_singleton.mp (List.mem_of_getElem? hk)

theorem KtLog.Rostered.pushRoster {roster : KtRosterEntry} {current : KtEntry}
    (hl : kt.latestBindingFor roster.usernameHash = some current) (hrel : current.released = false)
    (hval : roster.validateAgainst C current = .ok ())
    (hseq : roster.seq = kt.expectedSeq roster.usernameHash) :
    (kt.pushRoster roster).Rostered C grace where
  toOwned := h.toOwned.pushRoster roster
  numbered := by
    refine h.numbered.snoc fun u roster' i hr hera => ?_
    obtain ⟨hro, rfl⟩ := KtRecord.rosterOf_eq_some.mp hr
    cases hro
    rw [hseq, hera.expectedSeq h.indexed h.numbered]
  stood k roster' hk := by
    change (kt.records ++ [KtRecord.roster roster])[k]? = _ at hk
    rw [List.getElem?_append] at hk
    split at hk
    · rename_i hlt
      exact (h.stood k roster' hk).snoc (Nat.le_of_lt hlt) _
    · rename_i hlt
      obtain ⟨hk0, hk⟩ := List.getElem?_eq_some_iff.mp hk
      simp only [List.length_singleton] at hk0
      obtain rfl : k = kt.records.length := by omega
      obtain rfl : roster = roster' := by simpa using hk
      refine ⟨current, ?_, hrel, hval⟩
      change (bindingsOf _ ((kt.records ++ [KtRecord.roster roster]).take _)).getLast? = _
      rw [List.take_left, ← h.indexed.latestBindingFor, hl]

theorem KtLog.Rostered.call (c : KtCall) : (kt.call C c).2.Rostered C grace := by
  rcases KtLog.call_cases C h.indexed.wf c with
    ⟨e, hc, -⟩ | ⟨entry, -, hc, hsig, hcont⟩ | ⟨roster, current, -, hc, hl, hrel, hval, hseq⟩
  · rw [hc]
    exact h
  · rw [hc]
    exact h.pushBinding hsig hcont
  · rw [hc]
    exact h.pushRoster hl hrel hval hseq

/-- Every roster lies in an era of its name. -/
theorem KtLog.Rostered.exists_era {k : ℕ} {roster : KtRosterEntry}
    (hk : kt.records[k]? = some (.roster roster)) :
    ∃ i, Era roster.usernameHash kt.records i (k + 1) := by
  obtain ⟨current, hcur, -⟩ := h.stood k roster hk
  obtain ⟨hlt, hrec⟩ := List.getElem?_eq_some_iff.mp hk
  have hne := List.ne_nil_of_mem (List.mem_of_getLast? hcur)
  obtain ⟨e, he⟩ := Option.ne_none_iff_exists'.mp (mt List.head?_eq_none_iff.mp hne)
  have hsplit : bindingsOf roster.usernameHash kt.records =
      bindingsOf roster.usernameHash (kt.records.take k) ++ bindingsOf roster.usernameHash
      (kt.records.drop k) := by
    rw [bindingsOf, bindingsOf, bindingsOf, ← List.filterMap_append, List.take_append_drop]
  have hfirst := (h.chain roster.usernameHash).first e (by simp [hsplit, List.head?_append, he])
  obtain ⟨i, hera⟩ := Sona.exists_era he hfirst.1
  have hlen : (kt.records.take k).length = k := by simp; omega
  rw [hlen] at hera
  have hbefore : ∀ m < k, (kt.records.take k)[m]? = kt.records[m]? :=
    fun m hm => List.getElem?_take_of_lt hm
  refine ⟨i, by have := hera.lt; omega, hlt, ?_, ?_⟩
  · rw [← hbefore i hera.lt]
    exact hera.opened
  · intro m him hm
    rcases Nat.lt_or_ge m k with hmk | hmk
    · rw [← hbefore m hmk]
      exact hera.inside m him hmk
    · obtain rfl : m = k := by omega
      simp [hk, KtRecord.opensEra, KtRecord.bindingOf]

end rostered

theorem rostered_calls (C : Crypto) (grace : ℕ) (cs : List KtCall) :
    ((freshLog grace).calls C cs).Rostered C grace :=
  Trace.run_inv (fun _ c h => h.call c) (rostered_fresh C grace) cs

section allIndices

variable {kt : KtLog} (h : kt.Indexed) {u : String}
include h

theorem KtLog.Indexed.mem_allIndicesFor {i : ℕ} :
    i ∈ kt.allIndicesFor u ↔ ∃ r, kt.records[i]? = some r ∧ r.usernameHash = u := by
  unfold KtLog.allIndicesFor
  rw [List.mem_mergeSort, List.mem_append, h.mem_binding, h.mem_roster]
  constructor
  · rintro (⟨e, he, hu⟩ | ⟨r, hr, hu⟩)
    · exact ⟨_, he, hu⟩
    · exact ⟨_, hr, hu⟩
  · rintro ⟨r, hr, hu⟩
    cases r with
    | binding e => exact Or.inl ⟨e, hr, hu⟩
    | roster r => exact Or.inr ⟨r, hr, hu⟩

theorem KtLog.Indexed.allIndicesFor_increasing : (kt.allIndicesFor u).Pairwise (· < ·) := by
  have hnodup : (kt.bindingIndices u ++ kt.rosterIndices u).Nodup := by
    refine List.nodup_append.mpr ⟨?_, ?_, ?_⟩
    · rw [h.binding]
      exact (positions_sorted _ _).imp fun hab => Nat.ne_of_lt hab
    · rw [h.roster]
      exact (positions_sorted _ _).imp fun hab => Nat.ne_of_lt hab
    · rintro i hi j hj rfl
      obtain ⟨e, he, -⟩ := h.mem_binding.mp hi
      obtain ⟨r, hr, -⟩ := h.mem_roster.mp hj
      rw [he] at hr
      cases hr
  have hsorted := List.pairwise_mergeSort' (· ≤ ·) (kt.bindingIndices u ++ kt.rosterIndices u)
  have hdistinct := (List.mergeSort_perm (kt.bindingIndices u ++ kt.rosterIndices u) (· ≤ ·)).nodup_iff.mpr hnodup
  exact (hsorted.and hdistinct).imp fun ⟨hle, hne⟩ => Nat.lt_of_le_of_ne hle hne

end allIndices

/-- What is promised of the rosters after any calls. -/
structure RosterEras (C : Crypto) (kt : KtLog) : Prop where
  numbered : RostersNumbered kt.records
  era : ∀ k roster, kt.records[k]? = some (.roster roster) →
    ∃ i, Era roster.usernameHash kt.records i (k + 1)
  stood : ∀ k roster, kt.records[k]? = some (.roster roster) → Stood C kt.records k roster
  checked : ∀ roster current, roster.validateAgainst C current = .ok () →
    RosterChecked C roster current
  allIndices_increasing : ∀ u, (kt.allIndicesFor u).Pairwise (· < ·)
  allIndices : ∀ u i, i ∈ kt.allIndicesFor u ↔ ∃ r, kt.records[i]? = some r ∧ r.usernameHash = u

/-- **Roster eras.** They hold after any calls on a fresh log. -/
theorem roster_eras (C : Crypto) (grace : ℕ) (cs : List KtCall) :
    RosterEras C ((freshLog grace).calls C cs) :=
  have h := rostered_calls C grace cs
  { numbered := h.numbered
    era := fun _ _ hk => h.exists_era hk
    stood := h.stood
    checked := fun _ _ hv => RosterChecked.of_validateAgainst hv
    allIndices_increasing := fun _ => h.indexed.allIndicesFor_increasing
    allIndices := fun _ _ => h.indexed.mem_allIndicesFor }

end Sona
