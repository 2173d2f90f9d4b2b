/-
# No ring is orphaned

What the call-control store owes the platform: a ring that was shown, and whose
crash grace is not over, is still pending or the id it was shown under was handed
back. Calls and ids are not enough to tell rings apart (a locked device shows
every ring under one id), so the store is run beside a record of what happened
to each ring, `Tracked`: the rings carry a number, and every ring that was marked
and every id that was handed back is written down under it. `tracked_run` says that
without the numbers it is the store itself and what it handed back.

Rings leave the store in one way, `Tracked.shed`: some go, and the ids of some
that go are handed back. What a ring's mark became (`Fate`) is kept by shedding
(`Tracked.Sound.shed`), pushing and marking, as long as no ring is shed that was
shown and is in its grace without its id. Only one operation does that: an offer
that rings while the store is full drops the oldest ring (`Orphans`).

Key definitions: `Tracked`, `trackStep`, `Fate`, `Tracked.Sound`, `Orphans`.
-/
import Mathlib.Data.List.Perm.Basic
import Sona.CallStore
import Sona.Run

namespace Sona

/-! ### What rings -/

/-- The registry lets the offer ring: it is valid, in time and of a call that the
registry does not hold, and there is room or a tombstone that can go. -/
def CallRegistry.rings (c : CallRegistry) (callInstanceId offerId : String)
    (createdAt expiresAt now : ℕ) : Bool :=
  validCallId callInstanceId && validCallId offerId && validOfferDeadline createdAt expiresAt &&
    createdAt ≤ saturatingAdd now callClockSkewSecs &&
    expiresAt ≤ saturatingAdd now (callRingTimeoutSecs + callClockSkewSecs) && expiresAt > now &&
    (c.purge now).records.all (!·.isOf callInstanceId) &&
    ((c.purge now).records.length < maxCallRecords || (c.purge now).records.any (·.isTerminal))

theorem makeRoom_iff {c : CallRegistry} {now : ℕ} (hc : c.records.length ≤ maxCallRecords) :
    (c.makeRoom now).1 = true ↔
      (c.purge now).records.length < maxCallRecords ∨
      (c.purge now).records.any (·.isTerminal) = true := by
  have hle := (length_purge_le c now).trans hc
  unfold CallRegistry.makeRoom
  dsimp only
  generalize (c.purge now).records = l at hle ⊢
  by_cases hroom : l.length < maxCallRecords
  · simp [evictTerminals_room hroom, hroom]
  · have hfull : l.length ≥ maxCallRecords := Nat.le_of_not_lt hroom
    simp only [hroom, false_or]
    cases hn : l.length with
    | zero => rw [hn] at hfull; exact absurd hfull (by decide)
    | succ n =>
      unfold evictTerminals
      rw [if_pos hfull]
      cases hfind : l.findIdx? (·.isTerminal) with
      | none =>
        have hnone := List.findIdx?_eq_none_iff.mp hfind
        simpa using hnone
      | some i =>
        obtain ⟨hi, hterm, -⟩ := List.findIdx?_eq_some_iff_getElem.mp hfind
        have hlen := List.length_eraseIdx_of_lt hi
        have hany : l.any (·.isTerminal) = true :=
          List.any_eq_true.mpr ⟨l[i], List.getElem_mem hi, hterm⟩
        have hn' : n = (l.eraseIdx i).length := by omega
        dsimp only
        rw [hn', evictTerminals_room (by omega), hany]

/-- **Which offers ring.** -/
theorem receiveOffer_ring_iff {c : CallRegistry} (hc : c.records.length ≤ maxCallRecords)
    (call offer : String) (createdAt expiresAt now retention : ℕ) :
    (c.receiveOffer call offer createdAt expiresAt now retention).1 = .ring ↔
      c.rings call offer createdAt expiresAt now = true := by
  unfold CallRegistry.receiveOffer CallRegistry.rings
  dsimp only
  by_cases hvalid :
    (!validCallId call || !validCallId offer || !validOfferDeadline createdAt expiresAt ||
      decide (createdAt > saturatingAdd now callClockSkewSecs) ||
      decide (expiresAt > saturatingAdd now (callRingTimeoutSecs + callClockSkewSecs))) = true
  · rw [if_pos hvalid]
    simp only [Bool.or_eq_true, Bool.not_eq_eq_eq_not, Bool.not_true, decide_eq_true_eq] at hvalid
    constructor
    · intro h
      cases h
    · intro h
      simp only [Bool.and_eq_true, decide_eq_true_eq] at h
      rcases hvalid with (((hv | hv) | hv) | hv) | hv
      · simp [hv] at h
      · simp [hv] at h
      · simp [hv] at h
      · omega
      · omega
  · rw [if_neg hvalid]
    simp only [Bool.or_eq_true, Bool.not_eq_eq_eq_not, Bool.not_true, decide_eq_true_eq, not_or,
      Bool.not_eq_false, Nat.not_lt, gt_iff_lt] at hvalid
    obtain ⟨⟨⟨⟨hcall, hoffer⟩, hdeadline⟩, hcreated⟩, hexpires⟩ := hvalid
    have hchecks :
        ∀ b : Bool, (validCallId call && validCallId offer && validOfferDeadline createdAt expiresAt &&
        decide (createdAt ≤ saturatingAdd now callClockSkewSecs) &&
        decide (expiresAt ≤ saturatingAdd now (callRingTimeoutSecs + callClockSkewSecs)) && b) = b := by
      intro b
      simp [hcall, hoffer, hdeadline, hcreated, hexpires]
    rw [Bool.and_assoc, Bool.and_assoc, hchecks]
    cases hfind : (c.purge now).records.find? (·.isOf call) with
    | some record =>
      have hof := List.find?_some hfind
      have hall : ((c.purge now).records.all (!·.isOf call)) = false := by
        rw [List.all_eq_false]
        exact ⟨record, List.mem_of_find?_eq_some hfind, by simp [hof]⟩
      rw [hall]
      simp only [Bool.false_and, Bool.and_false, Bool.false_eq_true, iff_false]
      cases record.state with
      | live phase =>
        dsimp only
        split <;> simp
      | terminal reason retainUntil =>
        dsimp only
        split <;> simp
    | none =>
      have hall : ((c.purge now).records.all (!·.isOf call)) = true := by
        rw [List.all_eq_true]
        intro r hr
        simpa using List.find?_eq_none.mp hfind r hr
      rw [hall]
      dsimp only
      by_cases hexpired : expiresAt ≤ now
      · rw [if_pos hexpired]
        simp [Nat.not_lt.mpr hexpired]
      · rw [if_neg hexpired, makeRoom_purge]
        have hroom := @makeRoom_iff c now hc
        simp only [Nat.lt_of_not_le hexpired, decide_true, Bool.true_and, Bool.or_eq_true,
          decide_eq_true_eq, ← hroom]
        cases (c.makeRoom now).1 <;> simp

/-! ### The rings and their numbers -/

/-- The rings of a store under their numbers, each ring that was marked as it was
marked last, and the ids that were handed back. -/
structure Tracked where
  rings : List (ℕ × PendingRing) := []
  registry : CallRegistry := {}
  next : ℕ := 0
  marks : List (ℕ × PendingRing) := []
  handed : List (ℕ × String) := []

/-- The rings `gone` leave and `kept` stay; `back` says which ids are handed back. -/
def Tracked.shed (t : Tracked) (gone kept : List (ℕ × PendingRing))
    (back : PendingRing → Option String) : Tracked :=
  { t with
      rings := kept,
      handed := t.handed ++ gone.filterMap fun e => (back e.2).map fun id => (e.1, id) }

def Tracked.push (t : Tracked) (r : PendingRing) : Tracked :=
  { t with rings := t.rings ++ [(t.next, r)], next := t.next + 1 }

/-- The ring at `i` is shown under an id. -/
def Tracked.markAt (t : Tracked) (i : ℕ) (e : ℕ × PendingRing) (presentedAs : String) : Tracked :=
  { t with
    rings := t.rings.modify i fun e => (e.1, { e.2 with presentedAs := some presentedAs })
    marks := (e.1, { e.2 with presentedAs := some presentedAs }) :: t.marks.filter fun m => m.1 ≠ e.1 }

def Tracked.takeRing (t : Tracked) (callInstanceId : String) : Tracked :=
  match t.rings.findIdx? (fun e => e.2.isOf callInstanceId) with
  | none => t
  | some i => t.shed t.rings[i]?.toList (t.rings.eraseIdx i) (·.presentedAs)

/-- An operation of the store on the rings and their numbers. -/
def trackStep (H : Sha256) (t : Tracked) : CallStoreOp → Tracked
  | .recordOffer capsule now retention =>
    if capsule.kind ≠ .offer then t else
    let (decision, registry) := t.registry.receiveOffer capsule.callInstanceId capsule.offerId capsule.createdAt
      capsule.ringExpiresAt now retention
    let t := { t with registry }
    if decision = .ring then
      (t.shed (t.rings.take (t.rings.length + 1 - maxPendingRings)) (makeFit maxPendingRings t.rings) fun _ => none).push
        (.fromCapsule H capsule)
    else t
  | .recordTerminal call offer reason now retention =>
    let (decision, registry) := t.registry.recordTerminal call offer reason now retention
    let t := { t with registry }
    if decision.ended then t.takeRing call else t
  | .markPresented call presentedAs =>
    match t.rings.findIdx? (fun e => e.2.isOf call) with
    | none => t
    | some i =>
      match t.rings[i]? with
      | none => t
      | some e => t.markAt i e presentedAs
  | .takeRing call => t.takeRing call
  | .reconcile now retention =>
    let (expired, registry) := t.registry.expire now retention
    { t with registry }.shed (t.rings.filter fun e => e.2.over registry expired now)
      (t.rings.filter fun e => !e.2.over registry expired now) (·.cancels now)
  | .cleanup now retention =>
    let registry := (t.registry.expire now retention).2.retainWithin now retention
    { t with registry }.shed (t.rings.filter fun e => !e.2.inGrace now) (t.rings.filter fun e => e.2.inGrace now)
      fun _ => none
  | .queueDecline _ _ _ _ _ _ | .takeDue _ | .delivered _ => t

def trackedAfter (H : Sha256) (ops : List CallStoreOp) : Tracked := Trace.run (trackStep H) {} ops

/-- The ids that an operation of the store hands back: of the ring it returns, or to take down. -/
def handsBack (s : CallStore) : CallStoreOp → List String
  | .recordTerminal call offer reason now retention =>
    (s.recordTerminal call offer reason now retention).2.1.toList.filterMap (·.presentedAs)
  | .takeRing call => (s.takeRing call).1.toList.filterMap (·.presentedAs)
  | .reconcile now retention => (s.reconcile now retention).1.cancel
  | _ => []

/-- All that the run handed back, in order. -/
def handedBack (H : Sha256) : CallStore → List CallStoreOp → List String
  | _, [] => []
  | s, op :: ops => handsBack s op ++ handedBack H (callStoreStep H s op) ops

/-! ### Without the numbers -/

/-- The rings and the registry are those of the store. -/
def Tracks (t : Tracked) (s : CallStore) : Prop :=
  t.rings.map (·.2) = s.rings ∧ t.registry = s.registry

theorem shed_handed (t : Tracked) (gone kept : List (ℕ × PendingRing))
    (back : PendingRing → Option String) :
    (t.shed gone kept back).handed.map (·.2) =
      t.handed.map (·.2) ++ (gone.map (·.2)).filterMap back := by
  have hids : (gone.filterMap fun e => (back e.2).map fun id => (e.1, id)).map (·.2) =
      (gone.map (·.2)).filterMap back := by
    rw [List.map_filterMap, List.filterMap_map]
    congr 1
    funext e
    cases hback : back e.2 <;> simp [hback]
  rw [Tracked.shed, List.map_append, hids]

section tracks

variable {t : Tracked} {s : CallStore} (h : Tracks t s)
include h

theorem Tracks.filter (p : PendingRing → Bool) :
    (t.rings.filter fun e => p e.2).map (·.2) = s.rings.filter p := by
  rw [← h.1, List.filter_map]
  rfl

theorem Tracks.findIdx (call : String) :
    t.rings.findIdx? (fun e => e.2.isOf call) = s.rings.findIdx? (·.isOf call) := by
  rw [← h.1, List.findIdx?_map]
  rfl

theorem Tracks.takeRing (call : String) : Tracks (t.takeRing call) (s.takeRing call).2 ∧
    (t.takeRing call).handed.map (·.2) =
      t.handed.map (·.2) ++ (s.takeRing call).1.toList.filterMap (·.presentedAs) := by
  unfold Tracked.takeRing CallStore.takeRing
  rw [h.findIdx]
  cases s.rings.findIdx? (·.isOf call) with
  | none => exact ⟨h, by simp⟩
  | some i =>
    have hrings : (t.rings.eraseIdx i).map (·.2) = s.rings.eraseIdx i := by
      rw [← h.1, List.eraseIdx_map]
    have hring : (t.rings[i]?.toList).map (·.2) = s.rings[i]?.toList := by
      rw [← h.1, List.getElem?_map]
      cases t.rings[i]? <;> rfl
    refine ⟨⟨hrings, h.2⟩, ?_⟩
    dsimp only
    rw [shed_handed, hring]

/-- **An operation does to the numbered rings what it does to the store.** -/
theorem Tracks.step (H : Sha256) (op : CallStoreOp) :
    Tracks (trackStep H t op) (callStoreStep H s op) ∧
    (trackStep H t op).handed.map (·.2) = t.handed.map (·.2) ++ handsBack s op := by
  obtain ⟨hrings, hregistry⟩ := h
  cases op with
  | recordOffer capsule now retention =>
    simp only [trackStep, callStoreStep, CallStore.recordOffer, handsBack, List.append_nil,
      hregistry]
    split
    · exact ⟨⟨hrings, hregistry⟩, rfl⟩
    split
    · refine ⟨⟨?_, rfl⟩, ?_⟩
      · simp only [Tracked.push, Tracked.shed, makeFit, List.map_append, List.map_drop,
          List.map_singleton, hrings]
        rw [← hrings, List.length_map]
      · simp only [Tracked.push, shed_handed, List.filterMap_none, List.append_nil]
    · exact ⟨⟨hrings, rfl⟩, rfl⟩
  | recordTerminal call offer reason now retention =>
    simp only [trackStep, callStoreStep, CallStore.recordTerminal, handsBack, hregistry]
    split
    · have hmid : Tracks { t with registry := (s.registry.recordTerminal call offer reason now retention).2 }
          { s with registry := (s.registry.recordTerminal call offer reason now retention).2 } :=
          ⟨hrings, rfl⟩
      exact hmid.takeRing call
    · exact ⟨⟨hrings, rfl⟩, by simp⟩
  | markPresented call presentedAs =>
    simp only [trackStep, callStoreStep, CallStore.markPresented, handsBack, List.append_nil,
      Tracks.findIdx ⟨hrings, hregistry⟩]
    cases s.rings.findIdx? (·.isOf call) with
    | none => exact ⟨⟨hrings, hregistry⟩, rfl⟩
    | some i =>
      dsimp only
      cases hi : t.rings[i]? with
      | none =>
        have hlen : s.rings.length ≤ i := by
          rw [← hrings, List.length_map]
          exact List.getElem?_eq_none_iff.mp hi
        refine ⟨⟨?_, hregistry⟩, rfl⟩
        rw [List.modify_eq_self hlen]
        exact hrings
      | some e =>
        refine ⟨⟨?_, hregistry⟩, rfl⟩
        simp only [Tracked.markAt, ← hrings]
        apply List.ext_getElem?
        intro j
        simp only [List.getElem?_map, List.getElem?_modify]
        cases t.rings[j]? <;> simp
        split <;> rfl
  | takeRing call => exact Tracks.takeRing ⟨hrings, hregistry⟩ call
  | reconcile now retention =>
    simp only [trackStep, callStoreStep, CallStore.reconcile, handsBack, hregistry]
    refine ⟨⟨Tracks.filter ⟨hrings, hregistry⟩ fun r => !r.over _ _ now, rfl⟩, ?_⟩
    rw [shed_handed, Tracks.filter ⟨hrings, hregistry⟩ fun r => r.over _ _ now]
  | cleanup now retention =>
    simp only [trackStep, callStoreStep, CallStore.cleanup, handsBack, hregistry]
    refine ⟨⟨Tracks.filter ⟨hrings, hregistry⟩ fun r => r.inGrace now, rfl⟩, ?_⟩
    rw [shed_handed]
    simp
  | queueDecline mailbox key plaintext expiresAt now random =>
    refine ⟨?_, by simp [trackStep, handsBack]⟩
    simp only [trackStep, callStoreStep, CallStore.queueDecline]
    split <;> exact ⟨hrings, hregistry⟩
  | takeDue now => exact ⟨⟨hrings, hregistry⟩, by simp [trackStep, handsBack]⟩
  | delivered ids => exact ⟨⟨hrings, hregistry⟩, by simp [trackStep, handsBack]⟩

end tracks

/-! ### What became of a mark -/

/-- The numbers of the pending rings. -/
def Tracked.numbers (t : Tracked) : List ℕ := t.rings.map (·.1)

/-- What became of a ring that was marked: it is pending as it was marked, or it
left and its id was handed back once, or it left and its grace was over at one
of the times `past`. -/
def Fate (t : Tracked) (past : List ℕ) (m : ℕ × PendingRing) : Prop :=
  m ∈ t.rings ∨ (m.1 ∉ t.numbers ∧
    ((∃ id, m.2.presentedAs = some id ∧ t.handed.filter (fun h => h.1 = m.1) = [(m.1, id)]) ∨
      ∃ now ∈ past, m.2.inGrace now = false))

structure Tracked.Sound (t : Tracked) (past : List ℕ) : Prop where
  nodup : t.numbers.Nodup
  below : ∀ i ∈ t.numbers, i < t.next
  handedBelow : ∀ h ∈ t.handed, h.1 < t.next
  pending : ∀ i ∈ t.numbers, ∀ h ∈ t.handed, h.1 ≠ i
  marksBelow : ∀ m ∈ t.marks, m.1 < t.next
  shown : ∀ m ∈ t.marks, m.2.presentedAs.isSome = true
  fate : ∀ m ∈ t.marks, Fate t past m

/-- The ids of rings that go. -/
def backOf (back : PendingRing → Option String) (gone : List (ℕ × PendingRing)) :
    List (ℕ × String) :=
  gone.filterMap fun e => (back e.2).map fun id => (e.1, id)

theorem mem_backOf {back : PendingRing → Option String} {gone : List (ℕ × PendingRing)}
    {h : ℕ × String} (hh : h ∈ backOf back gone) : h.1 ∈ gone.map (·.1) := by
  obtain ⟨e, he, hback⟩ := List.mem_filterMap.mp hh
  obtain ⟨id, -, rfl⟩ := Option.map_eq_some_iff.mp hback
  exact List.mem_map_of_mem he

theorem backOf_none {back : PendingRing → Option String} {gone : List (ℕ × PendingRing)} {i : ℕ}
    (hi : i ∉ gone.map (·.1)) : (backOf back gone).filter (fun h => h.1 = i) = [] := by
  rw [List.filter_eq_nil_iff]
  intro h hh heq
  have hnum : h.1 = i := by simpa using heq
  exact hi (hnum ▸ mem_backOf hh)

/-- The ids of one ring among those that go. -/
theorem backOf_self (back : PendingRing → Option String) {m : ℕ × PendingRing} :
    ∀ {gone : List (ℕ × PendingRing)}, (gone.map (·.1)).Nodup → m ∈ gone →
      (backOf back gone).filter (fun h => h.1 = m.1) = ((back m.2).map fun id => (m.1, id)).toList
  | e :: gone, hn, hm => by
    rw [List.map_cons, List.nodup_cons] at hn
    have hcons : backOf back (e :: gone) =
        ((back e.2).map fun id => (e.1, id)).toList ++ backOf back gone := by
      unfold backOf
      rw [List.filterMap_cons]
      cases back e.2 <;> rfl
    rw [hcons, List.filter_append]
    rcases List.mem_cons.mp hm with rfl | hm
    · rw [backOf_none hn.1, List.append_nil]
      cases back m.2 <;> simp
    · have hne : e.1 ≠ m.1 := by
        intro heq
        exact hn.1 (heq ▸ List.mem_map_of_mem hm)
      rw [backOf_self back hn.2 hm]
      cases back e.2 <;> simp [hne]

section sound

variable {t : Tracked} {past : List ℕ} (h : t.Sound past)
include h

theorem Tracked.Sound.mono {past' : List ℕ} (hp : past ⊆ past') : t.Sound past' := by
  refine { h with fate := fun m hm => ?_ }
  rcases h.fate m hm with hpending | ⟨hgone, hback | ⟨now, hnow, hover⟩⟩
  · exact Or.inl hpending
  · exact Or.inr ⟨hgone, Or.inl hback⟩
  · exact Or.inr ⟨hgone, Or.inr ⟨now, hp hnow, hover⟩⟩

theorem Tracked.Sound.withRegistry (registry : CallRegistry) :
    Tracked.Sound { t with registry } past := { h with }

/-- **Rings may go** if of each that was shown the id is handed back, or its grace is over. -/
theorem Tracked.Sound.shed {gone kept : List (ℕ × PendingRing)} {back : PendingRing → Option String}
    (hsplit : t.rings.Perm (gone ++ kept))
    (hback : ∀ e ∈ gone, e.2.presentedAs.isSome = true →
      back e.2 = e.2.presentedAs ∨ ∃ now ∈ past, e.2.inGrace now = false) :
    (t.shed gone kept back).Sound past := by
  have hnumbers : t.numbers.Perm (gone.map (·.1) ++ kept.map (·.1)) := by
    have hmap := hsplit.map (·.1)
    rwa [List.map_append] at hmap
  have hnodup := hnumbers.nodup_iff.mp h.nodup
  rw [List.nodup_append] at hnodup
  obtain ⟨hgone, hkept, hdisjoint⟩ := hnodup
  have hfrom : ∀ i ∈ kept.map (·.1), i ∈ t.numbers := fun i hi =>
    hnumbers.mem_iff.mpr (List.mem_append_right _ hi)
  have hgoneFrom : ∀ i ∈ gone.map (·.1), i ∈ t.numbers := fun i hi =>
    hnumbers.mem_iff.mpr (List.mem_append_left _ hi)
  have hhanded : (t.shed gone kept back).handed = t.handed ++ backOf back gone := rfl
  refine ⟨hkept, fun i hi => h.below i (hfrom i hi), fun b hb => ?_, fun i hi b hb => ?_,
    h.marksBelow, h.shown, fun m hm => ?_⟩
  · rcases List.mem_append.mp hb with hb | hb
    · exact h.handedBelow b hb
    · exact h.below _ (hgoneFrom _ (mem_backOf hb))
  · rcases List.mem_append.mp hb with hb | hb
    · exact h.pending i (hfrom i hi) b hb
    · exact hdisjoint _ (mem_backOf hb) i hi
  rcases h.fate m hm with hpending | ⟨hleft, hfate⟩
  · rcases List.mem_append.mp (hsplit.mem_iff.mp hpending) with hgo | hstay
    · -- the ring goes now
      have hnum : m.1 ∈ t.numbers := List.mem_map_of_mem hpending
      have hout : m.1 ∉ kept.map (·.1) :=
        fun hin => hdisjoint m.1 (List.mem_map_of_mem hgo) m.1 hin rfl
      refine Or.inr ⟨hout, ?_⟩
      rcases hback m hgo (h.shown m hm) with hid | hover
      · obtain ⟨id, hshown⟩ := Option.isSome_iff_exists.mp (h.shown m hm)
        have hbefore : t.handed.filter (fun b => b.1 = m.1) = [] := by
          rw [List.filter_eq_nil_iff]
          intro b hb
          simpa using h.pending m.1 hnum b hb
        refine Or.inl ⟨id, hshown, ?_⟩
        rw [hhanded, List.filter_append, hbefore, backOf_self back hgone hgo, hid, hshown]
        rfl
      · exact Or.inr hover
    · exact Or.inl hstay
  · have hout : m.1 ∉ gone.map (·.1) := fun hin => hleft (hgoneFrom _ hin)
    refine Or.inr ⟨fun hin => hleft (hfrom _ hin), ?_⟩
    rw [hhanded, List.filter_append, backOf_none hout, List.append_nil]
    exact hfate

theorem Tracked.Sound.push (r : PendingRing) : (t.push r).Sound past := by
  have hnumbers : (t.push r).numbers = t.numbers ++ [t.next] := by
    simp [Tracked.push, Tracked.numbers]
  have hcases : ∀ i ∈ (t.push r).numbers, i ∈ t.numbers ∨ i = t.next := by
    intro i hi
    rw [hnumbers] at hi
    simpa using hi
  refine ⟨?_, fun i hi => ?_, fun b hb => Nat.lt_succ_of_lt (h.handedBelow b hb),
    fun i hi b hb => ?_, fun m hm => Nat.lt_succ_of_lt (h.marksBelow m hm), h.shown, fun m hm => ?_⟩
  · rw [hnumbers, List.nodup_append]
    refine ⟨h.nodup, by simp, fun i hi j hj => ?_⟩
    have hlt := h.below i hi
    rw [List.mem_singleton.mp hj]
    omega
  · rcases hcases i hi with hi | rfl
    · exact Nat.lt_succ_of_lt (h.below i hi)
    · exact Nat.lt_succ_self _
  · rcases hcases i hi with hi | rfl
    · exact h.pending i hi b hb
    · exact Nat.ne_of_lt (h.handedBelow b hb)
  · rcases h.fate m hm with hpending | ⟨hleft, hfate⟩
    · exact Or.inl (List.mem_append_left _ hpending)
    · refine Or.inr ⟨fun hin => ?_, hfate⟩
      rcases hcases _ hin with hin | heq
      · exact hleft hin
      · exact Nat.ne_of_lt (h.marksBelow m hm) heq

theorem Tracked.Sound.markAt {i : ℕ} {e : ℕ × PendingRing} (hi : t.rings[i]? = some e)
    (presentedAs : String) :
    (t.markAt i e presentedAs).Sound past := by
  have hmem : e ∈ t.rings := List.mem_of_getElem? hi
  have hnumbers : (t.markAt i e presentedAs).numbers = t.numbers := by
    apply List.ext_getElem?
    intro j
    simp only [Tracked.numbers, Tracked.markAt, List.getElem?_map, List.getElem?_modify]
    cases t.rings[j]? <;> simp
    split <;> rfl
  have hself : (e.1, { e.2 with presentedAs := some presentedAs }) ∈
      (t.markAt i e presentedAs).rings := by
    refine List.mem_of_getElem? (i := i) ?_
    simp [Tracked.markAt, hi]
  -- a ring of another number stays as it is
  have hother : ∀ m ∈ t.rings, m.1 ≠ e.1 → m ∈ (t.markAt i e presentedAs).rings := by
    intro m hm hne
    obtain ⟨j, hj⟩ := List.getElem?_of_mem hm
    have hij : i ≠ j := by
      rintro rfl
      rw [hi] at hj
      cases hj
      exact hne rfl
    refine List.mem_of_getElem? (i := j) ?_
    simp [Tracked.markAt, hij, hj]
  refine ⟨hnumbers ▸ h.nodup, fun j hj => h.below j (hnumbers ▸ hj), h.handedBelow,
    fun j hj => h.pending j (hnumbers ▸ hj), fun m hm => ?_, fun m hm => ?_, fun m hm => ?_⟩
  · rcases List.mem_cons.mp hm with rfl | hm
    · exact h.below e.1 (List.mem_map_of_mem hmem)
    · exact h.marksBelow m (List.mem_filter.mp hm).1
  · rcases List.mem_cons.mp hm with rfl | hm
    · rfl
    · exact h.shown m (List.mem_filter.mp hm).1
  · rcases List.mem_cons.mp hm with rfl | hm
    · exact Or.inl hself
    · obtain ⟨hold, hne⟩ := List.mem_filter.mp hm
      have hne' : m.1 ≠ e.1 := by simpa using hne
      rcases h.fate m hold with hpending | ⟨hleft, hfate⟩
      · exact Or.inl (hother m hpending hne')
      · exact Or.inr ⟨hnumbers ▸ hleft, hfate⟩

end sound

/-! ### Runs -/

/-- The operation drops a ring that is shown and in its grace: an offer that rings
while the store is full, when the oldest ring is such a ring. -/
def orphans (s : CallStore) : CallStoreOp → Bool
  | .recordOffer capsule now _ =>
    capsule.kind = .offer &&
      s.registry.rings capsule.callInstanceId capsule.offerId capsule.createdAt capsule.ringExpiresAt now &&
      (s.rings.take (s.rings.length + 1 - maxPendingRings)).any fun r => r.presentedAs.isSome && r.inGrace now
  | _ => false

theorem callStoreStep_registry (H : Sha256) {s : CallStore} (h : RegistryOk s.registry)
    (op : CallStoreOp) :
    RegistryOk (callStoreStep H s op).registry := by
  cases op with
  | recordOffer capsule now retention =>
    have hreg : RegistryOk (s.registry.receiveOffer capsule.callInstanceId capsule.offerId capsule.createdAt
        capsule.ringExpiresAt now retention).2 := h.step (.receiveOffer _ _ _ _ now retention)
    simp only [callStoreStep, CallStore.recordOffer]
    split
    · exact h
    split <;> exact hreg
  | recordTerminal call offer reason now retention =>
    have hreg : RegistryOk (s.registry.recordTerminal call offer reason now retention).2 :=
      h.step (.recordTerminal call offer reason now retention)
    simp only [callStoreStep, CallStore.recordTerminal, CallStore.takeRing]
    split
    · split <;> exact hreg
    · exact hreg
  | markPresented call presentedAs =>
    simp only [callStoreStep, CallStore.markPresented]
    split <;> exact h
  | takeRing call =>
    simp only [callStoreStep, CallStore.takeRing]
    split <;> exact h
  | queueDecline mailbox key plaintext expiresAt now random =>
    simp only [callStoreStep, CallStore.queueDecline]
    split <;> exact h
  | reconcile now retention => exact h.step (.expire now retention)
  | cleanup now retention => exact (h.step (.expire now retention)).step (.retainWithin now retention)
  | takeDue now => exact h
  | delivered ids => exact h

theorem Tracked.Sound.takeRing {t : Tracked} {past : List ℕ} (h : t.Sound past) (call : String) :
    (t.takeRing call).Sound past := by
  unfold Tracked.takeRing
  split
  · exact h
  rename_i i hfind
  obtain ⟨hi, -⟩ := List.findIdx?_eq_some_iff_getElem.mp hfind
  refine h.shed ?_ fun e _ _ => Or.inl rfl
  rw [List.getElem?_eq_getElem hi]
  exact (List.getElem_cons_eraseIdx_perm hi).symm

/-- **What became of the marks is kept** by every operation that orphans no ring. -/
theorem Tracked.Sound.step (H : Sha256) {t : Tracked} {s : CallStore} {past : List ℕ}
    (h : t.Sound past) (ht : Tracks t s) (hr : RegistryOk s.registry) {op : CallStoreOp}
    (ho : orphans s op = false) :
    (trackStep H t op).Sound (past ++ op.now?.toList) := by
  have hlater := h.mono (List.subset_append_left past op.now?.toList)
  cases op with
  | recordOffer capsule now retention =>
    simp only [trackStep]
    split
    · exact hlater
    rename_i hkind
    split
    · rename_i hring
      refine ((hlater.withRegistry _).shed ?_ fun e he hshown => Or.inr ⟨now, by simp [CallStoreOp.now?], ?_⟩).push _
      · exact (List.take_append_drop _ _).symm ▸ List.Perm.refl _
      · -- the offer rings, so the rings that go are not both shown and in their grace
        have hrings := (receiveOffer_ring_iff hr.count capsule.callInstanceId capsule.offerId capsule.createdAt
          capsule.ringExpiresAt now retention).mp (by rw [← ht.2]; exact hring)
        have hgone : e.2 ∈ s.rings.take (s.rings.length + 1 - maxPendingRings) := by
          rw [← ht.1, ← List.map_take, List.length_map]
          exact List.mem_map_of_mem he
        simp only [orphans, hrings, Bool.and_true, Bool.and_eq_false_iff, List.any_eq_false,
          Bool.and_eq_true, not_and] at ho
        rcases ho with ho | ho
        · simp [hkind] at ho
        · simpa using ho e.2 hgone hshown
    · exact hlater.withRegistry _
  | recordTerminal call offer reason now retention =>
    simp only [trackStep]
    split
    · exact (hlater.withRegistry _).takeRing call
    · exact hlater.withRegistry _
  | markPresented call presentedAs =>
    simp only [trackStep]
    split
    · exact hlater
    split
    · exact hlater
    · rename_i e hi
      exact hlater.markAt hi presentedAs
  | takeRing call => exact hlater.takeRing call
  | reconcile now retention =>
    simp only [trackStep]
    refine (hlater.withRegistry _).shed (List.filter_append_perm _ _).symm fun e he hshown => ?_
    by_cases hgrace : e.2.inGrace now = true
    · exact Or.inl (by simp [PendingRing.cancels, hgrace])
    · exact Or.inr ⟨now, by simp [CallStoreOp.now?], by simpa using hgrace⟩
  | cleanup now retention =>
    simp only [trackStep]
    refine (hlater.withRegistry _).shed ?_ fun e he _ =>
      Or.inr ⟨now, by simp [CallStoreOp.now?], ?_⟩
    · have hperm := List.filter_append_perm (fun e : ℕ × PendingRing => !e.2.inGrace now) t.rings
      simp only [Bool.not_not] at hperm
      exact hperm.symm
    · simpa using (List.mem_filter.mp he).2
  | queueDecline mailbox key plaintext expiresAt now random => exact hlater
  | takeDue now => exact hlater
  | delivered ids => exact hlater

/-- The times a run was given. -/
def timesOf (ops : List CallStoreOp) : List ℕ := ops.filterMap (·.now?)

/-- In a run that orphans no ring the numbered rings are those of the store, and sound. -/
theorem tracked_run (H : Sha256) {start : CallStore} (hrings : start.rings = [])
    (hreg : start.registry = {}) {ops : List CallStoreOp}
    (ho : Trace.Along (callStoreStep H) (fun s op => orphans s op = false) start ops) :
    Tracks (trackedAfter H ops) (callStoreAfter H start ops) ∧
    RegistryOk (callStoreAfter H start ops).registry ∧
      (trackedAfter H ops).Sound (timesOf ops) := by
  have hstart : RegistryOk start.registry := by
    rw [hreg]
    exact ⟨Nat.zero_le _, List.nodup_nil, fun _ hr => by cases hr⟩
  have hsound : Tracked.Sound {} [] :=
    ⟨List.nodup_nil, fun _ hi => (by cases hi), fun _ hb => (by cases hb),
    fun _ hi => (by cases hi), fun _ hm => (by cases hm),
      fun _ hm => (by cases hm), fun _ hm => by cases hm⟩
  refine Trace.Along.inv_history (I := fun es s => Tracks (trackedAfter H es) s ∧ RegistryOk s.registry ∧
    (trackedAfter H es).Sound (timesOf es)) ⟨⟨hrings.symm, hreg.symm⟩, hstart, hsound⟩ ?_ ho
  rintro es op ⟨ht, hr, hs⟩ hop
  have htimes : timesOf (es ++ [op]) = timesOf es ++ op.now?.toList := by
    rw [timesOf, List.filterMap_append]
    cases hnow : op.now? <;> simp [timesOf, hnow]
  rw [trackedAfter, Trace.run_snoc, htimes]
  exact ⟨(ht.step H op).1, callStoreStep_registry H hr op, hs.step H ht hr hop⟩

/-- The ids that were written down are those that were handed back. -/
theorem tracked_handed (H : Sha256) (ops : List CallStoreOp) {t : Tracked} {s : CallStore}
    (h : Tracks t s) :
    (Trace.run (trackStep H) t ops).handed.map (·.2) =
      t.handed.map (·.2) ++ handedBack H s ops := by
  induction ops generalizing t s with
  | nil => simp [handedBack]
  | cons op ops ih =>
    obtain ⟨hstep, hids⟩ := h.step H op
    rw [Trace.run_cons, ih hstep, hids, handedBack, List.append_assoc]

/-! ### The result -/

/-- What the platform is owed after a run: a ring that was marked, at a time not before
the run's when its grace is not over, is pending as it was marked, or its id was
handed back once. -/
def RingsKept (H : Sha256) (ops : List CallStoreOp) : Prop :=
  ∀ now, (∀ past ∈ timesOf ops, past ≤ now) →
    ∀ m ∈ (trackedAfter H ops).marks, ∀ id, m.2.presentedAs = some id → m.2.inGrace now = true →
      m ∈ (trackedAfter H ops).rings ∨ (trackedAfter H ops).handed.filter (fun h => h.1 = m.1) = [(m.1, id)]

theorem inGrace_before {r : PendingRing} {past now : ℕ} (h : r.inGrace now = true)
    (hp : past ≤ now) :
    r.inGrace past = true := by
  simp only [PendingRing.inGrace, gt_iff_lt, decide_eq_true_eq] at h ⊢
  omega

/-- A ring that is to be presented is in its window, and its call has no terminal record. -/
theorem present_open {s : CallStore} {now retention : ℕ} {r : PendingRing}
    (hr : r ∈ (s.reconcile now retention).1.present) :
    now < r.ringExpiresAt ∧ (s.reconcile now retention).2.registry.terminalReason r.callInstanceId = none := by
  have hover := (List.mem_filter.mp hr).2
  simp only [PendingRing.over, Bool.not_eq_eq_eq_not, Bool.not_true, Bool.or_eq_false_iff,
    decide_eq_false_iff_not, Nat.not_le, Option.isSome_eq_false_iff, Option.isNone_iff_eq_none] at hover
  exact ⟨hover.2, hover.1.1⟩

/-- **No ring is orphaned.** In a run in which no offer rings into a full store whose
oldest ring is shown and in its grace: the numbered rings and ids are those of
the store, a ring that was marked is pending or its id was handed back once as
long as its grace lasts, and only rings that can still be answered are presented. -/
theorem no_orphaned_ring (H : Sha256) (accountHash username deviceId : String)
    (ops : List CallStoreOp)
    (ho : Trace.Along (callStoreStep H) (fun s op => orphans s op = false) (.new accountHash username deviceId) ops) :
    let s := callStoreAfter H (.new accountHash username deviceId) ops
    (trackedAfter H ops).rings.map (·.2) = s.rings ∧
    (trackedAfter H ops).handed.map (·.2) = handedBack H (.new accountHash username deviceId) ops ∧
    RingsKept H ops ∧
    ∀ now retention, ∀ r ∈ (s.reconcile now retention).1.present,
      now < r.ringExpiresAt ∧ (s.reconcile now retention).2.registry.terminalReason r.callInstanceId = none := by
  intro s
  obtain ⟨ht, -, hsound⟩ := tracked_run H rfl rfl ho
  refine ⟨ht.1, ?_, ?_, fun now retention r hr => present_open hr⟩
  · have hempty : Tracks {} (CallStore.new accountHash username deviceId) := ⟨rfl, rfl⟩
    rw [trackedAfter, tracked_handed H ops hempty]
    rfl
  · intro now hpast m hm id hid hgrace
    rcases hsound.fate m hm with hpending | ⟨-, ⟨id', hid', hback⟩ | ⟨past, hp, hover⟩⟩
    · exact Or.inl hpending
    · rw [hid] at hid'
      cases hid'
      exact Or.inr hback
    · rw [inGrace_before hgrace (hpast past hp)] at hover
      cases hover

/-! ### Concrete runs -/

/-- A call of a digit. -/
def callOf (digit : Char) : String := String.ofList (List.replicate 31 '0' ++ [digit])

/-- An offer of a call, made at 100 for a ring up to 145. -/
def capsuleOf (call : String) : CallCapsule where
  v := 1
  kind := .offer
  callInstanceId := call
  offerId := sampleOffer
  ringHandle := sampleCall
  caller := "bob"
  callerIdentityKey := "key"
  callerDeviceId := "0"
  toDeviceId := "0"
  video := false
  group := false
  displayName := ""
  createdAt := 100
  ringExpiresAt := 145
  expiresAt := 160
  replyToMailbox := bobHash
  replyCallMailbox := ""
  replyCallKey := ""
  signer := .roster
  reason := none
  nonce := sampleCall
  signature := "signature"

/-- An offer is well formed when the id of its call is valid. -/
theorem capsuleOf_wellFormed {call : String} (hcall : validCallId call = true) :
    (capsuleOf call).wellFormed = true := by
  have hbase : (capsuleOf sampleCall).wellFormed = true := by decide +kernel
  unfold CallCapsule.wellFormed CallCapsule.signerAllowed at hbase ⊢
  dsimp only [capsuleOf] at hbase ⊢
  rw [hcall]
  simp only [Bool.and_eq_true] at hbase ⊢
  tauto

/-- An offer that is shown, and the end of its call. -/
def shownAndEnded : List CallStoreOp :=
  [.recordOffer (capsuleOf (callOf '1')) 100 0, .markPresented (callOf '1') "locked-ring",
    .recordTerminal (callOf '1') sampleOffer .callerCancelled 110 0]

theorem no_orphaned_ring_ended :
    RingsKept sampleSha shownAndEnded ∧
      handedBack sampleSha (.new bobHash "bob" "0") shownAndEnded = ["locked-ring"] := by
  have ho : Trace.Along (callStoreStep sampleSha)
      (fun s op => orphans s op = false) (.new bobHash "bob" "0")
      shownAndEnded := by
    refine ⟨?_, ?_, ?_, trivial⟩ <;> decide +kernel
  exact ⟨(no_orphaned_ring sampleSha bobHash "bob" "0" shownAndEnded ho).2.2.1, by decide +kernel⟩

/-- A ring is shown, and eight more calls ring. -/
def nineOffers : List CallStoreOp :=
  .recordOffer (capsuleOf (callOf '1')) 100 0 :: .markPresented (callOf '1') "locked-ring" ::
    ['2', '3', '4', '5', '6', '7', '8', '9'].map fun digit => .recordOffer (capsuleOf (callOf digit)) 100 0

/-- The oldest ring is dropped for the ninth, and its id is not handed back. -/
theorem oldest_ring_is_orphaned :
    ¬ ∀ ops : List CallStoreOp, (timesOf ops).Pairwise (· ≤ ·) → (∀ op ∈ ops, op.decoded) →
    RingsKept sampleSha ops := by
  intro h
  have hdecoded : ∀ op ∈ nineOffers, op.decoded := by
    have hcall : (['1', '2', '3', '4', '5', '6', '7', '8', '9'].all fun digit => validCallId (callOf digit)) = true := by
      decide +kernel
    intro op hop
    simp only [nineOffers, List.mem_cons, List.map_cons, List.map_nil, List.not_mem_nil,
      or_false] at hop
    rcases hop with rfl | rfl | rfl | rfl | rfl | rfl | rfl | rfl | rfl | rfl
    case inr.inl => trivial
    all_goals exact capsuleOf_wellFormed (List.all_eq_true.mp hcall _ (by decide))
  have hkept := h nineOffers (by decide) hdecoded 101 (by decide)
    (0, { PendingRing.fromCapsule sampleSha (capsuleOf (callOf '1')) with presentedAs := some "locked-ring" })
    (by decide +kernel) "locked-ring" rfl (by decide +kernel)
  revert hkept
  decide +kernel

end Sona
