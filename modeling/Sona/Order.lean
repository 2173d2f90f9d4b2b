/-
# The order of a thread

A thread is meant to be in the order of the senders' clocks, each message in it
once. A message and group content go in that way (`insertMessageOrdered`,
unless the id is there), so a thread of messages only is the same whatever the
order and the repetitions in which they came (`devices_converge`).

The client's own chips do not: a chip goes to the end, whatever time it carries,
and its id is made of that time and the length of the thread. So a thread keeps
its order exactly as long as each chip fits where it is put (`Fitting`): nothing in
the thread is later, and nothing has its id (`thread_order_iff`).

Key definitions: `ThreadOk`, `Fitting`, `OrderKept`, `Recording`, `Converges`.
Key theorems: `editStep_ok_iff`, `along_fits_iff`, `thread_order_iff`, `devices_converge`.
-/
import Mathlib.Data.List.Basic
import Mathlib.Data.List.Nodup
import Sona.Lib.Stable
import Sona.Lib.Table
import Sona.Lib.Trace
import Sona.Edits

namespace Sona

/-! ### Threads in order -/

/-- No id stands twice, and no message before an earlier one. -/
structure ThreadOk (msgs : List StoredMessage) : Prop where
  ids : (msgs.map (·.msgId)).Nodup
  sorted : Stable.Sorted (·.sentAt) msgs

theorem ThreadOk.nil : ThreadOk [] := ⟨by simp, List.Pairwise.nil⟩

theorem ThreadOk.sublist {msgs msgs' : List StoredMessage} (hs : msgs.Sublist msgs')
    (h : ThreadOk msgs') :
    ThreadOk msgs :=
  ⟨h.ids.sublist (hs.map _), List.Pairwise.sublist hs h.sorted⟩

/-- The ids and the times are all that counts. -/
theorem threadOk_congr {msgs msgs' : List StoredMessage}
    (hkeys : msgs'.map (fun m => (m.msgId, m.sentAt)) = msgs.map fun m => (m.msgId, m.sentAt)) :
    ThreadOk msgs' ↔ ThreadOk msgs := by
  have hids : ∀ l : List StoredMessage, l.map (·.msgId) =
      (l.map fun m => (m.msgId, m.sentAt)).map Prod.fst := by
    intro l
    simp
  have hsorted : ∀ l : List StoredMessage, Stable.Sorted (·.sentAt) l ↔
      (l.map fun m => (m.msgId, m.sentAt)).Pairwise fun a b => a.2 ≤ b.2 := by
    intro l
    rw [List.pairwise_map]
    rfl
  constructor
  · rintro ⟨hi, hs⟩
    refine ⟨?_, (hsorted msgs).mpr ?_⟩
    · rwa [hids, ← hkeys, ← hids]
    · rw [← hkeys]
      exact (hsorted msgs').mp hs
  · rintro ⟨hi, hs⟩
    refine ⟨?_, (hsorted msgs').mpr ?_⟩
    · rwa [hids, hkeys, ← hids]
    · rw [hkeys]
      exact (hsorted msgs).mp hs

/-- A change of one message keeps what is seen of each. -/
theorem map_updateFirst {β : Type} {k : StoredMessage → β} {f : StoredMessage → StoredMessage}
    (hf : ∀ m, k (f m) = k m) (p : StoredMessage → Bool) : ∀ msgs : List StoredMessage,
    (updateFirst p f msgs).map k = msgs.map k
  | [] => rfl
  | m :: msgs => by
    unfold updateFirst
    split
    · simp [hf]
    · simp [map_updateFirst hf p msgs]

theorem length_updateFirst (p : StoredMessage → Bool) (f : StoredMessage → StoredMessage)
    (msgs : List StoredMessage) : (updateFirst p f msgs).length = msgs.length := by
  have hmap := map_updateFirst (k := fun _ => ()) (f := f) (fun _ => rfl) p msgs
  simpa using congrArg List.length hmap

theorem insertMessageOrdered_eq (msgs : List StoredMessage) (m : StoredMessage) :
    insertMessageOrdered msgs m = Stable.insertLast (·.sentAt) msgs m := rfl

theorem sublist_recordOnce (msgs : List StoredMessage) (m : StoredMessage) :
    msgs.Sublist (recordOnce msgs m) := by
  unfold recordOnce
  split
  · exact List.Sublist.refl _
  · exact Stable.sublist_insertLast _ msgs m

/-- A message whose id is new goes where its time says. -/
theorem threadOk_recordOnce {msgs : List StoredMessage} (h : ThreadOk msgs) (m : StoredMessage) :
    ThreadOk (recordOnce msgs m) := by
  unfold recordOnce
  split
  · exact h
  · rename_i hnew
    have hperm := Stable.insertLast_perm (·.sentAt) msgs m
    refine ⟨?_, Stable.insertLast_sorted _ h.sorted m⟩
    rw [insertMessageOrdered_eq, (hperm.map _).nodup_iff, List.map_cons, List.nodup_cons]
    refine ⟨fun hin => hnew ?_, h.ids⟩
    simpa using hin

theorem threadOk_change (p : StoredMessage → Bool) (c : Change) (msgs : List StoredMessage) :
    ThreadOk (updateFirst p (Change.on · c) msgs) ↔ ThreadOk msgs := by
  apply threadOk_congr
  apply map_updateFirst
  intro m
  cases c <;> rfl

theorem threadOk_render (now : ℕ) (timer : Option ℕ) (sender : String) {msgs : List StoredMessage}
    (h : ThreadOk msgs) (c : HeldGroupContent) : ThreadOk (renderIn now timer sender msgs c) := by
  cases c with
  | message msgId body sentAt expireSecs reply forwarded =>
    unfold renderIn
    dsimp only
    split
    · exact (threadOk_change _ .forwarded _).mpr (threadOk_recordOnce h _)
    · exact threadOk_recordOnce h _
  | attachment msgId attachment sentAt expireSecs forwarded =>
    unfold renderIn
    dsimp only
    split
    · exact (threadOk_change _ .forwarded _).mpr (threadOk_recordOnce h _)
    · exact threadOk_recordOnce h _
  | reaction targetMsgId emoji add => exact (threadOk_change _ (.reaction sender emoji add) _).mpr h
  | edit msgId body => exact (threadOk_change _ (.body body) _).mpr h
  | delete msgId => exact h.sublist List.filter_sublist

/-! ### Chips -/

/-- A chip fits where it is put: nothing is later, and nothing has its id. -/
def ChipFits (tag : String) (msgs : List StoredMessage) (at_ : ℕ) : Prop :=
  ∀ m ∈ msgs, m.sentAt ≤ at_ ∧ m.msgId ≠ (chip tag "" at_ msgs.length).msgId

/-- The thread says so already. -/
def saysLast (msgs : List StoredMessage) (text : String) : Bool :=
  msgs.getLast?.any fun m => m.system && m.body = text

theorem threadOk_chip {msgs : List StoredMessage} (h : ThreadOk msgs) (tag text : String)
    (at_ : ℕ) :
    ThreadOk (msgs ++ [chip tag text at_ msgs.length]) ↔ ChipFits tag msgs at_ := by
  constructor
  · rintro ⟨hids, hsorted⟩ m hm
    rw [List.map_append, List.nodup_append] at hids
    have hlast := (List.pairwise_append.mp hsorted).2.2 m hm _ (List.mem_singleton.mpr rfl)
    exact ⟨hlast, hids.2.2 _ (List.mem_map_of_mem hm) _ (List.mem_singleton.mpr rfl)⟩
  · intro hfits
    refine ⟨?_, ?_⟩
    · rw [List.map_append, List.nodup_append]
      refine ⟨h.ids, by simp, ?_⟩
      intro id hid id' hid'
      obtain ⟨m, hm, rfl⟩ := List.mem_map.mp hid
      rw [List.mem_singleton.mp hid']
      exact (hfits m hm).2
    · refine List.pairwise_append.mpr ⟨h.sorted, List.pairwise_singleton _ _, ?_⟩
      intro m hm c hc
      rw [List.mem_singleton.mp hc]
      exact (hfits m hm).1

theorem sublist_recordChip (msgs : List StoredMessage) (text : String) (at_ : ℕ) :
    msgs.Sublist (recordChip msgs text at_) := by
  unfold recordChip
  split
  · exact List.Sublist.refl _
  · exact List.sublist_append_left _ _

/-- Where an edit puts a chip, the chip fits. -/
def Fitting (threads : Chat → Option (List StoredMessage)) (e : Chat × Edit) : Prop :=
  match e.2 with
  | .chip text at_ => ∀ msgs, threads e.1 = some msgs → saysLast msgs text = false → ChipFits "sys" msgs at_
  | .callChip _ at_ => ∀ msgs, threads e.1 = some msgs → ChipFits "call" msgs at_
  | _ => True

def ThreadsOk (threads : Chat → Option (List StoredMessage)) : Prop :=
  ∀ c msgs, threads c = some msgs → ThreadOk msgs

theorem threadsOk_editStep {threads : Chat → Option (List StoredMessage)} (h : ThreadsOk threads)
    (e : Chat × Edit) :
    ThreadsOk (editStep threads e) ↔ ∀ msgs, e.2.run (threads e.1) = some msgs → ThreadOk msgs := by
  unfold ThreadsOk editStep
  constructor
  · intro hok msgs hrun
    refine hok e.1 msgs ?_
    rw [Function.update_self, hrun]
  · intro hok c msgs hc
    by_cases heq : c = e.1
    · subst heq
      rw [Function.update_self] at hc
      exact hok msgs hc
    · rw [Function.update_of_ne heq] at hc
      exact h c msgs hc

/-- An edit that changes a thread that is there, to one in order. -/
theorem run_ok {threads : Chat → Option (List StoredMessage)} (h : ThreadsOk threads) {c : Chat}
    {e : Edit} (hon : ∀ msgs, ThreadOk msgs → ThreadOk (e.on msgs)) :
    ∀ msgs, (threads c).map (Edit.on · e) = some msgs → ThreadOk msgs := by
  intro msgs hrun
  obtain ⟨old, hold, rfl⟩ := Option.map_eq_some_iff.mp hrun
  exact hon old (h c old hold)

/-- **An edit keeps the threads in order exactly if its chip fits.** -/
theorem editStep_ok_iff {threads : Chat → Option (List StoredMessage)} (h : ThreadsOk threads)
    (e : Chat × Edit) :
    ThreadsOk (editStep threads e) ↔ Fitting threads e := by
  rw [threadsOk_editStep h]
  obtain ⟨c, e⟩ := e
  cases e with
  | create =>
    refine ⟨fun _ => trivial, fun _ msgs hrun => ?_⟩
    have hrun : some ((threads c).getD []) = some msgs := hrun
    cases ht : threads c with
    | none =>
      rw [ht] at hrun
      cases hrun
      exact ThreadOk.nil
    | some old =>
      rw [ht] at hrun
      cases hrun
      exact h c _ ht
  | clear => exact ⟨fun _ => trivial, fun _ msgs hrun => nomatch hrun⟩
  | record m => exact ⟨fun _ => trivial, fun _ => run_ok h fun _ hm => threadOk_recordOnce hm m⟩
  | content now timer sender content =>
    exact ⟨fun _ => trivial, fun _ => run_ok h fun _ hm => threadOk_render now timer sender hm content⟩
  | change p ch => exact ⟨fun _ => trivial, fun _ => run_ok h fun _ hm => (threadOk_change p ch _).mpr hm⟩
  | receipt ids target =>
    refine ⟨fun _ => trivial, fun _ => run_ok h fun msgs hm => (threadOk_congr ?_).mpr hm⟩
    unfold Edit.on
    rw [List.map_map]
    refine List.map_congr_left fun m _ => ?_
    simp only [Function.comp]
    split <;> rfl
  | seen ids =>
    refine ⟨fun _ => trivial, fun _ => run_ok h fun msgs hm => (threadOk_congr ?_).mpr hm⟩
    unfold Edit.on
    rw [List.map_map]
    refine List.map_congr_left fun m _ => ?_
    simp only [Function.comp]
    split <;> rfl
  | drop p => exact ⟨fun _ => trivial, fun _ => run_ok h fun _ hm => hm.sublist List.filter_sublist⟩
  | callChip text at_ =>
    constructor
    · intro hok msgs ht
      exact (threadOk_chip (h c msgs ht) "call" text at_).mp (hok _ (by rw [ht]; rfl))
    · intro hfits msgs hrun
      obtain ⟨old, hold, rfl⟩ := Option.map_eq_some_iff.mp hrun
      exact (threadOk_chip (h c old hold) "call" text at_).mpr (hfits old hold)
  | chip text at_ =>
    constructor
    · intro hok msgs ht hlast
      have hrun : Edit.run (.chip text at_) (threads c) =
          some (msgs ++ [chip "sys" text at_ msgs.length]) := by
        rw [ht]
        unfold saysLast at hlast
        simp [Edit.run, Edit.on, recordChip, hlast]
      exact (threadOk_chip (h c msgs ht) "sys" text at_).mp (hok _ hrun)
    · intro hfits msgs hrun
      obtain ⟨old, hold, rfl⟩ := Option.map_eq_some_iff.mp hrun
      show ThreadOk (recordChip old text at_)
      unfold recordChip
      cases hlast : saysLast old text with
      | true =>
        unfold saysLast at hlast
        rw [if_pos hlast]
        exact h c old hold
      | false =>
        have hfit := hfits old hold hlast
        unfold saysLast at hlast
        rw [if_neg (by simp [hlast])]
        exact (threadOk_chip (h c old hold) "sys" text at_).mpr hfit

/-! ### Lists of edits -/

/-- The edit puts no chip. -/
def Edit.plain : Edit → Bool
  | .chip .. | .callChip .. => false
  | _ => true

/-- The edit is one that an adoption makes: the thread is there, and held content comes in. -/
def Edit.replays : Edit → Bool
  | .create | .content .. => true
  | _ => false

/-- The edit takes nothing away and moves nothing. -/
def Edit.adds : Edit → Bool
  | .create | .record _ | .chip .. | .callChip .. | .change .. => true
  | _ => false

theorem fits_of_plain {threads : Chat → Option (List StoredMessage)} {e : Chat × Edit}
    (hp : e.2.plain = true) :
    Fitting threads e := by
  obtain ⟨c, e⟩ := e
  cases e with
  | chip | callChip => cases hp
  | _ => trivial

/-- What was out of order stays so when more is added. -/
theorem ok_of_adds {threads : Chat → Option (List StoredMessage)} {e : Chat × Edit}
    (ha : e.2.adds = true) (h : ThreadsOk (editStep threads e)) : ThreadsOk threads := by
  intro c msgs hc
  by_cases hce : c = e.1
  · subst hce
    obtain ⟨c, e⟩ := e
    have hself : ∀ msgs', e.run (threads c) = some msgs' → ThreadOk msgs' := by
      intro msgs' hrun
      refine h c msgs' ?_
      rw [editStep, Function.update_self]
      exact hrun
    rw [show threads c = some msgs from hc] at hself
    cases e with
    | create => exact hself msgs rfl
    | record m => exact (hself _ rfl).sublist (sublist_recordOnce msgs m)
    | chip text at_ => exact (hself _ rfl).sublist (sublist_recordChip msgs text at_)
    | callChip text at_ => exact (hself _ rfl).sublist (List.sublist_append_left _ _)
    | change p ch => exact (threadOk_change p ch msgs).mp (hself _ rfl)
    | clear | content | receipt | seen | drop => simp [Edit.adds] at ha
  · refine h c msgs ?_
    rw [editStep, Function.update_of_ne hce, hc]

theorem ok_of_run_adds {threads : Chat → Option (List StoredMessage)} {es : List (Chat × Edit)}
    (ha : ∀ e ∈ es, e.2.adds = true) (h : ThreadsOk (Trace.run editStep threads es)) :
    ThreadsOk threads := by
  induction es generalizing threads with
  | nil => exact h
  | cons e es ih =>
    have hrest : ThreadsOk (editStep threads e) := ih (fun e' he' => ha e' (by simp [he'])) h
    exact ok_of_adds (ha e (by simp)) hrest

/-- A list of edits is tidy if nothing is taken away behind its first chip. -/
def Tidy (es : List (Chat × Edit)) : Prop :=
  ∃ pre post, es = pre ++ post ∧ (∀ e ∈ pre, e.2.plain = true) ∧ ∀ e ∈ post, e.2.adds = true

theorem Tidy.of_plain {es : List (Chat × Edit)} (h : ∀ e ∈ es, e.2.plain = true) : Tidy es :=
  ⟨es, [], (List.append_nil _).symm, h, by simp⟩

theorem Tidy.of_replays {es : List (Chat × Edit)} (h : ∀ e ∈ es, e.2.replays = true) : Tidy es := by
  apply Tidy.of_plain
  intro e he
  have hreplays := h e he
  cases hedit : e.2 with
  | chip | callChip =>
    rw [hedit] at hreplays
    cases hreplays
  | _ => rfl

theorem Tidy.of_adds {es : List (Chat × Edit)} (h : ∀ e ∈ es, e.2.adds = true) : Tidy es :=
  ⟨[], es, rfl, by simp, h⟩

theorem Tidy.append {es fs : List (Chat × Edit)} (h : Tidy es) (hf : ∀ e ∈ fs, e.2.adds = true) :
    Tidy (es ++ fs) := by
  obtain ⟨pre, post, rfl, hpre, hpost⟩ := h
  refine ⟨pre, post ++ fs, List.append_assoc _ _ _, hpre, ?_⟩
  intro e he
  rcases List.mem_append.mp he with he | he
  · exact hpost e he
  · exact hf e he

/-- **The threads end in order exactly if each chip fits where it is put.** -/
theorem along_fits_iff {threads : Chat → Option (List StoredMessage)} (h : ThreadsOk threads)
    {es : List (Chat × Edit)} (ht : Tidy es) :
    Trace.Along editStep Fitting threads es ↔ ThreadsOk (Trace.run editStep threads es) := by
  obtain ⟨pre, post, rfl, hpre, hpost⟩ := ht
  have keep : ∀ threads e, ThreadsOk threads → Fitting threads e → ThreadsOk (editStep threads e) :=
    fun threads e hok hf => (editStep_ok_iff hok e).mpr hf
  constructor
  · intro hfits
    exact hfits.inv keep h
  · intro hrun
    have hplain : ∀ {threads : Chat → Option (List StoredMessage)} {es : List (Chat × Edit)},
        (∀ e ∈ es, e.2.plain = true) → Trace.Along editStep Fitting threads es := by
      intro threads es he
      apply Trace.along_of_split
      rintro pre e post rfl
      exact fits_of_plain (he e (by simp))
    have hmid : ThreadsOk (Trace.run editStep threads pre) := (hplain hpre).inv keep h
    rw [Trace.run_append] at hrun
    refine (Trace.along_append _ _ _ _ _).mpr ⟨hplain hpre, ?_⟩
    generalize Trace.run editStep threads pre = threads at hmid hrun
    clear h hpre
    induction post generalizing threads with
    | nil => trivial
    | cons e post ih =>
      have hpost' : ∀ e' ∈ post, e'.2.adds = true := fun e' he' => hpost e' (by simp [he'])
      have hstep : ThreadsOk (editStep threads e) := ok_of_run_adds hpost' hrun
      exact ⟨(editStep_ok_iff hmid e).mp hstep, ih hpost' _ hstep hrun⟩

/-! ### The edits of events are tidy -/

section tidy

variable (h : History) (C : Crypto) (now : ℕ)

theorem adds_storedEdits (c : Chat) (m : StoredMessage) (forwarded : Bool) :
    ∀ e ∈ storedEdits c m forwarded, e.2.adds = true := by
  unfold storedEdits
  cases forwarded <;> simp [Edit.adds]

theorem replays_adoptEdits (epoch : GroupEpoch) :
    ∀ e ∈ h.adoptEdits C now epoch, e.2.replays = true := by
  intro e he
  unfold History.adoptEdits at he
  split at he
  · cases he
  · rcases List.mem_cons.mp he with rfl | he
    · rfl
    · obtain ⟨ev, -, rfl⟩ := List.mem_map.mp he
      rfl

theorem replays_inviteEdits :
    ∀ (invs : List HeldInvite) (h : History), ∀ e ∈ History.inviteEdits C now invs h,
    e.2.replays = true
  | [], _ => by simp [History.inviteEdits]
  | inv :: invs, h => by
    intro e he
    rcases List.mem_append.mp he with he | he
    · exact replays_adoptEdits h C now inv.epoch e he
    · exact replays_inviteEdits invs _ e he

/-- The chip of an acceptance comes when the invites are through. -/
theorem tidy_acceptForKeyEdits (convo : String) : Tidy (h.acceptForKeyEdits C now convo) := by
  unfold History.acceptForKeyEdits History.acceptEdits
  split
  · split
    · exact Tidy.of_plain (by simp)
    · rename_i h' _
      refine (Tidy.of_replays (replays_inviteEdits C now _ h')).append ?_
      simp [History.chipEdits, Edit.adds]
  · exact Tidy.of_plain (by simp)

theorem tidy_rosterEdits (epoch : GroupEpoch) : Tidy (h.rosterEdits C now epoch) := by
  refine (Tidy.of_replays (replays_adoptEdits h C now epoch)).append ?_
  intro e he
  split at he
  · unfold History.membershipEdits at he
    dsimp only at he
    split at he
    · rw [List.mem_singleton.mp he]
      rfl
    split at he
    · rw [List.mem_singleton.mp he]
      rfl
    · cases he
  · cases he

theorem tidy_screenedEdits (convo claimed : String) {edits : List (Chat × Edit)} (ht : Tidy edits) :
    Tidy (h.screenedEdits now convo claimed edits) := by
  unfold History.screenedEdits
  split
  · exact Tidy.of_plain (by simp)
  · exact ht

theorem tidy_ite {p : Prop} [Decidable p] {es fs : List (Chat × Edit)} (he : Tidy es)
    (hf : Tidy fs) :
    Tidy (if p then es else fs) := by
  split
  · exact he
  · exact hf

theorem tidy_nil : Tidy [] := Tidy.of_plain (by simp)

theorem tidy_gatedEdits (gid sender : String) (content : HeldGroupContent) :
    Tidy (h.gatedEdits now gid sender content) :=
  tidy_ite tidy_nil (Tidy.of_plain (by simp [Edit.plain]))

theorem tidy_applyEdits (event : InboundEvent) : Tidy (h.applyEdits C now event) := by
  have hstored := fun c m forwarded => Tidy.of_adds (adds_storedEdits c m forwarded)
  have hone : ∀ (c : Chat) {e : Edit}, e.plain = true → Tidy [(c, e)] :=
    fun c e he => Tidy.of_plain (by simp [he])
  have hchip : ∀ (c : Chat) text, Tidy [(c, .chip text now)] :=
    fun c text => Tidy.of_adds (by simp [Edit.adds])
  cases event with
  | message => exact tidy_screenedEdits h now _ _ (hstored _ _ _)
  | attachment => exact tidy_screenedEdits h now _ _ (hstored _ _ _)
  | forwardedIncoming => exact tidy_ite (tidy_screenedEdits h now _ _ (hstored _ _ _)) tidy_nil
  | selfSentText => exact tidy_ite ((tidy_acceptForKeyEdits h C now _).append (adds_storedEdits _ _ _)) tidy_nil
  | selfSentFile => exact tidy_ite ((tidy_acceptForKeyEdits h C now _).append (adds_storedEdits _ _ _)) tidy_nil
  | groupRosterUpdate sender epoch name secs avatar =>
    simp only [History.applyEdits]
    rcases h.screenRosterUpdate now sender epoch name secs avatar with ⟨taken, h'⟩
    cases taken with
    | true => exact tidy_nil
    | false => exact tidy_rosterEdits h' C now epoch
  | groupMessage | groupMessageEdited | groupMessageDeleted | groupAttachment =>
    exact tidy_gatedEdits h now _ _ _
  | groupReaction => exact tidy_ite (hone _ rfl) (tidy_gatedEdits h now _ _ _)
  | groupRenamed sender gid name =>
    unfold History.applyEdits
    dsimp only
    rcases renameEdits_cases h now (h.attributeDevice sender) gid name with heq | ⟨text, heq⟩
    · rw [heq]
      exact tidy_nil
    · rw [heq]
      exact hchip _ text
  | groupMemberLeft sender gid =>
    unfold History.applyEdits
    dsimp only
    rcases leaveEdits_cases h now (h.attributeDevice sender) gid with heq | ⟨text, heq⟩
    · rw [heq]
      exact tidy_nil
    · rw [heq]
      exact hchip _ text
  | timerUpdate | messagePinned => exact tidy_ite tidy_nil (hone _ rfl)
  | selfReadSeen | selfTimerUpdate | selfReaction | selfMessagePinned | groupMessagePinned =>
    exact tidy_ite (hone _ rfl) tidy_nil
  | messageEdited | messageDeleted | receipt | chatDeleted | reaction => exact hone _ rfl
  | knock | groupTimerUpdate | renamed | profileUpdate | groupAvatarUpdate | selfProfileUpdate | other => exact tidy_nil

end tidy

/-! ### Operations -/

/-- The operations that write a thread, by the user or for an event that came in. -/
def HistoryOp.onThreads : HistoryOp → Bool
  | .recordFull .. | .recordAttachment .. | .recordSystem .. | .recordCallEvent .. | .recordGroupMessage ..
  | .recordGroupAttachment .. | .recordGroupSystem .. | .recordGroupCallEvent .. | .deleteMessage ..
  | .deleteGroupMessage .. | .apply _ | .mergeFrom _ => true
  | _ => false

/-- Their edits, of those that make edits. -/
def History.opEdits (h : History) (C : Crypto) (now : ℕ) : HistoryOp → List (Chat × Edit)
  | .recordFull peer direction msgId body sentAt reply expireSecs =>
    storedEdits (.peer peer) (textMessage now (h.timer peer) direction msgId body sentAt reply expireSecs) false
  | .recordAttachment peer direction msgId attachment sentAt expireSecs =>
    storedEdits (.peer peer) (fileMessage now (h.timer peer) direction msgId attachment sentAt expireSecs) false
  | .recordSystem peer text at_ => History.chipEdits (.peer peer) text at_
  | .recordCallEvent peer text at_ => [(.peer peer, .create), (.peer peer, .callChip text at_)]
  | .recordGroupMessage gid sender msgId body sentAt expireSecs reply =>
    [(.group gid, .content now (h.groupTimer gid) sender (.message msgId body sentAt expireSecs reply false))]
  | .recordGroupAttachment gid sender msgId attachment sentAt expireSecs =>
    [(.group gid, .content now (h.groupTimer gid) sender (.attachment msgId attachment sentAt expireSecs false))]
  | .recordGroupSystem gid text at_ => [(.group gid, .chip text at_)]
  | .recordGroupCallEvent gid text at_ => [(.group gid, .callChip text at_)]
  | .deleteMessage peer msgId => [(.peer peer, .drop (·.msgId = msgId))]
  | .deleteGroupMessage gid msgId => [(.group gid, .drop (·.msgId = msgId))]
  | .apply event => h.applyEdits C now event
  | _ => []

theorem edited_opEdits (C : Crypto) (h : History) (now : ℕ) {op : HistoryOp}
    (hop : op.onThreads = true) (hm : ∀ other, op ≠ .mergeFrom other) :
    Edited h (h.opEdits C now op) (h.step C now op) := by
  cases op with
  | recordFull peer direction msgId body sentAt reply expireSecs =>
    exact edited_recordFull now peer _ _ _ _ _ _
  | recordAttachment peer direction msgId attachment sentAt expireSecs =>
    exact edited_recordAttachment now peer _ _ _ _ _
  | recordSystem peer text at_ => exact edited_recordSystem h peer text at_
  | recordCallEvent peer text at_ =>
    apply edited_intoConversation peer (fun _ => rfl)
    unfold History.messages
    cases h.conversations.get peer <;> rfl
  | recordGroupMessage gid sender msgId body sentAt expireSecs reply =>
    have heq := recordGroupMessage_eq (h := h) now gid sender msgId body sentAt expireSecs reply
    unfold History.step
    dsimp only
    rw [heq]
    exact edited_updateThread _ (fun _ => rfl) gid
  | recordGroupAttachment gid sender msgId attachment sentAt expireSecs =>
    have heq := recordGroupAttachment_eq (h := h) now gid sender msgId attachment sentAt expireSecs
    unfold History.step
    dsimp only
    rw [heq]
    exact edited_updateThread _ (fun _ => rfl) gid
  | recordGroupSystem gid text at_ => exact edited_updateThread _ (fun _ => rfl) gid
  | recordGroupCallEvent gid text at_ => exact edited_updateThread _ (fun _ => rfl) gid
  | deleteMessage peer msgId =>
    refine edited_updateMessages _ (fun t => ?_) peer
    simp [Edit.run, Edit.on]
  | deleteGroupMessage gid msgId =>
    refine edited_updateThread _ (fun t => ?_) gid
    simp [Edit.run, Edit.on]
  | apply event => exact edited_apply C h now event
  | mergeFrom other => exact absurd rfl (hm other)
  | _ => cases hop

theorem tidy_opEdits (C : Crypto) (h : History) (now : ℕ) (op : HistoryOp) :
    Tidy (h.opEdits C now op) := by
  cases op with
  | apply event => exact tidy_applyEdits h C now event
  | recordFull | recordAttachment => exact Tidy.of_adds (adds_storedEdits _ _ _)
  | recordSystem | recordCallEvent | recordGroupSystem | recordGroupCallEvent =>
    exact Tidy.of_adds (by simp [History.opEdits, History.chipEdits, Edit.adds])
  | recordGroupMessage | recordGroupAttachment | deleteMessage | deleteGroupMessage =>
    exact Tidy.of_plain (by simp [History.opEdits, Edit.plain])
  | _ => exact tidy_nil

/-! ### Merging -/

/-- The messages of another device come in once each. -/
theorem nodup_mergeMessages : ∀ {msgs others : List StoredMessage}, (msgs.map (·.msgId)).Nodup →
    ((others.foldl (fun msgs m => if msgs.any fun x => x.msgId = m.msgId then msgs else msgs ++ [m]) msgs).map
      (·.msgId)).Nodup
  | _, [], h => h
  | msgs, m :: others, h => by
    rw [List.foldl_cons]
    split
    · exact nodup_mergeMessages h
    · rename_i hnew
      apply nodup_mergeMessages
      rw [List.map_append, List.nodup_append]
      refine ⟨h, by simp, ?_⟩
      intro id hid id' hid' heq
      obtain ⟨x, hx, rfl⟩ := List.mem_map.mp hid
      refine hnew (List.any_eq_true.mpr ⟨x, hx, ?_⟩)
      rw [List.map_singleton, List.mem_singleton] at hid'
      simp [heq, hid']

theorem sortThread_sorted (msgs : List StoredMessage) :
    Stable.Sorted (·.sentAt) (sortThread msgs) := by
  have htrans : ∀ a b c : StoredMessage, decide (a.sentAt ≤ b.sentAt) = true →
      decide (b.sentAt ≤ c.sentAt) = true →
      decide (a.sentAt ≤ c.sentAt) = true := by
    intro a b c hab hbc
    simp only [decide_eq_true_eq] at hab hbc ⊢
    omega
  have htotal : ∀ a b : StoredMessage,
      (decide (a.sentAt ≤ b.sentAt) || decide (b.sentAt ≤ a.sentAt)) = true := by
    intro a b
    simp only [Bool.or_eq_true, decide_eq_true_eq]
    omega
  exact (List.pairwise_mergeSort htrans htotal msgs).imp fun hle => of_decide_eq_true hle

/-- A conversation that is merged is sorted anew. -/
theorem threadOk_mergeConversation {dst : Conversation} (h : ThreadOk dst.messages)
    (convo : Conversation) :
    ThreadOk (History.mergeConversation dst convo).messages := by
  refine ⟨?_, sortThread_sorted _⟩
  unfold History.mergeConversation sortThread
  rw [((List.mergeSort_perm _ _).map _).nodup_iff]
  exact nodup_mergeMessages h.ids

/-- The groups that a merge brings are in order. -/
def MergeFits (h other : History) : Prop :=
  ∀ gid msgs, h.thread (.group gid) = none → other.thread (.group gid) = some msgs → ThreadOk msgs

theorem thread_mergeFrom_group (h other : History) (gid : String) :
    (h.mergeFrom other).thread (.group gid) =
      (h.thread (.group gid)).or (other.thread (.group gid)) := by
  have hget : (h.mergeFrom other).groups.get gid = (h.groups.orInsertAll other.groups).get gid :=
    rfl
  rw [thread_group, thread_group, thread_group, hget, Table.get_orInsertAll]
  cases h.groups.get gid <;> rfl

theorem thread_mergeFrom_peer (h other : History) (key : String) :
    (h.mergeFrom other).thread (.peer key) = ((other.conversations.get key).map fun convo =>
      (History.mergeConversation ((h.conversations.get key).getD {}) convo).messages).or (h.thread (.peer key)) := by
  have hget : (h.mergeFrom other).conversations.get key = (other.conversations.entries.foldl
      (fun t e => t.set e.1 (History.mergeConversation ((t.get e.1).getD {}) e.2)) h.conversations).get key := rfl
  rw [thread_peer, thread_peer, hget,
    Table.get_foldl_set (fun old convo => History.mergeConversation (old.getD {}) convo)]
  cases other.conversations.get key <;> cases h.conversations.get key <;> rfl

theorem mergeFrom_ok_iff {h : History} (hok : ThreadsOk h.thread) (other : History) :
    ThreadsOk (h.mergeFrom other).thread ↔ MergeFits h other := by
  constructor
  · intro hmerged gid msgs hnone hother
    refine hmerged (.group gid) msgs ?_
    rw [thread_mergeFrom_group, hnone, hother]
    rfl
  · intro hfits c msgs hc
    cases c with
    | group gid =>
      rw [thread_mergeFrom_group] at hc
      cases hthread : h.thread (.group gid) with
      | some own =>
        rw [hthread] at hc
        cases hc
        exact hok _ _ hthread
      | none =>
        rw [hthread] at hc
        exact hfits gid msgs hthread hc
    | peer key =>
      rw [thread_mergeFrom_peer] at hc
      have hown : ThreadOk ((h.conversations.get key).getD {}).messages := by
        cases hconvo : h.conversations.get key with
        | none => exact ThreadOk.nil
        | some convo => exact hok (.peer key) _ (by rw [thread_peer, hconvo]; rfl)
      cases hother : other.conversations.get key with
      | none =>
        rw [hother] at hc
        exact hok (.peer key) msgs hc
      | some convo =>
        rw [hother] at hc
        cases hc
        exact threadOk_mergeConversation hown convo

/-! ### Runs -/

/-- Each chip that the operation puts fits, and so do the groups that it brings. -/
def OrderKept (C : Crypto) (h : History) (op : ℕ × HistoryOp) : Prop :=
  match op.2 with
  | .mergeFrom other => MergeFits h other
  | o => Trace.Along editStep Fitting h.thread (h.opEdits C op.1 o)

theorem step_ok_iff (C : Crypto) (h : History) (op : ℕ × HistoryOp) (hop : op.2.onThreads = true)
    (hok : ThreadsOk h.thread) : ThreadsOk (h.step C op.1 op.2).thread ↔ OrderKept C h op := by
  obtain ⟨now, op⟩ := op
  by_cases hm : ∃ other, op = .mergeFrom other
  · obtain ⟨other, rfl⟩ := hm
    exact mergeFrom_ok_iff hok other
  · have hm : ∀ other, op ≠ .mergeFrom other := fun other heq => hm ⟨other, heq⟩
    have hedits := edited_opEdits C h now hop hm
    unfold Edited at hedits
    have hkept : OrderKept C h (now, op) ↔
        Trace.Along editStep Fitting h.thread (h.opEdits C now op) := by
      cases op with
      | mergeFrom other => exact absurd rfl (hm other)
      | _ => exact Iff.rfl
    rw [hkept, hedits]
    exact (along_fits_iff hok (tidy_opEdits C h now op)).symm

/-- **Every thread stays in order exactly as long as each chip fits where it is put.** -/
theorem thread_order_iff (C : Crypto) (ops : List (ℕ × HistoryOp))
    (hops : ∀ op ∈ ops, op.2.onThreads = true) :
    Trace.Along (fun h op => History.step C h op.1 op.2) (OrderKept C) {} ops ↔
      ∀ pre, pre <+: ops → ThreadsOk (History.run C {} pre).thread := by
  refine Trace.along_iff_inv_on (P := fun op => op.2.onThreads = true)
    (fun h op hop => step_ok_iff C h op hop) ?_ ops hops
  intro c msgs hc
  cases c <;> cases hc

/-- A message from a clock that runs ahead, and a call that is missed before its time. -/
def missedCallOps : List (ℕ × HistoryOp) :=
  [(100, .apply (.message "bob" "bob" "m1" "hello" 200 none none false)),
    (100, .recordCallEvent "bob" "Missed call" 100)]

/-- Three calls within one second, and the first chip deleted before the third. -/
def missedCallsOps : List (ℕ × HistoryOp) :=
  [(100, .recordCallEvent "bob" "Missed call" 100), (100, .recordCallEvent "bob" "Missed call" 100),
    (100, .deleteMessage "bob" "call-100-0"), (100, .recordCallEvent "bob" "Missed call" 100)]

theorem missedCall_disorder :
    ¬ ThreadsOk (History.run (sampleRelay []).crypto {} missedCallOps).thread := by
  have hthread : ((History.run (sampleRelay []).crypto {} missedCallOps).thread (.peer "bob")).map
      (·.map (·.sentAt))
      = some [200, 100] := by decide +kernel
  intro hok
  obtain ⟨msgs, hmsgs, htimes⟩ := Option.map_eq_some_iff.mp hthread
  have hsorted : (msgs.map (·.sentAt)).Pairwise (· ≤ ·) :=
    List.pairwise_map.mpr (hok _ msgs hmsgs).sorted
  rw [htimes] at hsorted
  exact absurd hsorted (by decide)

/-- A call that is missed puts its chip behind a later message, and a chip can
get the id of another one. -/
theorem chips_break_order :
    (∀ op ∈ missedCallOps ++ missedCallsOps, op.2.onThreads = true) ∧
      ¬ ThreadsOk (History.run (sampleRelay []).crypto {} missedCallOps).thread ∧
      ¬ ThreadsOk (History.run (sampleRelay []).crypto {} missedCallsOps).thread := by
  refine ⟨by decide, missedCall_disorder, ?_⟩
  have hthread : ((History.run (sampleRelay []).crypto {} missedCallsOps).thread (.peer "bob")).map
      (·.map (·.msgId))
      = some ["call-100-1", "call-100-1"] := by decide +kernel
  intro hok
  obtain ⟨msgs, hmsgs, hids⟩ := Option.map_eq_some_iff.mp hthread
  have hnodup := (hok _ msgs hmsgs).ids
  rw [hids] at hnodup
  exact absurd hnodup (by decide)

theorem thread_order_iff_missedCall :
    (∀ op ∈ missedCallOps, op.2.onThreads = true) ∧
      ¬ Trace.Along (fun h op => History.step (sampleRelay []).crypto h op.1 op.2) (OrderKept (sampleRelay []).crypto) {}
        missedCallOps := by
  have hops : ∀ op ∈ missedCallOps, op.2.onThreads = true := by decide
  refine ⟨hops, fun hkept => missedCall_disorder ?_⟩
  exact (thread_order_iff _ missedCallOps hops).mp hkept missedCallOps List.prefix_rfl

/-! ### Any order of the same messages -/

/-- A call that records a message of a conversation. -/
inductive Recording
  | text (direction : Direction) (msgId body : String) (sentAt : ℕ) (reply : Option ReplyRef)
      (expireSecs : Option ℕ)
  | file (direction : Direction) (msgId : String) (attachment : AttachmentRef) (sentAt : ℕ)
      (expireSecs : Option ℕ)
deriving DecidableEq, Repr

/-- And one that records a message of a group. -/
inductive GroupRecording
  | text (sender msgId body : String) (sentAt : ℕ) (expireSecs : Option ℕ) (reply : Option ReplyRef)
  | file (sender msgId : String) (attachment : AttachmentRef) (sentAt : ℕ) (expireSecs : Option ℕ)
deriving DecidableEq, Repr

namespace Recording

def call (h : History) (now : ℕ) (peer : String) : Recording → History
  | text direction msgId body sentAt reply expireSecs =>
    h.recordFull now peer direction msgId body sentAt reply expireSecs
  | file direction msgId attachment sentAt expireSecs =>
    h.recordAttachment now peer direction msgId attachment sentAt expireSecs

/-- One call after another. -/
def calls (h : History) (now : ℕ) (peer : String) (rs : List Recording) : History :=
  rs.foldl (fun h r => r.call h now peer) h

/-- What it records, where the conversation has the timer `timer`. -/
def message (now : ℕ) (timer : Option ℕ) : Recording → StoredMessage
  | text direction msgId body sentAt reply expireSecs =>
    textMessage now timer direction msgId body sentAt reply expireSecs
  | file direction msgId attachment sentAt expireSecs =>
    fileMessage now timer direction msgId attachment sentAt expireSecs

end Recording

namespace GroupRecording

def call (h : History) (now : ℕ) (gid : String) : GroupRecording → History
  | text sender msgId body sentAt expireSecs reply =>
    h.recordGroupMessage now gid sender msgId body sentAt expireSecs reply
  | file sender msgId attachment sentAt expireSecs =>
    h.recordGroupAttachment now gid sender msgId attachment sentAt expireSecs

def calls (h : History) (now : ℕ) (gid : String) (rs : List GroupRecording) : History :=
  rs.foldl (fun h r => r.call h now gid) h

def message (now : ℕ) (timer : Option ℕ) : GroupRecording → StoredMessage
  | text sender msgId body sentAt expireSecs reply =>
    { textMessage now timer .incoming msgId body sentAt reply expireSecs with
        sender := some sender }
  | file sender msgId attachment sentAt expireSecs =>
    { fileMessage now timer .incoming msgId attachment sentAt expireSecs with
        sender := some sender }

end GroupRecording

/-- The calls of one run have no two messages of one id. -/
def DistinctIds {R : Type} (message : R → StoredMessage) (rs : List R) : Prop :=
  ∀ r ∈ rs, ∀ r' ∈ rs, (message r).msgId = (message r').msgId → r = r'

def DistinctTimes {R : Type} (message : R → StoredMessage) (rs : List R) : Prop :=
  ∀ r ∈ rs, ∀ r' ∈ rs, (message r).sentAt = (message r').sentAt → r = r'

/-- What calls leave behind does not depend on their order: `result` of the same
calls, in any order and with any repetitions, is one list, up to the order of
arrival among those of one time. -/
structure Converges {R : Type} (message : R → StoredMessage)
    (result : List R → List StoredMessage) : Prop where
  sorted : ∀ rs, Stable.Sorted (·.sentAt) (result rs)
  equal : ∀ rs rs', (∀ r, r ∈ rs ↔ r ∈ rs') → DistinctIds message rs → DistinctTimes message rs →
    result rs = result rs'
  perm : ∀ rs rs', (∀ r, r ∈ rs ↔ r ∈ rs') → DistinctIds message rs → (result rs).Perm (result rs')
  /-- Each call counts once, when it first arrives. -/
  ties : ∀ rs t, (result rs).filter (fun m => m.sentAt = t) =
    ((Stable.firsts (fun r => (message r).msgId) rs).map message).filter fun m => m.sentAt = t

theorem foldl_recordOnce (ms : List StoredMessage) :
    ms.foldl recordOnce [] = Stable.insertAll (·.sentAt) (Stable.firsts (·.msgId) ms) :=
  Stable.foldl_insertNew (fun m : StoredMessage => m.sentAt) (fun m : StoredMessage => m.msgId) ms

theorem converges_of_fold {R : Type} {message : R → StoredMessage}
    {result : List R → List StoredMessage}
    (hresult : ∀ rs, result rs = (rs.map message).foldl recordOnce []) :
    Converges message result := by
  have hfirsts : ∀ rs : List R, Stable.firsts (·.msgId) (rs.map message) =
      (Stable.firsts (fun r => (message r).msgId) rs).map message := by
    intro rs
    induction rs using List.reverseRecOn with
    | nil => rfl
    | append_singleton rs r ih =>
      rw [List.map_append, List.map_singleton, Stable.firsts_snoc, Stable.firsts_snoc, ih]
      unfold Stable.addNew
      rw [List.any_map]
      simp only [Function.comp_def]
      split
      · rfl
      · rw [List.map_append, List.map_singleton]
  have hlist : ∀ rs, result rs =
      Stable.insertAll (·.sentAt) ((Stable.firsts (fun r => (message r).msgId) rs).map message) := by
    intro rs
    rw [hresult, foldl_recordOnce, hfirsts]
  have hperm : ∀ rs rs', (∀ r, r ∈ rs ↔ r ∈ rs') → DistinctIds message rs →
      ((Stable.firsts (fun r => (message r).msgId) rs).map message).Perm
        ((Stable.firsts (fun r => (message r).msgId) rs').map message) :=
    fun rs rs' hsame hids => (Stable.firsts_perm _ hids hsame).map message
  constructor
  · intro rs
    rw [hlist]
    exact Stable.insertAll_sorted _ _
  · intro rs rs' hsame hids htimes
    rw [hlist, hlist]
    apply Stable.insertAll_congr _ (hperm rs rs' hsame hids)
    intro m hm m' hm' heq
    obtain ⟨r, hr, rfl⟩ := List.mem_map.mp hm
    obtain ⟨r', hr', rfl⟩ := List.mem_map.mp hm'
    rw [htimes r (Stable.mem_of_mem_firsts _ hr) r' (Stable.mem_of_mem_firsts _ hr') heq]
  · intro rs rs' hsame hids
    rw [hlist, hlist]
    exact ((Stable.insertAll_perm _ _).trans (hperm rs rs' hsame hids)).trans
      (Stable.insertAll_perm _ _).symm
  · intro rs t
    rw [hlist]
    exact Stable.filter_insertAll _ _ t

/-- One call on a conversation: the timer stays, and the thread takes the message. -/
theorem recording_call (h : History) (now : ℕ) (peer : String) (r : Recording) :
    (r.call h now peer).timer peer = h.timer peer ∧
      (r.call h now peer).messages peer =
        recordOnce (h.messages peer) (r.message now (h.timer peer)) := by
  cases r with
  | text | file =>
    unfold Recording.call History.recordFull History.recordAttachment History.intoConversation History.timer
      History.messages
    simp only [Table.get_set_self]
    cases h.conversations.get peer <;> exact ⟨rfl, rfl⟩

theorem recordings_fold (now : ℕ) (peer : String) : ∀ (rs : List Recording) (h : History),
    (Recording.calls h now peer rs).messages peer =
      (rs.map (Recording.message now (h.timer peer))).foldl recordOnce (h.messages peer)
  | [], _ => rfl
  | r :: rs, h => by
    obtain ⟨htimer, hmsgs⟩ := recording_call h now peer r
    have ih := recordings_fold now peer rs (r.call h now peer)
    rw [htimer, hmsgs] at ih
    exact ih

theorem groupRecording_call (h : History) (now : ℕ) (gid : String) (r : GroupRecording) :
    r.call h now gid = h.updateThread gid (recordOnce · (r.message now (h.groupTimer gid))) := by
  cases r with
  | text sender msgId body sentAt expireSecs reply =>
    exact recordGroupMessage_eq now gid sender msgId body sentAt expireSecs reply
  | file sender msgId attachment sentAt expireSecs =>
    exact recordGroupAttachment_eq now gid sender msgId attachment sentAt expireSecs

theorem groupRecordings_fold (now : ℕ) (gid : String) : ∀ (rs : List GroupRecording) (h : History),
    (GroupRecording.calls h now gid rs).thread (.group gid) =
      (h.thread (.group gid)).map fun msgs =>
      (rs.map (GroupRecording.message now (h.groupTimer gid))).foldl recordOnce msgs
  | [], h => Option.map_id_apply.symm
  | r :: rs, h => by
    have ih := groupRecordings_fold now gid rs (r.call h now gid)
    have hcalls : GroupRecording.calls h now gid (r :: rs) =
        GroupRecording.calls (r.call h now gid) now gid rs := rfl
    rw [hcalls, ih, groupRecording_call, updateThread_groupTimer]
    unfold History.updateThread
    rw [thread_updateGroup (recordOnce · (r.message now (h.groupTimer gid))) (fun _ => rfl),
      if_pos rfl, Option.map_map]
    rfl

/-- **Devices converge**: the messages that calls leave in an empty thread do not
depend on the order of the calls or on how often they are repeated. -/
theorem devices_converge (h : History) (now : ℕ) :
    (∀ peer, h.messages peer = [] → Converges (Recording.message now (h.timer peer))
      fun rs => (Recording.calls h now peer rs).messages peer) ∧
    ∀ gid, h.thread (.group gid) = some [] →
    Converges (GroupRecording.message now (h.groupTimer gid))
      fun rs => ((GroupRecording.calls h now gid rs).thread (.group gid)).getD [] := by
  constructor
  · intro peer hempty
    apply converges_of_fold
    intro rs
    rw [recordings_fold, hempty]
  · intro gid hempty
    apply converges_of_fold
    intro rs
    rw [groupRecordings_fold, hempty]
    rfl

/-- Two messages, of which the first came first to one device and last to another. -/
def twoRecordings : List Recording :=
  [.text .outgoing "a" "first" 100 none none, .text .outgoing "b" "second" 101 none (some 60)]

def twoGroupRecordings : List GroupRecording :=
  [.text "carol" "a" "first" 100 none none, .text "dave" "b" "second" 101 (some 60) none]

/-- A history with a group in which nothing was said. -/
def quietGroup : History := { groups := (∅ : Table String GroupRecord).set "family" {} }

theorem devices_converge_two :
    (Recording.calls {} 200 "bob" twoRecordings).messages "bob" =
        (Recording.calls {} 200 "bob" (twoRecordings.reverse ++ twoRecordings)).messages "bob" ∧
      ((GroupRecording.calls quietGroup 200 "family" twoGroupRecordings).thread (.group "family")).getD [] =
        ((GroupRecording.calls quietGroup 200 "family" (twoGroupRecordings.reverse ++ twoGroupRecordings)).thread
          (.group "family")).getD [] := by
  have hpeer := (devices_converge {} 200).1 "bob" rfl
  have hgroup := (devices_converge quietGroup 200).2 "family" rfl
  refine ⟨hpeer.equal twoRecordings (twoRecordings.reverse ++ twoRecordings) (fun r => by simp) ?_ ?_,
    hgroup.equal twoGroupRecordings (twoGroupRecordings.reverse ++ twoGroupRecordings)
    (fun r => by simp) ?_ ?_⟩
  · unfold DistinctIds
    decide
  · unfold DistinctTimes
    decide
  · unfold DistinctIds
    decide
  · unfold DistinctTimes
    decide

end Sona
