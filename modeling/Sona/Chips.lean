/-
# The client's own chips

A thread also holds what the client notes down itself: a key that changed, a
member who was removed, a call that was missed. These messages are marked as of
the system, but otherwise stored like one that came in, under an id that anyone
can work out; so an edit, a deletion, a reaction or a pin of a peer that names
the id falls on them too (`chips_touched`).

What a peer does leaves the chips alone exactly if no edit that it makes falls
on one (`chips_kept_iff`); where an event replays what is held, a reaction that
is taken back again falls on a chip and still leaves it as it was, so there the
condition is enough, and no more.

Key definitions: `chipsOf`, `ChipsKept`, `Spares`, `SparesChips`.
Key theorems: `editStep_kept_iff`, `along_spares_kept`, `chips_kept_iff`.
-/
import Mathlib.Data.List.Basic
import Sona.Lib.Trace
import Sona.Edits
import Sona.Order

namespace Sona

/-! ### What is seen of a chip -/

structure ChipView where
  msgId : String
  body : String
  edited : Bool
  reactions : List Reaction
  pinned : Bool
deriving DecidableEq, Repr

def StoredMessage.chipView (m : StoredMessage) : ChipView :=
  ⟨m.msgId, m.body, m.edited, m.reactions, m.pinned⟩

/-- The chips of a thread, in their order. -/
def chipsOf (msgs : List StoredMessage) : List ChipView := (msgs.filter (·.system)).map (·.chipView)

/-- Every chip is still there, as it was. -/
def ChipsKept (before after : Chat → Option (List StoredMessage)) : Prop :=
  ∀ c, (chipsOf ((before c).getD [])).Sublist (chipsOf ((after c).getD []))

theorem ChipsKept.refl (threads : Chat → Option (List StoredMessage)) : ChipsKept threads threads :=
  fun _ => List.Sublist.refl _

theorem ChipsKept.trans {t t' t'' : Chat → Option (List StoredMessage)} (h : ChipsKept t t')
    (h' : ChipsKept t' t'') :
    ChipsKept t t'' := fun c => (h c).trans (h' c)

theorem chipsOf_sublist {msgs msgs' : List StoredMessage} (h : msgs.Sublist msgs') :
    (chipsOf msgs).Sublist (chipsOf msgs') := (h.filter _).map _

/-- A change of every message that keeps what is seen of a chip. -/
theorem chipsOf_map {f : StoredMessage → StoredMessage} (hsystem : ∀ m, (f m).system = m.system)
    (hview : ∀ m, (f m).chipView = m.chipView) (msgs : List StoredMessage) :
    chipsOf (msgs.map f) = chipsOf msgs := by
  unfold chipsOf
  rw [List.filter_map, List.map_map]
  have hsys : ((·.system) ∘ f : StoredMessage → Bool) = (·.system) := funext hsystem
  rw [hsys]
  exact List.map_congr_left fun m _ => hview m

/-! ### Edits and chips -/

/-- The first message that matches is no chip, or stays as it is seen. -/
def SparesFirst (msgs : List StoredMessage) (p : StoredMessage → Bool)
    (f : StoredMessage → StoredMessage) : Prop :=
  ∀ m, msgs.find? p = some m → m.system = true → (f m).chipView = m.chipView

/-- No chip matches. -/
def SparesAll (msgs : List StoredMessage) (p : StoredMessage → Bool) : Prop :=
  ∀ m ∈ msgs, m.system = true → p m = false

/-- The edit falls on no chip of the thread. -/
def Spares (threads : Chat → Option (List StoredMessage)) (e : Chat × Edit) : Prop :=
  let msgs := (threads e.1).getD []
  match e.2 with
  | .change p c => SparesFirst msgs p (Change.on · c)
  | .drop p => SparesAll msgs p
  | .clear => SparesAll msgs fun _ => true
  | .content _ _ sender (.reaction targetMsgId emoji add) =>
    SparesFirst msgs (·.msgId = targetMsgId) (Change.on · (.reaction sender emoji add))
  | .content _ _ sender (.edit msgId body) =>
    SparesFirst msgs (sentBy sender msgId) (Change.on · (.body body))
  | .content _ _ sender (.delete msgId) => SparesAll msgs (sentBy sender msgId)
  | _ => True

theorem chipsOf_updateFirst {p : StoredMessage → Bool} {f : StoredMessage → StoredMessage}
    (hsystem : ∀ m, (f m).system = m.system) : ∀ msgs : List StoredMessage,
    chipsOf (updateFirst p f msgs) = chipsOf msgs ↔ SparesFirst msgs p f
  | [] => by simp [updateFirst, SparesFirst]
  | m :: msgs => by
    have ih := chipsOf_updateFirst (p := p) hsystem msgs
    unfold updateFirst
    by_cases hp : p m = true
    · rw [if_pos hp]
      have hfirst : SparesFirst (m :: msgs) p f ↔
          (m.system = true → (f m).chipView = m.chipView) := by
        simp [SparesFirst, hp]
      rw [hfirst]
      cases hs : m.system with
      | true => simp [chipsOf, hsystem, hs]
      | false => simp [chipsOf, hsystem, hs]
    · rw [if_neg hp]
      have hrest : SparesFirst (m :: msgs) p f ↔ SparesFirst msgs p f := by
        unfold SparesFirst
        rw [List.find?_cons_of_neg hp]
      rw [hrest, ← ih]
      cases hs : m.system <;> simp [chipsOf, hs]

theorem chips_updateFirst_iff {p : StoredMessage → Bool} {f : StoredMessage → StoredMessage}
    (hsystem : ∀ m, (f m).system = m.system) (msgs : List StoredMessage) :
    (chipsOf msgs).Sublist (chipsOf (updateFirst p f msgs)) ↔ SparesFirst msgs p f := by
  rw [← chipsOf_updateFirst hsystem]
  have hlen : (chipsOf msgs).length = (chipsOf (updateFirst p f msgs)).length := by
    have hkeys := map_updateFirst (k := fun m => m.system) hsystem p msgs
    have hcount : ∀ l : List StoredMessage, (chipsOf l).length = (l.map (·.system)).countP id := by
      intro l
      rw [chipsOf, List.length_map, List.countP_map, List.countP_eq_length_filter]
      rfl
    rw [hcount, hcount, hkeys]
  constructor
  · intro hsub
    exact (hsub.eq_of_length hlen).symm
  · intro heq
    rw [heq]

theorem chips_filter_iff (p : StoredMessage → Bool) (msgs : List StoredMessage) :
    (chipsOf msgs).Sublist (chipsOf (msgs.filter fun m => !p m)) ↔ SparesAll msgs p := by
  have hcomm : (msgs.filter fun m => !p m).filter (·.system) =
      (msgs.filter (·.system)).filter fun m => !p m := by
    rw [List.filter_filter, List.filter_filter]
    exact List.filter_congr fun m _ => Bool.and_comm _ _
  have hspares : SparesAll msgs p ↔ ∀ m ∈ msgs.filter (·.system), (!p m) = true := by
    simp [SparesAll]
  unfold chipsOf
  rw [hcomm, hspares]
  constructor
  · intro hsub
    have hle := hsub.length_le
    rw [List.length_map, List.length_map] at hle
    exact List.length_filter_eq_length_iff.mp (le_antisymm (List.length_filter_le _ _) hle)
  · intro hall
    rw [List.filter_eq_self.mpr hall]

/-- **An edit keeps the chips exactly if it falls on none.** -/
theorem editStep_kept_iff (threads : Chat → Option (List StoredMessage)) (e : Chat × Edit) :
    ChipsKept threads (editStep threads e) ↔ Spares threads e := by
  obtain ⟨c, e⟩ := e
  have hone : ChipsKept threads (editStep threads (c, e)) ↔
      (chipsOf ((threads c).getD [])).Sublist (chipsOf ((e.run (threads c)).getD [])) := by
    unfold ChipsKept editStep
    constructor
    · intro hall
      have hc := hall c
      rwa [Function.update_self] at hc
    · intro hc d
      by_cases hd : d = c
      · subst hd
        rwa [Function.update_self]
      · rw [Function.update_of_ne hd]
  rw [hone]
  unfold Spares
  dsimp only
  cases ht : threads c with
  | none =>
    -- there is no chip
    have hspares : ∀ p f, SparesFirst [] p f := fun p f m hm => by simp at hm
    have hall : ∀ p, SparesAll [] p := fun p m hm => by simp at hm
    refine ⟨fun _ => ?_, fun _ => List.nil_sublist _⟩
    cases e with
    | content now timer sender content =>
      cases content with
      | message | attachment => trivial
      | reaction | edit => exact hspares _ _
      | delete => exact hall _
    | change => exact hspares _ _
    | drop | clear => exact hall _
    | create | record | chip | callChip | receipt | seen => trivial
  | some msgs =>
    have hfront : ∀ {msgs' : List StoredMessage}, msgs.Sublist msgs' →
        ((chipsOf msgs).Sublist (chipsOf msgs') ↔ True) :=
      fun hsub => iff_of_true (chipsOf_sublist hsub) trivial
    have hsame : ∀ {msgs' : List StoredMessage}, chipsOf msgs' = chipsOf msgs →
        ((chipsOf msgs).Sublist (chipsOf msgs') ↔ True) := by
      intro msgs' heq
      rw [heq]
      exact iff_of_true (List.Sublist.refl _) trivial
    have hforwarded :
        ∀ (msgs' : List StoredMessage) id, chipsOf (setForwardedIn msgs' id) = chipsOf msgs' :=
      fun msgs' id => (chipsOf_updateFirst (f := (Change.on · .forwarded)) (fun _ => rfl) msgs').mpr
      fun _ _ _ => rfl
    have hstored : ∀ m (forwarded : Bool) id, (chipsOf msgs).Sublist (chipsOf
        (if forwarded then setForwardedIn (recordOnce msgs m) id else recordOnce msgs m)) := by
      intro m forwarded id
      have hsub := chipsOf_sublist (sublist_recordOnce msgs m)
      cases forwarded with
      | false => exact hsub
      | true =>
        rw [if_pos rfl, hforwarded]
        exact hsub
    cases e with
    | create => exact hsame rfl
    | record m => exact hfront (sublist_recordOnce msgs m)
    | chip text at_ => exact hfront (sublist_recordChip msgs text at_)
    | callChip text at_ => exact hfront (List.sublist_append_left _ _)
    | change p ch =>
      refine chips_updateFirst_iff (fun m => ?_) msgs
      cases ch <;> rfl
    | receipt ids target =>
      refine hsame (chipsOf_map (fun m => ?_) (fun m => ?_) msgs)
      · split <;> rfl
      · split <;> rfl
    | seen ids =>
      refine hsame (chipsOf_map (fun m => ?_) (fun m => ?_) msgs)
      · split <;> rfl
      · split <;> rfl
    | drop p => exact chips_filter_iff p msgs
    | clear =>
      have hnone := chips_filter_iff (fun _ => true) msgs
      rw [Bool.not_true, List.filter_false] at hnone
      exact hnone
    | content now timer sender content =>
      cases content with
      | message msgId body sentAt expireSecs reply forwarded =>
        exact iff_of_true (hstored _ forwarded msgId) trivial
      | attachment msgId attachment sentAt expireSecs forwarded =>
        exact iff_of_true (hstored _ forwarded msgId) trivial
      | reaction targetMsgId emoji add =>
        exact chips_updateFirst_iff (f := (Change.on · (.reaction sender emoji add)))
          (fun _ => rfl) msgs
      | edit msgId body => exact chips_updateFirst_iff (f := (Change.on · (.body body))) (fun _ => rfl) msgs
      | delete msgId => exact chips_filter_iff _ msgs

/-! ### Events and chips -/

theorem along_spares_kept {threads : Chat → Option (List StoredMessage)} :
    ∀ {es : List (Chat × Edit)},
    Trace.Along editStep Spares threads es → ChipsKept threads (Trace.run editStep threads es) := by
  intro es
  induction es generalizing threads with
  | nil => exact fun _ => ChipsKept.refl _
  | cons e es ih =>
    rintro ⟨he, hes⟩
    exact ((editStep_kept_iff threads e).mpr he).trans (ih hes)

/-- No edit that the event makes falls on a chip. -/
def SparesChips (C : Crypto) (h : History) (now : ℕ) (event : InboundEvent) : Prop :=
  Trace.Along editStep Spares h.thread (h.applyEdits C now event)

/-- The events that may adopt an epoch, and replay what is held. -/
def InboundEvent.adopts : InboundEvent → Bool
  | .groupRosterUpdate .. | .selfSentText .. | .selfSentFile .. => true
  | _ => false

/-- Such a list of edits falls on no chip, or is one edit. -/
theorem kept_iff_of_short {threads : Chat → Option (List StoredMessage)} {es : List (Chat × Edit)}
    (hes : (∀ threads, Trace.Along editStep Spares threads es) ∨ ∃ e, es = [e]) :
    ChipsKept threads (Trace.run editStep threads es) ↔ Trace.Along editStep Spares threads es := by
  constructor
  · intro hkept
    rcases hes with hall | ⟨e, rfl⟩
    · exact hall threads
    · exact ⟨(editStep_kept_iff threads e).mp hkept, trivial⟩
  · exact along_spares_kept

/-- A message that is stored falls on no chip. -/
theorem spares_storedEdits (c : Chat) (m : StoredMessage) (forwarded : Bool)
    (threads : Chat → Option (List StoredMessage)) :
    Trace.Along editStep Spares threads (storedEdits c m forwarded) := by
  unfold storedEdits
  cases forwarded with
  | false => exact ⟨trivial, trivial, trivial⟩
  | true => exact ⟨trivial, trivial, fun _ _ _ => rfl, trivial⟩

theorem short_applyEdits (C : Crypto) (h : History) (now : ℕ) (event : InboundEvent)
    (ha : event.adopts = false) :
    (∀ threads, Trace.Along editStep Spares threads (h.applyEdits C now event)) ∨
      ∃ e, h.applyEdits C now event = [e] := by
  have hite : ∀ {p : Prop} [Decidable p] {es fs : List (Chat × Edit)},
      ((∀ threads, Trace.Along editStep Spares threads es) ∨ ∃ e, es = [e]) →
      ((∀ threads, Trace.Along editStep Spares threads fs) ∨ ∃ e, fs = [e]) →
      (∀ threads, Trace.Along editStep Spares threads (if p then es else fs)) ∨
      ∃ e, (if p then es else fs) = [e] := by
    intro p _ es fs hes hfs
    split
    · exact hes
    · exact hfs
  have hnil : (∀ threads, Trace.Along editStep Spares threads []) ∨ ∃ e : Chat × Edit, [] = [e] :=
    Or.inl fun _ => trivial
  have hone : ∀ e : Chat × Edit, (∀ threads, Trace.Along editStep Spares threads [e]) ∨
      ∃ e', [e] = [e'] :=
    fun e => Or.inr ⟨e, rfl⟩
  have hscreened : ∀ convo claimed c m forwarded,
      (∀ threads, Trace.Along editStep Spares threads
        (h.screenedEdits now convo claimed (storedEdits c m forwarded))) ∨
        ∃ e, h.screenedEdits now convo claimed (storedEdits c m forwarded) = [e] := by
    intro convo claimed c m forwarded
    unfold History.screenedEdits
    split
    · exact hnil
    · exact Or.inl (spares_storedEdits c m forwarded)
  cases event with
  | message => exact hscreened _ _ _ _ _
  | attachment => exact hscreened _ _ _ _ _
  | forwardedIncoming => exact hite (hscreened _ _ _ _ _) hnil
  | groupRosterUpdate | selfSentText | selfSentFile => cases ha
  | groupMessage | groupMessageEdited | groupMessageDeleted | groupAttachment => exact hite hnil (hone _)
  | groupReaction => exact hite (hone _) (hite hnil (hone _))
  | groupRenamed sender gid name =>
    unfold History.applyEdits
    dsimp only
    rcases renameEdits_cases h now (h.attributeDevice sender) gid name with heq | ⟨text, heq⟩
    · rw [heq]
      exact hnil
    · rw [heq]
      exact hone _
  | groupMemberLeft sender gid =>
    unfold History.applyEdits
    dsimp only
    rcases leaveEdits_cases h now (h.attributeDevice sender) gid with heq | ⟨text, heq⟩
    · rw [heq]
      exact hnil
    · rw [heq]
      exact hone _
  | timerUpdate | messagePinned => exact hite hnil (hone _)
  | selfReadSeen | selfTimerUpdate | selfReaction | selfMessagePinned | groupMessagePinned => exact hite (hone _) hnil
  | messageEdited | messageDeleted | receipt | chatDeleted | reaction => exact hone _
  | knock | groupTimerUpdate | renamed | profileUpdate | groupAvatarUpdate | selfProfileUpdate | other => exact hnil

/-- **An event leaves every chip as it was if none of its edits falls on one**, and,
where it replays nothing that was held, only then. -/
theorem chips_kept_iff (C : Crypto) (h : History) (now : ℕ) (event : InboundEvent) :
    (SparesChips C h now event → ChipsKept h.thread (h.apply C now event).thread) ∧
      (event.adopts = false →
        (ChipsKept h.thread (h.apply C now event).thread ↔ SparesChips C h now event)) := by
  have hedits := edited_apply C h now event
  unfold Edited at hedits
  unfold SparesChips
  rw [hedits]
  exact ⟨along_spares_kept, fun ha => kept_iff_of_short (short_applyEdits C h now event ha)⟩

/-- A conversation with a message and, behind it, a call that was missed. -/
def missedBob : History :=
  History.run (sampleRelay []).crypto {}
    [(100, .recordFull "bob" .incoming "m1" "hello" 90 none none), (100, .recordCallEvent "bob" "Missed call" 100)]

/-- What the peer does to the thread with the chip. -/
def afterBob (event : InboundEvent) : Chat → Option (List StoredMessage) :=
  (missedBob.apply (sampleRelay []).crypto 101 event).thread

theorem not_chipsKept_of_bob {event : InboundEvent}
    (hlost : ¬ (chipsOf ((missedBob.thread (.peer "bob")).getD [])).Sublist
    (chipsOf ((afterBob event (.peer "bob")).getD []))) :
    ¬ ChipsKept missedBob.thread (afterBob event) :=
  fun hkept => hlost (hkept (.peer "bob"))

/-- **The peer, who is no own device, edits the chip, deletes it, and reacts to it.** -/
theorem chips_touched :
    missedBob.isOwnDevice "bob" = false ∧ missedBob.selfPrimaryKey ≠ some "bob" ∧
      ¬ ChipsKept missedBob.thread (afterBob (.messageEdited "bob" "call-100-1" "")) ∧
      ¬ ChipsKept missedBob.thread (afterBob (.messageDeleted "bob" "call-100-1")) ∧
      ¬ ChipsKept missedBob.thread (afterBob (.reaction "bob" "call-100-1" "x" true)) :=
  ⟨by decide +kernel, by decide +kernel, not_chipsKept_of_bob (by decide +kernel), not_chipsKept_of_bob (by decide +kernel),
    not_chipsKept_of_bob (by decide +kernel)⟩

/-- The peer takes back their own message, and the chip stays. -/
theorem chips_kept_deleted :
    InboundEvent.adopts (.messageDeleted "bob" "m1") = false ∧
      ChipsKept missedBob.thread (missedBob.apply (sampleRelay []).crypto 101 (.messageDeleted "bob" "m1")).thread := by
  have hspares :
      SparesChips (sampleRelay []).crypto missedBob 101 (.messageDeleted "bob" "m1") := by
    have hall : ∀ m ∈ (missedBob.thread (.peer "bob")).getD [], m.system = true →
        (decide (m.msgId = "m1") && decide (m.direction = .incoming)) = false := by decide +kernel
    exact ⟨hall, trivial⟩
  have hown : InboundEvent.adopts (.messageDeleted "bob" "m1") = false := rfl
  exact ⟨hown, ((chips_kept_iff _ missedBob 101 (.messageDeleted "bob" "m1")).2 hown).mpr hspares⟩

end Sona
