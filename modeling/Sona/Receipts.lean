/-
# Receipts and reactions

Both come at least once and in no order. A receipt takes an outgoing message to a
later status and never back (`markReceipt`), so the receipts that came decide the
statuses, whatever their order and however often they came
(`markReceipts_eq_of_mem_iff`). A reaction sets or clears a pair of a
reactor and an emoji (`applyReaction`). What counts for a pair is its last call
(`mem_applyReactions`), as long as the pairs that are involved all fit; past
the ceiling an addition is refused, and then the order counts.

Key definitions: `ReceiptCall`, `History.markReceipts`, `ReactCall`, `applyReactions`,
`ReactionsOk`. Key theorems: `markReceipts_eq_of_mem_iff`, `mem_applyReactions`,
`receipts_and_reactions_converge`.
-/
import Sona.Edits
import Sona.Lib.Converge

namespace Sona

/-! ### Receipts -/

structure ReceiptCall where
  peer : String
  ids : List String
  seen : Bool
deriving DecidableEq, Repr

def History.markReceipts (h : History) (calls : List ReceiptCall) : History :=
  calls.foldl (fun h c => h.markReceipt c.peer c.ids c.seen) h

/-- What a receipt does to a message. -/
def receiptOn (ids : List String) (target : DeliveryStatus) (m : StoredMessage) : StoredMessage :=
  if m.direction = .outgoing ∧ m.msgId ∈ ids then { m with status := m.status.upgrade target } else m

def receiptTarget (seen : Bool) : DeliveryStatus := if seen then .seen else .delivered

theorem markReceipt_eq (h : History) (peer : String) (ids : List String) (seen : Bool) :
    h.markReceipt peer ids seen = h.updateMessages peer (·.map (receiptOn ids (receiptTarget seen))) := rfl

theorem upgrade_comm (a b c : DeliveryStatus) :
    (a.upgrade b).upgrade c = (a.upgrade c).upgrade b := by
  cases a <;> cases b <;> cases c <;> rfl

theorem upgrade_idem (a b : DeliveryStatus) : (a.upgrade b).upgrade b = a.upgrade b := by
  cases a <;> cases b <;> rfl

theorem rank_le_upgrade (a b : DeliveryStatus) : a.rank ≤ (a.upgrade b).rank := by
  cases a <;> cases b <;> decide

theorem receiptOn_eq (ids : List String) (target : DeliveryStatus) (m : StoredMessage) :
    receiptOn ids target m = { m with
      status := if m.direction = .outgoing ∧ m.msgId ∈ ids then m.status.upgrade target else m.status } := by
  unfold receiptOn
  split <;> rfl

theorem receiptOn_comm (ids ids' : List String) (target target' : DeliveryStatus)
    (m : StoredMessage) :
    receiptOn ids' target' (receiptOn ids target m) =
      receiptOn ids target (receiptOn ids' target' m) := by
  simp only [receiptOn_eq]
  congr 1
  split <;> split
  · exact upgrade_comm _ _ _
  · rfl
  · rfl
  · rfl

theorem receiptOn_idem (ids : List String) (target : DeliveryStatus) (m : StoredMessage) :
    receiptOn ids target (receiptOn ids target m) = receiptOn ids target m := by
  simp only [receiptOn_eq]
  congr 1
  split
  · exact upgrade_idem _ _
  · rfl

theorem markReceipt_comm (h : History) (a b : ReceiptCall) :
    (h.markReceipt a.peer a.ids a.seen).markReceipt b.peer b.ids b.seen =
      (h.markReceipt b.peer b.ids b.seen).markReceipt a.peer a.ids a.seen := by
  simp only [markReceipt_eq, History.updateMessages]
  congr 1
  refine Table.modify_comm _ fun _ c => ?_
  simp only [List.map_map]
  congr 2
  funext m
  exact receiptOn_comm _ _ _ _ m

theorem markReceipt_idem (h : History) (a : ReceiptCall) :
    (h.markReceipt a.peer a.ids a.seen).markReceipt a.peer a.ids a.seen =
      h.markReceipt a.peer a.ids a.seen := by
  simp only [markReceipt_eq, History.updateMessages, Table.modify_modify, List.map_map]
  congr 3
  funext c
  congr 2
  funext m
  exact receiptOn_idem _ _ m

/-- **The receipts that came decide the history.** -/
theorem markReceipts_eq_of_mem_iff (h : History) {calls calls' : List ReceiptCall}
    (hsame : ∀ c, c ∈ calls ↔ c ∈ calls') : h.markReceipts calls = h.markReceipts calls' :=
  Converge.foldl_eq_of_mem_iff (f := fun (h : History) (c : ReceiptCall) => h.markReceipt c.peer c.ids c.seen)
    markReceipt_comm markReceipt_idem hsame h

/-- A message before and after receipts: an outgoing one may have a later status. -/
structure Receipted (m m' : StoredMessage) : Prop where
  status : m' = { m with status := m'.status }
  later : m.status.rank ≤ m'.status.rank
  outgoing : m' ≠ m → m.direction = .outgoing

theorem Receipted.refl (m : StoredMessage) : Receipted m m := ⟨rfl, le_rfl, fun h => absurd rfl h⟩

theorem receipted_receiptOn (ids : List String) (target : DeliveryStatus) (m : StoredMessage) :
    Receipted m (receiptOn ids target m) := by
  unfold receiptOn
  split
  · rename_i hm
    exact ⟨rfl, rank_le_upgrade _ _, fun _ => hm.1⟩
  · exact Receipted.refl m

theorem Receipted.trans {m m' m'' : StoredMessage} (h : Receipted m m') (h' : Receipted m' m'') :
    Receipted m m'' where
  status := by
    calc m'' = { m' with status := m''.status } := h'.status
      _ = { m with status := m''.status } := by rw [h.status]
  later := le_trans h.later h'.later
  outgoing := fun hne => by
    by_cases hsame : m' = m
    · subst hsame
      exact h'.outgoing hne
    · exact h.outgoing hsame

theorem messages_markReceipt (h : History) (c : ReceiptCall) (peer : String) :
    (h.markReceipt c.peer c.ids c.seen).messages peer =
      if peer = c.peer then (h.messages peer).map (receiptOn c.ids (receiptTarget c.seen)) else h.messages peer := by
  rw [markReceipt_eq]
  unfold History.messages History.updateMessages
  dsimp only
  rw [Table.get_modify]
  by_cases hpeer : peer = c.peer
  · subst hpeer
    rw [if_pos rfl, if_pos rfl]
    cases h.conversations.get c.peer <;> rfl
  · rw [if_neg hpeer, if_neg hpeer]

/-- **Receipts take outgoing messages to later statuses**, and do nothing else. -/
theorem messages_markReceipts (peer : String) : ∀ (calls : List ReceiptCall) (h : History),
    ∃ f : StoredMessage → StoredMessage, (∀ m, Receipted m (f m)) ∧
      (h.markReceipts calls).messages peer = (h.messages peer).map f
  | [], h => ⟨id, Receipted.refl, (List.map_id _).symm⟩
  | c :: calls, h => by
    obtain ⟨f, hf, hrun⟩ := messages_markReceipts peer calls (h.markReceipt c.peer c.ids c.seen)
    have hstep := messages_markReceipt h c peer
    have hcons : h.markReceipts (c :: calls) =
        (h.markReceipt c.peer c.ids c.seen).markReceipts calls := rfl
    by_cases hpeer : peer = c.peer
    · refine ⟨f ∘ receiptOn c.ids (receiptTarget c.seen),
        fun m => (receipted_receiptOn _ _ m).trans (hf _), ?_⟩
      rw [hcons, hrun, hstep, if_pos hpeer, List.map_map]
    · exact ⟨f, hf, by rw [hcons, hrun, hstep, if_neg hpeer]⟩

/-! ### The reactions of a message -/

structure ReactCall where
  reactor : String
  emoji : String
  add : Bool
deriving DecidableEq, Repr

def ReactCall.pair (c : ReactCall) : Reaction := ⟨c.reactor, c.emoji⟩

def applyReactions (reactions : List Reaction) (calls : List ReactCall) : List Reaction :=
  calls.foldl (fun rs c => applyReaction rs c.reactor c.emoji c.add) reactions

/-- What is taken as an emoji at all. -/
def ReactionEmoji (emoji : String) : Prop := emoji ≠ "" ∧ emoji.toList.length ≤ 8

instance (emoji : String) : Decidable (ReactionEmoji emoji) := inferInstanceAs (Decidable (_ ∧ _))

/-- The reactions of a message: no pair twice, and not too many. -/
structure ReactionsOk (reactions : List Reaction) : Prop where
  nodup : reactions.Nodup
  bounded : reactions.length ≤ maxReactionsPerMessage

theorem ReactionsOk.nil : ReactionsOk [] := ⟨List.nodup_nil, Nat.zero_le _⟩

/-- What a call does, in terms of its pair. -/
theorem applyReaction_eq (reactions : List Reaction) (reactor emoji : String) (add : Bool) :
    applyReaction reactions reactor emoji add =
      if ReactionEmoji emoji then
        if add = true then
          if ⟨reactor, emoji⟩ ∈ reactions ∨ maxReactionsPerMessage ≤ reactions.length then reactions
          else reactions ++ [⟨reactor, emoji⟩]
        else reactions.erase ⟨reactor, emoji⟩
      else reactions := by
  have hpair : ∀ r : Reaction, (decide (r.reactor = reactor) && decide (r.emoji = emoji)) =
      (⟨reactor, emoji⟩ == r) := by
    rintro ⟨reactor', emoji'⟩
    rw [Bool.eq_iff_iff, Bool.and_eq_true, decide_eq_true_eq, decide_eq_true_eq, beq_iff_eq,
      Reaction.mk.injEq]
    exact and_congr eq_comm eq_comm
  have hany : (reactions.any fun r => r.reactor = reactor && r.emoji = emoji) =
      decide (⟨reactor, emoji⟩ ∈ reactions) := by
    rw [Bool.eq_iff_iff]
    simp only [hpair, List.any_beq, List.elem_eq_mem]
  have herase : (reactions.eraseP fun r => r.reactor = reactor && r.emoji = emoji) =
      reactions.erase ⟨reactor, emoji⟩ := by
    simp only [hpair]
    exact (List.erase_eq_eraseP _ _).symm
  have hemoji : (emoji = "" ∨ emoji.toList.length > 8) ↔ ¬ ReactionEmoji emoji := by
    unfold ReactionEmoji
    rw [not_and_or, not_not, not_le]
  unfold applyReaction
  rw [hany, herase]
  by_cases hok : ReactionEmoji emoji
  · rw [if_neg (by rw [hemoji]; exact not_not.mpr hok), if_pos hok]
    by_cases hin : ⟨reactor, emoji⟩ ∈ reactions
    · rw [decide_eq_true hin]
      cases add with
      | true => exact (if_pos (.inl hin)).symm
      | false => rfl
    · rw [decide_eq_false hin]
      cases add with
      | true =>
        by_cases hfull : maxReactionsPerMessage ≤ reactions.length
        · exact (if_pos (decide_eq_true hfull)).trans
            ((if_pos rfl).trans (if_pos (.inr hfull))).symm
        · refine Eq.trans (if_neg ?_) ((if_pos rfl).trans (if_neg (not_or.mpr ⟨hin, hfull⟩))).symm
          rw [decide_eq_false hfull]
          exact Bool.false_ne_true
      | false => exact (List.erase_of_not_mem hin).symm
  · rw [if_pos (hemoji.mpr hok), if_neg hok]

section call

variable {reactions : List Reaction} {reactor emoji : String} {add : Bool}

theorem ReactionsOk.apply (h : ReactionsOk reactions) :
    ReactionsOk (applyReaction reactions reactor emoji add) := by
  rw [applyReaction_eq]
  split
  · split
    · split
      · exact h
      · rename_i hroom
        obtain ⟨hnew, hroom⟩ := not_or.mp hroom
        refine ⟨List.nodup_append.mpr ⟨h.nodup, List.nodup_singleton _, ?_⟩, ?_⟩
        · rintro r hr r' hr' rfl
          exact hnew (List.mem_singleton.mp hr' ▸ hr)
        · rw [List.length_append, List.length_singleton]
          omega
    · exact ⟨h.nodup.erase _, le_trans (List.length_erase_le) h.bounded⟩
  · exact h

theorem applyReaction_subset {pairs : List Reaction} (hsub : reactions ⊆ pairs)
    (hpair : ⟨reactor, emoji⟩ ∈ pairs) :
    applyReaction reactions reactor emoji add ⊆ pairs := by
  rw [applyReaction_eq]
  split
  · split
    · split
      · exact hsub
      · exact List.append_subset.mpr ⟨hsub, by simpa using hpair⟩
    · exact fun r hr => hsub (List.mem_of_mem_erase hr)
  · exact hsub

/-- With room for its pair, a call decides about its pair and no other one. -/
theorem mem_applyReaction (hnodup : reactions.Nodup)
    (hroom : ⟨reactor, emoji⟩ ∉ reactions → reactions.length < maxReactionsPerMessage)
    (hemoji : ReactionEmoji emoji) (p : Reaction) : p ∈ applyReaction reactions reactor emoji add ↔
      if p = ⟨reactor, emoji⟩ then add = true else p ∈ reactions := by
  rw [applyReaction_eq, if_pos hemoji]
  cases add with
  | true =>
    rw [if_pos rfl]
    by_cases hin : (⟨reactor, emoji⟩ : Reaction) ∈ reactions
    · rw [if_pos (.inl hin)]
      split
      · rename_i hp
        exact iff_of_true (hp ▸ hin) rfl
      · rfl
    · rw [if_neg (not_or.mpr ⟨hin, Nat.not_le.mpr (hroom hin)⟩), List.mem_append,
        List.mem_singleton]
      split
      · rename_i hp
        exact iff_of_true (.inr hp) rfl
      · rename_i hp
        exact or_iff_left hp
  | false =>
    rw [if_neg Bool.false_ne_true]
    split
    · rename_i hp
      exact iff_of_false (hp ▸ hnodup.not_mem_erase) Bool.false_ne_true
    · rename_i hp
      exact List.mem_erase_of_ne hp

end call

/-! ### Runs of calls on one message -/

theorem applyReactions_concat (reactions : List Reaction) (calls : List ReactCall) (c : ReactCall) :
    applyReactions reactions (calls ++ [c]) =
      applyReaction (applyReactions reactions calls) c.reactor c.emoji c.add := by
  unfold applyReactions
  rw [List.foldl_append]
  rfl

theorem ReactionsOk.applyReactions {reactions : List Reaction} (h : ReactionsOk reactions)
    (calls : List ReactCall) :
    ReactionsOk (applyReactions reactions calls) := by
  induction calls using List.reverseRecOn with
  | nil => exact h
  | append_singleton calls c ih =>
    rw [applyReactions_concat]
    exact ih.apply

/-- What the calls say about a pair: what the last one of it says, if it can be one at all. -/
def decided (reactions : List Reaction) (calls : List ReactCall) (p : Reaction) : Prop :=
  match Converge.lastFor ReactCall.pair p calls with
  | some c => if ReactionEmoji p.emoji then c.add = true else p ∈ reactions
  | none => p ∈ reactions

theorem decided_concat (reactions : List Reaction) (calls : List ReactCall) (c : ReactCall)
    (p : Reaction) :
    decided reactions (calls ++ [c]) p ↔
      if c.pair = p ∧ ReactionEmoji p.emoji then c.add = true else decided reactions calls p := by
  unfold decided
  rw [Converge.lastFor_concat]
  by_cases hp : c.pair = p
  · rw [if_pos hp]
    by_cases hemoji : ReactionEmoji p.emoji
    · simp [hp, hemoji]
    · simp only [hemoji, and_false, ite_false]
      split <;> rfl
  · simp only [hp, false_and, ite_false]

section run

variable {reactions : List Reaction} (hok : ReactionsOk reactions) {pairs : List Reaction}
  (hsub : reactions ⊆ pairs) (hfew : pairs.dedup.length ≤ maxReactionsPerMessage)
  {calls : List ReactCall} (hcalls : ∀ c ∈ calls, c.pair ∈ pairs)

include hsub hcalls in
theorem applyReactions_subset : applyReactions reactions calls ⊆ pairs := by
  induction calls using List.reverseRecOn with
  | nil => exact hsub
  | append_singleton calls c ih =>
    rw [applyReactions_concat]
    exact applyReaction_subset (ih fun d hd => hcalls d (List.mem_append_left _ hd))
      (hcalls c (by simp))

include hok hsub hfew hcalls in
/-- A pair that is not there has room, as the others and it are among the few. -/
theorem applyReactions_room {p : Reaction} (hp : p ∈ pairs)
    (hout : p ∉ applyReactions reactions calls) :
    (applyReactions reactions calls).length < maxReactionsPerMessage := by
  have hnodup : (p :: applyReactions reactions calls).Nodup :=
    (hok.applyReactions calls).nodup.cons hout
  have hin : p :: applyReactions reactions calls ⊆ pairs.dedup := by
    rw [List.cons_subset]
    exact ⟨List.mem_dedup.mpr hp, fun r hr => List.mem_dedup.mpr (applyReactions_subset hsub hcalls hr)⟩
  have hlen := (List.subperm_of_subset hnodup hin).length_le
  rw [List.length_cons] at hlen
  omega

include hok hsub hfew hcalls in
/-- **The last call of a pair decides about it.** -/
theorem mem_applyReactions (p : Reaction) :
    p ∈ applyReactions reactions calls ↔ decided reactions calls p := by
  induction calls using List.reverseRecOn with
  | nil => rfl
  | append_singleton calls c ih =>
    have hbefore : ∀ d ∈ calls, d.pair ∈ pairs := fun d hd => hcalls d (List.mem_append_left _ hd)
    rw [applyReactions_concat, decided_concat, ← ih hbefore]
    by_cases hemoji : ReactionEmoji c.emoji
    · rw [mem_applyReaction (hok.applyReactions calls).nodup
        (applyReactions_room hok hsub hfew hbefore (hcalls c (by simp))) hemoji]
      by_cases hp : c.pair = p
      · subst hp
        exact iff_of_eq ((if_pos rfl).trans (if_pos ⟨rfl, hemoji⟩).symm)
      · exact iff_of_eq ((if_neg fun h => hp h.symm).trans (if_neg fun h => hp h.1).symm)
    · rw [applyReaction_eq, if_neg hemoji, if_neg]
      rintro ⟨rfl, h⟩
      exact hemoji h

include hok hsub hfew hcalls in
/-- The latest call of a pair comes again. -/
theorem applyReactions_redelivered {c : ReactCall}
    (hlast : Converge.lastFor ReactCall.pair c.pair calls = some c) :
    applyReactions reactions (calls ++ [c]) = applyReactions reactions calls := by
  have hdecided := mem_applyReactions hok hsub hfew hcalls c.pair
  unfold decided at hdecided
  rw [hlast] at hdecided
  rw [applyReactions_concat, applyReaction_eq]
  split
  · rename_i hemoji
    have hin : c.pair ∈ applyReactions reactions calls ↔ c.add = true := by
      simpa only [if_pos (show ReactionEmoji c.pair.emoji from hemoji)] using hdecided
    split
    · rename_i hadd
      exact if_pos (.inl (hin.mpr hadd))
    · rename_i hadd
      exact List.erase_of_not_mem fun h => hadd (hin.mp h)
  · rfl

end run

/-! ### Calls on a message of a chat -/

/-- `react` in a conversation, `react_group` in a group. -/
def History.reactOn (h : History) (chat : Chat) (targetMsgId : String) (c : ReactCall) : History :=
  match chat with
  | .peer key => (h.react key targetMsgId c.reactor c.emoji c.add).2
  | .group id => (h.reactGroup id targetMsgId c.reactor c.emoji c.add).2

def History.reactAll (h : History) (chat : Chat) (targetMsgId : String) (calls : List ReactCall) :
    History :=
  calls.foldl (fun h c => h.reactOn chat targetMsgId c) h

theorem updateFirst_updateFirst {α : Type} {p : α → Bool} {f g : α → α} (hf : ∀ a, p (f a) = p a) :
    ∀ as : List α, updateFirst p g (updateFirst p f as) = updateFirst p (fun a => g (f a)) as
  | [] => rfl
  | a :: as => by
    by_cases ha : p a = true
    · simp [updateFirst, ha, hf]
    · simp [updateFirst, ha, updateFirst_updateFirst hf as]

theorem thread_reactOn (h : History) (chat : Chat) (targetMsgId : String) (c : ReactCall) :
    (h.reactOn chat targetMsgId c).thread chat =
      (h.thread chat).map (reactIn · targetMsgId c.reactor c.emoji c.add) := by
  cases chat with
  | peer key =>
    rw [thread_peer, thread_peer]
    unfold History.reactOn History.react History.updateMessages
    dsimp only
    rw [Table.get_modify, if_pos rfl]
    cases h.conversations.get key <;> rfl
  | group id =>
    have hchange := thread_updateGroup (h := h) (f := fun g => { g with
      messages := reactIn g.messages targetMsgId c.reactor c.emoji c.add })
      (reactIn · targetMsgId c.reactor c.emoji c.add) (fun _ => rfl) id (.group id)
    rwa [if_pos rfl] at hchange

/-- The calls on a message meet in its reactions, and leave the other messages alone. -/
theorem thread_reactAll (chat : Chat) (targetMsgId : String) (calls : List ReactCall)
    (h : History) :
    (h.reactAll chat targetMsgId calls).thread chat = (h.thread chat).map
      (updateFirst (·.msgId = targetMsgId) fun m => { m with reactions := applyReactions m.reactions calls }) := by
  induction calls generalizing h with
  | nil =>
    have hid : ∀ msgs : List StoredMessage, updateFirst (·.msgId = targetMsgId)
        (fun m => m) msgs = msgs := by
      intro msgs
      induction msgs with
      | nil => rfl
      | cons m msgs ih => simp [updateFirst, ih]
    cases hthread : h.thread chat with
    | none => exact hthread
    | some msgs => exact hthread.trans (congrArg some (hid msgs).symm)
  | cons c calls ih =>
    have hcons : h.reactAll chat targetMsgId (c :: calls) =
        (h.reactOn chat targetMsgId c).reactAll chat targetMsgId calls :=
      rfl
    rw [hcons, ih, thread_reactOn, Option.map_map]
    congr 1
    funext msgs
    exact updateFirst_updateFirst
      (f := fun m : StoredMessage => { m with reactions := applyReaction m.reactions c.reactor c.emoji c.add })
      (g := fun m => { m with reactions := applyReactions m.reactions calls }) (fun _ => rfl) msgs

/-! ### Both converge -/

/-- **Receipts and reactions converge.** The receipts that came decide the history, and take
outgoing messages to later statuses only. The calls on a message keep its reactions without doubles
and under the ceiling; where the pairs that are involved fit, the last call of each pair decides
about it, and changes nothing when it comes again. -/
theorem receipts_and_reactions_converge (h : History) :
    (∀ calls calls' : List ReceiptCall, (∀ c, c ∈ calls ↔ c ∈ calls') →
      h.markReceipts calls = h.markReceipts calls') ∧
    (∀ (calls : List ReceiptCall) peer,
      List.Forall₂ Receipted (h.messages peer) ((h.markReceipts calls).messages peer)) ∧
    ∀ (chat : Chat) (targetMsgId : String) (calls : List ReactCall),
      (h.reactAll chat targetMsgId calls).thread chat = (h.thread chat).map
        (updateFirst (·.msgId = targetMsgId) fun m => { m with reactions := applyReactions m.reactions calls }) ∧
      ∀ reactions, ReactionsOk reactions → ReactionsOk (applyReactions reactions calls) ∧
        ((reactions ++ calls.map ReactCall.pair).dedup.length ≤ maxReactionsPerMessage →
          (∀ p, p ∈ applyReactions reactions calls ↔ decided reactions calls p) ∧
          ∀ c, Converge.lastFor ReactCall.pair c.pair calls = some c →
            applyReactions reactions (calls ++ [c]) = applyReactions reactions calls) := by
  refine ⟨fun calls calls' => markReceipts_eq_of_mem_iff h, fun calls peer => ?_,
    fun chat targetMsgId calls =>
    ⟨thread_reactAll chat targetMsgId calls h,
    fun reactions hok => ⟨hok.applyReactions calls, fun hfew => ?_⟩⟩⟩
  · obtain ⟨f, hf, hrun⟩ := messages_markReceipts peer calls h
    rw [hrun, List.forall₂_map_right_iff]
    exact List.forall₂_same.mpr fun m _ => hf m
  · have hsub : reactions ⊆ reactions ++ calls.map ReactCall.pair := List.subset_append_left _ _
    have hcalls : ∀ c ∈ calls, c.pair ∈ reactions ++ calls.map ReactCall.pair :=
      fun c hc => List.mem_append_right _ (List.mem_map_of_mem hc)
    exact ⟨mem_applyReactions hok hsub hfew hcalls,
      fun c hlast => applyReactions_redelivered hok hsub hfew hcalls hlast⟩

/-- A message that was sent, with a reaction. -/
def sentGreeting : StoredMessage :=
  { msgId := "m1", direction := .outgoing, body := "hello", sentAt := 10, deleteAt := none
    reactions := [⟨"carol", "🎉"⟩] }

def greetingHistory : History :=
  { conversations := Table.set ∅ "bob" { messages := [sentGreeting] } }

/-- One takes a reaction back and gives it again, another one takes a reaction back. -/
def greetingReacts : List ReactCall :=
  [⟨"alice", "👍", true⟩, ⟨"carol", "🎉", false⟩, ⟨"alice", "👍", false⟩, ⟨"alice", "👍", true⟩]

/-- Receipts in two orders, one of them twice, and four calls of which the last one comes again. -/
theorem receipts_and_reactions_converge_greeting :
    greetingHistory.markReceipts [⟨"bob", ["m1"], true⟩, ⟨"bob", ["m1"], false⟩] =
      greetingHistory.markReceipts [⟨"bob", ["m1"], false⟩, ⟨"bob", ["m1"], true⟩, ⟨"bob", ["m1"], false⟩] ∧
    (∀ p, p ∈ applyReactions sentGreeting.reactions greetingReacts ↔
      decided sentGreeting.reactions greetingReacts p) ∧
    applyReactions sentGreeting.reactions (greetingReacts ++ [⟨"alice", "👍", true⟩]) =
      applyReactions sentGreeting.reactions greetingReacts := by
  obtain ⟨hreceipts, -, hreacts⟩ := receipts_and_reactions_converge greetingHistory
  obtain ⟨-, hreactions⟩ := hreacts (.peer "bob") "m1" greetingReacts
  obtain ⟨-, hfits⟩ := hreactions sentGreeting.reactions ⟨by decide, by decide⟩
  obtain ⟨hmem, hagain⟩ := hfits (by decide +kernel)
  refine ⟨hreceipts _ _ fun c => ?_, hmem, hagain _ (by decide +kernel)⟩
  simp only [List.mem_cons, List.not_mem_nil, or_false]
  tauto

end Sona
