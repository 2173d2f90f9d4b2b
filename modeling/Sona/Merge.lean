/-
# Merging two histories

`merge_from` takes the conversations, contacts and groups of another device's history
into this one. Of a conversation it takes in the messages whose ids are new, of a
group nothing if the group is there. So a re-sync loses nothing of a conversation,
and of a group what the other device alone has (`resynced_iff`).

Two exports that hold a group which this device lacks are merged with the first one's
messages only; the order decides which (`MergeAgrees`).

Key definitions: `History.exportPlaintext`, `HasId`, `Resynced`, `MergeCovers`, `MergeAgrees`.
Key theorems: `mem_mergeMessages`, `hasId_mergeFrom_peer`, `mergeFrom_twice`, `resynced_iff`,
`group_messages_lost`.
-/
import Mathlib.Data.List.Basic
import Mathlib.Data.List.Sort
import Sona.Lib.Table
import Sona.Order

namespace Sona

/-- What leaves the device: the history without the state that is the device's own. -/
def History.exportPlaintext (h : History) : History :=
  { h with
    selfDevice := none, selfRosterSeq := none, selfPrimaryKey := none, contactRosters := ∅, deviceOwner := ∅
    pendingDemotion := none, pendingPromotion := none }

/-! ### The messages of one thread -/

/-- The loop over the other device's messages. -/
def mergeMessages (msgs others : List StoredMessage) : List StoredMessage :=
  others.foldl (fun msgs m => if msgs.any fun x => x.msgId = m.msgId then msgs else msgs ++ [m]) msgs

theorem mergeMessages_cons (msgs others : List StoredMessage) (m : StoredMessage) :
    mergeMessages msgs (m :: others) =
      mergeMessages (if msgs.any fun x => x.msgId = m.msgId then msgs else msgs ++ [m]) others :=
  rfl

theorem subset_mergeMessages :
    ∀ (others msgs : List StoredMessage), msgs ⊆ mergeMessages msgs others
  | [], _ => fun _ hm => hm
  | o :: others, msgs => by
    intro m hm
    rw [mergeMessages_cons]
    apply subset_mergeMessages others
    split
    · exact hm
    · exact List.mem_append_left _ hm

/-- What comes in is of the other device, under an id that is new. -/
theorem mem_mergeMessages :
    ∀ {others msgs : List StoredMessage} {m : StoredMessage}, m ∈ mergeMessages msgs others →
    m ∈ msgs ∨ m ∈ others ∧ m.msgId ∉ msgs.map (·.msgId)
  | [], _, _, hm => Or.inl hm
  | o :: others, msgs, m, hm => by
    rw [mergeMessages_cons] at hm
    by_cases hheld : (msgs.any fun x => x.msgId = o.msgId) = true
    · rw [if_pos hheld] at hm
      exact (mem_mergeMessages hm).imp_right fun hnew => ⟨List.mem_cons_of_mem _ hnew.1, hnew.2⟩
    · rw [if_neg hheld] at hm
      rcases mem_mergeMessages hm with hin | ⟨hother, hnew⟩
      · rcases List.mem_append.mp hin with hin | hlast
        · exact Or.inl hin
        · rw [List.mem_singleton.mp hlast]
          refine Or.inr ⟨List.mem_cons_self, fun hid => hheld ?_⟩
          obtain ⟨x, hx, hsame⟩ := List.mem_map.mp hid
          exact List.any_eq_true.mpr ⟨x, hx, decide_eq_true hsame⟩
      · rw [List.map_append] at hnew
        exact Or.inr ⟨List.mem_cons_of_mem _ hother, fun hid => hnew (List.mem_append_left _ hid)⟩

theorem ids_mergeMessages : ∀ (others msgs : List StoredMessage) (id : String),
    id ∈ (mergeMessages msgs others).map (·.msgId) ↔
    id ∈ msgs.map (·.msgId) ∨ id ∈ others.map (·.msgId)
  | [], _, _ => by simp [mergeMessages]
  | o :: others, msgs, id => by
    rw [mergeMessages_cons, ids_mergeMessages others]
    by_cases hheld : (msgs.any fun x => x.msgId = o.msgId) = true
    · rw [if_pos hheld, List.map_cons, List.mem_cons]
      obtain ⟨x, hx, hsame⟩ := List.any_eq_true.mp hheld
      have hin : o.msgId ∈ msgs.map (·.msgId) := List.mem_map.mpr ⟨x, hx, of_decide_eq_true hsame⟩
      constructor
      · exact Or.imp_right Or.inr
      · rintro (hid | rfl | hid)
        · exact Or.inl hid
        · exact Or.inl hin
        · exact Or.inr hid
    · rw [if_neg hheld]
      simp [or_assoc]

/-- Once all ids are there nothing comes in. -/
theorem mergeMessages_eq_self : ∀ {others msgs : List StoredMessage},
    (∀ m ∈ others, m.msgId ∈ msgs.map (·.msgId)) → mergeMessages msgs others = msgs
  | [], _, _ => rfl
  | o :: others, msgs, hall => by
    obtain ⟨x, hx, hsame⟩ := List.mem_map.mp (hall o List.mem_cons_self)
    have hheld : (msgs.any fun x => x.msgId = o.msgId) = true :=
      List.any_eq_true.mpr ⟨x, hx, decide_eq_true hsame⟩
    rw [mergeMessages_cons, if_pos hheld]
    exact mergeMessages_eq_self fun m hm => hall m (List.mem_cons_of_mem _ hm)

theorem sortThread_perm (msgs : List StoredMessage) : (sortThread msgs).Perm msgs :=
  List.mergeSort_perm _ _

theorem mem_sortThread {msgs : List StoredMessage} {m : StoredMessage} :
    m ∈ sortThread msgs ↔ m ∈ msgs :=
  (sortThread_perm msgs).mem_iff

theorem ids_sortThread (msgs : List StoredMessage) (id : String) :
    id ∈ (sortThread msgs).map (·.msgId) ↔ id ∈ msgs.map (·.msgId) :=
  ((sortThread_perm msgs).map _).mem_iff

theorem sortThread_sort (msgs : List StoredMessage) :
    sortThread (sortThread msgs) = sortThread msgs := by
  have hsorted : (sortThread msgs).Pairwise fun a b => decide (a.sentAt ≤ b.sentAt) = true :=
    (sortThread_sorted msgs).imp fun hle => decide_eq_true hle
  exact List.mergeSort_of_pairwise hsorted

/-- A conversation that was merged does not change when it is merged again. -/
theorem mergeConversation_twice (dst convo : Conversation) :
    History.mergeConversation (History.mergeConversation dst convo) convo =
      History.mergeConversation dst convo := by
  have hall : ∀ m ∈ convo.messages,
      m.msgId ∈ (sortThread (mergeMessages dst.messages convo.messages)).map (·.msgId) := by
    intro m hm
    rw [ids_sortThread, ids_mergeMessages]
    exact Or.inr (List.mem_map_of_mem hm)
  have hmessages :
      sortThread (mergeMessages (sortThread (mergeMessages dst.messages convo.messages)) convo.messages) =
      sortThread (mergeMessages dst.messages convo.messages) := by
    rw [mergeMessages_eq_self hall, sortThread_sort]
  have htimer : (dst.disappearingSecs.or convo.disappearingSecs).or convo.disappearingSecs =
      dst.disappearingSecs.or convo.disappearingSecs := by
    cases dst.disappearingSecs <;> cases convo.disappearingSecs <;> rfl
  unfold History.mergeConversation
  unfold mergeMessages at hmessages
  dsimp only
  rw [hmessages, htimer]

/-! ### Threads -/

/-- The thread has a message of this id. -/
def HasId (h : History) (c : Chat) (id : String) : Prop :=
  ∃ msgs, h.thread c = some msgs ∧ id ∈ msgs.map (·.msgId)

section threads

variable {a b c : History}

theorem thread_exportPlaintext (h : History) : h.exportPlaintext.thread = h.thread := by
  funext c
  cases c <;> rfl

theorem thread_mergeFrom_none {key : String} (hb : b.thread (.peer key) = none) :
    (a.mergeFrom b).thread (.peer key) = a.thread (.peer key) := by
  rw [thread_mergeFrom_peer]
  rw [thread_peer, Option.map_eq_none_iff] at hb
  rw [hb]
  rfl

/-- A conversation of the other device comes in message by message. -/
theorem thread_mergeFrom_some {key : String} {msgs : List StoredMessage}
    (hb : b.thread (.peer key) = some msgs) :
    (a.mergeFrom b).thread (.peer key) =
      some (sortThread (mergeMessages ((a.thread (.peer key)).getD []) msgs)) := by
  rw [thread_mergeFrom_peer]
  rw [thread_peer, Option.map_eq_some_iff] at hb
  obtain ⟨convo, hconvo, rfl⟩ := hb
  have hown : ((a.conversations.get key).getD {}).messages = (a.thread (.peer key)).getD [] := by
    rw [thread_peer]
    cases a.conversations.get key <;> rfl
  rw [hconvo, ← hown]
  rfl

theorem hasId_mergeFrom_peer (key id : String) :
    HasId (a.mergeFrom b) (.peer key) id ↔ HasId a (.peer key) id ∨ HasId b (.peer key) id := by
  unfold HasId
  cases hb : b.thread (.peer key) with
  | none =>
    rw [thread_mergeFrom_none hb]
    simp
  | some others =>
    have hmem : ∀ msgs : Option (List StoredMessage), id ∈ (msgs.getD []).map (·.msgId) ↔
        ∃ l, msgs = some l ∧ id ∈ l.map (·.msgId) := by
      intro msgs
      cases msgs <;> simp
    rw [thread_mergeFrom_some hb, ← hmem (a.thread (.peer key))]
    simp only [Option.some.injEq, exists_eq_left']
    rw [ids_sortThread, ids_mergeMessages]

/-- Of a group, the other device's messages come in only if the group is new. -/
theorem hasId_mergeFrom_group (gid id : String) : HasId (a.mergeFrom b) (.group gid) id ↔
    HasId a (.group gid) id ∨ a.thread (.group gid) = none ∧ HasId b (.group gid) id := by
  unfold HasId
  rw [thread_mergeFrom_group]
  cases a.thread (.group gid) <;> simp

end threads

/-! ### What a re-sync keeps -/

/-- The histories differ in conversations, contacts and groups at most. -/
def SameDevice (h h' : History) : Prop :=
  h' = { h with conversations := h'.conversations, contacts := h'.contacts, groups := h'.groups }

/-- The histories are the same: a map has no order. -/
structure SameHistory (h h' : History) : Prop where
  device : SameDevice h h'
  conversations : ∀ key, h'.conversations.get key = h.conversations.get key
  contacts : ∀ name, h'.contacts.get name = h.contacts.get name
  groups : ∀ gid, h'.groups.get gid = h.groups.get gid

/-- What a re-sync of `a` with `b` is to keep, and one with `b` and `c`. -/
structure Resynced (a b c : History) : Prop where
  present : ∀ chat, (a.thread chat).isSome = true ∨ (b.thread chat).isSome = true →
    ((a.mergeFrom b).thread chat).isSome = true
  contains : ∀ chat id, HasId a chat id ∨ HasId b chat id → HasId (a.mergeFrom b) chat id
  unchanged : ∀ chat msgs, a.thread chat = some msgs →
    ∃ merged, (a.mergeFrom b).thread chat = some merged ∧ msgs ⊆ merged ∧
    ∀ m ∈ merged, m ∈ msgs ∨ m.msgId ∉ msgs.map (·.msgId)
  distinct : ∀ chat, (∀ msgs, a.thread chat = some msgs ∨ b.thread chat = some msgs → (msgs.map (·.msgId)).Nodup) →
    ∀ merged, (a.mergeFrom b).thread chat = some merged → (merged.map (·.msgId)).Nodup
  device : SameDevice a (a.mergeFrom b)
  twice : SameHistory (a.mergeFrom b) ((a.mergeFrom b).mergeFrom b)
  order : ∀ chat id, HasId ((a.mergeFrom b.exportPlaintext).mergeFrom c.exportPlaintext) chat id ↔
    HasId ((a.mergeFrom c.exportPlaintext).mergeFrom b.exportPlaintext) chat id

/-- Of a group that both have, this device has all ids that the other has. -/
def MergeCovers (a b : History) : Prop :=
  ∀ gid, (a.thread (.group gid)).isSome = true →
  ∀ id, HasId b (.group gid) id → HasId a (.group gid) id

/-- Of a group that this device lacks and both others have, they have the same ids. -/
def MergeAgrees (a b c : History) : Prop :=
  ∀ gid, a.thread (.group gid) = none → (b.thread (.group gid)).isSome = true →
  (c.thread (.group gid)).isSome = true →
    ∀ id, HasId b (.group gid) id ↔ HasId c (.group gid) id

section resync

variable (a b c : History)

theorem mergeFrom_present (chat : Chat)
    (h : (a.thread chat).isSome = true ∨ (b.thread chat).isSome = true) :
    ((a.mergeFrom b).thread chat).isSome = true := by
  cases chat with
  | group gid =>
    rw [thread_mergeFrom_group, Option.isSome_or]
    exact Bool.or_eq_true_iff.mpr h
  | peer key =>
    cases hb : b.thread (.peer key) with
    | none =>
      rw [thread_mergeFrom_none hb]
      rw [hb] at h
      exact h.resolve_right (by simp)
    | some msgs =>
      rw [thread_mergeFrom_some hb]
      rfl

theorem mergeFrom_unchanged {chat : Chat} {msgs : List StoredMessage}
    (ha : a.thread chat = some msgs) :
    ∃ merged, (a.mergeFrom b).thread chat = some merged ∧ msgs ⊆ merged ∧
      ∀ m ∈ merged, m ∈ msgs ∨ m.msgId ∉ msgs.map (·.msgId) := by
  cases chat with
  | group gid =>
    refine ⟨msgs, ?_, fun _ hm => hm, fun _ hm => Or.inl hm⟩
    rw [thread_mergeFrom_group, ha]
    rfl
  | peer key =>
    cases hb : b.thread (.peer key) with
    | none => exact ⟨msgs, (thread_mergeFrom_none hb).trans ha, fun _ hm => hm, fun _ hm => Or.inl hm⟩
    | some others =>
      refine ⟨_, thread_mergeFrom_some hb, fun m hm => ?_, fun m hm => ?_⟩
      · rw [mem_sortThread, ha]
        exact subset_mergeMessages others msgs hm
      · rw [mem_sortThread, ha] at hm
        exact (mem_mergeMessages hm).imp_right And.right

theorem mergeFrom_distinct {chat : Chat}
    (h : ∀ msgs, a.thread chat = some msgs ∨ b.thread chat = some msgs → (msgs.map (·.msgId)).Nodup)
    {merged : List StoredMessage} (hm : (a.mergeFrom b).thread chat = some merged) :
    (merged.map (·.msgId)).Nodup := by
  cases chat with
  | group gid =>
    rw [thread_mergeFrom_group, Option.or_eq_some_iff] at hm
    rcases hm with ha | ⟨-, hb⟩
    · exact h merged (Or.inl ha)
    · exact h merged (Or.inr hb)
  | peer key =>
    cases hb : b.thread (.peer key) with
    | none => exact h merged (Or.inl ((thread_mergeFrom_none hb).symm.trans hm))
    | some others =>
      rw [thread_mergeFrom_some hb] at hm
      cases hm
      have hown : (((a.thread (.peer key)).getD []).map (·.msgId)).Nodup := by
        cases ha : a.thread (.peer key) with
        | none => exact List.nodup_nil
        | some msgs => exact h msgs (Or.inl ha)
      rw [((sortThread_perm _).map _).nodup_iff]
      exact nodup_mergeMessages hown

theorem mergeFrom_twice : SameHistory (a.mergeFrom b) ((a.mergeFrom b).mergeFrom b) where
  device := rfl
  conversations := by
    intro key
    have hget : ∀ h : History, (h.mergeFrom b).conversations.get key =
        ((b.conversations.get key).map fun convo =>
        History.mergeConversation ((h.conversations.get key).getD {}) convo).or (h.conversations.get key) :=
      fun h => Table.get_foldl_set (fun old convo => History.mergeConversation (old.getD {}) convo) _ _ _
    rw [hget (a.mergeFrom b), hget a]
    cases b.conversations.get key with
    | none => rfl
    | some convo =>
      dsimp only [Option.map_some, Option.some_or, Option.getD_some]
      rw [mergeConversation_twice]
  contacts := by
    intro name
    have hget : ∀ h : History, (h.mergeFrom b).contacts.get name =
        (h.contacts.get name).or (b.contacts.get name) :=
      fun h => Table.get_orInsertAll _ _ _
    rw [hget (a.mergeFrom b), hget a, Option.or_assoc, Option.or_self]
  groups := by
    intro gid
    have hget : ∀ h : History, (h.mergeFrom b).groups.get gid =
        (h.groups.get gid).or (b.groups.get gid) :=
      fun h => Table.get_orInsertAll _ _ _
    rw [hget (a.mergeFrom b), hget a, Option.or_assoc, Option.or_self]

theorem mergeFrom_contains_iff :
    (∀ chat id, HasId a chat id ∨ HasId b chat id → HasId (a.mergeFrom b) chat id) ↔
    MergeCovers a b := by
  constructor
  · intro hall gid hsome id hid
    rcases (hasId_mergeFrom_group gid id).mp (hall _ id (Or.inr hid)) with ha | ⟨hnone, -⟩
    · exact ha
    · rw [hnone] at hsome
      cases hsome
  · intro hcovers chat id hid
    cases chat with
    | peer key => exact (hasId_mergeFrom_peer key id).mpr hid
    | group gid =>
      rw [hasId_mergeFrom_group]
      rcases hid with ha | hb
      · exact Or.inl ha
      · by_cases hnone : a.thread (.group gid) = none
        · exact Or.inr ⟨hnone, hb⟩
        · exact Or.inl (hcovers gid (Option.isSome_iff_ne_none.mpr hnone) id hb)

/-- Merging two other devices gives a group the ids of the first that has it. -/
theorem hasId_mergeFrom_both (gid id : String) :
    HasId ((a.mergeFrom b).mergeFrom c) (.group gid) id ↔
    HasId a (.group gid) id ∨ a.thread (.group gid) = none ∧
      (HasId b (.group gid) id ∨ b.thread (.group gid) = none ∧ HasId c (.group gid) id) := by
  rw [hasId_mergeFrom_group, hasId_mergeFrom_group, thread_mergeFrom_group, Option.or_eq_none_iff]
  tauto

theorem mergeFrom_order_iff :
    (∀ chat id, HasId ((a.mergeFrom b).mergeFrom c) chat id ↔
      HasId ((a.mergeFrom c).mergeFrom b) chat id) ↔
      MergeAgrees a b c := by
  have hno : ∀ (h : History) (chat : Chat) (id : String), h.thread chat = none →
      ¬ HasId h chat id := by
    rintro h chat id hnone ⟨msgs, hsome, -⟩
    rw [hnone] at hsome
    cases hsome
  constructor
  · intro hall gid hnone hb hc id
    have hid := hall (.group gid) id
    rw [hasId_mergeFrom_both, hasId_mergeFrom_both] at hid
    have ha := hno a _ id hnone
    have hb : b.thread (.group gid) ≠ none := Option.isSome_iff_ne_none.mp hb
    have hc : c.thread (.group gid) ≠ none := Option.isSome_iff_ne_none.mp hc
    tauto
  · intro hagrees chat id
    cases chat with
    | peer key =>
      rw [hasId_mergeFrom_peer, hasId_mergeFrom_peer, hasId_mergeFrom_peer, hasId_mergeFrom_peer]
      tauto
    | group gid =>
      rw [hasId_mergeFrom_both, hasId_mergeFrom_both]
      by_cases ha : a.thread (.group gid) = none
      · by_cases hb : b.thread (.group gid) = none
        · have hb' := hno b _ id hb
          tauto
        · by_cases hc : c.thread (.group gid) = none
          · have hc' := hno c _ id hc
            tauto
          · have hsame := hagrees gid ha (Option.isSome_iff_ne_none.mpr hb)
              (Option.isSome_iff_ne_none.mpr hc) id
            tauto
      · tauto

/-- **A re-sync keeps what it is to keep exactly if no group that both devices have holds a message
of the other alone**, and two others agree on the groups that this one lacks. -/
theorem resynced_iff : Resynced a b c ↔ MergeCovers a b ∧ MergeAgrees a b c := by
  have horder := mergeFrom_order_iff a b.exportPlaintext c.exportPlaintext
  have hagree : MergeAgrees a b.exportPlaintext c.exportPlaintext ↔ MergeAgrees a b c := by
    unfold MergeAgrees HasId
    rw [thread_exportPlaintext, thread_exportPlaintext]
  rw [hagree] at horder
  constructor
  · intro h
    exact ⟨(mergeFrom_contains_iff a b).mp h.contains, horder.mp h.order⟩
  · rintro ⟨hcovers, hagrees⟩
    exact
      { present := fun chat hchat => mergeFrom_present a b chat hchat
        contains := (mergeFrom_contains_iff a b).mpr hcovers
        unchanged := fun _ _ ha => mergeFrom_unchanged a b ha
        distinct := fun _ h _ hm => mergeFrom_distinct a b h hm
        device := rfl
        twice := mergeFrom_twice a b
        order := horder.mpr hagrees }

end resync

/-- Two devices of carol's, who know the family; on one dave's message has come in. -/
def carolsPhone : History :=
  History.run (sampleRelay familySigned).crypto {} [(2001, .adoptGroupEpoch familyGenesis)]

def carolsLaptop : History := History.run (sampleRelay familySigned).crypto {}
  [(2001, .adoptGroupEpoch familyGenesis),
    (2002, .apply (.groupMessage familyDave.identityKey "family" "m1" "hi" 2002 none none false))]

/-- **The message does not come to the other device.** -/
theorem group_messages_lost :
    HasId carolsLaptop (.group "family") "m1" ∧
    ¬ HasId (carolsPhone.mergeFrom carolsLaptop) (.group "family") "m1" ∧
      ¬ Resynced carolsPhone carolsLaptop carolsLaptop := by
  have hthere : HasId carolsLaptop (.group "family") "m1" := by
    have hids : (carolsLaptop.thread (.group "family")).map (·.map (·.msgId)) = some ["m1"] := by
      decide +kernel
    obtain ⟨msgs, hmsgs, hid⟩ := Option.map_eq_some_iff.mp hids
    exact ⟨msgs, hmsgs, by rw [hid]; exact List.mem_singleton_self _⟩
  have hlost : ¬ HasId (carolsPhone.mergeFrom carolsLaptop) (.group "family") "m1" := by
    have hids : ((carolsPhone.mergeFrom carolsLaptop).thread (.group "family")).map
        (·.map (·.msgId)) = some [] := by
      decide +kernel
    rintro ⟨msgs, hmsgs, hid⟩
    rw [hmsgs, Option.map_some] at hids
    rw [Option.some.inj hids] at hid
    cases hid
  exact ⟨hthere, hlost, fun h => hlost (h.contains _ _ (Or.inr hthere))⟩

end Sona
