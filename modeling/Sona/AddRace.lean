/-
# The race of an add

An admin adds a member, and the member's first messages overtake the epoch.
`History.apply` holds them and writes them down in the adoption, so it should not
matter which of the two comes first. It does where the adoption goes on after it
has written: the timer that a new group comes with is set too late for content that
waited (`TimerFits`), the chip for the user's own way in or out goes behind it
(`ChipMeets`), and what our own devices sent to a group that is not known is not
held at all (`add_race_iff`).

The record of the group after both is worked out for each order, and all of it but
the thread is the same (`record_late`, `record_early`); what is left is whether an
edit of the thread trades places with a chip (`render_chip_iff`) or with a timer
(`render_timer_iff`).

Key definitions: `ChipMeets`, `TimerFits`, `History.recordAfter`, `Overtaken`, `History.raceStep`,
`History.RaceFits`. Key theorems: `render_chip_iff`, `render_timer_iff`, `record_rosterUpdate`,
`record_late`, `record_early`, `raceMeets_step`, `add_race_iff`.
-/
import Mathlib.Data.List.Basic
import Mathlib.Data.List.Induction
import Sona.Lib.Stable
import Sona.Lib.Table
import Sona.Lib.Delimited
import Sona.Lib.Trace
import Sona.Order
import Sona.Quarantine

namespace Sona

/-! ### Content and chips -/

section chips

variable {msgs : List StoredMessage}

/-- Chips of one time in threads of different lengths have different ids. -/
theorem chip_msgId_inj {tag text text' : String} {at_ m n : ℕ}
    (h : (chip tag text at_ m).msgId = (chip tag text' at_ n).msgId) : m = n := by
  apply decimal_inj
  simpa [chip, toString] using h

theorem updateFirst_append {p : StoredMessage → Bool} (f : StoredMessage → StoredMessage)
    (hany : msgs.any p = true) (ms : List StoredMessage) :
    updateFirst p f (msgs ++ ms) = updateFirst p f msgs ++ ms := by
  induction msgs with
  | nil => cases hany
  | cons m msgs ih =>
    rw [List.cons_append]
    unfold updateFirst
    by_cases hp : p m = true
    · rw [if_pos hp, if_pos hp, List.cons_append]
    · rw [if_neg hp, if_neg hp, List.cons_append, ih]
      simpa [hp] using hany

theorem updateFirst_append_of_none {p : StoredMessage → Bool} (f : StoredMessage → StoredMessage)
    (hnone : msgs.any p = false) (ms : List StoredMessage) :
    updateFirst p f (msgs ++ ms) = msgs ++ updateFirst p f ms := by
  induction msgs with
  | nil => rfl
  | cons m msgs ih =>
    rw [List.any_cons, Bool.or_eq_false_iff] at hnone
    rw [List.cons_append]
    conv_lhs => unfold updateFirst
    rw [if_neg (by simp [hnone.1]), ih hnone.2, List.cons_append]

theorem updateFirst_of_none {p : StoredMessage → Bool} (f : StoredMessage → StoredMessage)
    (hnone : msgs.any p = false) : updateFirst p f msgs = msgs := by
  simpa [updateFirst] using updateFirst_append_of_none f hnone []

/-- What the last entry says depends on its text only. -/
theorem saysLast_congr {msgs' : List StoredMessage}
    (h : msgs'.map (fun m => (m.system, m.body)) = msgs.map fun m => (m.system, m.body))
    (text : String) :
    saysLast msgs' text = saysLast msgs text := by
  have hlast : ∀ l : List StoredMessage, saysLast l text =
      (l.map fun m => (m.system, m.body)).getLast?.any fun v => v.1 && v.2 = text := by
    intro l
    unfold saysLast
    rw [List.getLast?_map]
    cases l.getLast? <;> rfl
  rw [hlast, hlast, h]

theorem recordChip_of_said {text : String} {at_ : ℕ} (h : saysLast msgs text = true) :
    recordChip msgs text at_ = msgs := by
  unfold recordChip
  rw [if_pos (by simpa [saysLast] using h)]

theorem recordChip_of_new {text : String} {at_ : ℕ} (h : saysLast msgs text = false) :
    recordChip msgs text at_ = msgs ++ [chip "sys" text at_ msgs.length] := by
  unfold recordChip
  rw [if_neg (by simpa [saysLast] using h)]

/-- A change that leaves the texts alone trades places with a chip, if it finds
its message before. -/
theorem updateFirst_chip {p : StoredMessage → Bool} {f : StoredMessage → StoredMessage}
    (hf : ∀ m, ((f m).system, (f m).body) = (m.system, m.body)) (hany : msgs.any p = true)
    (text : String) (at_ : ℕ) :
    recordChip (updateFirst p f msgs) text at_ = updateFirst p f (recordChip msgs text at_) := by
  have hsaid := saysLast_congr (map_updateFirst hf p msgs) text
  cases hlast : saysLast msgs text with
  | true => rw [recordChip_of_said (hsaid.trans hlast), recordChip_of_said hlast]
  | false =>
    rw [recordChip_of_new (hsaid.trans hlast), recordChip_of_new hlast, updateFirst_append f hany,
      length_updateFirst]

/-- A message is stored, and marked if it was forwarded. -/
def storeIn (msgs : List StoredMessage) (m : StoredMessage) (forwarded : Bool) :
    List StoredMessage :=
  if forwarded then setForwardedIn (recordOnce msgs m) m.msgId else recordOnce msgs m

/-- Whether the thread has the id. -/
def hasId (msgs : List StoredMessage) (msgId : String) : Bool := msgs.any (·.msgId = msgId)

theorem storeIn_map {β : Type} {k : StoredMessage → β}
    (hk : ∀ m, k { m with forwarded := true } = k m) (m : StoredMessage) (forwarded : Bool) :
    (storeIn msgs m forwarded).map k = (recordOnce msgs m).map k := by
  unfold storeIn
  split
  · exact map_updateFirst hk _ _
  · rfl

theorem storeIn_known {m : StoredMessage} (hin : hasId msgs m.msgId = true) (forwarded : Bool) :
    storeIn msgs m forwarded = if forwarded then setForwardedIn msgs m.msgId else msgs := by
  unfold storeIn recordOnce
  unfold hasId at hin
  rw [if_pos hin]

theorem recordOnce_new {m : StoredMessage} (hnew : hasId msgs m.msgId = false) :
    recordOnce msgs m = insertMessageOrdered msgs m := by
  unfold recordOnce
  unfold hasId at hnew
  rw [if_neg (by simp [hnew])]

theorem hasId_append (ms : List StoredMessage) (msgId : String) :
    hasId (msgs ++ ms) msgId = (hasId msgs msgId || hasId ms msgId) := List.any_append

/-- The message goes before the last one. -/
def BeforeLast (msgs : List StoredMessage) (m : StoredMessage) : Prop :=
  ∃ last ∈ msgs.getLast?, m.sentAt < last.sentAt

/-- What the thread says last, when a message of a user has come. -/
theorem saysLast_insert {m : StoredMessage} (hm : m.system = false) (text : String) :
    saysLast (insertMessageOrdered msgs m) text = true ↔
    saysLast msgs text = true ∧ BeforeLast msgs m := by
  rw [insertMessageOrdered_eq]
  rcases List.eq_nil_or_concat msgs with rfl | ⟨init, last, rfl⟩
  · simp [Stable.insertLast, saysLast, BeforeLast, hm]
  · rw [List.concat_eq_append]
    by_cases hlt : m.sentAt < last.sentAt
    · rw [Stable.insertLast_append_of_lt (·.sentAt) init hlt]
      simp [saysLast, BeforeLast, hlt]
    · rw [Stable.insertLast_append_of_le (·.sentAt) init (not_lt.mp hlt)]
      simp [saysLast, BeforeLast, hlt, hm]

/-- A new message and a chip trade places only where the chip is left out. -/
theorem store_chip_iff {m : StoredMessage} (hm : m.system = false) (forwarded : Bool)
    (text : String) (at_ : ℕ) :
    recordChip (storeIn msgs m forwarded) text at_ =
      storeIn (recordChip msgs text at_) m forwarded ↔
      hasId msgs m.msgId = true ∨ saysLast msgs text = true ∧ BeforeLast msgs m := by
  have hsaid : saysLast (storeIn msgs m forwarded) text = saysLast (recordOnce msgs m) text :=
    saysLast_congr (storeIn_map (fun _ => rfl) m forwarded) text
  cases hin : hasId msgs m.msgId with
  | true =>
    refine iff_of_true ?_ (Or.inl rfl)
    have hin' : hasId (recordChip msgs text at_) m.msgId = true := by
      unfold recordChip
      split
      · exact hin
      · rw [hasId_append, hin, Bool.true_or]
    rw [storeIn_known hin, storeIn_known hin']
    cases forwarded with
    | false => rfl
    | true =>
      rw [if_pos rfl, if_pos rfl]
      exact updateFirst_chip (f := fun m => { m with forwarded := true })
        (fun _ => rfl) hin text at_
  | false =>
    rw [recordOnce_new hin] at hsaid
    rw [or_iff_right (by simp)]
    cases hlast : saysLast msgs text with
    | true =>
      rw [recordChip_of_said hlast]
      cases hafter : saysLast (storeIn msgs m forwarded) text with
      | true =>
        rw [recordChip_of_said hafter]
        exact iff_of_true rfl ⟨rfl, ((saysLast_insert hm text).mp (hsaid ▸ hafter)).2⟩
      | false =>
        rw [recordChip_of_new hafter]
        refine iff_of_false (fun heq => ?_) fun ⟨_, hbefore⟩ => ?_
        · have hlength := congrArg List.length heq
          rw [List.length_append, List.length_singleton] at hlength
          omega
        · rw [hsaid, (saysLast_insert hm text).mpr ⟨hlast, hbefore⟩] at hafter
          cases hafter
    | false =>
      refine iff_of_false (fun heq => ?_) fun hboth => Bool.false_ne_true hboth.1
      have hafter : saysLast (storeIn msgs m forwarded) text = false := by
        rw [hsaid]
        by_contra hsome
        have hboth := (saysLast_insert hm text).mp (by simpa using hsome)
        rw [hlast] at hboth
        exact Bool.false_ne_true hboth.1
      rw [recordChip_of_new hafter, recordChip_of_new hlast] at heq
      -- the two chips count a different number of messages before them
      have hids := congrArg (List.map (·.msgId)) heq
      have hperm := (Stable.insertLast_perm (·.sentAt) msgs m).map (·.msgId)
      have hbefore : (storeIn msgs m forwarded).map (·.msgId) =
          (Stable.insertLast (·.sentAt) msgs m).map (·.msgId) := by
        rw [storeIn_map (k := (·.msgId)) (fun _ => rfl), recordOnce_new hin,
          insertMessageOrdered_eq]
      have hlength : (storeIn msgs m forwarded).length = msgs.length + 1 := by
        have hsame := congrArg List.length hbefore
        simpa [Stable.length_insertLast] using hsame
      rw [List.map_append, hbefore, storeIn_map (k := (·.msgId)) (fun _ => rfl), hlength] at hids
      by_cases hchip : hasId (msgs ++ [chip "sys" text at_ msgs.length]) m.msgId = true
      · have hlen := congrArg List.length hids
        unfold hasId at hchip
        unfold recordOnce at hlen
        rw [if_pos hchip] at hlen
        simp [Stable.length_insertLast] at hlen
      · rw [recordOnce_new (by simpa using hchip), insertMessageOrdered_eq] at hids
        have hperm' := (Stable.insertLast_perm (·.sentAt) (msgs ++ [chip "sys" text at_ msgs.length]) m).map (·.msgId)
        have hboth := ((hperm.append_right _).symm.trans (List.Perm.of_eq hids)).trans hperm'
        simp only [List.map_cons, List.map_append, List.map_nil, List.cons_append,
          List.perm_cons] at hboth
        have hone := List.singleton_perm_singleton.mp ((List.perm_append_left_iff _).mp hboth)
        have heq := chip_msgId_inj hone
        omega

/-- What the sender's own is not, is a chip's. -/
theorem sentBy_chip (sender msgId tag text : String) (at_ n : ℕ) :
    sentBy sender msgId (chip tag text at_ n) = false := by
  simp [sentBy, chip]

theorem edit_chip_iff (sender msgId body text : String) (at_ : ℕ) :
    recordChip (editIn msgs (sentBy sender msgId) body) text at_ =
      editIn (recordChip msgs text at_) (sentBy sender msgId) body ↔
    saysLast (editIn msgs (sentBy sender msgId) body) text = saysLast msgs text := by
  have happend : ∀ n, editIn (msgs ++ [chip "sys" text at_ n]) (sentBy sender msgId) body =
      editIn msgs (sentBy sender msgId) body ++ [chip "sys" text at_ n] := by
    intro n
    unfold editIn
    by_cases hany : msgs.any (sentBy sender msgId) = true
    · exact updateFirst_append _ hany _
    · have hnone : msgs.any (sentBy sender msgId) = false := by simpa using hany
      rw [updateFirst_append_of_none _ hnone, updateFirst_of_none _ hnone]
      simp [updateFirst, sentBy_chip]
  have hlength : (editIn msgs (sentBy sender msgId) body).length = msgs.length :=
    length_updateFirst _ _ _
  cases hlast : saysLast msgs text with
  | true =>
    rw [recordChip_of_said hlast]
    cases hafter : saysLast (editIn msgs (sentBy sender msgId) body) text with
    | true => exact iff_of_true (recordChip_of_said hafter) rfl
    | false =>
      rw [recordChip_of_new hafter]
      refine iff_of_false (fun heq => ?_) Bool.false_ne_true
      have hmore := congrArg List.length heq
      rw [List.length_append, List.length_singleton] at hmore
      omega
  | false =>
    rw [recordChip_of_new hlast, happend]
    cases hafter : saysLast (editIn msgs (sentBy sender msgId) body) text with
    | true =>
      rw [recordChip_of_said hafter]
      refine iff_of_false (fun heq => ?_) (Ne.symm Bool.false_ne_true)
      have hmore := congrArg List.length heq
      rw [List.length_append, List.length_singleton] at hmore
      omega
    | false =>
      rw [recordChip_of_new hafter, hlength]
      exact iff_of_true rfl rfl

theorem delete_chip_iff (sender msgId text : String) (at_ : ℕ) :
    recordChip (msgs.filter fun m => !sentBy sender msgId m) text at_ =
      (recordChip msgs text at_).filter (fun m => !sentBy sender msgId m) ↔
    (∀ m ∈ msgs, sentBy sender msgId m = false) ∨
      saysLast msgs text = true ∧ saysLast (msgs.filter fun m => !sentBy sender msgId m) text = true := by
  have happend : ∀ n, (msgs ++ [chip "sys" text at_ n]).filter (fun m => !sentBy sender msgId m) =
      msgs.filter (fun m => !sentBy sender msgId m) ++ [chip "sys" text at_ n] := by
    intro n
    rw [List.filter_append]
    simp [sentBy_chip]
  by_cases hnone : ∀ m ∈ msgs, sentBy sender msgId m = false
  · have hall : msgs.filter (fun m => !sentBy sender msgId m) = msgs :=
      List.filter_eq_self.mpr fun m hm => by simp [hnone m hm]
    refine iff_of_true ?_ (Or.inl hnone)
    rw [hall]
    cases hlast : saysLast msgs text with
    | true => rw [recordChip_of_said hlast, hall]
    | false => rw [recordChip_of_new hlast, happend, hall]
  · rw [or_iff_right hnone]
    have hfewer : (msgs.filter fun m => !sentBy sender msgId m).length < msgs.length := by
      refine lt_of_le_of_ne (List.length_filter_le _ _) fun heq => hnone ?_
      intro m hm
      have hkept := List.length_filter_eq_length_iff.mp heq m hm
      simpa using hkept
    cases hlast : saysLast msgs text with
    | true =>
      rw [recordChip_of_said hlast]
      cases hafter : saysLast (msgs.filter fun m => !sentBy sender msgId m) text with
      | true => exact iff_of_true (recordChip_of_said hafter) ⟨rfl, rfl⟩
      | false =>
        rw [recordChip_of_new hafter]
        refine iff_of_false (fun heq => ?_) fun hboth => Bool.false_ne_true hboth.2
        have hmore := congrArg List.length heq
        rw [List.length_append, List.length_singleton] at hmore
        omega
    | false =>
      refine iff_of_false (fun heq => ?_) fun hboth => Bool.false_ne_true hboth.1
      rw [recordChip_of_new hlast, happend] at heq
      cases hafter : saysLast (msgs.filter fun m => !sentBy sender msgId m) text with
      | true =>
        rw [recordChip_of_said hafter] at heq
        have hmore := congrArg List.length heq
        rw [List.length_append, List.length_singleton] at hmore
        omega
      | false =>
        rw [recordChip_of_new hafter] at heq
        have hchips := List.append_cancel_left heq
        have hid := chip_msgId_inj (congrArg StoredMessage.msgId (List.singleton_inj.mp hchips))
        omega

theorem reaction_chip_iff (target reactor emoji text : String) (add : Bool) (at_ : ℕ) :
    recordChip (reactIn msgs target reactor emoji add) text at_ =
      reactIn (recordChip msgs text at_) target reactor emoji add ↔
    hasId msgs target = true ∨ saysLast msgs text = true ∨
    target ≠ (chip "sys" text at_ msgs.length).msgId ∨
      applyReaction [] reactor emoji add = [] := by
  by_cases hin : hasId msgs target = true
  · refine iff_of_true ?_ (Or.inl hin)
    exact updateFirst_chip
      (f := fun m => { m with reactions := applyReaction m.reactions reactor emoji add })
      (fun _ => rfl) hin text at_
  · have hnone : msgs.any (·.msgId = target) = false := by simpa [hasId] using hin
    have hsame : reactIn msgs target reactor emoji add = msgs := updateFirst_of_none _ hnone
    rw [or_iff_right hin, hsame]
    cases hlast : saysLast msgs text with
    | true =>
      rw [recordChip_of_said hlast, hsame]
      exact iff_of_true rfl (Or.inl rfl)
    | false =>
      rw [or_iff_right (by simp), recordChip_of_new hlast]
      have hafter : reactIn (msgs ++ [chip "sys" text at_ msgs.length]) target reactor emoji add =
          msgs ++ reactIn [chip "sys" text at_ msgs.length] target reactor emoji add :=
        updateFirst_append_of_none _ hnone _
      rw [hafter]
      by_cases htarget : (chip "sys" text at_ msgs.length).msgId = target
      · have hone : reactIn [chip "sys" text at_ msgs.length] target reactor emoji add =
            [{ chip "sys" text at_ msgs.length with reactions := applyReaction [] reactor emoji add }] := by
          unfold reactIn updateFirst
          rw [if_pos (by simpa using htarget)]
          rfl
        rw [hone, or_iff_right (fun hne => hne htarget.symm)]
        constructor
        · intro heq
          have hchips := List.singleton_inj.mp (List.append_cancel_left heq)
          exact (congrArg StoredMessage.reactions hchips).symm
        · intro hreactions
          rw [hreactions]
          rfl
      · have hone : reactIn [chip "sys" text at_ msgs.length] target reactor emoji add =
            [chip "sys" text at_ msgs.length] := by
          apply updateFirst_of_none
          simpa using htarget
        rw [hone]
        exact iff_of_true rfl (Or.inl (Ne.symm htarget))

/-- What content has to meet in a thread to trade places with a chip. -/
def ChipMeets (now : ℕ) (text sender : String) (msgs : List StoredMessage) : HeldGroupContent → Prop
  | .message msgId _ sentAt .. | .attachment msgId _ sentAt .. =>
    hasId msgs msgId = true ∨ saysLast msgs text = true ∧
    ∃ last ∈ msgs.getLast?, sentAt < last.sentAt
  | .edit msgId body => saysLast (editIn msgs (sentBy sender msgId) body) text = saysLast msgs text
  | .delete msgId => (∀ m ∈ msgs, sentBy sender msgId m = false) ∨
      saysLast msgs text = true ∧ saysLast (msgs.filter fun m => !sentBy sender msgId m) text = true
  | .reaction target emoji add => hasId msgs target = true ∨ saysLast msgs text = true ∨
      target ≠ (chip "sys" text now msgs.length).msgId ∨ applyReaction [] sender emoji add = []

/-- **Content and a chip trade places exactly then.** -/
theorem render_chip_iff (now : ℕ) (timer : Option ℕ) (sender text : String) (c : HeldGroupContent) :
    recordChip (renderIn now timer sender msgs c) text now =
      renderIn now timer sender (recordChip msgs text now) c ↔
      ChipMeets now text sender msgs c := by
  cases c with
  | message msgId body sentAt expireSecs reply forwarded =>
    exact store_chip_iff
      (m := { textMessage now timer .incoming msgId body sentAt reply expireSecs with sender := some sender }) rfl
      forwarded text now
  | attachment msgId att sentAt expireSecs forwarded =>
    exact store_chip_iff
      (m := { fileMessage now timer .incoming msgId att sentAt expireSecs with sender := some sender }) rfl
      forwarded text now
  | reaction target emoji add => exact reaction_chip_iff target sender emoji text add now
  | edit msgId body => exact edit_chip_iff sender msgId body text now
  | delete msgId => exact delete_chip_iff sender msgId text now

/-! ### Content and timers -/

theorem storeIn_congr_iff (m m' : StoredMessage) (hid : m'.msgId = m.msgId) (forwarded : Bool)
    (hother : { m' with deleteAt := m.deleteAt } = m) :
    storeIn msgs m' forwarded = storeIn msgs m forwarded ↔
    hasId msgs m.msgId = true ∨ m'.deleteAt = m.deleteAt := by
  cases hin : hasId msgs m.msgId with
  | true =>
    refine iff_of_true ?_ (Or.inl rfl)
    rw [storeIn_known hin, storeIn_known (hid ▸ hin), hid]
  | false =>
    rw [or_iff_right (by simp)]
    constructor
    · intro heq
      -- the message is the only one there with its id
      have hfind : ∀ m : StoredMessage, hasId msgs m.msgId = false →
          ((storeIn msgs m forwarded).map fun x => (x.msgId, x.deleteAt)).filter
          (·.1 = m.msgId) = [(m.msgId, m.deleteAt)] := by
        intro m hnew
        rw [storeIn_map (k := fun x => (x.msgId, x.deleteAt)) (fun _ => rfl), recordOnce_new hnew,
          insertMessageOrdered_eq]
        have hperm := ((Stable.insertLast_perm (·.sentAt) msgs m).map fun x => (x.msgId, x.deleteAt)).filter
          fun v => v.1 = m.msgId
        have hnone : (msgs.map fun x => (x.msgId, x.deleteAt)).filter
            (fun v => v.1 = m.msgId) = [] := by
          rw [List.filter_eq_nil_iff]
          intro v hv
          obtain ⟨x, hx, rfl⟩ := List.mem_map.mp hv
          unfold hasId at hnew
          have hx' := List.any_eq_false.mp hnew x hx
          exact hx'
        rw [List.map_cons, List.filter_cons_of_pos (by simp), hnone] at hperm
        exact List.perm_singleton.mp hperm
      have hboth := hfind m' (hid ▸ hin)
      rw [heq, hid, hfind m hin] at hboth
      simpa using (List.singleton_inj.mp hboth).symm
    · intro hdelete
      rw [← hother, ← hdelete]

/-- What content has to meet in a thread so that it does not matter which timer the group has. -/
def TimerFits (now : ℕ) (old new : Option ℕ) (msgs : List StoredMessage) : HeldGroupContent → Prop
  | .message msgId _ sentAt expireSecs .. | .attachment msgId _ sentAt expireSecs _ =>
    hasId msgs msgId = true ∨ carriedDeleteAt now old expireSecs sentAt = carriedDeleteAt now new expireSecs sentAt
  | _ => True

/-- **Content is the same under two timers exactly then.** -/
theorem render_timer_iff (now : ℕ) (old new : Option ℕ) (sender : String) (c : HeldGroupContent) :
    renderIn now old sender msgs c = renderIn now new sender msgs c ↔
    TimerFits now old new msgs c := by
  cases c with
  | message msgId body sentAt expireSecs reply forwarded =>
    exact storeIn_congr_iff
      { textMessage now new .incoming msgId body sentAt reply expireSecs with
          sender := some sender }
      { textMessage now old .incoming msgId body sentAt reply expireSecs with
          sender := some sender } rfl
      forwarded rfl
  | attachment msgId att sentAt expireSecs forwarded =>
    exact storeIn_congr_iff
      { fileMessage now new .incoming msgId att sentAt expireSecs with sender := some sender }
      { fileMessage now old .incoming msgId att sentAt expireSecs with sender := some sender } rfl
      forwarded rfl
  | _ => exact iff_of_true rfl trivial

end chips

/-! ### The record of the group -/

namespace GroupRecord

variable (g : GroupRecord)

/-- Content that was held is written down. -/
def replay (now : ℕ) (es : List HeldGroupEvent) : GroupRecord :=
  { g with messages := renderAll now g.disappearingSecs es g.messages }

/-- The name, picture and timer that come with a new group. -/
def carry (name : String) (avatar : Option String) (secs : Option ℕ) : GroupRecord :=
  { g with
    name := if (trim name.toList).isEmpty then g.name else name
    avatar := if avatar.isSome then sanitizeAvatar avatar else g.avatar
    disappearingSecs := match secs with
      | none => g.disappearingSecs
      | some 0 => none
      | some (n + 1) => some (n + 1) }

/-- The chip for the user's own way in or out. -/
def note (now : ℕ) (wasMember isMember : Bool) : GroupRecord :=
  if wasMember && !isMember then
    { g with left := true, messages := recordChip g.messages "You were removed from the group" now }
  else if !wasMember && isMember then
    { g with
        left := false,
        messages := recordChip g.messages "You were added back to the group" now }
  else g

end GroupRecord

/-- The record that an epoch leaves, if it passes and `es` is written down. -/
def History.recordAfter (h : History) (now : ℕ) (epoch : GroupEpoch) (name : String)
    (secs : Option ℕ) (avatar : Option String) (es : List HeldGroupEvent) : GroupRecord :=
  let g := (h.groups.get epoch.groupId).getD {}
  match h.groupAdmin epoch.groupId with
  | some pin =>
    ((g.install epoch pin.creatorAdminKey).replay now es).note now (h.selfIsMember epoch.groupId)
      (h.selfPrimaryKey.any epoch.isMember)
  | none =>
    ((g.install epoch (if epoch.seq = 0 then some epoch.adminKey else none)).replay now es).carry name avatar secs

section record

variable {C : Crypto} {now : ℕ} (h : History)

theorem get_updateGroup (gid : String) (f : GroupRecord → GroupRecord) :
    (h.updateGroup gid f).groups.get gid = (h.groups.get gid).map f := by
  unfold History.updateGroup
  rw [Table.get_modify, if_pos rfl]

theorem get_setGroupName (gid name : String) : (h.setGroupName gid name).groups.get gid =
    (h.groups.get gid).map fun g => { g with name := if (trim name.toList).isEmpty then g.name else name } := by
  unfold History.setGroupName
  cases hname : (trim name.toList).isEmpty with
  | true =>
    rw [if_pos rfl]
    cases h.groups.get gid <;> rfl
  | false => exact get_updateGroup h gid _

theorem get_adoptCarried (gid name : String) (avatar : Option String) (secs : Option ℕ) :
    (h.adoptCarried gid name avatar secs).groups.get gid =
      (h.groups.get gid).map (·.carry name avatar secs) := by
  have havatar : ∀ (h : History) a, (h.setGroupAvatar gid a).2.groups.get gid =
      (h.groups.get gid).map fun g => { g with avatar := sanitizeAvatar a } :=
      fun h a => get_updateGroup h gid _
  have htimer : ∀ (h : History) secs, (h.setGroupTimer gid secs).2.groups.get gid =
      (h.groups.get gid).map fun g => { g with disappearingSecs := secs } :=
      fun h secs => get_updateGroup h gid _
  unfold History.adoptCarried
  dsimp only
  cases avatar with
  | none =>
    dsimp only
    split
    · rw [get_setGroupName]
      rfl
    · rw [htimer, get_setGroupName, Option.map_map]
      rfl
    · rw [htimer, get_setGroupName, Option.map_map]
      rfl
  | some a =>
    dsimp only
    split
    · rw [havatar, get_setGroupName, Option.map_map]
      rfl
    · rw [htimer, havatar, get_setGroupName, Option.map_map, Option.map_map]
      rfl
    · rw [htimer, havatar, get_setGroupName, Option.map_map, Option.map_map]
      rfl

theorem get_noteMembership (epoch : GroupEpoch) (wasMember : Bool) :
    (h.noteMembership now epoch wasMember).groups.get epoch.groupId =
      (h.groups.get epoch.groupId).map (·.note now wasMember (h.selfPrimaryKey.any epoch.isMember)) := by
  have hboth : ∀ left text, ((h.setGroupLeft epoch.groupId left).2.recordGroupSystem epoch.groupId text now).groups.get
      epoch.groupId = (h.groups.get epoch.groupId).map fun g =>
        { g with left, messages := recordChip g.messages text now } := by
    intro left text
    have hleft := get_updateGroup h epoch.groupId fun g => { g with left }
    have hchip := get_updateGroup (h.updateGroup epoch.groupId fun g => { g with left }) epoch.groupId fun g =>
      { g with messages := recordChip g.messages text now }
    rw [hleft, Option.map_map] at hchip
    exact hchip
  unfold History.noteMembership GroupRecord.note
  dsimp only
  by_cases hout : (wasMember && !h.selfPrimaryKey.any epoch.isMember) = true
  · simp only [if_pos hout]
    exact hboth _ _
  · simp only [if_neg hout]
    by_cases hin : (!wasMember && h.selfPrimaryKey.any epoch.isMember) = true
    · simp only [if_pos hin]
      exact hboth _ _
    · simp only [if_neg hin]
      cases h.groups.get epoch.groupId <;> rfl

theorem get_replay (gid : String) : (h.replayHeldGroupContent gid now).groups.get gid =
    (h.groups.get gid).map (·.replay now (h.rendered gid now)) := by
  have hthread := get_updateGroup h gid fun g =>
    { g with messages := renderAll now (h.groupTimer gid) (h.rendered gid now) g.messages }
  rw [replay_eq]
  unfold History.groupTimer at hthread ⊢
  cases hg : h.groups.get gid with
  | none =>
    rw [hg] at hthread
    exact hthread
  | some g =>
    rw [hg] at hthread
    exact hthread

/-- **The record of the group after an epoch that passes.** -/
theorem record_rosterUpdate {h' : History} {epoch : GroupEpoch} (hi : h.installed C epoch = some h')
    (name : String) (secs : Option ℕ) (avatar : Option String) :
    (h.rosterUpdate C now epoch name secs avatar).groups.get epoch.groupId =
      some (h.recordAfter now epoch name secs avatar (h'.rendered epoch.groupId now)) := by
  rcases adopt_installed h now epoch (C := C) with ⟨hnone, -⟩ | ⟨h₂, hi₂, heq⟩
  · rw [hi] at hnone
    cases hnone
  obtain rfl := Option.some.inj (hi.symm.trans hi₂)
  unfold History.rosterUpdate History.recordAfter
  dsimp only
  rw [heq]
  unfold History.installed at hi
  cases hpin : h.groupAdmin epoch.groupId with
  | some pin =>
    obtain ⟨g, hg, -⟩ := groupAdmin_some hpin
    simp only [hpin] at hi
    split at hi
    · cases hi
    · have hself : (h'.replayHeldGroupContent epoch.groupId now).selfPrimaryKey =
          h.selfPrimaryKey := by
        rw [replay_eq]
        cases hi
        rfl
      simp only [Option.isSome_some, if_true]
      rw [get_noteMembership, get_replay, hself]
      cases hi
      rw [get_updateGroup, hg]
      rfl
  | none =>
    simp only [hpin] at hi
    split at hi
    · cases hi
    · simp only [Option.isSome_none, Bool.false_eq_true, if_false]
      rw [get_adoptCarried, get_replay]
      cases hi
      rw [Table.get_set_self]
      rfl

/-- What the user's own way in or out is noted as. -/
def membershipChip (wasMember isMember : Bool) : Option String :=
  if wasMember && !isMember then some "You were removed from the group"
  else if !wasMember && isMember then some "You were added back to the group"
  else none

/-- The chip that an epoch puts in the thread of a group that is known. -/
def History.raceChip (h : History) (epoch : GroupEpoch) : Option String :=
  match h.groupAdmin epoch.groupId with
  | some _ => membershipChip (h.selfIsMember epoch.groupId) (h.selfPrimaryKey.any epoch.isMember)
  | none => none

def chipped (now : ℕ) (text : Option String) (msgs : List StoredMessage) : List StoredMessage :=
  match text with
  | some text => recordChip msgs text now
  | none => msgs

variable {h}

theorem note_eq (now : ℕ) (g : GroupRecord) (msgs : List StoredMessage)
    (wasMember isMember : Bool) :
    GroupRecord.note { g with messages := msgs } now wasMember isMember =
      { g.note now wasMember isMember with messages := chipped now (membershipChip wasMember isMember) msgs } := by
  cases wasMember <;> cases isMember <;> rfl

/-- Of the record only the thread depends on the thread and on what is written down. -/
theorem recordAfter_eq (epoch : GroupEpoch) (name : String) (secs : Option ℕ)
    (avatar : Option String) {h' : History} {f : List StoredMessage → List StoredMessage}
    (es : List HeldGroupEvent)
    (hgroup : h'.groups.get epoch.groupId = (h.groups.get epoch.groupId).map fun g => { g with messages := f g.messages })
    (hself : h'.selfPrimaryKey = h.selfPrimaryKey) :
    h'.recordAfter now epoch name secs avatar es =
      { h.recordAfter now epoch name secs avatar [] with
        messages := chipped now (h.raceChip epoch)
          (renderAll now (h.groupTimer epoch.groupId) es (((h.thread (.group epoch.groupId)).map f).getD [])) } := by
  have hadmin : h'.groupAdmin epoch.groupId = h.groupAdmin epoch.groupId := by
    unfold History.groupAdmin
    rw [hgroup]
    cases h.groups.get epoch.groupId <;> rfl
  have hmember : h'.selfIsMember epoch.groupId = h.selfIsMember epoch.groupId := by
    unfold History.selfIsMember
    rw [hgroup, hself]
    cases h.groups.get epoch.groupId <;> cases h.selfPrimaryKey <;> rfl
  unfold History.recordAfter History.raceChip
  dsimp only
  rw [hadmin, hmember, hself, hgroup, thread_group]
  unfold History.groupTimer
  cases h.groups.get epoch.groupId with
  | none =>
    cases h.groupAdmin epoch.groupId with
    | none => rfl
    | some pin =>
      dsimp only
      exact note_eq _ _ _ _ _
  | some g =>
    cases h.groupAdmin epoch.groupId with
    | none => rfl
    | some pin =>
      dsimp only
      exact note_eq now (g.install epoch pin.creatorAdminKey)
        (renderAll now g.disappearingSecs es (f g.messages)) _ _

end record

/-! ### Content that is written at once -/

/-- The event that carries content of a device to a group. -/
def contentEvent (gid : String) (m : String × HeldGroupContent) : InboundEvent :=
  match m.2 with
  | .message msgId body sentAt expireSecs reply forwarded =>
    .groupMessage m.1 gid msgId body sentAt expireSecs reply forwarded
  | .attachment msgId att sentAt expireSecs forwarded =>
    .groupAttachment m.1 gid msgId att sentAt expireSecs forwarded
  | .reaction target emoji add => .groupReaction m.1 gid target emoji add
  | .edit msgId body => .groupMessageEdited m.1 gid msgId body
  | .delete msgId => .groupMessageDeleted m.1 gid msgId

theorem groupContent_contentEvent (gid : String) (m : String × HeldGroupContent) :
    (contentEvent gid m).groupContent = some (m.1, gid, m.2) := by
  obtain ⟨device, content⟩ := m
  cases content <;> rfl

/-- Events one after another, at one reading of the clock. -/
def History.applyAll (C : Crypto) (now : ℕ) (h : History) (es : List InboundEvent) : History :=
  es.foldl (fun h e => h.apply C now e) h

/-- The effect of content on a thread, in order. -/
def History.written (h : History) (now : ℕ) (timer : Option ℕ)
    (ms : List (String × HeldGroupContent)) (msgs : List StoredMessage) : List StoredMessage :=
  ms.foldl (fun msgs m => renderIn now timer (h.writer m.1 m.2) msgs m.2) msgs

section written

variable {C : Crypto} {now : ℕ}

theorem writer_updateThread (h : History) (gid : String)
    (f : List StoredMessage → List StoredMessage) (device : String) (content : HeldGroupContent) :
    (h.updateThread gid f).writer device content = h.writer device content := by
  cases content <;> rfl

/-- Members' content is written in the order in which it comes. -/
theorem applyAll_members (gid : String) : ∀ (ms : List (String × HeldGroupContent)) (h : History),
    (∀ m ∈ ms, (h.groupMemberLabel gid (h.attributeDevice m.1)).isSome = true) →
    h.applyAll C now (ms.map (contentEvent gid)) =
      h.updateThread gid (h.written now (h.groupTimer gid) ms)
  | [], h, _ => (updateThread_id h gid).symm
  | m :: ms, h, hmember => by
    have happly : h.apply C now (contentEvent gid m) =
        h.updateThread gid (renderIn now (h.groupTimer gid) (h.writer m.1 m.2) · m.2) := by
      rw [apply_content C h now (groupContent_contentEvent gid m), if_neg]
      have hm := hmember m (by simp)
      simpa [Option.isSome_iff_ne_none] using hm
    have hrest := applyAll_members gid ms (h.apply C now (contentEvent gid m)) (by
      rw [happly]
      intro m' hm'
      rw [groupMemberLabel_updateThread]
      exact hmember m' (by simp [hm']))
    rw [happly, updateThread_groupTimer, updateThread_updateThread] at hrest
    unfold History.applyAll at hrest ⊢
    rw [List.map_cons, List.foldl_cons, happly, hrest]
    have hwritten : ∀ msgs, History.written
        (h.updateThread gid (renderIn now (h.groupTimer gid) (h.writer m.1 m.2) · m.2))
        now (h.groupTimer gid) ms msgs = h.written now (h.groupTimer gid) ms msgs := by
      intro msgs
      unfold History.written
      simp only [writer_updateThread]
    simp only [hwritten]
    rfl

end written

/-! ### The epoch behind the content -/

/-- A state that comes of `h` by content: what was written, and what waits. -/
structure Overtaken (h h' : History) (now : ℕ) (gid : String)
    (f : List StoredMessage → List StoredMessage) (q : List HeldGroupEvent) : Prop where
  eq : h' = { h.updateThread gid f with heldGroupContent := h'.heldGroupContent }
  size : h'.heldGroupContent.size ≤ if q = [] then 0 else 1
  held : h'.heldGroupContent.get gid = if q = [] then none else some q
  times : ∀ e ∈ q, e.receivedAt = now

section overtaken

variable {C : Crypto} {now : ℕ} {h h' : History} {gid : String}
  {f : List StoredMessage → List StoredMessage} {q : List HeldGroupEvent}

theorem Overtaken.start (hempty : h.heldGroupContent = ∅) (now : ℕ) (gid : String) :
    Overtaken h h now gid (fun msgs => msgs) [] where
  eq := by rw [updateThread_id]
  size := by
    rw [hempty]
    exact le_rfl
  held := by
    rw [hempty]
    rfl
  times := by simp

theorem Overtaken.label (ho : Overtaken h h' now gid f q) (key : String) :
    h'.groupMemberLabel gid key = h.groupMemberLabel gid key := by
  have hthread := groupMemberLabel_updateThread (h := h) gid f gid key
  rw [ho.eq]
  exact hthread

theorem Overtaken.timer (ho : Overtaken h h' now gid f q) :
    h'.groupTimer gid = h.groupTimer gid := by
  have hthread := updateThread_groupTimer (h := h) gid f gid
  rw [ho.eq]
  exact hthread

theorem Overtaken.quarantined (ho : Overtaken h h' now gid f q) : h'.quarantined gid = q := by
  unfold History.quarantined
  rw [ho.held]
  split
  · rename_i hq
    rw [hq]
    rfl
  · rfl

/-- Content that comes in now is as fresh as can be. -/
theorem filter_fresh (htimes : ∀ e ∈ q, e.receivedAt = now) (ttl : ℕ) :
    q.filter (·.fresh now ttl) = q := by
  rw [List.filter_eq_self]
  intro e he
  unfold HeldGroupEvent.fresh
  rw [htimes e he, Nat.sub_self]
  simp

/-- A member's content is written. -/
theorem Overtaken.write (ho : Overtaken h h' now gid f q) {m : String × HeldGroupContent}
    (hmember : (h.groupMemberLabel gid (h.attributeDevice m.1)).isSome = true) :
    Overtaken h (h'.apply C now (contentEvent gid m)) now gid
      (fun msgs => renderIn now (h.groupTimer gid) (h.writer m.1 m.2) (f msgs) m.2) q := by
  have hdevice : h'.attributeDevice m.1 = h.attributeDevice m.1 := by
    rw [ho.eq]
    rfl
  have hwriter : h'.writer m.1 m.2 = h.writer m.1 m.2 := by
    rw [ho.eq]
    exact writer_updateThread h gid f m.1 m.2
  have happly : h'.apply C now (contentEvent gid m) =
      h'.updateThread gid (renderIn now (h.groupTimer gid) (h.writer m.1 m.2) · m.2) := by
    rw [apply_content C h' now (groupContent_contentEvent gid m), hdevice, ho.label, ho.timer,
      hwriter, if_neg]
    simpa [Option.isSome_iff_ne_none] using hmember
  rw [happly]
  refine ⟨?_, ho.size, ho.held, ho.times⟩
  have hthread := updateThread_updateThread (h := h) gid f
    (renderIn now (h.groupTimer gid) (h.writer m.1 m.2) · m.2)
  rw [← hthread]
  conv_lhs => rw [ho.eq]
  rfl

/-- Content of one who is no member waits. -/
theorem Overtaken.wait (ho : Overtaken h h' now gid f q) {m : String × HeldGroupContent}
    (hmember : (h.groupMemberLabel gid (h.attributeDevice m.1)).isSome = false)
    (hroom : q.length < History.maxHeldGroupEvents) :
    Overtaken h (h'.apply C now (contentEvent gid m)) now gid f (q ++ [⟨h.attributeDevice m.1, now, m.2⟩]) := by
  have hdevice : h'.attributeDevice m.1 = h.attributeDevice m.1 := by
    rw [ho.eq]
    rfl
  have happly : h'.apply C now (contentEvent gid m) =
      h'.holdGroupContent gid (h.attributeDevice m.1) m.2 now := by
    rw [apply_content C h' now (groupContent_contentEvent gid m), hdevice, ho.label, if_pos]
    simpa [Option.isSome_eq_false_iff] using hmember
  have hpruned : (h'.pruneHeldGroupContent now).heldGroupContent.get gid =
      if q = [] then none else some q := by
    rw [get_prune, ho.held]
    by_cases hq : q = []
    · rw [if_pos hq]
      rfl
    · rw [if_neg hq, Option.bind_some, filter_fresh ho.times, if_neg (by simpa using hq)]
  have hwith : h'.heldWith gid (h.attributeDevice m.1) m.2 now =
      q ++ [⟨h.attributeDevice m.1, now, m.2⟩] := by
    unfold History.heldWith
    dsimp only
    rw [quarantined_prune, ho.quarantined, filter_fresh ho.times, if_neg (by omega)]
  have hsize : ((h'.pruneHeldGroupContent now).heldGroupContent.set gid
      (q ++ [⟨h.attributeDevice m.1, now, m.2⟩])).size ≤ 1 := by
    have hbefore : (h'.pruneHeldGroupContent now).heldGroupContent.size ≤ if q = [] then 0 else 1 :=
      le_trans (Table.size_filterMap_le _ _) ho.size
    by_cases hq : q = []
    · rw [if_pos hq] at hbefore
      have hset := Table.size_set_le (h'.pruneHeldGroupContent now).heldGroupContent gid
        (q ++ [⟨h.attributeDevice m.1, now, m.2⟩])
      omega
    · rw [if_neg hq] at hbefore hpruned
      rw [Table.size_set_old _ _ hpruned]
      exact hbefore
  -- one group is not too many
  have hheld : (h'.holdGroupContent gid (h.attributeDevice m.1) m.2 now).heldGroupContent =
      (h'.pruneHeldGroupContent now).heldGroupContent.set gid
      (q ++ [⟨h.attributeDevice m.1, now, m.2⟩]) := by
    have hcap : (h'.holdGroupContent gid (h.attributeDevice m.1) m.2 now).heldGroupContent =
        History.capHeld ((h'.pruneHeldGroupContent now).heldGroupContent.set gid
          (h'.heldWith gid (h.attributeDevice m.1) m.2 now)) := rfl
    have hlimit : (1 : ℕ) ≤ History.maxHeldGroupContentGroups := by decide
    rw [hcap, hwith]
    unfold History.capHeld
    rw [if_neg (by omega)]
  have hne : q ++ [(⟨h.attributeDevice m.1, now, m.2⟩ : HeldGroupEvent)] ≠ [] := by simp
  rw [happly]
  refine ⟨?_, ?_, ?_, ?_⟩
  · have hrest : h'.holdGroupContent gid (h.attributeDevice m.1) m.2 now =
        { h' with heldGroupContent := (h'.holdGroupContent gid (h.attributeDevice m.1) m.2 now).heldGroupContent } := rfl
    exact hrest.trans (congrArg (fun x : History => { x with
      heldGroupContent := (h'.holdGroupContent gid (h.attributeDevice m.1) m.2 now).heldGroupContent }) ho.eq)
  · rw [hheld, if_neg hne]
    exact hsize
  · rw [hheld, Table.get_set_self, if_neg hne]
  · intro e he
    rcases List.mem_append.mp he with hold | hnew
    · exact ho.times e hold
    · rw [List.mem_singleton.mp hnew]

theorem applyAll_snoc (h : History) (es : List InboundEvent) (e : InboundEvent) :
    h.applyAll C now (es ++ [e]) = (h.applyAll C now es).apply C now e := by
  unfold History.applyAll
  rw [List.foldl_append]
  rfl

end overtaken

/-- What content has come to before the epoch: the thread, if the group is there, and what waits. -/
abbrev RaceState := Option (List StoredMessage) × List HeldGroupEvent

/-- Content of a member, or our own, is written, and the rest waits. -/
def History.raceStep (h : History) (now : ℕ) (gid : String) (s : RaceState)
    (m : String × HeldGroupContent) : RaceState :=
  if (h.groupMemberLabel gid (h.attributeDevice m.1)).isSome then
    (s.1.map (renderIn now (h.groupTimer gid) (h.writer m.1 m.2) · m.2), s.2)
  else (s.1, s.2 ++ [⟨h.attributeDevice m.1, now, m.2⟩])

def History.raceRun (h : History) (now : ℕ) (gid : String) (ms : List (String × HeldGroupContent)) :
    RaceState :=
  Trace.run (h.raceStep now gid) (h.thread (.group gid), []) ms

section late

variable {C : Crypto} {now : ℕ} {h : History} {gid : String}

/-- The state before the epoch is the one that the race has come to. -/
theorem overtaken_run (C : Crypto) (now : ℕ) (gid : String) (hempty : h.heldGroupContent = ∅)
    (ms : List (String × HeldGroupContent)) (hlength : ms.length ≤ History.maxHeldGroupEvents) :
    ∃ f, Overtaken h (h.applyAll C now (ms.map (contentEvent gid))) now gid f (h.raceRun now gid ms).2 ∧
      (h.raceRun now gid ms).1 = (h.thread (.group gid)).map f ∧
      (h.raceRun now gid ms).2.length ≤ ms.length ∧
      ∀ e ∈ (h.raceRun now gid ms).2, ∃ m ∈ ms, e.sender = h.attributeDevice m.1 := by
  induction ms using List.reverseRecOn with
  | nil => exact ⟨fun msgs => msgs, Overtaken.start hempty now gid, Option.map_id'.symm, le_rfl, by simp [History.raceRun]⟩
  | append_singleton ms m ih =>
    rw [List.length_append, List.length_singleton] at hlength
    obtain ⟨f, ho, hthread, hlen, hsenders⟩ := ih (by omega)
    have hrun : h.raceRun now gid (ms ++ [m]) = h.raceStep now gid (h.raceRun now gid ms) m :=
      Trace.run_snoc _ _ ms m
    rw [List.map_append, List.map_singleton, applyAll_snoc, hrun]
    unfold History.raceStep
    cases hmember : (h.groupMemberLabel gid (h.attributeDevice m.1)).isSome with
    | true =>
      rw [if_pos rfl]
      refine ⟨_, ho.write hmember, ?_, ?_, ?_⟩
      · rw [hthread, Option.map_map]
        rfl
      · rw [List.length_append, List.length_singleton]
        exact Nat.le_succ_of_le hlen
      · intro e he
        obtain ⟨m', hm', heq⟩ := hsenders e he
        exact ⟨m', List.mem_append_left _ hm', heq⟩
    | false =>
      rw [if_neg (by simp)]
      refine ⟨f, ho.wait hmember (by omega), hthread, ?_, ?_⟩
      · rw [List.length_append, List.length_append, List.length_singleton, List.length_singleton]
        omega
      · intro e he
        rcases List.mem_append.mp he with hold | hnew
        · obtain ⟨m', hm', heq⟩ := hsenders e hold
          exact ⟨m', List.mem_append_left _ hm', heq⟩
        · rw [List.mem_singleton.mp hnew]
          exact ⟨m, by simp, rfl⟩

/-- Whether the gate takes an invite hangs on the contacts only. -/
theorem screenGroupInvite_taken (h : History) (convo : String) (invite : HeldInvite) :
    (h.screenGroupInvite convo invite now).1 = (!(!h.requestsEnabled || h.requestExempt convo) &&
      (h.contactByKey convo).all fun up => up.2.request.isSome) := by
  unfold History.screenGroupInvite
  cases hexempt : (!h.requestsEnabled || h.requestExempt convo) with
  | true => rfl
  | false =>
    rw [if_neg (by simp)]
    cases h.contactByKey convo <;> rfl

theorem Overtaken.screen {h' : History} {f : List StoredMessage → List StoredMessage}
    {q : List HeldGroupEvent} (ho : Overtaken h h' now gid f q) (sender : String)
    (epoch : GroupEpoch) (name : String) (secs : Option ℕ) (avatar : Option String) :
    (h'.screenRosterUpdate now sender epoch name secs avatar).1 =
      (h.screenRosterUpdate now sender epoch name secs avatar).1 := by
  have hknown : ∀ j, h'.hasGroup j = h.hasGroup j := by
    intro j
    have hthread := hasGroup_updateGroup h gid (fun g => { g with messages := f g.messages }) j
    rw [ho.eq]
    exact hthread
  have hinvite : ∀ convo invite, (h'.screenGroupInvite convo invite now).1 =
      (h.screenGroupInvite convo invite now).1 := by
    intro convo invite
    rw [screenGroupInvite_taken, screenGroupInvite_taken, ho.eq]
    rfl
  have hdevice : h'.attributeDevice sender = h.attributeDevice sender := by
    rw [ho.eq]
    rfl
  unfold History.screenRosterUpdate
  rw [hknown]
  split
  · rfl
  · rw [hinvite, hdevice]

theorem installed_isSome {h h' : History} {epoch : GroupEpoch}
    (hadmin : h'.groupAdmin epoch.groupId = h.groupAdmin epoch.groupId) :
    (h'.installed C epoch).isSome = (h.installed C epoch).isSome := by
  unfold History.installed
  rw [hadmin]
  cases h.groupAdmin epoch.groupId with
  | some pin =>
    dsimp only
    cases epoch.verifySuccession C pin.epochSeq pin.adminKey <;> rfl
  | none =>
    dsimp only
    cases epoch.validateBaseline C <;> rfl

/-- **The record of the group when the epoch comes behind the content.** -/
theorem record_late {h' : History} {f : List StoredMessage → List StoredMessage}
    {q : List HeldGroupEvent} {sender name : String} {epoch : GroupEpoch} {secs : Option ℕ}
    {avatar : Option String} (ho : Overtaken h h' now epoch.groupId f q)
    (hscreen : (h.screenRosterUpdate now sender epoch name secs avatar).1 = false)
    (hadopted : (h.installed C epoch).isSome = true)
    (hlists : ∀ e ∈ q, epoch.isMember e.sender = true) :
    (h'.apply C now (.groupRosterUpdate sender epoch name secs avatar)).groups.get epoch.groupId =
      some { h.recordAfter now epoch name secs avatar [] with
        messages := chipped now (h.raceChip epoch)
          (renderAll now (h.groupTimer epoch.groupId) q (((h.thread (.group epoch.groupId)).map f).getD [])) } := by
  have hfirst := ho.screen sender epoch name secs avatar
  have hcontacts := OnlyContacts.screenRosterUpdate h' now sender epoch name secs avatar
  rcases hs : h'.screenRosterUpdate now sender epoch name secs avatar with ⟨taken, s⟩
  rw [hs] at hfirst hcontacts
  have htaken : taken = false := hfirst.trans hscreen
  subst htaken
  have hs' : s = { h' with contacts := s.contacts } := hcontacts
  have hgroup : s.groups.get epoch.groupId =
      (h.groups.get epoch.groupId).map fun g => { g with messages := f g.messages } := by
    have hsame : s.groups = h'.groups := by rw [hs']
    rw [hsame, ho.eq]
    exact get_updateGroup h epoch.groupId _
  have hself : s.selfPrimaryKey = h.selfPrimaryKey := by
    have hsame : s.selfPrimaryKey = h'.selfPrimaryKey := by rw [hs']
    rw [hsame, ho.eq]
    rfl
  have hadmin : s.groupAdmin epoch.groupId = h.groupAdmin epoch.groupId := by
    unfold History.groupAdmin
    rw [hgroup]
    cases h.groups.get epoch.groupId <;> rfl
  obtain ⟨s', hi⟩ := Option.isSome_iff_exists.mp ((installed_isSome hadmin).trans hadopted)
  have hheld : s'.quarantined epoch.groupId = q := by
    have hsame : s'.heldGroupContent = h'.heldGroupContent := by
      rw [(installed_group hi).2, hs']
    rw [← ho.quarantined]
    unfold History.quarantined
    rw [hsame]
  have hrendered : s'.rendered epoch.groupId now = q := by
    have hpruned := quarantined_prune s' now epoch.groupId
    rw [hheld, filter_fresh ho.times] at hpruned
    unfold History.rendered
    unfold History.quarantined at hpruned
    rw [hpruned, List.filter_eq_self]
    exact fun e he => label_installed hi (hlists e he)
  have hrecord : (s.rosterUpdate C now epoch name secs avatar).groups.get epoch.groupId = _ :=
    record_rosterUpdate s hi name secs avatar
  rw [hrendered, recordAfter_eq epoch name secs avatar q hgroup hself] at hrecord
  unfold History.apply
  dsimp only
  rw [hs]
  exact hrecord

/-! ### The epoch before the content -/

theorem adoptCarried_groups (h : History) (gid name : String) (avatar : Option String)
    (secs : Option ℕ) :
    h.adoptCarried gid name avatar secs =
      { h with groups := (h.adoptCarried gid name avatar secs).groups } := by
  have hname : ∀ h : History, h.setGroupName gid name =
      { h with groups := (h.setGroupName gid name).groups } := by
    intro h
    unfold History.setGroupName
    split <;> rfl
  unfold History.adoptCarried
  dsimp only
  rw [hname]
  cases avatar <;> dsimp only <;> split <;> rfl

theorem noteMembership_groups (h : History) (epoch : GroupEpoch) (wasMember : Bool) :
    h.noteMembership now epoch wasMember =
      { h with groups := (h.noteMembership now epoch wasMember).groups } := by
  unfold History.noteMembership
  dsimp only
  split
  · rfl
  · split <;> rfl

/-- An epoch leaves the user's own account and devices alone. -/
theorem account_rosterUpdate (h : History) (epoch : GroupEpoch) (name : String) (secs : Option ℕ)
    (avatar : Option String) :
    (h.rosterUpdate C now epoch name secs avatar).selfPrimaryKey = h.selfPrimaryKey ∧
      (h.rosterUpdate C now epoch name secs avatar).deviceOwner = h.deviceOwner := by
  unfold History.rosterUpdate
  dsimp only
  rcases adopt_installed h now epoch (C := C) with ⟨-, err, heq⟩ | ⟨h', hi, heq⟩
  · rw [heq]
    exact ⟨rfl, rfl⟩
  · have hinstalled : h'.selfPrimaryKey = h.selfPrimaryKey ∧ h'.deviceOwner = h.deviceOwner := by
      unfold History.installed at hi
      split at hi
      · split at hi
        · cases hi
        · cases hi
          exact ⟨rfl, rfl⟩
      · split at hi
        · cases hi
        · cases hi
          exact ⟨rfl, rfl⟩
    rw [heq]
    cases (h.groupAdmin epoch.groupId).isSome with
    | true =>
      simp only [if_true]
      rw [noteMembership_groups, replay_eq]
      exact hinstalled
    | false =>
      simp only [Bool.false_eq_true, if_false]
      rw [adoptCarried_groups, replay_eq]
      exact hinstalled

theorem members_recordAfter (h : History) (epoch : GroupEpoch) (name : String) (secs : Option ℕ)
    (avatar : Option String) :
    (h.recordAfter now epoch name secs avatar []).members = membersFromEpoch epoch := by
  unfold History.recordAfter
  dsimp only
  cases h.groupAdmin epoch.groupId with
  | none => rfl
  | some pin =>
    dsimp only
    unfold GroupRecord.note
    split
    · rfl
    · split <;> rfl

/-- The timer that a group has when the epoch is in. -/
def History.raceTimer (h : History) (epoch : GroupEpoch) (secs : Option ℕ) : Option ℕ :=
  match h.groupAdmin epoch.groupId, secs with
  | some _, _ | none, none => h.groupTimer epoch.groupId
  | none, some 0 => none
  | none, some (n + 1) => some (n + 1)

theorem timer_recordAfter (h : History) (epoch : GroupEpoch) (name : String) (secs : Option ℕ)
    (avatar : Option String) :
    (h.recordAfter now epoch name secs avatar []).disappearingSecs = h.raceTimer epoch secs := by
  have htimer : ((h.groups.get epoch.groupId).getD {}).disappearingSecs =
      h.groupTimer epoch.groupId := by
    unfold History.groupTimer
    cases h.groups.get epoch.groupId <;> rfl
  unfold History.recordAfter History.raceTimer
  dsimp only
  cases h.groupAdmin epoch.groupId with
  | none =>
    cases secs with
    | none => exact htimer
    | some n => cases n <;> rfl
  | some pin =>
    dsimp only
    unfold GroupRecord.note
    split
    · exact htimer
    · split
      · exact htimer
      · exact htimer

section orders

variable {sender name : String} {epoch : GroupEpoch} {secs : Option ℕ} {avatar : Option String}

/-- The record of the group after the epoch alone. -/
theorem record_first (hempty : h.heldGroupContent = ∅)
    (hscreen : (h.screenRosterUpdate now sender epoch name secs avatar).1 = false)
    (hadopted : (h.installed C epoch).isSome = true) :
    (h.apply C now (.groupRosterUpdate sender epoch name secs avatar)).groups.get epoch.groupId =
      some { h.recordAfter now epoch name secs avatar [] with
        messages := chipped now (h.raceChip epoch) ((h.thread (.group epoch.groupId)).getD []) } := by
  have hrecord := record_late (Overtaken.start hempty now epoch.groupId) hscreen hadopted (by simp)
  rw [Option.map_id'] at hrecord
  exact hrecord

/-- **The record of the group when the epoch comes before the content.** -/
theorem record_early (hempty : h.heldGroupContent = ∅)
    (hscreen : (h.screenRosterUpdate now sender epoch name secs avatar).1 = false)
    (hadopted : (h.installed C epoch).isSome = true) {ms : List (String × HeldGroupContent)}
    (hlists : ∀ m ∈ ms, epoch.isMember (h.attributeDevice m.1) = true) :
    ((h.apply C now (.groupRosterUpdate sender epoch name secs avatar)).applyAll C now
        (ms.map (contentEvent epoch.groupId))).groups.get epoch.groupId =
      some { h.recordAfter now epoch name secs avatar [] with
        messages := h.written now (h.raceTimer epoch secs) ms
          (chipped now (h.raceChip epoch) ((h.thread (.group epoch.groupId)).getD [])) } := by
  have hfirst := record_first hempty hscreen hadopted
  have haccount :
      (h.apply C now (.groupRosterUpdate sender epoch name secs avatar)).selfPrimaryKey = h.selfPrimaryKey ∧
      (h.apply C now (.groupRosterUpdate sender epoch name secs avatar)).deviceOwner = h.deviceOwner := by
    have hcontacts := OnlyContacts.screenRosterUpdate h now sender epoch name secs avatar
    unfold History.apply
    dsimp only
    rcases hs : h.screenRosterUpdate now sender epoch name secs avatar with ⟨taken, s⟩
    rw [hs] at hcontacts hscreen
    have hs' : s = { h with contacts := s.contacts } := hcontacts
    have htaken : taken = false := hscreen
    subst htaken
    obtain ⟨hself, howner⟩ : (s.rosterUpdate C now epoch name secs avatar).selfPrimaryKey =
        s.selfPrimaryKey ∧ _ :=
      account_rosterUpdate s epoch name secs avatar
    refine ⟨hself.trans ?_, howner.trans ?_⟩
    · rw [hs']
    · rw [hs']
  generalize h.apply C now (.groupRosterUpdate sender epoch name secs avatar) = h' at hfirst haccount
  obtain ⟨hself, howner⟩ := haccount
  have hdevice : ∀ device, h'.attributeDevice device = h.attributeDevice device := by
    intro device
    unfold History.attributeDevice
    rw [howner]
  have hwriter : ∀ device content, h'.writer device content = h.writer device content := by
    intro device content
    unfold History.writer History.isOwnDevice
    rw [hdevice, hself, howner]
  have hmember :
      ∀ m ∈ ms, (h'.groupMemberLabel epoch.groupId (h'.attributeDevice m.1)).isSome = true := by
    intro m hm
    rw [hdevice]
    unfold History.groupMemberLabel
    split
    · rfl
    · rw [hfirst, Option.bind_some, Option.isSome_map, List.find?_isSome]
      have hin := hlists m hm
      unfold GroupEpoch.isMember at hin
      obtain ⟨x, hx, hkey⟩ := List.any_eq_true.mp hin
      refine ⟨⟨x.username, x.identityKey⟩, ?_, hkey⟩
      show _ ∈ (h.recordAfter now epoch name secs avatar []).members
      rw [members_recordAfter]
      exact List.mem_map.mpr ⟨x, hx, rfl⟩
  have htimer : h'.groupTimer epoch.groupId = h.raceTimer epoch secs := by
    unfold History.groupTimer
    rw [hfirst]
    exact timer_recordAfter h epoch name secs avatar
  have hthread := get_updateGroup h' epoch.groupId fun g =>
    { g with messages := h'.written now (h.raceTimer epoch secs) ms g.messages }
  rw [hfirst] at hthread
  rw [applyAll_members epoch.groupId ms h' hmember, htimer]
  refine hthread.trans ?_
  have hwritten : ∀ msgs, h'.written now (h.raceTimer epoch secs) ms msgs =
      h.written now (h.raceTimer epoch secs) ms msgs := by
    intro msgs
    unfold History.written
    simp only [hwriter]
  rw [Option.map_some, hwritten]

end orders

/-! ### Which orders agree -/

/-- The record of the group is the same, whichever comes first: the content or `event`. -/
def History.RaceLossless (C : Crypto) (now : ℕ) (h : History) (event : InboundEvent) (gid : String)
    (ms : List (String × HeldGroupContent)) : Prop :=
  ((h.applyAll C now (ms.map (contentEvent gid))).apply C now event).groups.get gid =
    ((h.apply C now event).applyAll C now (ms.map (contentEvent gid))).groups.get gid

/-- Content meets the timer and the chip that an epoch comes with. -/
def History.EpochMeets (h : History) (now : ℕ) (epoch : GroupEpoch) (secs : Option ℕ)
    (msgs : List StoredMessage) (m : String × HeldGroupContent) : Prop :=
  TimerFits now (h.groupTimer epoch.groupId) (h.raceTimer epoch secs) msgs m.2 ∧
    ∀ text ∈ h.raceChip epoch, ChipMeets now text (h.writer m.1 m.2) msgs m.2

/-- What content that comes before the epoch has to meet: if it waits, the timer and the chip;
if it is written, what waits besides; and if it is ours and the group is not
known, it says nothing. -/
def History.RaceFits (h : History) (now : ℕ) (epoch : GroupEpoch) (secs : Option ℕ) (s : RaceState)
    (m : String × HeldGroupContent) : Prop :=
  let old := h.groupTimer epoch.groupId
  let msgs := renderAll now old s.2 (s.1.getD [])
  if (h.groupMemberLabel epoch.groupId (h.attributeDevice m.1)).isSome then
    match s.1 with
    | none => renderIn now (h.raceTimer epoch secs) (h.writer m.1 m.2) msgs m.2 = msgs
    | some thread => renderAll now old s.2 (renderIn now old (h.writer m.1 m.2) thread m.2) =
        renderIn now old (h.writer m.1 m.2) msgs m.2 ∧ h.EpochMeets now epoch secs msgs m
  else h.EpochMeets now epoch secs msgs m

theorem raceChip_of_unknown {epoch : GroupEpoch}
    (hthread : h.thread (.group epoch.groupId) = none) :
    h.raceChip epoch = none := by
  have hgroup : h.groups.get epoch.groupId = none := by
    rw [thread_group] at hthread
    simpa using hthread
  unfold History.raceChip History.groupAdmin
  rw [hgroup]
  rfl

/-- Content can be put behind the chip, under the new timer, exactly if it meets both. -/
theorem epochMeets_iff (epoch : GroupEpoch) (secs : Option ℕ) (msgs : List StoredMessage)
    (m : String × HeldGroupContent) :
    chipped now (h.raceChip epoch) (renderIn now (h.groupTimer epoch.groupId) (h.writer m.1 m.2) msgs m.2) =
      renderIn now (h.raceTimer epoch secs) (h.writer m.1 m.2) (chipped now (h.raceChip epoch) msgs) m.2 ↔
    h.EpochMeets now epoch secs msgs m := by
  unfold History.EpochMeets
  cases hchip : h.raceChip epoch with
  | none =>
    rw [and_iff_left (by simp)]
    exact render_timer_iff now (h.groupTimer epoch.groupId) (h.raceTimer epoch secs)
      (h.writer m.1 m.2) m.2
  | some text =>
    -- a chip comes with an advance, which leaves the timer as it is
    have hsame : h.raceTimer epoch secs = h.groupTimer epoch.groupId := by
      unfold History.raceChip at hchip
      unfold History.raceTimer
      cases hadmin : h.groupAdmin epoch.groupId with
      | none =>
        rw [hadmin] at hchip
        cases hchip
      | some pin => rfl
    have hfits : TimerFits now (h.groupTimer epoch.groupId) (h.groupTimer epoch.groupId) msgs m.2 :=
      (render_timer_iff now _ _ (h.writer m.1 m.2) m.2).mp rfl
    rw [hsame, and_iff_right hfits]
    simp only [Option.mem_some_iff, forall_eq']
    exact render_chip_iff now (h.groupTimer epoch.groupId) (h.writer m.1 m.2) text m.2

section race

variable {sender name : String} {epoch : GroupEpoch} {secs : Option ℕ} {avatar : Option String}

/-- The two threads that the two orders come to. -/
def History.RaceMeets (h : History) (now : ℕ) (epoch : GroupEpoch) (secs : Option ℕ)
    (ms : List (String × HeldGroupContent)) (s : RaceState) : Prop :=
  chipped now (h.raceChip epoch) (renderAll now (h.groupTimer epoch.groupId) s.2 (s.1.getD [])) =
    h.written now (h.raceTimer epoch secs) ms
      (chipped now (h.raceChip epoch) ((h.thread (.group epoch.groupId)).getD []))

theorem raceLossless_iff (hempty : h.heldGroupContent = ∅)
    (hscreen : (h.screenRosterUpdate now sender epoch name secs avatar).1 = false)
    (hadopted : (h.installed C epoch).isSome = true) {ms : List (String × HeldGroupContent)}
    (hroom : ms.length ≤ History.maxHeldGroupEvents)
    (hlists : ∀ m ∈ ms, epoch.isMember (h.attributeDevice m.1) = true) :
    h.RaceLossless C now (.groupRosterUpdate sender epoch name secs avatar) epoch.groupId ms ↔
      h.RaceMeets now epoch secs ms (h.raceRun now epoch.groupId ms) := by
  obtain ⟨f, ho, hthread, -, hsenders⟩ := overtaken_run C now epoch.groupId hempty ms hroom
  have hlate := record_late ho hscreen hadopted fun e he => by
    obtain ⟨m, hm, heq⟩ := hsenders e he
    rw [heq]
    exact hlists m hm
  have hearly := record_early hempty hscreen hadopted hlists
  unfold History.RaceLossless History.RaceMeets
  rw [hlate, hearly, hthread, Option.some_inj, GroupRecord.mk.injEq]
  simp

theorem raceMeets_nil : h.RaceMeets now epoch secs [] (h.thread (.group epoch.groupId), []) := rfl

theorem writer_of_stranger {gid : String} {m : String × HeldGroupContent}
    (hlabel : (h.groupMemberLabel gid (h.attributeDevice m.1)).isSome = false) :
    h.writer m.1 m.2 = h.attributeDevice m.1 := by
  unfold History.writer
  split
  · rw [if_neg]
    intro hown
    rw [ownDevice_label hown] at hlabel
    cases hlabel
  · rfl

/-- Content that is written does not make a group. -/
theorem raceRun_known (gid : String) (ms : List (String × HeldGroupContent)) :
    (h.raceRun now gid ms).1.isSome = (h.thread (.group gid)).isSome := by
  unfold History.raceRun
  apply Trace.run_inv (I := fun s : RaceState => s.1.isSome = (h.thread (.group gid)).isSome)
  · intro s m hs
    unfold History.raceStep
    split
    · rw [Option.isSome_map]
      exact hs
    · exact hs
  · rfl

/-- One more event, where what comes before it agrees. -/
theorem raceMeets_snoc {ms : List (String × HeldGroupContent)} {m : String × HeldGroupContent}
    (hmeets : h.RaceMeets now epoch secs ms (h.raceRun now epoch.groupId ms)) :
    h.RaceMeets now epoch secs (ms ++ [m]) (h.raceStep now epoch.groupId (h.raceRun now epoch.groupId ms) m) ↔
      let s := h.raceStep now epoch.groupId (h.raceRun now epoch.groupId ms) m
      chipped now (h.raceChip epoch) (renderAll now (h.groupTimer epoch.groupId) s.2 (s.1.getD [])) =
        renderIn now (h.raceTimer epoch secs) (h.writer m.1 m.2)
          (chipped now (h.raceChip epoch) (renderAll now (h.groupTimer epoch.groupId)
            (h.raceRun now epoch.groupId ms).2 ((h.raceRun now epoch.groupId ms).1.getD []))) m.2 := by
  unfold History.RaceMeets at hmeets ⊢
  dsimp only
  rw [hmeets]
  unfold History.written
  rw [List.foldl_append]
  rfl

/-- **Content that meets the epoch agrees**, and where nothing waits that our own overtakes,
only such content does. -/
theorem raceMeets_step {ms : List (String × HeldGroupContent)} {m : String × HeldGroupContent}
    (hmeets : h.RaceMeets now epoch secs ms (h.raceRun now epoch.groupId ms)) :
    (h.RaceFits now epoch secs (h.raceRun now epoch.groupId ms) m →
      h.RaceMeets now epoch secs (ms ++ [m]) (h.raceStep now epoch.groupId (h.raceRun now epoch.groupId ms) m)) ∧
    (((h.groupMemberLabel epoch.groupId (h.attributeDevice m.1)).isSome = true →
        (h.raceRun now epoch.groupId ms).2 = []) →
      h.RaceMeets now epoch secs (ms ++ [m]) (h.raceStep now epoch.groupId (h.raceRun now epoch.groupId ms) m) →
        h.RaceFits now epoch secs (h.raceRun now epoch.groupId ms) m) := by
  have hknown : (h.raceRun now epoch.groupId ms).1.isSome = _ := raceRun_known epoch.groupId ms
  rw [raceMeets_snoc hmeets]
  generalize h.raceRun now epoch.groupId ms = s at hknown
  obtain ⟨thread, waiting⟩ := s
  unfold History.RaceFits History.raceStep
  dsimp only
  cases hlabel : (h.groupMemberLabel epoch.groupId (h.attributeDevice m.1)).isSome with
  | false =>
    -- it waits, and is written behind what waits already
    have hlast : renderAll now (h.groupTimer epoch.groupId)
        (waiting ++ [⟨h.attributeDevice m.1, now, m.2⟩]) (thread.getD []) =
        renderIn now (h.groupTimer epoch.groupId) (h.writer m.1 m.2)
          (renderAll now (h.groupTimer epoch.groupId) waiting (thread.getD [])) m.2 := by
      rw [writer_of_stranger hlabel]
      unfold renderAll
      rw [List.foldl_append]
      rfl
    simp only [Bool.false_eq_true, if_false]
    rw [hlast, epochMeets_iff]
    exact ⟨id, fun _ => id⟩
  | true =>
    simp only [if_true]
    cases thread with
    | none =>
      have hnone : h.thread (.group epoch.groupId) = none := by
        simpa using hknown.symm
      rw [raceChip_of_unknown hnone]
      exact ⟨Eq.symm, fun _ => Eq.symm⟩
    | some thread =>
      dsimp only [Option.map_some, Option.getD_some]
      constructor
      · rintro ⟨hover, hfits⟩
        rw [hover, epochMeets_iff]
        exact hfits
      · intro hnothing hsame
        rw [hnothing trivial] at hsame ⊢
        exact ⟨rfl, (epochMeets_iff epoch secs thread m).mp hsame⟩

/-- **The race of an add.** Of one event of content it does not matter whether it comes
before the epoch that lists its sender or behind it exactly if it meets the epoch
(`History.RaceFits`). Nor does it for a list of events each of which does; and where our own come
only as long as nothing waits, no other list has it for all its beginnings. -/
theorem add_race_iff (hempty : h.heldGroupContent = ∅)
    (hscreen : (h.screenRosterUpdate now sender epoch name secs avatar).1 = false)
    (hadopted : (h.installed C epoch).isSome = true) (ms : List (String × HeldGroupContent))
    (hroom : ms.length ≤ History.maxHeldGroupEvents)
    (hlists : ∀ m ∈ ms, epoch.isMember (h.attributeDevice m.1) = true) :
    (∀ m ∈ ms, h.RaceLossless C now (.groupRosterUpdate sender epoch name secs avatar) epoch.groupId [m] ↔
      h.RaceFits now epoch secs (h.thread (.group epoch.groupId), []) m) ∧
    (Trace.Along (h.raceStep now epoch.groupId) (h.RaceFits now epoch secs) (h.thread (.group epoch.groupId), []) ms →
      h.RaceLossless C now (.groupRosterUpdate sender epoch name secs avatar) epoch.groupId ms) ∧
    (Trace.Along (h.raceStep now epoch.groupId)
        (fun s m => (h.groupMemberLabel epoch.groupId (h.attributeDevice m.1)).isSome =
          true → s.2 = [])
        (h.thread (.group epoch.groupId), []) ms →
      (∀ pre, pre <+: ms →
        h.RaceLossless C now (.groupRosterUpdate sender epoch name secs avatar) epoch.groupId pre) →
      Trace.Along (h.raceStep now epoch.groupId) (h.RaceFits now epoch secs) (h.thread (.group epoch.groupId), []) ms) := by
  have hlossless : ∀ pre, pre <+: ms →
      (h.RaceLossless C now (.groupRosterUpdate sender epoch name secs avatar) epoch.groupId pre ↔
        h.RaceMeets now epoch secs pre (h.raceRun now epoch.groupId pre)) := fun pre hpre =>
    raceLossless_iff hempty hscreen hadopted (le_trans hpre.length_le hroom)
    fun m hm => hlists m (hpre.subset hm)
  refine ⟨fun m hm => ?_, fun hfits => ?_, fun hnothing hall => ?_⟩
  · have hone : [m].length ≤ History.maxHeldGroupEvents := by
      rw [List.length_singleton]
      decide
    have hnil : h.RaceMeets now epoch secs [] (h.raceRun now epoch.groupId []) := raceMeets_nil
    have hstep := raceMeets_step (m := m) hnil
    rw [raceLossless_iff hempty hscreen hadopted hone (by simpa using hlists m hm)]
    exact ⟨hstep.2 fun _ => rfl, hstep.1⟩
  · rw [hlossless ms (List.prefix_refl ms)]
    exact Trace.Along.inv_history (I := fun ms s => h.RaceMeets now epoch secs ms s) raceMeets_nil
      (fun ms m hmeets hm => (raceMeets_step hmeets).1 hm) hfits
  · rw [Trace.Along.iff_inv_history (I := fun ms s => h.RaceMeets now epoch secs ms s) raceMeets_nil
      (fun ms m hown hmeets => ⟨(raceMeets_step hmeets).2 hown, (raceMeets_step hmeets).1⟩) hnothing]
    exact fun pre hpre => (hlossless pre hpre).mp (hall pre hpre)

end race

end late

/-- A client of carol's, with a second device, who takes messages from everyone. -/
def carolAtHome : History :=
  { openMessaging := true, selfPrimaryKey := some familyCarol.identityKey
    deviceOwner := (∅ : Table String String).set "tablet" familyCarol.identityKey }

/-- Dave writes, and carol does on her second device. -/
def daveSaysHi : String × HeldGroupContent :=
  (familyDave.identityKey, .message "m1" "hi" 2001 none none false)

def carolSaysHi : String × HeldGroupContent :=
  ("tablet", .message "m2" "hello" 2001 none none false)

/-- The event that makes the group known to carol, with a timer. -/
def familyInvite (secs : Option ℕ) : InboundEvent :=
  .groupRosterUpdate familyBob.identityKey familyGenesis "Family" secs none

/-- What the thread of a group says, and until when. -/
def History.saidUntil (h : History) (gid : String) : Option (List (String × Option ℕ)) :=
  (h.thread (.group gid)).map (·.map fun m => (m.body, m.deleteAt))

/-- Dave's message stays for good if it comes first, and an hour if it comes second;
carol's own does not come through if it comes first. -/
theorem add_race_loses :
    carolAtHome.heldGroupContent = ∅ ∧
      (∀ secs, (carolAtHome.screenRosterUpdate 2002 familyBob.identityKey familyGenesis "Family" secs none).1 = false) ∧
      (carolAtHome.installed (sampleRelay familySigned).crypto familyGenesis).isSome = true ∧
      (∀ m ∈ [daveSaysHi, carolSaysHi], familyGenesis.isMember (carolAtHome.attributeDevice m.1) = true) ∧
      ¬ carolAtHome.RaceLossless (sampleRelay familySigned).crypto 2002 (familyInvite (some 3600)) "family" [daveSaysHi] ∧
      ¬ carolAtHome.RaceLossless (sampleRelay familySigned).crypto 2002 (familyInvite none) "family" [carolSaysHi] := by
  have hthread : ∀ {h h' : History}, h.groups.get "family" = h'.groups.get "family" →
      h.saidUntil "family" = h'.saidUntil "family" := by
    intro h h' hgroup
    unfold History.saidUntil
    rw [thread_group, thread_group, hgroup]
  refine ⟨rfl, fun _ => rfl, by decide +kernel, by decide, fun hsame => ?_, fun hsame => ?_⟩
  · have hsaid := hthread hsame
    revert hsaid
    decide +kernel
  · have hsaid := hthread hsame
    revert hsaid
    decide +kernel

theorem add_race_iff_dave :
    carolAtHome.RaceLossless (sampleRelay familySigned).crypto 2002 (familyInvite none) "family" [daveSaysHi] := by
  have hadopted : (carolAtHome.installed (sampleRelay familySigned).crypto familyGenesis).isSome =
      true := by decide +kernel
  have hlists : ∀ m ∈ [daveSaysHi], familyGenesis.isMember (carolAtHome.attributeDevice m.1) =
      true := by decide
  have hscreen :
      (carolAtHome.screenRosterUpdate 2002 familyBob.identityKey familyGenesis "Family" none none).1 = false :=
    rfl
  have hrace := add_race_iff rfl hscreen hadopted [daveSaysHi] (by decide) hlists
  refine (hrace.1 daveSaysHi (by simp)).mpr ?_
  unfold History.RaceFits
  rw [if_neg (by decide +kernel)]
  refine ⟨Or.inr rfl, ?_⟩
  rw [raceChip_of_unknown rfl]
  simp

end Sona
