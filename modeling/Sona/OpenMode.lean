/-
# Open mode

When requests are turned off, everyone who waits is accepted in the same breath
(`set_request_prefs`), one after the other in the order of a hash map; the order is a
parameter here, a permutation of the keys that wait. An acceptance moves the row to
the name that was claimed, and is refused if another row stands there. Two strangers
may claim one name, and one may claim the key of another who waits; then one of them
is refused, and waits on in a mode that shows no requests.

What a prefix of the order has done is in `Promoted`: the names it gave out, the keys it
left, and the chips it wrote. Nothing waits at the end exactly if each turn finds its
name free (`TurnsFree`), which is said of the rows before the first turn.

Key definitions: `History.openMode`, `History.claims`, `TurnFree`, `TurnsFree`, `NothingHidden`.
Key theorems: `acceptAll_keeps`, `promoted_step`, `promoted_of_free`, `namesFree_of_settled`,
`nothing_hidden_iff`.
-/
import Sona.Contacts
import Sona.AddRace

namespace Sona

open History (acceptedName acceptAllAdoptions)

namespace History

variable (h : History)

/-- The requests under the keys are accepted in this order. -/
def acceptAll (C : Crypto) (now : ℕ) (order : List String) : History :=
  order.foldl (fun h key => (h.acceptRequest C now key).2) h

/-- Requests are turned off, and those that wait are accepted in this order. -/
def openMode (C : Crypto) (now : ℕ) (allowText : Bool) (order : List String) : History :=
  { h with openMessaging := true, requestTextAllowed := allowText }.acceptAll C now order

def requestOf (key : String) : Option PendingRequest := (h.contacts.get key).bind (·.request)

/-- The name that the row under the key is accepted under. -/
def claims (key : String) : String :=
  match h.requestOf key with
  | some req => acceptedName req key
  | none => key

/-- The identity keys of the rows under the keys. -/
def peersOf (keys : List String) : List String :=
  keys.filterMap fun key => (h.contacts.get key).map (·.identityKey)

/-- The conversation with the chip of the acceptance. -/
def acceptedChat (now : ℕ) (convo : String) : Conversation :=
  let c := (h.conversations.get convo).getD {}
  { c with messages := recordChip c.messages "You accepted the message request" now }

end History

/-- At the turn of the key, after those in `pre`, its name is its own or no row stands there: nobody
was accepted under it, and whoever stood there before has left. -/
def TurnFree (h : History) (pre : List String) (key : String) : Prop :=
  h.claims key = key ∨ (h.claims key ∉ pre.map h.claims ∧ (h.claims key ∈ pre ∨ h.contacts.get (h.claims key) = none))

/-- Every turn finds its name free. -/
def TurnsFree (h : History) (order : List String) : Prop :=
  ∀ pre key post, order = pre ++ key :: post → TurnFree h pre key

/-- Open mode leaves nothing hidden. -/
structure NothingHidden (C : Crypto) (now : ℕ) (allowText : Bool) (order : List String)
    (h : History) : Prop where
  settled : ∀ key pin, (h.openMode C now allowText order).contacts.get key = some pin →
    pin.request = none
  count : (h.openMode C now allowText order).contacts.size = h.contacts.size
  held : ∀ key req inv, h.requestOf key = some req → inv ∈ req.invites →
    (∀ err, (h.adoptGroupEpoch C now inv.epoch).1 ≠ .refused err) →
    (h.openMode C now allowText order).hasGroup inv.epoch.groupId = true
  adopted : ∀ a ∈ acceptAllAdoptions C now order { h with openMessaging := true, requestTextAllowed := allowText },
    (h.openMode C now allowText order).hasGroup a.epoch.groupId = true
  chats : ∀ convo, (h.openMode C now allowText order).conversations.get convo =
    if convo ∈ h.peersOf h.pendingKeys then some (h.acceptedChat now convo) else h.conversations.get convo

theorem mem_pendingKeys {h : History} {key : String} :
    key ∈ h.pendingKeys ↔ (h.requestOf key).isSome = true := by
  unfold History.pendingKeys History.requestOf
  rw [List.mem_map]
  constructor
  · rintro ⟨e, he, rfl⟩
    obtain ⟨hmem, hreq⟩ := List.mem_filter.mp he
    rw [show h.contacts.get e.1 = some e.2 from AList.mem_lookup_iff.mpr hmem]
    exact hreq
  · intro hreq
    cases hget : h.contacts.get key with
    | none => simp [hget] at hreq
    | some pin =>
      rw [hget] at hreq
      exact ⟨⟨key, pin⟩, List.mem_filter.mpr ⟨AList.mem_lookup_iff.mp hget, hreq⟩, rfl⟩

theorem pendingKeys_of_settled {h : History}
    (hs : ∀ key pin, h.contacts.get key = some pin → pin.request = none) :
    h.pendingKeys = [] := by
  refine List.eq_nil_iff_forall_not_mem.mpr fun key hkey => ?_
  obtain ⟨req, hreq⟩ := Option.isSome_iff_exists.mp (mem_pendingKeys.mp hkey)
  obtain ⟨pin, hget, hpin⟩ := Option.bind_eq_some_iff.mp hreq
  rw [hs key pin hget] at hpin
  cases hpin

theorem pendingKeys_nodup (h : History) : h.pendingKeys.Nodup :=
  List.Nodup.sublist (List.filter_sublist.map _) h.contacts.nodupKeys

/-! ### One request -/

section one

variable {C : Crypto} {now : ℕ} {h : History} {key : String} {pin : ContactPin}
  {req : PendingRequest}

theorem conversations_invites : ∀ (invs : List HeldInvite) (h : History),
    (invs.foldl (fun h inv => h.acceptInvite C now inv) h).conversations = h.conversations
  | [], _ => rfl
  | inv :: invs, h => by
    have hcarried : ∀ (h : History) gid name avatar secs,
        (h.adoptCarried gid name avatar secs).conversations = h.conversations := by
      intro h gid name avatar secs
      have hname : (h.setGroupName gid name).conversations = h.conversations := by
        unfold History.setGroupName
        split <;> rfl
      unfold History.adoptCarried
      dsimp only
      cases avatar <;> dsimp only <;> split <;> exact hname
    have hone : (h.acceptInvite C now inv).conversations = h.conversations := by
      obtain ⟨_, _, hframe⟩ := adopt_frame h C now inv.epoch
      have hadopt : (h.adoptGroupEpoch C now inv.epoch).2.conversations = h.conversations := by
        rw [hframe]
      unfold History.acceptInvite
      split
      · rename_i heq
        rw [heq] at hadopt
        exact hadopt
      · rename_i heq
        rw [heq] at hadopt
        exact (hcarried _ _ _ _ _).trans hadopt
    exact (conversations_invites invs _).trans hone

theorem promote_of_free (hget : h.contacts.get key = some pin) (hreq : pin.request = some req)
    (hfree : acceptedName req key = key ∨ h.contacts.get (acceptedName req key) = none) :
    h.promote key = some (req, pin.identityKey,
      { h with contacts := (h.contacts.remove key).set (acceptedName req key) { pin with request := none } }) := by
  unfold History.promote
  rw [hget]
  dsimp only
  rw [hreq]
  dsimp only
  rw [if_neg]
  rintro ⟨hne, htaken⟩
  rcases hfree with hown | hnone
  · exact hne hown
  · rw [hnone] at htaken
    cases htaken

variable (C now) in
/-- A request whose name is free moves its row, and leaves a chip. -/
theorem acceptRequest_of_free (hget : h.contacts.get key = some pin) (hreq : pin.request = some req)
    (hfree : acceptedName req key = key ∨ h.contacts.get (acceptedName req key) = none) :
    (h.acceptRequest C now key).2.contacts =
        (h.contacts.remove key).set (acceptedName req key) { pin with request := none } ∧
      (h.acceptRequest C now key).2.conversations =
        h.conversations.set pin.identityKey (h.acceptedChat now pin.identityKey) := by
  unfold History.acceptRequest
  rw [promote_of_free hget hreq hfree]
  refine ⟨contacts_invites C now req.invites _, ?_⟩
  dsimp only
  unfold History.recordSystem History.intoConversation History.acceptedChat
  dsimp only
  rw [conversations_invites]

variable (C now) in
/-- A request whose name is taken waits on. -/
theorem acceptRequest_of_taken (hget : h.contacts.get key = some pin)
    (hreq : pin.request = some req) (hne : acceptedName req key ≠ key)
    (htaken : (h.contacts.get (acceptedName req key)).isSome = true) :
    h.acceptRequest C now key = (false, h) := by
  unfold History.acceptRequest History.promote
  rw [hget]
  dsimp only
  rw [hreq]
  dsimp only
  rw [if_pos ⟨hne, htaken⟩]

theorem acceptRequest_of_settled (hreq : h.requestOf key = none) :
    h.acceptRequest C now key = (false, h) := by
  unfold History.requestOf at hreq
  unfold History.acceptRequest History.promote
  cases hget : h.contacts.get key with
  | none => rfl
  | some pin =>
    rw [hget] at hreq
    dsimp only
    rw [show pin.request = none from hreq]

/-- Whatever the request, it is refused or its row moves. -/
theorem acceptRequest_cases (C : Crypto) (now : ℕ) (h : History) (key : String) :
    h.acceptRequest C now key = (false, h) ∨
    ∃ pin req, h.contacts.get key = some pin ∧ pin.request = some req ∧
      (acceptedName req key = key ∨ h.contacts.get (acceptedName req key) = none) := by
  cases hreq : h.requestOf key with
  | none => exact .inl (acceptRequest_of_settled hreq)
  | some req =>
    obtain ⟨pin, hget, hreq⟩ := Option.bind_eq_some_iff.mp hreq
    by_cases hown : acceptedName req key = key
    · exact .inr ⟨pin, req, hget, hreq, .inl hown⟩
    · cases hname : h.contacts.get (acceptedName req key) with
      | none => exact .inr ⟨pin, req, hget, hreq, .inr hname⟩
      | some q => exact .inl (acceptRequest_of_taken C now hget hreq hown (by rw [hname]; rfl))

variable (C now) in
/-- **The row of another key stays.** -/
theorem acceptRequest_keeps {k : String} {v : ContactPin} (hk : k ≠ key)
    (hv : h.contacts.get k = some v) :
    (h.acceptRequest C now key).2.contacts.get k = some v := by
  rcases acceptRequest_cases C now h key with heq | ⟨pin, req, hget, hreq, hfree⟩
  · rw [heq]
    exact hv
  · have hne : k ≠ acceptedName req key := by
      rintro rfl
      rcases hfree with hown | hnone
      · exact hk hown
      · rw [hv] at hnone
        cases hnone
    rw [(acceptRequest_of_free C now hget hreq hfree).1, Table.get_set_ne _ _ hne,
      Table.get_remove_ne _ hk, hv]

/-- **No contact is lost or added.** -/
theorem size_acceptRequest (C : Crypto) (now : ℕ) (h : History) (key : String) :
    (h.acceptRequest C now key).2.contacts.size = h.contacts.size := by
  rcases acceptRequest_cases C now h key with heq | ⟨pin, req, hget, hreq, hfree⟩
  · rw [heq]
  · have hnone : (h.contacts.remove key).get (acceptedName req key) = none := by
      by_cases hown : acceptedName req key = key
      · rw [hown, Table.get_remove_self]
      · rw [Table.get_remove_ne _ hown]
        exact hfree.resolve_left hown
    rw [(acceptRequest_of_free C now hget hreq hfree).1, Table.size_set_new _ _ hnone]
    exact Table.size_remove_of_some _ hget

end one

/-! ### The requests in an order -/

section order

variable {C : Crypto} {now : ℕ} {h : History}

theorem acceptAll_append (pre post : List String) (h : History) :
    h.acceptAll C now (pre ++ post) = (h.acceptAll C now pre).acceptAll C now post :=
  List.foldl_append ..

theorem size_acceptAll : ∀ (order : List String) (h : History),
    (h.acceptAll C now order).contacts.size = h.contacts.size
  | [], _ => rfl
  | key :: order, h => (size_acceptAll order _).trans (size_acceptRequest C now h key)

/-- **A row whose turn does not come stays.** -/
theorem acceptAll_keeps {k : String} {v : ContactPin} :
    ∀ (order : List String) {h : History}, k ∉ order →
    h.contacts.get k = some v → (h.acceptAll C now order).contacts.get k = some v
  | [], _, _, hv => hv
  | key :: order, h, hk, hv => by
    have hstep := acceptRequest_keeps C now (List.ne_of_not_mem_cons hk) hv
    exact acceptAll_keeps order (List.not_mem_of_not_mem_cons hk) hstep

theorem TurnsFree.front {pre post : List String} (hfree : TurnsFree h (pre ++ post)) :
    TurnsFree h pre := by
  intro a k b hab
  exact hfree a k (b ++ post) (by rw [hab]; simp)

theorem turnsFree_concat {pre : List String} {key : String} :
    TurnsFree h (pre ++ [key]) ↔ TurnsFree h pre ∧ TurnFree h pre key := by
  constructor
  · intro hfree
    exact ⟨hfree.front, hfree pre key [] rfl⟩
  · rintro ⟨hpre, hkey⟩ a k b hab
    rcases List.eq_nil_or_concat b with rfl | ⟨b, l, rfl⟩
    · obtain ⟨rfl, hk⟩ := List.append_inj' hab rfl
      cases hk
      exact hkey
    · have hinit : pre ++ [key] = (a ++ k :: b) ++ [l] := by
        rw [hab]
        simp
      exact hpre a k b (List.append_inj' hinit rfl).1

theorem claims_of_request {key : String} {req : PendingRequest}
    (hreq : h.requestOf key = some req) :
    h.claims key = acceptedName req key := by
  unfold History.claims
  rw [hreq]

/-- No free turn gives out the key of a row that is still to come. -/
theorem claims_ne {pre : List String} (hfree : TurnsFree h pre) {k : String} (hk : k ∉ pre)
    (hrow : (h.contacts.get k).isSome = true) : k ∉ pre.map h.claims := by
  intro hmem
  obtain ⟨q, hq, hname⟩ := List.mem_map.mp hmem
  obtain ⟨a, b, hab⟩ := List.append_of_mem hq
  rcases hfree a q b hab with hown | ⟨-, hin | hnone⟩
  · exact hk (by rw [← hname, hown]; exact hq)
  · exact hk (by rw [hab, ← hname]; exact List.mem_append_left _ hin)
  · rw [← hname, hnone] at hrow
    cases hrow

/-- What the turns of `pre` have made of the rows and the conversations. -/
structure Promoted (now : ℕ) (h : History) (pre : List String) (h' : History) : Prop where
  named : ∀ key ∈ pre, ∃ pin, h'.contacts.get (h.claims key) = some pin ∧ pin.request = none
  left : ∀ k ∈ pre, k ∉ pre.map h.claims → h'.contacts.get k = none
  other : ∀ k, k ∉ pre → k ∉ pre.map h.claims → h'.contacts.get k = h.contacts.get k
  chats : ∀ convo, h'.conversations.get convo =
    if convo ∈ h.peersOf pre then some (h.acceptedChat now convo) else h.conversations.get convo

/-- A second chip says nothing new. -/
theorem recordChip_twice (msgs : List StoredMessage) (text : String) (at_ : ℕ) :
    recordChip (recordChip msgs text at_) text at_ = recordChip msgs text at_ := by
  cases hlast : saysLast msgs text with
  | true => rw [recordChip_of_said hlast, recordChip_of_said hlast]
  | false =>
    rw [recordChip_of_new hlast]
    refine recordChip_of_said ?_
    simp [saysLast, chip]

theorem Promoted.start : Promoted now h [] h where
  named := by simp
  left := by simp
  other _ _ _ := rfl
  chats _ := rfl

/-- A free turn finds the row as it was, and its name free. -/
theorem Promoted.turn {pre : List String} {h' : History} (hp : Promoted now h pre h')
    (hfree : TurnsFree h pre) {key : String} (hkey : key ∉ pre) {req : PendingRequest}
    (hreq : h.requestOf key = some req) (hturn : TurnFree h pre key) :
    ∃ pin, h.contacts.get key = some pin ∧ pin.request = some req ∧
      h'.contacts.get key = some pin ∧
      (acceptedName req key = key ∨ h'.contacts.get (acceptedName req key) = none) := by
  have hclaims := claims_of_request hreq
  obtain ⟨pin, hget, hreq⟩ := Option.bind_eq_some_iff.mp hreq
  have hfresh : key ∉ pre.map h.claims := claims_ne hfree hkey (by rw [hget]; rfl)
  refine ⟨pin, hget, hreq, (hp.other key hkey hfresh).trans hget, ?_⟩
  rw [← hclaims]
  refine hturn.imp_right fun ⟨hgiven, hfree⟩ => ?_
  by_cases hin : h.claims key ∈ pre
  · exact hp.left _ hin hgiven
  · rw [hp.other _ hin hgiven]
    exact hfree.resolve_left hin

/-- **A free turn** goes through. -/
theorem promoted_step {pre : List String} {h' : History} (hp : Promoted now h pre h')
    (hfree : TurnsFree h pre) {key : String} (hkey : key ∉ pre)
    (hwaits : (h.requestOf key).isSome = true) (hturn : TurnFree h pre key) :
    Promoted now h (pre ++ [key]) (h'.acceptRequest C now key).2 := by
  obtain ⟨req, hreq⟩ := Option.isSome_iff_exists.mp hwaits
  have hclaims := claims_of_request hreq
  obtain ⟨pin, hget, hpin, hget', hfree'⟩ := hp.turn hfree hkey hreq hturn
  have hfresh : key ∉ pre.map h.claims := claims_ne hfree hkey (by rw [hget]; rfl)
  have hgiven : h.claims key ∉ pre.map h.claims := by
    rcases hturn with hown | ⟨hgiven, -⟩
    · rwa [hown]
    · exact hgiven
  obtain ⟨hcontacts, hchats⟩ := acceptRequest_of_free C now hget' hpin hfree'
  rw [← hclaims] at hcontacts
  have hother : ∀ {k}, k ≠ h.claims key → k ≠ key →
      (h'.acceptRequest C now key).2.contacts.get k = h'.contacts.get k := by
    intro k hname hk
    rw [hcontacts, Table.get_set_ne _ _ hname, Table.get_remove_ne _ hk]
  constructor
  · intro q hq
    rcases List.mem_append.mp hq with hq | hq
    · have hmem := List.mem_map_of_mem (f := h.claims) hq
      rw [hother (ne_of_mem_of_not_mem hmem hgiven) (ne_of_mem_of_not_mem hmem hfresh)]
      exact hp.named q hq
    · rw [List.mem_singleton.mp hq, hcontacts]
      exact ⟨_, Table.get_set_self _ _ _, rfl⟩
  · intro k hk hout
    rw [List.map_append, List.mem_append, not_or] at hout
    have hname : k ≠ h.claims key := fun heq => hout.2 (by simp [heq])
    by_cases heq : k = key
    · rw [hcontacts, Table.get_set_ne _ _ hname, heq, Table.get_remove_self]
    · rw [hother hname heq]
      exact hp.left k ((List.mem_append.mp hk).resolve_right (by simpa using heq)) hout.1
  · intro k hk hout
    rw [List.map_append, List.mem_append, not_or] at hout
    rw [List.mem_append, not_or] at hk
    rw [hother (fun heq => hout.2 (by simp [heq])) (fun heq => hk.2 (by simp [heq]))]
    exact hp.other k hk.1 hout.1
  · intro convo
    have hpeers : h.peersOf (pre ++ [key]) = h.peersOf pre ++ [pin.identityKey] := by
      unfold History.peersOf
      rw [List.filterMap_append, List.filterMap_cons, hget]
      rfl
    rw [hchats, hpeers, Table.get_set]
    by_cases heq : convo = pin.identityKey
    · rw [if_pos heq, if_pos (List.mem_append_right _ (by simp [heq])), ← heq]
      congr 1
      unfold History.acceptedChat
      rw [hp.chats convo]
      split
      · unfold History.acceptedChat
        dsimp only [Option.getD_some]
        rw [recordChip_twice]
      · rfl
    · rw [if_neg heq, hp.chats convo]
      refine if_congr ?_ rfl rfl
      rw [List.mem_append, List.mem_singleton, or_iff_left heq]

variable (C now) in
/-- **Free turns** all go through. -/
theorem promoted_of_free (order : List String) (hnodup : order.Nodup)
    (hwaits : ∀ key ∈ order, (h.requestOf key).isSome = true) (hfree : TurnsFree h order) :
    Promoted now h order (h.acceptAll C now order) := by
  induction order using List.reverseRecOn with
  | nil => exact Promoted.start
  | append_singleton pre key ih =>
    obtain ⟨hpre, hturn⟩ := turnsFree_concat.mp hfree
    obtain ⟨hnodup, -, hout⟩ := List.nodup_append.mp hnodup
    have hp := ih hnodup (fun k hk => hwaits k (List.mem_append_left _ hk)) hpre
    have hkey : key ∉ pre := fun hin => hout key hin key List.mem_cons_self rfl
    rw [acceptAll_append]
    exact promoted_step hp hpre hkey (hwaits key (List.mem_append_right _ List.mem_cons_self)) hturn

/-- **If nobody waits at the end**, every turn was free: the first that was not
is refused, and its row stays. -/
theorem turnsFree_of_settled {order : List String} (hnodup : order.Nodup)
    (hwaits : ∀ key ∈ order, (h.requestOf key).isSome = true)
    (hsettled : ∀ key pin, (h.acceptAll C now order).contacts.get key = some pin → pin.request = none) :
    ∀ pre post, order = pre ++ post → TurnsFree h pre := by
  intro pre
  induction pre using List.reverseRecOn with
  | nil =>
    intro _ _ a k b hab
    simp at hab
  | append_singleton pre key ih =>
    intro post horder
    rw [List.append_assoc, List.singleton_append] at horder
    have hpre := ih _ horder
    refine turnsFree_concat.mpr ⟨hpre, ?_⟩
    rw [horder] at hnodup hwaits hsettled
    obtain ⟨hnodup, hpost, hout⟩ := List.nodup_append.mp hnodup
    have hkey : key ∉ pre := fun hin => hout key hin key List.mem_cons_self rfl
    have hp := promoted_of_free C now pre hnodup
      (fun k hk => hwaits k (List.mem_append_left _ hk)) hpre
    obtain ⟨req, hreq⟩ := Option.isSome_iff_exists.mp (hwaits key (List.mem_append_right _ List.mem_cons_self))
    have hclaims := claims_of_request hreq
    obtain ⟨pin, hget, hreq⟩ := Option.bind_eq_some_iff.mp hreq
    have hfresh : key ∉ pre.map h.claims := claims_ne hpre hkey (by rw [hget]; rfl)
    have hget' : (h.acceptAll C now pre).contacts.get key = some pin :=
      (hp.other key hkey hfresh).trans hget
    by_cases hown : h.claims key = key
    · exact .inl hown
    -- a row under the name would keep this one waiting
    have hnone : (h.acceptAll C now pre).contacts.get (h.claims key) = none := by
      by_contra htaken
      have hrefused := acceptRequest_of_taken C now hget' hreq (by rwa [← hclaims])
        (by rw [← hclaims]; exact Option.isSome_iff_ne_none.mpr htaken)
      have hstays : (h.acceptAll C now (pre ++ key :: post)).contacts.get key = some pin := by
        rw [acceptAll_append]
        refine acceptAll_keeps post (List.nodup_cons.mp hpost).1 ?_
        exact (congrArg (·.2.contacts.get key) hrefused).trans hget'
      rw [hsettled key pin hstays] at hreq
      cases hreq
    have hgiven : h.claims key ∉ pre.map h.claims := by
      intro hin
      obtain ⟨q, hq, hname⟩ := List.mem_map.mp hin
      obtain ⟨p, hp', -⟩ := hp.named q hq
      rw [hname, hnone] at hp'
      cases hp'
    refine .inr ⟨hgiven, ?_⟩
    by_cases hin : h.claims key ∈ pre
    · exact .inl hin
    · exact .inr ((hp.other _ hin hgiven).symm.trans hnone)

end order

/-! ### The groups of the invites -/

section groups

variable {C : Crypto} {now : ℕ} {h : History}

/-- Adoptions keep the groups that are there. -/
theorem GroupMoves.hasGroup {gid : String} {as : List Adoption} {h' : History}
    (hm : GroupMoves C gid h as h') (hg : h.hasGroup gid = true) : h'.hasGroup gid = true := by
  obtain ⟨r, hr⟩ := roster_of_hasGroup hg
  unfold GroupMoves at hm
  rw [hr] at hm
  obtain ⟨r', hr', -⟩ := Pinned.Moves.grows (fun _ _ => True) (fun _ _ _ _ _ => trivial)
    (fun _ _ _ => trivial)
    (fun _ _ _ _ => trivial) hm
  exact hasGroup_of_roster ⟨r', hr'⟩

/-- The group of an adoption is there at the end. -/
theorem GroupMoves.adopted {as : List Adoption} {a : Adoption} {h' : History} (ha : a ∈ as)
    (hm : GroupMoves C a.epoch.groupId h as h') : h'.hasGroup a.epoch.groupId = true := by
  have hmem : a ∈ ofGroup a.epoch.groupId as := List.mem_filter.mpr ⟨ha, by simp⟩
  obtain ⟨r', hr', -⟩ := Pinned.Moves.reaches (fun _ _ => True) (fun _ _ _ _ _ => trivial)
    (fun _ _ _ => trivial)
    (fun _ _ _ _ => trivial) hm hmem
  exact hasGroup_of_roster ⟨r', hr'⟩

/-- An epoch that is not refused finds its group, or could found it. -/
theorem hasGroup_or_baseline {e : GroupEpoch}
    (hok : ∀ err, (h.adoptGroupEpoch C now e).1 ≠ .refused err) :
    h.hasGroup e.groupId = true ∨ e.validateBaseline C = .ok () := by
  cases hadmin : h.groupAdmin e.groupId with
  | some pin =>
    obtain ⟨g, hg, -⟩ := groupAdmin_some hadmin
    left
    unfold History.hasGroup
    rw [hg]
    rfl
  | none =>
    right
    cases hbase : e.validateBaseline C with
    | ok => rfl
    | error err =>
      refine absurd ?_ (hok err)
      unfold History.adoptGroupEpoch
      rw [hadmin]
      dsimp only
      rw [hbase]

/-- Then its group is there after its turn, whenever that comes. -/
theorem hasGroup_acceptInvite {inv : HeldInvite} (hbase : inv.epoch.validateBaseline C = .ok ()) :
    (h.acceptInvite C now inv).hasGroup inv.epoch.groupId = true := by
  cases hgroup : h.hasGroup inv.epoch.groupId with
  | true => exact (moves_acceptInvite h now inv).hasGroup hgroup
  | false =>
    have hadmin : h.groupAdmin inv.epoch.groupId = none := by
      cases hp : h.groupAdmin inv.epoch.groupId with
      | none => rfl
      | some pin =>
        obtain ⟨g, hg, -⟩ := groupAdmin_some hp
        unfold History.hasGroup at hgroup
        rw [hg] at hgroup
        cases hgroup
    have hlog : (⟨h.roster inv.epoch.groupId, inv.epoch⟩ : Adoption) ∈ h.adoptions C now inv.epoch := by
      unfold History.adoptions History.adoptGroupEpoch
      rw [hadmin]
      dsimp only
      rw [hbase]
      exact List.mem_singleton.mpr rfl
    exact GroupMoves.adopted hlog (moves_acceptInvite h now inv)

theorem hasGroup_invites {inv : HeldInvite} (hbase : inv.epoch.validateBaseline C = .ok ())
    {invs : List HeldInvite} (hin : inv ∈ invs) (h : History) :
    (invs.foldl (fun h inv => h.acceptInvite C now inv) h).hasGroup inv.epoch.groupId = true := by
  induction invs generalizing h with
  | nil => cases hin
  | cons first invs ih =>
    rcases List.mem_cons.mp hin with rfl | hin
    · exact (moves_invites now invs _).hasGroup (hasGroup_acceptInvite hbase)
    · exact ih hin _

/-- Free turns let every invite that could found its group do so. -/
theorem hasGroup_acceptAll {order : List String} (hnodup : order.Nodup)
    (hwaits : ∀ key ∈ order, (h.requestOf key).isSome = true) (hfree : TurnsFree h order)
    {key : String} (hkey : key ∈ order) {req : PendingRequest} (hreq : h.requestOf key = some req)
    {inv : HeldInvite} (hinv : inv ∈ req.invites) (hbase : inv.epoch.validateBaseline C = .ok ()) :
    (h.acceptAll C now order).hasGroup inv.epoch.groupId = true := by
  obtain ⟨pre, post, rfl⟩ := List.append_of_mem hkey
  obtain ⟨hpre, hpost, hout⟩ := List.nodup_append.mp hnodup
  have hkey : key ∉ pre := fun hin => hout key hin key List.mem_cons_self rfl
  have hp := promoted_of_free C now pre hpre
    (fun k hk => hwaits k (List.mem_append_left _ hk)) hfree.front
  obtain ⟨pin, -, hpin, hget, hname⟩ := hp.turn hfree.front hkey hreq (hfree pre key post rfl)
  have hturn : ((h.acceptAll C now pre).acceptRequest C now key).2.hasGroup inv.epoch.groupId = true := by
    unfold History.acceptRequest
    rw [promote_of_free hget hpin hname]
    exact hasGroup_invites hbase hinv _
  rw [acceptAll_append]
  exact (moves_acceptAll now post _).hasGroup hturn

end groups

/-! ### Nothing hidden -/

/-- **Open mode leaves nothing hidden** exactly if every turn finds its name
free, for every order of the turns. -/
theorem nothing_hidden_iff (C : Crypto) (now : ℕ) (allowText : Bool) (h : History)
    (order : List String) (horder : order.Perm h.pendingKeys) :
    h.setRequestPrefs C now false allowText = h.openMode C now allowText h.pendingKeys ∧
      (NothingHidden C now allowText order h ↔ TurnsFree h order) := by
  refine ⟨rfl, ?_⟩
  have hnodup : order.Nodup := horder.nodup_iff.mpr (pendingKeys_nodup h)
  have hmem : ∀ key, key ∈ order ↔ (h.requestOf key).isSome = true :=
    fun key => horder.mem_iff.trans mem_pendingKeys
  -- the settings are no part of what the turns read
  set h₀ : History := { h with openMessaging := true, requestTextAllowed := allowText } with hh₀
  have hturns : TurnsFree h₀ order ↔ TurnsFree h order := Iff.rfl
  constructor
  · intro hn
    exact turnsFree_of_settled (h := h₀) hnodup
      (fun key hk => (hmem key).mp hk) hn.settled order [] (by simp)
  · intro hfree
    have hp : Promoted now h₀ order (h₀.acceptAll C now order) :=
      promoted_of_free C now order hnodup (fun key hk => (hmem key).mp hk) (hturns.mpr hfree)
    constructor
    · intro k pin hget
      by_cases hgiven : k ∈ order.map h.claims
      · obtain ⟨key, hkey, rfl⟩ := List.mem_map.mp hgiven
        obtain ⟨pin', hpin', hnone⟩ := hp.named key hkey
        cases hget.symm.trans hpin'
        exact hnone
      · by_cases hk : k ∈ order
        · cases hget.symm.trans (hp.left k hk hgiven)
        · have hsettled := (hmem k).not.mp hk
          unfold History.requestOf at hsettled
          rw [show h.contacts.get k = some pin from (hp.other k hk hgiven).symm.trans hget] at hsettled
          exact Option.not_isSome_iff_eq_none.mp hsettled
    · exact size_acceptAll order h₀
    · intro key req inv hreq hinv hok
      rcases hasGroup_or_baseline hok with hgroup | hbase
      · exact (moves_acceptAll now order h₀).hasGroup hgroup
      · have hkey : key ∈ order := (hmem key).mpr (by rw [hreq]; rfl)
        exact hasGroup_acceptAll (h := h₀) hnodup
          (fun k hk => (hmem k).mp hk) (hturns.mpr hfree) hkey hreq hinv hbase
    · intro a ha
      exact GroupMoves.adopted ha (moves_acceptAll now order h₀)
    · intro convo
      refine (hp.chats convo).trans (if_congr ?_ rfl rfl)
      unfold History.peersOf
      rw [List.mem_filterMap, List.mem_filterMap]
      exact exists_congr fun key => and_congr_left' horder.mem_iff

/-- Two strangers with names of their own. -/
def carolAndDave : History :=
  History.run (sampleRelay []).crypto {}
    [(1, .apply (.message "key-a" "carol" "m1" "hi" 1 none none false)),
      (2, .apply (.message "key-b" "dave" "m2" "hi" 2 none none false))]

/-- Two strangers who claim one name. -/
def twoCarols : History :=
  History.run (sampleRelay []).crypto {}
    [(1, .apply (.message "key-a" "carol" "m1" "hi" 1 none none false)),
      (2, .apply (.message "key-b" "carol" "m2" "hi" 2 none none false))]

theorem nothing_hidden_iff_carolAndDave : carolAndDave.pendingKeys = ["key-b", "key-a"] ∧
    (NothingHidden (sampleRelay []).crypto 3 true ["key-a", "key-b"] carolAndDave ↔
      TurnsFree carolAndDave ["key-a", "key-b"]) := by
  have hkeys : carolAndDave.pendingKeys = ["key-b", "key-a"] := by decide +kernel
  exact ⟨hkeys, (nothing_hidden_iff _ 3 true carolAndDave _ (by rw [hkeys]; exact List.Perm.swap _ _ _)).2⟩

/-- Of two who claim one name the second waits on, whichever that is. -/
theorem two_carols_one_waits : (["key-a", "key-b"].Perm twoCarols.pendingKeys ∧
      (twoCarols.openMode (sampleRelay []).crypto 3 true ["key-a", "key-b"]).pendingKeys = ["key-b"] ∧
      ¬ NothingHidden (sampleRelay []).crypto 3 true ["key-a", "key-b"] twoCarols) ∧
    ["key-b", "key-a"].Perm twoCarols.pendingKeys ∧
      (twoCarols.openMode (sampleRelay []).crypto 3 true ["key-b", "key-a"]).pendingKeys = ["key-a"] ∧
      ¬ NothingHidden (sampleRelay []).crypto 3 true ["key-b", "key-a"] twoCarols := by
  have hruns : ∀ order ∈ [["key-a", "key-b"],
    ["key-b", "key-a"]], order.Perm twoCarols.pendingKeys ∧
      (twoCarols.openMode (sampleRelay []).crypto 3 true order).pendingKeys = order.tail ∧
      order.tail ≠ [] := by
    decide +kernel
  have hwaits : ∀ order ∈ [["key-a", "key-b"],
    ["key-b", "key-a"]], order.Perm twoCarols.pendingKeys ∧
      (twoCarols.openMode (sampleRelay []).crypto 3 true order).pendingKeys = order.tail ∧
      ¬ NothingHidden (sampleRelay []).crypto 3 true order twoCarols := by
    intro order horder
    obtain ⟨hperm, hleft, hne⟩ := hruns order horder
    exact ⟨hperm, hleft, fun hn => hne (hleft.symm.trans (pendingKeys_of_settled hn.settled))⟩
  exact ⟨hwaits ["key-a", "key-b"] (by simp), hwaits ["key-b", "key-a"] (by simp)⟩

end Sona
