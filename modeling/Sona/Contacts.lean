/-
# Contacts and requests

One table holds the contacts under their names and the pending requests under
the keys of those who made them; `History.book` is the table as it is looked
up. An operation does one of four things to it: it changes a row in place,
opens a request under the key of a stranger, pins a key under a name that is
free, or moves a row. What the requests need (`RequestsKeyed`) and what a peer
may do (`OnlyOf`) is worked out for each of the four, and the functions of the
code are taken to them by one lemma each.

Three of them fall short. A rename moves a pending row like any other, so it
does not stay under its key (`requests_keyed_iff`); a contact who sends under a
new name is pinned under it a second time; and a request under a key takes the
row of a contact whose name is that key (`contact_step_iff`).

Key definitions: `History.book`, `RequestsKeyed`, `RequestKept`, `OnlyOf`, `ContactFits`.
Key theorems: `keyed_open_iff`, `book_apply`, `requests_keyed_iff`, `contact_step_iff`,
`name_stays_free`.
-/
import Mathlib.Data.List.Basic
import Mathlib.Logic.Function.Basic
import Sona.Lib.Table
import Sona.Lib.Trace
import Sona.Edits

namespace Sona

/-! ### The book -/

abbrev Book := String → Option ContactPin

def History.book (h : History) : Book := h.contacts.get

def ContactPin.pending (p : ContactPin) : Bool := p.request.isSome

/-- Every pending request stands under its own key, alone with it, and nobody
else is waiting under the name that it claims. -/
structure RequestsKeyed (b : Book) : Prop where
  key : ∀ u p, b u = some p → p.pending = true → p.identityKey = u
  alone : ∀ u p v q, b u = some p → p.pending = true → b v = some q →
    q.identityKey = p.identityKey → v = u
  free : ∀ u p req v q, b u = some p → p.request = some req → b v = some q →
    q.pending = true → v ≠ u →
    History.acceptedName req u ≠ v

section keyed

variable {b : Book}

theorem keyed_remove (h : RequestsKeyed b) (u : String) :
    RequestsKeyed (Function.update b u none) := by
  have hold : ∀ {v q}, Function.update b u none v = some q → b v = some q := by
    intro v q hv
    by_cases huv : v = u
    · rw [huv, Function.update_self] at hv
      cases hv
    · rwa [Function.update_of_ne huv] at hv
  exact
    { key := fun v q hv hq => h.key v q (hold hv) hq
      alone := fun v q w r hv hq hw hr => h.alone v q w r (hold hv) hq (hold hw) hr
      free := fun v q req w r hv hq hw hr => h.free v q req w r (hold hv) hq (hold hw) hr }

/-- A row that is not pending may go anywhere, if its key waits nowhere else. -/
theorem keyed_accept (h : RequestsKeyed b) {u : String} {p : ContactPin} (hp : p.pending = false)
    (hother : ∀ v q, v ≠ u → b v = some q → q.pending = true → q.identityKey ≠ p.identityKey) :
    RequestsKeyed (Function.update b u (some p)) := by
  have hold : ∀ {v q}, Function.update b u (some p) v = some q → q.pending = true →
      v ≠ u ∧ b v = some q := by
    intro v q hv hq
    by_cases huv : v = u
    · rw [huv, Function.update_self] at hv
      cases hv
      rw [hp] at hq
      cases hq
    · rw [Function.update_of_ne huv] at hv
      exact ⟨huv, hv⟩
  constructor
  · intro v q hv hq
    exact h.key v q (hold hv hq).2 hq
  · intro v q w r hv hq hw hr
    obtain ⟨hvu, hv⟩ := hold hv hq
    by_cases hwu : w = u
    · rw [hwu, Function.update_self] at hw
      cases hw
      exact absurd hr.symm (hother v q hvu hv hq)
    · rw [Function.update_of_ne hwu] at hw
      exact h.alone v q w r hv hq hw hr
  · intro v q req w r hv hq hw hr
    have hpending : q.pending = true := by simp [ContactPin.pending, hq]
    exact h.free v q req w r (hold hv hpending).2 hq (hold hw hr).2 hr

/-- A row may change in place, if it keeps its key and its claim. -/
theorem keyed_refresh (h : RequestsKeyed b) {u : String} {p p' : ContactPin} (hu : b u = some p)
    (hkey : p'.identityKey = p.identityKey)
    (hreq : p'.request.map (·.claimed) = p.request.map (·.claimed)) :
    RequestsKeyed (Function.update b u (some p')) := by
  have hold : ∀ {v q}, Function.update b u (some p') v = some q →
      ∃ q₀, b v = some q₀ ∧ q.identityKey = q₀.identityKey ∧
      q.request.map (·.claimed) = q₀.request.map (·.claimed) := by
    intro v q hv
    by_cases huv : v = u
    · rw [huv, Function.update_self] at hv
      cases hv
      exact ⟨p, huv ▸ hu, hkey, hreq⟩
    · rw [Function.update_of_ne huv] at hv
      exact ⟨q, hv, rfl, rfl⟩
  have hpending : ∀ {q q₀ : ContactPin}, q.request.map (·.claimed) = q₀.request.map (·.claimed) →
      q.pending = q₀.pending := by
    intro q q₀ heq
    have := congrArg Option.isSome heq
    simpa [ContactPin.pending] using this
  constructor
  · intro v q hv hq
    obtain ⟨q₀, hv₀, hk, hr⟩ := hold hv
    rw [hk]
    exact h.key v q₀ hv₀ (hpending hr ▸ hq)
  · intro v q w r hv hq hw hr
    obtain ⟨q₀, hv₀, hk, hreq⟩ := hold hv
    obtain ⟨r₀, hw₀, hk', -⟩ := hold hw
    exact h.alone v q₀ w r₀ hv₀ (hpending hreq ▸ hq) hw₀ (by rw [← hk, ← hk', hr])
  · intro v q req w r hv hq hw hr hne
    obtain ⟨q₀, hv₀, -, hreq⟩ := hold hv
    obtain ⟨r₀, hw₀, -, hreq'⟩ := hold hw
    rw [hq] at hreq
    obtain ⟨req₀, hq₀, hclaimed⟩ := Option.map_eq_some_iff.mp hreq.symm
    have hname : History.acceptedName req v = History.acceptedName req₀ v := by
      unfold History.acceptedName
      rw [hclaimed]
    rw [hname]
    exact h.free v q₀ req₀ w r₀ hv₀ hq₀ hw₀ (hpending hreq' ▸ hr) hne

/-- Nobody who is waiting is in the way of the request of `convo`, nor it in theirs. -/
def OpenFits (b : Book) (convo : String) (req : PendingRequest) : Prop :=
  ∀ v q r, b v = some q → q.request = some r → v ≠ convo →
    History.acceptedName req convo ≠ v ∧ History.acceptedName r v ≠ convo

/-- A stranger's request, under their key. -/
theorem keyed_open_iff (h : RequestsKeyed b) {convo : String} {p : ContactPin}
    {req : PendingRequest} (hnone : ∀ v q, b v = some q → q.identityKey ≠ convo)
    (hkey : p.identityKey = convo) (hreq : p.request = some req) :
    RequestsKeyed (Function.update b convo (some p)) ↔ OpenFits b convo req := by
  have hp : p.pending = true := by simp [ContactPin.pending, hreq]
  have hself : Function.update b convo (some p) convo = some p := Function.update_self _ _ _
  have hother : ∀ {v}, v ≠ convo → Function.update b convo (some p) v = b v :=
    fun hv => Function.update_of_ne hv _ _
  constructor
  · intro hk v q r hv hq hne
    have hv' : Function.update b convo (some p) v = some q := by rw [hother hne, hv]
    have hq' : q.pending = true := by simp [ContactPin.pending, hq]
    exact ⟨hk.free convo p req v q hself hreq hv' hq' hne,
      hk.free v q r convo p hv' hq hself hp (Ne.symm hne)⟩
  · intro hfits
    have hold : ∀ {v q}, Function.update b convo (some p) v = some q →
        (v = convo ∧ q = p) ∨ v ≠ convo ∧ b v = some q := by
      intro v q hv
      by_cases hvc : v = convo
      · rw [hvc, hself] at hv
        cases hv
        exact Or.inl ⟨hvc, rfl⟩
      · rw [hother hvc] at hv
        exact Or.inr ⟨hvc, hv⟩
    constructor
    · intro v q hv hq
      rcases hold hv with ⟨rfl, rfl⟩ | ⟨hne, hv⟩
      · exact hkey
      · exact h.key v q hv hq
    · intro v q w r hv hq hw hr
      rcases hold hv with ⟨rfl, rfl⟩ | ⟨-, hv₁⟩ <;> rcases hold hw with ⟨rfl, rfl⟩ | ⟨-, hw₁⟩
      · rfl
      · exact absurd (hr.trans hkey) (hnone w r hw₁)
      · exact absurd (hr.symm.trans hkey) (hnone v q hv₁)
      · exact h.alone v q w r hv₁ hq hw₁ hr
    · intro v q req' w r hv hq hw hr hne
      rcases hold hv with ⟨rfl, rfl⟩ | ⟨hvc, hv₁⟩ <;> rcases hold hw with ⟨rfl, rfl⟩ | ⟨hwc, hw₁⟩
      · exact absurd rfl hne
      · obtain ⟨r', hr'⟩ := Option.isSome_iff_exists.mp hr
        rw [hreq] at hq
        cases hq
        exact (hfits w r r' hw₁ hr' hwc).1
      · exact (hfits v q req' hv₁ hq hvc).2
      · exact h.free v q req' w r hv₁ hq hw₁ hr hne

/-- A row that moves to a free name keeps the requests exactly if it is not pending. -/
theorem keyed_move_iff (h : RequestsKeyed b) {old new : String} {p : ContactPin}
    (hold : b old = some p) (hnew : b new = none) :
    RequestsKeyed (Function.update (Function.update b old none) new (some p)) ↔
    p.pending = false := by
  have hne : new ≠ old := by
    rintro rfl
    rw [hold] at hnew
    cases hnew
  constructor
  · intro hk
    by_contra hp
    have hp : p.pending = true := by simpa using hp
    have hkey := hk.key new p (Function.update_self _ _ _) hp
    exact hne (hkey.symm.trans (h.key old p hold hp))
  · intro hp
    apply keyed_accept (keyed_remove h old) hp
    intro v q _ hv hq heq
    by_cases hvo : v = old
    · rw [hvo, Function.update_self] at hv
      cases hv
    · rw [Function.update_of_ne hvo] at hv
      exact hvo (h.alone v q old p hv hq hold heq.symm).symm

end keyed

/-! ### The functions of the code -/

/-- Of a row, what a request and the user's verification hang on. -/
structure SameRow (p p' : ContactPin) : Prop where
  key : p'.identityKey = p.identityKey
  verified : p'.verified = p.verified
  claim : p'.request.map (·.claimed) = p.request.map (·.claimed)

theorem SameRow.pending {p p' : ContactPin} (h : SameRow p p') : p'.pending = p.pending := by
  have hclaim := congrArg Option.isSome h.claim
  simpa [ContactPin.pending] using hclaim

section book

variable (h : History)

theorem book_set (u : String) (p : ContactPin) :
    History.book { h with contacts := h.contacts.set u p } = Function.update h.book u (some p) := by
  funext v
  unfold History.book
  rw [Function.update_apply, Table.get_set]

theorem contactByKey_some {h : History} {key u : String} {p : ContactPin}
    (hc : h.contactByKey key = some (u, p)) :
    h.book u = some p ∧ p.identityKey = key := by
  obtain ⟨hget, hkey⟩ := Table.find_some hc
  exact ⟨hget, of_decide_eq_true hkey⟩

theorem contactByKey_none (key : String) :
    h.contactByKey key = none ↔ ∀ u p, h.book u = some p → p.identityKey ≠ key := by
  unfold History.contactByKey History.book
  rw [Table.find_none_iff]
  simp only [decide_eq_false_iff_not]

theorem requestPendingForKey_iff (key : String) : h.requestPendingForKey key = true ↔
    ∃ u p, h.book u = some p ∧ p.identityKey = key ∧ p.pending = true := by
  unfold History.requestPendingForKey History.book ContactPin.pending
  rw [Table.find_isSome_iff]
  simp only [Bool.and_eq_true, decide_eq_true_eq]

/-- The first row of a key changes, if there is one. -/
theorem book_updateContactByKey (key : String) (f : ContactPin → ContactPin) :
    (h.updateContactByKey key f).book = match h.contactByKey key with
      | none => h.book
      | some (u, p) => Function.update h.book u (some (f p)) := by
  unfold History.updateContactByKey
  cases hc : h.contactByKey key with
  | none => rfl
  | some up =>
    obtain ⟨u, p⟩ := up
    have hget : h.contacts.get u = some p := (contactByKey_some hc).1
    funext v
    unfold History.book
    dsimp only
    rw [Table.get_modify, hget, Function.update_apply]
    rfl

/-- What a screen does to the book: `opened` is the name under which it opened a request. -/
inductive Screened (b : Book) (convo : String) : Option String → Book → Prop
  | same : Screened b convo none b
  | refreshed {u : String} {p p' : ContactPin} (hu : b u = some p) (hkey : p.identityKey = convo)
      (hrow : SameRow p p') : Screened b convo none (Function.update b u (some p'))
  | opened {p : ContactPin} {req : PendingRequest}
      (hnone : ∀ v q, b v = some q → q.identityKey ≠ convo)
      (hkey : p.identityKey = convo) (hverified : p.verified = false) (hreq : p.request = some req) :
      Screened b convo (some req.claimed) (Function.update b convo (some p))

theorem screened_update (key : String) {f : ContactPin → ContactPin} (hf : ∀ p, SameRow p (f p)) :
    Screened h.book key none (h.updateContactByKey key f).book := by
  rw [book_updateContactByKey]
  cases hc : h.contactByKey key with
  | none => exact Screened.same
  | some up =>
    obtain ⟨u, p⟩ := up
    obtain ⟨hu, hkey⟩ := contactByKey_some hc
    exact Screened.refreshed hu hkey (hf p)

theorem sameRow_updateRequest {f : PendingRequest → PendingRequest}
    (hf : ∀ r, (f r).claimed = r.claimed) (p : ContactPin) :
    SameRow p { p with request := p.request.map f } := by
  refine ⟨rfl, rfl, ?_⟩
  rw [Option.map_map]
  cases p.request with
  | none => rfl
  | some r => exact congrArg some (hf r)

theorem screened_updateRequest (key : String) {f : PendingRequest → PendingRequest}
    (hf : ∀ r, (f r).claimed = r.claimed) : Screened h.book key none (h.updateRequest key f).book :=
  screened_update h key (sameRow_updateRequest hf)

theorem screened_openRequest {convo claimed : String} (hc : h.contactByKey convo = none)
    (req : PendingRequest) :
    Screened h.book convo (some claimed) (h.openRequest convo claimed req).book := by
  have hbook : (h.openRequest convo claimed req).book =
      Function.update h.book convo (some { identityKey := convo, request := some { req with claimed } }) :=
    book_set h convo _
  rw [hbook]
  have hreq : ({ identityKey := convo, request := some { req with claimed } } : ContactPin).request =
      some { req with claimed } := rfl
  exact Screened.opened ((contactByKey_none h convo).mp hc) rfl rfl hreq

namespace History

/-- The name under which a stranger's first content opens a request. -/
def opens (convo claimed : String) : Option String :=
  if !h.requestsEnabled || h.requestExempt convo then none else
  if (h.contactByKey convo).isSome || h.claimedNameUnavailable claimed then none else some claimed

/-- Whether content of the key is let in without a request. -/
def letsIn (convo : String) : Bool :=
  !h.requestsEnabled || h.requestExempt convo || (h.contactByKey convo).any fun up => !up.2.pending

/-- Whether a name is given to the key of who was let in. -/
def pins (name key : String) : Bool :=
  name ≠ "" && (h.contacts.get name).isNone && !h.requestPendingForKey key

end History

section strangers

variable {h : History} {convo claimed : String}

theorem opens_exempt (hopen : (!h.requestsEnabled || h.requestExempt convo) = true) :
    h.opens convo claimed = none :=
  if_pos hopen

theorem opens_known {up : String × ContactPin} (hc : h.contactByKey convo = some up) :
    h.opens convo claimed = none := by
  unfold History.opens
  by_cases hopen : (!h.requestsEnabled || h.requestExempt convo) = true
  · rw [if_pos hopen]
  · rw [if_neg hopen, if_pos (by simp [hc])]

/-- A stranger's first content opens a request, unless the name that it claims is not free. -/
theorem screened_stranger (hopen : ¬ (!h.requestsEnabled || h.requestExempt convo) = true)
    (hc : h.contactByKey convo = none) {after : History} (req : PendingRequest)
    (htaken : h.claimedNameUnavailable claimed = true → after = h)
    (hfree : h.claimedNameUnavailable claimed ≠ true → after = h.openRequest convo claimed req) :
    Screened h.book convo (h.opens convo claimed) after.book := by
  unfold History.opens
  rw [if_neg hopen]
  by_cases hname : h.claimedNameUnavailable claimed = true
  · rw [htaken hname, if_pos (by simp [hname])]
    exact Screened.same
  · have hopens : ¬ ((h.contactByKey convo).isSome || h.claimedNameUnavailable claimed) = true := by
      simp [hc, hname]
    rw [hfree hname, if_neg hopens]
    exact screened_openRequest h hc req

end strangers

theorem screened_screenInbound (convo claimed : String) (now : ℕ) :
    Screened h.book convo (h.opens convo claimed) (h.screenInbound convo claimed now).2.book := by
  unfold History.screenInbound
  by_cases hopen : (!h.requestsEnabled || h.requestExempt convo) = true
  · rw [if_pos hopen, opens_exempt hopen]
    exact Screened.same
  · rw [if_neg hopen]
    cases hc : h.contactByKey convo with
    | some up =>
      rw [opens_known hc]
      dsimp only
      split
      · exact Screened.same
      · exact screened_updateRequest h convo fun _ => rfl
    | none =>
      exact screened_stranger hopen hc _ (fun htaken => congrArg Prod.snd (if_pos htaken))
        fun hfree => congrArg Prod.snd (if_neg hfree)

theorem screened_screenKnock (convo claimed : String) (now : ℕ) :
    Screened h.book convo (h.opens convo claimed) (h.screenKnock convo claimed now).book := by
  unfold History.screenKnock
  by_cases hopen : (!h.requestsEnabled || h.requestExempt convo) = true
  · rw [if_pos hopen, opens_exempt hopen]
    exact Screened.same
  · rw [if_neg hopen]
    cases hc : h.contactByKey convo with
    | some up =>
      rw [opens_known hc]
      exact screened_updateRequest h convo fun _ => rfl
    | none => exact screened_stranger hopen hc _ (fun htaken => if_pos htaken) fun hfree => if_neg hfree

theorem screened_screenCallOffer (senderKey claimed : String) (now : ℕ) :
    Screened h.book (h.attributeDevice senderKey) (h.opens (h.attributeDevice senderKey) claimed)
      (h.screenCallOffer senderKey claimed now).2.book := by
  unfold History.screenCallOffer
  dsimp only
  by_cases hopen : (!h.requestsEnabled || h.requestExempt (h.attributeDevice senderKey)) = true
  · rw [if_pos hopen, opens_exempt hopen]
    exact Screened.same
  · rw [if_neg hopen]
    cases hc : h.contactByKey (h.attributeDevice senderKey) with
    | some up =>
      rw [opens_known hc]
      exact screened_updateRequest h _ fun _ => rfl
    | none =>
      exact screened_stranger hopen hc _ (fun htaken => congrArg Prod.snd (if_pos htaken))
        fun hfree => congrArg Prod.snd (if_neg hfree)

theorem screened_screenRosterUpdate (now : ℕ) (sender : String) (epoch : GroupEpoch) (name : String)
    (secs : Option ℕ) (avatar : Option String) :
    Screened h.book (h.attributeDevice sender) none (h.screenRosterUpdate now sender epoch name secs avatar).2.book := by
  unfold History.screenRosterUpdate History.screenGroupInvite
  split
  · exact Screened.same
  split
  · exact Screened.same
  split
  · exact Screened.same
  · exact screened_updateRequest h _ fun _ => rfl

theorem book_autoPinNamed (name key : String) : (h.autoPinNamed name key).book =
    if h.pins name key then Function.update h.book name (some { identityKey := key }) else h.book := by
  unfold History.autoPinNamed History.autoPinContact History.pins
  by_cases hname : name = ""
  · simp [hname]
  · rw [if_neg hname]
    cases hget : h.contacts.get name with
    | some p => simp
    | none =>
      cases hpending : h.requestPendingForKey key with
      | true => simp
      | false =>
        rw [if_neg (by simp), if_neg (by simp), if_pos (by simp [hname])]
        exact book_set h name _

/-- Content that is let in finds the book as it was, content that is held a request. -/
theorem screenInbound_cases (convo claimed : String) (now : ℕ) :
    (h.letsIn convo = true ∧ h.screenInbound convo claimed now = (.allow, h)) ∨
      (h.letsIn convo = false ∧ ((h.screenInbound convo claimed now).1 = .dropped ∨
        (h.screenInbound convo claimed now).1 = .held ∧
          (h.screenInbound convo claimed now).2.requestPendingForKey convo = true)) := by
  unfold History.screenInbound History.letsIn
  by_cases hopen : (!h.requestsEnabled || h.requestExempt convo) = true
  · rw [if_pos hopen]
    exact Or.inl ⟨by simp [hopen], rfl⟩
  · rw [if_neg hopen]
    have hopen : (!h.requestsEnabled || h.requestExempt convo) = false := by simpa using hopen
    cases hc : h.contactByKey convo with
    | some up =>
      obtain ⟨u, pin⟩ := up
      obtain ⟨hu, hkey⟩ := contactByKey_some hc
      cases hreq : pin.request with
      | none => exact Or.inl ⟨by simp [ContactPin.pending, hreq], by simp [hreq]⟩
      | some req =>
        refine Or.inr ⟨by simp [hopen, ContactPin.pending, hreq], Or.inr ?_⟩
        dsimp only
        rw [hreq, if_neg (by simp)]
        refine ⟨rfl, (requestPendingForKey_iff _ _).mpr ?_⟩
        unfold History.updateRequest
        rw [book_updateContactByKey, hc]
        exact ⟨u, _, Function.update_self _ _ _, hkey, by simp [ContactPin.pending, hreq]⟩
    | none =>
      refine Or.inr ⟨by simp [hopen], ?_⟩
      dsimp only
      split
      · exact Or.inl rfl
      · refine Or.inr ⟨rfl, (requestPendingForKey_iff _ _).mpr ⟨convo, ?_⟩⟩
        unfold History.openRequest
        rw [book_set]
        exact ⟨_, Function.update_self _ _ _, rfl, rfl⟩

/-- Content pins a name only if it is let in. -/
theorem book_screened {now : ℕ} {convo claimed : String} {f : History → History}
    (hf : ∀ h, (f h).book = h.book) :
    (h.screened now convo claimed f).book =
      if h.letsIn convo = true ∧ h.pins claimed convo = true then
        Function.update h.book claimed (some { identityKey := convo })
      else (h.screenInbound convo claimed now).2.book := by
  unfold History.screened
  rcases screenInbound_cases h convo claimed now with ⟨hin, heq⟩ | ⟨hin, hcase⟩
  · rw [heq]
    dsimp only
    rw [hf, book_autoPinNamed]
    simp only [hin, true_and]
  · rw [if_neg (by simp [hin])]
    rcases hs : h.screenInbound convo claimed now with ⟨screen, h'⟩
    rw [hs] at hcase
    rcases hcase with hdropped | ⟨hheld, hpending⟩
    · dsimp only at hdropped
      rw [hdropped]
    · dsimp only at hheld hpending
      rw [hheld]
      dsimp only
      rw [hf, book_autoPinNamed, if_neg]
      unfold History.pins
      simp [hpending]

/-- A rename moves the first row of the key to a name that is free. -/
theorem book_renameContact (key newUsername : String) : (h.renameContact key newUsername).2.book =
    match h.book newUsername, h.contactByKey key with
    | none, some (old, p) => Function.update (Function.update h.book old none) newUsername (some p)
    | _, _ => h.book := by
  unfold History.renameContact History.book
  cases hnew : h.contacts.get newUsername with
  | some p => rfl
  | none =>
    cases hc : h.contactByKey key with
    | none => rfl
    | some up =>
      obtain ⟨old, p⟩ := up
      dsimp only
      funext v
      rw [Table.get_set, Function.update_apply]
      by_cases hv : v = newUsername
      · rw [if_pos hv, if_pos hv]
      · rw [if_neg hv, if_neg hv, Table.get_remove, Function.update_apply]

/-- Acceptance moves a pending row to its claimed name, if that is free. -/
theorem book_promote {h h' : History} {key peer : String} {req : PendingRequest}
    (hp : h.promote key = some (req, peer, h')) :
    ∃ pin, h.book key = some pin ∧ pin.request = some req ∧
      (History.acceptedName req key = key ∨ h.book (History.acceptedName req key) = none) ∧
      h'.book = Function.update (Function.update h.book key none) (History.acceptedName req key)
        (some { pin with request := none }) := by
  unfold History.promote at hp
  cases hget : h.contacts.get key with
  | none => simp [hget] at hp
  | some pin =>
    cases hreq : pin.request with
    | none => simp [hget, hreq] at hp
    | some r =>
      simp only [hget, hreq] at hp
      split at hp
      · cases hp
      · rename_i hfree
        cases hp
        refine ⟨pin, hget, hreq, ?_, ?_⟩
        · by_cases hname : History.acceptedName req key = key
          · exact Or.inl hname
          · refine Or.inr ?_
            have hnone : ¬ (h.contacts.get (History.acceptedName req key)).isSome = true :=
              fun hsome => hfree ⟨hname, hsome⟩
            simpa [History.book] using hnone
        · funext v
          unfold History.book
          dsimp only
          rw [Table.get_set, Function.update_apply]
          by_cases hv : v = History.acceptedName req key
          · rw [if_pos hv, if_pos hv]
          · rw [if_neg hv, if_neg hv, Table.get_remove, Function.update_apply]

end book

/-! ### What the events do to the book -/

section events

variable (h : History) (C : Crypto) (now : ℕ)

theorem contacts_adopt (e : GroupEpoch) : (h.adoptGroupEpoch C now e).2.contacts = h.contacts := by
  obtain ⟨_, _, heq⟩ := adopt_frame h C now e
  rw [heq]

theorem contacts_adoptCarried (gid name : String) (avatar : Option String) (secs : Option ℕ) :
    (h.adoptCarried gid name avatar secs).contacts = h.contacts := by
  have hname : (h.setGroupName gid name).contacts = h.contacts := by
    unfold History.setGroupName
    split <;> rfl
  unfold History.adoptCarried
  dsimp only
  cases avatar <;> dsimp only <;> split <;> exact hname

theorem contacts_invites : ∀ (invs : List HeldInvite) (h : History),
    (invs.foldl (fun h inv => h.acceptInvite C now inv) h).contacts = h.contacts
  | [], _ => rfl
  | inv :: invs, h => by
    have hone : (h.acceptInvite C now inv).contacts = h.contacts := by
      have hadopt := contacts_adopt h C now inv.epoch
      unfold History.acceptInvite
      split
      · rename_i heq
        rw [heq] at hadopt
        exact hadopt
      · rename_i heq
        rw [heq] at hadopt
        exact (contacts_adoptCarried _ _ _ _ _).trans hadopt
    exact (contacts_invites invs _).trans hone

/-- Acceptance is the move of the row, for the book. -/
theorem book_acceptRequest (key : String) : (h.acceptRequest C now key).2.book =
    match h.promote key with
    | none => h.book
    | some (_, _, h') => h'.book := by
  unfold History.acceptRequest
  rcases h.promote key with _ | ⟨req, peer, h'⟩
  · rfl
  · exact congrArg Table.get (contacts_invites C now req.invites h')

theorem contacts_rosterUpdate (epoch : GroupEpoch) (name : String) (secs : Option ℕ)
    (avatar : Option String) :
    (h.rosterUpdate C now epoch name secs avatar).contacts = h.contacts := by
  have hadopt := contacts_adopt h C now epoch
  unfold History.rosterUpdate
  dsimp only
  split
  · rename_i heq
    rw [heq] at hadopt
    exact (contacts_adoptCarried _ _ _ _ _).trans hadopt
  · rename_i heq
    rw [heq] at hadopt
    unfold History.noteMembership
    dsimp only
    split
    · exact hadopt
    split
    · exact hadopt
    · exact hadopt
  · rename_i heq
    rw [heq] at hadopt
    exact hadopt

/-- The book after an event. -/
def History.applyBook : InboundEvent → Book
  | .message sender username .. | .attachment sender username .. =>
    (h.screened now (h.attributeDevice sender) username id).book
  | .forwardedIncoming sender fromKey fromUsername .. =>
    if h.isOwnDevice sender then (h.screened now (h.attributeDevice fromKey) fromUsername id).book else h.book
  | .knock sender username => (h.screenKnock (h.attributeDevice sender) username now).book
  | .selfSentText sender peerKey peerUsername .. | .selfSentFile sender peerKey peerUsername .. =>
    if h.isOwnDevice sender then ((h.acceptRequestForKey C now peerKey).2.autoPinNamed peerUsername peerKey).book
    else h.book
  | .groupRosterUpdate sender epoch name secs avatar =>
    (h.screenRosterUpdate now sender epoch name secs avatar).2.book
  | .renamed sender newUsername =>
    if (trim newUsername.toList).isEmpty then h.book
    else (h.renameContact (h.attributeDevice sender) (String.ofList (trim newUsername.toList))).2.book
  | .profileUpdate sender avatar => (h.setContactAvatar (h.attributeDevice sender) avatar).2.book
  | _ => h.book

theorem book_markForwarded (forwarded : Bool) (peer msgId : String) :
    (h.markForwarded forwarded peer msgId).book = h.book := by
  unfold History.markForwarded
  split <;> rfl

/-- What is done with a message that passed leaves the book as the screen left it. -/
theorem book_screened_id {convo claimed : String} {f : History → History}
    (hf : ∀ h, (f h).book = h.book) :
    (h.screened now convo claimed f).book = (h.screened now convo claimed id).book := by
  rw [book_screened h hf, book_screened h (f := id) fun _ => rfl]

theorem book_fromOwnDevice {sender : String} {f : History → History} {b : Book}
    (hb : (f h).book = b) :
    (h.fromOwnDevice sender f).book = if h.isOwnDevice sender then b else h.book := by
  unfold History.fromOwnDevice
  split
  · exact hb
  · rfl

theorem book_fromMember {gid sender : String} {f : History → History}
    (hf : ∀ h, (f h).book = h.book) :
    (h.fromMember gid sender f).book = h.book := by
  unfold History.fromMember
  split
  · exact hf h
  · rfl

theorem book_rosterGated {gid sender : String} {content : HeldGroupContent} {f : History → History}
    (hf : ∀ h, (f h).book = h.book) : (h.rosterGated now gid sender content f).book = h.book := by
  unfold History.rosterGated
  split
  · rfl
  · exact hf h

theorem book_groupRename (sender gid name : String) :
    (h.groupRename now sender gid name).book = h.book := by
  have hname : (h.renameGroup gid name).2.book = h.book := by
    unfold History.renameGroup
    split <;> rfl
  unfold History.groupRename
  split
  · rfl
  split
  · rfl
  rcases hr : h.renameGroup gid name with ⟨known, h'⟩
  rw [hr] at hname
  cases known with
  | true => exact hname
  | false => exact hname

theorem book_groupLeave (sender gid : String) : (h.groupLeave now sender gid).book = h.book := by
  have hremove : (h.removeGroupMember gid sender).2.book = h.book := rfl
  unfold History.groupLeave
  split
  · rfl
  split
  · rfl
  rcases hr : h.removeGroupMember gid sender with ⟨removed, h'⟩
  rw [hr] at hremove
  cases removed with
  | some m => exact hremove
  | none => exact hremove

/-- **What an event does to the book.** -/
theorem book_apply (event : InboundEvent) :
    (h.apply C now event).book = h.applyBook C now event := by
  cases event with
  | message | attachment => exact book_screened_id h now fun _ => book_markForwarded _ _ _ _
  | forwardedIncoming sender fromKey fromUsername msgId body sentAt reply attachment expireSecs =>
    refine book_fromOwnDevice h (book_screened_id h now fun h => ?_)
    cases attachment <;> rfl
  | selfSentText | selfSentFile => exact book_fromOwnDevice h (book_markForwarded _ _ _ _)
  | groupRosterUpdate sender epoch name secs avatar =>
    simp only [History.apply, History.applyBook]
    rcases h.screenRosterUpdate now sender epoch name secs avatar with ⟨taken, h'⟩
    cases taken with
    | true => rfl
    | false => exact congrArg Table.get (contacts_rosterUpdate h' C now epoch name secs avatar)
  | renamed sender newUsername =>
    unfold History.apply History.applyBook
    dsimp only
    split <;> rfl
  | groupMessage | groupAttachment =>
    refine book_rosterGated h now fun h => ?_
    unfold History.markGroupForwarded
    split <;> rfl
  | groupMessageEdited | groupMessageDeleted => exact book_rosterGated h now fun _ => rfl
  | groupReaction sender gid targetMsgId emoji add =>
    unfold History.apply
    dsimp only
    split
    · rfl
    · exact book_rosterGated h now fun _ => rfl
  | groupTimerUpdate | groupAvatarUpdate | groupMessagePinned =>
    exact book_fromMember h fun _ => rfl
  | groupRenamed sender gid name => exact book_groupRename h now (h.attributeDevice sender) gid name
  | groupMemberLeft sender gid => exact book_groupLeave h now (h.attributeDevice sender) gid
  | timerUpdate | messagePinned =>
    unfold History.apply
    dsimp only
    split <;> rfl
  | selfReadSeen | selfTimerUpdate | selfReaction | selfMessagePinned | selfProfileUpdate =>
    refine (book_fromOwnDevice h (b := h.book) rfl).trans ?_
    split <;> rfl
  | messageEdited | messageDeleted | receipt | chatDeleted | reaction | knock | profileUpdate | other => rfl

end events

/-! ### Requests under their keys -/

section requests

variable (h : History) (C : Crypto) (now : ℕ)

/-- A request that is opened under the name fits the book. -/
def OpenedFits (convo claimed : String) : Prop :=
  ∀ name, h.opens convo claimed = some name → OpenFits h.book convo { claimed := name }

/-- A row that is renamed is not pending. -/
def RenameFits (key newUsername : String) : Prop :=
  ∀ old p, h.contactByKey key = some (old, p) → h.book newUsername = none → p.pending = false

theorem keyed_screened {b b' : Book} {convo : String} {opened : Option String}
    (hk : RequestsKeyed b) (hs : Screened b convo opened b') :
    RequestsKeyed b' ↔ ∀ name, opened = some name → OpenFits b convo { claimed := name } := by
  cases hs with
  | same => exact iff_of_true hk fun _ h => nomatch h
  | refreshed hu hkey hrow => exact iff_of_true (keyed_refresh hk hu hrow.key hrow.claim) fun _ h => nomatch h
  | opened hnone hkey hverified hreq =>
    rw [keyed_open_iff hk hnone hkey hreq]
    constructor
    · rintro hfits name heq
      cases heq
      exact hfits
    · intro hfits
      exact hfits _ rfl

theorem opens_of_letsIn {convo : String} (hin : h.letsIn convo = true) (claimed : String) :
    h.opens convo claimed = none := by
  unfold History.letsIn at hin
  unfold History.opens
  by_cases hopen : (!h.requestsEnabled || h.requestExempt convo) = true
  · rw [if_pos hopen]
  · rw [if_neg hopen]
    have hopen : (!h.requestsEnabled || h.requestExempt convo) = false := by simpa using hopen
    rw [hopen, Bool.false_or] at hin
    cases hc : h.contactByKey convo with
    | none => simp [hc] at hin
    | some up => simp

variable {h}

/-- A name is pinned for a key that is not waiting. -/
theorem keyed_pin (hk : RequestsKeyed h.book) {name key : String} (hp : h.pins name key = true) :
    RequestsKeyed (Function.update h.book name (some { identityKey := key })) := by
  apply keyed_accept hk rfl
  intro v q _ hv hq heq
  have hpending : h.requestPendingForKey key = true :=
    (requestPendingForKey_iff h key).mpr ⟨v, q, hv, heq, hq⟩
  unfold History.pins at hp
  simp [hpending] at hp

theorem keyed_autoPinNamed (hk : RequestsKeyed h.book) (name key : String) :
    RequestsKeyed (h.autoPinNamed name key).book := by
  rw [book_autoPinNamed]
  split
  · rename_i hp
    exact keyed_pin hk hp
  · exact hk

theorem keyed_content_iff (hk : RequestsKeyed h.book) (convo claimed : String) :
    RequestsKeyed (h.screened now convo claimed id).book ↔ OpenedFits h convo claimed := by
  rw [book_screened h (f := id) fun _ => rfl]
  unfold OpenedFits
  split
  · rename_i hpin
    rw [opens_of_letsIn h hpin.1]
    exact iff_of_true (keyed_pin hk hpin.2) fun _ heq => nomatch heq
  · exact keyed_screened hk (screened_screenInbound h convo claimed now)

theorem keyed_rename_iff (hk : RequestsKeyed h.book) (key newUsername : String) :
    RequestsKeyed (h.renameContact key newUsername).2.book ↔ RenameFits h key newUsername := by
  rw [book_renameContact]
  unfold RenameFits
  cases hnew : h.book newUsername with
  | some p => exact iff_of_true hk fun _ _ _ heq => nomatch heq
  | none =>
    cases hc : h.contactByKey key with
    | none => exact iff_of_true hk fun _ _ heq => nomatch heq
    | some up =>
      obtain ⟨old, p⟩ := up
      rw [keyed_move_iff hk (contactByKey_some hc).1 hnew]
      constructor
      · rintro hp old' p' heq -
        cases heq
        exact hp
      · intro hfits
        exact hfits old p rfl rfl

theorem keyed_acceptRequest (hk : RequestsKeyed h.book) (key : String) :
    RequestsKeyed (h.acceptRequest C now key).2.book := by
  rw [book_acceptRequest]
  rcases hp : h.promote key with _ | ⟨req, peer, h'⟩
  · exact hk
  · obtain ⟨pin, hpin, hreq, hfree, hbook⟩ := book_promote hp
    dsimp only
    rw [hbook]
    apply keyed_accept (keyed_remove hk key) rfl
    intro v q _ hv hq heq
    have hvk : v ≠ key := by
      rintro rfl
      rw [Function.update_self] at hv
      cases hv
    rw [Function.update_of_ne hvk] at hv
    exact hvk (hk.alone v q key pin hv hq hpin heq.symm).symm

/-- The user answers from another device. -/
theorem keyed_selfSent (hk : RequestsKeyed h.book) (sender peerKey peerUsername : String) :
    RequestsKeyed (if h.isOwnDevice sender then
      ((h.acceptRequestForKey C now peerKey).2.autoPinNamed peerUsername peerKey).book else h.book) := by
  split
  · apply keyed_autoPinNamed
    unfold History.acceptRequestForKey
    split
    · exact keyed_acceptRequest C now hk _
    · exact hk
  · exact hk

theorem keyed_acceptAll (keys : List String) {h : History} (hk : RequestsKeyed h.book) :
    RequestsKeyed (keys.foldl (fun h key => (h.acceptRequest C now key).2) h).book := by
  induction keys generalizing h with
  | nil => exact hk
  | cons key keys ih => exact ih (keyed_acceptRequest C now hk key)

theorem book_declineRequest (h : History) (key : String) (block : Bool) :
    (h.declineRequest key block).2.book = h.book ∨
      ∃ p, h.book key = some p ∧ (h.declineRequest key block).2.book = Function.update h.book key
        (if block then some { p with request := none, blocked := true } else none) := by
  unfold History.declineRequest
  cases hget : h.contacts.get key with
  | none => exact Or.inl rfl
  | some p =>
    cases hreq : p.request with
    | none =>
      dsimp only
      rw [hreq]
      exact Or.inl rfl
    | some req =>
      refine Or.inr ⟨p, hget, ?_⟩
      dsimp only
      rw [hreq]
      funext v
      rw [Function.update_apply]
      cases block with
      | true =>
        have hmodify := Table.get_modify h.contacts key v
          fun p => { p with request := none, blocked := true }
        rw [hget] at hmodify
        exact hmodify
      | false => exact Table.get_remove h.contacts key v

theorem keyed_declineRequest (hk : RequestsKeyed h.book) (key : String) (block : Bool) :
    RequestsKeyed (h.declineRequest key block).2.book := by
  rcases book_declineRequest h key block with heq | ⟨p, hp, heq⟩
  · rwa [heq]
  rw [heq]
  cases block with
  | false => exact keyed_remove hk key
  | true =>
    apply keyed_accept hk rfl
    intro v q hvk hv hq hkey
    exact hvk (hk.alone v q key p hv hq hp hkey.symm).symm

/-- **Who is refused has an accepted contact in the way**, not another request. -/
theorem accept_refused (hk : RequestsKeyed h.book) {key : String}
    (hp : h.isRequestPending key = true) (hrefused : (h.acceptRequest C now key).1 = false) :
    ∃ name p, name ≠ key ∧ h.book name = some p ∧ p.pending = false := by
  unfold History.isRequestPending at hp
  unfold History.acceptRequest History.promote at hrefused
  cases hget : h.contacts.get key with
  | none => simp [hget] at hp
  | some pin =>
    cases hreq : pin.request with
    | none => simp [hget, hreq] at hp
    | some req =>
      simp only [hget, hreq] at hrefused
      by_cases htaken : History.acceptedName req key ≠ key ∧
        (h.contacts.get (History.acceptedName req key)).isSome = true
      · obtain ⟨hne, hsome⟩ := htaken
        obtain ⟨p, hother⟩ := Option.isSome_iff_exists.mp hsome
        refine ⟨_, p, hne, hother, ?_⟩
        by_contra hpending
        have hpending : p.pending = true := by simpa using hpending
        exact hk.free key pin req _ p hget hreq hother hpending hne rfl
      · rw [if_neg htaken] at hrefused
        cases hrefused

end requests

/-- The operations that a request may meet. -/
def HistoryOp.onRequests : HistoryOp → Bool
  | .apply _ | .acceptRequest _ | .declineRequest .. | .setRequestPrefs .. | .renameContact .. | .screenCallOffer .. =>
    true
  | _ => false

/-- A request that is opened fits the book, and a row that is renamed is not pending. -/
def RequestKept (h : History) (op : ℕ × HistoryOp) : Prop :=
  match op.2 with
  | .apply (.message sender username ..) | .apply (.attachment sender username ..) | .apply (.knock sender username) =>
    OpenedFits h (h.attributeDevice sender) username
  | .apply (.forwardedIncoming sender fromKey fromUsername ..) =>
    h.isOwnDevice sender = true → OpenedFits h (h.attributeDevice fromKey) fromUsername
  | .apply (.renamed sender newUsername) => (trim newUsername.toList).isEmpty = false →
    RenameFits h (h.attributeDevice sender) (String.ofList (trim newUsername.toList))
  | .renameContact key newUsername => RenameFits h key newUsername
  | .screenCallOffer senderKey claimed => OpenedFits h (h.attributeDevice senderKey) claimed
  | _ => True

theorem keyed_ite_iff {c : Bool} {b b' : Book} {P : Prop} (hb' : RequestsKeyed b')
    (hb : RequestsKeyed b ↔ P) :
    RequestsKeyed (if c then b else b') ↔ (c = true → P) := by
  cases c with
  | true => simpa using hb
  | false => simpa using hb'

theorem keyed_apply_iff (C : Crypto) {h : History} (hk : RequestsKeyed h.book) (now : ℕ)
    (event : InboundEvent) :
    RequestsKeyed (h.apply C now event).book ↔ RequestKept h (now, .apply event) := by
  rw [book_apply]
  cases event with
  | message sender username => exact keyed_content_iff now hk _ username
  | attachment sender username => exact keyed_content_iff now hk _ username
  | knock sender username => exact keyed_screened hk (screened_screenKnock h _ username now)
  | forwardedIncoming sender fromKey fromUsername =>
    exact keyed_ite_iff hk (keyed_content_iff now hk _ fromUsername)
  | renamed sender newUsername =>
    unfold History.applyBook RequestKept
    dsimp only
    cases hempty : (trim newUsername.toList).isEmpty with
    | true => simpa using hk
    | false => simpa using keyed_rename_iff hk _ _
  | selfSentText sender peerKey peerUsername =>
    exact iff_of_true (keyed_selfSent C now hk sender peerKey peerUsername) trivial
  | selfSentFile sender peerKey peerUsername =>
    exact iff_of_true (keyed_selfSent C now hk sender peerKey peerUsername) trivial
  | groupRosterUpdate sender epoch name secs avatar =>
    have hscreen := keyed_screened hk (screened_screenRosterUpdate h now sender epoch name secs avatar)
    exact iff_of_true (hscreen.mpr fun _ heq => nomatch heq) trivial
  | profileUpdate sender avatar =>
    have hscreen := keyed_screened hk (screened_update h (h.attributeDevice sender)
      (f := fun p => { p with avatar := sanitizeAvatar avatar }) fun p => ⟨rfl, rfl, rfl⟩)
    exact iff_of_true (hscreen.mpr fun _ heq => nomatch heq) trivial
  | _ => exact iff_of_true hk trivial

theorem keyed_step_iff (C : Crypto) (h : History) (op : ℕ × HistoryOp)
    (hop : op.2.onRequests = true) (hk : RequestsKeyed h.book) :
    RequestsKeyed (h.step C op.1 op.2).book ↔ RequestKept h op := by
  obtain ⟨now, op⟩ := op
  cases op with
  | apply event => exact keyed_apply_iff C hk now event
  | acceptRequest key => exact iff_of_true (keyed_acceptRequest C now hk key) trivial
  | declineRequest key block => exact iff_of_true (keyed_declineRequest hk key block) trivial
  | renameContact key newUsername => exact keyed_rename_iff hk key newUsername
  | screenCallOffer senderKey claimed =>
    exact keyed_screened hk (screened_screenCallOffer h senderKey claimed now)
  | setRequestPrefs enabled allowText =>
    refine iff_of_true ?_ trivial
    unfold History.step History.setRequestPrefs
    dsimp only
    split
    · exact hk
    · exact keyed_acceptAll C now _ (h := { h with openMessaging := !enabled, requestTextAllowed := allowText }) hk
  | _ => cases hop

/-- The requests are under their keys, and whoever is refused has an accepted
contact in the way. -/
structure RequestsOk (C : Crypto) (h : History) : Prop where
  keyed : RequestsKeyed h.book
  refused : ∀ now key, h.isRequestPending key = true → (h.acceptRequest C now key).1 = false →
    ∃ name p, name ≠ key ∧ h.book name = some p ∧ p.pending = false

/-- **The requests stay under their keys exactly as long as every request that is
opened fits the book and no row that is renamed is pending.** -/
theorem requests_keyed_iff (C : Crypto) (ops : List (ℕ × HistoryOp))
    (hops : ∀ op ∈ ops, op.2.onRequests = true) :
    Trace.Along (fun h op => History.step C h op.1 op.2) RequestKept {} ops ↔
      ∀ pre, pre <+: ops → RequestsOk C (History.run C {} pre) := by
  have hempty : RequestsKeyed (History.book {}) := by
    constructor <;> intros <;> contradiction
  have hruns := Trace.along_iff_inv_on (P := fun op : ℕ × HistoryOp => op.2.onRequests = true)
    (fun h op hop => keyed_step_iff C h op hop) hempty ops hops
  rw [hruns]
  constructor
  · intro hk pre hpre
    exact ⟨hk pre hpre, fun now key => accept_refused C now (hk pre hpre)⟩
  · intro hok pre hpre
    exact (hok pre hpre).keyed

/-- A stranger waits, renames themselves to a name that is free, and another
stranger comes in under that name. -/
def renamedRequestOps : List (ℕ × HistoryOp) :=
  [(1, .apply (.message "K1" "mallory" "m1" "hi" 1 none none false)), (2, .apply (.renamed "K1" "alice")),
    (3, .apply (.message "K2" "alice" "m2" "hi" 3 none none false))]

/-- A stranger comes in under a name that is the key of another. -/
def keyNameOps : List (ℕ × HistoryOp) :=
  [(1, .apply (.message "K1" "mallory" "m1" "hi" 1 none none false)),
    (2, .apply (.message "K2" "K1" "m2" "hi" 2 none none false))]

theorem renamedRequest_moved :
    ¬ RequestsOk (sampleRelay []).crypto (History.run (sampleRelay []).crypto {} renamedRequestOps) := by
  intro hok
  have hrow : ((History.run (sampleRelay []).crypto {} renamedRequestOps).book "alice").map
      (fun p => (p.identityKey, p.pending)) = some ("K1", true) := by decide +kernel
  obtain ⟨p, hp, hpair⟩ := Option.map_eq_some_iff.mp hrow
  obtain ⟨hkey, hpending⟩ := Prod.mk.inj hpair
  have hname := hok.keyed.key "alice" p hp hpending
  rw [hkey] at hname
  exact absurd hname (by decide)

/-- A pending row leaves its key, and a request is refused for another request. -/
theorem requests_block_each_other :
    (∀ op ∈ renamedRequestOps ++ keyNameOps, op.2.onRequests = true) ∧
      ¬ RequestsOk (sampleRelay []).crypto (History.run (sampleRelay []).crypto {} renamedRequestOps) ∧
      ((History.run (sampleRelay []).crypto {} renamedRequestOps).acceptRequest (sampleRelay []).crypto 4 "K2").1 = false ∧
      ¬ RequestsOk (sampleRelay []).crypto (History.run (sampleRelay []).crypto {} keyNameOps) := by
  refine ⟨by decide, renamedRequest_moved, by decide +kernel, fun hok => ?_⟩
  have hrows : ∀ e ∈ (History.run (sampleRelay []).crypto {} keyNameOps).contacts.entries, e.2.pending = true := by
    decide +kernel
  obtain ⟨name, p, -, hp, hnot⟩ := hok.refused 3 "K2" (by decide +kernel) (by decide +kernel)
  have hpending := hrows ⟨name, p⟩ (AList.mem_lookup_iff.mp hp)
  rw [show p.pending = true from hpending] at hnot
  cases hnot

theorem requests_keyed_iff_renamed :
    (∀ op ∈ renamedRequestOps, op.2.onRequests = true) ∧
      ¬ Trace.Along (fun h op => History.step (sampleRelay []).crypto h op.1 op.2) RequestKept {} renamedRequestOps := by
  have hops : ∀ op ∈ renamedRequestOps, op.2.onRequests = true := by decide
  exact ⟨hops, fun hkept =>
    renamedRequest_moved ((requests_keyed_iff _ renamedRequestOps hops).mp hkept renamedRequestOps List.prefix_rfl)⟩

/-! ### What a peer may do to the book -/

/-- The device that sent the event. -/
def InboundEvent.sender : InboundEvent → Option String
  | .message sender .. | .messageEdited sender .. | .messageDeleted sender .. | .timerUpdate sender ..
  | .chatDeleted sender | .knock sender .. | .receipt sender .. | .attachment sender .. | .groupRosterUpdate sender ..
  | .groupMessage sender .. | .groupMessageEdited sender .. | .groupMessageDeleted sender .. | .groupRenamed sender ..
  | .groupMemberLeft sender .. | .groupAttachment sender .. | .groupTimerUpdate sender .. | .renamed sender ..
  | .profileUpdate sender .. | .groupAvatarUpdate sender .. | .selfProfileUpdate sender .. | .selfSentText sender ..
  | .selfSentFile sender .. | .selfReadSeen sender .. | .forwardedIncoming sender .. | .reaction sender ..
  | .selfReaction sender .. | .selfTimerUpdate sender .. | .groupReaction sender .. | .messagePinned sender ..
  | .selfMessagePinned sender .. | .groupMessagePinned sender .. => some sender
  | .other => none

/-- The account that the event is attributed to. -/
def History.account (h : History) (event : InboundEvent) : Option String :=
  event.sender.map h.attributeDevice

/-- At most one name that is not a request is given to the key. -/
def AtMostOneName (b : Book) (key : String) : Prop :=
  ∀ u u' p p', b u = some p → b u' = some p' → p.identityKey = key → p'.identityKey = key →
  p.pending = false →
    p'.pending = false → u = u'

/-- The key has such a name. -/
def HasName (b : Book) (key : String) : Prop :=
  ∃ u p, b u = some p ∧ p.identityKey = key ∧ p.pending = false

/-- Only rows of the key are other than before, no verification is lost or
won, and no second name is given to the key. -/
structure OnlyOf (key : String) (b b' : Book) : Prop where
  others : ∀ u p, p.identityKey ≠ key → (b' u = some p ↔ b u = some p)
  kept : ∀ u p, b u = some p → ∃ v q, b' v = some q ∧ q.identityKey = p.identityKey ∧
    q.verified = p.verified
  fresh : ∀ v q, b' v = some q → q.verified = true →
    ∃ u p, b u = some p ∧ p.identityKey = q.identityKey ∧ p.verified = true
  single : AtMostOneName b key → AtMostOneName b' key

theorem OnlyOf.refl (key : String) (b : Book) : OnlyOf key b b :=
  ⟨fun _ _ _ => Iff.rfl, fun u p hp => ⟨u, p, hp, rfl, rfl⟩, fun v q hq hv => ⟨v, q, hq, rfl, hv⟩, id⟩

section onlyOf

variable {key : String} {b : Book}

theorem onlyOf_refresh {u : String} {p p' : ContactPin} (hu : b u = some p)
    (hkey : p.identityKey = key) (hrow : SameRow p p') :
    OnlyOf key b (Function.update b u (some p')) := by
  have hkey' : p'.identityKey = key := hrow.key.trans hkey
  -- each row before has one after, and the other way round
  have hold : ∀ {v q}, Function.update b u (some p') v = some q →
      ∃ q₀, b v = some q₀ ∧ SameRow q₀ q := by
    intro v q hv
    by_cases hvu : v = u
    · rw [hvu, Function.update_self] at hv
      cases hv
      exact ⟨p, hvu ▸ hu, hrow⟩
    · rw [Function.update_of_ne hvu] at hv
      exact ⟨q, hv, rfl, rfl, rfl⟩
  constructor
  · intro v q hq
    by_cases hvu : v = u
    · subst hvu
      rw [Function.update_self, hu]
      constructor
      · rintro heq
        cases heq
        exact absurd hkey' hq
      · rintro heq
        cases heq
        exact absurd hkey hq
    · rw [Function.update_of_ne hvu]
  · intro v q hv
    by_cases hvu : v = u
    · subst hvu
      rw [hu] at hv
      cases hv
      exact ⟨v, p', Function.update_self _ _ _, hrow.key, hrow.verified⟩
    · exact ⟨v, q, by rw [Function.update_of_ne hvu, hv], rfl, rfl⟩
  · intro v q hv hverified
    obtain ⟨q₀, hq₀, hsame⟩ := hold hv
    exact ⟨v, q₀, hq₀, hsame.key.symm, hsame.verified ▸ hverified⟩
  · intro hone v v' q q' hv hv' hq hq' hp hp'
    obtain ⟨q₀, hq₀, hsame⟩ := hold hv
    obtain ⟨q₁, hq₁, hsame'⟩ := hold hv'
    exact hone v v' q₀ q₁ hq₀ hq₁ (hsame.key ▸ hq) (hsame'.key ▸ hq') (hsame.pending ▸ hp)
      (hsame'.pending ▸ hp')

/-- A row that is added changes no other, and gives no second name unless it is one. -/
theorem onlyOf_add {u : String} {p : ContactPin} (hu : b u = none) (hkey : p.identityKey = key)
    (hverified : p.verified = false)
    (hsingle : p.pending = false → AtMostOneName b key → ¬ HasName b key) :
    OnlyOf key b (Function.update b u (some p)) := by
  have hne : ∀ {v q}, b v = some q → v ≠ u := by
    rintro v q hv rfl
    rw [hu] at hv
    cases hv
  have hold : ∀ {v q}, Function.update b u (some p) v = some q →
      (v = u ∧ q = p) ∨ b v = some q := by
    intro v q hv
    by_cases hvu : v = u
    · rw [hvu, Function.update_self] at hv
      cases hv
      exact Or.inl ⟨hvu, rfl⟩
    · rw [Function.update_of_ne hvu] at hv
      exact Or.inr hv
  constructor
  · intro v q hq
    constructor
    · intro hv
      rcases hold hv with ⟨rfl, rfl⟩ | hv
      · exact absurd hkey hq
      · exact hv
    · intro hv
      rw [Function.update_of_ne (hne hv), hv]
  · intro v q hv
    exact ⟨v, q, by rw [Function.update_of_ne (hne hv), hv], rfl, rfl⟩
  · intro v q hv hq
    rcases hold hv with ⟨rfl, rfl⟩ | hv
    · rw [hverified] at hq
      cases hq
    · exact ⟨v, q, hv, rfl, hq⟩
  · intro hone v v' q q' hv hv' hq hq' hp hp'
    rcases hold hv with ⟨rfl, rfl⟩ | hv₁ <;> rcases hold hv' with ⟨rfl, rfl⟩ | hv₁'
    · rfl
    · exact absurd ⟨v', q', hv₁', hq', hp'⟩ (hsingle hp hone)
    · exact absurd ⟨v, q, hv₁, hq, hp⟩ (hsingle hp' hone)
    · exact hone v v' q q' hv₁ hv₁' hq hq' hp hp'

/-- A name is given to the key: the second one, if it had exactly one. -/
theorem onlyOf_pin_iff {name : String} (hname : b name = none) :
    OnlyOf key b (Function.update b name (some { identityKey := key })) ↔
    (AtMostOneName b key → ¬ HasName b key) := by
  constructor
  · rintro honly hone ⟨u, p, hu, hkey, hp⟩
    have hne : u ≠ name := by
      rintro rfl
      rw [hname] at hu
      cases hu
    have hu' : Function.update b name (some { identityKey := key }) u = some p := by
      rw [Function.update_of_ne hne, hu]
    have hboth := honly.single hone u name p { identityKey := key } hu'
      (Function.update_self _ _ _) hkey rfl hp rfl
    exact hne hboth
  · intro hsingle
    exact onlyOf_add hname rfl rfl fun _ => hsingle

theorem onlyOf_move {old new : String} {p : ContactPin} (hold : b old = some p)
    (hkey : p.identityKey = key) (hnew : b new = none) :
    OnlyOf key b (Function.update (Function.update b old none) new (some p)) := by
  have hne : new ≠ old := by
    rintro rfl
    rw [hold] at hnew
    cases hnew
  -- the row that moves stands at the new name, every other one where it stood
  have hrow : ∀ {v q}, Function.update (Function.update b old none) new (some p) v = some q →
      (v = new ∧ q = p) ∨ (v ≠ new ∧ v ≠ old ∧ b v = some q) := by
    intro v q hv
    by_cases hvn : v = new
    · rw [hvn, Function.update_self] at hv
      cases hv
      exact Or.inl ⟨hvn, rfl⟩
    · rw [Function.update_of_ne hvn] at hv
      by_cases hvo : v = old
      · rw [hvo, Function.update_self] at hv
        cases hv
      · rw [Function.update_of_ne hvo] at hv
        exact Or.inr ⟨hvn, hvo, hv⟩
  have hstays : ∀ {v q}, b v = some q → v ≠ old →
      Function.update (Function.update b old none) new (some p) v = some q := by
    intro v q hv hvo
    have hvn : v ≠ new := by
      rintro rfl
      rw [hnew] at hv
      cases hv
    rw [Function.update_of_ne hvn, Function.update_of_ne hvo, hv]
  constructor
  · intro v q hq
    constructor
    · intro hv
      rcases hrow hv with ⟨-, rfl⟩ | ⟨-, -, hv⟩
      · exact absurd hkey hq
      · exact hv
    · intro hv
      refine hstays hv ?_
      rintro rfl
      rw [hold] at hv
      cases hv
      exact hq hkey
  · intro v q hv
    by_cases hvo : v = old
    · subst hvo
      rw [hold] at hv
      cases hv
      exact ⟨new, p, Function.update_self _ _ _, rfl, rfl⟩
    · exact ⟨v, q, hstays hv hvo, rfl, rfl⟩
  · intro v q hv hq
    rcases hrow hv with ⟨-, rfl⟩ | ⟨-, -, hv⟩
    · exact ⟨old, q, hold, rfl, hq⟩
    · exact ⟨v, q, hv, rfl, hq⟩
  · intro hone v v' q q' hv hv' hq hq' hp hp'
    rcases hrow hv with ⟨rfl, rfl⟩ | ⟨-, hvo, hv₁⟩ <;> rcases hrow hv' with ⟨rfl, rfl⟩
      | ⟨-, hvo', hv₁'⟩
    · rfl
    · exact absurd (hone v' old q' q hv₁' hold hq' hq hp' hp) hvo'
    · exact absurd (hone v old q q' hv₁ hold hq hq' hp hp') hvo
    · exact hone v v' q q' hv₁ hv₁' hq hq' hp hp'

/-- A request takes the row that stands under the key, if there is one. -/
theorem onlyOf_screened {b' : Book} {opened : Option String} (hs : Screened b key opened b') :
    OnlyOf key b b' ↔ (opened.isSome = true → b key = none) := by
  cases hs with
  | same => exact iff_of_true (OnlyOf.refl key b) fun h => nomatch h
  | refreshed hu hkey hrow => exact iff_of_true (onlyOf_refresh hu hkey hrow) fun h => nomatch h
  | @opened p req hnone hkey hverified hreq =>
    have hpending : p.pending = true := by simp [ContactPin.pending, hreq]
    constructor
    · intro honly _
      by_contra hsome
      obtain ⟨q, hq⟩ := Option.ne_none_iff_exists'.mp hsome
      have hstill := (honly.others key q (hnone key q hq)).mpr hq
      rw [Function.update_self] at hstill
      cases hstill
      exact hnone key p hq hkey
    · intro hfree
      refine onlyOf_add (hfree rfl) hkey hverified fun hp => ?_
      rw [hpending] at hp
      cases hp

end onlyOf

section authority

variable (h : History) (C : Crypto) (now : ℕ)

/-- A request that is opened finds no row under its key. -/
def RowFits (convo claimed : String) : Prop :=
  (h.opens convo claimed).isSome = true → h.book convo = none

/-- A name is pinned for a key only if it is the first one. -/
def PinFits (convo claimed : String) : Prop :=
  h.letsIn convo = true → h.pins claimed convo = true → AtMostOneName h.book convo →
  ¬ HasName h.book convo

/-- What an event has to meet to touch the rows of its own account only. -/
def ContactFits : InboundEvent → Prop
  | .message sender username .. | .attachment sender username .. =>
    RowFits h (h.attributeDevice sender) username ∧ PinFits h (h.attributeDevice sender) username
  | .knock sender username => RowFits h (h.attributeDevice sender) username
  | _ => True

theorem onlyOf_content_iff (convo claimed : String) :
    OnlyOf convo h.book (h.screened now convo claimed id).book ↔
    RowFits h convo claimed ∧ PinFits h convo claimed := by
  rw [book_screened h (f := id) fun _ => rfl]
  by_cases hpin : h.letsIn convo = true ∧ h.pins claimed convo = true
  · rw [if_pos hpin]
    have hrow : RowFits h convo claimed := by
      unfold RowFits
      rw [opens_of_letsIn h hpin.1]
      exact fun hsome => nomatch hsome
    have hname : h.book claimed = none := by
      have hp := hpin.2
      unfold History.pins at hp
      simp only [Bool.and_eq_true, Option.isNone_iff_eq_none] at hp
      exact hp.1.2
    rw [onlyOf_pin_iff hname]
    constructor
    · intro hfirst
      exact ⟨hrow, fun _ _ => hfirst⟩
    · rintro ⟨-, hfirst⟩
      exact hfirst hpin.1 hpin.2
  · rw [if_neg hpin, onlyOf_screened (screened_screenInbound h convo claimed now)]
    constructor
    · intro hrow
      exact ⟨hrow, fun hin hp => absurd ⟨hin, hp⟩ hpin⟩
    · rintro ⟨hrow, -⟩
      exact hrow

theorem onlyOf_rename (key newUsername : String) :
    OnlyOf key h.book (h.renameContact key newUsername).2.book := by
  rw [book_renameContact]
  cases hnew : h.book newUsername with
  | some p => exact OnlyOf.refl key h.book
  | none =>
    cases hc : h.contactByKey key with
    | none => exact OnlyOf.refl key h.book
    | some up =>
      obtain ⟨hold, hkey⟩ := contactByKey_some hc
      exact onlyOf_move hold hkey hnew

/-- Our devices speak for our account. -/
theorem not_ownDevice {sender S : String} (hS : h.attributeDevice sender = S)
    (hown : h.selfPrimaryKey ≠ some S) :
    h.isOwnDevice sender = false := by
  unfold History.isOwnDevice
  cases hself : h.selfPrimaryKey with
  | none => rfl
  | some pk =>
    have hne : S ≠ pk := by
      rintro rfl
      exact hown hself
    refine decide_eq_false fun howner => hne ?_
    rw [← hS]
    unfold History.attributeDevice
    rw [howner]
    rfl

/-- **An event of another account touches the rows of that account only, exactly
if the request it opens finds no row and the name it pins is the first one.** -/
theorem contact_step_iff (event : InboundEvent) (S : String) (hS : h.account event = some S)
    (hown : h.selfPrimaryKey ≠ some S) :
    OnlyOf S h.book (h.apply C now event).book ↔ ContactFits h event := by
  rw [book_apply]
  have hsame : OnlyOf S h.book h.book ↔ True := iff_of_true (OnlyOf.refl S h.book) trivial
  have hscreen : ∀ {b'}, Screened h.book S none b' → (OnlyOf S h.book b' ↔ True) := fun hs =>
    iff_of_true ((onlyOf_screened hs).mpr fun hsome => nomatch hsome) trivial
  have hforeign : ∀ {sender} (b' : Book), h.attributeDevice sender = S →
      (OnlyOf S h.book (if h.isOwnDevice sender then b' else h.book) ↔ True) := by
    intro sender b' hsender
    rw [not_ownDevice h hsender hown]
    exact hsame
  have hsender : ∀ {sender}, some (h.attributeDevice sender) = some S →
      h.attributeDevice sender = S := Option.some.inj
  cases event with
  | other => cases hS
  | message sender username =>
    obtain rfl := hsender hS
    exact onlyOf_content_iff h now _ username
  | attachment sender username =>
    obtain rfl := hsender hS
    exact onlyOf_content_iff h now _ username
  | knock sender username =>
    obtain rfl := hsender hS
    exact onlyOf_screened (screened_screenKnock h _ username now)
  | renamed sender newUsername =>
    obtain rfl := hsender hS
    refine iff_of_true ?_ trivial
    unfold History.applyBook
    dsimp only
    split
    · exact OnlyOf.refl _ h.book
    · exact onlyOf_rename h _ _
  | profileUpdate sender avatar =>
    obtain rfl := hsender hS
    exact hscreen (screened_update h _ fun p => ⟨rfl, rfl, rfl⟩)
  | groupRosterUpdate sender epoch name secs avatar =>
    obtain rfl := hsender hS
    exact hscreen (screened_screenRosterUpdate h now sender epoch name secs avatar)
  | forwardedIncoming => exact hforeign _ (hsender hS)
  | selfSentText => exact hforeign _ (hsender hS)
  | selfSentFile => exact hforeign _ (hsender hS)
  | _ => exact hsame

end authority

/-! ### Names that others may not take -/

/-- The name belongs to a contact who is not waiting. -/
def Taken (b : Book) (name : String) : Prop := ∃ p, b name = some p ∧ p.pending = false

/-- The account whose doing an operation is, if it is not the user's own. What
our devices forward is the doing of the one who wrote it. -/
def History.author (h : History) : HistoryOp → Option String
  | .apply (.forwardedIncoming sender fromKey ..) =>
    some (h.attributeDevice (if h.isOwnDevice sender then fromKey else sender))
  | .apply event => h.account event
  | .screenCallOffer senderKey _ => some (h.attributeDevice senderKey)
  | _ => none

/-- Neither the account's doing nor ours. -/
def ByOther (account : String) (h : History) (op : ℕ × HistoryOp) : Prop :=
  ∃ S, h.author op.2 = some S ∧ S ≠ account ∧ h.selfPrimaryKey ≠ some S

/-- The name is not pinned for the one who claims it. -/
def ClaimSpares (name : String) (h : History) (convo claimed : String) : Prop :=
  h.letsIn convo = true → h.pins claimed convo = true → claimed ≠ name

/-- No contact is given the name: neither by a message under it nor by a rename. -/
def NameSpared (name : String) (h : History) (op : ℕ × HistoryOp) : Prop :=
  match op.2 with
  | .apply (.message sender username ..) | .apply (.attachment sender username ..) =>
    ClaimSpares name h (h.attributeDevice sender) username
  | .apply (.forwardedIncoming sender fromKey fromUsername ..) =>
    h.isOwnDevice sender = true → ClaimSpares name h (h.attributeDevice fromKey) fromUsername
  | .apply (.renamed sender newUsername) => (trim newUsername.toList).isEmpty = false →
    String.ofList (trim newUsername.toList) = name → h.book name = none →
      ∀ old p, h.contactByKey (h.attributeDevice sender) = some (old, p) → p.pending = true
  | _ => True

section names

variable {h : History} {name : String}

theorem taken_screened {b b' : Book} {convo : String} {opened : Option String}
    (hs : Screened b convo opened b') (hfree : ¬ Taken b name) : ¬ Taken b' name := by
  cases hs with
  | same => exact hfree
  | @refreshed u p p' hu hkey hrow =>
    rintro ⟨q, hq, hpending⟩
    by_cases hn : name = u
    · subst hn
      rw [Function.update_self] at hq
      cases hq
      exact hfree ⟨p, hu, hrow.pending ▸ hpending⟩
    · rw [Function.update_of_ne hn] at hq
      exact hfree ⟨q, hq, hpending⟩
  | @opened p req hnone hkey hverified hreq =>
    rintro ⟨q, hq, hpending⟩
    by_cases hn : name = convo
    · subst hn
      rw [Function.update_self] at hq
      cases hq
      simp [ContactPin.pending, hreq] at hpending
    · rw [Function.update_of_ne hn] at hq
      exact hfree ⟨q, hq, hpending⟩

theorem taken_content_iff (now : ℕ) (hfree : ¬ Taken h.book name) (convo claimed : String) :
    ¬ Taken (h.screened now convo claimed id).book name ↔ ClaimSpares name h convo claimed := by
  rw [book_screened h (f := id) fun _ => rfl]
  by_cases hpin : h.letsIn convo = true ∧ h.pins claimed convo = true
  · rw [if_pos hpin]
    constructor
    · rintro hspared - - rfl
      exact hspared ⟨_, Function.update_self _ _ _, rfl⟩
    · rintro hspares ⟨q, hq, hpending⟩
      rw [Function.update_of_ne (hspares hpin.1 hpin.2).symm] at hq
      exact hfree ⟨q, hq, hpending⟩
  · rw [if_neg hpin]
    exact iff_of_true (taken_screened (screened_screenInbound h convo claimed now) hfree)
      fun hin hp => absurd ⟨hin, hp⟩ hpin

theorem taken_rename_iff (hfree : ¬ Taken h.book name) (key newUsername : String) :
    ¬ Taken (h.renameContact key newUsername).2.book name ↔
      (newUsername = name → h.book name = none → ∀ old p, h.contactByKey key = some (old, p) →
        p.pending = true) := by
  rw [book_renameContact]
  by_cases hname : newUsername = name
  · subst hname
    cases hnew : h.book newUsername with
    | some p => exact iff_of_true hfree fun _ heq => nomatch heq
    | none =>
      cases hc : h.contactByKey key with
      | none => exact iff_of_true hfree fun _ _ _ _ heq => nomatch heq
      | some up =>
        obtain ⟨old, p⟩ := up
        constructor
        · rintro hspared - - old' p' heq
          cases heq
          by_contra hpending
          exact hspared ⟨p, Function.update_self _ _ _, by simpa using hpending⟩
        · rintro hpending ⟨q, hq, hnot⟩
          dsimp only at hq
          rw [Function.update_self] at hq
          cases hq
          rw [hpending rfl rfl old p rfl] at hnot
          cases hnot
  · refine iff_of_true ?_ fun heq => absurd heq hname
    cases hnew : h.book newUsername with
    | some p => exact hfree
    | none =>
      cases hc : h.contactByKey key with
      | none => exact hfree
      | some up =>
        obtain ⟨old, p⟩ := up
        rintro ⟨q, hq, hpending⟩
        dsimp only at hq
        rw [Function.update_of_ne (Ne.symm hname)] at hq
        by_cases hold : name = old
        · rw [hold, Function.update_self] at hq
          cases hq
        · rw [Function.update_of_ne hold] at hq
          exact hfree ⟨q, hq, hpending⟩

theorem name_step_iff (C : Crypto) {account : String} (op : ℕ × HistoryOp)
    (hother : ByOther account h op) (hfree : ¬ Taken h.book name) :
    ¬ Taken (h.step C op.1 op.2).book name ↔ NameSpared name h op := by
  obtain ⟨now, op⟩ := op
  obtain ⟨S, hauthor, -, hown⟩ := hother
  have hscreen : ∀ {convo opened b'}, Screened h.book convo opened b' → (¬ Taken b' name ↔ True) :=
    fun hs =>
    iff_of_true (taken_screened hs hfree) trivial
  have hsame : ¬ Taken h.book name ↔ True := iff_of_true hfree trivial
  have hforeign : ∀ {sender} (b' : Book), h.attributeDevice sender = S →
      (¬ Taken (if h.isOwnDevice sender then b' else h.book) name ↔ True) := by
    intro sender b' hsender
    rw [not_ownDevice h hsender hown]
    exact hsame
  cases op with
  | screenCallOffer senderKey claimed =>
    exact hscreen (screened_screenCallOffer h senderKey claimed now)
  | apply event =>
    have hstep : (h.step C now (.apply event)).book = h.applyBook C now event :=
      book_apply h C now event
    dsimp only at hauthor ⊢
    rw [hstep]
    cases event with
    | other => cases hauthor
    | message sender username => exact taken_content_iff now hfree _ username
    | attachment sender username => exact taken_content_iff now hfree _ username
    | knock sender username => exact hscreen (screened_screenKnock h _ username now)
    | forwardedIncoming sender fromKey fromUsername =>
      unfold History.applyBook NameSpared
      dsimp only
      cases hdevice : h.isOwnDevice sender with
      | true => simpa using taken_content_iff now hfree _ fromUsername
      | false => simpa using hfree
    | renamed sender newUsername =>
      unfold History.applyBook NameSpared
      dsimp only
      cases hempty : (trim newUsername.toList).isEmpty with
      | true => simpa using hfree
      | false => simpa using taken_rename_iff hfree _ _
    | profileUpdate sender avatar => exact hscreen (screened_update h _ fun p => ⟨rfl, rfl, rfl⟩)
    | groupRosterUpdate sender epoch name' secs avatar =>
      exact hscreen (screened_screenRosterUpdate h now sender epoch name' secs avatar)
    | selfSentText => exact hforeign _ (Option.some.inj hauthor)
    | selfSentFile => exact hforeign _ (Option.some.inj hauthor)
    | _ => exact hsame
  | _ => cases hauthor

/-- A name that nobody has is no ground to drop a first message. -/
theorem heard_of_free (hfree : ¬ Taken h.book name) (account : String) (now : ℕ) (hname : name ≠ "")
    (hself : name ≠ noteToSelfPeer) : (h.screenInbound account name now).1 ≠ .dropped := by
  have havailable : h.claimedNameUnavailable name = false := by
    unfold History.claimedNameUnavailable
    simp only [hname, hself, decide_false, Bool.false_or, Option.any_eq_false]
    intro p hp
    by_contra hreq
    exact hfree ⟨p, hp, by simpa [ContactPin.pending] using hreq⟩
  unfold History.screenInbound
  split
  · simp
  · cases hc : h.contactByKey account with
    | some up =>
      dsimp only
      split <;> simp
    | none => simp [havailable]

end names

/-- The name is nobody's, and whoever comes in under it is heard. -/
structure NameFree (account name : String) (h : History) : Prop where
  free : ¬ Taken h.book name
  heard : ∀ now, name ≠ "" → name ≠ noteToSelfPeer → (h.screenInbound account name now).1 ≠ .dropped

/-- What is not another's doing leaves the name to whoever claims it. -/
def OursSpares (C : Crypto) (account name : String) (h : History) (op : ℕ × HistoryOp) : Prop :=
  ¬ ByOther account h op → ¬ Taken h.book name → ¬ Taken (h.step C op.1 op.2).book name

def OthersSpare (account name : String) (h : History) (op : ℕ × HistoryOp) : Prop :=
  ByOther account h op → NameSpared name h op

theorem name_stays_free (C : Crypto) (account name : String) {h : History}
    (hfree : ¬ Taken h.book name) (ops : List (ℕ × HistoryOp))
    (hours : Trace.Along (fun h op => History.step C h op.1 op.2) (OursSpares C account name) h ops) :
    Trace.Along (fun h op => History.step C h op.1 op.2) (OthersSpare account name) h ops ↔
      ∀ pre, pre <+: ops → NameFree account name (History.run C h pre) := by
  have hkeep : ∀ h op, OursSpares C account name h op → ¬ Taken h.book name →
      (¬ Taken (h.step C op.1 op.2).book name ↔ OthersSpare account name h op) := by
    intro h op hour hfree
    by_cases hother : ByOther account h op
    · rw [name_step_iff C op hother hfree]
      exact ⟨fun hspared _ => hspared, fun hspared => hspared hother⟩
    · exact iff_of_true (hour hother hfree) fun h' => absurd h' hother
  rw [hours.iff_inv hkeep hfree]
  constructor
  · intro hall pre hpre
    exact ⟨hall pre hpre, fun now => heard_of_free (hall pre hpre) account now⟩
  · intro hall pre hpre
    exact (hall pre hpre).free

/-- **An event of another account touches the rows of that account only, and the
name that a newcomer claims stays free, exactly as far as no request takes the row of
a contact named like its key, and no contact is given a second name or that one.** -/
theorem contact_authority_iff (C : Crypto) (ops : List (ℕ × HistoryOp)) :
    (∀ now event S, (History.run C {} ops).account event = some S →
      (History.run C {} ops).selfPrimaryKey ≠ some S →
      (OnlyOf S (History.run C {} ops).book ((History.run C {} ops).apply C now event).book ↔
        ContactFits (History.run C {} ops) event)) ∧
    ∀ account name,
      Trace.Along (fun h op => History.step C h op.1 op.2) (OursSpares C account name) {} ops →
      (Trace.Along (fun h op => History.step C h op.1 op.2) (OthersSpare account name) {} ops ↔
        ∀ pre, pre <+: ops → NameFree account name (History.run C {} pre)) := by
  constructor
  · intro now event S hS hown
    exact contact_step_iff _ C now event S hS hown
  · intro account name hours
    exact name_stays_free C account name (fun ⟨p, hp, _⟩ => nomatch hp) ops hours

/-- The user has verified a contact, and knows them as "bob". -/
def verifiedOps : List (ℕ × HistoryOp) := [(1, .pinContact "bob" "B" true)]

/-- The contact sends under another name. -/
def secondNameEvent : InboundEvent := .message "B" "carol" "m1" "hi" 2 none none false

def secondNameOps : List (ℕ × HistoryOp) := verifiedOps ++ [(2, .apply secondNameEvent)]

/-- The contact takes the key of a stranger for a name, and the stranger comes in. -/
def keyNameEvent : InboundEvent := .message "C" "dave" "m2" "hi" 3 none none false

def keyTakenOps : List (ℕ × HistoryOp) := verifiedOps ++ [(2, .apply (.renamed "B" "C"))]

/-- What a lookup shows of a row. -/
def History.shown (h : History) (name : String) : Option (String × Bool × Bool) :=
  (h.book name).map fun p => (p.identityKey, p.verified, p.pending)

theorem shown_some {h : History} {name key : String} {verified pending : Bool}
    (hs : h.shown name = some (key, verified, pending)) :
    ∃ p, h.book name = some p ∧ p.identityKey = key ∧ p.verified = verified ∧
    p.pending = pending := by
  obtain ⟨p, hp, heq⟩ := Option.map_eq_some_iff.mp hs
  obtain ⟨hkey, hrest⟩ := Prod.mk.inj heq
  obtain ⟨hverified, hpending⟩ := Prod.mk.inj hrest
  exact ⟨p, hp, hkey, hverified, hpending⟩

theorem secondName_taken :
    Taken (History.run (sampleRelay []).crypto {} secondNameOps).book "carol" := by
  have hcarol : (History.run (sampleRelay []).crypto {} secondNameOps).shown "carol" =
      some ("B", false, false) := by
    decide +kernel
  obtain ⟨p, hp, -, -, hpending⟩ := shown_some hcarol
  exact ⟨p, hp, hpending⟩

theorem secondName_only : ¬ OnlyOf "B" (History.run (sampleRelay []).crypto {} verifiedOps).book
    ((History.run (sampleRelay []).crypto {} verifiedOps).apply (sampleRelay []).crypto 2 secondNameEvent).book := by
  intro honly
  have hrows : ∀ e ∈ (History.run (sampleRelay []).crypto {} verifiedOps).contacts.entries, e.1 = "bob" := by
    decide +kernel
  have hbob : ∀ {u p}, (History.run (sampleRelay []).crypto {} verifiedOps).book u = some p →
      u = "bob" := fun hp =>
    hrows ⟨_, _⟩ (AList.mem_lookup_iff.mp hp)
  have hbefore : AtMostOneName (History.run (sampleRelay []).crypto {} verifiedOps).book "B" := by
    intro u u' p p' hp hp' _ _ _ _
    rw [hbob hp, hbob hp']
  have hshown : ((History.run (sampleRelay []).crypto {} verifiedOps).apply (sampleRelay []).crypto 2
      secondNameEvent).shown "bob" = some ("B", true, false) := by decide +kernel
  have hshown' :
      ((History.run (sampleRelay []).crypto {} verifiedOps).apply (sampleRelay []).crypto 2
      secondNameEvent).shown "carol" = some ("B", false, false) := by decide +kernel
  obtain ⟨p, hp, hkey, -, hpending⟩ := shown_some hshown
  obtain ⟨q, hq, hkey', -, hpending'⟩ := shown_some hshown'
  have htwo := honly.single hbefore "bob" "carol" p q hp hq hkey hkey' hpending hpending'
  exact absurd htwo (by decide)

/-- A contact has two names, and the one who comes in under the second is
dropped; the row of a contact goes when a stranger comes in. -/
theorem contact_names_taken :
    (¬ OnlyOf "B" (History.run (sampleRelay []).crypto {} verifiedOps).book
      ((History.run (sampleRelay []).crypto {} verifiedOps).apply (sampleRelay []).crypto 2 secondNameEvent).book ∧
      ((History.run (sampleRelay []).crypto {} secondNameOps).screenInbound "A" "carol" 3).1 = .dropped) ∧
    ¬ OnlyOf "C" (History.run (sampleRelay []).crypto {} keyTakenOps).book
      ((History.run (sampleRelay []).crypto {} keyTakenOps).apply (sampleRelay []).crypto 3 keyNameEvent).book := by
  refine ⟨⟨secondName_only, by decide +kernel⟩, fun honly => ?_⟩
  have hbefore : (History.run (sampleRelay []).crypto {} keyTakenOps).shown "C" =
      some ("B", true, false) := by
    decide +kernel
  have hafter : ((History.run (sampleRelay []).crypto {} keyTakenOps).apply (sampleRelay []).crypto 3
      keyNameEvent).shown "C" = some ("C", false, true) := by decide +kernel
  obtain ⟨p, hp, hkey, -, -⟩ := shown_some hbefore
  obtain ⟨q, hq, hkey', -, -⟩ := shown_some hafter
  have hne : p.identityKey ≠ "C" := by
    rw [hkey]
    decide
  have hstill := (honly.others "C" p hne).mpr hp
  rw [hq] at hstill
  cases hstill
  exact hne hkey'

theorem contact_authority_iff_second :
    ¬ ContactFits (History.run (sampleRelay []).crypto {} verifiedOps) secondNameEvent ∧
      ¬ Trace.Along (fun h op => History.step (sampleRelay []).crypto h op.1 op.2) (OthersSpare "A" "carol") {}
        secondNameOps := by
  have hours : Trace.Along (fun h op => History.step (sampleRelay []).crypto h op.1 op.2)
      (OursSpares (sampleRelay []).crypto "A" "carol") {} secondNameOps := by
    refine ⟨?_, ?_, trivial⟩
    · rintro - - ⟨p, hp, -⟩
      have hrow : (History.run (sampleRelay []).crypto {} verifiedOps).shown "carol" = none := by
        decide +kernel
      have hnone : (History.run (sampleRelay []).crypto {} verifiedOps).book "carol" = none :=
        Option.map_eq_none_iff.mp hrow
      exact nomatch hnone.symm.trans hp
    · intro hnot
      exact absurd ⟨"B", by decide +kernel, by decide, by decide +kernel⟩ hnot
  constructor
  · intro hfits
    have hiff := (contact_authority_iff (sampleRelay []).crypto verifiedOps).1 2 secondNameEvent "B"
      (by decide +kernel) (by decide +kernel)
    exact secondName_only (hiff.mpr hfits)
  · intro hspare
    have hfree := ((contact_authority_iff (sampleRelay []).crypto secondNameOps).2 "A" "carol" hours).mp hspare
    exact (hfree secondNameOps List.prefix_rfl).free secondName_taken

end Sona
