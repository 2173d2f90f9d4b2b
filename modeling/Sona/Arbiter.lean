/-
# The answer race

Every device of the callee may answer a call, and the caller's `AnswerArbiter`
(`client-core/src/callstate.rs`) gives the call to one of them: the first valid claim
wins permanently. Claims arrive in any order and more than once.

What the arbiter answers is decided by the first valid claim alone (`delivered_won`): it
is the winner, its copies are duplicates, and every other valid claim has lost to it. So two
orders in which the same valid claim is the first give each claimant the same answer
(`single_answer`).

Key definitions: `AnswerArbiter.claim`, `AnswerArbiter.delivered`, `AnswerArbiter.answer`,
`OneAnswer`. Key theorems: `claim_won`, `delivered_won`, `single_answer`.
-/
import Sona.CallStore

namespace Sona

/-- One answer attempt. -/
structure AnswerClaim where
  callInstanceId : String
  offerId : String
  claimNonce : String
  answeringDeviceId : String
  replyToMailbox : String
deriving DecidableEq, Repr

structure AnswerWinner where
  claimNonce : String
  answeringDeviceId : String
  replyToMailbox : String
deriving DecidableEq, Repr

inductive ClaimDecision
  | winner (w : AnswerWinner)
  | duplicate (w : AnswerWinner)
  | lost (w : AnswerWinner)
  | invalid
deriving DecidableEq, Repr

/-- Caller-side first-answer arbiter. -/
structure AnswerArbiter where
  callInstanceId : String := ""
  offerId : String := ""
  winner : Option AnswerWinner := none
deriving DecidableEq, Repr

def AnswerArbiter.new (callInstanceId offerId : String) : AnswerArbiter :=
  { callInstanceId, offerId, winner := none }

/-- The checks that a claim must pass. -/
def AnswerArbiter.valid (a : AnswerArbiter) (c : AnswerClaim) : Bool :=
  !(c.callInstanceId != a.callInstanceId || c.offerId != a.offerId || !validCallId c.claimNonce ||
    !validDeviceId c.answeringDeviceId || (utf8 c.replyToMailbox).length != 64 ||
    !(utf8 c.replyToMailbox).all fun b => (48 ≤ b && b ≤ 57) || (97 ≤ b && b ≤ 102))

/-- What a claim asks to win with. -/
def AnswerClaim.winner (c : AnswerClaim) : AnswerWinner where
  claimNonce := c.claimNonce
  answeringDeviceId := c.answeringDeviceId
  replyToMailbox := c.replyToMailbox

def AnswerArbiter.claim (a : AnswerArbiter) (c : AnswerClaim) : ClaimDecision × AnswerArbiter :=
  if !a.valid c then (.invalid, a) else
  match a.winner with
  | some winner =>
    if winner.claimNonce == c.claimNonce && winner.answeringDeviceId == c.answeringDeviceId &&
        winner.replyToMailbox == c.replyToMailbox then (.duplicate winner, a)
    else (.lost winner, a)
  | none => (.winner c.winner, { a with winner := some c.winner })

/-- The claims that are delivered, each with its answer. -/
def AnswerArbiter.delivered : AnswerArbiter → List AnswerClaim → List (AnswerClaim × ClaimDecision)
  | _, [] => []
  | a, c :: cs => (c, (a.claim c).1) :: (a.claim c).2.delivered cs

/-- What the arbiter answers once `first` has won. -/
def AnswerArbiter.answer (a : AnswerArbiter) (first c : AnswerClaim) : ClaimDecision :=
  if a.valid c = false then .invalid else
  if c = first then .duplicate first.winner else .lost first.winner

def ClaimDecision.isWinner : ClaimDecision → Bool
  | .winner _ => true
  | _ => false

/-- An answer, where the first delivery of the winner is told from its copies no more. -/
def ClaimDecision.settled : ClaimDecision → ClaimDecision
  | .winner w => .duplicate w
  | d => d

section answers

variable {a : AnswerArbiter} {first c : AnswerClaim}

/-- An invalid claim changes nothing. -/
theorem claim_invalid (h : a.valid c = false) : a.claim c = (.invalid, a) := by
  unfold AnswerArbiter.claim
  rw [h]
  rfl

/-- The first valid claim wins. -/
theorem claim_first (hfree : a.winner = none) (h : a.valid c = true) :
    a.claim c = (.winner c.winner, { a with winner := some c.winner }) := by
  unfold AnswerArbiter.claim
  rw [h, hfree]
  rfl

/-- Valid claims that ask to win with the same are the same. -/
theorem eq_of_winner (hfirst : a.valid first = true) (h : a.valid c = true)
    (heq : c.winner = first.winner) :
    c = first := by
  obtain ⟨call, offer, nonce, device, mailbox⟩ := c
  obtain ⟨call', offer', nonce', device', mailbox'⟩ := first
  simp only [AnswerArbiter.valid, Bool.not_eq_true', Bool.or_eq_false_iff,
    bne_eq_false_iff_eq] at hfirst h
  obtain ⟨⟨⟨⟨⟨hcall, hoffer⟩, -⟩, -⟩, -⟩, -⟩ := h
  obtain ⟨⟨⟨⟨⟨hcall', hoffer'⟩, -⟩, -⟩, -⟩, -⟩ := hfirst
  simp only [AnswerClaim.winner, AnswerWinner.mk.injEq] at heq
  obtain ⟨rfl, rfl, rfl⟩ := heq
  rw [hcall, hoffer, hcall', hoffer']

/-- Once a claim has won, every claim is answered by it, and the arbiter stays. -/
theorem claim_won (hfirst : a.valid first = true) (hwon : a.winner = some first.winner) :
    a.claim c = (a.answer first c, a) := by
  unfold AnswerArbiter.answer
  cases h : a.valid c with
  | false =>
    rw [claim_invalid h]
    rfl
  | true =>
    rw [if_neg (by simp)]
    unfold AnswerArbiter.claim
    rw [h, hwon]
    by_cases hsame : c = first
    · rw [if_pos hsame, hsame]
      simp [AnswerClaim.winner]
    · rw [if_neg hsame]
      have hdiffer : (first.winner.claimNonce == c.claimNonce &&
          first.winner.answeringDeviceId == c.answeringDeviceId &&
          first.winner.replyToMailbox == c.replyToMailbox) = false := by
        refine Bool.eq_false_iff.mpr fun heq => hsame (eq_of_winner hfirst h ?_)
        simp only [Bool.and_eq_true, beq_iff_eq] at heq
        obtain ⟨⟨hnonce, hdevice⟩, hmailbox⟩ := heq
        unfold AnswerClaim.winner at hnonce hdevice hmailbox ⊢
        rw [AnswerWinner.mk.injEq]
        exact ⟨hnonce.symm, hdevice.symm, hmailbox.symm⟩
      dsimp only
      rw [hdiffer]
      rfl

/-- The answers once a claim has won. -/
theorem delivered_won (hfirst : a.valid first = true) (hwon : a.winner = some first.winner) :
    ∀ cs : List AnswerClaim, a.delivered cs = cs.map fun c => (c, a.answer first c)
  | [] => rfl
  | c :: cs => by
    unfold AnswerArbiter.delivered
    rw [claim_won hfirst hwon, delivered_won hfirst hwon cs]
    rfl

/-- The answers to claims that are all invalid, and to what follows them. -/
theorem delivered_invalid {cs : List AnswerClaim} :
    ∀ {pre : List AnswerClaim}, (∀ c ∈ pre, a.valid c = false) →
    a.delivered (pre ++ cs) = pre.map (fun c => (c, .invalid)) ++ a.delivered cs
  | [], _ => rfl
  | c :: pre, h => by
    rw [List.cons_append, AnswerArbiter.delivered, claim_invalid (h c List.mem_cons_self),
      delivered_invalid fun c' hc' => h c' (List.mem_cons_of_mem c hc')]
    rfl

end answers

/-- One answer race: what is answered to claims that are delivered to a new arbiter. -/
structure OneAnswer (a : AnswerArbiter) (claims : List AnswerClaim) : Prop where
  /-- At most one claim is answered as the winner, and once. -/
  once : ((a.delivered claims).filter fun p => p.2.isWinner).length ≤ 1
  /-- It is the first valid one, and every later claim is answered by it. -/
  first : ∀ pre first rest, claims = pre ++ first :: rest → (∀ c ∈ pre, a.valid c = false) →
    a.valid first = true → a.delivered claims = pre.map (fun c => (c, .invalid)) ++
      (first, .winner first.winner) :: rest.map fun c => (c, a.answer first c)
  /-- Without a valid claim there is no winner. -/
  none : (∀ c ∈ claims, a.valid c = false) → a.delivered claims = claims.map fun c => (c, .invalid)
  /-- An invalid claim changes nothing, wherever it comes. -/
  invalid : ∀ pre c, pre <+: claims → a.valid c = false →
    (Trace.run (fun a c => (a.claim c).2) a pre).claim c = (.invalid, Trace.run (fun a c => (a.claim c).2) a pre)
  /-- In another order with the same first valid claim, each claim has the same answer. -/
  orders : ∀ claims', claims'.Perm claims → claims'.find? a.valid = claims.find? a.valid →
    ∀ c d d', (c, d) ∈ a.delivered claims → (c, d') ∈ a.delivered claims' → d.settled = d'.settled

section race

variable {a : AnswerArbiter}

/-- A race with a valid claim. -/
theorem delivered_first (hfree : a.winner = none) {pre rest : List AnswerClaim}
    {first : AnswerClaim} (hpre : ∀ c ∈ pre, a.valid c = false) (hfirst : a.valid first = true) :
    a.delivered (pre ++ first :: rest) = pre.map (fun c => (c, .invalid)) ++
      (first, .winner first.winner) :: rest.map fun c => (c, a.answer first c) := by
  have hwon : ({ a with winner := some first.winner } : AnswerArbiter).delivered rest =
      rest.map fun c => (c, a.answer first c) :=
    delivered_won (a := { a with winner := some first.winner }) hfirst rfl rest
  rw [delivered_invalid hpre, AnswerArbiter.delivered, claim_first hfree hfirst, hwon]

/-- A race without one. -/
theorem delivered_none {cs : List AnswerClaim} (h : ∀ c ∈ cs, a.valid c = false) :
    a.delivered cs = cs.map fun c => (c, .invalid) := by
  have hall : a.delivered (cs ++ []) = _ := delivered_invalid h
  rwa [List.append_nil, AnswerArbiter.delivered, List.append_nil] at hall

/-- Every answer is the one that the first valid claim gives, the first delivery aside. -/
theorem settled_delivered (hfree : a.winner = none) {cs : List AnswerClaim} {c : AnswerClaim}
    {d : ClaimDecision} (h : (c, d) ∈ a.delivered cs) : d.settled = match cs.find? a.valid with
      | some first => a.answer first c
      | none => .invalid := by
  cases hfind : cs.find? a.valid with
  | none =>
    have hnone : ∀ c ∈ cs, a.valid c = false := by simpa using hfind
    rw [delivered_none hnone] at h
    obtain ⟨c', -, heq⟩ := List.mem_map.mp h
    rw [← (Prod.mk.inj heq).2]
    rfl
  | some first =>
    obtain ⟨hfirst, pre, rest, rfl, hpre⟩ := List.find?_eq_some_iff_append.mp hfind
    have hpre' : ∀ c ∈ pre, a.valid c = false := fun c hc => by simpa using hpre c hc
    rw [delivered_first hfree hpre' hfirst] at h
    dsimp only
    rcases List.mem_append.mp h with hbefore | hafter
    · obtain ⟨c', hc', heq⟩ := List.mem_map.mp hbefore
      obtain ⟨rfl, rfl⟩ := Prod.mk.inj heq
      unfold AnswerArbiter.answer
      rw [if_pos (hpre' c' hc')]
      rfl
    · rcases List.mem_cons.mp hafter with heq | hlater
      · obtain ⟨rfl, rfl⟩ := Prod.mk.inj heq
        unfold AnswerArbiter.answer
        rw [if_neg (by simp [hfirst]), if_pos rfl]
        rfl
      · obtain ⟨c', -, heq⟩ := List.mem_map.mp hlater
        obtain ⟨rfl, rfl⟩ := Prod.mk.inj heq
        unfold AnswerArbiter.answer
        split
        · rfl
        · split <;> rfl

/-- The first deliveries of winners: the first valid claim, if there is one. -/
theorem won_delivered (hfree : a.winner = none) (cs : List AnswerClaim) :
    (a.delivered cs).filter (fun p => p.2.isWinner) =
      ((cs.find? a.valid).map fun first => (first, ClaimDecision.winner first.winner)).toList := by
  have hlost : ∀ (first : AnswerClaim) (rest : List AnswerClaim),
      (rest.map fun c => (c, a.answer first c)).filter (fun p => p.2.isWinner) = [] := by
    intro first rest
    refine List.filter_eq_nil_iff.mpr fun p hp => ?_
    obtain ⟨c, -, rfl⟩ := List.mem_map.mp hp
    unfold AnswerArbiter.answer
    dsimp only
    split
    · exact Bool.false_ne_true
    · split <;> exact Bool.false_ne_true
  have hinvalid : ∀ pre : List AnswerClaim, (pre.map fun c => (c, ClaimDecision.invalid)).filter
      (fun p => p.2.isWinner) = [] := by
    intro pre
    refine List.filter_eq_nil_iff.mpr fun p hp => ?_
    obtain ⟨c, -, rfl⟩ := List.mem_map.mp hp
    exact Bool.false_ne_true
  cases hfind : cs.find? a.valid with
  | none =>
    have hnone : ∀ c ∈ cs, a.valid c = false := by simpa using hfind
    rw [delivered_none hnone, hinvalid]
    rfl
  | some first =>
    obtain ⟨hfirst, pre, rest, rfl, hpre⟩ := List.find?_eq_some_iff_append.mp hfind
    have hpre' : ∀ c ∈ pre, a.valid c = false := fun c hc => by simpa using hpre c hc
    rw [delivered_first hfree hpre' hfirst, List.filter_append, hinvalid,
      List.filter_cons_of_pos, hlost]
    · rfl
    · rfl

/-- Delivering claims leaves the call and the offer, which say what is valid. -/
theorem valid_run (pre : List AnswerClaim) (c : AnswerClaim) :
    (Trace.run (fun a c => (a.claim c).2) a pre).valid c = a.valid c := by
  have hids : ∀ (b : AnswerArbiter) (c : AnswerClaim),
      (b.claim c).2.callInstanceId = b.callInstanceId ∧ (b.claim c).2.offerId = b.offerId := by
    intro b c
    unfold AnswerArbiter.claim
    split
    · exact ⟨rfl, rfl⟩
    · split
      · split <;> exact ⟨rfl, rfl⟩
      · exact ⟨rfl, rfl⟩
  obtain ⟨hcall, hoffer⟩ := Trace.run_inv
    (I := fun b : AnswerArbiter => b.callInstanceId = a.callInstanceId ∧ b.offerId = a.offerId)
    (fun b c hb => ⟨(hids b c).1.trans hb.1, (hids b c).2.trans hb.2⟩) ⟨rfl, rfl⟩ pre
  unfold AnswerArbiter.valid
  rw [hcall, hoffer]

end race

/-- **One answer wins.** Whatever claims are delivered to a new arbiter, in whatever order and
however often: the first valid one wins, and every other answer follows from it. -/
theorem single_answer (callInstanceId offerId : String) (claims : List AnswerClaim) :
    OneAnswer (AnswerArbiter.new callInstanceId offerId) claims := by
  have hfree : (AnswerArbiter.new callInstanceId offerId).winner = none := rfl
  exact {
    once := by
      rw [won_delivered hfree]
      cases claims.find? (AnswerArbiter.new callInstanceId offerId).valid <;> simp
    first := by
      rintro pre first rest rfl hpre hfirst
      exact delivered_first hfree hpre hfirst
    none := delivered_none
    invalid := fun pre c _ h => claim_invalid ((valid_run pre c).trans h)
    orders := by
      intro claims' _ hsame c d d' hd hd'
      rw [settled_delivered hfree hd, settled_delivered hfree hd', hsame] }

/-- Two devices answer, one of them twice and one with a claim for another offer. -/
example :
    let id := fun c : Char => String.ofList (List.replicate 32 c)
    let box := String.ofList (List.replicate 64 'e')
    let one : AnswerClaim := ⟨id 'a', id 'b', id '1', "0", box⟩
    let two : AnswerClaim := ⟨id 'a', id 'b', id '2', id 'd', box⟩
    let stray : AnswerClaim := ⟨id 'a', id 'c', id '3', "0", box⟩
    ((AnswerArbiter.new (id 'a') (id 'b')).delivered [stray, one, two, one]).map Prod.snd =
      [.invalid, .winner one.winner, .lost one.winner, .duplicate one.winner] := by decide +kernel

end Sona
