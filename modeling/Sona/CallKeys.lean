/-
# Published call keys never roll back

The call key of a device mailbox is written by `publish_call_key` and taken
away by a roster that drops the device and by an account deletion. A binding
that is stored is replaced only by one that is newer, or by itself, so while
it is not taken away its `created_at` does not go back, whatever requests are
replayed and in whatever order (`Held.not_older`). `publishCallKey_ok` says what
an accepted publication was checked for, and `nonceStep` what an event can do
to the login nonces, from which the freshness of its nonce follows
(`call_keys_never_roll_back`).

Key definitions: `CallKeyAccepted`, `Held`, `NonceStep`.
-/
import Sona.Lib.Table
import Sona.Lib.Trace
import Sona.Challenge
import Sona.Relay
import Sona.Handlers
import Sona.Run

namespace Sona

variable {R : Relay}

/-! ### One publication -/

/-- What `publish_call_key` checked before it answered OK: the time of the
binding, the nonce, and the signature of the key that the directory held. -/
structure CallKeyAccepted (R : Relay) (s : Inner) (req : CallKeyPublishRequest) (now : ℕ) :
    Prop where
  time : req.binding.createdAt ≤ saturatingAdd now callKeySkewSecs
  nonce : (s.challenges.consume req.hash req.nonce now).1 = true
  spent : (publishCallKey R s req now).2.challenges = (s.challenges.consume req.hash req.nonce now).2
  signed : ∃ entry, s.directory.get req.hash = some entry ∧
    R.crypto.verify entry.signingKey req.message req.signature = true

theorem consumeAndVerify_ok {s s' : Inner} {hash nonce signature : String} {message : Bytes} {t : ℕ}
    (h : consumeAndVerify R s hash nonce message signature t = (.ok (), s')) :
    (s.challenges.consume hash nonce t).1 = true ∧
    s' = { s with challenges := (s.challenges.consume hash nonce t).2 } := by
  unfold consumeAndVerify at h
  dsimp only at h
  split at h
  · cases h
  rename_i hyes
  split at h
  · cases h
  split at h
  · cases h
  · cases h
    exact ⟨by simpa using hyes, rfl⟩

theorem publishCallKey_checks {s s' : Inner} {req : CallKeyPublishRequest} {now : ℕ} {r : Response}
    (h : publishCallKey R s req now = (r, s')) (hok : r.status = 200) :
    req.binding.createdAt ≤ saturatingAdd now callKeySkewSecs ∧
      (s.challenges.consume req.hash req.nonce now).1 = true ∧
      s'.challenges = (s.challenges.consume req.hash req.nonce now).2 := by
  unfold publishCallKey at h
  iterate 4
    split at h
    · cases h
      simp [Response.err] at hok
  split at h
  · cases h
    simp [Response.err] at hok
  rename_i htime
  dsimp only at h
  obtain ⟨s'', -, ⟨r', heq, hr⟩ | ⟨heq, -⟩⟩ :=
    consumeAndVerify_cases R s req.hash req.nonce req.message req.signature now
  · rw [CallKeyPublishRequest.message] at heq
    rw [heq] at h
    cases h
    exact absurd hok hr
  · obtain ⟨hyes, rfl⟩ := consumeAndVerify_ok heq
    rw [CallKeyPublishRequest.message] at heq
    rw [heq] at h
    dsimp only at h
    split at h
    · cases h
      simp [Response.err] at hok
    · cases h
      exact ⟨by omega, hyes, rfl⟩

theorem publishCallKey_ok {s : Inner} {req : CallKeyPublishRequest} {now : ℕ}
    (h : (publishCallKey R s req now).1.status = 200) : CallKeyAccepted R s req now := by
  have heta : publishCallKey R s req now =
      ((publishCallKey R s req now).1, (publishCallKey R s req now).2) :=
    (Prod.eta _).symm
  obtain ⟨htime, hnonce, hspent⟩ := publishCallKey_checks heta h
  obtain ⟨-, hne⟩ | ⟨mailbox, entry, -, -, hf, hs, -, -, -⟩ :=
    publishCallKey_core (R := R) (s := s) req now
  · exact absurd h hne
  · exact ⟨htime, hnonce, hspent, entry, hf, hs⟩

/-! ### What an event does to a stored binding -/

/-- The binding that is stored next at a mailbox: gone, the same, or a newer
one that an accepted publication brought. -/
inductive BindingStep (R : Relay) (s : Sys) (m : String) : Event → Option CallKeyBinding → Prop
  | gone {e : Event} : BindingStep R s m e none
  | same {e : Event} : BindingStep R s m e (s.inner.callKeys.get m)
  | published {req : CallKeyPublishRequest} {now : ℕ} (hash : req.hash = m)
      (ok : (publishCallKey R s.inner req now).1.status = 200)
      (newer : ∀ current, s.inner.callKeys.get m = some current → current.createdAt < req.binding.createdAt ∨ current = req.binding) :
      BindingStep R s m (.publishCallKey req now) (some req.binding)

theorem bindingStep_of_removeAll {s s' : Sys} {m : String} {e : Event} (mbs : List String)
    (h : s'.inner.callKeys = s.inner.callKeys.removeAll mbs) :
    BindingStep R s m e (s'.inner.callKeys.get m) := by
  rw [h, Table.get_removeAll]
  split
  · exact .gone
  · exact .same

theorem bindingStep_of_keys {s s' : Sys} {m : String} {e : Event}
    (h : s'.inner.callKeys = s.inner.callKeys) :
    BindingStep R s m e (s'.inner.callKeys.get m) := by
  rw [h]
  exact .same

/-- The events that are no publication, by what they do to the records. -/
theorem bindingStep_of_record {s s' : Sys} {m : String} {e : Event}
    (hrec : RecordStep R s.inner.core e s'.inner.core)
    (he : ∀ req now, e ≠ .publishCallKey req now) :
    BindingStep R s m e (s'.inner.callKeys.get m) := by
  cases hrec with
  | same h => exact bindingStep_of_keys h.2.1
  | roster appended hex core => exact bindingStep_of_removeAll _ (Inner.callKeys_of_core core)
  | delete found signed core => exact bindingStep_of_removeAll _ (Inner.callKeys_of_core core)
  | register appended core =>
    refine bindingStep_of_keys ((Inner.callKeys_of_core core).trans ?_)
    split <;> rfl
  | bundle found core => exact bindingStep_of_keys (Inner.callKeys_of_core core)
  | upload found signed core => exact bindingStep_of_keys (Inner.callKeys_of_core core)
  | callKey mailbox call found signed newer core => exact absurd rfl (he _ _)

theorem bindingStep (R : Relay) (s : Sys) (m : String) (e : Event) :
    BindingStep R s m e ((sysStep R s e).inner.callKeys.get m) := by
  by_cases he : ∃ req now, e = .publishCallKey req now
  · obtain ⟨req, now, rfl⟩ := he
    have hcore := publishCallKey_core (R := R) (s := s.inner) req now
    change BindingStep R s m _ ((publishCallKey R s.inner req now).2.callKeys.get m)
    rcases hcore with ⟨h, -⟩ | ⟨mailbox, entry, -, -, -, -, hnew, hok, h⟩
    · have hkeys : (publishCallKey R s.inner req now).2.callKeys = s.inner.callKeys :=
        Inner.callKeys_of_core h
      rw [hkeys]
      exact .same
    · have hkeys : (publishCallKey R s.inner req now).2.callKeys =
          s.inner.callKeys.set req.hash req.binding :=
        Inner.callKeys_of_core h
      rw [hkeys, Table.get_set]
      split
      · rename_i hm
        subst hm
        refine .published rfl hok fun current hcur => ?_
        rcases hnew current hcur with hsup | heq
        · refine Or.inl ?_
          simp only [CallKeyBinding.supersedes, Bool.and_eq_true, decide_eq_true_eq] at hsup
          exact hsup.2
        · exact Or.inr heq
      · exact .same
  · refine bindingStep_of_record (recordStep R s e) ?_
    intro req now heq
    exact he ⟨req, now, heq⟩

/-! ### While it is held -/

/-- The mailbox has a binding in every state of the run. -/
def Held (R : Relay) (m : String) (s : Sys) (es : List Event) : Prop :=
  ∀ gs, gs <+: es → ((Trace.run (sysStep R) s gs).inner.callKeys.get m).isSome

/-- The binding `b'` is no step back from `b`. -/
def NotOlder (b b' : CallKeyBinding) : Prop := b.createdAt < b'.createdAt ∨ b = b'

theorem NotOlder.trans {a b c : CallKeyBinding} (hab : NotOlder a b) (hbc : NotOlder b c) :
    NotOlder a c := by
  rcases hab with hab | rfl
  · rcases hbc with hbc | rfl
    · exact Or.inl (Nat.lt_trans hab hbc)
    · exact Or.inl hab
  · exact hbc

theorem Held.not_older {m : String} {s : Sys} {es : List Event} (h : Held R m s es)
    {b b' : CallKeyBinding} (hb : s.inner.callKeys.get m = some b)
    (hb' : (Trace.run (sysStep R) s es).inner.callKeys.get m = some b') :
    NotOlder b b' := by
  induction es generalizing s b with
  | nil => exact Or.inr (Option.some.inj (hb.symm.trans hb'))
  | cons e es ih =>
    obtain ⟨c, hc⟩ := Option.isSome_iff_exists.mp (h [e] ⟨es, rfl⟩)
    have htail : Held R m (sysStep R s e) es := by
      intro gs hgs
      exact h (e :: gs) ((List.cons_prefix_cons).mpr ⟨rfl, hgs⟩)
    refine NotOlder.trans ?_ (ih htail hc hb')
    have hstep := bindingStep R s m e
    rw [show (sysStep R s e).inner.callKeys.get m = some c from hc] at hstep
    generalize hnext : some c = next at hstep
    cases hstep with
    | gone => cases hnext
    | same => exact Or.inr (Option.some.inj (hb.symm.trans hnext.symm))
    | published hash ok newer =>
      cases hnext
      exact newer b hb

/-! ### Fresh nonces -/

/-- What an event can do to the login nonces: only a challenge issues one. -/
inductive NonceStep (cs : ChallengeStore) : Event → ChallengeStore → Prop
  | same {e : Event} : NonceStep cs e cs
  | issue {client : Option String} {hash nonce : String} {now : ℕ} :
      NonceStep cs (.challenge client hash nonce now) (cs.issue hash nonce now).2
  | consume {e : Event} {hash nonce : String}
      {now : ℕ} : NonceStep cs e (cs.consume hash nonce now).2
  | sweep {e : Event} {now : ℕ} : NonceStep cs e (cs.sweep now)

theorem challenges_registerGate (s : Inner) (client invite : Option String) (req : RegisterRequest)
    (now : ℕ) :
    (registerGate R s client invite req now).2.challenges = s.challenges := by
  obtain ⟨_, _, _, h⟩ := registerGate_frame (R := R) (s := s) client invite req now
  rw [h]

theorem challenges_register (s : Inner) (client invite : Option String) (req : RegisterRequest)
    (now : ℕ) :
    (register R s client invite req now).2.challenges = s.challenges := by
  have hg := challenges_registerGate (R := R) s client invite req now
  unfold register
  cases hgate : registerGate R s client invite req now with
  | mk result s' =>
  rw [hgate] at hg
  have hburn : ∀ (s : Inner) consume, (burnInvite s consume).challenges = s.challenges := by
    intro s consume
    unfold burnInvite
    repeat' split
    all_goals rfl
  cases result with
  | error r => exact hg
  | ok consume =>
    dsimp only
    cases s'.kt.append R.crypto req.entry with
    | error e => cases e <;> exact hg
    | ok p =>
      dsimp only
      split
      · exact (hburn _ _).trans hg
      · exact (hburn _ _).trans hg

theorem challenges_mirrorRoster (s : Inner) (previous : List (String × String))
    (roster : KtRosterEntry) :
    (mirrorRoster R s previous roster).1.challenges = s.challenges := by
  have hmirror : ∀ (ds : List DeviceRecord) (s : Inner),
      (ds.foldl (mirrorDevice R roster.usernameHash) s).challenges = s.challenges := by
    intro ds
    induction ds with
    | nil => exact fun _ => rfl
    | cons d ds ih =>
      intro s
      rw [List.foldl_cons, ih]
      unfold mirrorDevice
      dsimp only
      repeat' split
      all_goals rfl
  have hrevoke : ∀ (ps : List (String × String)) (st : Inner × List (ChannelId × ServerFrame)),
      (ps.foldl (revokeDevice R roster.usernameHash (roster.devices.map (·.identityKey))) st).1.challenges =
        st.1.challenges := by
    intro ps
    induction ps with
    | nil => exact fun _ => rfl
    | cons p ps ih =>
      intro st
      rw [List.foldl_cons, ih]
      unfold revokeDevice
      dsimp only
      split <;> rfl
  unfold mirrorRoster
  rw [hrevoke, hmirror]

theorem challenges_publishRoster (s : Inner) (client : Option String) (roster : KtRosterEntry)
    (now : ℕ) :
    (publishRoster R s client roster now).2.1.challenges = s.challenges := by
  have hg : (rosterGate s client roster now).2.challenges = s.challenges := by
    unfold rosterGate
    dsimp only
    repeat' split
    all_goals rfl
  unfold publishRoster
  cases hgate : rosterGate s client roster now with
  | mk result s' =>
  rw [hgate] at hg
  cases result with
  | error r => exact hg
  | ok u =>
    dsimp only
    cases s'.kt.appendRoster R.crypto roster with
    | error e => cases e <;> exact hg
    | ok p => exact (challenges_mirrorRoster _ _ roster).trans hg

theorem challenges_fetchBundle (s : Inner) (client : Option String) (hash : String) (t : ℕ) :
    (fetchBundle s client hash t).2.challenges = s.challenges := by
  have hmay : ∀ (s : Inner) entry, (mayConsume s hash entry t).2.challenges = s.challenges := by
    intro s entry
    unfold mayConsume
    dsimp only
    split <;> rfl
  unfold fetchBundle
  cases client with
  | none => rfl
  | some key =>
    dsimp only
    split
    · rfl
    split
    · rfl
    rename_i entry _
    refine Eq.trans ?_ (hmay (s.chargeRate ("bundle:" ++ key) t).2 entry)
    repeat' split
    all_goals rfl

theorem challenges_sendMessage (s : Inner) (client : Option String) (env : Envelope) (t : ℕ) :
    (sendMessage R s client env t).2.1.challenges = s.challenges := by
  have hwake : ∀ (s : Inner) env channels, (decideWake R s env channels t).2.challenges =
      s.challenges := by
    intro s env channels
    unfold decideWake
    dsimp only
    repeat' split
    all_goals rfl
  unfold sendMessage
  cases client with
  | none => rfl
  | some key =>
    dsimp only
    split
    · rfl
    split
    · rfl
    · rfl
    · exact hwake _ _ _

theorem challenges_hangUp (s : Sys) (channel : ChannelId) (sock : Socket) (inner : Inner) :
    (hangUp s channel sock inner).inner.challenges = inner.challenges := by
  unfold hangUp releaseSlot unsubscribe
  dsimp only
  repeat' split
  all_goals rfl

/-- A signed request consumes the nonce it names. -/
theorem nonceStep_of_verify {s s' : Inner} {e : Event} {hash nonce signature : String}
    {message : Bytes} {t : ℕ} {r : Except Response Unit}
    (h : consumeAndVerify R s hash nonce message signature t = (r, s')) :
    NonceStep s.challenges e s'.challenges := by
  have hs : (consumeAndVerify R s hash nonce message signature t).2.challenges =
      (s.challenges.consume hash nonce t).2 := by
    unfold consumeAndVerify
    dsimp only
    repeat' split
    all_goals rfl
  rw [h] at hs
  rw [show s'.challenges = _ from hs]
  exact .consume

theorem nonceStep_challenge (s : Inner) (client : Option String) (hash nonce : String) (now : ℕ) :
    NonceStep s.challenges (.challenge client hash nonce now) (challenge s client hash nonce now).2.challenges := by
  unfold challenge
  cases client with
  | none => exact .same
  | some key =>
    dsimp only
    split
    · exact .same
    split
    · exact .same
    · exact .issue

theorem nonceStep_publishCallKey (s : Inner) (req : CallKeyPublishRequest) (now : ℕ) :
    NonceStep s.challenges (.publishCallKey req now) (publishCallKey R s req now).2.challenges := by
  unfold publishCallKey
  iterate 3
    split
    · exact .same
  cases callMailboxHash R.crypto.sha req.accountHash req.binding.deviceId with
  | none => exact .same
  | some callMailbox =>
    dsimp only
    split
    · exact .same
    split
    · rename_i heq
      exact nonceStep_of_verify heq
    · rename_i heq
      have h := nonceStep_of_verify (e := .publishCallKey req now) heq
      split
      · exact h
      · exact h

theorem nonceStep_deleteAccount (s : Inner) (client : Option String) (req : AccountDeleteRequest)
    (now : ℕ) :
    NonceStep s.challenges (.deleteAccount client req now) (deleteAccount R s client req now).2.1.challenges := by
  have hdrop : ∀ (mbs : List String) (st : Inner × List (ChannelId × ServerFrame)),
      (mbs.foldl dropMailbox st).1.challenges = st.1.challenges := by
    intro mbs
    induction mbs with
    | nil => exact fun _ => rfl
    | cons mb mbs ih =>
      intro st
      rw [List.foldl_cons, ih]
      rfl
  unfold deleteAccount
  cases client with
  | none => exact .same
  | some key =>
    dsimp only
    split
    · exact .same
    split
    · exact .same
    split
    · exact .same
    split
    · rename_i heq
      have h := nonceStep_of_verify (e := .deleteAccount (some key) req now) heq
      exact h
    · rename_i heq
      have h := nonceStep_of_verify (e := .deleteAccount (some key) req now) heq
      split
      · exact h
      · rw [hdrop]
        exact h

theorem nonceStep_pushRegister (s : Inner) (req : PushRegisterRequest) (now : ℕ) :
    NonceStep s.challenges (.pushRegister req now) (pushRegister R s req now).2.challenges := by
  unfold pushRegister
  iterate 2
    split
    · exact .same
  dsimp only
  split
  · rename_i heq
    exact nonceStep_of_verify heq
  · rename_i heq
    have h := nonceStep_of_verify (e := .pushRegister req now) heq
    exact h

theorem nonceStep_pushUnregister (s : Inner) (req : PushUnregisterRequest) (now : ℕ) :
    NonceStep s.challenges (.pushUnregister req now) (pushUnregister R s req now).2.challenges := by
  unfold pushUnregister
  split
  · exact .same
  dsimp only
  split
  · rename_i heq
    exact nonceStep_of_verify heq
  · rename_i heq
    have h := nonceStep_of_verify (e := .pushUnregister req now) heq
    exact h

theorem nonceStep_auth (s : Sys) (channel : ChannelId) (frame : AuthFrame) (now : ℕ) :
    NonceStep s.inner.challenges (.auth channel frame now) (authSocket R s channel frame now).inner.challenges := by
  have h : (authenticate R s.inner frame now).2.challenges =
      (s.inner.challenges.consume frame.hash frame.nonce now).2 := by
    unfold authenticate
    dsimp only
    repeat' split
    all_goals rfl
  unfold authSocket
  split
  · exact .same
  split
  · exact .same
  split
  · rename_i heq
    rw [heq] at h
    exact h ▸ .consume
  · rename_i heq
    rw [heq] at h
    rw [challenges_hangUp, h]
    exact .consume

/-- **What an event can do to the nonces.** -/
theorem nonceStep (R : Relay) (s : Sys) (e : Event) :
    NonceStep s.inner.challenges e (sysStep R s e).inner.challenges := by
  have hsame : (sysStep R s e).inner.challenges = s.inner.challenges →
      NonceStep s.inner.challenges e (sysStep R s e).inner.challenges := by
    intro h
    rw [h]
    exact .same
  cases e with
  | register client invite req now =>
    exact hsame (challenges_register s.inner client invite req now)
  | publishRoster client roster now =>
    exact hsame (challenges_publishRoster s.inner client roster now)
  | publishCallKey req now => exact nonceStep_publishCallKey s.inner req now
  | deleteAccount client req now => exact nonceStep_deleteAccount s.inner client req now
  | challenge client hash nonce now => exact nonceStep_challenge s.inner client hash nonce now
  | uploadOneTimeKeys client req now =>
    refine hsame ?_
    change (uploadOneTimeKeys R s.inner client req now).2.challenges = _
    unfold uploadOneTimeKeys
    dsimp only
    repeat' split
    all_goals rfl
  | fetchBundle client hash now => exact hsame (challenges_fetchBundle s.inner client hash now)
  | pushRegister req now => exact nonceStep_pushRegister s.inner req now
  | pushUnregister req now => exact nonceStep_pushUnregister s.inner req now
  | deadToken recipient endpoint =>
    refine hsame ?_
    change (deadToken s.inner recipient endpoint).challenges = _
    unfold deadToken
    split <;> rfl
  | send client env now => exact hsame (challenges_sendMessage s.inner client env now)
  | push i =>
    refine hsame ?_
    change (pushSys s i).inner.challenges = _
    unfold pushSys
    split <;> rfl
  | connect client party =>
    refine hsame ?_
    change (connectSys R s client party).inner.challenges = _
    unfold connectSys claimSlot
    dsimp only
    split
    · rename_i heq
      split at heq <;> cases heq
      rfl
    · rename_i heq
      split at heq <;> cases heq
      rfl
  | auth channel frame now => exact nonceStep_auth s channel frame now
  | subscribe channel now =>
    refine hsame ?_
    change (subscribeSocket s channel now).inner.challenges = _
    unfold subscribeSocket subscribe
    dsimp only
    repeat' split
    all_goals rfl
  | ack channel msgId =>
    refine hsame ?_
    change (ackSocket s channel msgId).inner.challenges = _
    unfold ackSocket ackMessage
    repeat' split
    all_goals rfl
  | close channel =>
    refine hsame ?_
    dsimp only [sysStep]
    split
    · rfl
    · exact challenges_hangUp s channel _ s.inner
  | reap now => exact .sweep

/-- The nonces that the challenges of the run were given. -/
def issuedNonces (es : List Event) : List String :=
  es.filterMap fun e => match e with
    | .challenge _ _ nonce _ => some nonce
    | _ => none

/-- The nonces of a run are those of calls on the store, and each it issues is
the one of a challenge. -/
theorem nonces_run (R : Relay) (s : Sys) (es : List Event) :
    ∃ ops, (Trace.run (sysStep R) s es).inner.challenges =
      Trace.run challengeStep s.inner.challenges ops ∧
      (noncesOf ops).Sublist (issuedNonces es) ∧
      ∀ hash nonce t, ChallengeOp.issue hash nonce t ∈ ops →
      ∃ client, Event.challenge client hash nonce t ∈ es := by
  induction es using List.reverseRecOn with
  | nil => exact ⟨[], rfl, List.Sublist.refl _, by simp⟩
  | append_singleton es e ih =>
    obtain ⟨ops, hops, hsub, hissue⟩ := ih
    have hkeep : ∀ hash nonce t, ChallengeOp.issue hash nonce t ∈ ops →
        ∃ client, Event.challenge client hash nonce t ∈ es ++ [e] := by
      intro hash nonce t hm
      obtain ⟨client, hc⟩ := hissue hash nonce t hm
      exact ⟨client, by simp [hc]⟩
    -- a call that issues nothing adds no nonce
    have hquiet : ∀ op, noncesOf [op] = [] → (∀ hash nonce t, op ≠ .issue hash nonce t) →
        (noncesOf (ops ++ [op])).Sublist (issuedNonces es ++ issuedNonces [e]) ∧
          ∀ hash nonce t, .issue hash nonce t ∈ ops ++ [op] →
          ∃ client, Event.challenge client hash nonce t ∈ es ++ [e] := by
      intro op hnone hother
      rw [noncesOf_append, hnone, List.append_nil]
      refine ⟨hsub.trans (List.sublist_append_left _ _), fun hash nonce t hm => ?_⟩
      rcases List.mem_append.mp hm with hm | hm
      · exact hkeep hash nonce t hm
      · exact absurd (List.mem_singleton.mp hm).symm (hother hash nonce t)
    have hstep := nonceStep R (Trace.run (sysStep R) s es) e
    rw [Trace.run_snoc, issuedNonces, List.filterMap_append]
    rw [hops] at hstep
    generalize (sysStep R (Trace.run (sysStep R) s es) e).inner.challenges = cs at hstep ⊢
    cases hstep with
    | same => exact ⟨ops, rfl, hsub.trans (List.sublist_append_left _ _), hkeep⟩
    | @issue client hash nonce now =>
      refine ⟨ops ++ [.issue hash nonce now], by rw [Trace.run_snoc]; rfl, ?_, ?_⟩
      · rw [noncesOf_append]
        exact hsub.append (List.Sublist.refl _)
      · intro hash' nonce' t hm
        rcases List.mem_append.mp hm with hm | hm
        · exact hkeep hash' nonce' t hm
        · cases List.mem_singleton.mp hm
          exact ⟨client, by simp⟩
    | @consume _ hash nonce now =>
      exact ⟨ops ++ [.consume hash nonce now],
        by rw [Trace.run_snoc]; rfl, hquiet _ rfl fun _ _ _ h => by cases h⟩
    | @sweep _ now =>
      exact ⟨ops ++ [.sweep now], by rw [Trace.run_snoc]; rfl, hquiet _ rfl fun _ _ _ h => by cases h⟩

/-- An accepted nonce was given out by a challenge for its mailbox, not long ago. -/
theorem nonce_fresh {db : Option Db} {es : List Event} {hash nonce : String} {now : ℕ}
    (h : ((after R db es).inner.challenges.consume hash nonce now).1 = true) :
    ∃ client t, Event.challenge client hash nonce t ∈ es ∧ now < t + nonceTtlSecs := by
  obtain ⟨ops, hops, -, hissue⟩ := nonces_run R (start R db) es
  rw [show (after R db es).inner.challenges = challengesAfter ops from hops] at h
  obtain ⟨t, ht, hnow⟩ := issued_of_answer h
  obtain ⟨client, hc⟩ := hissue hash nonce t ht
  exact ⟨client, t, hc, hnow⟩

/-- A nonce that was accepted is not accepted again, where all nonces differ. -/
theorem nonce_spent {db : Option Db} {pre mid : List Event} {e : Event}
    (hn : (issuedNonces (pre ++ e :: mid)).Nodup) {hash nonce : String} {now : ℕ}
    (h : ((after R db pre).inner.challenges.consume hash nonce now).1 = true)
    (hspent : (after R db (pre ++ [e])).inner.challenges = ((after R db pre).inner.challenges.consume hash nonce now).2)
    (other : String) (t : ℕ) :
    ((after R db (pre ++ e :: mid)).inner.challenges.consume other nonce t).1 = false := by
  obtain ⟨ops, hops, hsub, -⟩ := nonces_run R (start R db) pre
  replace hops : (after R db pre).inner.challenges = challengesAfter ops := hops
  have hsplit : issuedNonces (pre ++ e :: mid) =
      issuedNonces pre ++ (issuedNonces [e] ++ issuedNonces mid) := by
    simp only [issuedNonces, ← List.filterMap_append]
    simp
  rw [hsplit] at hn
  obtain ⟨hpre, -, hdisj⟩ := List.nodup_append.mp hn
  -- the nonce is one of those given out before, so none of the later ones
  obtain ⟨client, t₀, hc, -⟩ := nonce_fresh h
  have hin : nonce ∈ issuedNonces pre := List.mem_filterMap.mpr ⟨_, hc, rfl⟩
  obtain ⟨ops', hops', hsub', -⟩ := nonces_run R (after R db (pre ++ [e])) mid
  have hnot : nonce ∉ noncesOf ops' := fun hm =>
    hdisj nonce hin nonce (List.mem_append_right _ (hsub'.subset hm)) rfl
  rw [hops] at h hspent
  have habs : ∀ hash expires, (nonce, expires) ∉
      (after R db (pre ++ [e])).inner.challenges.entries hash := by
    intro hash' expires
    rw [hspent]
    have := absent_of_answer (hsub.nodup hpre) h hash' expires
    rwa [challengesAfter_snoc] at this
  have hafter : after R db (pre ++ e :: mid) =
      Trace.run (sysStep R) (after R db (pre ++ [e])) mid := by
    rw [← after_append]
    simp
  rw [Bool.eq_false_iff]
  intro hyes
  obtain ⟨expires, hfind, -⟩ := (consume_answer _ _ _ _).mp hyes
  rw [hafter, hops'] at hfind
  exact absent_run habs hnot other expires (List.mem_of_find?_eq_some hfind)

/-! ### The result -/

/-- An accepted publication after the events `es`: it was checked, its nonce was
given out for its mailbox not long ago, and no publication before had it. -/
structure FreshPublication (R : Relay) (db : Option Db) (es : List Event)
    (req : CallKeyPublishRequest) (now : ℕ) :
    Prop extends CallKeyAccepted R (after R db es).inner req now where
  issued : ∃ client t, Event.challenge client req.hash req.nonce t ∈ es ∧ now < t + nonceTtlSecs
  unused : (issuedNonces es).Nodup →
    ∀ pre mid req' now', es = pre ++ .publishCallKey req' now' :: mid →
    (publishCallKey R (after R db pre).inner req' now').1.status = 200 → req'.nonce ≠ req.nonce

theorem freshPublication {db : Option Db} {es : List Event} {req : CallKeyPublishRequest} {now : ℕ}
    (h : (publishCallKey R (after R db es).inner req now).1.status = 200) :
    FreshPublication R db es req now := by
  have hacc := publishCallKey_ok h
  refine ⟨hacc, nonce_fresh hacc.nonce, ?_⟩
  rintro hn pre mid req' now' rfl hok hsame
  have hacc' := publishCallKey_ok hok
  have hagain := nonce_spent hn hacc'.nonce (by rw [after_snoc]; exact hacc'.spent) req.hash now
  rw [hsame, hacc.nonce] at hagain
  cases hagain

/-- **Published call keys never roll back.** While a mailbox has a binding, the
one it has later is newer or the same; a binding that is stored was brought by
an accepted publication, with its time, its nonce and its signature checked;
and a refused one changes neither the call keys nor the directory. -/
theorem call_keys_never_roll_back (R : Relay) (db : Option Db) (es : List Event) :
    (∀ m fs b b', Held R m (after R db es) fs → (after R db es).inner.callKeys.get m = some b →
      (after R db (es ++ fs)).inner.callKeys.get m = some b' →
      b.createdAt ≤ b'.createdAt ∧ (b.createdAt = b'.createdAt → b = b')) ∧
    (∀ m e b', (after R db es).inner.callKeys.get m ≠ some b' →
      (after R db (es ++ [e])).inner.callKeys.get m = some b' →
      ∃ req now, e = .publishCallKey req now ∧ req.hash = m ∧ req.binding = b' ∧
        (publishCallKey R (after R db es).inner req now).1.status = 200) ∧
    (∀ req now, (publishCallKey R (after R db es).inner req now).1.status = 200 →
      FreshPublication R db es req now) ∧
    (∀ req now, (publishCallKey R (after R db es).inner req now).1.status ≠ 200 →
      (after R db (es ++ [.publishCallKey req now])).inner.callKeys =
        (after R db es).inner.callKeys ∧
      (after R db (es ++ [.publishCallKey req now])).inner.directory =
        (after R db es).inner.directory) := by
  refine ⟨?_, ?_, fun req now h => freshPublication h, ?_⟩
  · intro m fs b b' hheld hb hb'
    rw [after_append] at hb'
    rcases hheld.not_older hb hb' with hlt | rfl
    · exact ⟨Nat.le_of_lt hlt, fun heq => absurd heq (Nat.ne_of_lt hlt)⟩
    · exact ⟨le_rfl, fun _ => rfl⟩
  · intro m e b' hold hnew
    have hstep := bindingStep R (after R db es) m e
    rw [← after_snoc, hnew] at hstep
    generalize hnext : some b' = next at hstep
    cases hstep with
    | gone => cases hnext
    | same => exact absurd hnext.symm hold
    | @published req now hash ok newer =>
      cases hnext
      exact ⟨req, now, rfl, hash, rfl, ok⟩
  · intro req now href
    rw [after_snoc]
    obtain ⟨h, -⟩ | ⟨-, -, -, -, -, -, -, hok, -⟩ :=
      publishCallKey_core (R := R) (s := (after R db es).inner) req now
    · exact ⟨Inner.callKeys_of_core h, Inner.directory_of_core h⟩
    · exact absurd hok href

end Sona
