/-
# One-time keys

The stock of one-time keys of a mailbox: `register` sets it, `upload_one_time_keys`
adds to it and `fetch_bundle` takes the first key out and hands it to who asked.
A run is taken with the keys that were handed out so far (`Stocked`), and
`stockStep` says once what an event can do to the stock of a mailbox.

An upload is compared only with the keys still in stock, and a registration
with nothing: a key that was handed out comes back with a replayed upload
(`replayed_upload_hands_out_twice`). Where no request brings back a key that was
handed out and no registration brings repeated keys or more than the cap, every
key is handed out once (`handed_out_once`).

Key definitions: `consumedOtk`, `Stocked`, `StockStep`, `FreshKeys`, `HandedOutOnce`.
-/
import Mathlib.Data.List.Nodup
import Sona.Lib.Table
import Sona.Lib.Trace
import Sona.Relay
import Sona.Handlers
import Sona.Run
import Sona.Records

namespace Sona

variable {R : Relay}

/-! ### The key a fetch takes -/

/-- The key `fetch_bundle` takes out of the stock, if it takes one. -/
def consumedOtk (s : Inner) (client : Option String) (hash : String) (t : ℕ) : Option String :=
  match client with
  | none => none
  | some key =>
    let (ok, s) := s.chargeRate ("bundle:" ++ key) t
    if !ok then none else
    match s.directory.get hash with
    | none => none
    | some entry => if (mayConsume s hash entry t).1 then entry.oneTimeKeys.head? else none

/-- The stock of a mailbox. -/
def Core.stock (c : Core) (m : String) : List String :=
  ((c.directory.get m).map (·.oneTimeKeys)).getD []

theorem stock_of_directory {c c' : Core} {m : String} (h : c'.directory.get m = c.directory.get m) :
    c'.stock m = c.stock m := by
  unfold Core.stock
  rw [h]

theorem stock_found {c : Core} {m : String} {entry : DirectoryEntry}
    (h : c.directory.get m = some entry) :
    c.stock m = entry.oneTimeKeys := by
  unfold Core.stock
  rw [h]
  rfl

/-- The mailbox whose record is set has the stock of the record. -/
theorem stock_set_self {c : Core} {directory : Table String DirectoryEntry} {m : String}
    {entry : DirectoryEntry} (h : c.directory = directory.set m entry) :
    c.stock m = entry.oneTimeKeys := by
  apply stock_found
  rw [h]
  exact Table.get_set_self _ _ _

/-- Every other one keeps its own. -/
theorem stock_set_ne {c c' : Core} {hash m : String} {entry : DirectoryEntry}
    (h : c'.directory = c.directory.set hash entry) (hm : m ≠ hash) : c'.stock m = c.stock m := by
  apply stock_of_directory
  rw [h]
  exact Table.get_set_ne _ _ hm

/-- A fetch that takes a key answers with it, and takes it out of the stock. -/
theorem fetchBundle_taken {s : Inner} {client : Option String} {hash k : String} {t : ℕ}
    (h : consumedOtk s client hash t = some k) :
    ∃ entry, s.directory.get hash = some entry ∧ entry.oneTimeKeys = k :: entry.oneTimeKeys.tail ∧
      (fetchBundle s client hash t).1 =
        ⟨200, .bundle { identityKey := entry.identityKey, signingKey := entry.signingKey, oneTimeKey := k }⟩ ∧
      (fetchBundle s client hash t).2.core =
        { s.core with directory := s.directory.set hash (entry.withKeys entry.oneTimeKeys.tail) } := by
  unfold consumedOtk at h
  cases client with
  | none => cases h
  | some key =>
    dsimp only at h
    split at h
    · cases h
    rename_i hrate
    cases he : s.directory.get hash with
    | none =>
      rw [show (s.chargeRate ("bundle:" ++ key) t).2.directory.get hash = none from he] at h
      cases h
    | some entry =>
      rw [show (s.chargeRate ("bundle:" ++ key) t).2.directory.get hash = some entry from he] at h
      dsimp only at h
      split at h
      · rename_i htake
        have hcore := core_mayConsume (s.chargeRate ("bundle:" ++ key) t).2 hash entry t
        rw [core_chargeRate] at hcore
        obtain ⟨rest, hkeys⟩ : ∃ rest, entry.oneTimeKeys = k :: rest := by
          cases hk : entry.oneTimeKeys with
          | nil => simp [hk] at h
          | cons a rest =>
            simp only [hk, List.head?_cons, Option.some.injEq] at h
            exact ⟨rest, by rw [h]⟩
        refine ⟨entry, rfl, by rw [hkeys, List.tail_cons], ?_, ?_⟩
        · unfold fetchBundle
          simp only [hrate, Bool.false_eq_true, if_false]
          rw [show (s.chargeRate ("bundle:" ++ key) t).2.directory.get hash = some entry from he]
          simp [htake, hkeys, DirectoryEntry.withKeys]
        · unfold fetchBundle
          simp only [hrate, Bool.false_eq_true, if_false]
          rw [show (s.chargeRate ("bundle:" ++ key) t).2.directory.get hash = some entry from he]
          simp only [htake, if_true, hkeys, List.head?_cons, Option.some_or, Option.isSome_some,
            List.tail_cons]
          rw [← hcore, core_withDb]
          rw [← show (mayConsume (s.chargeRate ("bundle:" ++ key) t).2 hash entry t).2.directory = s.directory from
            congrArg Core.directory hcore]
          rfl
      · cases h

/-- A record that is written back with the keys it had leaves every stock as it was. -/
theorem stock_written_back {s s' : Inner} {hash : String} {entry : DirectoryEntry}
    (hs : s'.core = s.core) (he : s.directory.get hash = some entry) (m : String) :
    ({ s' with directory := s'.directory.set hash (entry.withKeys entry.oneTimeKeys) } : Inner).core.stock m =
      s.core.stock m := by
  have hdir : ({ s' with directory := s'.directory.set hash (entry.withKeys entry.oneTimeKeys) } : Inner).core.directory =
      s.core.directory.set hash (entry.withKeys entry.oneTimeKeys) := by
    change s'.directory.set hash _ = s.core.directory.set hash _
    rw [Inner.directory_of_core hs]
  by_cases hm : m = hash
  · subst hm
    have hold : s.core.stock m = entry.oneTimeKeys := stock_found he
    rw [hold]
    exact stock_set_self hdir
  · exact stock_set_ne hdir hm

/-- A fetch that takes no key leaves every stock as it was. -/
theorem fetchBundle_untaken {s : Inner} {client : Option String} {hash : String} {t : ℕ}
    (h : consumedOtk s client hash t = none) (m : String) :
    (fetchBundle s client hash t).2.core.stock m = s.core.stock m := by
  unfold consumedOtk at h
  unfold fetchBundle
  cases client with
  | none => rfl
  | some key =>
    dsimp only at h ⊢
    split
    · rfl
    rename_i hrate
    rw [if_neg hrate] at h
    cases he : s.directory.get hash with
    | none =>
      rw [show (s.chargeRate ("bundle:" ++ key) t).2.directory.get hash = none from he]
      rfl
    | some entry =>
      rw [show (s.chargeRate ("bundle:" ++ key) t).2.directory.get hash = some entry from he] at h ⊢
      have hcore := core_mayConsume (s.chargeRate ("bundle:" ++ key) t).2 hash entry t
      rw [core_chargeRate] at hcore
      -- nothing is taken: the record is written back with the stock it had
      have hkeys : (if (mayConsume (s.chargeRate ("bundle:" ++ key) t).2 hash entry t).1 = true then
          entry.oneTimeKeys.tail else entry.oneTimeKeys) = entry.oneTimeKeys := by
        dsimp only at h
        split
        · rename_i htake
          rw [if_pos htake] at h
          rw [List.head?_eq_none_iff.mp h]
          rfl
        · rfl
      simp only [h, hkeys]
      cases (none : Option String).or (entry.withKeys entry.oneTimeKeys).fallbackKey with
      | none => exact stock_written_back hcore he m
      | some k => exact stock_written_back hcore he m

/-! ### What an event does to a stock -/

/-- What an event can do to the stock of a mailbox. -/
inductive StockStep (R : Relay) (s : Sys) (m : String) : Event → List String → Prop
  | same {e : Event} : StockStep R s m e (s.inner.core.stock m)
  | cleared {e : Event} : StockStep R s m e []
  | registered {client invite : Option String} {req : RegisterRequest} {now i : ℕ} {kt : KtLog}
      (hash : req.entry.usernameHash = m)
      (admitted : ∃ consume, (registerGate R s.inner client invite req now).1 = .ok consume)
      (appended : s.inner.kt.append R.crypto req.entry = .ok (i, kt))
      (kept : req.entry.released = false) : StockStep R s m (.register client invite req now) req.oneTimeKeys
  | uploaded {client : Option String} {req : OneTimeKeysRequest} {now : ℕ} {entry : DirectoryEntry}
      (hash : req.identityHash = m) (admitted : UploadAdmitted s.inner client req now)
      (found : s.inner.directory.get m = some entry)
      (signed : R.crypto.verify entry.signingKey (oneTimeKeysSigningMessage req.identityHash req.oneTimeKeys)
        req.signature = true) :
      StockStep R s m (.uploadOneTimeKeys client req now) (addOneTimeKeys (s.inner.core.stock m) req.oneTimeKeys)
  | taken {client : Option String} {now : ℕ} {k : String}
      (consumed : consumedOtk s.inner client m now = some k) :
      StockStep R s m (.fetchBundle client m now) (s.inner.core.stock m).tail

theorem stock_of_removeAll {c c' : Core} {mbs : List String}
    (h : c'.directory = c.directory.removeAll mbs) (m : String) :
    c'.stock m = c.stock m ∨ c'.stock m = [] := by
  unfold Core.stock
  rw [h, Table.get_removeAll]
  split
  · exact Or.inr rfl
  · exact Or.inl rfl

/-- A roster keeps the stock of a mailbox or clears it. -/
theorem stock_mirrored (name : String) (m : String) :
    ∀ (ds : List DeviceRecord) (directory : Table String DirectoryEntry),
    ((ds.foldl (mirrored R name) directory).get m = directory.get m) ∨
      ∃ e, (ds.foldl (mirrored R name) directory).get m = some e ∧ e.oneTimeKeys = []
  | [], _ => Or.inl rfl
  | d :: ds, directory => by
    have hone : (mirrored R name directory d).get m = directory.get m ∨
        ∃ e, (mirrored R name directory d).get m = some e ∧ e.oneTimeKeys = [] := by
      unfold mirrored
      split
      · exact Or.inl rfl
      split
      · exact Or.inl rfl
      split
      · exact Or.inl rfl
      · rw [Table.get_set]
        split
        · exact Or.inr ⟨_, rfl, rfl⟩
        · exact Or.inl rfl
    rw [List.foldl_cons]
    rcases stock_mirrored name m ds (mirrored R name directory d) with h | h
    · rw [h]
      exact hone
    · exact Or.inr h

theorem stock_mirrorRoster (c : Core) (previous : Option KtRosterEntry) (roster : KtRosterEntry)
    (m : String) :
    (Core.mirrorRoster R c previous roster).stock m = c.stock m ∨
    (Core.mirrorRoster R c previous roster).stock m = [] := by
  unfold Core.mirrorRoster Core.revoke Core.stock
  dsimp only
  rw [Table.get_removeAll]
  split
  · exact Or.inr rfl
  · rcases stock_mirrored (R := R) roster.usernameHash m roster.devices c.directory with h
      | ⟨e, h, he⟩
    · rw [h]
      exact Or.inl rfl
    · rw [h]
      exact Or.inr he

theorem stockStep_of {s : Sys} {m : String} {e : Event} {c' : Core}
    (h : c'.stock m = s.inner.core.stock m ∨ c'.stock m = []) : StockStep R s m e (c'.stock m) := by
  rcases h with h | h
  · rw [h]
    exact .same
  · rw [h]
    exact .cleared

theorem stockStep_fetchBundle (s : Sys) (m : String) (client : Option String) (hash : String)
    (now : ℕ) :
    StockStep R s m (.fetchBundle client hash now) ((fetchBundle s.inner client hash now).2.core.stock m) := by
  cases h : consumedOtk s.inner client hash now with
  | none => exact stockStep_of (Or.inl (fetchBundle_untaken h m))
  | some k =>
    obtain ⟨entry, hf, hk, -, hcore⟩ := fetchBundle_taken h
    by_cases hm : m = hash
    · subst hm
      have hold : s.inner.core.stock m = entry.oneTimeKeys := stock_found hf
      have hnew : (fetchBundle s.inner client m now).2.core.stock m = entry.oneTimeKeys.tail :=
        stock_set_self (congrArg Core.directory hcore)
      rw [hnew, ← hold]
      exact .taken h
    · exact stockStep_of (Or.inl (stock_set_ne (congrArg Core.directory hcore) hm))

theorem stockStep_upload (s : Sys) (m : String) (client : Option String) (req : OneTimeKeysRequest)
    (now : ℕ) :
    StockStep R s m (.uploadOneTimeKeys client req now) ((uploadOneTimeKeys R s.inner client req now).2.core.stock m) := by
  obtain h | ⟨entry, hadmitted, hf, hs, h⟩ :=
    uploadOneTimeKeys_core (R := R) (s := s.inner) client req now
  · rw [h]
    exact .same
  · by_cases hm : req.identityHash = m
    · subst hm
      have hold : s.inner.core.stock req.identityHash = entry.oneTimeKeys := stock_found hf
      have hnew : (uploadOneTimeKeys R s.inner client req now).2.core.stock req.identityHash =
          addOneTimeKeys entry.oneTimeKeys req.oneTimeKeys := stock_set_self
          (congrArg Core.directory h)
      rw [hnew, ← hold]
      exact .uploaded rfl hadmitted hf hs
    · exact stockStep_of (Or.inl (stock_set_ne (congrArg Core.directory h) (Ne.symm hm)))

theorem stockStep_register (s : Sys) (m : String) (client invite : Option String)
    (req : RegisterRequest) (now : ℕ) :
    StockStep R s m (.register client invite req now) ((register R s.inner client invite req now).2.core.stock m) := by
  obtain ⟨h, -⟩ | ⟨i, kt, ha, hs, h⟩ := register_core (R := R) (s := s.inner) client invite req now
  · rw [h]
    exact .same
  · cases hrel : req.entry.released with
    | true =>
      rw [hrel, if_pos rfl] at h
      rw [h]
      exact .same
    | false =>
      rw [hrel, if_neg Bool.false_ne_true] at h
      by_cases hm : req.entry.usernameHash = m
      · subst hm
        have hstock : (register R s.inner client invite req now).2.core.stock req.entry.usernameHash =
            req.oneTimeKeys := stock_set_self (congrArg Core.directory h)
        rw [hstock]
        exact .registered rfl (registerGate_of_accepted hs) ha hrel
      · exact stockStep_of (Or.inl (stock_set_ne (congrArg Core.directory h) (Ne.symm hm)))

/-- **What an event can do to a stock.** -/
theorem stockStep (R : Relay) (s : Sys) (m : String) (e : Event) :
    StockStep R s m e ((sysStep R s e).inner.core.stock m) := by
  have hsame : (sysStep R s e).inner.core.directory = s.inner.core.directory →
      StockStep R s m e ((sysStep R s e).inner.core.stock m) :=
    fun h => stockStep_of (Or.inl (stock_of_directory (by rw [h])))
  have hrec := recordStep R s e
  cases e with
  | register client invite req now => exact stockStep_register s m client invite req now
  | fetchBundle client hash now => exact stockStep_fetchBundle s m client hash now
  | uploadOneTimeKeys client req now => exact stockStep_upload s m client req now
  | publishRoster client roster now =>
    cases hrec with
    | same h => exact hsame h.1
    | @roster _ _ _ i kt _ appended hex core =>
      rw [core]
      exact stockStep_of (stock_mirrorRoster { s.inner.core with kt } _ roster m)
  | publishCallKey req now =>
    cases hrec with
    | same h => exact hsame h.1
    | @callKey _ _ callMailbox entry _ mailbox call found signed newer core =>
      apply stockStep_of
      by_cases hm : m = callMailbox.asStr
      · subst hm
        exact Or.inr (stock_set_self (congrArg Core.directory core))
      · exact Or.inl (stock_set_ne (congrArg Core.directory core) hm)
  | deleteAccount client req now =>
    cases hrec with
    | same h => exact hsame h.1
    | delete found signed core =>
      rw [core]
      exact stockStep_of (stock_of_removeAll (Core.dropMailboxes_directory _ _) m)
  | _ =>
    cases hrec with
    | same h => exact hsame h.1

/-! ### Adding keys -/

theorem addOneTimeKeys_length : ∀ (ks stock : List String), stock.length ≤ maxOneTimeKeys →
    (addOneTimeKeys stock ks).length ≤ maxOneTimeKeys
  | [], _, h => h
  | k :: ks, stock, h => by
    unfold addOneTimeKeys
    split
    · exact h
    · rename_i hroom
      refine addOneTimeKeys_length ks _ ?_
      split
      · exact h
      · simp only [List.length_append, List.length_singleton]
        omega

theorem addOneTimeKeys_nodup :
    ∀ (ks stock : List String), stock.Nodup → (addOneTimeKeys stock ks).Nodup
  | [], _, h => h
  | k :: ks, stock, h => by
    unfold addOneTimeKeys
    split
    · exact h
    · refine addOneTimeKeys_nodup ks _ ?_
      split
      · exact h
      · rename_i hnew
        have hk : k ∉ stock := by simpa using hnew
        exact List.nodup_append.mpr ⟨h, List.nodup_singleton k, by
          rintro a ha b hb rfl
          exact hk (List.mem_singleton.mp hb ▸ ha)⟩

/-- A key of the new stock was there before, or the upload reaches it with room left. -/
theorem mem_addOneTimeKeys {k : String} : ∀ (ks stock : List String), k ∈ addOneTimeKeys stock ks →
    k ∈ stock ∨ ∃ pre post, ks = pre ++ k :: post ∧
    (addOneTimeKeys stock pre).length < maxOneTimeKeys
  | [], _, h => Or.inl h
  | a :: ks, stock, h => by
    unfold addOneTimeKeys at h
    split at h
    · exact Or.inl h
    rename_i hroom
    rcases mem_addOneTimeKeys ks _ h with h | ⟨pre, post, rfl, hpre⟩
    · by_cases hk : k ∈ stock
      · exact Or.inl hk
      · split at h
        · exact absurd h hk
        · obtain rfl : k = a := by simpa [hk] using h
          exact Or.inr ⟨[], ks, rfl, by simpa [addOneTimeKeys] using hroom⟩
    · refine Or.inr ⟨a :: pre, post, rfl, ?_⟩
      unfold addOneTimeKeys
      rwa [if_neg hroom]

/-! ### Runs with the keys handed out -/

/-- The relay and the keys that were handed out, each with its mailbox. -/
structure Stocked where
  sys : Sys
  handed : List (String × String) := []

/-- The key an event hands out. -/
def handsOut (s : Sys) : Event → Option (String × String)
  | .fetchBundle client hash now => (consumedOtk s.inner client hash now).map fun k => (hash, k)
  | _ => none

def stockedStep (R : Relay) (g : Stocked) (e : Event) : Stocked :=
  { sys := sysStep R g.sys e, handed := g.handed ++ (handsOut g.sys e).toList }

/-- The state after the events `es` of a relay that starts on `db`, and the keys handed out. -/
def stockedAfter (R : Relay) (db : Option Db) (es : List Event) : Stocked :=
  Trace.run (stockedStep R) { sys := start R db } es

/-- No key was handed out twice, and no stock is over the cap. -/
def HandedOutOnce (g : Stocked) : Prop :=
  g.handed.Nodup ∧ ∀ m entry, g.sys.inner.directory.get m = some entry →
  entry.oneTimeKeys.length ≤ maxOneTimeKeys

/-- A request that brings no key back: a registration that passes the gate and
that the log takes has at most the cap of keys, all different and none handed out
before, and an upload that is admitted and under the key of its mailbox comes to
no key that was handed out while there is room. -/
def FreshKeys (R : Relay) (g : Stocked) : Event → Prop
  | .register client invite req now =>
    (∃ consume, (registerGate R g.sys.inner client invite req now).1 = .ok consume) →
    (∃ i kt, g.sys.inner.kt.append R.crypto req.entry = .ok (i, kt)) → req.entry.released = false →
      req.oneTimeKeys.length ≤ maxOneTimeKeys ∧ req.oneTimeKeys.Nodup ∧
        ∀ k ∈ req.oneTimeKeys, (req.entry.usernameHash, k) ∉ g.handed
  | .uploadOneTimeKeys client req now =>
    UploadAdmitted g.sys.inner client req now →
    ∀ entry, g.sys.inner.directory.get req.identityHash = some entry →
      R.crypto.verify entry.signingKey (oneTimeKeysSigningMessage req.identityHash req.oneTimeKeys) req.signature = true →
      ∀ pre k post, req.oneTimeKeys = pre ++ k :: post →
        (addOneTimeKeys entry.oneTimeKeys pre).length < maxOneTimeKeys →
        (req.identityHash, k) ∉ g.handed
  | _ => True

/-- A stock within the cap, of different keys that were not handed out. -/
structure GoodStock (handed : List (String × String)) (m : String) (stock : List String) :
    Prop where
  cap : stock.length ≤ maxOneTimeKeys
  distinct : stock.Nodup
  unspent : ∀ k ∈ stock, (m, k) ∉ handed

theorem goodStock_nil (handed : List (String × String)) (m : String) : GoodStock handed m [] where
  cap := Nat.zero_le _
  distinct := List.nodup_nil
  unspent := by simp

structure Stocked.Sound (g : Stocked) : Prop where
  once : g.handed.Nodup
  stocks : ∀ m, GoodStock g.handed m (g.sys.inner.core.stock m)

theorem Stocked.Sound.handedOutOnce {g : Stocked} (h : g.Sound) : HandedOutOnce g := by
  refine ⟨h.once, fun m entry he => ?_⟩
  have hcap := (h.stocks m).cap
  have hstock : g.sys.inner.core.stock m = entry.oneTimeKeys := stock_found he
  rwa [hstock] at hcap

section sound

variable {g : Stocked} (h : g.Sound)
include h

/-- An event that is no fetch keeps the stocks good. -/
theorem Stocked.Sound.stock_step {e : Event} (hf : FreshKeys R g e)
    (hno : ∀ client hash now, e ≠ .fetchBundle client hash now) (m : String) :
    GoodStock g.handed m ((sysStep R g.sys e).inner.core.stock m) := by
  have hstep := stockStep R g.sys m e
  generalize (sysStep R g.sys e).inner.core.stock m = stock at hstep ⊢
  cases hstep with
  | same => exact h.stocks m
  | cleared => exact goodStock_nil _ m
  | registered hash admitted appended kept =>
    subst hash
    obtain ⟨hcap, hdist, hnew⟩ := hf admitted ⟨_, _, appended⟩ kept
    exact ⟨hcap, hdist, hnew⟩
  | @uploaded client req now entry hash admitted found signed =>
    subst hash
    have hstock : g.sys.inner.core.stock req.identityHash = entry.oneTimeKeys := stock_found found
    have hold := h.stocks req.identityHash
    refine ⟨addOneTimeKeys_length _ _ hold.cap, addOneTimeKeys_nodup _ _ hold.distinct,
      fun k hk => ?_⟩
    rcases mem_addOneTimeKeys _ _ hk with hk | ⟨pre, post, hks, hroom⟩
    · exact hold.unspent k hk
    · rw [hstock] at hroom
      exact hf admitted entry found signed pre k post hks hroom
  | taken consumed => exact absurd rfl (hno _ _ _)

theorem Stocked.Sound.fetch (client : Option String) (hash : String) (now : ℕ) :
    (stockedStep R g (.fetchBundle client hash now)).Sound := by
  cases hc : consumedOtk g.sys.inner client hash now with
  | none =>
    have hstep : stockedStep R g (.fetchBundle client hash now) =
        { sys := sysStep R g.sys (.fetchBundle client hash now), handed := g.handed } := by
      simp [stockedStep, handsOut, hc]
    rw [hstep]
    refine ⟨h.once, fun m => ?_⟩
    rw [show (sysStep R g.sys (.fetchBundle client hash now)).inner.core.stock m = g.sys.inner.core.stock m from
      fetchBundle_untaken hc m]
    exact h.stocks m
  | some k =>
    have hstep : stockedStep R g (.fetchBundle client hash now) =
        { sys := sysStep R g.sys (.fetchBundle client hash now),
          handed := g.handed ++ [(hash, k)] } := by
      simp [stockedStep, handsOut, hc]
    obtain ⟨entry, hf, hk, -, hcore⟩ := fetchBundle_taken hc
    have hstock : g.sys.inner.core.stock hash = k :: entry.oneTimeKeys.tail :=
      (stock_found hf).trans hk
    have hgood := h.stocks hash
    rw [hstock] at hgood
    obtain ⟨hnot, htail⟩ := List.nodup_cons.mp hgood.distinct
    rw [hstep]
    refine ⟨?_, fun m => ?_⟩
    · refine List.nodup_append.mpr ⟨h.once, List.nodup_singleton _, ?_⟩
      rintro a ha b hb rfl
      exact hgood.unspent k (by simp) (List.mem_singleton.mp hb ▸ ha)
    · change GoodStock (g.handed ++ [(hash, k)]) m
        ((fetchBundle g.sys.inner client hash now).2.core.stock m)
      by_cases hm : m = hash
      · subst hm
        have hnew : (fetchBundle g.sys.inner client m now).2.core.stock m =
            entry.oneTimeKeys.tail :=
          stock_set_self (congrArg Core.directory hcore)
        rw [hnew]
        refine ⟨Nat.le_of_succ_le hgood.cap, htail, fun k' hk' => ?_⟩
        have hold := hgood.unspent k' (List.mem_cons_of_mem k hk')
        have hne : k' ≠ k := fun heq => hnot (heq ▸ hk')
        simp [hold, hne]
      · have hsame : (fetchBundle g.sys.inner client hash now).2.core.stock m =
            g.sys.inner.core.stock m :=
          stock_set_ne (congrArg Core.directory hcore) hm
        rw [hsame]
        have hold := h.stocks m
        exact ⟨hold.cap, hold.distinct, fun k' hk' => by simp [hold.unspent k' hk', hm]⟩

theorem Stocked.Sound.step {e : Event} (hf : FreshKeys R g e) : (stockedStep R g e).Sound := by
  by_cases hfetch : ∃ client hash now, e = .fetchBundle client hash now
  · obtain ⟨client, hash, now, rfl⟩ := hfetch
    exact h.fetch client hash now
  · have hno : ∀ client hash now, e ≠ .fetchBundle client hash now := fun client hash now heq =>
      hfetch ⟨client, hash, now, heq⟩
    have hnone : handsOut g.sys e = none := by
      cases e with
      | fetchBundle client hash now => exact absurd rfl (hno client hash now)
      | _ => rfl
    have hstep : stockedStep R g e = { sys := sysStep R g.sys e, handed := g.handed } := by
      simp [stockedStep, hnone]
    rw [hstep]
    exact ⟨h.once, h.stock_step hf hno⟩

end sound

/-- **One-time keys are handed out once**, in every state of a run whose
requests bring no key back. -/
theorem handed_out_once (R : Relay) (db : Option Db) (es : List Event)
    (h : Trace.Along (stockedStep R) (FreshKeys R) { sys := start R db } es) :
    HandedOutOnce (stockedAfter R db es) := by
  have hstart : Stocked.Sound { sys := start R db } := ⟨List.nodup_nil, fun m => goodStock_nil _ m⟩
  have hend : (stockedAfter R db es).Sound := Trace.Along.inv (fun _ _ hs hf => hs.step hf) hstart h
  exact hend.handedOutOnce

/-! ### Concrete runs -/

/-- An upload of one key by the account. -/
def bobUploads : OneTimeKeysRequest :=
  { identityHash := bobHash, oneTimeKeys := ["WuOdxqxew83YqDBiX7zawDejf4P+MNBFulJsJRYR9FA"]
    signature := "gpGh0W1bZsn+9M1UyciP0xDI/zFlPb+FYmfZH3XeL5Qt66OnEhZr0pj5N8TYZopImea+ex2xZ86/ihd6He8uCQ" }

def uploadSigned : Signatures :=
  [(bobKey, bobEntry.signingPayload, bobEntry.signature),
    (bobKey, oneTimeKeysSigningMessage bobHash bobUploads.oneTimeKeys, bobUploads.signature)]

/-- The key is uploaded and fetched. -/
def bobIsFetched : List Event :=
  [bobRegisters, .uploadOneTimeKeys (some "10.0.0.1") bobUploads 1010, .fetchBundle (some "10.0.0.2") bobHash 1020]

theorem handed_out_once_upload :
    (stockedAfter (sampleRelay uploadSigned) none bobIsFetched).handed =
      [(bobHash, "WuOdxqxew83YqDBiX7zawDejf4P+MNBFulJsJRYR9FA")] ∧
    HandedOutOnce (stockedAfter (sampleRelay uploadSigned) none bobIsFetched) := by
  refine ⟨by decide +kernel, handed_out_once _ _ _ ⟨?_, ?_, trivial, trivial⟩⟩
  · intro _ _ _
    exact ⟨Nat.zero_le _, List.nodup_nil, by simp⟩
  · -- nothing was handed out before
    intro _ entry _ _ pre k post _ _
    exact List.not_mem_nil

/-- The same upload is sent again, and another peer fetches. -/
def uploadReplayed : List Event :=
  bobIsFetched ++ [.uploadOneTimeKeys (some "10.0.0.9") bobUploads 1030, .fetchBundle (some "10.0.0.3") bobHash 1040]

/-- An upload has no nonce and is compared only with the keys in stock: sent
again after its key was taken, it puts the key back. -/
theorem replayed_upload_hands_out_twice :
    ¬ ∀ (R : Relay) (db : Option Db) (es : List Event), HandedOutOnce (stockedAfter R db es) := by
  intro h
  have honce := (h (sampleRelay uploadSigned) none uploadReplayed).1
  have htwice : (stockedAfter (sampleRelay uploadSigned) none uploadReplayed).handed =
      [(bobHash, "WuOdxqxew83YqDBiX7zawDejf4P+MNBFulJsJRYR9FA"),
        (bobHash, "WuOdxqxew83YqDBiX7zawDejf4P+MNBFulJsJRYR9FA")] := by
    decide +kernel
  rw [htwice] at honce
  simp at honce

end Sona
