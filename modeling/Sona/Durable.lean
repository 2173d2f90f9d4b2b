/-
# Durable mailboxes

With a database the relay keeps every queued envelope twice: in the store and
as a row. `send_message` inserts the row and deletes those of what the store
evicted, an Ack and an account deletion delete on both sides, and the reaper
prunes both; the store also sheds expired entries by itself, which leaves their
rows. At a restart the store is rebuilt from the rows (`rebuild`).

The rebuilt store is the one the relay held (`durable_refines`), where the rows
come in the order they were inserted in (`Scan.InRowOrder`), as long as no message
is accepted under an id whose expired row is still there: then the row is kept for
the old message and the new one is in memory only (`stale_row_loses_message`).

Key definitions: `queueMessage`, `rebuild`, `MailOp`, `mailStep`, `Durable`, `FreshRow`.
Key theorems: `rebuild_entries`, `Durable.step`, `durable_refines`.
-/
import Mathlib.Data.List.Induction
import Sona.Lib.Trace
import Sona.Store
import Sona.Db

namespace Sona

/-! ### The steps -/

/-- What `send_message` does to the store and the database: the envelope is
queued, and if it was stored its row is inserted and the rows of what was
evicted are deleted. -/
def queueMessage (store : MessageStore) (db : Option Db) (env : Envelope) (now : ℕ) :
    Except RelayError Stored × MessageStore × Option Db :=
  let (result, store) := store.enqueue env now
  match result with
  | .ok { stored := true, evicted } =>
    (result, store, db.map fun db =>
      evicted.foldl (fun db msgId => db.deleteMessage env.recipient.asStr msgId)
        (db.insertMessage env env.expiresAt))
  | _ => (result, store, db)

/-- The store `AppState::persistent` builds from the rows. -/
def rebuild (scan : Scan) (db : Db) (now : ℕ) : MessageStore :=
  (db.loadMessages scan now).foldl (fun store env => (store.enqueue env now).2) {}

/-- The two copies of the queues, and the time of the last step. -/
structure Mail where
  store : MessageStore := {}
  db : Db := {}
  clock : ℕ := 0

inductive MailOp
  | send (env : Envelope)
  | fetch (recipient : IdentityHash)
  | ack (recipient : IdentityHash) (msgId : String)
  | reap
  | purge (mailbox : String)
  | restart

/-- What the mail of `send_message` is before it is queued: its expiry is clamped. -/
def Mail.send (m : Mail) (now : ℕ) (env : Envelope) :
    Except RelayError Stored × MessageStore × Option Db :=
  queueMessage m.store (some m.db) (env.clamped now) now

def Mail.apply (scan : Scan) (m : Mail) (now : ℕ) : MailOp → Mail
  | .send env => { m with store := (m.send now env).2.1, db := (m.send now env).2.2.getD m.db }
  | .fetch recipient => { m with store := (m.store.fetch recipient now).2 }
  | .ack recipient msgId =>
    { m with store := m.store.ack recipient msgId, db := m.db.deleteMessage recipient.asStr msgId }
  | .reap =>
    { m with store := m.store.prune now
             db := (m.db.pruneExpired now).clampNullExpiry (now + maxMessageTtlSecs) }
  | .purge mailbox => { m with store := m.store.purge mailbox, db := m.db.deleteMessagesFor mailbox }
  | .restart => { m with store := rebuild scan (m.db.pruneExpired now) now, db := m.db.pruneExpired now }

/-- One step at a time. -/
def mailStep (scan : Scan) (m : Mail) (e : ℕ × MailOp) : Mail :=
  { m.apply scan e.1 e.2 with clock := e.1 }

variable {scan : Scan}

/-! ### Expiry -/

theorem Envelope.expired_mono {env : Envelope} {t t' : ℕ} (h : t ≤ t') (he : env.expired t = true) :
    env.expired t' = true := by
  unfold Envelope.expired at he ⊢
  cases hx : env.expiresAt with
  | none => simp [hx] at he
  | some exp =>
    simp only [hx, decide_eq_true_eq] at he ⊢
    omega

/-- What is unexpired later was unexpired before. -/
theorem unexpired_unexpired {t t' : ℕ} (h : t ≤ t') (l : List Envelope) :
    unexpired t' (unexpired t l) = unexpired t' l := by
  unfold unexpired
  rw [List.filter_filter]
  apply List.filter_congr
  intro env _
  cases h1 : env.expired t' with
  | true => rfl
  | false =>
    cases h2 : env.expired t with
    | false => rfl
    | true => rw [Envelope.expired_mono h h2] at h1; cases h1

theorem unexpired_mono {t t' : ℕ} (h : t ≤ t') {l l' : List Envelope}
    (heq : unexpired t l = unexpired t l') :
    unexpired t' l = unexpired t' l' := by
  rw [← unexpired_unexpired h l, heq, unexpired_unexpired h]

theorem unexpired_append (t : ℕ) (l l' : List Envelope) :
    unexpired t (l ++ l') = unexpired t l ++ unexpired t l' := List.filter_append _ _

theorem unexpired_filter (t : ℕ) (p : Envelope → Bool) (l : List Envelope) :
    unexpired t (l.filter p) = (unexpired t l).filter p := by
  unfold unexpired
  rw [List.filter_filter, List.filter_filter]
  exact List.filter_congr fun e _ => Bool.and_comm _ _

/-- The expiry is within the ceiling that a message sent at `t` gets. -/
def Envelope.Bounded (t : ℕ) (env : Envelope) : Prop :=
  ∃ exp, env.expiresAt = some exp ∧ exp ≤ saturatingAdd t maxMessageTtlSecs

theorem Envelope.Bounded.mono {t t' : ℕ} (h : t ≤ t') {env : Envelope} (hb : env.Bounded t) :
    env.Bounded t' := by
  obtain ⟨exp, he, hle⟩ := hb
  exact ⟨exp, he, hle.trans (saturatingAdd_mono h le_rfl)⟩

theorem Envelope.clamped_bounded (now : ℕ) (env : Envelope) : (env.clamped now).Bounded now := by
  refine ⟨_, rfl, ?_⟩
  unfold clampExpiry
  cases env.expiresAt with
  | none => exact le_refl _
  | some exp => exact min_le_right _ _

/-- A bounded expiry is not clamped again. -/
theorem Envelope.Bounded.clamped {now : ℕ} {env : Envelope} (h : env.Bounded now) :
    env.clamped now = env := by
  obtain ⟨exp, he, hle⟩ := h
  unfold Envelope.clamped clampExpiry
  rw [he]
  simp only [min_eq_left hle]
  rw [← he]

/-! ### Rows -/

/-- The envelopes that rows hold for a mailbox, in row order. -/
def mailboxRows (rows : List MessageRow) (key : String) : List Envelope :=
  (rows.filter fun row => row.target = key).map (·.env)

/-- The envelopes stored for a mailbox. -/
def Db.rowsOf (db : Db) (key : String) : List Envelope := mailboxRows db.messages key

/-- A row holds what its columns say, an envelope the store would take. -/
structure RowOk (clock : ℕ) (row : MessageRow) : Prop where
  target : row.target = row.env.recipient.asStr
  msgId : row.msgId = row.env.msgId
  expiry : row.expiresAt = row.env.expiresAt
  clean : row.env.isZkClean = true
  bounded : row.env.Bounded clock

theorem RowOk.due {clock : ℕ} {row : MessageRow} (h : RowOk clock row) (now : ℕ) :
    row.due now = row.env.expired now := by
  unfold MessageRow.due Envelope.expired
  cases he : row.env.expiresAt <;> simp [h.expiry, he]

theorem mem_rowsOf {db : Db} {key : String} {env : Envelope} :
    env ∈ db.rowsOf key ↔ ∃ row ∈ db.messages, row.target = key ∧ row.env = env := by
  simp [Db.rowsOf, mailboxRows, and_assoc]

theorem mailboxRows_filter (rows : List MessageRow) (p : MessageRow → Bool) (q : Envelope → Bool)
    (key : String) (h : ∀ row ∈ rows, row.target = key → p row = q row.env) :
    mailboxRows (rows.filter p) key = (mailboxRows rows key).filter q := by
  unfold mailboxRows
  rw [List.filter_map, List.filter_filter, List.filter_filter]
  congr 1
  apply List.filter_congr
  intro row hrow
  by_cases hk : row.target = key
  · simp [hk, h row hrow hk]
  · simp [hk]

/-! ### Rebuilding -/

/-- The part of a list of envelopes that is for one mailbox. -/
def forMailbox (key : String) (l : List Envelope) : List Envelope :=
  l.filter fun env => env.recipient.asStr = key

/-- The envelopes can be queued again one after another, without an eviction:
each mailbox is within its bounds and there is a mailbox for it in `held`. -/
structure Loadable (now : ℕ) (held : MessageStore) (l : List Envelope) : Prop where
  clean : ∀ env ∈ l, env.isZkClean = true
  live : ∀ env ∈ l, env.expired now = false
  bounded : ∀ env ∈ l, env.Bounded now
  distinct : ∀ key, ((forMailbox key l).map (·.msgId)).Nodup
  depth : ∀ key, (forMailbox key l).length ≤ maxMailboxDepth
  bytes : ∀ key, ((forMailbox key l).map envelopeBytes).sum ≤ maxMailboxBytes
  known : ∀ env ∈ l, ∃ mailbox, held.mailboxes.get env.recipient.asStr = some mailbox
  count : held.mailboxes.size ≤ maxMailboxes

theorem forMailbox_append (key : String) (l l' : List Envelope) :
    forMailbox key (l ++ l') = forMailbox key l ++ forMailbox key l' := List.filter_append _ _

theorem Loadable.init {now : ℕ} {held : MessageStore} {l : List Envelope} {env : Envelope}
    (h : Loadable now held (l ++ [env])) : Loadable now held l where
  clean := fun e he => h.clean e (by simp [he])
  live := fun e he => h.live e (by simp [he])
  bounded := fun e he => h.bounded e (by simp [he])
  distinct := fun key => by
    have := h.distinct key
    rw [forMailbox_append, List.map_append] at this
    exact (List.nodup_append.mp this).1
  depth := fun key => by
    have := h.depth key
    rw [forMailbox_append, List.length_append] at this
    omega
  bytes := fun key => by
    have := h.bytes key
    rw [forMailbox_append, List.map_append, List.sum_append] at this
    omega
  known := fun e he => h.known e (by simp [he])
  count := h.count

/-- Queueing loadable envelopes fills each mailbox with its own, in order. -/
theorem enqueue_loadable {now : ℕ} {held : MessageStore} (l : List Envelope)
    (h : Loadable now held l) :
    let store := l.foldl (fun store env => (store.enqueue env now).2) ({} : MessageStore)
    (∀ key, store.entries key = forMailbox key l) ∧
      ∀ key mailbox, store.mailboxes.get key = some mailbox →
      ∃ m, held.mailboxes.get key = some m := by
  induction l using List.reverseRecOn with
  | nil => exact ⟨fun key => rfl, fun key mailbox hm => by simp at hm⟩
  | append_singleton l env ih =>
    obtain ⟨hent, hkeys⟩ := ih h.init
    rw [List.foldl_append, List.foldl_cons, List.foldl_nil]
    set store := l.foldl (fun store env => (store.enqueue env now).2) ({} : MessageStore)
    have hmem : env ∈ l ++ [env] := by simp
    have hclamped : env.clamped now = env := (h.bounded env hmem).clamped
    have hbox : forMailbox env.recipient.asStr (l ++ [env]) =
        forMailbox env.recipient.asStr l ++ [env] := by
      simp [forMailbox]
    have hlive : unexpired now (store.entries env.recipient.asStr) =
        forMailbox env.recipient.asStr l := by
      rw [hent, unexpired, List.filter_eq_self]
      intro e he
      simp [h.live e (by simp [List.mem_of_mem_filter he])]
    have hfits : Fits (envelopeBytes env) (forMailbox env.recipient.asStr l) := by
      have hb := h.bytes env.recipient.asStr
      have hd := h.depth env.recipient.asStr
      rw [hbox] at hb hd
      simp only [List.map_append, List.sum_append, List.map_cons, List.map_nil, List.sum_cons,
        List.sum_nil, List.length_append, List.length_singleton] at hb hd
      exact ⟨by omega, by omega⟩
    rcases store.enqueue_cases env now with ⟨-, href, -⟩
      | ⟨gone, kept, happ, heq, -, hmin, -, -, -, -⟩
    · -- none of the reasons to refuse applies
      exfalso
      cases href with
      | unclean hz => rw [h.clean env hmem] at hz; cases hz
      | late hl => rw [hclamped, h.live env hmem] at hl; cases hl
      | large hl =>
        rw [hclamped] at hl
        have := hfits.1
        omega
      | full hnew hfull =>
        have hsize : (store.mailboxes.set env.recipient.asStr []).size ≤ held.mailboxes.size := by
          apply Table.size_le_of_keys
          intro k v hk
          rw [Table.get_set] at hk
          split at hk
          · rename_i hk'
            rw [hk']
            exact h.known env hmem
          · exact hkeys k v hk
        rw [Table.size_set_new _ _ hnew] at hsize
        have := h.count
        omega
      | held hh =>
        obtain ⟨m, hm, hid⟩ := hh
        rw [hent] at hm
        have hn := h.distinct env.recipient.asStr
        rw [hbox, List.map_append, List.nodup_append] at hn
        exact hn.2.2 m.msgId (List.mem_map_of_mem hm) env.msgId (by simp) hid
    · -- everything fits, so nothing was evicted
      have hgone : gone = [] := by
        by_contra hne
        refine hmin 0 (List.length_pos_iff.mpr hne) ?_
        rw [hclamped, hlive, List.drop_zero]
        exact hfits
      rw [hgone, List.nil_append, hlive] at happ
      rw [heq, happ, hclamped]
      refine ⟨fun key => ?_, fun key mailbox hk => ?_⟩
      · rw [MessageStore.entries_set]
        split
        · rename_i hk
          rw [hk, hbox]
        · rename_i hk
          rw [forMailbox_append, show forMailbox key [env] = [] by simp [forMailbox, Ne.symm hk], List.append_nil]
          exact hent key
      · simp only [Table.get_set] at hk
        split at hk
        · rename_i hk'
          rw [hk']
          exact h.known env hmem
        · exact hkeys key mailbox hk

/-! ### The invariant -/

/-- The two copies agree on what is unexpired, every entry of the store has its
row, and the rows are what the store would take. -/
structure Durable (m : Mail) : Prop where
  rows : ∀ row ∈ m.db.messages, RowOk m.clock row
  keys : (m.db.messages.map fun row => (row.target, row.msgId)).Nodup
  same : ∀ key, unexpired m.clock (m.db.rowsOf key) = unexpired m.clock (m.store.entries key)
  held : ∀ key, ∀ env ∈ m.store.entries key, env ∈ m.db.rowsOf key
  store : ∃ log, StoreOk m.store log

theorem durable_empty : Durable {} where
  rows := by simp
  keys := by simp
  same := fun key => rfl
  held := fun key env h => by simp [MessageStore.entries] at h
  store := ⟨[], fun key mailbox h => by simp at h, by simp [Table.size, maxMailboxes]⟩

theorem RowOk.mono {t t' : ℕ} (h : t ≤ t') {row : MessageRow} (hr : RowOk t row) : RowOk t' row :=
  { hr with bounded := hr.bounded.mono h }

/-- Time passes. -/
theorem Durable.tick {m : Mail} (h : Durable m) {now : ℕ} (hnow : m.clock ≤ now) :
    Durable { m with clock := now } where
  rows := fun row hrow => (h.rows row hrow).mono hnow
  keys := h.keys
  same := fun key => unexpired_mono hnow (h.same key)
  held := h.held
  store := h.store

theorem StoreOk.apply {st : MessageStore} (h : ∃ log, StoreOk st log) (op : StoreOp) :
    ∃ log, StoreOk (op.apply st) log := by
  obtain ⟨log, h⟩ := h
  exact ⟨_, StoreOk.step (s := (st, log)) h op⟩

/-- Both sides lose the same entries. -/
theorem Durable.restrict {m : Mail} (h : Durable m) {store : MessageStore} (p : MessageRow → Bool)
    (q : String → Envelope → Bool) (hp : ∀ row ∈ m.db.messages, p row = q row.target row.env)
    (hq : ∀ key, unexpired m.clock (store.entries key) = unexpired m.clock ((m.store.entries key).filter (q key)))
    (hsub : ∀ key, ∀ env ∈ store.entries key, env ∈ m.db.rowsOf key ∧ q key env = true)
    (hs : ∃ log, StoreOk store log) :
    Durable { m with store, db := { m.db with messages := m.db.messages.filter p } } := by
  have hrows : ∀ key, Db.rowsOf { m.db with messages := m.db.messages.filter p } key =
      (m.db.rowsOf key).filter (q key) := by
    intro key
    refine mailboxRows_filter m.db.messages p (q key) key fun row hrow hk => ?_
    rw [hp row hrow, hk]
  refine ⟨fun row hrow => h.rows row (List.mem_of_mem_filter hrow), ?_, fun key => ?_,
    fun key env henv => ?_, hs⟩
  · exact h.keys.sublist (List.filter_sublist.map _)
  · -- the unexpired entries agree, so what is left of them agrees
    have hcomm : ∀ l : List Envelope, unexpired m.clock (l.filter (q key)) =
        (unexpired m.clock l).filter (q key) := by
      intro l
      unfold unexpired
      rw [List.filter_filter, List.filter_filter]
      exact List.filter_congr fun e _ => Bool.and_comm _ _
    simp only [hrows, hq]
    rw [hcomm, hcomm, h.same]
  · simp only [hrows]
    exact List.mem_filter.mpr (hsub key env henv)

theorem Durable.ack (scan : Scan) {m : Mail} (h : Durable m) (recipient : IdentityHash)
    (msgId : String) :
    Durable (m.apply scan m.clock (.ack recipient msgId)) := by
  refine h.restrict (fun row => !row.is recipient.asStr msgId)
    (fun key env => !(decide (key = recipient.asStr) && decide (env.msgId = msgId))) ?_ ?_ ?_
    (StoreOk.apply h.store (.ack recipient msgId))
  · intro row hrow
    simp [MessageRow.is, (h.rows row hrow).msgId]
  · intro key
    rw [MessageStore.entries_ack]
    by_cases hk : key = recipient.asStr <;> simp [hk]
  · intro key env henv
    rw [MessageStore.entries_ack] at henv
    split at henv
    · rename_i hk
      rw [List.mem_filter] at henv
      exact ⟨h.held key env henv.1, by simpa [hk] using henv.2⟩
    · rename_i hk
      exact ⟨h.held key env henv, by simp [hk]⟩

theorem Durable.purge (scan : Scan) {m : Mail} (h : Durable m) (mailbox : String) :
    Durable (m.apply scan m.clock (.purge mailbox)) := by
  refine h.restrict (fun row => row.target ≠ mailbox) (fun key _ => key ≠ mailbox)
    (fun row _ => rfl) ?_ ?_
    (StoreOk.apply h.store (.purge mailbox))
  · intro key
    rw [MessageStore.entries_purge]
    by_cases hk : key = mailbox <;> simp [hk]
  · intro key env henv
    rw [MessageStore.entries_purge] at henv
    split at henv
    · cases henv
    · rename_i hk
      exact ⟨h.held key env henv, by simpa using hk⟩

theorem Durable.fetch (scan : Scan) {m : Mail} (h : Durable m) (recipient : IdentityHash) :
    Durable (m.apply scan m.clock (.fetch recipient)) := by
  refine ⟨h.rows, h.keys, fun key => ?_, fun key env henv => ?_,
    StoreOk.apply h.store (.fetch recipient m.clock)⟩
  · simp only [Mail.apply, MessageStore.entries_fetch]
    split
    · rw [unexpired_unexpired (le_refl _)]; exact h.same key
    · exact h.same key
  · simp only [Mail.apply, MessageStore.entries_fetch] at henv
    split at henv
    · exact h.held key env (List.mem_of_mem_filter henv)
    · exact h.held key env henv

/-- Both sides lose what is expired. -/
theorem Durable.prune {m : Mail} (h : Durable m) {store : MessageStore}
    (hst : ∀ key, store.entries key = unexpired m.clock (m.store.entries key))
    (hs : ∃ log, StoreOk store log) :
    Durable { m with store, db := m.db.pruneExpired m.clock } := by
  refine h.restrict (fun row => !row.due m.clock) (fun _ env => !env.expired m.clock) ?_ ?_ ?_ hs
  · intro row hrow
    rw [(h.rows row hrow).due]
  · intro key
    rw [hst]
    rfl
  · intro key env henv
    rw [hst, unexpired, List.mem_filter] at henv
    exact ⟨h.held key env henv.1, henv.2⟩

/-- Every row has an expiry, so there is none to clamp. -/
theorem clampNullExpiry_eq {db : Db} {clock : ℕ} (h : ∀ row ∈ db.messages, RowOk clock row)
    (ceiling : ℕ) :
    db.clampNullExpiry ceiling = db := by
  unfold Db.clampNullExpiry
  have hmap : db.messages.map (fun row => { row with expiresAt := row.expiresAt.or (some ceiling) }) =
      db.messages := by
    conv_rhs => rw [← List.map_id db.messages]
    apply List.map_congr_left
    intro row hrow
    obtain ⟨exp, he, -⟩ := (h row hrow).bounded
    have hx : row.expiresAt = some exp := by rw [(h row hrow).expiry, he]
    rw [hx, Option.some_or, ← hx]
    rfl
  rw [hmap]

theorem Durable.reap (scan : Scan) {m : Mail} (h : Durable m) :
    Durable (m.apply scan m.clock .reap) := by
  have hpruned :
      Durable { m with store := m.store.prune m.clock, db := m.db.pruneExpired m.clock } :=
    h.prune (fun key => MessageStore.entries_prune _ _ _) (StoreOk.apply h.store (.prune m.clock))
  simp only [Mail.apply]
  rw [clampNullExpiry_eq hpruned.rows]
  exact hpruned

/-- What the rows load to, by mailbox: the unexpired rows of the mailbox. -/
theorem forMailbox_load (hscan : scan.InRowOrder) {db : Db} {clock now : ℕ}
    (h : ∀ row ∈ db.messages, RowOk clock row) (key : String) :
    forMailbox key (db.loadMessages scan now) = unexpired now (db.rowsOf key) := by
  unfold forMailbox Db.loadMessages Db.rowsOf mailboxRows unexpired
  rw [hscan, List.filter_map, List.filter_map, List.filter_filter, List.filter_filter]
  congr 1
  apply List.filter_congr
  intro row hrow
  simp only [Function.comp, (h row hrow).due, (h row hrow).target]
  exact Bool.and_comm _ _

theorem MailboxOk.unexpired {log : List (ℕ × Envelope)} {key : String} {mb : List Envelope}
    (h : MailboxOk log key mb) (now : ℕ) : MailboxOk log key (unexpired now mb) :=
  h.sublist (unexpired_sublist now mb)

/-- The rows of a durable relay load without an eviction. -/
theorem Durable.loadable (hscan : scan.InRowOrder) {m : Mail} (h : Durable m) :
    Loadable m.clock m.store (m.db.loadMessages scan m.clock) := by
  obtain ⟨log, hs⟩ := h.store
  have hrow : ∀ env ∈ m.db.loadMessages scan m.clock,
      ∃ row ∈ m.db.messages, row.env = env ∧ env.expired m.clock = false := by
    intro env henv
    rw [Db.loadMessages, hscan] at henv
    obtain ⟨row, hr, rfl⟩ := List.mem_map.mp henv
    obtain ⟨hmem, hdue⟩ := List.mem_filter.mp hr
    rw [(h.rows row hmem).due] at hdue
    exact ⟨row, hmem, rfl, by simpa using hdue⟩
  have hbox : ∀ key, forMailbox key (m.db.loadMessages scan m.clock) =
      unexpired m.clock (m.store.entries key) :=
    fun key => by rw [forMailbox_load hscan h.rows, h.same]
  have hok := fun key => (hs.entries key).unexpired m.clock
  refine ⟨?_, ?_, ?_, fun key => ?_, fun key => ?_, fun key => ?_, ?_, hs.count⟩
  · intro env henv
    obtain ⟨row, hmem, rfl, -⟩ := hrow env henv
    exact (h.rows row hmem).clean
  · intro env henv
    obtain ⟨row, -, -, hexp⟩ := hrow env henv
    exact hexp
  · intro env henv
    obtain ⟨row, hmem, rfl, -⟩ := hrow env henv
    exact (h.rows row hmem).bounded
  · rw [hbox]; exact (hok key).distinct
  · rw [hbox]; exact (hok key).depth
  · rw [hbox]; exact (hok key).bytes
  · -- a loaded envelope is in the store, so its mailbox is there
    intro env henv
    have hin : env ∈ unexpired m.clock (m.store.entries env.recipient.asStr) := by
      rw [← hbox]
      exact List.mem_filter.mpr ⟨henv, by simp⟩
    cases hk : m.store.mailboxes.get env.recipient.asStr with
    | none => simp [MessageStore.entries, hk, unexpired] at hin
    | some mailbox => exact ⟨mailbox, rfl⟩

/-- **Rebuilding gives the store back.** From the rows of a durable relay the
rebuilt mailboxes hold what was unexpired in the store. -/
theorem rebuild_entries (hscan : scan.InRowOrder) {m : Mail} (h : Durable m) (key : String) :
    (rebuild scan m.db m.clock).entries key = unexpired m.clock (m.store.entries key) := by
  rw [rebuild, (enqueue_loadable _ (h.loadable hscan)).1, forMailbox_load hscan h.rows, h.same]

/-- Pruning first changes nothing, since expired rows are not loaded. -/
theorem loadMessages_pruneExpired (db : Db) (now : ℕ) :
    (db.pruneExpired now).loadMessages scan now = db.loadMessages scan now := by
  simp [Db.loadMessages, Db.pruneExpired, List.filter_filter]

theorem rebuild_pruneExpired (db : Db) (now : ℕ) :
    rebuild scan (db.pruneExpired now) now = rebuild scan db now := by
  rw [rebuild, rebuild, loadMessages_pruneExpired]

theorem storeOk_rebuild (db : Db) (now : ℕ) : ∃ log, StoreOk (rebuild scan db now) log := by
  unfold rebuild
  generalize db.loadMessages scan now = l
  induction l using List.reverseRecOn with
  | nil => exact durable_empty.store
  | append_singleton l env ih =>
    rw [List.foldl_append]
    exact StoreOk.apply ih (.enqueue env now)

theorem Durable.restart (hscan : scan.InRowOrder) {m : Mail} (h : Durable m) :
    Durable (m.apply scan m.clock .restart) := by
  simp only [Mail.apply]
  exact h.prune (fun key => by rw [rebuild_pruneExpired, rebuild_entries hscan h])
    (storeOk_rebuild _ _)

/-! ### Sending -/

/-- What queueing can do to the two copies. -/
theorem queueMessage_cases (st : MessageStore) (db : Option Db) (env : Envelope) (now : ℕ) :
    ((queueMessage st db env now).2 = (st, db) ∧ st.Refused env now ∧
      ∀ s, (queueMessage st db env now).1 = .ok s → s.stored = false ∧
        ((env.clamped now).expired now = true ∨ st.Holds env.recipient.asStr env.msgId)) ∨
    (∃ gone kept, gone ++ kept = unexpired now (st.entries env.recipient.asStr) ∧
      queueMessage st db env now = (.ok { stored := true, evicted := gone.map (·.msgId) },
        ⟨st.mailboxes.set env.recipient.asStr (kept ++ [env.clamped now])⟩,
        db.map fun db => (gone.map (·.msgId)).foldl
          (fun db msgId => db.deleteMessage env.recipient.asStr msgId) (db.insertMessage env env.expiresAt)) ∧
      env.isZkClean = true ∧ (env.clamped now).expired now = false ∧
      (∀ m ∈ st.entries env.recipient.asStr, m.msgId ≠ env.msgId)) := by
  unfold queueMessage
  rcases st.enqueue_cases env now with ⟨hst, href, hno⟩
    | ⟨gone, kept, happ, heq, -, -, hzk, hexp, hnew, -⟩
  · refine Or.inl ⟨?_, href, ?_⟩
    · cases hr : (st.enqueue env now).1 with
      | error e => simp [hr, hst]
      | ok s => rw [(hno s hr).1] at hr; simp [hr, hst]
    · intro s hs
      cases hr : (st.enqueue env now).1 with
      | error e => simp [hr] at hs
      | ok s' =>
        obtain ⟨rfl, hwhy⟩ := hno s' hr
        simp only [hr, Except.ok.injEq] at hs
        exact ⟨by rw [← hs], hwhy⟩
  · exact Or.inr ⟨gone, kept, happ, by simp [heq], hzk, hexp, hnew⟩

theorem queueMessage_store (st : MessageStore) (db : Option Db) (env : Envelope) (now : ℕ) :
    (queueMessage st db env now).2.1 = (st.enqueue env now).2 := by
  unfold queueMessage
  dsimp only
  split <;> rfl

theorem queueMessage_result (st : MessageStore) (db : Option Db) (env : Envelope) (now : ℕ) :
    (queueMessage st db env now).1 = (st.enqueue env now).1 := by
  unfold queueMessage
  dsimp only
  split <;> simp_all

theorem foldl_deleteMessage (target : String) : ∀ (ids : List String) (db : Db),
    ids.foldl (fun db msgId => db.deleteMessage target msgId) db =
      { db with messages := db.messages.filter fun row => !(decide (row.target = target) && decide (row.msgId ∈ ids)) }
  | [], db => by simp
  | id :: ids, db => by
    rw [List.foldl_cons, foldl_deleteMessage target ids]
    simp only [Db.deleteMessage, List.filter_filter, MessageRow.is]
    congr 1
    apply List.filter_congr
    intro row _
    by_cases ht : row.target = target <;> by_cases hi : row.msgId = id <;> simp [ht, hi]

/-- No expired row is left under the id that a message the store accepts is sent with. -/
def FreshRow (m : Mail) (e : ℕ × MailOp) : Prop :=
  match e.2 with
  | .send env => m.store.Accepts env e.1 →
    ∀ row ∈ m.db.messages, row.is env.recipient.asStr env.msgId = true → row.due e.1 = false
  | _ => True

/-- With no expired row under its id, a message the store takes has no row yet. -/
theorem Durable.no_row {m : Mail} (h : Durable m) {env : Envelope}
    (hfresh : FreshRow m (m.clock, .send env)) (hacc : m.store.Accepts env m.clock)
    (hnew : ∀ e ∈ m.store.entries env.recipient.asStr, e.msgId ≠ env.msgId) :
    ∀ row ∈ m.db.messages, row.is env.recipient.asStr env.msgId = false := by
  intro row hrow
  rw [Bool.eq_false_iff]
  intro his
  have hlive := hfresh hacc row hrow his
  simp only [MessageRow.is, Bool.and_eq_true, decide_eq_true_eq] at his
  rw [(h.rows row hrow).due] at hlive
  have hin : row.env ∈ unexpired m.clock (m.db.rowsOf env.recipient.asStr) :=
    List.mem_filter.mpr ⟨mem_rowsOf.mpr ⟨row, hrow, his.1, rfl⟩, by simp [hlive]⟩
  rw [h.same] at hin
  exact hnew row.env (List.mem_of_mem_filter hin) (by rw [← (h.rows row hrow).msgId, his.2])

theorem Envelope.clamped_clamped (now : ℕ) (env : Envelope) :
    (env.clamped now).clamped now = env.clamped now :=
  (env.clamped_bounded now).clamped

/-- A message in time that is answered with success is one that the store accepts. -/
theorem Mail.accepts_of_send {m : Mail} {now : ℕ} {env : Envelope} {s : Stored}
    (hs : (m.send now env).1 = .ok s) (hexp : (env.clamped now).expired now = false) :
    m.store.Accepts env now := by
  rw [Mail.send, queueMessage_result] at hs
  have hclamped := env.clamped_clamped now
  have hacc : m.store.Accepts (env.clamped now) now :=
    MessageStore.accepts_of_enqueue hs (by rw [hclamped]; exact hexp)
  have hsmall := hacc.small
  rw [hclamped] at hsmall
  exact ⟨hacc.clean, hexp, hsmall, hacc.room⟩

/-- The rows of a mailbox after a new row and the deletion of the evicted ones. -/
theorem rowsOf_insert_delete (db : Db) (env : Envelope) (gone : List String)
    (hrow : ∀ row ∈ db.messages, row.is env.recipient.asStr env.msgId = false)
    (hid : env.msgId ∉ gone) (hmsg : ∀ row ∈ db.messages, row.msgId = row.env.msgId)
    (key : String) :
    (gone.foldl (fun db msgId => db.deleteMessage env.recipient.asStr msgId)
        (db.insertMessage env env.expiresAt)).rowsOf key =
      if key = env.recipient.asStr then (db.rowsOf key).filter (fun e => e.msgId ∉ gone) ++ [env]
      else db.rowsOf key := by
  have hany : (db.messages.any fun row => row.is env.recipient.asStr env.msgId) = false := by
    simpa using hrow
  rw [foldl_deleteMessage, Db.insertMessage, hany]
  simp only [Bool.false_eq_true, if_false, Db.rowsOf]
  rw [mailboxRows_filter _ _ (fun e => !(decide (key = env.recipient.asStr) && decide (e.msgId ∈ gone)))]
  · by_cases hk : key = env.recipient.asStr
    · simp [hk, mailboxRows, List.filter_append, hid]
    · simp [hk, Ne.symm hk, mailboxRows, List.filter_append]
  · intro row hr htarget
    rcases List.mem_append.mp hr with hr | hr
    · rw [htarget, hmsg row hr]
    · rw [List.mem_singleton.mp hr] at htarget ⊢
      simp only at htarget
      simp [htarget]

/-- What holds of the rows and of the new one holds of all after the insertion. -/
theorem insertMessage_rows {P : MessageRow → Prop} {db : Db} {env : Envelope} {expiresAt : Option ℕ}
    (h : ∀ row ∈ db.messages, P row)
    (hnew : P ⟨env.recipient.asStr, env.msgId, env, expiresAt⟩) :
    ∀ row ∈ (db.insertMessage env expiresAt).messages, P row := by
  intro row hr
  unfold Db.insertMessage at hr
  split at hr
  · exact h row hr
  · rcases List.mem_append.mp hr with hr | hr
    · exact h row hr
    · exact List.mem_singleton.mp hr ▸ hnew

/-- Mailbox and id stay a key of the rows. -/
theorem insertMessage_keys {db : Db} (env : Envelope) (expiresAt : Option ℕ)
    (h : (db.messages.map fun row => (row.target, row.msgId)).Nodup) :
    ((db.insertMessage env expiresAt).messages.map fun row => (row.target, row.msgId)).Nodup := by
  unfold Db.insertMessage
  split
  · exact h
  · rename_i hany
    rw [List.map_append, List.nodup_append]
    refine ⟨h, by simp, ?_⟩
    intro x hx y hy hxy
    obtain ⟨row, hr, rfl⟩ := List.mem_map.mp hx
    simp only [List.map_cons, List.map_nil, List.mem_singleton] at hy
    rw [hy, Prod.mk.injEq] at hxy
    exact hany (List.any_eq_true.mpr ⟨row, hr, by simp [MessageRow.is, hxy.1, hxy.2]⟩)

theorem Durable.send (scan : Scan) {m : Mail} (h : Durable m) (env : Envelope)
    (hfresh : FreshRow m (m.clock, .send env)) :
    Durable (m.apply scan m.clock (.send env)) := by
  obtain ⟨log, hs⟩ := h.store
  simp only [Mail.apply, Mail.send]
  have hstore : ∃ log, StoreOk (queueMessage m.store (some m.db) (env.clamped m.clock) m.clock).2.1 log := by
    rw [queueMessage_store]
    exact StoreOk.apply ⟨log, hs⟩ (.enqueue (env.clamped m.clock) m.clock)
  rcases queueMessage_cases m.store (some m.db) (env.clamped m.clock) m.clock with
    ⟨heq, -, -⟩ | ⟨gone, kept, happ, heq, hzk, hexp, hnew⟩
  · rw [heq]; exact h
  have haccepted : (m.send m.clock env).1 =
      .ok { stored := true, evicted := gone.map (·.msgId) } := by
    rw [Mail.send, heq]
  rw [heq, Envelope.clamped_clamped] at hstore ⊢
  rw [Envelope.clamped_clamped] at hexp
  have hrow := h.no_row hfresh (Mail.accepts_of_send haccepted hexp) hnew
  set new := env.clamped m.clock with hnewdef
  have hto : env.recipient = new.recipient := rfl
  have hmid : env.msgId = new.msgId := rfl
  rw [hto, hmid] at hrow
  -- what the mailbox held splits into the evicted and the kept, with distinct ids
  have hdistinct : ((gone ++ kept).map (·.msgId)).Nodup := by
    rw [happ]; exact ((hs.entries _).unexpired m.clock).distinct
  have hkept : ∀ e ∈ gone ++ kept, e ∈ m.store.entries new.recipient.asStr :=
    fun e he => List.mem_of_mem_filter (happ ▸ he)
  have hid : new.msgId ∉ gone.map (·.msgId) := by
    intro hm
    obtain ⟨g, hg, hgid⟩ := List.mem_map.mp hm
    exact hnew g (hkept g (by simp [hg])) hgid
  have hrows := rowsOf_insert_delete m.db new (gone.map (·.msgId)) hrow hid
    (fun row hr => (h.rows row hr).msgId)
  have hfilter := filter_notMem_front hdistinct
  refine ⟨?_, ?_, fun key => ?_, fun key e he => ?_, ?_⟩
  · -- the new row is in order, the others were
    intro row hr
    simp only [Option.map_some, Option.getD_some, foldl_deleteMessage] at hr
    exact insertMessage_rows h.rows ⟨rfl, rfl, rfl, hzk, env.clamped_bounded m.clock⟩ row
      (List.mem_of_mem_filter hr)
  · simp only [Option.map_some, Option.getD_some, foldl_deleteMessage]
    exact List.Nodup.sublist (List.filter_sublist.map _) (insertMessage_keys _ _ h.keys)
  · simp only [Option.map_some, Option.getD_some, hrows, MessageStore.entries_set]
    split
    · rename_i hk
      subst hk
      have hlive : unexpired m.clock kept = kept := by
        rw [unexpired, List.filter_eq_self]
        intro e he
        have : e ∈ unexpired m.clock (m.store.entries new.recipient.asStr) := happ ▸ by simp [he]
        exact (List.mem_filter.mp this).2
      rw [unexpired_append, unexpired_append, unexpired_filter, h.same, ← happ, hfilter, hlive]
    · exact h.same key
  · simp only [Option.map_some, Option.getD_some, hrows, MessageStore.entries_set] at he ⊢
    split
    · rename_i hk
      subst hk
      rw [if_pos rfl] at he
      rcases List.mem_append.mp he with he | he
      · refine List.mem_append.mpr (Or.inl (List.mem_filter.mpr ⟨h.held _ e (hkept e (by simp [he])), ?_⟩))
        rw [← hfilter] at he
        exact (List.mem_filter.mp he).2
      · exact List.mem_append.mpr (Or.inr he)
    · rename_i hk
      rw [if_neg hk] at he
      exact h.held key e he
  · exact hstore

/-! ### Runs -/

/-- One step keeps the two copies in agreement. -/
theorem Durable.step (hscan : scan.InRowOrder) {m : Mail} (h : Durable m) {e : ℕ × MailOp}
    (hclock : m.clock ≤ e.1) (hfresh : FreshRow m e) :
    Durable (mailStep scan m e) := by
  obtain ⟨now, op⟩ := e
  have ht := h.tick hclock
  cases op with
  | send env => exact ht.send scan env hfresh
  | fetch recipient => exact ht.fetch scan recipient
  | ack recipient msgId => exact ht.ack scan recipient msgId
  | reap => exact ht.reap scan
  | purge mailbox => exact ht.purge scan mailbox
  | restart => exact ht.restart hscan

/-- The clock does not go back, and no message that is accepted is sent under
an id with an expired row. -/
def MailOk (m : Mail) (e : ℕ × MailOp) : Prop := m.clock ≤ e.1 ∧ FreshRow m e

theorem durable_run (hscan : scan.InRowOrder) {m : Mail} (h : Durable m) {ops : List (ℕ × MailOp)}
    (hok : Trace.Along (mailStep scan) MailOk m ops) :
    Durable (Trace.run (mailStep scan) m ops) :=
  hok.inv (fun _ _ hd he => hd.step hscan he.1 he.2) h

theorem clock_le_run {m : Mail} {ops : List (ℕ × MailOp)}
    (hok : Trace.Along (mailStep scan) MailOk m ops) :
    m.clock ≤ (Trace.run (mailStep scan) m ops).clock := by
  induction ops generalizing m with
  | nil => exact le_refl _
  | cons e ops ih => exact hok.1.1.trans (ih hok.2)

/-- The step takes this message out of its mailbox, other than for its expiry. -/
def Removes (key msgId : String) (m : Mail) (e : ℕ × MailOp) : Prop :=
  match e.2 with
  | .send env => ∃ s, (m.send e.1 env).1 = .ok s ∧ env.recipient.asStr = key ∧ msgId ∈ s.evicted
  | .ack recipient id => recipient.asStr = key ∧ id = msgId
  | .purge mailbox => mailbox = key
  | _ => False

/-- A message stays queued until it expires, unless a step takes it out. -/
theorem mem_entries_step (hscan : scan.InRowOrder) {m : Mail} (h : Durable m) {e : ℕ × MailOp}
    (hok : MailOk m e) {key : String} {env : Envelope} (hmem : env ∈ m.store.entries key)
    (hexp : env.expired e.1 = false) (hno : ¬ Removes key env.msgId m e) :
    env ∈ (mailStep scan m e).store.entries key := by
  have hlive : env ∈ unexpired e.1 (m.store.entries key) :=
    List.mem_filter.mpr ⟨hmem, by simp [hexp]⟩
  obtain ⟨now, op⟩ := e
  cases op with
  | send new =>
    simp only [mailStep, Mail.apply, Mail.send]
    rcases queueMessage_cases m.store (some m.db) (new.clamped now) now with
      ⟨heq, -, -⟩ | ⟨gone, kept, happ, heq, -, -, -⟩
    · rw [heq]; exact hmem
    · rw [heq, MessageStore.entries_set]
      split
      · rename_i hk
        rw [hk, ← happ, List.mem_append] at hlive
        rcases hlive with hg | hkept
        · exact absurd ⟨_, by rw [Mail.send, heq], hk.symm, List.mem_map_of_mem hg⟩ hno
        · exact List.mem_append.mpr (Or.inl hkept)
      · exact hmem
  | fetch recipient =>
    simp only [mailStep, Mail.apply, MessageStore.entries_fetch]
    split
    · exact hlive
    · exact hmem
  | ack recipient msgId =>
    simp only [mailStep, Mail.apply, MessageStore.entries_ack]
    split
    · rename_i hk
      refine List.mem_filter.mpr ⟨hmem, ?_⟩
      have hne : env.msgId ≠ msgId := fun hid => hno ⟨hk.symm, hid.symm⟩
      simpa using hne
    · exact hmem
  | reap =>
    simp only [mailStep, Mail.apply, MessageStore.entries_prune]
    exact hlive
  | purge mailbox =>
    simp only [mailStep, Mail.apply, MessageStore.entries_purge]
    rw [if_neg fun hk => hno hk.symm]
    exact hmem
  | restart =>
    simp only [mailStep, Mail.apply]
    rw [rebuild_pruneExpired]
    have hr := rebuild_entries hscan (h.tick hok.1) key
    simp only at hr
    rw [hr]
    exact hlive

theorem mem_entries_run (hscan : scan.InRowOrder) {m : Mail} (h : Durable m)
    {ops : List (ℕ × MailOp)} (hok : Trace.Along (mailStep scan) MailOk m ops) {key : String}
    {env : Envelope} (hmem : env ∈ m.store.entries key) {t : ℕ}
    (ht : (Trace.run (mailStep scan) m ops).clock ≤ t) (hexp : env.expired t = false)
    (hno : Trace.Along (mailStep scan) (fun m e => ¬ Removes key env.msgId m e) m ops) :
    env ∈ (Trace.run (mailStep scan) m ops).store.entries key := by
  induction ops generalizing m with
  | nil => exact hmem
  | cons e ops ih =>
    have he : e.1 ≤ t := (clock_le_run hok.2).trans ht
    have hlive : env.expired e.1 = false := by
      rw [Bool.eq_false_iff]
      intro hx
      rw [Envelope.expired_mono he hx] at hexp
      cases hexp
    exact ih (h.step hscan hok.1.1 hok.1.2) hok.2
      (mem_entries_step hscan h hok.1 hmem hlive hno.1) ht hno.2

/-- An accepted message that has not expired is queued: it was stored, or its
id is held by a message that has not expired. -/
theorem mem_entries_send {m : Mail} (h : Durable m) {now : ℕ} {env : Envelope}
    (hok : MailOk m (now, .send env)) {s : Stored} (hs : (m.send now env).1 = .ok s)
    (hexp : (env.clamped now).expired now = false) :
    ∃ e, e.msgId = env.msgId ∧ e.expired now = false ∧
      (e = env.clamped now ∨ e ∈ m.store.entries env.recipient.asStr) ∧
      e ∈ (mailStep scan m (now, .send env)).store.entries env.recipient.asStr := by
  have hacc := Mail.accepts_of_send hs hexp
  simp only [mailStep, Mail.apply]
  unfold Mail.send at hs ⊢
  rcases queueMessage_cases m.store (some m.db) (env.clamped now) now with
    ⟨heq, -, hno⟩ | ⟨gone, kept, -, heq, -, -, -⟩
  · rw [heq]
    rcases (hno s hs).2 with hlate | ⟨e, he, hid⟩
    · rw [Envelope.clamped_clamped, hexp] at hlate; cases hlate
    · refine ⟨e, hid, ?_, Or.inr he, he⟩
      -- the held entry has its row, which is not expired
      obtain ⟨row, hrow, htarget, rfl⟩ := mem_rowsOf.mp (h.held _ e he)
      rw [← (h.rows row hrow).due]
      refine hok.2 hacc row hrow ?_
      simp only [MessageRow.is, Bool.and_eq_true, decide_eq_true_eq]
      exact ⟨htarget, by rw [(h.rows row hrow).msgId]; exact hid⟩
  · rw [heq, Envelope.clamped_clamped]
    refine ⟨env.clamped now, rfl, hexp, Or.inl rfl, ?_⟩
    rw [MessageStore.entries_set, if_pos (show env.recipient.asStr = (env.clamped now).recipient.asStr from rfl)]
    simp

/-- **Durable mailboxes refine the ones in memory.** In a run whose clock does
not go back and in which no message that is accepted is sent under an id that
still has an expired row: at any later time, every mailbox rebuilt from the rows
in their order has the unexpired entries the store held, in the same order; and a
message that was accepted unexpired is queued, under its own entry or the one its
id already had, and is there after a restart unless it was acked, evicted, purged
or has expired. -/
theorem durable_refines (scan : Scan) (hscan : scan.InRowOrder) (ops : List (ℕ × MailOp))
    (hok : Trace.Along (mailStep scan) MailOk {} ops) :
    (∀ t, (Trace.run (mailStep scan) {} ops).clock ≤ t → ∀ key,
      unexpired t ((rebuild scan ((Trace.run (mailStep scan) {} ops).db.pruneExpired t) t).entries key) =
        unexpired t ((Trace.run (mailStep scan) {} ops).store.entries key)) ∧
    (∀ pre now env post s, ops = pre ++ (now, .send env) :: post →
      ((Trace.run (mailStep scan) {} pre).send now env).1 = .ok s →
      (env.clamped now).expired now = false →
      ∃ e, e.msgId = env.msgId ∧ e.expired now = false ∧
        (e = env.clamped now ∨ e ∈ (Trace.run (mailStep scan) {} pre).store.entries env.recipient.asStr) ∧
        ∀ t, (Trace.run (mailStep scan) {} ops).clock ≤ t → e.expired t = false →
          Trace.Along (mailStep scan) (fun m e => ¬ Removes env.recipient.asStr env.msgId m e)
            (Trace.run (mailStep scan) {} (pre ++ [(now, .send env)])) post →
          e ∈ (rebuild scan ((Trace.run (mailStep scan) {} ops).db.pruneExpired t) t).entries env.recipient.asStr) := by
  have hrebuilt : ∀ t, (Trace.run (mailStep scan) {} ops).clock ≤ t → ∀ key,
      (rebuild scan ((Trace.run (mailStep scan) {} ops).db.pruneExpired t) t).entries key =
        unexpired t ((Trace.run (mailStep scan) {} ops).store.entries key) := by
    intro t ht key
    rw [rebuild_pruneExpired]
    exact rebuild_entries hscan ((durable_run hscan durable_empty hok).tick ht) key
  refine ⟨fun t ht key => ?_, ?_⟩
  · rw [hrebuilt t ht, unexpired_unexpired (le_refl t)]
  · rintro pre now env post s rfl hs hexp
    rw [Trace.along_append] at hok
    have hpre := durable_run hscan durable_empty hok.1
    obtain ⟨e, hid, hlive, hwhich, hmem⟩ := mem_entries_send hpre hok.2.1 hs hexp
    refine ⟨e, hid, hlive, hwhich, fun t ht hlater hno => ?_⟩
    rw [hrebuilt t ht]
    have hsplit : Trace.run (mailStep scan) {} (pre ++ (now, .send env) :: post) =
        Trace.run (mailStep scan) (mailStep scan (Trace.run (mailStep scan) {} pre) (now, .send env)) post := by
      rw [Trace.run_append]; rfl
    rw [hsplit] at ht ⊢
    rw [Trace.run_snoc, ← hid] at hno
    refine List.mem_filter.mpr ⟨?_, by simp [hlater]⟩
    exact mem_entries_run hscan (hpre.step hscan hok.2.1.1 hok.2.1.2) hok.2.2 hmem ht hlater hno

/-- A message for one mailbox. -/
def mailTo (recipient ciphertext msgId : String) (expiresAt : Option ℕ) : Envelope :=
  { recipient := ⟨recipient⟩, ciphertext, kind := .message, msgId, expiresAt, wake := .normal,
    rawIdentifier := none }

/-- A mailbox. -/
def bobHash : String := "81b637d8fcd2c6da6359e6963113a1170de795e4b725b84d1e0b4cfd9ec58ce9"

/-- Two messages, an Ack and a pass of the reaper: after a restart the other message is there. -/
theorem durable_refines_restart :
    unexpired 200 ((rebuild id ((Trace.run (mailStep id) {} [(100, .send (mailTo bobHash "hello" "m1" none)),
        (101, .send (mailTo bobHash "again" "m2" (some 500))), (102, .ack ⟨bobHash⟩ "m1"),
        (160, .reap)]).db.pruneExpired 200) 200).entries bobHash) =
      [mailTo bobHash "again" "m2" (some 500)] := by
  have hok : Trace.Along (mailStep id) MailOk {} [(100, .send (mailTo bobHash "hello" "m1" none)),
      (101, .send (mailTo bobHash "again" "m2" (some 500))), (102, .ack ⟨bobHash⟩ "m1"),
      (160, .reap)] := by
    refine ⟨⟨by decide, ?_⟩, ⟨by decide, ?_⟩, ⟨by decide, trivial⟩, ⟨by decide, trivial⟩, trivial⟩
    · exact fun _ => (by decide : ∀ row ∈ ([] : List MessageRow), row.is bobHash "m1" = true → row.due 100 = false)
    · exact fun _ => (by decide : ∀ row ∈ (mailStep id {} (100, .send (mailTo bobHash "hello" "m1" none))).db.messages,
        row.is bobHash "m2" = true → row.due 101 = false)
  rw [(durable_refines id (fun _ => rfl) _ hok).1 200 (by decide) bobHash]
  decide

/-- A message that expired leaves its row to the reaper. Another message made
the store shed it, so a new one under its id is stored, but the row is not
replaced: after a restart the new message is gone. -/
theorem stale_row_loses_message :
    ¬ ∀ (scan : Scan) (_ : scan.InRowOrder) (ops : List (ℕ × MailOp)),
      Trace.Along (mailStep scan) (fun m e => m.clock ≤ e.1) {} ops →
      ∀ t, (Trace.run (mailStep scan) {} ops).clock ≤ t → ∀ key,
        unexpired t ((rebuild scan ((Trace.run (mailStep scan) {} ops).db.pruneExpired t) t).entries key) =
          unexpired t ((Trace.run (mailStep scan) {} ops).store.entries key) := by
  intro h
  have := h id (fun _ => rfl) [(100, .send (mailTo bobHash "first" "m1" (some 110))),
    (120, .send (mailTo bobHash "other" "m2" none)),
    (130, .send (mailTo bobHash "second" "m1" none))]
    ⟨by decide, by decide, by decide, trivial⟩ 140 (by decide) bobHash
  revert this
  decide

end Sona
