/-
# The database

`server/src/db/mod.rs`: the tables behind the relay. A mailbox column holds a
keyed index of the hash and a record column a sealed blob; a row is modelled by
what the index was taken of and what the blob opens to (the index is collision
free, what was sealed under the storage key opens, and statements succeed). The
message table is loaded by a `SELECT` that names no order, so the order is a
parameter (`Scan`), and what counts on it says so (`Scan.InRowOrder`).

Key definitions: `Db`, `Db.insertMessage`, `Db.deleteMessage`, `Scan`, `Db.loadMessages`.
-/
import Sona.Lib.Table
import Sona.Wire
import Sona.Store
import Sona.Kt

namespace Sona

/-- A user's published directory record. -/
structure DirectoryEntry where
  identityKey : String
  signingKey : String
  oneTimeKeys : List String := []
  fallbackKey : Option String := none
deriving DecidableEq, Repr

/-- A row of the message table: `target` and `msgId` are what its key was taken of. -/
structure MessageRow where
  target : String
  msgId : String
  env : Envelope
  expiresAt : Option ℕ
deriving DecidableEq, Repr

structure Db where
  directory : Table String DirectoryEntry := ∅
  messages : List MessageRow := []
  ktEntries : List KtRecord := []
  push : Table String String := ∅
  callKeys : Table String CallKeyBinding := ∅
  usedInvites : List String := []

/-! ### Messages -/

/-- The row is the one of this mailbox and id. -/
def MessageRow.is (row : MessageRow) (target msgId : String) : Bool :=
  row.target = target && row.msgId = msgId

/-- The row's expiry has come. -/
def MessageRow.due (now : ℕ) (row : MessageRow) : Bool :=
  match row.expiresAt with
  | some exp => exp ≤ now
  | none => false

/-- `INSERT OR IGNORE`: a row that is there already stays as it is. -/
def Db.insertMessage (db : Db) (env : Envelope) (expiresAt : Option ℕ) : Db :=
  if db.messages.any fun row => row.is env.recipient.asStr env.msgId then db else
  { db with messages := db.messages ++ [⟨env.recipient.asStr, env.msgId, env, expiresAt⟩] }

def Db.deleteMessage (db : Db) (target msgId : String) : Db :=
  { db with messages := db.messages.filter fun row => !row.is target msgId }

def Db.deleteMessagesFor (db : Db) (target : String) : Db :=
  { db with messages := db.messages.filter fun row => row.target ≠ target }

def Db.pruneExpired (db : Db) (now : ℕ) : Db :=
  { db with messages := db.messages.filter fun row => !row.due now }

def Db.clampNullExpiry (db : Db) (ceiling : ℕ) : Db :=
  { db with messages := db.messages.map fun row => { row with expiresAt := row.expiresAt.or (some ceiling) } }

/-- The order in which the database returns the rows of a `SELECT` that names none. -/
abbrev Scan := List MessageRow → List MessageRow

/-- SQLite reads a table without an index in the order of the row ids, and each
insertion takes the next one. -/
def Scan.InRowOrder (scan : Scan) : Prop := ∀ rows, scan rows = rows

def Db.loadMessages (scan : Scan) (db : Db) (now : ℕ) : List Envelope :=
  (scan (db.messages.filter fun row => !row.due now)).map (·.env)

/-! ### The other tables -/

def Db.upsertDirectory (db : Db) (hash : String) (entry : DirectoryEntry) : Db :=
  { db with directory := db.directory.set hash entry }

def Db.deleteDirectory (db : Db) (hash : String) : Db :=
  { db with directory := db.directory.remove hash }

def Db.appendKtEntry (db : Db) (entry : KtEntry) : Db :=
  { db with ktEntries := db.ktEntries ++ [.binding entry] }

def Db.appendKtRoster (db : Db) (roster : KtRosterEntry) : Db :=
  { db with ktEntries := db.ktEntries ++ [.roster roster] }

def Db.upsertPush (db : Db) (hash endpoint : String) : Db :=
  { db with push := db.push.set hash endpoint }

def Db.deletePush (db : Db) (hash : String) : Db := { db with push := db.push.remove hash }

def Db.upsertCallKey (db : Db) (hash : String) (binding : CallKeyBinding) : Db :=
  { db with callKeys := db.callKeys.set hash binding }

def Db.deleteCallKey (db : Db) (hash : String) : Db :=
  { db with callKeys := db.callKeys.remove hash }

def Db.consumeInvite (db : Db) (codeHash : String) : Db :=
  { db with usedInvites := db.usedInvites.insert codeHash }

def Db.inviteUsed (db : Db) (codeHash : String) : Bool := db.usedInvites.contains codeHash

end Sona
