/-
# Quick unlock

The lock of the desktop client: the commands of `cmd/security.rs` and `cmd/setup.rs`
that open the vault, set up a quick unlock, or ask for the PIN, over what the session
and the disk hold for them.

Every wrong PIN is counted, in memory and on disk, whichever command asked for it, and
the fifth in a row removes the wrapped key (`checkPinCounting`). So over every run of the
commands, with restarts in between, at most five wrong PINs are tried in a row before
somebody came in by the PIN or in another way, or set a new PIN with the password
(`pin_guesses`); and who knows neither the password nor the PIN sets up no quick unlock
and changes no key (`thief_gains_nothing`).

A command ends with a value or is refused, and what it wrote until then stays
(`EStateM`). What surrounds it is an argument (`Moment`): the key store of the system,
what is drawn at random, and how writing to the disk goes. The prompt for a fingerprint runs
without the session's lock, so its command is two, with others in between.

Key definitions: `Desk`, `Moment`, `checkPinCounting`, `QuickInput`, `quickStep`, `Counted`,
`Ignorant`, `Unmoved`. Key theorems: `pin_guesses`, `thief_gains_nothing`.
-/
import Sona.Lib.Command
import Sona.Lib.Trace
import Sona.Vault

namespace Sona.Vault

open Command

/-! ### The session and the disk -/

/-- The preferences that the lock reads. -/
structure Prefs where
  pinReminderEvery : Option ℕ := none
  opensSincePinCheck : ℕ := 0
  pinAttempts : ℕ := 0
  autoUnlock : Bool := false
  bioEnabled : Bool := false

def maxPinAttempts : ℕ := 5

def presenceWindowSecs : ℕ := 120

inductive AtRest
  | vault
  | quickPin
  | quickAuto
  | quickBio
deriving DecidableEq, Repr

/-- A wrong PIN, or that the PIN, the password or a quick unlock let the user in. -/
inductive PinNote
  | wrong
  | reset
deriving DecidableEq, Repr

structure Desk (V : Vodozemac) where
  account : Option (Account V) := none
  prefs : Prefs := {}
  lastPresenceOk : Option ℕ := none
  files : AtRest → Option Bytes := fun _ => none
  /-- None where there is no file, or none that can be read. -/
  prefsJson : Option Prefs := none
  /-- The last note first; no command reads it. -/
  log : List PinNote := []

/-- How writing a file goes. A file may be cut short before the write fails. -/
inductive Written
  | done
  | refused
  | cut (n : ℕ)

/-- What surrounds a command. The key store is read, and keys are drawn, more than once. -/
structure Moment where
  deviceKey : ℕ → Option (Block keyLen)
  salt : ℕ → Block saltLen
  nonce : ℕ → Block nonceLen
  now : ℕ
  wrote : AtRest → Written
  prefsWrote : Written
  historyWrote : Bool
  removed : AtRest → Bool

inductive Refused
  | message (text : String)
  | account (e : AccountError)
  | vault (e : VaultError)
  | disk

abbrev Cmd (V : Vodozemac) : Type → Type := EStateM Refused (Desk V)

section commands

variable (D : Kit) (android : Bool) {V : Vodozemac} (m : Moment)

def writePrivate (f : AtRest) (bytes : Bytes) : Cmd V Unit :=
  match m.wrote f with
  | .done => modify fun s => { s with files := Function.update s.files f (some bytes) }
  | .refused => throw .disk
  | .cut n => do
    modify fun s => { s with files := Function.update s.files f (some (bytes.take n)) }
    throw .disk

/-- Nobody looks at how it went. -/
def removeFile (f : AtRest) : Cmd V Unit :=
  if m.removed f then modify fun s => { s with files := Function.update s.files f none } else pure ()

def savePrefs : Cmd V Unit :=
  match m.prefsWrote with
  | .done => modify fun s => { s with prefsJson := some s.prefs }
  | .refused => throw .disk
  | .cut _ => do
    modify fun s => { s with prefsJson := none }
    throw .disk

def persist : Cmd V Unit := do
  match (← get).account with
  | none => pure ()
  | some account => do
    writePrivate m .vault (account.reseal D (m.nonce 0))
    if m.historyWrote then pure () else throw .disk

def takeNote (n : PinNote) : Cmd V Unit := modify fun s => { s with log := n :: s.log }

def setAttempts (n : ℕ) : Cmd V Unit :=
  modify fun s => { s with prefs := { s.prefs with pinAttempts := n } }

def clearAttempts : Cmd V Unit := do
  if (← get).prefs.pinAttempts ≠ 0 then do
    setAttempts 0
    ignore (savePrefs m)

/-- A command that asks for the PIN asks here. -/
def checkPinCounting (pin : String) (reading : ℕ) : Cmd V SealKey := do
  let s ← get
  match s.files .quickPin, m.deviceKey reading with
  | none, _ => throw (.message "no unlock PIN is set — add one in Settings → Security")
  | some _, none => throw (.message "OS key store unavailable — use your password")
  | some blob, some dk =>
    match unwrapSealKeyPin D pin dk blob with
    | .ok key => do
      takeNote .reset
      clearAttempts m
      return key
    | .error _ => do
      takeNote .wrong
      if maxPinAttempts ≤ s.prefs.pinAttempts + 1 then do
        removeFile m .quickPin
        setAttempts 0
        ignore (savePrefs m)
        throw (.message "too many wrong PINs — PIN unlock disabled, use your password")
      else do
        setAttempts (s.prefs.pinAttempts + 1)
        ignore (savePrefs m)
        throw (.message s!"wrong PIN — {maxPinAttempts - (s.prefs.pinAttempts + 1)} attempts left")

def readVault : Cmd V Bytes := do
  match (← get).files .vault with
  | none => throw (.message "no vault on this device")
  | some blob => return blob

def passwordOpensVault (password : String) (reading : ℕ) : Cmd V Unit := do
  let blob ← readVault
  match unlockBound D (V := V) password (m.deviceKey reading) (m.salt reading) blob with
  | .ok _ => pure ()
  | .error _ => throw (.message "wrong password")

/-- What the ratchet does for the keys on the relay is `ops`. -/
def installUnlockedAccount (account : Account V) (ops : List (RatchetOp V)) : Cmd V String := do
  takeNote .reset
  modify fun s => { s with
    account := some { account with engine := ops.foldl (RatchetEngine.step D.fromSlice) account.engine } }
  clearAttempts m
  persist D m
  return account.accountId

def unlock (password : String) (ops : List (RatchetOp V)) : Cmd V String := do
  let blob ← readVault
  let account ← orFail ((unlockBound D password (m.deviceKey 0) (m.salt 0) blob).mapError .account)
  installUnlockedAccount D m account ops

def unlockPin (pin : String) (ops : List (RatchetOp V)) : Cmd V String := do
  let sealKey ← checkPinCounting D m pin 0
  let blob ← readVault
  let account ← orFail ((unlockWithSealKey D sealKey.toBytes blob).mapError .account)
  installUnlockedAccount D m account ops

def verifyPin (pin : String) : Cmd V Unit := do
  let _ ← checkPinCounting D m pin 0
  modify fun s => { s with prefs := { s.prefs with opensSincePinCheck := 0 } }
  savePrefs m

/-- The note is of the password: from there on the PIN is a new one. -/
def setPin (password pin : String) : Cmd V Unit := do
  match (← get).account, m.deviceKey 0 with
  | none, _ => throw (.message "locked")
  | some account, dk =>
    if !(checkPin pin).acceptable then throw (.message ("PIN needs: " ++ ", ".intercalate (checkPin pin).problems)) else
    match dk with
    | none => throw (.message "no OS key store on this device — PIN unlock can't be enabled safely")
    | some dk => do
      passwordOpensVault D m password 1
      let blob ← orFail ((wrapSealKeyPin D account.sealKey pin dk (m.salt 2) (m.nonce 2)).mapError .vault)
      takeNote .reset
      writePrivate m .quickPin blob
      setAttempts 0
      savePrefs m

def disablePin : Cmd V Unit := do
  removeFile m .quickPin
  setAttempts 0
  savePrefs m

def authorizeQuickEnable (password pin : Option String) (reading : ℕ) : Cmd V Unit :=
  match pin.filter (!·.isEmpty), password.filter (!·.isEmpty) with
  | some pin, _ => do
    let _ ← checkPinCounting D m pin reading
    return ()
  | none, some password => passwordOpensVault D m password reading
  | none, none => throw (.message "your password or unlock PIN is required")

def setAutoFlag (b : Bool) : Cmd V Unit :=
  modify fun s => { s with prefs := { s.prefs with autoUnlock := b } }

def setBioFlag (b : Bool) : Cmd V Unit :=
  modify fun s => { s with prefs := { s.prefs with bioEnabled := b } }

/-- Whether the fingerprint is set up, and whether the silent unlock is. -/
def Desk.bioOn (s : Desk V) : Bool := s.prefs.bioEnabled && (s.files .quickBio).isSome

def Desk.autoOn (s : Desk V) : Bool := s.prefs.autoUnlock && (s.files .quickAuto).isSome

def enableAuto (password pin : Option String) : Cmd V Unit := do
  let s ← get
  if s.bioOn then
    throw (.message ("fingerprint unlock is on — turn it off first; " ++
      "only one of auto-unlock and fingerprint unlock can be enabled"))
  else
  match s.account, m.deviceKey 0 with
  | none, _ => throw (.message "locked")
  | some _, none => throw (.message "no OS key store on this device — auto-unlock can't be enabled safely")
  | some account, some dk => do
    authorizeQuickEnable D m password pin 1
    writePrivate m .quickAuto (wrapSealKeyAuto D account.sealKey dk (m.salt 2) (m.nonce 2))
    setAutoFlag true
    savePrefs m

def disableAuto : Cmd V Unit := do
  removeFile m .quickAuto
  setAutoFlag false
  savePrefs m

/-- What is stale or broken is dropped. -/
def dropAuto : Cmd V (Option (Account V)) := do
  removeFile m .quickAuto
  setAutoFlag false
  ignore (savePrefs m)
  return none

def attemptAutoUnlock : Cmd V (Option (Account V)) := do
  let s ← get
  if !s.prefs.autoUnlock || s.bioOn then return none else
  match s.files .quickAuto, m.deviceKey 0 with
  | some blob, some dk =>
    match unwrapSealKeyAuto D dk blob, s.files .vault with
    | .error _, _ => dropAuto m
    | .ok _, none => return none
    | .ok sealKey, some vault =>
      match unlockWithSealKey D sealKey.toBytes vault with
      | .ok account => return some account
      | .error _ => dropAuto m
  | _, _ => return none

def tryAutoUnlock (ops : List (RatchetOp V)) : Cmd V (Option String) := do
  match (← get).account with
  | some account => return some account.accountId
  | none => do
    match ← attemptAutoUnlock D m with
    | none => return none
    | some account => some <$> installUnlockedAccount D m account ops

/-- Up to the prompt for the fingerprint, which is shown without the lock. -/
def beginBio (password pin : Option String) : Cmd V Bytes := do
  let s ← get
  if s.autoOn then
    throw (.message ("auto-unlock is on — turn it off first; " ++
      "only one of auto-unlock and fingerprint unlock can be enabled"))
  else
  match s.account with
  | none => throw (.message "locked")
  | some account => do
    authorizeQuickEnable D m password pin 1
    return account.sealKey.toBytes

/-- With what the prompt made of the key. -/
def finishBio (blob : Bytes) : Cmd V Unit := do
  writePrivate m .quickBio blob
  setBioFlag true
  savePrefs m

def disableBio : Cmd V Unit := do
  removeFile m .quickBio
  setBioFlag false
  savePrefs m

/-- With what the prompt made of the blob. -/
def unlockBio (sealBytes : Bytes) (ops : List (RatchetOp V)) : Cmd V String := do
  let blob ← readVault
  let account ← orFail ((unlockWithSealKey D sealBytes blob).mapError .account)
  installUnlockedAccount D m account ops

/-- What every change of the account starts with. -/
def ceremonyGate (currentPassword pin : String) : Cmd V Unit := do
  passwordOpensVault D m currentPassword 0
  let s ← get
  if android && !s.lastPresenceOk.any fun t => m.now - t < presenceWindowSecs then
    throw (.message "OS verification missing or expired — redo the fingerprint step")
  else if (s.files .quickPin).isNone then
    throw (.message (s!"account changes require an unlock PIN of {ceremonyMinPinLen}+ characters" ++
      " — set one in Settings → Security first"))
  else if pin.length < ceremonyMinPinLen then
    throw (.message s!"account changes require a PIN of {ceremonyMinPinLen}+ characters — lengthen your PIN first")
  else do
    let _ ← checkPinCounting D m pin 1
    return ()

/-- The PIN was checked by the gate, so it wraps the new key as well. -/
def rewrapPin (account : Account V) (pin : String) : Option (Block keyLen) → Cmd V Unit
  | some dk => do
    if ((← get).files .quickPin).isSome then do
      let blob ← orFail ((wrapSealKeyPin D account.sealKey pin dk (m.salt 3) (m.nonce 3)).mapError .vault)
      writePrivate m .quickPin blob
  | none => do
    if ((← get).files .quickPin).isSome then removeFile m .quickPin

def rewrapAuto (account : Account V) : Option (Block keyLen) → Cmd V Unit
  | some dk => do
    if (← get).prefs.autoUnlock then
      writePrivate m .quickAuto (wrapSealKeyAuto D account.sealKey dk (m.salt 4) (m.nonce 4))
  | none => do
    if (← get).prefs.autoUnlock then do
      removeFile m .quickAuto
      setAutoFlag false

/-- The fingerprint's wrap is of the old key. -/
def dropBio : Cmd V Bool := do
  match (← get).prefs.bioEnabled with
  | true => do
    removeFile m .quickBio
    setBioFlag false
    return true
  | false => return false

def changePassword (currentPassword pin newPassword : String) : Cmd V Bool := do
  if (← get).account.isNone then throw (.message "locked") else do
  ceremonyGate D android m currentPassword pin
  match (← get).account with
  | none => throw (.message "locked")
  | some account => do
    let (newBlob, account) ←
      orFail ((account.rekey D newPassword (m.deviceKey 2) (m.salt 2) (m.nonce 2)).mapError .account)
    modify fun s => { s with account := some account }
    writePrivate m .vault newBlob
    rewrapPin D m account pin (m.deviceKey 2)
    rewrapAuto D m account (m.deviceKey 2)
    let dropped ← dropBio m
    ignore (savePrefs m)
    persist D m
    return dropped

/-- The end of `delete_account`. -/
def wipeLocalAccount : Cmd V Unit := do
  removeFile m .vault
  removeFile m .quickPin
  removeFile m .quickAuto
  removeFile m .quickBio
  modify fun s => { s with prefs := {} }
  ignore (savePrefs m)
  modify fun s => { s with account := none, lastPresenceOk := none }

def lock : Cmd V Unit := modify fun s => { s with account := none, lastPresenceOk := none }

/-- A new process: what was in memory is gone, and the preferences are those on disk. -/
def restart : Cmd V Unit :=
  modify fun s => { s with account := none, prefs := s.prefsJson.getD {}, lastPresenceOk := none }

def osPresenceCheck : Cmd V Unit := modify fun s => { s with lastPresenceOk := some m.now }

/-- What `answer_plan` does to the lock where an answer is to wait for
somebody: an older check does not count. -/
def forgetPresence : Cmd V Unit := modify fun s => { s with lastPresenceOk := none }

/-- `waiting` says whether the session holds an answer that needs somebody, and
it has not expired. -/
def answerWithAppCredential (waiting : Bool) (password pin : Option String) : Cmd V Unit :=
  if !waiting then throw (.message "no call is waiting to be answered") else do
    authorizeQuickEnable D m password pin 0
    modify fun s => { s with lastPresenceOk := some m.now }

/-- Any command that works with the account's ratchet and saves it. -/
def advance (ops : List (RatchetOp V)) : Cmd V Unit := do
  modify fun s => { s with account := s.account.map fun a =>
    { a with engine := ops.foldl (RatchetEngine.step D.fromSlice) a.engine } }
  persist D m

/-- The end of `create_account` and of `complete_link_cmd`: an account that is
new on this device. -/
def adopt (account : Account V) : Cmd V Unit := do
  modify fun s => { s with account := some account }
  persist D m

def noteAppOpen : Cmd V Bool := do
  modify fun s => { s with prefs := { s.prefs with
    opensSincePinCheck := min (s.prefs.opensSincePinCheck + 1) (2 ^ 32 - 1) } }
  ignore (savePrefs m)
  let s ← get
  return s.prefs.pinReminderEvery.any fun every => (s.files .quickPin).isSome &&
  every ≤ s.prefs.opensSincePinCheck

def setPinReminder (every : Option ℕ) : Cmd V Unit := do
  modify fun s => { s with prefs := { s.prefs with pinReminderEvery := every.filter (0 < ·), opensSincePinCheck := 0 } }
  savePrefs m

end commands

/-! ### Runs -/

/-- What may be asked of the client. `ceremony` is the gate of a change of the
name or of a deletion. -/
inductive QuickInput (V : Vodozemac)
  | unlock (password : String) (ops : List (RatchetOp V))
  | unlockPin (pin : String) (ops : List (RatchetOp V))
  | verifyPin (pin : String)
  | setPin (password pin : String)
  | disablePin
  | enableAuto (password pin : Option String)
  | disableAuto
  | tryAutoUnlock (ops : List (RatchetOp V))
  | beginBio (password pin : Option String)
  | finishBio (blob : Bytes)
  | disableBio
  | unlockBio (sealBytes : Bytes) (ops : List (RatchetOp V))
  | ceremony (currentPassword pin : String)
  | changePassword (currentPassword pin newPassword : String)
  | wipe
  | lock
  | restart
  | osPresenceCheck
  | forgetPresence
  | answerWithAppCredential (waiting : Bool) (password pin : Option String)
  | advance (ops : List (RatchetOp V))
  | adopt (account : Account V)
  | noteAppOpen
  | setPinReminder (every : Option ℕ)

def quickStep (D : Kit) (android : Bool) {V : Vodozemac} (s : Desk V) (e : Moment × QuickInput V) :
    Desk V :=
  let m := e.1
  match e.2 with
  | .unlock password ops => Command.after (unlock D m password ops) s
  | .unlockPin pin ops => Command.after (unlockPin D m pin ops) s
  | .verifyPin pin => Command.after (verifyPin D m pin) s
  | .setPin password pin => Command.after (setPin D m password pin) s
  | .disablePin => Command.after (disablePin m) s
  | .enableAuto password pin => Command.after (enableAuto D m password pin) s
  | .disableAuto => Command.after (disableAuto m) s
  | .tryAutoUnlock ops => Command.after (tryAutoUnlock D m ops) s
  | .beginBio password pin => Command.after (beginBio D m password pin) s
  | .finishBio blob => Command.after (finishBio m blob) s
  | .disableBio => Command.after (disableBio m) s
  | .unlockBio sealBytes ops => Command.after (unlockBio D m sealBytes ops) s
  | .ceremony currentPassword pin => Command.after (ceremonyGate D android m currentPassword pin) s
  | .changePassword currentPassword pin newPassword =>
    Command.after (changePassword D android m currentPassword pin newPassword) s
  | .wipe => Command.after (wipeLocalAccount m) s
  | .lock => Command.after lock s
  | .restart => Command.after restart s
  | .osPresenceCheck => Command.after (osPresenceCheck m) s
  | .forgetPresence => Command.after forgetPresence s
  | .answerWithAppCredential waiting password pin =>
    Command.after (answerWithAppCredential D m waiting password pin) s
  | .advance ops => Command.after (advance D m ops) s
  | .adopt account => Command.after (adopt D m account) s
  | .noteAppOpen => Command.after (noteAppOpen m) s
  | .setPinReminder every => Command.after (setPinReminder m every) s

/-! ### Wrong PINs -/

section counted

variable {D : Kit} {android : Bool} {V : Vodozemac} {m : Moment} {s s' : Desk V}

/-- The wrong PINs since the last other note. -/
def wrongs : List PinNote → ℕ
  | .wrong :: log => wrongs log + 1
  | _ => 0

/-- As long as there is a wrapped key, the wrong PINs are counted, in memory and on disk. -/
structure Counted (s : Desk V) : Prop where
  wrongs_le : wrongs s.log ≤ maxPinAttempts
  attempts_lt : s.prefs.pinAttempts < maxPinAttempts
  saved_lt : (s.prefsJson.getD {}).pinAttempts < maxPinAttempts
  counted : (s.files .quickPin).isSome → wrongs s.log ≤ s.prefs.pinAttempts ∧
    wrongs s.log ≤ (s.prefsJson.getD {}).pinAttempts

/-- Counted, with nothing to count since the user came in. -/
def Clean (s : Desk V) : Prop := Counted s ∧ wrongs s.log = 0

/-- Counted, with no wrapped key left. -/
def Gone (s : Desk V) : Prop := Counted s ∧ s.files .quickPin = none

/-- What is counted does not hang on the rest of the state. -/
theorem Counted.same (h : Counted s) (hattempts : s'.prefs.pinAttempts = s.prefs.pinAttempts)
    (hjson : s'.prefsJson = s.prefsJson) (hlog : s'.log = s.log)
    (hfile : (s'.files .quickPin).isSome → (s.files .quickPin).isSome) : Counted s' := by
  refine ⟨?_, ?_, ?_, fun hpin => ?_⟩
  · rw [hlog]
    exact h.wrongs_le
  · rw [hattempts]
    exact h.attempts_lt
  · rw [hjson]
    exact h.saved_lt
  · rw [hlog, hattempts, hjson]
    exact h.counted (hfile hpin)

theorem Clean.same (h : Clean s) (hattempts : s'.prefs.pinAttempts = s.prefs.pinAttempts)
    (hjson : s'.prefsJson = s.prefsJson) (hlog : s'.log = s.log) : Clean s' := by
  obtain ⟨hcounted, hclean⟩ := h
  have hclean' : wrongs s'.log = 0 := by rw [hlog, hclean]
  refine ⟨⟨?_, ?_, ?_, fun _ => ?_⟩, hclean'⟩
  · omega
  · rw [hattempts]
    exact hcounted.attempts_lt
  · rw [hjson]
    exact hcounted.saved_lt
  · omega

theorem Clean.cleared (h : Clean s) :
    Clean { s with prefs := { s.prefs with pinAttempts := 0 } } := by
  obtain ⟨hcounted, hclean⟩ := h
  exact ⟨⟨hcounted.wrongs_le, show 0 < maxPinAttempts by decide, hcounted.saved_lt, fun _ =>
    ⟨hclean.le, hclean.le.trans (Nat.zero_le _)⟩⟩, hclean⟩

theorem keeps_write {f : AtRest} (hf : f ≠ .quickPin) (bytes : Bytes) :
    Keeps (Counted (V := V)) (writePrivate m f bytes) := by
  have hother : ∀ (s : Desk V) b, ({ s with files := Function.update s.files f b } : Desk V).files .quickPin =
      s.files .quickPin := fun s b => Function.update_of_ne hf.symm b s.files
  unfold writePrivate
  split
  · exact triple_modify _ fun s hs => hs.same rfl rfl rfl fun h => by rwa [hother] at h
  · exact keeps_throw _
  · refine Keeps.bind (triple_modify _ fun s hs => ?_) fun _ => keeps_throw _
    exact hs.same rfl rfl rfl fun h => by rwa [hother] at h

theorem clean_write (f : AtRest) (bytes : Bytes) :
    Keeps (Clean (V := V)) (writePrivate m f bytes) := by
  unfold writePrivate
  split
  · exact triple_modify _ fun s hs => hs.same rfl rfl rfl
  · exact keeps_throw _
  · exact Keeps.bind (triple_modify _ fun s hs => hs.same rfl rfl rfl) fun _ => keeps_throw _

theorem keeps_remove (f : AtRest) : Keeps (Counted (V := V)) (removeFile m f) := by
  unfold removeFile
  split
  · refine triple_modify _ fun s hs => hs.same rfl rfl rfl fun h => ?_
    by_cases hf : AtRest.quickPin = f
    · subst hf
      simp at h
    · simpa [Function.update_of_ne hf] using h
  · exact keeps_pure _

/-- Without a wrapped key there is nothing to count. -/
theorem Gone.counted_of (h : Gone s) (hattempts : s'.prefs.pinAttempts < maxPinAttempts)
    (hjson : s'.prefsJson = s.prefsJson) (hlog : s'.log = s.log)
    (hfile : s'.files .quickPin = none) : Counted s' := by
  refine ⟨?_, hattempts, ?_, fun hpin => ?_⟩
  · rw [hlog]
    exact h.1.wrongs_le
  · rw [hjson]
    exact h.1.saved_lt
  · rw [hfile] at hpin
    cases hpin

theorem gone_pin (hr : m.removed .quickPin = true) :
    Triple (Counted (V := V)) (removeFile m .quickPin) (fun _ => Gone) Counted := by
  unfold removeFile
  rw [if_pos hr]
  exact triple_modify _ fun s hs => ⟨hs.same rfl rfl rfl fun h => by simp at h, by simp⟩

theorem gone_remove (f : AtRest) :
    Triple (Gone (V := V)) (removeFile m f) (fun _ => Gone) Counted := by
  unfold removeFile
  split
  · refine triple_modify _ fun s hs => ?_
    have hnone : Function.update s.files f none .quickPin = none := by
      by_cases hf : AtRest.quickPin = f
      · subst hf
        exact Function.update_self _ _ _
      · simpa [Function.update_of_ne hf] using hs.2
    exact ⟨hs.counted_of hs.1.attempts_lt rfl rfl hnone, hnone⟩
  · exact triple_pure _ fun _ h => h

variable (hm : m.prefsWrote = .done)
include hm

theorem keeps_save : Keeps (Counted (V := V)) (savePrefs m) := by
  unfold savePrefs
  rw [hm]
  exact triple_modify _ fun s hs => ⟨hs.wrongs_le, hs.attempts_lt, hs.attempts_lt, fun h =>
    ⟨(hs.counted h).1, (hs.counted h).1⟩⟩

theorem clean_save : Keeps (Clean (V := V)) (savePrefs m) := by
  unfold savePrefs
  rw [hm]
  exact triple_modify _ fun s hs => ⟨⟨hs.1.wrongs_le, hs.1.attempts_lt, hs.1.attempts_lt, fun _ =>
    ⟨hs.2.le.trans (Nat.zero_le _), hs.2.le.trans (Nat.zero_le _)⟩⟩, hs.2⟩

omit hm in
theorem note_reset : Triple (Counted (V := V)) (takeNote .reset) (fun _ => Clean) Counted :=
  triple_modify _ fun _ hs => ⟨⟨Nat.zero_le _, hs.attempts_lt, hs.saved_lt, fun _ => ⟨Nat.zero_le _, Nat.zero_le _⟩⟩, rfl⟩

omit hm in
theorem clean_attempts : Keeps (Clean (V := V)) (setAttempts 0) :=
  triple_modify _ fun _ hs => hs.cleared

theorem clean_clear : Keeps (Clean (V := V)) (clearAttempts m) := by
  refine keeps_get fun s hs => ?_
  split
  · exact (clean_attempts.bind fun _ => (clean_save hm).ignore).here hs
  · exact (keeps_pure _).here hs

omit hm in
theorem keeps_persist : Keeps (Counted (V := V)) (persist D m) := by
  refine keeps_get fun s hs => ?_
  split
  · exact (keeps_pure _).here hs
  · refine ((keeps_write (by decide) _).bind fun _ => ?_).here hs
    split
    · exact keeps_pure _
    · exact keeps_throw _

theorem saved_at (s : Desk V) {R : Desk V → Prop} :
    Triple (· = s) (ignore (savePrefs m)) (fun _ => (· = { s with prefsJson := some s.prefs })) R := by
  unfold savePrefs
  rw [hm]
  exact Triple.ignore (triple_modify _ fun _ h => by rw [h])

omit hm in
theorem removed_at {f : AtRest} (hf : m.removed f = true) (s : Desk V) {R : Desk V → Prop} :
    Triple (· = s) (removeFile m f) (fun _ => (· = { s with files := Function.update s.files f none })) R := by
  unfold removeFile
  rw [if_pos hf]
  exact triple_modify_at _ _

/-- The fifth wrong PIN in a row takes the wrapped key with it. -/
theorem keeps_check (hr : m.removed .quickPin = true) (pin : String) (reading : ℕ) :
    Keeps (Counted (V := V)) (checkPinCounting D m pin reading) := by
  refine keeps_get fun s hs => ?_
  split
  · exact (keeps_throw _).here hs
  · exact (keeps_throw _).here hs
  · rename_i blob dk hblob hkey
    have hpin := hs.counted (by rw [hblob]; rfl)
    have hattempts := hs.attempts_lt
    split
    · refine triple_bind (note_reset.here hs) fun _ => ?_
      exact ((clean_clear hm).bind fun _ => keeps_pure _).weaken (fun _ h => h) (fun _ _ h => h.1)
        fun _ h => h.1
    · -- what is counted after one more wrong PIN: one more attempt, or no key
      refine triple_bind (triple_modify_at _ _) fun _ => ?_
      split
      · rename_i hlast
        refine triple_bind (removed_at hr _) fun _ => triple_bind (triple_modify_at _ _) fun _ =>
          triple_bind (saved_at hm _) fun _ => triple_throw _ fun _ h => h ▸ ⟨?_, ?_, ?_,
            fun hfile => ?_⟩
        · change wrongs s.log + 1 ≤ maxPinAttempts
          omega
        · exact show 0 < maxPinAttempts by decide
        · exact show 0 < maxPinAttempts by decide
        · simp at hfile
      · rename_i hlast
        refine triple_bind (triple_modify_at _ _) fun _ => triple_bind (saved_at hm _) fun _ =>
          triple_throw _ fun _ h => h ▸ ⟨?_, ?_, ?_, fun _ => ⟨?_, ?_⟩⟩
        · change wrongs s.log + 1 ≤ maxPinAttempts
          omega
        · change s.prefs.pinAttempts + 1 < maxPinAttempts
          omega
        · change s.prefs.pinAttempts + 1 < maxPinAttempts
          omega
        · change wrongs s.log + 1 ≤ s.prefs.pinAttempts + 1
          omega
        · change wrongs s.log + 1 ≤ s.prefs.pinAttempts + 1
          omega

omit hm in
theorem keeps_readVault : Keeps (Counted (V := V)) readVault := by
  refine keeps_get fun s hs => ?_
  split
  · exact (keeps_throw _).here hs
  · exact (keeps_pure _).here hs

omit hm in
theorem keeps_password (password : String) (reading : ℕ) :
    Keeps (Counted (V := V)) (passwordOpensVault D m password reading) := by
  refine keeps_readVault.bind fun blob => ?_
  split
  · exact keeps_pure _
  · exact keeps_throw _

theorem keeps_install (account : Account V) (ops : List (RatchetOp V)) :
    Keeps Counted (installUnlockedAccount D m account ops) := by
  refine triple_bind note_reset fun _ => triple_bind (M := fun _ => Clean) ?_ fun _ => ?_
  · exact triple_modify _ fun s hs => hs.same rfl rfl rfl
  · refine triple_bind (M := fun _ => Counted)
      ((clean_clear hm).weaken (fun _ h => h) (fun _ _ h => h.1) fun _ h => h.1)
      fun _ => ?_
    exact keeps_persist.bind fun _ => keeps_pure _

variable (hr : m.removed .quickPin = true)
include hr

theorem keeps_authorize (password pin : Option String) (reading : ℕ) :
    Keeps (Counted (V := V)) (authorizeQuickEnable D m password pin reading) := by
  unfold authorizeQuickEnable
  split
  · exact (keeps_check hm hr _ _).bind fun _ => keeps_pure _
  · exact keeps_password _ _
  · exact keeps_throw _

theorem keeps_answer (waiting : Bool) (password pin : Option String) :
    Keeps (Counted (V := V)) (answerWithAppCredential D m waiting password pin) := by
  unfold answerWithAppCredential
  split
  · exact keeps_throw _
  · exact (keeps_authorize hm hr _ _ _).bind fun _ => triple_modify _
      fun _ hs => hs.same rfl rfl rfl id

theorem keeps_gate (currentPassword pin : String) :
    Keeps (Counted (V := V)) (ceremonyGate D android m currentPassword pin) := by
  refine (keeps_password _ _).bind fun _ => keeps_get fun s hs => ?_
  split_ifs
  · exact (keeps_throw _).here hs
  · exact (keeps_throw _).here hs
  · exact (keeps_throw _).here hs
  · exact ((keeps_check hm hr _ _).bind fun _ => keeps_pure _).here hs

omit hr in
theorem keeps_setPin (password pin : String) :
    Keeps (Counted (V := V)) (setPin D m password pin) := by
  refine keeps_get fun s hs => ?_
  split
  · exact (keeps_throw _).here hs
  · split
    · exact (keeps_throw _).here hs
    · split
      · exact (keeps_throw _).here hs
      · refine ((keeps_password _ _).bind fun _ => (keeps_orFail _).bind fun blob =>
          triple_bind note_reset fun _ => ?_).here hs
        -- the new PIN has nothing against it, whatever the write came to
        exact ((clean_write .quickPin blob).bind fun _ => clean_attempts.bind fun _ => clean_save hm).weaken
          (fun _ h => h) (fun _ _ h => h.1) fun _ h => h.1

theorem keeps_disablePin : Keeps (Counted (V := V)) (disablePin m) :=
  triple_bind (gone_pin hr) fun _ => triple_bind (M := fun _ => Counted) (triple_modify _ fun _ hs =>
    hs.counted_of (show 0 < maxPinAttempts by decide) rfl rfl hs.2) fun _ => keeps_save hm

omit hr hm in
theorem keeps_autoFlag (b : Bool) : Keeps (Counted (V := V)) (setAutoFlag b) :=
  triple_modify _ fun _ hs => hs.same rfl rfl rfl id

omit hr hm in
theorem keeps_bioFlag (b : Bool) : Keeps (Counted (V := V)) (setBioFlag b) :=
  triple_modify _ fun _ hs => hs.same rfl rfl rfl id

theorem keeps_enableAuto (password pin : Option String) :
    Keeps (Counted (V := V)) (enableAuto D m password pin) := by
  refine keeps_get fun s hs => ?_
  split
  · exact (keeps_throw _).here hs
  · split
    · exact (keeps_throw _).here hs
    · exact (keeps_throw _).here hs
    · exact ((keeps_authorize hm hr _ _ _).bind fun _ => (keeps_write (by decide) _).bind fun _ =>
        (keeps_autoFlag true).bind fun _ => keeps_save hm).here hs

omit hr in
theorem keeps_dropAuto : Keeps (Counted (V := V)) (dropAuto m) :=
  (keeps_remove _).bind fun _ => (keeps_autoFlag false).bind fun _ => (keeps_save hm).ignore.bind fun _ => keeps_pure _

omit hr in
theorem keeps_attemptAuto : Keeps (Counted (V := V)) (attemptAutoUnlock D m) := by
  refine keeps_get fun s hs => ?_
  split
  · exact (keeps_pure _).here hs
  · split
    · split
      · exact (keeps_dropAuto hm).here hs
      · exact (keeps_pure _).here hs
      · split
        · exact (keeps_pure _).here hs
        · exact (keeps_dropAuto hm).here hs
    · exact (keeps_pure _).here hs

omit hr in
theorem keeps_tryAuto (ops : List (RatchetOp V)) : Keeps Counted (tryAutoUnlock D m ops) := by
  refine keeps_get fun s hs => ?_
  split
  · exact (keeps_pure _).here hs
  · refine ((keeps_attemptAuto hm).bind fun found => ?_).here hs
    cases found with
    | none => exact keeps_pure _
    | some account => exact (keeps_install hm account ops).bind fun _ => keeps_pure _

theorem keeps_beginBio (password pin : Option String) :
    Keeps (Counted (V := V)) (beginBio D m password pin) := by
  refine keeps_get fun s hs => ?_
  split
  · exact (keeps_throw _).here hs
  · split
    · exact (keeps_throw _).here hs
    · exact ((keeps_authorize hm hr _ _ _).bind fun _ => keeps_pure _).here hs

omit hr hm in
theorem keeps_rewrapPin (account : Account V) (pin : String) (dk : Option (Block keyLen)) :
    Keeps Counted (rewrapPin D m account pin dk) := by
  unfold rewrapPin
  cases dk with
  | none =>
    refine keeps_get fun s hs => ?_
    split
    · exact (keeps_remove _).here hs
    · exact (keeps_pure _).here hs
  | some dk =>
    refine keeps_get fun s hs => ?_
    split
    · rename_i hfile
      -- there was a wrapped key before, so there is nothing new to count
      refine triple_bind (M := fun _ => (· = s))
        (triple_orFail _ (fun _ _ _ h => h) fun _ _ _ h => h ▸ hs) fun blob => ?_
      unfold writePrivate
      split
      · exact triple_modify _ fun _ h => h ▸ hs.same rfl rfl rfl fun _ => hfile
      · exact (keeps_throw _).here hs
      · exact triple_bind (M := fun _ => Counted)
          (triple_modify _ fun _ h => h ▸ hs.same rfl rfl rfl fun _ => hfile)
          fun _ => keeps_throw _
    · exact (keeps_pure _).here hs

omit hr hm in
theorem keeps_rewrapAuto (account : Account V) (dk : Option (Block keyLen)) :
    Keeps Counted (rewrapAuto D m account dk) := by
  unfold rewrapAuto
  cases dk with
  | none =>
    refine keeps_get fun s hs => ?_
    split
    · exact ((keeps_remove _).bind fun _ => keeps_autoFlag false).here hs
    · exact (keeps_pure _).here hs
  | some dk =>
    refine keeps_get fun s hs => ?_
    split
    · exact (keeps_write (by decide) _).here hs
    · exact (keeps_pure _).here hs

omit hr hm in
theorem keeps_dropBio : Keeps (Counted (V := V)) (dropBio m) := by
  refine keeps_get fun s hs => ?_
  split
  · exact ((keeps_remove _).bind fun _ => (keeps_bioFlag false).bind fun _ => keeps_pure _).here hs
  · exact (keeps_pure _).here hs

omit hr hm in
/-- The account in memory is not counted. -/
theorem keeps_account (f : Desk V → Option (Account V)) :
    Keeps Counted (modify fun s => { s with account := f s } : Cmd V PUnit) :=
  triple_modify _ fun _ hs => hs.same rfl rfl rfl id

theorem keeps_changePassword (currentPassword pin newPassword : String) :
    Keeps (Counted (V := V)) (changePassword D android m currentPassword pin newPassword) := by
  refine keeps_get fun s hs => ?_
  split
  · exact (keeps_throw _).here hs
  · refine ((keeps_gate hm hr _ _).bind fun _ => keeps_get fun s' hs' => ?_).here hs
    split
    · exact (keeps_throw _).here hs'
    · refine ((keeps_orFail _).bind fun x => ?_).here hs'
      exact (keeps_account _).bind fun _ => (keeps_write (by decide) _).bind fun _ =>
        (keeps_rewrapPin _ _ _).bind fun _ => (keeps_rewrapAuto _ _).bind
        fun _ => keeps_dropBio.bind fun _ =>
          (keeps_save hm).ignore.bind fun _ => keeps_persist.bind fun _ => keeps_pure _

theorem keeps_wipe : Keeps (Counted (V := V)) (wipeLocalAccount m) := by
  have hprefs : Triple Gone (modify fun s => { s with prefs := {} } : Cmd V PUnit)
      (fun _ => Counted) Counted :=
    triple_modify _ fun _ hs => hs.counted_of (show 0 < maxPinAttempts by decide) rfl rfl hs.2
  refine (keeps_remove _).bind fun _ => triple_bind (gone_pin hr) fun _ => ?_
  refine triple_bind (gone_remove _) fun _ => triple_bind (gone_remove _)
    fun _ => triple_bind hprefs fun _ => ?_
  exact (keeps_save hm).ignore.bind fun _ => triple_modify _ fun _ hs => hs.same rfl rfl rfl id

omit hm hr in
/-- A new process counts on from what is on disk. -/
theorem keeps_restart : Keeps (Counted (V := V)) restart :=
  triple_modify _ fun _ hs => ⟨hs.wrongs_le, hs.saved_lt, hs.saved_lt, fun h => ⟨(hs.counted h).2, (hs.counted h).2⟩⟩

omit hr in
theorem keeps_noteAppOpen : Keeps (Counted (V := V)) (noteAppOpen m) :=
  Keeps.bind (triple_modify _ fun _ hs => hs.same rfl rfl rfl id) fun _ => (keeps_save hm).ignore.bind fun _ =>
    keeps_get fun _ hs => (keeps_pure _).here hs

theorem counted_step (hs : Counted s) (i : QuickInput V) :
    Counted (quickStep D android s (m, i)) := by
  cases i with
  | unlock password ops =>
    exact Keeps.after (keeps_readVault.bind fun _ => (keeps_orFail _).bind fun _ => keeps_install hm _ _) hs
  | unlockPin pin ops =>
    exact Keeps.after ((keeps_check hm hr _ _).bind fun _ => keeps_readVault.bind fun _ => (keeps_orFail _).bind fun _ =>
      keeps_install hm _ _) hs
  | verifyPin pin =>
    have hopens : Keeps Counted (modify fun s : Desk V => { s with prefs := { s.prefs with opensSincePinCheck := 0 } } :
        Cmd V PUnit) := triple_modify _ fun _ hs => hs.same rfl rfl rfl id
    exact Keeps.after ((keeps_check hm hr _ _).bind fun _ => hopens.bind fun _ => keeps_save hm) hs
  | setPin password pin => exact (keeps_setPin hm password pin).after hs
  | disablePin => exact (keeps_disablePin hm hr).after hs
  | enableAuto password pin => exact (keeps_enableAuto hm hr password pin).after hs
  | disableAuto => exact Keeps.after ((keeps_remove _).bind fun _ => (keeps_autoFlag _).bind fun _ => keeps_save hm) hs
  | tryAutoUnlock ops => exact (keeps_tryAuto hm ops).after hs
  | beginBio password pin => exact (keeps_beginBio hm hr password pin).after hs
  | finishBio blob =>
    exact Keeps.after ((keeps_write (by decide) blob).bind fun _ => (keeps_bioFlag _).bind fun _ => keeps_save hm) hs
  | disableBio => exact Keeps.after ((keeps_remove _).bind fun _ => (keeps_bioFlag _).bind fun _ => keeps_save hm) hs
  | unlockBio sealBytes ops =>
    exact Keeps.after (keeps_readVault.bind fun _ => (keeps_orFail _).bind fun _ => keeps_install hm _ _) hs
  | ceremony currentPassword pin => exact (keeps_gate hm hr currentPassword pin).after hs
  | changePassword currentPassword pin newPassword =>
    exact (keeps_changePassword hm hr currentPassword pin newPassword).after hs
  | wipe => exact (keeps_wipe hm hr).after hs
  | lock => exact hs.same rfl rfl rfl id
  | restart => exact keeps_restart.after hs
  | osPresenceCheck => exact hs.same rfl rfl rfl id
  | forgetPresence => exact hs.same rfl rfl rfl id
  | answerWithAppCredential waiting password pin =>
    exact (keeps_answer hm hr waiting password pin).after hs
  | advance ops => exact Keeps.after ((keeps_account _).bind fun _ => keeps_persist) hs
  | adopt account => exact Keeps.after ((keeps_account _).bind fun _ => keeps_persist) hs
  | noteAppOpen => exact (keeps_noteAppOpen hm).after hs
  | setPinReminder every =>
    have hevery : Keeps Counted (modify fun s : Desk V => { s with prefs := { s.prefs with
        pinReminderEvery := every.filter (0 < ·), opensSincePinCheck := 0 } } : Cmd V PUnit) :=
      triple_modify _ fun _ hs => hs.same rfl rfl rfl id
    exact Keeps.after (hevery.bind fun _ => keeps_save hm) hs

end counted

theorem counted_run (D : Kit) (android : Bool) {V : Vodozemac} :
    ∀ (es : List (Moment × QuickInput V)) {s : Desk V},
    (∀ e ∈ es, e.1.prefsWrote = .done ∧ e.1.removed .quickPin = true) → Counted s →
      Counted (Trace.run (quickStep D android) s es)
  | [], _, _, hs => hs
  | e :: es, _, hdisk, hs => by
    obtain ⟨hm, hr⟩ := hdisk e List.mem_cons_self
    exact counted_run D android es (fun e he => hdisk e (List.mem_cons_of_mem _ he))
      (counted_step hm hr hs e.2)

/-- **Five wrong PINs and no more.** Whatever is asked of a client whose disk works, with restarts
in between, at most five wrong PINs in a row are tried against the wrapped key before the right one,
the password or a quick unlock lets somebody in, and while there is a wrapped key they are fewer:
the fifth removes it. The client counts no fewer than there were. -/
theorem pin_guesses (D : Kit) (android : Bool) {V : Vodozemac} (es : List (Moment × QuickInput V))
    (hdisk : ∀ e ∈ es, e.1.prefsWrote = .done ∧ e.1.removed .quickPin = true) :
    wrongs (Trace.run (quickStep D android) {} es).log ≤ maxPinAttempts ∧
      (((Trace.run (quickStep D android) {} es).files .quickPin).isSome →
        wrongs (Trace.run (quickStep D android) {} es).log ≤
          (Trace.run (quickStep D android) {} es).prefs.pinAttempts ∧
          (Trace.run (quickStep D android) {} es).prefs.pinAttempts < maxPinAttempts) := by
  have hfresh : Counted ({} : Desk V) := ⟨Nat.zero_le _, show 0 < maxPinAttempts by decide,
    show 0 < maxPinAttempts by decide, fun h => by cases h⟩
  have hrun := counted_run D android es hdisk hfresh
  exact ⟨hrun.wrongs_le, fun h => ⟨(hrun.counted h).1, hrun.attempts_lt⟩⟩

/-! ### A device -/

/-- A cipher that marks what it sealed with its key. -/
def keyed : Aead where
  encrypt key _ _ msg := msg ++ (key ++ List.replicate Aead.tagLen 0).take Aead.tagLen
  decrypt key _ _ ct :=
    if ct.drop (ct.length - Aead.tagLen) = (key ++ List.replicate Aead.tagLen 0).take Aead.tagLen then
      some (ct.take (ct.length - Aead.tagLen))
    else none

def fitted (n : ℕ) (bs : Bytes) : Block n := ⟨(bs ++ List.replicate n 0).take n, by simp⟩

def sampleKit : Kit where
  kdf := {
    argon := fun password salt => .ok (fitted keyLen (password ++ salt))
    hkdf := fun salt ikm info => fitted keyLen (ikm ++ (salt ++ info)) }
  aead := keyed
  fromSlice := readVec
  checkPassword _ := []

def sampleDeviceKey : Block keyLen := fitted keyLen [7]

/-- The key store answers and the disk works. -/
def calm : Moment where
  deviceKey _ := some sampleDeviceKey
  salt k := fitted saltLen [UInt8.ofNat k]
  nonce k := fitted nonceLen [UInt8.ofNat k]
  now := 0
  wrote _ := .done
  prefsWrote := .done
  historyWrote := true
  removed _ := true

def sampleSealKey : SealKey where
  key := sampleKit.kdf.hkdf (fitted saltLen [3]).1 (fitted keyLen (utf8 "correct horse" ++ (fitted saltLen [3]).1)).1 []
  salt := fitted saltLen [3]
  version := .v2

def alice : Account sampleOlm where
  engine := .new (65 : ℕ)
  accountId := "alice"
  dataKey := fitted keyLen [1]
  sealKey := sampleSealKey

def fiveGuesses : List (QuickInput sampleOlm) :=
  [.adopt alice, .setPin "correct horse" "159326", .lock, .unlockPin "159327" [], .unlockPin "159328" [], .restart,
    .unlockPin "159329" [], .verifyPin "159320", .ceremony "correct horse" "159321"]

theorem pin_guesses_five :
    wrongs (Trace.run (quickStep sampleKit false) {} (fiveGuesses.map (Prod.mk calm))).log ≤
      maxPinAttempts ∧
    (((Trace.run (quickStep sampleKit false) {} (fiveGuesses.map (Prod.mk calm))).files .quickPin).isSome →
      wrongs (Trace.run (quickStep sampleKit false) {} (fiveGuesses.map (Prod.mk calm))).log ≤
          (Trace.run (quickStep sampleKit false) {} (fiveGuesses.map (Prod.mk calm))).prefs.pinAttempts ∧
        (Trace.run (quickStep sampleKit false) {} (fiveGuesses.map (Prod.mk calm))).prefs.pinAttempts < maxPinAttempts) :=
  pin_guesses sampleKit false (fiveGuesses.map (Prod.mk calm)) fun e he => by
    obtain ⟨i, -, rfl⟩ := List.mem_map.mp he
    exact ⟨rfl, rfl⟩

/-! ### Without the password and the PIN -/

/-- The passwords that a command is asked with. -/
def QuickInput.passwords {V : Vodozemac} : QuickInput V → List String
  | .unlock password _ => [password]
  | .setPin password _ => [password]
  | .enableAuto password _ => password.toList
  | .beginBio password _ => password.toList
  | .answerWithAppCredential _ password _ => password.toList
  | .ceremony currentPassword _ => [currentPassword]
  | .changePassword currentPassword _ _ => [currentPassword]
  | _ => []

/-- The PINs, but for those that are asked for after the password. -/
def QuickInput.pins {V : Vodozemac} : QuickInput V → List String
  | .unlockPin pin _ => [pin]
  | .verifyPin pin => [pin]
  | .enableAuto _ pin => pin.toList
  | .beginBio _ pin => pin.toList
  | .answerWithAppCredential _ _ pin => pin.toList
  | _ => []

/-- What takes a fingerprint, puts another account on the device, which asks for nothing, or wipes
the account after a deletion that went through. -/
def QuickInput.outside {V : Vodozemac} : QuickInput V → Bool
  | .finishBio _ => true
  | .unlockBio _ _ => true
  | .adopt _ => true
  | .wipe => true
  | _ => false

/-- Who asks knows neither the password of the vault as it is nor the PIN of the wrapped key, and
puts no other account in its place. -/
structure Ignorant (D : Kit) {V : Vodozemac} (s : Desk V) (e : Moment × QuickInput V) : Prop where
  password : ∀ password ∈ e.2.passwords, ∀ k vault, s.files .vault = some vault →
    (unlockBound D (V := V) password (e.1.deviceKey k) (e.1.salt k) vault).isOk = false
  pin : ∀ pin ∈ e.2.pins, ∀ k dk blob, e.1.deviceKey k = some dk → s.files .quickPin = some blob →
    (unwrapSealKeyPin D pin dk blob).isOk = false
  inside : e.2.outside = false

/-- Where neither a password nor a PIN is asked for there is nothing to know. -/
theorem Ignorant.asks_nothing {D : Kit} {V : Vodozemac} {s : Desk V} {e : Moment × QuickInput V}
    (hpassword : e.2.passwords = []) (hpin : e.2.pins = []) (hinside : e.2.outside = false) :
    Ignorant D s e := by
  refine ⟨?_, ?_, hinside⟩
  · rw [hpassword]
    exact fun _ h => absurd h List.not_mem_nil
  · rw [hpin]
    exact fun _ h => absurd h List.not_mem_nil

/-- No quick unlock is new, and without a silent one an open account has the key that it had. -/
structure Unmoved {V : Vodozemac} (s₀ s : Desk V) : Prop where
  files : ∀ f, f ≠ .vault → s.files f = s₀.files f ∨ s.files f = none
  key : s₀.files .quickAuto = none →
    ∀ a, s.account = some a → ∃ a₀, s₀.account = some a₀ ∧ a.sealKey = a₀.sealKey

section thief

variable {D : Kit} {android : Bool} {V : Vodozemac} {m : Moment} {s s₀ : Desk V}

theorem error_of_isOk {ε α : Type} {x : Except ε α} (h : x.isOk = false) : ∃ e, x = .error e := by
  cases x with
  | error e => exact ⟨e, rfl⟩
  | ok a => cases h

theorem Unmoved.same {s' : Desk V} (h : Unmoved s₀ s) (hfiles : s'.files = s.files)
    (haccount : s'.account = s.account) :
    Unmoved s₀ s' := by
  refine ⟨fun f hf => ?_, fun hauto a ha => ?_⟩
  · rw [hfiles]
    exact h.files f hf
  · exact h.key hauto a (haccount ▸ ha)

theorem unmoved_modify (f : Desk V → Desk V) (hfiles : ∀ s, (f s).files = s.files)
    (haccount : ∀ s, (f s).account = s.account) : Keeps (Unmoved s₀) (modify f : Cmd V PUnit) :=
  triple_modify f fun s hs => hs.same (hfiles s) (haccount s)

theorem unmoved_remove (f : AtRest) : Keeps (Unmoved s₀) (removeFile m f) := by
  unfold removeFile
  split
  · refine triple_modify _ fun s hs => ⟨fun g hg => ?_, hs.key⟩
    by_cases hf : g = f
    · subst hf
      exact Or.inr (Function.update_self _ _ _)
    · simpa [Function.update_of_ne hf] using hs.files g hg
  · exact keeps_pure _

theorem unmoved_save : Keeps (Unmoved s₀) (savePrefs m) := by
  have hjson : ∀ p : Desk V → Option Prefs, Keeps (Unmoved s₀)
      (modify fun s : Desk V => { s with prefsJson := p s } :
      Cmd V PUnit) := fun p => unmoved_modify _ (fun _ => rfl) fun _ => rfl
  unfold savePrefs
  split
  · exact hjson fun s => some s.prefs
  · exact keeps_throw _
  · exact (hjson fun _ => none).bind fun _ => keeps_throw _

theorem unmoved_persist : Keeps (Unmoved s₀) (persist D m) := by
  have hvault : ∀ b, Keeps (Unmoved s₀)
      (modify fun s : Desk V => { s with files := Function.update s.files .vault b } :
      Cmd V PUnit) := fun b => triple_modify _ fun s hs => ⟨fun f hf => by
    simpa [Function.update_of_ne hf] using hs.files f hf, hs.key⟩
  refine keeps_get fun s hs => ?_
  split
  · exact (keeps_pure _).here hs
  · refine Keeps.here (Keeps.bind ?_ fun _ => ?_) hs
    · unfold writePrivate
      split
      · exact hvault _
      · exact keeps_throw _
      · exact (hvault _).bind fun _ => keeps_throw _
    · split
      · exact keeps_pure _
      · exact keeps_throw _

theorem unmoved_attempts (n : ℕ) : Keeps (Unmoved s₀) (setAttempts n) :=
  unmoved_modify _ (fun _ => rfl) fun _ => rfl

theorem unmoved_note (n : PinNote) : Keeps (Unmoved s₀) (takeNote n) :=
  unmoved_modify _ (fun _ => rfl) fun _ => rfl

theorem unmoved_autoFlag (b : Bool) : Keeps (Unmoved s₀) (setAutoFlag b) :=
  unmoved_modify _ (fun _ => rfl) fun _ => rfl

theorem unmoved_bioFlag (b : Bool) : Keeps (Unmoved s₀) (setBioFlag b) :=
  unmoved_modify _ (fun _ => rfl) fun _ => rfl

theorem unmoved_clear : Keeps (Unmoved s₀) (clearAttempts m) := by
  refine keeps_get fun s hs => ?_
  split
  · exact ((unmoved_attempts 0).bind fun _ => unmoved_save.ignore).here hs
  · exact (keeps_pure _).here hs

/-- The vault that is read is the one that is there. -/
theorem readVault_at :
    Triple (· = s) readVault (fun blob t => t = s ∧ s.files .vault = some blob) (· = s) := by
  refine triple_get fun t ht => ?_
  subst ht
  split
  · exact triple_throw _ fun _ h => h
  · rename_i blob hblob
    exact triple_pure _ fun _ h => ⟨h, hblob⟩

theorem password_refused {password : String} {k : ℕ}
    (hpassword : ∀ vault, s.files .vault = some vault →
      (unlockBound D (V := V) password (m.deviceKey k) (m.salt k) vault).isOk = false) :
    Triple (· = s) (passwordOpensVault D m password k) (fun _ _ => False) (· = s) := by
  refine triple_bind readVault_at fun blob => triple_of_each fun t ht => ?_
  obtain ⟨rfl, hblob⟩ := ht
  obtain ⟨e, herr⟩ := error_of_isOk (hpassword blob hblob)
  rw [herr]
  exact triple_throw _ fun _ h => h

theorem check_refused (hs : Unmoved s₀ s) {pin : String} {k : ℕ}
    (hpin : ∀ dk blob, m.deviceKey k = some dk →
      s.files .quickPin = some blob → (unwrapSealKeyPin D pin dk blob).isOk = false) :
    Triple (· = s) (checkPinCounting D m pin k) (fun _ _ => False) (Unmoved s₀) := by
  refine triple_get fun t ht => ?_
  subst ht
  split
  · exact triple_throw _ fun _ h => h ▸ hs
  · exact triple_throw _ fun _ h => h ▸ hs
  · rename_i blob dk hblob hkey
    obtain ⟨e, herr⟩ := error_of_isOk (hpin dk blob hkey hblob)
    rw [herr]
    refine triple_bind ((unmoved_note _).here hs) fun _ => ?_
    split
    · exact triple_bind (unmoved_remove _) fun _ => triple_bind (unmoved_attempts _) fun _ =>
        triple_bind unmoved_save.ignore fun _ => triple_throw _ fun _ h => h
    · exact triple_bind (unmoved_attempts _) fun _ => triple_bind unmoved_save.ignore
        fun _ => triple_throw _ fun _ h => h

theorem authorize_refused (hs : Unmoved s₀ s) {password pin : Option String} {k : ℕ}
    (hpassword : ∀ p ∈ password.toList, ∀ vault, s.files .vault = some vault →
      (unlockBound D (V := V) p (m.deviceKey k) (m.salt k) vault).isOk = false)
    (hpin : ∀ p ∈ pin.toList, ∀ dk blob, m.deviceKey k = some dk → s.files .quickPin = some blob →
      (unwrapSealKeyPin D p dk blob).isOk = false) :
    Triple (· = s) (authorizeQuickEnable D m password pin k) (fun _ _ => False) (Unmoved s₀) := by
  unfold authorizeQuickEnable
  split
  · rename_i p hp
    have hmem : p ∈ pin.toList := Option.mem_toList.mpr (Option.filter_eq_some_iff.mp hp).1
    exact triple_bind (check_refused hs (hpin p hmem)) fun _ => triple_false
  · rename_i p _ hp
    have hmem : p ∈ password.toList := Option.mem_toList.mpr (Option.filter_eq_some_iff.mp hp).1
    exact (password_refused (hpassword p hmem)).weaken (fun _ h => h) (fun _ _ h => h)
      fun _ h => h ▸ hs
  · exact triple_throw _ fun _ h => h ▸ hs

theorem unmoved_dropAuto :
    Triple (Unmoved s₀) (dropAuto m) (fun found t => Unmoved s₀ t ∧ found = none) (Unmoved s₀) :=
  triple_bind (unmoved_remove _) fun _ => triple_bind (unmoved_autoFlag _) fun _ => triple_bind unmoved_save.ignore
    fun _ => triple_pure _ fun _ h => ⟨h, rfl⟩

/-- Where no key is wrapped for a silent unlock, there is none. -/
theorem attempt_found (hs : Unmoved s₀ s) : Triple (· = s) (attemptAutoUnlock D m)
    (fun found t => Unmoved s₀ t ∧ (s.files .quickAuto = none → found = none)) (Unmoved s₀) := by
  have hnone : Triple (· = s) (pure none : Cmd V (Option (Account V)))
      (fun found t => Unmoved s₀ t ∧ (s.files .quickAuto = none → found = none)) (Unmoved s₀) :=
    triple_pure _ fun _ h => ⟨h ▸ hs, fun _ => rfl⟩
  have hdrop : Triple (· = s) (dropAuto m)
      (fun found t => Unmoved s₀ t ∧ (s.files .quickAuto = none → found = none)) (Unmoved s₀) :=
    unmoved_dropAuto.weaken (fun _ h => h ▸ hs) (fun _ _ h => ⟨h.1, fun _ => h.2⟩) fun _ h => h
  refine triple_get fun t ht => ?_
  subst ht
  split
  · exact hnone
  · split
    · rename_i blob dk hblob hkey
      split
      · exact hdrop
      · exact hnone
      · split
        · exact triple_pure _ fun _ h => ⟨h ▸ hs, fun hauto => by simp [hblob] at hauto⟩
        · exact hdrop
    · exact hnone

theorem unmoved_install (hauto : s₀.files .quickAuto ≠ none) (account : Account V)
    (ops : List (RatchetOp V)) :
    Keeps (Unmoved s₀) (installUnlockedAccount D m account ops) :=
  (unmoved_note _).bind fun _ => Keeps.bind (triple_modify _ fun _ hs => ⟨hs.files, fun h => absurd h hauto⟩) fun _ =>
    unmoved_clear.bind fun _ => unmoved_persist.bind fun _ => keeps_pure _

theorem unmoved_tryAuto (ops : List (RatchetOp V)) :
    Keeps (Unmoved s₀) (tryAutoUnlock D m ops) := by
  refine keeps_get fun s hs => ?_
  split
  · exact (keeps_pure _).here hs
  · refine triple_bind (attempt_found hs) fun found => triple_of_each fun t ht => ?_
    obtain ⟨ht, hfound⟩ := ht
    cases found with
    | none => exact (keeps_pure _).here ht
    | some account =>
      have hauto : s₀.files .quickAuto ≠ none := by
        intro hnone
        have hsame : s.files .quickAuto = none :=
          (hs.files .quickAuto (by decide)).elim (fun h => h.trans hnone) id
        cases hfound hsame
      exact ((unmoved_install hauto account ops).bind fun _ => keeps_pure _).here ht

/-- A command that asks for the password first goes no further. -/
theorem gate_refused {α : Type} (hs : Unmoved s₀ s) {password : String} {k : ℕ}
    (hpassword : ∀ vault, s.files .vault = some vault →
      (unlockBound D (V := V) password (m.deviceKey k) (m.salt k) vault).isOk = false)
    (f : Unit → Cmd V α) :
    Triple (· = s) (passwordOpensVault D m password k >>= f) (fun _ => Unmoved s₀) (Unmoved s₀) :=
  triple_bind ((password_refused hpassword).weaken (fun _ h => h) (fun _ _ h => h)
    fun _ h => h ▸ hs) fun _ => triple_false

theorem unlock_refused (hs : Unmoved s₀ s) {password : String}
    (hpassword : ∀ vault, s.files .vault = some vault →
      (unlockBound D (V := V) password (m.deviceKey 0) (m.salt 0) vault).isOk = false)
    (ops : List (RatchetOp V)) :
    Triple (· = s) (unlock D m password ops) (fun _ => Unmoved s₀) (Unmoved s₀) := by
  have hread : Triple (· = s) readVault (fun blob t => t = s ∧ s.files .vault = some blob)
      (Unmoved s₀) := readVault_at.weaken (fun _ h => h) (fun _ _ h => h) fun _ h => h ▸ hs
  refine triple_bind hread fun blob => triple_of_each fun t ht => ?_
  obtain ⟨rfl, hblob⟩ := ht
  obtain ⟨err, herr⟩ := error_of_isOk (hpassword blob hblob)
  rw [herr]
  exact triple_bind (M := fun _ _ => False) (triple_throw _ fun _ h => h ▸ hs)
    fun _ => triple_false

theorem setPin_refused (hs : Unmoved s₀ s) {password pin : String}
    (hpassword : ∀ vault, s.files .vault = some vault →
      (unlockBound D (V := V) password (m.deviceKey 1) (m.salt 1) vault).isOk = false) :
    Triple (· = s) (setPin D m password pin) (fun _ => Unmoved s₀) (Unmoved s₀) := by
  refine triple_get fun t ht => ?_
  subst ht
  split
  · exact triple_throw _ fun _ h => h ▸ hs
  · split
    · exact triple_throw _ fun _ h => h ▸ hs
    · split
      · exact triple_throw _ fun _ h => h ▸ hs
      · exact gate_refused hs hpassword _

section optional

variable {password pin : Option String}

theorem enableAuto_refused (hs : Unmoved s₀ s)
    (hpassword : ∀ p ∈ password.toList, ∀ vault, s.files .vault = some vault →
      (unlockBound D (V := V) p (m.deviceKey 1) (m.salt 1) vault).isOk = false)
    (hpin : ∀ p ∈ pin.toList, ∀ dk blob, m.deviceKey 1 = some dk → s.files .quickPin = some blob →
      (unwrapSealKeyPin D p dk blob).isOk = false) :
    Triple (· = s) (enableAuto D m password pin) (fun _ => Unmoved s₀) (Unmoved s₀) := by
  refine triple_get fun t ht => ?_
  subst ht
  split
  · exact triple_throw _ fun _ h => h ▸ hs
  · split
    · exact triple_throw _ fun _ h => h ▸ hs
    · exact triple_throw _ fun _ h => h ▸ hs
    · exact triple_bind (authorize_refused hs hpassword hpin) fun _ => triple_false

theorem beginBio_refused (hs : Unmoved s₀ s)
    (hpassword : ∀ p ∈ password.toList, ∀ vault, s.files .vault = some vault →
      (unlockBound D (V := V) p (m.deviceKey 1) (m.salt 1) vault).isOk = false)
    (hpin : ∀ p ∈ pin.toList, ∀ dk blob, m.deviceKey 1 = some dk → s.files .quickPin = some blob →
      (unwrapSealKeyPin D p dk blob).isOk = false) :
    Triple (· = s) (beginBio D m password pin) (fun _ => Unmoved s₀) (Unmoved s₀) := by
  refine triple_get fun t ht => ?_
  subst ht
  split
  · exact triple_throw _ fun _ h => h ▸ hs
  · split
    · exact triple_throw _ fun _ h => h ▸ hs
    · exact triple_bind (authorize_refused hs hpassword hpin) fun _ => triple_false

theorem answer_refused (hs : Unmoved s₀ s)
    (hpassword : ∀ p ∈ password.toList, ∀ vault, s.files .vault = some vault →
      (unlockBound D (V := V) p (m.deviceKey 0) (m.salt 0) vault).isOk = false)
    (hpin : ∀ p ∈ pin.toList, ∀ dk blob, m.deviceKey 0 = some dk → s.files .quickPin = some blob →
      (unwrapSealKeyPin D p dk blob).isOk = false) (waiting : Bool) :
    Triple (· = s) (answerWithAppCredential D m waiting password pin)
      (fun _ => Unmoved s₀) (Unmoved s₀) := by
  unfold answerWithAppCredential
  split
  · exact triple_throw _ fun _ h => h ▸ hs
  · exact triple_bind (authorize_refused hs hpassword hpin) fun _ => triple_false

end optional

theorem changePassword_refused (hs : Unmoved s₀ s) {currentPassword pin newPassword : String}
    (hpassword : ∀ vault, s.files .vault = some vault →
      (unlockBound D (V := V) currentPassword (m.deviceKey 0) (m.salt 0) vault).isOk = false) :
    Triple (· = s) (changePassword D android m currentPassword pin newPassword)
      (fun _ => Unmoved s₀) (Unmoved s₀) := by
  have hgate : Triple (· = s) (ceremonyGate D android m currentPassword pin)
      (fun _ _ => False) (Unmoved s₀) :=
    triple_bind ((password_refused hpassword).weaken (fun _ h => h) (fun _ _ h => h)
      fun _ h => h ▸ hs) fun _ => triple_false
  refine triple_get fun t ht => ?_
  subst ht
  split
  · exact triple_throw _ fun _ h => h ▸ hs
  · exact triple_bind hgate fun _ => triple_false

theorem unmoved_advance (ops : List (RatchetOp V)) : Keeps (Unmoved s₀) (advance D m ops) := by
  refine Keeps.bind (triple_modify _ fun t ht => ⟨ht.files, fun hauto a ha => ?_⟩)
    fun _ => unmoved_persist
  obtain ⟨b, hb, rfl⟩ := Option.map_eq_some_iff.mp ha
  exact ht.key hauto b hb

theorem unmoved_noteAppOpen : Keeps (Unmoved s₀) (noteAppOpen m) :=
  Keeps.bind (unmoved_modify _ (fun _ => rfl) fun _ => rfl) fun _ =>
    unmoved_save.ignore.bind fun _ => keeps_get fun _ hs => (keeps_pure _).here hs

/-- One command of one who knows nothing: what asks is refused, and the rest leaves the quick
unlocks and the key as they are. -/
theorem unmoved_step (hs : Unmoved s₀ s) {e : Moment × QuickInput V} (he : Ignorant D s e) :
    Unmoved s₀ (quickStep D android s e) := by
  obtain ⟨m, i⟩ := e
  obtain ⟨hpassword, hpin, hinside⟩ := he
  have hafter : ∀ {α : Type} {c : Cmd V α}, Triple (· = s) c (fun _ => Unmoved s₀) (Unmoved s₀) →
      Unmoved s₀ (Command.after c s) := fun h => Command.Triple.after h rfl
  cases i with
  | unlock password ops =>
    exact hafter (unlock_refused hs (hpassword password (by simp [QuickInput.passwords]) 0) ops)
  | unlockPin pin ops =>
    exact hafter (triple_bind (check_refused hs (hpin pin (by simp [QuickInput.pins]) 0)) fun _ =>
      triple_false)
  | verifyPin pin =>
    exact hafter (triple_bind (check_refused hs (hpin pin (by simp [QuickInput.pins]) 0)) fun _ =>
      triple_false)
  | setPin password pin =>
    exact hafter (setPin_refused hs (hpassword password (by simp [QuickInput.passwords]) 1))
  | disablePin =>
    exact Keeps.after ((unmoved_remove _).bind fun _ => (unmoved_attempts _).bind fun _ =>
      unmoved_save) hs
  | enableAuto password pin =>
    exact hafter (enableAuto_refused hs (fun p hp => hpassword p hp 1) fun p hp => hpin p hp 1)
  | disableAuto =>
    exact Keeps.after ((unmoved_remove _).bind fun _ => (unmoved_autoFlag _).bind fun _ =>
      unmoved_save) hs
  | tryAutoUnlock ops => exact (unmoved_tryAuto ops).after hs
  | beginBio password pin =>
    exact hafter (beginBio_refused hs (fun p hp => hpassword p hp 1) fun p hp => hpin p hp 1)
  | finishBio blob => cases hinside
  | disableBio =>
    exact Keeps.after ((unmoved_remove _).bind fun _ => (unmoved_bioFlag _).bind fun _ =>
      unmoved_save) hs
  | unlockBio sealBytes ops => cases hinside
  | ceremony currentPassword pin =>
    exact hafter (gate_refused hs (hpassword currentPassword (by simp [QuickInput.passwords]) 0) _)
  | changePassword currentPassword pin newPassword =>
    exact hafter (changePassword_refused hs
      (hpassword currentPassword (by simp [QuickInput.passwords]) 0))
  | wipe => cases hinside
  | lock => exact ⟨hs.files, fun _ _ h => by cases h⟩
  | restart => exact ⟨hs.files, fun _ _ h => by cases h⟩
  | osPresenceCheck => exact hs.same rfl rfl
  | forgetPresence => exact hs.same rfl rfl
  | answerWithAppCredential waiting password pin =>
    exact hafter (answer_refused hs (fun p hp => hpassword p hp 0) (fun p hp => hpin p hp 0) waiting)
  | advance ops => exact (unmoved_advance ops).after hs
  | adopt account => cases hinside
  | noteAppOpen => exact unmoved_noteAppOpen.after hs
  | setPinReminder every =>
    have hevery : Keeps (Unmoved s₀) (setPinReminder m every) :=
      Keeps.bind (unmoved_modify _ (fun _ => rfl) fun _ => rfl) fun _ => unmoved_save
    exact hevery.after hs

end thief

/-- **Who knows neither the password nor the PIN gains nothing**, on an open device or a locked one.
Whatever is asked of the client, with restarts and failing disks, as long as no other account is put
on the device, no quick unlock is set up or changed; and unless a silent unlock was set up before,
an open account has the key that it had, and a locked device stays locked. -/
theorem thief_gains_nothing (D : Kit) (android : Bool) {V : Vodozemac} (s₀ : Desk V)
    (es : List (Moment × QuickInput V))
    (hignorant : Trace.Along (quickStep D android) (Ignorant D) s₀ es) :
    (∀ f, f ≠ .vault → (Trace.run (quickStep D android) s₀ es).files f = s₀.files f ∨
        (Trace.run (quickStep D android) s₀ es).files f = none) ∧
      (s₀.files .quickAuto = none → ∀ a, (Trace.run (quickStep D android) s₀ es).account = some a →
        ∃ a₀, s₀.account = some a₀ ∧ a.sealKey = a₀.sealKey) := by
  have hstart : Unmoved s₀ s₀ := ⟨fun _ _ => Or.inl rfl, fun _ a ha => ⟨a, ha, rfl⟩⟩
  have hkeep : ∀ s e, Unmoved s₀ s → Ignorant D s e → Unmoved s₀ (quickStep D android s e) :=
    fun _ _ hs he => unmoved_step hs he
  have hrun := Trace.Along.inv hkeep hstart hignorant
  exact ⟨hrun.files, hrun.key⟩

/-- Open, with a PIN. -/
def openDesk : Desk sampleOlm where
  account := some alice
  files
    | .vault => some (alice.reseal sampleKit (calm.nonce 0))
    | .quickPin => (wrapSealKeyPin sampleKit alice.sealKey "159326" sampleDeviceKey (calm.salt 1) (calm.nonce 1)).toOption
    | _ => none

/-- A guess at both, and what is left to do without. -/
def thefts : List (QuickInput sampleOlm) :=
  [.enableAuto (some "guess") (some "111111"), .lock, .tryAutoUnlock []]

theorem openDesk_password : openKeepingKey sampleKit "guess" (some sampleDeviceKey)
    (alice.reseal sampleKit (calm.nonce 0)) = .error .decryption := by
  decide +kernel

theorem openDesk_ignorant :
    Ignorant sampleKit openDesk (calm, .enableAuto (some "guess") (some "111111")) := by
  refine ⟨?_, ?_, rfl⟩
  · intro password hpassword k vault hvault
    obtain rfl : password = "guess" := by simpa [QuickInput.passwords] using hpassword
    obtain rfl : alice.reseal sampleKit (calm.nonce 0) = vault := Option.some.inj hvault
    have hopen : openKeepingKey sampleKit "guess" (calm.deviceKey k)
        (alice.reseal sampleKit (calm.nonce 0)) =
      .error .decryption := openDesk_password
    unfold unlockBound
    rw [hopen]
    rfl
  · intro pin hpin k dk blob hdk hblob
    obtain rfl : pin = "111111" := by simpa [QuickInput.pins] using hpin
    obtain rfl : sampleDeviceKey = dk := Option.some.inj hdk
    obtain rfl := Option.some.inj hblob
    decide +kernel

theorem thief_gains_nothing_guess :
    (∀ f, f ≠ .vault → (Trace.run (quickStep sampleKit false) openDesk (thefts.map (Prod.mk calm))).files f =
        openDesk.files f ∨ (Trace.run (quickStep sampleKit false) openDesk (thefts.map (Prod.mk calm))).files f = none) ∧
      (openDesk.files .quickAuto = none →
        ∀ a, (Trace.run (quickStep sampleKit false) openDesk (thefts.map (Prod.mk calm))).account = some a →
          ∃ a₀, openDesk.account = some a₀ ∧ a.sealKey = a₀.sealKey) :=
  thief_gains_nothing sampleKit false openDesk (thefts.map (Prod.mk calm))
    ⟨openDesk_ignorant, .asks_nothing rfl rfl rfl, .asks_nothing rfl rfl rfl, trivial⟩

end Sona.Vault
