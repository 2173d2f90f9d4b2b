/-
# Push wakes

The content-free wake of an offline recipient (`http/push.rs`, `http/msg.rs`):
which endpoints may be registered, and how many wakes one subscription gets per
class. Parsing a URL is the `url` crate's, a parameter.

Key definitions: `acceptablePushEndpoint`, `PushSub`, `claimWake`.
-/
import Mathlib.Data.List.Basic
import Mathlib.Data.Nat.Notation
import Sona.Wire

namespace Sona

/-! ### Configuration -/

/-- The part of `Config` that the modelled handlers read, with its defaults. -/
structure Config where
  prod : Bool := false
  wakeDebounceSecs : ℕ := 30
  callWakeMinSecs : ℕ := 2
  controlWakeMinSecs : ℕ := 1
  callWakesPerHour : ℕ := 120
  controlWakesPerHour : ℕ := 900
  releaseGraceSecs : ℕ := 7 * 86400
  maxWsPerClient : ℕ := 16
  registrationCodeHashes : List String := []

/-! ### Endpoints -/

/-- The host of a URL: an IPv4 address by its octets, an IPv6 address by its segments. -/
inductive Host
  | ipv4 (a b c d : ℕ)
  | ipv6 (segments : List ℕ)
  | domain (name : String)

structure Url where
  scheme : String
  host : Option Host

/-- Loopback, private, link-local, unspecified, broadcast, documentation, CGNAT and
192.0.0.0/24 addresses. -/
def forbiddenV4 (a b c d : ℕ) : Bool :=
  a == 127 ||
  (a == 10 || (a == 172 && 16 ≤ b && b ≤ 31) || (a == 192 && b == 168)) ||
  (a == 169 && b == 254) ||
  (a == 0 && b == 0 && c == 0 && d == 0) ||
  (a == 255 && b == 255 && c == 255 && d == 255) ||
  ((a == 192 && b == 0 && c == 2) || (a == 198 && b == 51 && c == 100) || (a == 203 && b == 0 && c == 113)) ||
  (a == 100 && 64 ≤ b && b < 128) ||
  (a == 192 && b == 0 && c == 0)

/-- The IPv4 address in two segments. -/
def v4Of (hi lo : ℕ) : ℕ × ℕ × ℕ × ℕ := (hi / 256, hi % 256, lo / 256, lo % 256)

/-- The IPv4 address embedded in an IPv6 one: mapped, NAT64, 6to4 or compatible. -/
def embeddedV4 (segments : List ℕ) : Option (ℕ × ℕ × ℕ × ℕ) :=
  match segments with
  | [s0, s1, s2, s3, s4, s5, s6, s7] =>
    if s0 = 0 ∧ s1 = 0 ∧ s2 = 0 ∧ s3 = 0 ∧ s4 = 0 ∧ s5 = 0xffff then some (v4Of s6 s7) else
    if s0 = 0x64 ∧ s1 = 0xff9b ∧ s2 = 0 ∧ s3 = 0 ∧ s4 = 0 ∧ s5 = 0 then some (v4Of s6 s7) else
    if s0 = 0x2002 then some (v4Of s1 s2) else
    if (s0 = 0 ∧ s1 = 0 ∧ s2 = 0 ∧ s3 = 0 ∧ s4 = 0 ∧ s5 = 0) ∧ ¬ (s6 = 0 ∧ (s7 = 0 ∨ s7 = 1)) then
      some (v4Of s6 s7) else none
  | _ => none

def forbiddenV6 (segments : List ℕ) : Bool :=
  match embeddedV4 segments with
  | some (a, b, c, d) => forbiddenV4 a b c d
  | none =>
    let s0 := segments.headD 0
    segments == [0, 0, 0, 0, 0, 0, 0, 1] || segments == [0, 0, 0, 0, 0, 0, 0, 0] ||
      s0 / 512 == 0xfc00 / 512 || s0 / 64 == 0xfe80 / 64 || s0 / 256 == 0xff ||
      (s0 == 0x2001 && (segments.drop 1).headD 0 == 0x0db8)

/-- A token of printable ASCII without blanks, of bounded length. -/
def acceptableFcmToken (token : List Char) : Bool :=
  let n := (utf8 (String.ofList token)).length
  16 ≤ n && n ≤ 4096 && token.all fun c => 0x21 ≤ c.toNat && c.toNat ≤ 0x7e

def acceptablePushEndpoint (parse : String → Option Url) (endpoint : String)
    (prod fcmEnabled : Bool) : Bool :=
  if endpoint.toList.take 4 = "fcm:".toList then fcmEnabled && acceptableFcmToken (endpoint.toList.drop 4) else
  if (utf8 endpoint).length > 2048 then false else
  match parse endpoint with
  | none => false
  | some url =>
    if !(url.scheme == "https" || (url.scheme == "http" && !prod)) then false else
    if !prod then true else
    match url.host with
    | some (.ipv4 a b c d) => !forbiddenV4 a b c d
    | some (.ipv6 segments) => !forbiddenV6 segments
    | some (.domain name) => String.ofList (name.toList.map Char.toLower) != "localhost"
    | none => false

/-! ### Budgets -/

/-- A push subscription and what its wakes have spent. A window is its start and its count. -/
structure PushSub where
  endpoint : String := ""
  lastWakeNormal : ℕ := 0
  lastWakeCall : ℕ := 0
  lastWakeControl : ℕ := 0
  controlWakeDebt : ℕ := 0
  callWindow : ℕ × ℕ := (0, 0)
  controlWindow : ℕ × ℕ := (0, 0)
deriving DecidableEq, Repr

/-- Control wakes allowed back to back. -/
def controlWakeBurst : ℕ := 8

def hourlyCeiling (window : ℕ × ℕ) (t limit : ℕ) : Bool × (ℕ × ℕ) :=
  let window := if t - window.1 ≥ 3600 then (t, 0) else window
  if window.2 ≥ limit then (false, window) else (true, (window.1, window.2 + 1))

def controlBudget (sub : PushSub) (t : ℕ) (config : Config) : Bool × PushSub :=
  let interval := max config.controlWakeMinSecs 1
  let repaid := (t - sub.lastWakeControl) / interval
  let sub := { sub with controlWakeDebt := sub.controlWakeDebt - min repaid (2 ^ 32 - 1) }
  if sub.controlWakeDebt ≥ controlWakeBurst then (false, sub) else
  (true, { sub with controlWakeDebt := sub.controlWakeDebt + 1, lastWakeControl := t })

/-- Whether the envelope earns a wake: the endpoint to wake, and the subscription after. -/
def claimWake (sub : PushSub) (wake : WakeClass) (t : ℕ) (config : Config) :
    Option String × PushSub :=
  match wake with
  | .none => (none, sub)
  | .normal =>
    if t - sub.lastWakeNormal ≥ config.wakeDebounceSecs then
      (some sub.endpoint, { sub with lastWakeNormal := t }) else (none, sub)
  | .call =>
    if t - sub.lastWakeCall ≥ config.callWakeMinSecs then
      let (ok, window) := hourlyCeiling sub.callWindow t config.callWakesPerHour
      let sub := { sub with callWindow := window }
      if ok then (some sub.endpoint, { sub with lastWakeCall := t }) else (none, sub)
    else (none, sub)
  | .callControl =>
    let (ok, sub) := controlBudget sub t config
    if ok then
      let (ok, window) := hourlyCeiling sub.controlWindow t config.controlWakesPerHour
      let sub := { sub with controlWindow := window }
      (if ok then some sub.endpoint else none, sub)
    else (none, sub)

inductive WakeDecision
  | claimed (endpoint : String)
  | classSilent
  | subscriberLive
  | unregistered
  | budgeted
deriving DecidableEq, Repr

end Sona
