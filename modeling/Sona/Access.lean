/-
# The address allowlist

`access.rs` admits the clients that an allowlist of CIDR blocks names: the HTTP
gate (`check`) reads the client's address in `x-real-ip`, the QUIC endpoint
(`ip_allowed`) has the peer's. Both bring the client's address to its canonical form, in
which a v4-mapped v6 address is the v4 address, and ask every entry (`checkAddress_eq`).

The entries stay as they are written. A block that is written in v4-mapped form is
compared with v6 addresses only, and the canonical form of the addresses in it is v4: it
admits none of its own (`allowlist_exact_iff`).

Key definitions: `IpAddr.parse`, `Cidr.parse`, `Cidr.contains`, `canonicalIp`, `check`, `ipAllowed`,
`Cidr.Admits`.
Key theorems: `contains_iff`, `checkAddress_eq`, `allowlist_exact_iff`.
-/
import Sona.Lib.Prefix
import Sona.Wire

namespace Sona

/-! ### Addresses -/

inductive IpAddr
  | v4 (bits : BitVec 32)
  | v6 (bits : BitVec 128)
deriving DecidableEq, Repr

/-- How long a prefix of the address can be. -/
def IpAddr.width : IpAddr → ℕ
  | .v4 _ => 32
  | .v6 _ => 128

/-- `Ipv4Addr::to_ipv6_mapped`. -/
def toIpv6Mapped (v4 : BitVec 32) : BitVec 128 := (0xffff : BitVec 96) ++ v4

/-- `Ipv6Addr::to_ipv4_mapped`. -/
def toIpv4Mapped (v6 : BitVec 128) : Option (BitVec 32) :=
  if v6.extractLsb' 32 96 = 0xffff then some (v6.extractLsb' 0 32) else none

/-- Canonicalize an IPv4-mapped IPv6 address down to its v4 form. -/
def canonicalIp (ip : IpAddr) : IpAddr :=
  match ip with
  | .v6 v6 =>
    match toIpv4Mapped v6 with
    | some v4 => .v4 v4
    | none => ip
  | v4 => v4

/-! ### Parsing an address -/

/-- `char::to_digit`. -/
def toDigit (radix : ℕ) (c : Char) : Option ℕ :=
  let digit :=
    if '0' ≤ c ∧ c ≤ '9' then c.toNat - '0'.toNat else
    if 'a' ≤ c ∧ c ≤ 'z' then c.toNat - 'a'.toNat + 10 else
    if 'A' ≤ c ∧ c ≤ 'Z' then c.toNat - 'A'.toNat + 10 else radix
  if digit < radix then some digit else none

/-- The parser's `read_number`: all the digits that follow, at most `maxDigits` of them, and a
number under `limit`, the size of the type that is read. -/
def readNumber (radix maxDigits : ℕ) (allowZeroPrefix : Bool) (limit : ℕ) (cs : List Char) :
    Option (ℕ × List Char) :=
  let digits := cs.takeWhile fun c => (toDigit radix c).isSome
  let result := digits.foldl (fun n c => n * radix + (toDigit radix c).getD 0) 0
  if digits.length > maxDigits then none else
  if digits.length = 0 then none else
  if !allowZeroPrefix && cs.head? == some '0' && digits.length > 1 then none else
  if result < limit then some (result, cs.drop digits.length) else none

/-- The parser's `read_separator`: the separator stands before all but the first. -/
def readSeparator {α : Type} (sep : Char) (index : ℕ) (inner : List Char → Option (α × List Char))
    (cs : List Char) : Option (α × List Char) :=
  if index > 0 then
    match cs with
    | c :: rest => if c = sep then inner rest else none
    | [] => none
  else inner cs

/-- Disallow octal numbers. -/
def readOctet : List Char → Option (ℕ × List Char) := readNumber 10 3 false 256

def readIpv4Addr (cs : List Char) : Option (BitVec 32 × List Char) := do
  let (a, cs) ← readSeparator '.' 0 readOctet cs
  let (b, cs) ← readSeparator '.' 1 readOctet cs
  let (c, cs) ← readSeparator '.' 2 readOctet cs
  let (d, cs) ← readSeparator '.' 3 readOctet cs
  some (BitVec.ofNat 32 (((a * 256 + b) * 256 + c) * 256 + d), cs)

/-- Read up to `left` groups from the `i`-th of `limit` on: the groups, whether they end in an
embedded v4 address, and what is left of the text. -/
def readGroups (limit : ℕ) : ℕ → ℕ → List Char → List ℕ × Bool × List Char
  | 0, _, cs => ([], false, cs)
  | left + 1, i, cs =>
    -- an embedded v4 address takes two groups
    match (if i + 1 < limit then readSeparator ':' i readIpv4Addr cs else none) with
    | some (v4, rest) => ([v4.toNat / 65536, v4.toNat % 65536], true, rest)
    | none =>
      match readSeparator ':' i (readNumber 16 4 true 65536) cs with
      | some (group, rest) =>
        let (groups, ipv4, rest) := readGroups limit left (i + 1) rest
        (group :: groups, ipv4, rest)
      | none => ([], false, cs)

def ofGroups (groups : List ℕ) : BitVec 128 :=
  BitVec.ofNat 128 (groups.foldl (fun n g => n * 65536 + g) 0)

def readIpv6Addr (cs : List Char) : Option (BitVec 128 × List Char) :=
  let (head, headIpv4, rest) := readGroups 8 8 0 cs
  if head.length = 8 then some (ofGroups head, rest) else
  -- no embedded v4 address before `::`
  if headIpv4 then none else
  match rest with
  | ':' :: ':' :: rest =>
    -- the `::` stands for one group at least
    let limit := 8 - (head.length + 1)
    let (tail, _, rest) := readGroups limit limit 0 rest
    some (ofGroups (head ++ List.replicate (8 - head.length - tail.length) 0 ++ tail), rest)
  | _ => none

/-- `IpAddr::from_str`: the whole text is one address. -/
def IpAddr.parse (cs : List Char) : Option IpAddr :=
  let read : Option (IpAddr × List Char) := match readIpv4Addr cs with
    | some (bits, rest) => some (IpAddr.v4 bits, rest)
    | none => (readIpv6Addr cs).map fun p => (IpAddr.v6 p.1, p.2)
  match read with
  | some (addr, []) => some addr
  | _ => none

/-- `u8::from_str`. -/
def parseU8 (cs : List Char) : Option ℕ :=
  let digits := match cs with
    | '+' :: rest => rest
    | _ => cs
  if digits.isEmpty || !digits.all (fun c => (toDigit 10 c).isSome) then none else
  let n := digits.foldl (fun n c => n * 10 + (toDigit 10 c).getD 0) 0
  if n ≤ 255 then some n else none

/-! ### Entries -/

/-- One IP allowlist entry: a single address or a CIDR block. -/
structure Cidr where
  addr : IpAddr
  bits : ℕ
  fits : bits ≤ addr.width
deriving DecidableEq, Repr

/-- Parse `addr[/prefix]`. -/
def Cidr.parse (s : String) : Option Cidr :=
  let s := trim s.toList
  match IpAddr.parse (s.takeWhile (· ≠ '/')) with
  | none => none
  | some addr =>
    match s.dropWhile (· ≠ '/') with
    | [] => some { addr, bits := addr.width, fits := le_refl _ }
    | _ :: p =>
      match parseU8 p with
      | none => none
      | some bits => if fits : bits ≤ addr.width then some { addr, bits, fits } else none

example :
    (Cidr.parse " 10.0.0.0/8").map (fun c => (c.addr, c.bits)) =
      some (.v4 0x0a000000, 8) := by decide +kernel

example : (Cidr.parse "fd00::1.2.3.4").map (fun c => (c.addr, c.bits)) =
    some (.v6 0xfd000000000000000000000001020304, 128) := by decide +kernel

example :
    ["10.0.0.0/33", "not-an-ip", "10.0.0.0/x", "01.2.3.4", "1:2:3:4:5:6:7::8:9"].map Cidr.parse =
    [none, none, none, none, none] := by decide +kernel

/-- The mask of a prefix: shifting by the whole width is no shift. -/
def prefixMask (w bits : ℕ) : BitVec w := if bits = 0 then 0 else BitVec.allOnes w <<< (w - bits)

/-- Does this block contain `ip`? Cross-family never matches. -/
def Cidr.contains (c : Cidr) (ip : IpAddr) : Bool :=
  match c.addr, ip with
  | .v4 net, .v4 ip => net &&& prefixMask 32 c.bits == ip &&& prefixMask 32 c.bits
  | .v6 net, .v6 ip => net &&& prefixMask 128 c.bits == ip &&& prefixMask 128 c.bits
  | _, _ => false

/-! ### The two entry points -/

inductive AccessMode
  | opened
  | token
  | stealth
deriving DecidableEq, Repr

/-- The part of `Config` that the gate reads. -/
structure AccessConfig where
  prod : Bool := false
  accessMode : AccessMode := .opened
  accessTokenHashes : List Bytes := []
  ipAllowlist : List Cidr := []

/-- The request headers that the gate reads, by their bytes. -/
structure AccessHeaders where
  xRealIp : Option Bytes := none
  xSonaAccess : Option Bytes := none

/-- `HeaderValue::to_str`: visible ASCII, blanks and tabs. -/
def headerToStr (value : Bytes) : Option (List Char) :=
  if value.all fun b => (32 ≤ b && b < 127) || b == 9 then some (value.map fun b => Char.ofNat b.toNat) else none

def rawClientIp (headers : AccessHeaders) : Option IpAddr := do
  let value ← headers.xRealIp
  let text ← headerToStr value
  let ip ← IpAddr.parse (trim text)
  some (canonicalIp ip)

/-- An empty allowlist is off. -/
def ipAllowed (config : AccessConfig) (ip : IpAddr) : Bool :=
  config.ipAllowlist.isEmpty || config.ipAllowlist.any fun c => c.contains (canonicalIp ip)

/-- A status and a body. -/
structure AccessDenied where
  status : ℕ
  reason : String
deriving DecidableEq, Repr

def deny (mode : AccessMode) (status : ℕ) (reason : String) : AccessDenied :=
  match mode with
  | .stealth => ⟨404, ""⟩
  | _ => ⟨status, reason⟩

/-- The address part of `check`. -/
def checkAddress (config : AccessConfig) (headers : AccessHeaders) : Option AccessDenied :=
  if !config.ipAllowlist.isEmpty then
    let ok := match rawClientIp headers with
      | some ip => config.ipAllowlist.any fun c => c.contains ip
      | none => !config.prod
    if !ok then some (deny config.accessMode 403 "address not allowed") else none
  else none

/-- Its token part. -/
def checkToken (tokenDigest : List Char → Bytes) (config : AccessConfig) (headers : AccessHeaders) :
    Option AccessDenied :=
  match config.accessMode with
  | .opened => none
  | .token | .stealth =>
    let presented := (headers.xSonaAccess.bind headerToStr).map tokenDigest
    if presented.any fun d => config.accessTokenHashes.contains d then none
    else some (deny config.accessMode 401 "access token required")

/-- `none` is admitted. -/
def check (tokenDigest : List Char → Bytes) (config : AccessConfig) (headers : AccessHeaders) :
    Option AccessDenied :=
  match checkAddress config headers with
  | some denied => some denied
  | none => checkToken tokenDigest config headers

/-! ### What an entry is for -/

/-- The client's address in the form that the entry is written in: a v4 address is brought to its
v4-mapped form for an entry in that form. -/
def spelledLike (net ip : IpAddr) : IpAddr :=
  match net, canonicalIp ip with
  | .v6 net, .v4 v4 => if (toIpv4Mapped net).isSome then .v6 (toIpv6Mapped v4) else .v4 v4
  | _, ip => ip

/-- The entry's address and the client's, in one form, agree on the bits that
the entry's prefix fixes. -/
def Cidr.Admits (c : Cidr) (ip : IpAddr) : Prop :=
  match c.addr, spelledLike c.addr ip with
  | .v4 net, .v4 ip => Prefix.Agree c.bits net ip
  | .v6 net, .v6 ip => Prefix.Agree c.bits net ip
  | _, _ => False

/-- The entry is written in v4-mapped form. -/
def Cidr.mapped (c : Cidr) : Bool :=
  match c.addr with
  | .v4 _ => false
  | .v6 net => (toIpv4Mapped net).isSome

def IpAddr.isIpv4 : IpAddr → Bool
  | .v4 _ => true
  | .v6 _ => false

/-- The masks compare the bits of the prefix, at every length. -/
theorem prefixMask_iff {w bits : ℕ} (hfits : bits ≤ w) (x y : BitVec w) :
    (x &&& prefixMask w bits == y &&& prefixMask w bits) = true ↔ Prefix.Agree bits x y := by
  have hmask : prefixMask w bits = BitVec.allOnes w <<< (w - bits) := by
    unfold prefixMask
    split
    · rename_i hzero
      rw [hzero, Nat.sub_zero, BitVec.shiftLeft_eq_zero (le_refl w)]
      rfl
    · rfl
  rw [beq_iff_eq, hmask]
  exact Prefix.agree_iff_mask hfits x y

/-- A block contains the addresses of its family that agree with it on its prefix. -/
theorem contains_iff (c : Cidr) (ip : IpAddr) : c.contains ip = true ↔
    match c.addr, ip with
    | .v4 net, .v4 ip => Prefix.Agree c.bits net ip
    | .v6 net, .v6 ip => Prefix.Agree c.bits net ip
    | _, _ => False := by
  obtain ⟨addr, bits, hfits⟩ := c
  unfold Cidr.contains
  cases addr <;> cases ip
  · exact prefixMask_iff hfits _ _
  · exact ⟨fun h => absurd h Bool.false_ne_true, False.elim⟩
  · exact ⟨fun h => absurd h Bool.false_ne_true, False.elim⟩
  · exact prefixMask_iff hfits _ _

/-- **An entry admits its own block**, unless it is written in v4-mapped form
and the client is a v4 one. -/
theorem contains_canonicalIp (c : Cidr) (ip : IpAddr) :
    c.contains (canonicalIp ip) = true ↔
    c.Admits ip ∧ ¬ (c.mapped = true ∧ (canonicalIp ip).isIpv4 = true) := by
  rw [contains_iff]
  unfold Cidr.Admits Cidr.mapped spelledLike
  cases haddr : c.addr with
  | v4 net => cases canonicalIp ip <;> simp
  | v6 net =>
    cases canonicalIp ip with
    | v6 bits => simp [IpAddr.isIpv4]
    | v4 bits =>
      dsimp only
      cases (toIpv4Mapped net).isSome <;> simp [IpAddr.isIpv4]

/-- The two entry points decide alike on the address that is presented. -/
theorem checkAddress_eq (config : AccessConfig) (headers : AccessHeaders) {value : Bytes}
    {text : List Char} {ip : IpAddr} (hvalue : headers.xRealIp = some value)
    (htext : headerToStr value = some text) (hip : IpAddr.parse (trim text) = some ip) :
    (checkAddress config headers).isNone = ipAllowed config ip := by
  have hraw : rawClientIp headers = some (canonicalIp ip) := by
    unfold rawClientIp
    rw [hvalue, Option.bind_eq_bind, Option.bind_some, htext, Option.bind_eq_bind,
      Option.bind_some, hip]
    rfl
  unfold checkAddress ipAllowed
  rw [hraw]
  dsimp only
  cases config.ipAllowlist.isEmpty with
  | true => rfl
  | false =>
    cases config.ipAllowlist.any fun c => c.contains (canonicalIp ip) <;> rfl

/-- An entry in v4 form is not in v4-mapped form. -/
theorem mapped_of_isIpv4 {c : Cidr} (h : c.addr.isIpv4 = true) : c.mapped = false := by
  unfold Cidr.mapped
  cases haddr : c.addr with
  | v4 net => rfl
  | v6 net =>
    rw [haddr] at h
    cases h

/-- An entry of the v6 family that is not in v4-mapped form admits no v4 address. -/
theorem isIpv4_of_admits {c : Cidr} {ip : IpAddr} (h : c.Admits ip)
    (hip : (canonicalIp ip).isIpv4 = true) (hnot : c.mapped = false) : c.addr.isIpv4 = true := by
  unfold Cidr.Admits spelledLike at h
  unfold Cidr.mapped at hnot
  cases haddr : c.addr with
  | v4 net => rfl
  | v6 net =>
    rw [haddr] at h hnot
    cases hcanonical : canonicalIp ip with
    | v6 bits =>
      rw [hcanonical] at hip
      cases hip
    | v4 bits =>
      rw [hcanonical] at h
      simp only at hnot
      simp only [hnot, Bool.false_eq_true, if_false] at h

/-- **The allowlist admits its blocks** exactly if each block in v4-mapped form that a v4 client's
address lies in stands beside an entry in v4 form that has the address as well. -/
theorem allowlist_exact_iff (config : AccessConfig) (ip : IpAddr) :
    ((∀ headers value text, headers.xRealIp = some value → headerToStr value = some text →
        IpAddr.parse (trim text) = some ip →
        (checkAddress config headers).isNone = ipAllowed config ip) ∧
      (ipAllowed config ip = true ↔ config.ipAllowlist = [] ∨
        ∃ c ∈ config.ipAllowlist, c.Admits ip)) ↔
    ((canonicalIp ip).isIpv4 = true → ∀ c ∈ config.ipAllowlist, c.mapped = true → c.Admits ip →
      ∃ c' ∈ config.ipAllowlist, c'.addr.isIpv4 = true ∧ c'.Admits ip) := by
  have hallowed : ipAllowed config ip = true ↔ config.ipAllowlist = [] ∨
      ∃ c ∈ config.ipAllowlist, c.Admits ip ∧
      ¬ (c.mapped = true ∧ (canonicalIp ip).isIpv4 = true) := by
    unfold ipAllowed
    simp only [Bool.or_eq_true, List.isEmpty_iff, List.any_eq_true, contains_canonicalIp]
  rw [hallowed]
  constructor
  · rintro ⟨-, hexact⟩ hip c hc hmapped hadmits
    rcases hexact.mpr (Or.inr ⟨c, hc, hadmits⟩) with hoff | ⟨c', hc', hadmits', hwritten⟩
    · rw [hoff] at hc
      cases hc
    · have hnot : c'.mapped = false := Bool.eq_false_iff.mpr fun h => hwritten ⟨h, hip⟩
      exact ⟨c', hc', isIpv4_of_admits hadmits' hip hnot, hadmits'⟩
  · intro hbeside
    refine ⟨fun headers value text hvalue htext hparse => checkAddress_eq config headers hvalue htext hparse, ?_⟩
    constructor
    · rintro (hoff | ⟨c, hc, hadmits, -⟩)
      · exact Or.inl hoff
      · exact Or.inr ⟨c, hc, hadmits⟩
    · rintro (hoff | ⟨c, hc, hadmits⟩)
      · exact Or.inl hoff
      · by_cases hmapped : c.mapped = true ∧ (canonicalIp ip).isIpv4 = true
        · obtain ⟨c', hc', hwritten, hadmits'⟩ := hbeside hmapped.2 c hc hmapped.1 hadmits
          have hnot := mapped_of_isIpv4 hwritten
          exact Or.inr ⟨c', hc', hadmits', fun h => Bool.false_ne_true (hnot.symm.trans h.1)⟩
        · exact Or.inr ⟨c, hc, hadmits, hmapped⟩

/-- **A v4-mapped entry turns its own address away**: the client that presents what the allowlist
says gets a 403, on HTTP as on QUIC. -/
theorem allowlist_turns_itself_away :
    let spelling := "::ffff:10.1.2.3".toList
    let entry : Cidr := { addr := .v6 (toIpv6Mapped 0x0a010203), bits := 128, fits := by decide }
    Cidr.parse (String.ofList spelling) = some entry ∧ IpAddr.parse spelling = some entry.addr ∧
    entry.Admits entry.addr ∧ ipAllowed { ipAllowlist := [entry] } entry.addr = false ∧
    checkAddress { ipAllowlist := [entry] } { xRealIp := some (spelling.map fun c => c.val.toUInt8) } =
      some ⟨403, "address not allowed"⟩ :=
  ⟨by decide +kernel, by decide +kernel, Prefix.Agree.refl _ _, by decide +kernel, by decide +kernel⟩

end Sona
