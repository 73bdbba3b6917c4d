import Octo.Ingest.Text

/-!
# The client's address

`client_ip` (`crates/api/src/rate_limit.rs`) is the key of the per-address limits.  Behind a trusted
proxy it is the rightmost entry of `X-Forwarded-For` that is no trusted proxy.  The header is read
as a whole first, and a header with an entry that is no address counts as none:
`client_ip_malformed_xff_falls_back_to_peer` tests for that.  So what a client writes to the left of
its own address has no say in the result unless it cannot be read.

Addresses are read and written as `core::net` does it.
-/

namespace Octo.RateLimit

/-! ### Addresses -/

inductive IpAddr
  | v4 (bits : BitVec 32)
  | v6 (bits : BitVec 128)
  deriving DecidableEq

def toDigit (radix : Nat) (c : Char) : Option Nat :=
  let n :=
    if isAsciiDigit c then c.toNat - 48
    else if 'a' ≤ c ∧ c ≤ 'f' then c.toNat - 87
    else if 'A' ≤ c ∧ c ≤ 'F' then c.toNat - 55
    else radix
  if n < radix then some n else none

/-- `Parser::read_number`: all digits that follow, and the value. -/
def readNumber (radix maxDigits : Nat) (allowZeroPrefix : Bool) (largest : Nat) (s : List Char) :
    Option (Nat × List Char) :=
  let digits := (s.takeWhile (fun c => (toDigit radix c).isSome)).filterMap (toDigit radix)
  let value := digits.foldl (fun n d => radix * n + d) 0
  if digits.isEmpty || decide (maxDigits < digits.length) then none
  else if !allowZeroPrefix && s.head? == some '0' && decide (1 < digits.length) then none
  else if value ≤ largest then some (value, s.drop digits.length) else none

def readGivenChar (c : Char) : List Char → Option (List Char)
  | d :: rest => if d = c then some rest else none
  | [] => none

def readIpv4Addr (s : List Char) : Option (BitVec 32 × List Char) := do
  let octet := readNumber 10 3 false 255
  let (a, s) ← octet s
  let (b, s) ← octet (← readGivenChar '.' s)
  let (c, s) ← octet (← readGivenChar '.' s)
  let (d, s) ← octet (← readGivenChar '.' s)
  return (BitVec.ofNat 32 (((a * 256 + b) * 256 + c) * 256 + d), s)

/-- `read_groups`: up to `left` groups, the last two of which may be an IPv4 address. -/
def readGroups : (left : Nat) → (first : Bool) → List Char → List Nat × Bool × List Char
  | 0, _, s => ([], false, s)
  | left + 1, first, s =>
    let start := if first then some s else readGivenChar ':' s
    match if 0 < left then start.bind readIpv4Addr else none with
    | some (bits, rest) => ([bits.toNat / 65536, bits.toNat % 65536], true, rest)
    | none =>
      match start.bind (readNumber 16 4 true 65535) with
      | none => ([], false, s)
      | some (group, rest) =>
        let (groups, ipv4, rest) := readGroups left false rest
        (group :: groups, ipv4, rest)

def readIpv6Addr (s : List Char) : Option (BitVec 128 × List Char) := do
  let ofGroups (groups : List Nat) := BitVec.ofNat 128 (groups.foldl (fun n g => 65536 * n + g) 0)
  let (head, headIpv4, s) := readGroups 8 true s
  if head.length = 8 then return (ofGroups head, s)
  if headIpv4 then none
  let s ← readGivenChar ':' (← readGivenChar ':' s)
  let (tail, _, s) := readGroups (8 - (head.length + 1)) true s
  return (ofGroups (head ++ List.replicate (8 - head.length - tail.length) 0 ++ tail), s)

def parseIpAddr (s : List Char) : Option IpAddr :=
  match readIpv4Addr s with
  | some (bits, rest) => if rest.isEmpty then some (.v4 bits) else none
  | none =>
    match readIpv6Addr s with
    | some (bits, rest) => if rest.isEmpty then some (.v6 bits) else none
    | none => none

/-- The first longest run of zeros: where it starts and how long it is. -/
def zeroSpan (segments : List Nat) : Nat × Nat :=
  let step (acc : (Nat × Nat) × (Nat × Nat)) (x : Nat × Nat) : (Nat × Nat) × (Nat × Nat) :=
    let (longest, current) := acc
    if x.1 = 0 then
      let current := if current.2 = 0 then (x.2, 1) else (current.1, current.2 + 1)
      (if longest.2 < current.2 then current else longest, current)
    else (longest, (0, 0))
  (segments.zipIdx.foldl step ((0, 0), (0, 0))).1

def IpAddr.toString : IpAddr → String
  | .v4 bits => dotted bits.toNat
  | .v6 bits =>
    let segments := (List.range 8).map (fun i => bits.toNat / 65536 ^ (7 - i) % 65536)
    let hex (l : List Nat) : String :=
      ":".intercalate (l.map (fun n => String.ofList (Nat.toDigits 16 n)))
    if segments.take 6 = [0, 0, 0, 0, 0, 65535] then "::ffff:" ++ dotted (bits.toNat % 2 ^ 32)
    else
      let (start, len) := zeroSpan segments
      if 1 < len then hex (segments.take start) ++ "::" ++ hex (segments.drop (start + len))
        else hex segments
where
  dotted (n : Nat) : String :=
    ".".intercalate ((List.range 4).map (fun i => ToString.toString (n / 256 ^ (3 - i) % 256)))

/-! ### The proxies -/

def ipInCidr (ip : IpAddr) (cidr : List Char) : Bool :=
  let cidr := trim cidr
  if '/' ∈ cidr then
    let network := cidr.takeWhile (· != '/')
    match parseUnsigned (2 ^ 32 - 1) ((cidr.dropWhile (· != '/')).drop 1) with
    | none => false
    | some p =>
      match ip, parseIpAddr network with
      | .v4 ip, some (.v4 network) =>
        let mask := if p = 0 then 0 else BitVec.allOnes 32 <<< (32 - p)
        decide (p ≤ 32) && ip &&& mask == network &&& mask
      | .v6 ip, some (.v6 network) =>
        let mask := if p = 0 then 0 else BitVec.allOnes 128 <<< (128 - p)
        decide (p ≤ 128) && ip &&& mask == network &&& mask
      | _, _ => false
  else parseIpAddr cidr == some ip

def isTrustedProxy (cidrs : Option String) (ip : IpAddr) : Bool :=
  cidrs.any (fun value => (value.toList.splitOn ',').any (ipInCidr ip))

/-- `client_ip`, for the first `X-Forwarded-For` header. -/
def clientIp (cidrs xff : Option String) (peer : Option IpAddr) : String :=
  match peer with
  | none => "unknown"
  | some peerIp =>
    if !isTrustedProxy cidrs peerIp then peerIp.toString
    else match xff.bind headerToStr with
      | none => peerIp.toString
      | some xff =>
        match (xff.splitOn ',').mapM (fun value => parseIpAddr (trim value)) with
        | none => peerIp.toString
        | some forwarded => ((forwarded.reverse.find? (fun ip => !isTrustedProxy cidrs ip)).getD
            peerIp).toString

/-! ### What decides the result -/

/-- The header is ASCII text all of whose entries are addresses. -/
def readable (header : String) : Bool :=
  (headerToStr header).any (fun s => (s.splitOn ',').all
    (fun value => (parseIpAddr (trim value)).isSome))

section

variable {α β : Type} (f : α → Option β)

theorem mapM_of_all {l : List α} (h : l.all (fun x => (f x).isSome)) :
    l.mapM f = some (l.filterMap f) := by
  induction l with
  | nil => rfl
  | cons x l ih =>
    simp only [List.all_cons, Bool.and_eq_true] at h
    obtain ⟨y, hy⟩ := Option.isSome_iff_exists.mp h.1
    simp [ih h.2, hy]

theorem mapM_of_not_all {l : List α} (h : l.all (fun x => (f x).isSome) = false) :
    l.mapM f = none := by
  induction l with
  | nil => cases h
  | cons x l ih =>
    cases hx : f x with
    | none => simp [hx]
    | some =>
      have hl : l.all (fun x => (f x).isSome) = false := by simpa [hx] using h
      simp [ih hl]

end

variable {cidrs : Option String} {peer a : IpAddr} {header : String} {left right : List (List Char)}
  {entry : List Char}

/-- A header that cannot be read as a whole counts as none. -/
theorem clientIp_of_unreadable (hpeer : isTrustedProxy cidrs peer) (h : readable header = false) :
    clientIp cidrs (some header) (some peer) = peer.toString := by
  simp only [clientIp, hpeer, Bool.not_true, Bool.false_eq_true, if_false, Option.bind_some]
  cases hs : headerToStr header with
  | none => rfl
  | some =>
    rw [readable, hs] at h
    simp only [mapM_of_not_all _ h]

/-- Of a header that can be read, the rightmost entry that is no trusted proxy. -/
theorem clientIp_of_readable (hpeer : isTrustedProxy cidrs peer) (h : readable header)
    (hentries : header.toList.splitOn ',' = left ++ entry :: right)
    (hentry : parseIpAddr (trim entry) = some a) (ha : isTrustedProxy cidrs a = false)
    (hright : ∀ e ∈ right, ∀ ip, parseIpAddr (trim e) = some ip → isTrustedProxy cidrs ip) :
    clientIp cidrs (some header) (some peer) = a.toString := by
  have hs : headerToStr header = some header.toList := by
    unfold readable headerToStr at h
    unfold headerToStr
    split at h
    · rename_i hascii
      rw [if_pos hascii]
    · cases h
  rw [readable, hs] at h
  have hnone : (right.filterMap (fun value => parseIpAddr (trim value))).reverse.find?
      (fun ip => !isTrustedProxy cidrs ip) = none := by
    refine List.find?_eq_none.mpr (fun ip hip => ?_)
    obtain ⟨e, he, hparse⟩ := List.mem_filterMap.mp (List.mem_reverse.mp hip)
    simp [hright e he ip hparse]
  have hforwarded := mapM_of_all (fun value => parseIpAddr (trim value)) h
  simp only [clientIp, hpeer, hs, Bool.not_true, Option.bind_some, hforwarded]
  simp [hentries, hentry, hnone, ha]

/-- **The client's address does not depend on what is to the left of it, in a header that can be
read.**  For every list of trusted proxies, every trusted peer and any two headers that agree from
the rightmost entry on that is no trusted proxy: if both can be read, the result is that entry; and
a header that cannot be read is as good as none. -/
theorem client_ip_of_agreeing (cidrs : Option String) (peer a : IpAddr) (header header' : String)
    (left left' : List (List Char)) (entry : List Char) (right : List (List Char))
    (hpeer : isTrustedProxy cidrs peer)
    (hentries : header.toList.splitOn ',' = left ++ entry :: right)
    (hentries' : header'.toList.splitOn ',' = left' ++ entry :: right)
    (hentry : parseIpAddr (trim entry) = some a) (ha : isTrustedProxy cidrs a = false)
    (hright : ∀ e ∈ right, ∃ ip, parseIpAddr (trim e) = some ip ∧ isTrustedProxy cidrs ip) :
    clientIp cidrs (some header) (some peer) = (if readable header then a else peer).toString ∧
      clientIp cidrs (some header') (some peer) =
        (if readable header' then a else peer).toString := by
  have hright' : ∀ e ∈ right, ∀ ip, parseIpAddr (trim e) = some ip → isTrustedProxy cidrs ip := by
    intro e he ip hip
    obtain ⟨ip', hip', ht⟩ := hright e he
    rw [Option.some.inj (hip.symm.trans hip')]
    exact ht
  constructor
  · cases hr : readable header with
    | false => exact clientIp_of_unreadable hpeer hr
    | true => exact clientIp_of_readable hpeer hr hentries hentry ha hright'
  · cases hr : readable header' with
    | false => exact clientIp_of_unreadable hpeer hr
    | true => exact clientIp_of_readable hpeer hr hentries' hentry ha hright'

theorem spoofed_entry_ignored :
    clientIp (some "10.0.0.0/8") (some "203.0.113.5, 10.0.0.2") (some (.v4 0x0a000001)) =
        "203.0.113.5" ∧
      clientIp (some "10.0.0.0/8") (some "198.51.100.1,203.0.113.5, 10.0.0.2")
        (some (.v4 0x0a000001)) = "203.0.113.5" := by
  have hproxy : ∃ ip, parseIpAddr (trim " 10.0.0.2".toList) = some ip ∧
      isTrustedProxy (some "10.0.0.0/8") ip := ⟨.v4 0x0a000002, by decide +kernel⟩
  have h := client_ip_of_agreeing (some "10.0.0.0/8") (.v4 0x0a000001) (.v4 0xcb007105)
    "203.0.113.5, 10.0.0.2" "198.51.100.1,203.0.113.5, 10.0.0.2" [] ["198.51.100.1".toList]
    "203.0.113.5".toList [" 10.0.0.2".toList] (by decide +kernel) (by decide +kernel)
    (by decide +kernel) (by decide +kernel) (by decide +kernel) (by simpa using hproxy)
  exact ⟨h.1.trans (by decide +kernel), h.2.trans (by decide +kernel)⟩

/-- **A client can trade its address for the proxy's**, with an entry that is no address. -/
theorem unreadable_entry_hides_client :
    clientIp (some "10.0.0.1/32") (some "203.0.113.5") (some (.v4 0x0a000001)) = "203.0.113.5" ∧
      clientIp (some "10.0.0.1/32") (some "garbage, 203.0.113.5") (some (.v4 0x0a000001)) =
        "10.0.0.1" := by
  decide +kernel

end Octo.RateLimit
