import Mathlib.Data.List.TakeWhile
import Octo.Ingest.Exact
import Octo.RateLimit.ClientIp

/-!
# Networks

`ip_in_cidr` compares two addresses under a mask of `p` ones from the top.  The comparison is that
of the first `p` bits (`masked_eq_iff`, at any width), and the guard on `p` comes before the shift,
so the shift never overflows (`ipInCidrChecked_eq`).  That `network/p` is split where it was put
together needs that no reader of an address passes a character that is not one of an address:
`readNumber_keeps` to `readIpv6Addr_keeps`.
-/

namespace Octo.RateLimit

open List

/-! ### Masks -/

/-- Two words agree under the mask if the first `p` bits do. -/
theorem masked_eq_iff {w : Nat} (p : Nat) (a b : BitVec w) :
    (decide (p ≤ w) && (a &&& if p = 0 then 0 else BitVec.allOnes w <<< (w - p)) ==
        (b &&& if p = 0 then 0 else BitVec.allOnes w <<< (w - p))) = true ↔
      p ≤ w ∧ ∀ i < p, a.getMsbD i = b.getMsbD i := by
  rw [Bool.and_eq_true, decide_eq_true_eq, beq_iff_eq]
  refine and_congr_right (fun hp => ?_)
  by_cases h0 : p = 0
  · simp [h0]
  rw [if_neg h0]
  constructor
  · intro h i hi
    have hbit := congrArg (fun x => BitVec.getMsbD x i) h
    simpa [BitVec.getMsbD_shiftLeft, show i + (w - p) < w by omega] using hbit
  · intro h
    refine BitVec.eq_of_getMsbD_eq (fun i hi => ?_)
    by_cases hip : i < p
    · simp [h i hip]
    · simp [show ¬ i + (w - p) < w by omega]

/-- The mask with the overflow checks of `-` and `<<`: `none` is the panic. -/
def checkedMask (w p : Nat) : Option (BitVec w) :=
  if p = 0 then some 0
  else if p ≤ w ∧ w - p < w then some (BitVec.allOnes w <<< (w - p))
  else none

/-- `ip_in_cidr` with overflow checks. -/
def ipInCidrChecked (ip : IpAddr) (cidr : List Char) : Option Bool :=
  let cidr := trim cidr
  if '/' ∈ cidr then
    let network := cidr.takeWhile (· != '/')
    match parseUnsigned (2 ^ 32 - 1) ((cidr.dropWhile (· != '/')).drop 1) with
    | none => some false
    | some p =>
      match ip, parseIpAddr network with
      | .v4 ip, some (.v4 network) =>
        if p ≤ 32 then (checkedMask 32 p).map (fun mask => ip &&& mask == network &&& mask)
          else some false
      | .v6 ip, some (.v6 network) =>
        if p ≤ 128 then (checkedMask 128 p).map (fun mask => ip &&& mask == network &&& mask)
          else some false
      | _, _ => some false
  else some (parseIpAddr cidr == some ip)

theorem guarded_checkedMask {w : Nat} (p : Nat) (f : BitVec w → Bool) :
    (if p ≤ w then (checkedMask w p).map f else some false) =
      some (decide (p ≤ w) && f (if p = 0 then 0 else BitVec.allOnes w <<< (w - p))) := by
  unfold checkedMask
  by_cases hp : p ≤ w
  · by_cases h0 : p = 0
    · simp [h0]
    · simp [h0, hp, show w - p < w by omega]
  · simp [hp]

theorem ipInCidrChecked_eq (ip : IpAddr) (cidr : List Char) :
    ipInCidrChecked ip cidr = some (ipInCidr ip cidr) := by
  simp only [ipInCidrChecked, ipInCidr, guarded_checkedMask]
  split
  · cases parseUnsigned (2 ^ 32 - 1) (((trim cidr).dropWhile (· != '/')).drop 1) with
    | none => rfl
    | some =>
      rcases ip, parseIpAddr ((trim cidr).takeWhile (· != '/')) with ⟨a | a, _ | b | b⟩ <;> rfl
  · rfl

/-! ### What the readers pass -/

/-- A character of no address. -/
structure Foreign (d : Char) : Prop where
  digit : ∀ radix, toDigit radix d = none
  point : d ≠ '.'
  colon : d ≠ ':'

theorem foreign_of {d : Char} (h : d = '/' ∨ isWhitespace d = true) : Foreign d := by
  have hcode : d.toNat < 46 ∨ d.toNat = 47 ∨ 102 < d.toNat := by
    rcases h with rfl | h
    · decide
    · simp only [isWhitespace, Bool.or_eq_true, Bool.and_eq_true, decide_eq_true_eq,
        beq_iff_eq] at h
      omega
  refine ⟨fun radix => ?_, ?_, ?_⟩
  · have hle : ∀ c e : Char, c ≤ e ↔ c.toNat ≤ e.toNat := fun c e => Iff.rfl
    have h1 : isAsciiDigit d = false := by
      simp only [isAsciiDigit, Bool.and_eq_false_iff, decide_eq_false_iff_not]
      omega
    have h2 : ¬ ('a' ≤ d ∧ d ≤ 'f') := by
      simp only [hle, Char.reduceToNat]
      omega
    have h3 : ¬ ('A' ≤ d ∧ d ≤ 'F') := by
      simp only [hle, Char.reduceToNat]
      omega
    simp [toDigit, h1, h2, h3]
  · rintro rfl
    exact absurd hcode (by decide)
  · rintro rfl
    exact absurd hcode (by decide)

section

variable {d : Char} {s rest : List Char}

theorem readNumber_keeps {radix maxDigits largest n : Nat} {zero : Bool}
    (hd : toDigit radix d = none) (h : readNumber radix maxDigits zero largest s = some (n, rest))
    (hs : d ∈ s) : d ∈ rest := by
  simp only [readNumber, Option.ite_none_left_eq_some, Option.ite_none_right_eq_some,
    Option.some.injEq, Prod.mk.injEq] at h
  obtain ⟨-, -, -, -, rfl⟩ := h
  -- only digits are dropped
  rw [← takeWhile_append_dropWhile (l := s), mem_append] at hs
  have hdrop : d ∈ s.dropWhile (fun c => (toDigit radix c).isSome) := by
    refine hs.resolve_left (fun hmem => ?_)
    simpa [hd] using mem_takeWhile_imp hmem
  have hle := length_filterMap_le (toDigit radix) (s.takeWhile (fun c => (toDigit radix c).isSome))
  nth_rewrite 2 [← takeWhile_append_dropWhile (l := s)]
  rw [drop_append_of_le_length hle]
  exact mem_append_right _ hdrop

theorem readGivenChar_keeps {c : Char} (hd : d ≠ c) (h : readGivenChar c s = some rest)
    (hs : d ∈ s) : d ∈ rest := by
  cases s with
  | nil => cases h
  | cons =>
    simp only [readGivenChar, Option.ite_none_right_eq_some] at h
    obtain ⟨rfl, h⟩ := h
    cases h
    exact (mem_cons.mp hs).resolve_left hd

variable (hd : Foreign d)
include hd

theorem readIpv4Addr_keeps {bits : BitVec 32} (h : readIpv4Addr s = some (bits, rest))
    (hs : d ∈ s) : d ∈ rest := by
  simp only [readIpv4Addr, Option.bind_eq_bind, Option.bind_eq_some_iff, Option.pure_def,
    Option.some.injEq, Prod.exists, Prod.mk.injEq] at h
  obtain ⟨a, s1, h1, s2, h2, b, s3, h3, s4, h4, c, s5, h5, s6, h6, e, s7, h7, -, rfl⟩ := h
  have h := readNumber_keeps (hd.digit 10) h1 hs
  have h := readNumber_keeps (hd.digit 10) h3 (readGivenChar_keeps hd.point h2 h)
  have h := readNumber_keeps (hd.digit 10) h5 (readGivenChar_keeps hd.point h4 h)
  exact readNumber_keeps (hd.digit 10) h7 (readGivenChar_keeps hd.point h6 h)

theorem readGroups_keeps (left : Nat) (first : Bool) (s : List Char) (hs : d ∈ s) :
    d ∈ (readGroups left first s).2.2 := by
  have hstart {s start : List Char} {first : Bool} (hs : d ∈ s)
      (h : (if first then some s else readGivenChar ':' s) = some start) : d ∈ start := by
    cases first with
    | true => exact Option.some.inj h ▸ hs
    | false => exact readGivenChar_keeps hd.colon h hs
  fun_induction readGroups left first s with
  | case1 => exact hs
  | case2 left first s start bits rest h =>
    rw [Option.ite_none_right_eq_some] at h
    obtain ⟨t, ht, h⟩ := Option.bind_eq_some_iff.mp h.2
    exact readIpv4Addr_keeps hd h (hstart hs ht)
  | case3 left first s start h h' => exact hs
  | case4 left first s start h group rest h' groups ipv4 rest' hrec ih =>
    obtain ⟨t, ht, h'⟩ := Option.bind_eq_some_iff.mp h'
    have h := ih (readNumber_keeps (hd.digit 16) h' (hstart hs ht))
    rwa [hrec] at h

theorem readIpv6Addr_keeps {bits : BitVec 128} (h : readIpv6Addr s = some (bits, rest))
    (hs : d ∈ s) : d ∈ rest := by
  unfold readIpv6Addr at h
  have hhead := readGroups_keeps hd 8 true s hs
  dsimp only at h
  split at h
  · obtain ⟨-, rfl⟩ := Prod.mk.inj (Option.some.inj h)
    exact hhead
  split at h
  · cases h
  simp only [Option.bind_eq_bind, Option.bind_eq_some_iff, pure] at h
  obtain ⟨s1, h1, s2, h2, -, rfl⟩ := h
  exact readGroups_keeps hd _ _ _ (readGivenChar_keeps hd.colon h2
    (readGivenChar_keeps hd.colon h1 hhead))

theorem not_mem_of_parseIpAddr {a : IpAddr} (h : parseIpAddr s = some a) : d ∉ s := by
  intro hs
  unfold parseIpAddr at h
  split at h
  · rename_i h4
    have hrest := readIpv4Addr_keeps hd h4 hs
    rw [if_neg (by simpa using ne_nil_of_mem hrest)] at h
    cases h
  · split at h
    · rename_i h6
      have hrest := readIpv6Addr_keeps hd h6 hs
      rw [if_neg (by simpa using ne_nil_of_mem hrest)] at h
      cases h
    · cases h

end

/-! ### Networks as text -/

/-- A text that `str::parse` reads as `n` at any unsigned type that has `n`. -/
def Denotes (text : List Char) (n : Nat) : Prop :=
  ∃ digits, isDigits digits = true ∧ decimalValue digits = n ∧
    (text = digits ∨ text = '+' :: digits)

variable {text : List Char} {n : Nat}

theorem Denotes.parseUnsigned (h : Denotes text n) (largest : Nat) :
    parseUnsigned largest text = if n ≤ largest then some n else none := by
  obtain ⟨_, hdigits, rfl, rfl | rfl⟩ := h
  · unfold Octo.parseUnsigned
    split
    · simp [isDigits, isAsciiDigit] at hdigits
    · simp [hdigits]
  · simp [Octo.parseUnsigned, hdigits]

theorem Denotes.visible (h : Denotes text n) : ∀ c ∈ text, isWhitespace c = false := by
  obtain ⟨_, hdigits, -, rfl | rfl⟩ := h
  · exact fun c hc => isWhitespace_digit ((isDigits_iff.mp hdigits).2 c hc)
  · intro c hc
    rcases mem_cons.mp hc with rfl | hc
    · decide
    · exact isWhitespace_digit ((isDigits_iff.mp hdigits).2 c hc)

def IpAddr.width : IpAddr → Nat
  | .v4 _ => 32
  | .v6 _ => 128

/-- The bits of an address, the most significant first. -/
def IpAddr.bit : IpAddr → Nat → Bool
  | .v4 bits, i => bits.getMsbD i
  | .v6 bits, i => bits.getMsbD i

section

variable {network len : List Char} {net : IpAddr} {p : Nat}

theorem ipInCidr_iff (hnet : parseIpAddr network = some net) (hp : Denotes len p) (ip : IpAddr) :
    ipInCidr ip (network ++ '/' :: len) = true ↔
      ip.width = net.width ∧ p ≤ net.width ∧ ∀ i < p, ip.bit i = net.bit i := by
  have hslash : ∀ c ∈ network, (c != '/') = true := by
    intro c hc
    exact bne_iff_ne.mpr (fun h => not_mem_of_parseIpAddr (foreign_of (.inl rfl)) hnet (h ▸ hc))
  have htrim : trim (network ++ '/' :: len) = network ++ '/' :: len := by
    refine trim_of_visible (fun c hc => ?_)
    rcases mem_append.mp hc with hc | hc
    · exact Bool.eq_false_iff.mpr (fun h => not_mem_of_parseIpAddr (foreign_of (.inr h)) hnet hc)
    rcases mem_cons.mp hc with rfl | hc
    · decide
    · exact hp.visible c hc
  have htake : (network ++ '/' :: len).takeWhile (· != '/') = network := by
    rw [takeWhile_append_of_pos hslash, takeWhile_cons_of_neg (by decide), append_nil]
  have hdrop : ((network ++ '/' :: len).dropWhile (· != '/')).drop 1 = len := by
    rw [dropWhile_append_of_pos hslash]
    rfl
  simp only [ipInCidr, htrim, htake, hdrop, hnet, hp.parseUnsigned, mem_append, mem_cons, true_or,
    or_true, if_true]
  by_cases hbig : p ≤ 2 ^ 32 - 1
  · rw [if_pos hbig]
    rcases ip, net with ⟨a | a, b | b⟩
    · rw [masked_eq_iff]
      exact ⟨fun h => ⟨rfl, h⟩, And.right⟩
    · simp [IpAddr.width]
    · simp [IpAddr.width]
    · rw [masked_eq_iff]
      exact ⟨fun h => ⟨rfl, h⟩, And.right⟩
  · rw [if_neg hbig]
    have hwidth : net.width ≤ 128 := by cases net <;> simp [IpAddr.width]
    exact ⟨nofun, fun h => absurd h.2.1 (by omega)⟩

end

/-- **Matching a network compares the first bits, and only those.**  For every text `network/p` of
an address and a number and for every address: no shift and no subtraction overflows, and the
address matches if and only if it is of the family of the network, `p` is at most the width of the
family and the first `p` bits of the two addresses agree.  Hence every address that the network
matches with a longer `q` it matches with `p`. -/
theorem ip_in_cidr_exact (network len : List Char) (net : IpAddr) (p : Nat)
    (hnet : parseIpAddr network = some net) (hp : Denotes len p) :
    (∀ ip, ipInCidrChecked ip (network ++ '/' :: len) =
      some (ipInCidr ip (network ++ '/' :: len))) ∧
      (∀ ip, ipInCidr ip (network ++ '/' :: len) = true ↔
        ip.width = net.width ∧ p ≤ net.width ∧ ∀ i < p, ip.bit i = net.bit i) ∧
      ∀ len' q, Denotes len' q → p ≤ q → ∀ ip, ipInCidr ip (network ++ '/' :: len') = true →
        ipInCidr ip (network ++ '/' :: len) = true := by
  refine ⟨fun ip => ipInCidrChecked_eq ip _, ipInCidr_iff hnet hp, ?_⟩
  intro len' q hq hpq ip h
  obtain ⟨hfamily, hwidth, hbits⟩ := (ipInCidr_iff hnet hq ip).mp h
  exact (ipInCidr_iff hnet hp ip).mpr ⟨hfamily, hpq.trans hwidth,
    fun i hi => hbits i (hi.trans_le hpq)⟩

theorem private_network_matches :
    ipInCidr (.v4 0x0a010203) "10.0.0.0/8".toList = true ∧
      ipInCidr (.v4 0x0b010203) "10.0.0.0/8".toList = false ∧
      ∀ ip, ipInCidr ip "10.0.0.0/12".toList = true → ipInCidr ip "10.0.0.0/8".toList = true := by
  have h := ip_in_cidr_exact "10.0.0.0".toList "8".toList (.v4 0x0a000000) 8 (by decide +kernel)
    ⟨"8".toList, by decide, by decide, .inl rfl⟩
  refine ⟨(h.2.1 _).mpr (by decide +kernel), ?_, ?_⟩
  · exact Bool.eq_false_iff.mpr (fun hm => absurd ((h.2.1 _).mp hm) (by decide +kernel))
  · exact h.2.2 "12".toList 12 ⟨"12".toList, by decide, by decide, .inl rfl⟩ (by decide)

end Octo.RateLimit
