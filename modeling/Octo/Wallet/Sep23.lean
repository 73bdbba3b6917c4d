import Octo.Codec.Base32
import Octo.Wallet.Address

/-!
# The strkey codec of SEP-23

A strkey is the base32 text of a version byte, the payload and a CRC16 checksum.  `sep23` is this
codec for account ids (`G...`) and muxed accounts (`M...`, the key and the id in eight bytes), and
it satisfies what the development assumes of the `stellar_strkey` crate (`sep23_lawful`).
-/

namespace Octo

open List

namespace Sep23

def crcBit (crc : Nat) : Nat :=
  if crc.testBit 15 then (2 * crc % 65536) ^^^ 4129 else 2 * crc % 65536

def crcByte (crc byte : Nat) : Nat :=
  (List.range 8).foldl (fun c _ => crcBit c) (crc ^^^ (256 * byte))

/-- CRC16-XModem. -/
def crc16 (bytes : List Nat) : Nat := bytes.foldl crcByte 0

def checksum (bytes : List Nat) : List Nat := [crc16 bytes % 256, crc16 bytes / 256 % 256]

/-- Version byte, payload and checksum, in base32. -/
def encode (version : Nat) (payload : List Nat) : String :=
  String.ofList (Codec.encode (version :: payload ++ checksum (version :: payload)))

/-- The payload of `length` bytes, if the version and the checksum are right. -/
def decode (version length : Nat) (s : String) : Option (List Nat) :=
  (Codec.decode s.toList).bind (fun bytes =>
    let body := bytes.take (length + 1)
    if bytes.length = length + 3 ∧ body.head? = some version ∧
      bytes.drop (length + 1) = checksum body
    then some (body.drop 1) else none)

theorem checksum_lt (bytes : List Nat) : ∀ b ∈ checksum bytes, b < 256 := by
  intro b hb
  simp only [checksum, mem_cons, not_mem_nil, or_false] at hb
  rcases hb with rfl | rfl <;> exact Nat.mod_lt _ (by decide)

variable {payload : List Nat}

theorem decode_toList_encode {version : Nat} (hv : version < 256)
    (hp : ∀ b ∈ payload, b < 256) : Codec.decode (encode version payload).toList =
      some (version :: payload ++ checksum (version :: payload)) := by
  rw [encode, String.toList_ofList]
  refine Codec.decode_encode fun b hb => ?_
  rcases mem_append.mp hb with hb | hb
  · rcases mem_cons.mp hb with rfl | hb
    · exact hv
    · exact hp b hb
  · exact checksum_lt _ b hb

theorem decode_encode {version : Nat} (hv : version < 256) (hp : ∀ b ∈ payload, b < 256) :
    decode version payload.length (encode version payload) = some payload := by
  rw [decode, decode_toList_encode hv hp, Option.bind_some]
  have htake : (version :: payload ++ checksum (version :: payload)).take (payload.length + 1) =
      version :: payload := by
    rw [take_left' (by rw [length_cons])]
  simp only [htake]
  rw [if_pos]
  · rfl
  · simp [checksum]

theorem decode_of_length_ne {version version' length : Nat} (hv : version < 256)
    (hp : ∀ b ∈ payload, b < 256) (hl : payload.length ≠ length) :
    decode version' length (encode version payload) = none := by
  rw [decode, decode_toList_encode hv hp]
  refine if_neg fun h => hl ?_
  have := h.1
  simp [checksum] at this
  exact this

/-! ### Keys and ids as bytes -/

/-- A number as `n` bytes, the most significant first. -/
def beBytes : Nat → Nat → List Nat
  | 0, _ => []
  | n + 1, x => beBytes n (x / 256) ++ [x % 256]

def ofBeBytes (l : List Nat) : Nat := l.foldl (fun n b => 256 * n + b) 0

theorem beBytes_length (n x : Nat) : (beBytes n x).length = n := by
  induction n generalizing x with
  | zero => rfl
  | succ n ih => rw [beBytes, length_append, ih, length_singleton]

theorem beBytes_lt (n x : Nat) : ∀ b ∈ beBytes n x, b < 256 := by
  induction n generalizing x with
  | zero => intro b hb; cases hb
  | succ n ih =>
    intro b hb
    rcases mem_append.mp hb with hb | hb
    · exact ih _ b hb
    · rw [mem_singleton.mp hb]
      exact Nat.mod_lt _ (by decide)

theorem ofBeBytes_beBytes {n x : Nat} (h : x < 256 ^ n) : ofBeBytes (beBytes n x) = x := by
  induction n generalizing x with
  | zero =>
    have hx : x = 0 := by simpa using h
    rw [hx]
    rfl
  | succ n ih =>
    have hlt : x / 256 < 256 ^ n := by
      omega
    rw [beBytes, ofBeBytes, foldl_append]
    have := ih hlt
    rw [ofBeBytes] at this
    rw [this]
    show 256 * (x / 256) + x % 256 = x
    omega

def keyBytes (k : Key) : List Nat := k.map (·.toNat)
def keyOfBytes (l : List Nat) : Key := l.map (·.toUInt8)

theorem keyBytes_lt (k : Key) : ∀ b ∈ keyBytes k, b < 256 := by
  intro b hb
  obtain ⟨x, -, rfl⟩ := mem_map.mp hb
  exact x.toNat_lt

theorem keyOfBytes_keyBytes (k : Key) : keyOfBytes (keyBytes k) = k := by
  rw [keyOfBytes, keyBytes, map_map]
  refine (map_congr_left fun x _ => ?_).trans (map_id k)
  simp

end Sep23

open Sep23

def sep23 : Strkey where
  publicKeyToString k := encode 48 (keyBytes k)
  publicKeyFromString s := (decode 48 32 s).map keyOfBytes
  muxedToString k id := encode 96 (keyBytes k ++ beBytes 8 id)
  muxedFromString s := (decode 96 40 s).map
    (fun l => (keyOfBytes (l.take 32), ofBeBytes (l.drop 32)))

theorem sep23_lawful : sep23.Lawful where
  publicKey_roundTrip k hk := by
    have hlen : (keyBytes k).length = 32 := by rw [keyBytes, length_map, hk]
    have this : decode 48 (keyBytes k).length (encode 48 (keyBytes k)) = _ :=
      decode_encode (by decide) (keyBytes_lt k)
    rw [hlen] at this
    simp only [sep23, this, Option.map_some, keyOfBytes_keyBytes]
  muxed_roundTrip k id hk hid := by
    have hlen : (keyBytes k).length = 32 := by rw [keyBytes, length_map, hk]
    have hlt : ∀ b ∈ keyBytes k ++ beBytes 8 id, b < 256 := by
      exact forall_mem_append.mpr ⟨keyBytes_lt k, beBytes_lt 8 id⟩
    have this : decode 96 _ (encode 96 (keyBytes k ++ beBytes 8 id)) = _ :=
      decode_encode (by decide) hlt
    rw [length_append, hlen, beBytes_length] at this
    simp only [sep23, this, Option.map_some]
    rw [take_left' hlen, drop_left' hlen, keyOfBytes_keyBytes, ofBeBytes_beBytes]
    exact lt_of_lt_of_eq hid (by decide)
  publicKey_not_muxed k hk := by
    have hlen : (keyBytes k).length = 32 := by rw [keyBytes, length_map, hk]
    simp only [sep23]
    rw [decode_of_length_ne (by decide) (keyBytes_lt k) (by rw [hlen]; decide)]
    rfl

end Octo
