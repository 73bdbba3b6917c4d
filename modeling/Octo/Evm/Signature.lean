import Octo.Codec.BigEndian
import Octo.Evm.Address

/-!
# Signatures from which the signer is recovered

`crates/evm-core/src/signer.rs`.  `(r, s)` and `(r, n - s)` sign the same digest, with opposite
recovery ids: only the one with the lower `s` is produced, and only it is accepted.  ECDSA over
secp256k1 is the parameter `Ecdsa`.
-/

namespace Octo.Evm

open Crypto Codec List

inductive EvmError
  | signingFailed
  | invalidSignature
  | recoveryFailed
  deriving DecidableEq

/-- The order of secp256k1. -/
def order : Nat := 0xFFFFFFFFFFFFFFFFFFFFFFFFFFFFFFFEBAAEDCE6AF48A03BBFD25E8CD0364141

def IsScalar (x : Nat) : Prop := 0 < x ∧ x < order

instance (x : Nat) : Decidable (IsScalar x) := inferInstanceAs (Decidable (_ ∧ _))

structure SignatureParts where
  r : Bytes
  s : Bytes
  v : UInt8
  deriving DecidableEq

namespace SignatureParts

def fromParts (r s : Nat) (recid : UInt8) : SignatureParts :=
  if order / 2 < s then ⟨beBytes 32 r, beBytes 32 (order - s), recid ^^^ 1⟩
    else ⟨beBytes 32 r, beBytes 32 s, recid⟩

def toBytes (p : SignatureParts) : Bytes := p.r ++ p.s ++ [p.v]

def fromBytes (bytes : Bytes) : Except EvmError SignatureParts :=
  let r := bytes.take 32
  let s := (bytes.drop 32).take 32
  let v := bytes.getD 64 0
  if 1 < v then .error .invalidSignature
  else if ¬ (IsScalar (beValue r) ∧ IsScalar (beValue s)) then .error .invalidSignature
  else if order / 2 < beValue s then .error .invalidSignature
  else .ok ⟨r, s, v⟩

end SignatureParts

open SignatureParts

/-- The crate `k256`: signing a digest, and the key for which a signature of a digest is valid. -/
structure Ecdsa (SK VK : Type) where
  signPrehash : SK → Bytes → Option (Nat × Nat × UInt8)
  recover : Bytes → Nat → Nat → UInt8 → Option VK
  verifyingKey : SK → VK
  encodedPoint : VK → Bytes

variable {SK VK : Type}

/-- What is assumed of it: a signature recovers its signer, and if it does so with a high `s`, it
also does with the low one.  Nothing says that a high `s` is accepted: `k256` refuses it. -/
structure Ecdsa.Ideal (K : Ecdsa SK VK) : Prop where
  sign : ∀ {k d r s v}, K.signPrehash k d = some (r, s, v) →
    IsScalar r ∧ IsScalar s ∧ K.recover d r s v = some (K.verifyingKey k)
  negate : ∀ {d r s v key}, order / 2 < s → K.recover d r s v = some key →
    K.recover d r (order - s) (v ^^^ 1) = some key

section

variable (K : Ecdsa SK VK) (keccak : Keccak)

def signDigestBytes (k : SK) (digest : Bytes) : Except EvmError Bytes :=
  match K.signPrehash k digest with
  | none => .error .signingFailed
  | some (r, s, recid) => .ok (fromParts r s recid).toBytes

def addressFromVerifyingKey (key : VK) : Address :=
  ⟨(keccak ((K.encodedPoint key).drop 1)).toList.drop 12, by simp [addressLength]⟩

def SignatureParts.recoverAddress (digest : Bytes) (p : SignatureParts) : Except EvmError Address :=
  if ¬ (IsScalar (beValue p.r) ∧ IsScalar (beValue p.s)) ∨ 3 < p.v then .error .invalidSignature
  else match K.recover digest (beValue p.r) (beValue p.s) p.v with
    | none => .error .recoveryFailed
    | some key => .ok (addressFromVerifyingKey K keccak key)

def recoverAddress (digest signature : Bytes) : Except EvmError Address := do
  let parts ← fromBytes signature
  parts.recoverAddress K keccak digest

end

variable {K : Ecdsa SK VK} {keccak : Keccak} {k : SK} {digest : Bytes} {r s : Nat} {v : UInt8}

theorem beValue_scalar (h : IsScalar r) : beValue (beBytes 32 r) = r :=
  beValue_beBytes (Nat.lt_trans h.2 (by decide))

theorem fromBytes_toBytes (hr : IsScalar r) (hs : IsScalar s) (hv : v ≤ 1) :
    fromBytes (SignatureParts.toBytes ⟨beBytes 32 r, beBytes 32 s, v⟩) =
      if order / 2 < s then .error .invalidSignature else .ok ⟨beBytes 32 r, beBytes 32 s, v⟩ := by
  have hlen (x : Nat) : (beBytes 32 x).length = 32 := beBytes_length 32 x
  unfold fromBytes toBytes
  simp [hlen, beValue_scalar hr, beValue_scalar hs, hr, hs, UInt8.not_lt.mpr hv]

theorem xor_le_one (hv : v ≤ 1) : v ^^^ 1 ≤ 1 := by
  obtain rfl | rfl : v = 0 ∨ v = 1 := by
    rw [← UInt8.toNat_inj, ← UInt8.toNat_inj]
    exact Nat.le_one_iff_eq_zero_or_eq_one.mp hv
  · decide
  · decide

theorem fromParts_eq (hs : IsScalar s) (hv : v ≤ 1) :
    ∃ s' v', fromParts r s v = ⟨beBytes 32 r, beBytes 32 s', v'⟩ ∧
      IsScalar s' ∧ ¬ order / 2 < s' ∧ v' ≤ 1 ∧
      (s' = s ∧ v' = v ∨ order / 2 < s ∧ s' = order - s ∧ v' = v ^^^ 1) := by
  unfold fromParts
  split
  · rename_i hhigh
    obtain ⟨hpos, hlt⟩ := hs
    refine ⟨_, _, rfl, ⟨by omega, by omega⟩, ?_, xor_le_one hv, .inr ⟨hhigh, rfl, rfl⟩⟩
    omega
  · exact ⟨s, v, rfl, hs, ‹_›, hv, .inl ⟨rfl, rfl⟩⟩

/-- **A signature gives its signer back**, whichever of the two values of `s` the curve came up
with, and of the two encodings with these values exactly one is accepted. -/
theorem signature_recovers (hK : K.Ideal) (hsign : K.signPrehash k digest = some (r, s, v))
    (hv : v ≤ 1) :
    (∃ bytes, signDigestBytes K k digest = .ok bytes ∧ recoverAddress K keccak digest bytes =
      .ok (addressFromVerifyingKey K keccak (K.verifyingKey k))) ∧
    (fromBytes (SignatureParts.toBytes ⟨beBytes 32 r, beBytes 32 s, v⟩)).isOk =
      !(fromBytes (SignatureParts.toBytes ⟨beBytes 32 r, beBytes 32 (order - s),
        v ^^^ 1⟩)).isOk := by
  obtain ⟨hr, hs, hrec⟩ := hK.sign hsign
  constructor
  · obtain ⟨s', v', hp, hs', hlow, hv', htwin⟩ := fromParts_eq (r := r) hs hv
    refine ⟨_, by rw [signDigestBytes, hsign], ?_⟩
    have hsame : K.recover digest r s' v' = some (K.verifyingKey k) := by
      rcases htwin with ⟨rfl, rfl⟩ | ⟨hhigh, rfl, rfl⟩
      · exact hrec
      · exact hK.negate hhigh hrec
    have hid : ¬ 3 < v' := UInt8.not_lt.mpr (UInt8.le_trans hv' (by decide))
    rw [Evm.recoverAddress, hp, fromBytes_toBytes hr hs' hv', if_neg hlow]
    simp [bind, Except.bind, SignatureParts.recoverAddress, beValue_scalar hr,
      beValue_scalar hs', hr, hs', hid, hsame]
  · have htwin : IsScalar (order - s) := ⟨Nat.sub_pos_of_lt hs.2, Nat.sub_lt (by decide) hs.1⟩
    rw [fromBytes_toBytes hr hs hv, fromBytes_toBytes hr htwin (xor_le_one hv)]
    obtain ⟨-, hlt⟩ := hs
    by_cases hhigh : order / 2 < s
    · rw [if_pos hhigh, if_neg (by simp only [order] at hhigh hlt ⊢; omega)]
      rfl
    · rw [if_neg hhigh, if_pos (by simp only [order] at hhigh hlt ⊢; omega)]
      rfl

/-- Key `k` signs with `r = k` and the highest `s`; only that signature and its low twin recover
a key, which is `r`. -/
def exampleEcdsa : Ecdsa Nat Nat where
  signPrehash k _ := if IsScalar k then some (k, order - 1, 0) else none
  recover _ r s v := if s = order - 1 ∧ v = 0 ∨ s = 1 ∧ v = 1 then some r else none
  verifyingKey k := k
  encodedPoint key := 4 :: beBytes 64 key

theorem exampleEcdsa_ideal : exampleEcdsa.Ideal where
  sign {k d r s v} h := by
    simp only [exampleEcdsa, Option.ite_none_right_eq_some] at h
    obtain ⟨hk, rfl, rfl, rfl⟩ := h
    exact ⟨hk, by decide, rfl⟩
  negate {d r s v key} hhigh h := by
    simp only [exampleEcdsa, Option.ite_none_right_eq_some] at h ⊢
    obtain ⟨⟨rfl, rfl⟩ | ⟨rfl, rfl⟩, hr⟩ := h
    · exact ⟨.inr (by decide), hr⟩
    · exact absurd hhigh (by decide)

/-- For a hash, the last 32 bytes. -/
def lastBytes : Keccak := fun m => Vector.ofFn (fun i => m.getD (m.length - 32 + i) 0)

/-- Key 7 signs with a high `s`; what is sent has the low one, and recovers the address of key 7. -/
theorem high_signature_recovers : ∃ bytes, signDigestBytes exampleEcdsa 7 [] = .ok bytes ∧
    recoverAddress exampleEcdsa lastBytes [] bytes = .ok ⟨List.replicate 19 0 ++ [7], rfl⟩ := by
  have hsign : exampleEcdsa.signPrehash 7 [] = some (7, order - 1, 0) := rfl
  exact (signature_recovers exampleEcdsa_ideal hsign (by decide)).1

end Octo.Evm
