import Octo.Codec.Delimited

/-!
# Sealed seeds

`crates/crypto/src/lib.rs`: a seed is encrypted under a key derived from the master key, a fresh
salt and the context, with the context as associated data.  Scheme V1 takes the network's context,
V2 appends the owning account to it.  HKDF and AES-GCM are the parameter `Aead`; the salt and the
nonce a seal draws are given to it.
-/

namespace Octo.Crypto

abbrev Bytes := List UInt8

def utf8 (s : String) : Bytes := s.toUTF8.data.toList

theorem utf8_injective : Function.Injective utf8 := by
  intro s t h
  have hbytes : s.toUTF8 = t.toUTF8 := ByteArray.ext (Array.toList_inj.mp h)
  exact String.toByteArray_inj.mp hbytes

def nonceLen : Nat := 12
def saltLen : Nat := 32

def schemeV1 : UInt8 := 1
def schemeV2 : UInt8 := 2

inductive CryptoError
  | invalidNonceLength
  | decryptionFailed
  | encryptionFailed
  | accountIdentityRequired
  | unknownScheme (scheme : UInt8)
  deriving DecidableEq

structure Draw where
  salt : Bytes
  nonce : Bytes
  salt_length : salt.length = saltLen
  nonce_length : nonce.length = nonceLen

structure SealedSeed where
  ciphertext : Bytes
  nonce : Bytes
  salt : Bytes
  scheme : UInt8
  nonce_length : nonce.length = nonceLen
  salt_length : salt.length = saltLen
  deriving DecidableEq

def SealedSeed.fromPartsWithScheme (ciphertext nonce salt : Bytes) (scheme : UInt8) :
    Except CryptoError SealedSeed :=
  if scheme = schemeV1 ∨ scheme = schemeV2 then
    if hn : nonce.length = nonceLen then
      if hs : salt.length = saltLen then .ok ⟨ciphertext, nonce, salt, scheme, hn, hs⟩
      else .error .invalidNonceLength
    else .error .invalidNonceLength
  else .error (.unknownScheme scheme)

/-- HKDF-SHA256 (extract with the salt, expand with the info to 32 bytes) and AES-256-GCM. -/
structure Aead where
  hkdf : (salt masterKey info : Bytes) → Bytes
  encrypt : (key nonce aad msg : Bytes) → Option Bytes
  decrypt : (key nonce aad ciphertext : Bytes) → Option Bytes

/-- Derived keys do not collide, everything can be encrypted, only what was encrypted decrypts, and
a ciphertext belongs to one key, one associated data and one message. -/
structure Aead.Ideal (A : Aead) : Prop where
  hkdf_inj : ∀ {s m i s' m' i'}, A.hkdf s m i = A.hkdf s' m' i' → s = s' ∧ m = m' ∧ i = i'
  encrypt_isSome : ∀ k n a m, (A.encrypt k n a m).isSome = true
  decrypt_iff : ∀ {k n a c m}, A.decrypt k n a c = some m ↔ A.encrypt k n a m = some c
  encrypt_inj : ∀ {k n a m k' a' m' c}, A.encrypt k n a m = some c → A.encrypt k' n a' m' = some c →
    k = k' ∧ a = a' ∧ m = m'

section

variable (A : Aead)

def sealSeed (rng : Draw) (masterKey plaintext context : Bytes) : Except CryptoError SealedSeed :=
  match A.encrypt (A.hkdf rng.salt masterKey context) rng.nonce context plaintext with
  | some c => .ok ⟨c, rng.nonce, rng.salt, schemeV1, rng.nonce_length, rng.salt_length⟩
  | none => .error .encryptionFailed

def boundContext (context : Bytes) (accountId : String) : Bytes := context ++ 0 :: utf8 accountId

def sealWithAccountId (rng : Draw) (masterKey plaintext context : Bytes) (accountId : String) :
    Except CryptoError SealedSeed :=
  if accountId.isEmpty then .error .accountIdentityRequired
  else (sealSeed A rng masterKey plaintext (boundContext context accountId)).map
    (fun s => { s with scheme := schemeV2 })

/-- The decryption of `open`, after its check of the scheme. -/
def decryptSeed (masterKey : Bytes) (s : SealedSeed) (context : Bytes) : Except CryptoError Bytes :=
  match A.decrypt (A.hkdf s.salt masterKey context) s.nonce context s.ciphertext with
  | some m => .ok m
  | none => .error .decryptionFailed

def openSeed (masterKey : Bytes) (s : SealedSeed) (context : Bytes) : Except CryptoError Bytes :=
  if s.scheme = schemeV1 then decryptSeed A masterKey s context
  else if s.scheme = schemeV2 then .error .accountIdentityRequired
  else .error (.unknownScheme s.scheme)

def openWithAccountId (masterKey : Bytes) (s : SealedSeed) (context : Bytes) (accountId : String) :
    Except CryptoError Bytes :=
  if s.scheme ≠ schemeV2 then openSeed A masterKey s context
  else if accountId.isEmpty then .error .accountIdentityRequired
  else openSeed A masterKey { s with scheme := schemeV1 } (boundContext context accountId)

/-- `reseal`; the scheme 0 of the oldest records stands for V1. -/
def reseal (rng : Draw) (oldKey newKey : Bytes) (s : SealedSeed) (context : Bytes) :
    Except CryptoError SealedSeed := do
  let plaintext ← openSeed A oldKey (if s.scheme = 0 then { s with scheme := schemeV1 } else s)
    context
  sealSeed A rng newKey plaintext context

def resealWithAccountId (rng : Draw) (oldKey newKey : Bytes) (s : SealedSeed) (context : Bytes)
    (accountId : String) : Except CryptoError SealedSeed := do
  let plaintext ← openWithAccountId A oldKey s context accountId
  sealWithAccountId A rng newKey plaintext context accountId

end

theorem openSeed_of_sealSeed {A : Aead} (hA : A.Ideal) {rng : Draw}
    {masterKey plaintext context : Bytes} {s : SealedSeed}
    (h : sealSeed A rng masterKey plaintext context = .ok s) :
    openSeed A masterKey s context = .ok plaintext := by
  unfold sealSeed at h
  split at h
  · rename_i hc
    rw [← Except.ok.inj h]
    simp only [openSeed, decryptSeed, if_pos]
    rw [hA.decrypt_iff.mpr hc]
  · cases h

theorem openWithAccountId_of_sealWithAccountId {A : Aead} (hA : A.Ideal) {rng : Draw}
    {masterKey plaintext context : Bytes} {accountId : String} {s : SealedSeed}
    (h : sealWithAccountId A rng masterKey plaintext context accountId = .ok s) :
    s.scheme = schemeV2 ∧ openWithAccountId A masterKey s context accountId = .ok plaintext := by
  unfold sealWithAccountId at h
  split at h
  · cases h
  · rename_i hne
    cases hs : sealSeed A rng masterKey plaintext (boundContext context accountId) with
    | error => rw [hs] at h; cases h
    | ok v1 =>
      rw [hs] at h
      rw [← Except.ok.inj h]
      refine ⟨rfl, ?_⟩
      have hv1 : v1.scheme = schemeV1 := by
        unfold sealSeed at hs
        split at hs
        · rw [← Except.ok.inj hs]
        · cases hs
      have hopen := openSeed_of_sealSeed hA hs
      simp only [openWithAccountId, ne_eq, if_neg hne]
      rw [← hv1]
      exact hopen

/-! ### One key opens a sealed seed -/

section

variable {A : Aead} {key key' : Bytes} {s : SealedSeed} {context m m' : Bytes}

theorem decryptSeed_inj (hA : A.Ideal) (h : decryptSeed A key s context = .ok m)
    (h' : decryptSeed A key' s context = .ok m') : key = key' ∧ m = m' := by
  unfold decryptSeed at h h'
  split at h
  · rename_i hn
    split at h'
    · rename_i hn'
      cases h
      cases h'
      obtain ⟨hkey, -, hm⟩ := hA.encrypt_inj (hA.decrypt_iff.mp hn) (hA.decrypt_iff.mp hn')
      exact ⟨(hA.hkdf_inj hkey).2.1, hm⟩
    · cases h'
  · cases h

theorem openSeed_inj (hA : A.Ideal) (h : openSeed A key s context = .ok m)
    (h' : openSeed A key' s context = .ok m') : key = key' ∧ m = m' := by
  unfold openSeed at h h'
  by_cases h1 : s.scheme = schemeV1
  · rw [if_pos h1] at h h'
    exact decryptSeed_inj hA h h'
  · rw [if_neg h1] at h
    split at h
    · cases h
    · cases h

theorem openWithAccountId_inj (hA : A.Ideal) {accountId : String}
    (h : openWithAccountId A key s context accountId = .ok m)
    (h' : openWithAccountId A key' s context accountId = .ok m') : key = key' ∧ m = m' := by
  unfold openWithAccountId at h h'
  by_cases h2 : s.scheme ≠ schemeV2
  · rw [if_pos h2] at h h'
    exact openSeed_inj hA h h'
  · rw [if_neg h2] at h h'
    split at h
    · cases h
    · rename_i hne
      rw [if_neg hne] at h'
      exact openSeed_inj hA h h'

end

/-! ### A cipher that keeps everything -/

open Codec

def frame (x : Bytes) : Bytes := unary 1 0 x.length ++ x

theorem delimited_frame : Delimited frame := delimited_counted (delimited_unary (by decide))

/-- The key, the nonce and the associated data in front of the message. -/
def framedHeader (key nonce aad : Bytes) : Bytes := frame key ++ (frame nonce ++ frame aad)

/-- A cipher whose ciphertext is the message after a description of everything it depends on. -/
def framed : Aead where
  hkdf salt masterKey info := frame salt ++ (frame masterKey ++ frame info)
  encrypt key nonce aad msg := some (framedHeader key nonce aad ++ msg)
  decrypt key nonce aad c :=
    if framedHeader key nonce aad <+: c then some (c.drop (framedHeader key nonce aad).length)
      else none

theorem delimited_framedHeader :
    Delimited (fun p : Bytes × Bytes × Bytes => framedHeader p.1 p.2.1 p.2.2) :=
  delimited_frame.append (delimited_frame.append delimited_frame)

theorem framed_ideal : framed.Ideal where
  hkdf_inj := by
    intro s m i s' m' i' h
    have hinj : (s, m, i) = (s', m', i') := delimited_framedHeader.injective h
    exact ⟨(Prod.mk.inj hinj).1, Prod.mk.inj (Prod.mk.inj hinj).2⟩
  encrypt_isSome _ _ _ _ := rfl
  decrypt_iff := by
    intro k n a c m
    simp only [framed, Option.some.injEq]
    constructor
    · intro h
      split at h
      · obtain ⟨_, rfl⟩ := ‹framedHeader k n a <+: c›
        rw [List.drop_left] at h
        rw [Option.some.inj h]
      · cases h
    · rintro rfl
      rw [if_pos (List.prefix_append _ _), List.drop_left]
  encrypt_inj := by
    intro k n a m k' a' m' c h h'
    have heq := (Option.some.inj h).trans (Option.some.inj h').symm
    obtain ⟨hp, hm⟩ := delimited_framedHeader (x := (k, n, a)) (y := (k', n, a')) heq
    exact ⟨(Prod.mk.inj hp).1, (Prod.mk.inj (Prod.mk.inj hp).2).2, hm⟩

end Octo.Crypto
