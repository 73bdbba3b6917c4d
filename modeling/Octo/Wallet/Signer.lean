import Octo.Crypto.Seal
import Octo.Wallet.Envelope

/-!
# Signing with a sealed seed

`crates/wallet-core/src/signer.rs`: open the sealed seed, derive the account's key and sign a
fee-bump around the user's transaction, with the master keys the server has.  The key derivation and
the encoding of the signed envelope are not part of the repository: they are the parameter
`FeeBumps`.
-/

namespace Octo

open Crypto

inductive StellarNetwork
  | mainnet
  | testnet
  | standalone
  deriving DecidableEq

def StellarNetwork.cryptoContext : StellarNetwork → Bytes
  | .mainnet => utf8 "octo:mainnet"
  | .testnet => utf8 "octo:testnet"
  | .standalone => utf8 "octo:standalone"

def minBaseFee : Int := 100

def bip39SeedLen : Nat := 64

/-- `derive_ed25519_secret` on a seed, the signed envelope of a fee-bump, and the fee the network
reads in an envelope. -/
structure FeeBumps where
  deriveEd25519Secret : (seed : Bytes) → (index : Nat) → Option Bytes
  envelope : (secret : Bytes) → TransactionV1Envelope → (fee : Int) → Option String
  feeOf : String → Option Int
  feeOf_envelope : ∀ {secret v1 fee xdr}, envelope secret v1 fee = some xdr → feeOf xdr = some fee

def Xdr.innerSequenceNumber (x : Xdr) (innerXdr : String) : Option Int :=
  (x.parseInnerV1 innerXdr).map (·.tx.seqNum)

structure MasterKeys where
  masterKey : Bytes
  masterKeyNext : Option Bytes
  deriving DecidableEq

def MasterKeys.openingKeys (k : MasterKeys) : List Bytes := k.masterKeyNext.toList ++ [k.masterKey]

section

variable (A : Aead) (x : Xdr) (fb : FeeBumps)

def derivedSecretFromSealed (masterKey : Bytes) (s : SealedSeed) (network : StellarNetwork)
    (accountIndex : Nat) : Option Bytes := do
  let seed ← (openSeed A masterKey s network.cryptoContext).toOption
  if seed.length ≠ bip39SeedLen then none
  else fb.deriveEd25519Secret seed accountIndex

def signFeeBump (masterKey : Bytes) (s : SealedSeed) (network : StellarNetwork) (accountIndex : Nat)
    (innerXdr : String) (maxBaseFeeStroops : Int) : Option String :=
  if maxBaseFeeStroops < minBaseFee then none
  else do
    let innerV1 ← x.parseInnerV1 innerXdr
    let secret ← derivedSecretFromSealed A fb masterKey s network accountIndex
    fb.envelope secret innerV1 maxBaseFeeStroops

variable {A x fb}

theorem feeOf_signFeeBump {masterKey : Bytes} {s : SealedSeed} {network : StellarNetwork} {i : Nat}
    {innerXdr xdr : String} {fee : Int}
    (h : signFeeBump A x fb masterKey s network i innerXdr fee = some xdr) :
    fb.feeOf xdr = some fee := by
  unfold signFeeBump at h
  split at h
  · cases h
  · simp only [Option.bind_eq_bind, Option.bind_eq_some_iff] at h
    obtain ⟨v1, -, _, -, he⟩ := h
    exact fb.feeOf_envelope he

end

end Octo
