import Mathlib.Algebra.Order.Ring.Int
import Mathlib.Data.List.Basic

/-!
# Stellar addresses

`crates/wallet-core/src/address.rs`.  The strkey codec itself (`stellar_strkey`) is not part of
the repository: it is the parameter `Strkey`, and what the code relies on is `Strkey.Lawful`.
-/

namespace Octo

abbrev Key := List UInt8

/-- The `stellar_strkey` crate: `ed25519::PublicKey` (`G...`) and `ed25519::MuxedAccount` (`M...`).
-/
structure Strkey where
  publicKeyToString : Key → String
  publicKeyFromString : String → Option Key
  muxedToString : Key → Nat → String
  muxedFromString : String → Option (Key × Nat)

/-- What SEP-23 promises of the codec: both forms parse back, and a `G...` is no `M...`. -/
structure Strkey.Lawful (sk : Strkey) : Prop where
  publicKey_roundTrip : ∀ k : Key, k.length = 32 →
    sk.publicKeyFromString (sk.publicKeyToString k) = some k
  muxed_roundTrip : ∀ (k : Key) (id : Nat), k.length = 32 → id < 2 ^ 64 →
    sk.muxedFromString (sk.muxedToString k id) = some (k, id)
  publicKey_not_muxed : ∀ k : Key, k.length = 32 →
    sk.muxedFromString (sk.publicKeyToString k) = none

structure DecodedMuxed where
  ed25519 : Key
  id : Nat

namespace Strkey

variable (sk : Strkey)

def baseAccount (d : DecodedMuxed) : String := sk.publicKeyToString d.ed25519

def decodeMuxed (address : String) : Option DecodedMuxed :=
  (sk.muxedFromString address).map (fun (k, id) => ⟨k, id⟩)

def isValidAccount (address : String) : Bool := (sk.publicKeyFromString address).isSome

def encodeMuxed (baseAccount : String) (id : Nat) : Option String :=
  (sk.publicKeyFromString baseAccount).map (fun k => sk.muxedToString k id)

/-- `to_base_account`: reduce `G...` or `M...` to the base `G...`. -/
def toBaseAccount (address : String) : Option String :=
  match sk.decodeMuxed address with
  | some d => some (sk.baseAccount d)
  | none => if sk.isValidAccount address then some address else none

variable {sk}

/-- Reducing the rendered form of an account, plain or muxed, to its base account gives the rendered
key. -/
theorem toBaseAccount_ofKey (h : sk.Lawful) {k : Key} (hk : k.length = 32) :
    sk.toBaseAccount (sk.publicKeyToString k) = some (sk.publicKeyToString k) := by
  unfold toBaseAccount decodeMuxed isValidAccount
  rw [h.publicKey_not_muxed k hk, h.publicKey_roundTrip k hk]
  rfl

theorem toBaseAccount_ofMuxed (h : sk.Lawful) {k : Key} {id : Nat} (hk : k.length = 32)
    (hid : id < 2 ^ 64) :
    sk.toBaseAccount (sk.muxedToString k id) = some (sk.publicKeyToString k) := by
  unfold toBaseAccount decodeMuxed
  rw [h.muxed_roundTrip k id hk hid]
  rfl

end Strkey

end Octo
