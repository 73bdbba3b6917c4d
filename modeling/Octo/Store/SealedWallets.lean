import Octo.Crypto.Seal
import Octo.Store.Models

/-!
# The sealed seeds of the wallets

The columns of `wallets` that signing and key rotation read (`crates/store/src/wallets.rs`,
migrations 0008, 0012 and 0021).
-/

namespace Octo

open Crypto

structure SealedWallet where
  id : Uuid
  network : String
  stellarAccountG : String
  gasTankAccountG : Option String
  sealedCiphertext : Option Bytes
  sealedNonce : Option Bytes
  sealedSalt : Option Bytes
  sealedScheme : Option Int
  archivedAt : Option Time
  deriving DecidableEq

def toU8 (n : Int) : Option UInt8 := if 0 ≤ n ∧ n ≤ 255 then some (UInt8.ofNat n.toNat) else none

end Octo
