import Octo.Ingest.Text
import Octo.Wallet.Address

/-!
# Transaction envelopes

The XDR types the API looks into, as far as it looks, and `wallet-core`'s strict decoding and
transaction hash (`crates/wallet-core/src/signer.rs`).  The XDR and base64 codecs and SHA-256 are
not part of the repository: they are the parameter `Xdr`.
-/

namespace Octo

structure Ed25519 where
  bytes : Key
  length_eq : bytes.length = 32
  deriving DecidableEq

inductive MuxedAccount
  | ed25519 (key : Ed25519)
  | muxedEd25519 (id : UInt64) (key : Ed25519)
  deriving DecidableEq

def MuxedAccount.key : MuxedAccount → Ed25519
  | .ed25519 k => k
  | .muxedEd25519 _ k => k

inductive Asset
  | native
  | creditAlphanum4 (assetCode : List UInt8) (issuer : Ed25519)
  | creditAlphanum12 (assetCode : List UInt8) (issuer : Ed25519)
  deriving DecidableEq

structure TimeBounds where
  minTime : UInt64
  maxTime : UInt64
  deriving DecidableEq

inductive Preconditions
  | none
  | time (bounds : TimeBounds)
  | v2 (timeBounds : Option TimeBounds)
  deriving DecidableEq

inductive OtherOperation
  | createAccount
  | manageSellOffer
  | createPassiveSellOffer
  | setOptions
  | allowTrust
  | accountMerge
  | inflation
  | manageData
  | bumpSequence
  | manageBuyOffer
  | createClaimableBalance
  | claimClaimableBalance
  | beginSponsoringFutureReserves
  | endSponsoringFutureReserves
  | revokeSponsorship
  | clawback
  | clawbackClaimableBalance
  | setTrustLineFlags
  | liquidityPoolDeposit
  | liquidityPoolWithdraw
  | invokeHostFunction
  | extendFootprintTtl
  | restoreFootprint
  deriving DecidableEq

inductive OperationBody
  | payment (destination : MuxedAccount) (asset : Asset) (amount : Int)
  | pathPaymentStrictReceive (destination : MuxedAccount)
  | pathPaymentStrictSend (destination : MuxedAccount)
  | changeTrust
  | other (op : OtherOperation)
  deriving DecidableEq

def OperationBody.payment? : OperationBody → Option (MuxedAccount × Asset × Int)
  | .payment destination asset amount => some (destination, asset, amount)
  | _ => none

def OperationBody.destination? : OperationBody → Option MuxedAccount
  | .payment destination _ _ => some destination
  | .pathPaymentStrictReceive destination => some destination
  | .pathPaymentStrictSend destination => some destination
  | _ => none

structure Operation where
  sourceAccount : Option MuxedAccount
  body : OperationBody
  deriving DecidableEq

structure TransactionV1 where
  sourceAccount : MuxedAccount
  fee : Nat
  seqNum : Int
  cond : Preconditions
  operations : List Operation
  deriving DecidableEq

structure TransactionV1Envelope where
  tx : TransactionV1
  signatures : List (List UInt8)
  deriving DecidableEq

inductive TransactionEnvelope
  | txV0
  | tx (v1 : TransactionV1Envelope)
  | txFeeBump
  deriving DecidableEq

def opTypeName : OperationBody → String
  | .payment .. => "Payment"
  | .pathPaymentStrictReceive _ => "PathPaymentStrictReceive"
  | .pathPaymentStrictSend _ => "PathPaymentStrictSend"
  | .changeTrust => "ChangeTrust"
  | .other .createAccount => "CreateAccount"
  | .other .manageSellOffer => "ManageSellOffer"
  | .other .createPassiveSellOffer => "CreatePassiveSellOffer"
  | .other .setOptions => "SetOptions"
  | .other .allowTrust => "AllowTrust"
  | .other .accountMerge => "AccountMerge"
  | .other .inflation => "Inflation"
  | .other .manageData => "ManageData"
  | .other .bumpSequence => "BumpSequence"
  | .other .manageBuyOffer => "ManageBuyOffer"
  | .other .createClaimableBalance => "CreateClaimableBalance"
  | .other .claimClaimableBalance => "ClaimClaimableBalance"
  | .other .beginSponsoringFutureReserves => "BeginSponsoringFutureReserves"
  | .other .endSponsoringFutureReserves => "EndSponsoringFutureReserves"
  | .other .revokeSponsorship => "RevokeSponsorship"
  | .other .clawback => "Clawback"
  | .other .clawbackClaimableBalance => "ClawbackClaimableBalance"
  | .other .setTrustLineFlags => "SetTrustLineFlags"
  | .other .liquidityPoolDeposit => "LiquidityPoolDeposit"
  | .other .liquidityPoolWithdraw => "LiquidityPoolWithdraw"
  | .other .invokeHostFunction => "InvokeHostFunction"
  | .other .extendFootprintTtl => "ExtendFootprintTtl"
  | .other .restoreFootprint => "RestoreFootprint"

/-- The codecs: `from_xdr_base64`, the base64 engine, `from_xdr`, `xdr_bytes`, the SHA-256 of a
transaction's signature payload on the server's network, and `String::from_utf8_lossy`. -/
structure Xdr where
  fromXdrBase64 : String → Option TransactionEnvelope
  base64Decode : List Char → Option (List UInt8)
  fromXdr : List UInt8 → Option TransactionEnvelope
  xdrBytes : TransactionEnvelope → Option (List UInt8)
  payloadHash : TransactionV1 → Option (List UInt8)
  fromUtf8Lossy : List UInt8 → List Char

namespace Xdr

variable (x : Xdr)

/-- `decode_envelope_strict`: trailing bytes are rejected. -/
def decodeEnvelopeStrict (b64 : String) : Option TransactionEnvelope := do
  let raw ← x.base64Decode (trim b64.toList)
  let env ← x.fromXdr raw
  let encoded ← x.xdrBytes env
  if encoded.length = raw.length then some env else none

def parseInnerV1 (innerXdr : String) : Option TransactionV1Envelope := do
  match ← x.decodeEnvelopeStrict innerXdr with
  | .tx v1 => some v1
  | _ => none

def computeInnerTxHash (innerXdr : String) : Option (List UInt8) := do
  let v1 ← x.parseInnerV1 innerXdr
  x.payloadHash v1.tx

end Xdr

def hexDigit (n : Nat) : Char := "0123456789abcdef".toList.getD n '0'

def hexEncode (bytes : List UInt8) : String :=
  String.ofList (bytes.flatMap (fun b => [hexDigit (b.toNat / 16), hexDigit (b.toNat % 16)]))

end Octo
