import Octo.Withdrawal.Calls

/-!
# The relay

`crates/api/src/routes/submit.rs`: validate the signed transaction, check the withdrawal allowlist,
record the row as `pending`, submit, and settle the row on the verdict.  The in-process lock on the
account's sequence number is left out: without it there are only more interleavings.
-/

namespace Octo.Withdrawal

open Conc Octo.Api

structure RelayOutcome where
  status : TxStatus
  stellarTxHash : Option String
  detail : Option String
  destination : Option String
  amountStroops : Option Int
  assetCode : Option String
  deriving DecidableEq

def explainCode (code : String) : String :=
  match code with
  | "op_underfunded" => "Insufficient balance to cover this amount."
  | "op_low_reserve" =>
    "Not enough XLM to satisfy the base reserve (each trustline/subentry reserves 0.5 XLM)."
  | "op_no_destination" => "The destination account does not exist on this network."
  | "op_no_trust" => "The destination has no trustline for this asset — they must add one first."
  | "op_no_issuer" => "The asset issuer does not exist on this network."
  | "op_invalid_limit" => "The trust limit is invalid."
  | "op_line_full" => "The destination's trustline limit would be exceeded."
  | "tx_bad_seq" => "Stale sequence number — refresh signing info and rebuild the transaction."
  | "tx_bad_auth" =>
    "Signature verification failed — the transaction was not signed by this wallet's key."
  | "tx_insufficient_fee" => "The network fee was too low; rebuild with a higher fee."
  | other => "Transaction failed (" ++ other ++ ")."

/-- The status, hash, detail, `settled` flag and ledger the relay makes of a submission. -/
structure Verdict where
  status : TxStatus
  hash : String
  detail : Option String
  settled : Bool
  ledger : Option Int
  deriving DecidableEq

def verdictOf (precomputedHash : String) : Except ApiError SubmitResult → Verdict
  | .ok r =>
    if r.successful then ⟨.confirmed, r.hash, none, true, r.ledger⟩
    else
      let reason := ((r.operationCodes.find? (· != "op_success")).map explainCode).or
        (r.transactionCode.map explainCode)
      ⟨.failed, r.hash, reason, true, r.ledger⟩
  | .error (.badRequest msg) => ⟨.failed, precomputedHash, some msg, true, none⟩
  | .error _ =>
    ⟨.failed, precomputedHash, some "Could not reach the Stellar network — try again.", false, none⟩

def withdrawalOf (wallet : Wallet) (p : PaymentSummary) (txHash : String) (status : TxStatus)
    (ledger : Option Int) : NewWithdrawalTransaction where
  walletId := wallet.id
  assetCode := p.assetCode
  assetIssuer := p.assetIssuer
  amountStroops := p.amountStroops
  sourceAccount := wallet.stellarAccountG
  destinationAccount := p.destination
  stellarTxHash := some txHash
  status := status
  ledger := ledger
  maxTime := p.maxTime

abbrev RelayM (α : Type) := ExceptT ApiError (Prog Op Ans) α

/-- `record_withdrawal`: best effort, a failed write is only logged. -/
def recordWithdrawal (wallet : Wallet) (p : PaymentSummary) (txHash : String) (status : TxStatus)
    (ledger : Option Int) : Prog Op Ans Unit := do
  let _ ← ask (.recordWithdrawalTransaction (withdrawalOf wallet p txHash status ledger))

def orInternal {α : Type} : Except StoreError α → Except ApiError α :=
  Except.mapError (fun _ => .internal)

/-- The allowlist check: only the summarised payment's destination is looked at. -/
def checkAllowlist (out : Outside) (walletId : Uuid) (p : PaymentSummary) : RelayM Unit := do
  let config ← Prog.tryCall (.getWithdrawalAllowlistConfig walletId) orInternal
  if config.any (·.enabled) then
    match out.strkey.toBaseAccount p.destination with
    | none => throw (.badRequest "destination is not a valid address")
    | some baseDestination =>
      let ok ← Prog.tryCall (.isAddressWhitelisted walletId baseDestination) orInternal
      if !ok then throw (.forbidden "destination is not on this wallet's withdrawal allowlist")
      else pure ()
  else pure ()

def checkPayment (out : Outside) (walletId : Uuid) : Option PaymentSummary → RelayM Unit
  | some p => checkAllowlist out walletId p
  | none => pure ()

/-- The `pending` row, written before anything touches Horizon. -/
def recordPending (wallet : Wallet) (txHash : String) : Option PaymentSummary → Prog Op Ans Unit
  | some p => recordWithdrawal wallet p txHash .pending none
  | none => .ret ()

/-- The settled row; an unknown outcome leaves it `pending`. -/
def recordVerdict (wallet : Wallet) (txHash : String) (v : Verdict) :
    Option PaymentSummary → Prog Op Ans Unit
  | some p => if v.settled then recordWithdrawal wallet p txHash v.status v.ledger else .ret ()
  | none => .ret ()

/-- What follows the allowlist check and the hash: record, submit, settle. -/
def submitAndRecord (out : Outside) (wallet : Wallet) (signedXdr : String)
    (payment : Option PaymentSummary) (precomputedHash : String) : Prog Op Ans RelayOutcome := do
  recordPending wallet precomputedHash payment
  let submit ← horizon (out.client.submitTransaction signedXdr)
  let v := verdictOf precomputedHash submit
  recordVerdict wallet precomputedHash v payment
  return ⟨v.status, some v.hash, v.detail, payment.map (·.destination),
    payment.map (·.amountStroops), payment.map (·.assetCode)⟩

def Outside.txHash (out : Outside) (signedXdr : String) : Option String :=
  (out.xdr.computeInnerTxHash signedXdr).map hexEncode

def relaySignedTransaction (out : Outside) (wallet : Wallet) (signedXdr : String) :
    RelayM RelayOutcome := do
  let payment ← ExceptT.mk (.ret
    (validateSignedXdr out.strkey out.xdr signedXdr wallet.stellarAccountG))
  checkPayment out wallet.id payment
  match out.txHash signedXdr with
  | none => throw (.badRequest "transaction_xdr could not be hashed")
  | some precomputedHash => submitAndRecord out wallet signedXdr payment precomputedHash

end Octo.Withdrawal
