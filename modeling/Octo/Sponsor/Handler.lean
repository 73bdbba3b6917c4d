import Octo.Sponsor.Calls
import Octo.Withdrawal.Validate

/-!
# The sponsor endpoint

`crates/api/src/routes/sponsor.rs` and `crates/api/src/sponsor_validation.rs`: check the request,
reserve its fee against the daily budget, sign a fee-bump around the user's transaction, submit it,
and finalise the reservation.  `validate_sponsor` is its dry run.  Authentication before them and
the audit entry and the webhook after `sponsor` are left out: they do not touch the tables.  So is
the process-local lock on the wallet, since the requests of one wallet may come to different
replicas of the server.
-/

namespace Octo.Sponsor

open Conc Octo.Api Crypto

/-! ### Validation -/

def allowedOpTypes : List String := ["Payment", "PathPaymentStrictSend", "PathPaymentStrictReceive"]

def isOpAllowed : OperationBody → Bool
  | .payment .. | .pathPaymentStrictReceive _ | .pathPaymentStrictSend _ => true
  | _ => false

def normalizeWalletAllowlist (requested : List String) : Except ApiError (List String) :=
  if requested.isEmpty then
    .error (.badRequest "allowed_operations must not be empty; disable sponsorship instead")
  else
    match requested.find? (fun op => !allowedOpTypes.contains op) with
    | some bad => .error (.badRequest
        ("allowed_operations may only narrow the global allowlist; '" ++ bad
        ++ "' is not one of: " ++ ", ".intercalate allowedOpTypes))
    | none => .ok (allowedOpTypes.filter (fun op => requested.contains op))

def validateOps (walletAllowlist : Option (List String)) : List Operation → Except ApiError Unit
  | [] => .ok ()
  | op :: ops =>
    let name := opTypeName op.body
    if !isOpAllowed op.body then
      .error (.badRequest ("op_not_allowed: operation type '" ++ name
        ++ "' is not allowed in a sponsored transaction; allowed types: "
        ++ ", ".intercalate allowedOpTypes))
    else
      match walletAllowlist with
      | some allowed =>
        if !allowed.contains name then
          .error (.badRequest ("op_not_allowed: operation type '" ++ name
            ++ "' is not in this wallet's sponsorship allowlist; allowed types: "
            ++ ", ".intercalate allowed))
        else validateOps walletAllowlist ops
      | none => validateOps walletAllowlist ops

def validateInnerXdr (sk : Strkey) (x : Xdr) (innerXdr masterAccountG : String)
    (walletAllowlist : Option (List String)) : Except ApiError Unit :=
  match x.fromXdrBase64 innerXdr with
  | none => .error (.badRequest "transaction_xdr is not valid base64 XDR")
  | some (.tx v1) =>
    if Withdrawal.sourceMatches sk v1.tx.sourceAccount masterAccountG then
      .error (.badRequest "inner transaction source must not be the master account")
    else validateOps walletAllowlist v1.tx.operations
  | some _ => .error (.badRequest "transaction_xdr must be a v1 TransactionEnvelope")

/-! ### Preflight -/

structure SponsorRequest where
  transactionXdr : Option String
  maxBaseFeeStroops : Option Int
  deriving DecidableEq

def checkRequest (req : SponsorRequest) : Except ApiError (String × Int) :=
  match req.transactionXdr.filter (fun x => !x.isEmpty) with
  | none => .error (.badRequest "transaction_xdr is required")
  | some innerXdr =>
    match req.maxBaseFeeStroops.filter (fun f => decide (0 < f)) with
    | none => .error (.badRequest "max_base_fee_stroops must be > 0")
    | some maxFee =>
      if maxFee < minBaseFee then
        .error (.badRequest ("max_base_fee_stroops must be at least " ++ toString minBaseFee))
      else .ok (innerXdr, maxFee)

def enabledConfig : Option GasSponsorshipConfig → Except ApiError GasSponsorshipConfig
  | some c =>
    if c.enabled then .ok c
    else .error (.forbidden "gas sponsorship is not enabled for this wallet")
  | none => .error (.forbidden "gas sponsorship is not enabled for this wallet")

/-- The checks against the configuration and the wallet: the fee cap, the operations, the gas tank.
-/
def checkWallet (out : Outside) (innerXdr : String) (maxFee : Int) (wallet : SealedWallet)
    (config : GasSponsorshipConfig) : Except ApiError Unit := do
  if config.perTxFeeCapStroops.any (fun cap => decide (cap < maxFee)) then
    throw (.badRequest ("max_base_fee_stroops exceeds the per-transaction cap of "
      ++ toString (config.perTxFeeCapStroops.getD 0)))
  validateInnerXdr out.strkey out.xdr innerXdr wallet.stellarAccountG config.allowedOperations
  if wallet.sealedCiphertext.isNone || wallet.sealedNonce.isNone || wallet.sealedSalt.isNone then
    throw (.forbidden ("this wallet is client-custody and has no gas-tank account to pay fees "
      ++ "from; provision and fund a gas tank to enable sponsorship"))

/-- What `account_sequence` answers, as the endpoint reports it. -/
def mapUnfunded {α : Type} : Except ApiError α → Except ApiError α
  | .error .notFound => .error (.badRequest
      "This wallet is not funded on-chain yet. Fund it with XLM (testnet friendbot) first.")
  | r => r

def checkSequence (out : Outside) (innerXdr : String) (liveSeq : Int) : Except ApiError String :=
  match out.xdr.innerSequenceNumber innerXdr with
  | none => .error (.badRequest "invalid input")
  | some innerSeq =>
    if innerSeq ≤ liveSeq then
      .error (.staleSequence
        "Stale sequence number — refresh signing info and rebuild the transaction.")
    else
      match out.xdr.computeInnerTxHash innerXdr with
      | some hash => .ok (hexEncode hash)
      | none => .error .internal

abbrev SponsorM (α : Type) := ExceptT ApiError (Prog Op Ans) α

structure Preflight where
  wallet : SealedWallet
  config : GasSponsorshipConfig
  innerXdr : String
  maxFee : Int
  innerHashHex : String
  deriving DecidableEq

def check {α : Type} (r : Except ApiError α) : SponsorM α := ExceptT.mk (.ret r)

def orInternal {α : Type} : Except StoreError α → Except ApiError α :=
  Except.mapError (fun _ => .internal)

def preflight (out : Outside) (walletId : Uuid) (req : SponsorRequest) : SponsorM Preflight := do
  let (innerXdr, maxFee) ← check (checkRequest req)
  let wallet ← Prog.tryCall (.getWallet walletId) fromStore
  if wallet.archivedAt.isSome then throw (.forbidden "wallet is archived")
  else
    let config ← Prog.tryCall (.getGasSponsorshipConfig walletId) orInternal
    let config ← check (enabledConfig config)
    check (checkWallet out innerXdr maxFee wallet config)
    let liveSeq ← ExceptT.mk (horizon (out.client.accountSequence wallet.stellarAccountG) >>=
      fun r => .ret (mapUnfunded r))
    let innerHashHex ← check (checkSequence out innerXdr liveSeq)
    return ⟨wallet, config, innerXdr, maxFee, innerHashHex⟩

/-! ### Reservation -/

abbrev ReserveM (α : Type) := ExceptT StoreError (Prog Op Ans) α

/-- `?` inside the transaction: it is rolled back when it is dropped. -/
def orRollback {α : Type} (tx : Nat) (p : Prog Op Ans (Except StoreError α)) : ReserveM α :=
  ExceptT.mk (p >>= fun r =>
    match r with
    | .ok v => .ret (.ok v)
    | .error e => do
      let _ ← ask (.rollback tx)
      return .error e)

def tryReserve (walletId : Uuid) (innerTxHash : String) (feeStroops : Int)
    (dailyBudget : Option Int) : ReserveM SponsoredTransaction := do
  let tx ← Prog.tryCall .begin id
  orRollback tx (ask (.advisoryXactLock tx (sponsorLockKey walletId)))
  orRollback tx (ask (.reserveSnapshot tx walletId))
  let row ← orRollback tx (ask (.reserveInsert tx walletId innerTxHash feeStroops dailyBudget))
  -- committed also when there is no row
  orRollback tx (ask (.commit tx))
  match row with
  | some row => return row
  | none => throw .budgetExceeded

/-! ### Signing and submission -/

inductive Signing
  | noGasTank
  | malformed
  | failed
  | signed (envelopeXdr : String)
  deriving DecidableEq

/-- The wallet's sealed seed, opened with each key of the server until one signs. -/
def signWith (out : Outside) (wallet : SealedWallet) (innerXdr : String) (maxFee : Int) : Signing :=
  match wallet.sealedCiphertext, wallet.sealedNonce, wallet.sealedSalt with
  | some ciphertext, some nonce, some salt =>
    match toU8 (wallet.sealedScheme.getD 1) with
    | none => .malformed
    | some scheme =>
      match SealedSeed.fromPartsWithScheme ciphertext nonce salt scheme with
      | .error _ => .malformed
      | .ok s =>
        match out.keys.openingKeys.findSome? (fun key =>
            signFeeBump out.aead out.xdr out.feeBumps key s out.network 0 innerXdr maxFee) with
        | some xdr => .signed xdr
        | none => .failed
  | _, _, _ => .noGasTank

structure SponsorResponse where
  id : Uuid
  status : TxStatus
  innerTxHash : String
  feeBumpTxHash : Option String
  feeStroops : Int
  deriving DecidableEq

def finalStatus : Except ApiError SubmitResult → TxStatus × Option String
  | .ok r => if r.successful then (.confirmed, some r.hash) else (.failed, some r.hash)
  | .error _ => (.failed, none)

/-- The end of `sponsor`: submit, and finalise whatever the outcome. -/
def submitAndFinalize (out : Outside) (p : Preflight) (reserved : SponsoredTransaction)
    (envelopeXdr : String) : Prog Op Ans SponsorResponse := do
  let submit ← horizon (out.client.submitTransaction envelopeXdr)
  let (status, feeBumpHash) := finalStatus submit
  let _ ← ask (.finalize reserved.id status feeBumpHash none)
  return ⟨reserved.id, status, p.innerHashHex, feeBumpHash, p.maxFee⟩

def giveUp (reserved : SponsoredTransaction) (error : String) : SponsorM SponsorResponse := do
  let _ ← (ask (.finalize reserved.id .failed none (some error)) : Prog Op Ans _)
  throw .internal

def signAndSubmit (out : Outside) (p : Preflight) (reserved : SponsoredTransaction) :
    SponsorM SponsorResponse :=
  match signWith out p.wallet p.innerXdr p.maxFee with
  | .noGasTank => giveUp reserved "no gas tank"
  -- the row stays pending
  | .malformed => throw .internal
  | .failed => giveUp reserved "signing failed"
  | .signed envelopeXdr => submitAndFinalize out p reserved envelopeXdr

def sponsor (out : Outside) (walletId : Uuid) (req : SponsorRequest) : SponsorM SponsorResponse :=
  do
  let p ← preflight out walletId req
  let reserved ← ExceptT.mk ((tryReserve walletId p.innerHashHex p.maxFee
    p.config.dailyBudgetStroops).run >>= fun r => .ret (fromStore r))
  signAndSubmit out p reserved

/-! ### The dry run -/

/-- `dry_run`: `preflight`, and the dedup and budget guards evaluated without reserving. -/
def dryRun (out : Outside) (walletId : Uuid) (req : SponsorRequest) :
    SponsorM (Preflight × Option Int) := do
  let p ← preflight out walletId req
  let (spentToday, alreadySponsored) ← Prog.tryCall (.sponsorshipProjection walletId p.innerHashHex)
    fromStore
  if alreadySponsored then throw (.ofStore .conflict)
  else
    match p.config.dailyBudgetStroops with
    | some budget =>
      let left := wrapI64 (wrapI64 (budget - spentToday) - p.maxFee)
      if left < 0 then throw (.ofStore .budgetExceeded)
      else return (p, some left)
    | none => return (p, none)

def isVerdict (status : Nat) : Bool := 400 ≤ status && status < 500 && status != 401

inductive Verdict
  | accepted
  | rejected
  deriving DecidableEq

structure SponsorValidateResponse where
  verdict : Verdict
  reason : Option String
  rejectionStatus : Option Nat
  rejectionCode : Option String
  projectedFeeStroops : Option Int
  innerTxHash : Option String
  budgetRemainingStroops : Option Int
  deriving DecidableEq

def validateResponse (req : SponsorRequest) :
    Except ApiError (Preflight × Option Int) → Except ApiError SponsorValidateResponse
  | .ok (p, budgetRemaining) =>
    .ok ⟨.accepted, none, none, none, some p.maxFee, some p.innerHashHex, budgetRemaining⟩
  | .error e =>
    if !isVerdict e.parts.1 then .error e
    else
      .ok ⟨.rejected, some e.parts.2, some e.parts.1, e.code,
        req.maxBaseFeeStroops.filter (fun f => decide (0 < f)), none, none⟩

def validateSponsor (out : Outside) (walletId : Uuid) (req : SponsorRequest) :
    SponsorM SponsorValidateResponse :=
  ExceptT.mk ((dryRun out walletId req).run >>= fun r => .ret (validateResponse req r))

/-- The sweep of the server: `reconcile_stale_pending_sponsorships`. -/
def reconcileStalePending (olderThan : Nat) : Prog Op Ans Unit := do
  let _ ← ask (.reconcileStale olderThan)

end Octo.Sponsor
