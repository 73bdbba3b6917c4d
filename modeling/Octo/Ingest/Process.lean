import Octo.Ingest.Calls

/-!
# The ingest worker

`crates/ingest/src/lib.rs` and `stream.rs`: what one operation record is turned into (`process`),
how a recorded deposit settles a payment-link payment (`confirmPaymentLink`), and the three ways
records arrive: one page (`pollOnce`), the page task of a supervisor tick (`pageTask`) and a stream
session (`streamSession`).  A function that returns a `Result` is a program in `IngestM`, and `?` is
`Prog.tryCall`.

A stream session ends when the task is shut down, which may be between any two records: it is
given the number of records it lives for.
-/

namespace Octo.Ingest

open Conc

inductive IngestError
  | store (e : StoreError)
  | horizon
  deriving DecidableEq

abbrev IngestM := ExceptT IngestError (Prog Op Ans)

def fromStore {α : Type} : Except StoreError α → Except IngestError α :=
  Except.mapError .store

def fromHorizon {α : Type} : Except HorizonError α → Except IngestError α :=
  Except.mapError (fun _ => .horizon)

inductive Processed
  | recorded (attributed : Bool)
  | duplicate
  | failedTransaction
  | skipped
  deriving DecidableEq

/-- The ingest worker for one master wallet; `webhooks` says whether a sender is attached. -/
structure Ingestor where
  walletId : Uuid
  accountG : String
  webhooks : Bool
  deriving DecidableEq

def usdcTestnetIssuer : String := "GBBD47IF6LWK7P7MDEVSCWR7DPUWV3NY3DTQEVFL4NAT4AQH3ZLLFLA5"

/-! ### What a record credits -/

structure Credit where
  amount : String
  assetType : Option String
  assetCode : Option String
  assetIssuer : Option String
  sourceAccount : Option String
  destinationAccount : Option String
  customerId : Option Int
  memoId : Option Int
  deriving DecidableEq

def claimKind : String := "claim_claimable_balance"

def isHexDigit (c : Char) : Bool :=
  isAsciiDigit c || (65 ≤ c.toNat && c.toNat ≤ 70) || (97 ≤ c.toNat && c.toNat ≤ 102)

def isBalanceId (id : String) : Bool :=
  !id.toList.isEmpty && decide (id.toList.length ≤ 80) && id.toList.all isHexDigit

def isFromSuccessfulTx (rec : PaymentRecord) : Bool := rec.transactionSuccessful

def isPathPayment (kind : String) : Bool :=
  kind == "path_payment_strict_send" || kind == "path_payment_strict_receive"

def isCreditKind (kind : String) : Bool :=
  kind == "payment" || kind == "create_account" || isPathPayment kind

def creditedAmount (rec : PaymentRecord) : Option String :=
  if rec.kind == "create_account" then rec.startingBalance else rec.amount

def memoIdOfTx (tx : TransactionRecord) : Option Int :=
  if tx.memoType != some "id" then none else tx.memo.bind (fun m => parseI64 m.toList)

def memoId (rec : PaymentRecord) : Option Int := rec.transaction.bind memoIdOfTx

def muxedId (sk : Strkey) (g : Ingestor) (rec : PaymentRecord) : Option Int := do
  let muxed ← rec.dstMuxed
  let decoded ← sk.decodeMuxed muxed
  if sk.baseAccount decoded != g.accountG then none
  else if (decoded.id : Int) ≤ i64Max then some decoded.id else none

def attributeTo (sk : Strkey) (g : Ingestor) (rec : PaymentRecord) : Option Int :=
  (muxedId sk g rec).or (memoId rec)

/-- The credit carried directly by a payment, path payment or account creation. -/
def directCredit (sk : Strkey) (g : Ingestor) (rec : PaymentRecord) : Option Credit :=
  if !isCreditKind rec.kind then none
  else if rec.dst != some g.accountG then none
  -- a path payment to ourselves is an asset conversion
  else if isPathPayment rec.kind && rec.src == some g.accountG then none
  else some {
    amount := (creditedAmount rec).getD ""
    assetType := rec.assetType
    assetCode := rec.assetCode
    assetIssuer := rec.assetIssuer
    sourceAccount := rec.src
    destinationAccount := rec.dstMuxed.or rec.dst
    customerId := attributeTo sk g rec
    memoId := memoId rec }

/-- The credit from a claimed balance, once Horizon has told what was credited and who created the
balance; reclaiming our own balance is not a deposit. -/
def claimedCredit (g : Ingestor) (rec : PaymentRecord) (credited : ClaimCredit)
    (origin : Option ClaimOrigin) : Option Credit :=
  let creator := origin.bind (·.sourceAccount)
  if creator == some g.accountG then none
  else
    let memoId := (origin.bind (·.transaction)).bind memoIdOfTx
    some {
      amount := credited.amount
      assetType := credited.assetType
      assetCode := credited.assetCode
      assetIssuer := credited.assetIssuer
      sourceAccount := creator
      destinationAccount := rec.claimant
      customerId := memoId
      memoId := memoId }

def claimCredit (g : Ingestor) (rec : PaymentRecord) : IngestM (Option Credit) := do
  if rec.claimant != some g.accountG then pure none
  else
    match rec.balanceId.filter isBalanceId with
    | none => pure none
    | some balanceId =>
      match ← Prog.tryCall (.claimCredit rec.id g.accountG) fromHorizon with
      | none => pure none
      | some credited =>
        let origin ← Prog.tryCall (.claimableBalanceOrigin balanceId) fromHorizon
        pure (claimedCredit g rec credited origin)

/-! ### Recording -/

def assetOf (credit : Credit) : String × Option String :=
  match credit.assetType with
  | some "native" | none => ("native", none)
  | _ => (credit.assetCode.getD "unknown", credit.assetIssuer)

/-- The id of the record's operation, checked against the ledger of its transaction. -/
def plausibleToid (rec : PaymentRecord) (maxLedger : Nat) : Option Toid :=
  (decodeToid rec.id maxLedger).filter (fun t =>
    (rec.transaction.bind (·.ledger)).all (fun l => (t.ledger : Int) == l))

def newDeposit (g : Ingestor) (rec : PaymentRecord) (toid : Toid) (credit : Credit) (stroops : Int)
    (addressId : Option Uuid) : NewDeposit where
  walletId := g.walletId
  addressId := addressId
  assetCode := (assetOf credit).1
  assetIssuer := (assetOf credit).2
  amountStroops := stroops
  sourceAccount := credit.sourceAccount
  destinationAccount := credit.destinationAccount
  stellarTxHash := rec.transactionHash.getD ""
  operationIndex := toid.operationIndex
  horizonOpId := rec.id
  ledger := rec.transaction.bind (·.ledger)
  memoId := credit.memoId

def addressMetadata : Option Uuid → Prog Op Ans (Option String)
  | some id => do
    match ← ask (.getAddress id) with
    | .ok (some a) => pure (some a.metadata)
    | _ => pure none
  | none => pure none

/-- `deposit.created`, with the metadata of the customer's address. -/
def fireDepositWebhook (g : Ingestor) (tx : Transaction) : Prog Op Ans Unit := do
  if !g.webhooks then pure ()
  else
    let metadata ← addressMetadata tx.addressId
    ask (.dispatch g.walletId (.depositCreated tx metadata))

/-- Settle `payment` with the deposit: an exact amount confirms, anything else is a mismatch.
Only the call that flipped the row notifies. -/
def settlePayment (g : Ingestor) (tx : Transaction) (link : PaymentLink)
    (payment : PaymentLinkPayment) : Prog Op Ans Unit := do
  if link.isClosedAt tx.createdAt then pure ()
  else if tx.amountStroops ≠ payment.amountUsdcStroops then
    let status := if tx.amountStroops < payment.amountUsdcStroops then .underpaid else .overpaid
    match ← ask (.markPaymentLinkPaymentMismatched payment.id tx.id status) with
    | .ok true =>
      if g.webhooks then ask (.dispatch g.walletId (.mismatched link payment tx status))
      else pure ()
    | _ => pure ()
  else
    match ← ask (.confirmPaymentLinkPayment payment.id tx.id) with
    | .ok true =>
      if g.webhooks then ask (.dispatch g.walletId (.paid link payment tx)) else pure ()
    | _ => pure ()

/-- Match a deposit to a payment: first by the intent's own address, else the oldest pending
payment of the link whose shared address it is. -/
def confirmPaymentLink (g : Ingestor) (tx : Transaction) : Prog Op Ans Unit := do
  if tx.assetCode != "USDC" || tx.assetIssuer != some usdcTestnetIssuer then pure ()
  else
    match tx.addressId with
    | none => pure ()
    | some addressId =>
      match ← ask (.pendingPaymentByAddress addressId) with
      | .ok (some payment) =>
        match ← ask (.getPaymentLink g.walletId payment.paymentLinkId) with
        | .ok link => settlePayment g tx link payment
        | .error _ => pure ()
      | _ =>
        match ← ask (.getPaymentLinkByAddress addressId) with
        | .ok (some link) =>
          match ← ask (.oldestPendingPaymentLinkPayment link.id) with
          | .ok (some payment) => settlePayment g tx link payment
          | _ => pure ()
        | _ => pure ()

def attributed (g : Ingestor) (customerId : Option Int) : IngestM (Option Uuid) := do
  match customerId with
  | some id =>
    let a ← Prog.tryCall (.addressByMuxedId g.walletId id) fromStore
    pure (a.map (·.id))
  | none => pure none

/-- Record a credit as a deposit, and on the first insert notify and settle. -/
def recordCredit (g : Ingestor) (rec : PaymentRecord) (toid : Toid) (credit : Credit)
    (stroops : Int) : IngestM Processed := do
  let addressId ← attributed g credit.customerId
  match ← Prog.tryCall (.recordDeposit (newDeposit g rec toid credit stroops addressId))
    fromStore with
  | some tx =>
    fireDepositWebhook g tx
    confirmPaymentLink g tx
    pure (.recorded addressId.isSome)
  | none => pure .duplicate

def creditFor (sk : Strkey) (g : Ingestor) (rec : PaymentRecord) : IngestM (Option Credit) :=
  if rec.kind == claimKind then claimCredit g rec else pure (directCredit sk g rec)

def process (sk : Strkey) (g : Ingestor) (rec : PaymentRecord) : IngestM Processed := do
  if !isFromSuccessfulTx rec then pure .failedTransaction
  else
    let now ← Prog.tryCall .systemTime .ok
    match plausibleToid rec (plausibleMaxLedger now) with
    | none => pure .skipped
    | some toid =>
      match ← creditFor sk g rec with
      | none => pure .skipped
      | some credit =>
        match toStroops credit.amount with
        | none => pure .skipped
        | some stroops =>
          if stroops ≤ 0 then pure .skipped else recordCredit g rec toid credit stroops

/-! ### How records arrive -/

def ingestRecord (sk : Strkey) (g : Ingestor) (rec : PaymentRecord) : IngestM Unit := do
  let _ ← process sk g rec
  Prog.tryCall (.setCursor g.walletId rec.pagingToken) fromStore

/-- The loop of `poll_once` over a page, with the number of records done. -/
def ingestPage (sk : Strkey) (g : Ingestor) : List PaymentRecord → Nat → IngestM Nat
  | [], count => pure count
  | rec :: rest, count => do
    ingestRecord sk g rec
    ingestPage sk g rest (count + 1)

def pollOnce (sk : Strkey) (g : Ingestor) (limit : Nat) : IngestM Nat := do
  let cursor ← Prog.tryCall (.getCursor g.walletId) fromStore
  let records ← Prog.tryCall (.paymentsAfter g.accountG cursor limit) fromHorizon
  ingestPage sk g records 0

/-- The page task of a supervisor tick: one page, and the poll is marked whatever came of it. -/
def pageTask (sk : Strkey) (g : Ingestor) (limit : Nat) : Prog Op Ans Unit := do
  let _ ← (pollOnce sk g limit).run
  let _ ← ask (.markPolled g.walletId)
  pure ()

/-- The loop of `stream_session`; `last` is the position of the open stream. -/
def streamLoop (sk : Strkey) (g : Ingestor) : Nat → String → IngestM Unit
  | 0, _ => pure ()
  | n + 1, last => do
    match ← Prog.tryCall (.nextRecord g.accountG last) fromHorizon with
    | none => pure ()
    | some rec =>
      ingestRecord sk g rec
      streamLoop sk g n rec.pagingToken

def streamSession (sk : Strkey) (g : Ingestor) (lifetime : Nat) : IngestM Unit := do
  let cursor ← Prog.tryCall (.getCursor g.walletId) fromStore
  -- "0" replays from the start, never "now"
  let cursor := cursor.getD "0"
  Prog.tryCall (.openPaymentStream g.accountG cursor) fromHorizon
  streamLoop sk g lifetime cursor

end Octo.Ingest
