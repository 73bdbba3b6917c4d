import Octo.Conc.Prog
import Octo.Ingest.Horizon
import Octo.Store.Call
import Octo.Store.Ingest
import Octo.Store.PaymentLinks
import Octo.Wallet.Address

/-!
# The calls of ingest and of the payment-link routes

Everything the modelled code does outside its own memory: store calls, Horizon requests, webhook
dispatch and the host clock.  `exec` is the effect of one call, with the `Choice` of
`Store/Call.lean`; in a call that is no store call, `served n` is answered too, and `n` is the host
clock reading, the number of records in the page, or whether a stream yields a record.
-/

namespace Octo.Ingest

/-- The webhook events that ingest and the payment-link routes dispatch, with the rows they are
built from. -/
inductive WebhookEvent
  | depositCreated (tx : Transaction) (metadata : Option String)
  | paid (link : PaymentLink) (payment : PaymentLinkPayment) (tx : Transaction)
  | mismatched (link : PaymentLink) (payment : PaymentLinkPayment) (tx : Transaction)
      (status : Db.Mismatch)
  | expired (link : PaymentLink) (payment : PaymentLinkPayment)
  | cancelled (link : PaymentLink) (payment : PaymentLinkPayment)

/-- `HorizonError`: the code only tells a failure from an answer. -/
inductive HorizonError
  | request
  deriving DecidableEq

inductive Op
  -- host clock: `SystemTime::now()` in unix seconds, `chrono::Utc::now()` as a timestamp
  | systemTime
  | utcNow
  -- Horizon
  | paymentsAfter (accountG : String) (cursor : Option String) (limit : Nat)
  | openPaymentStream (accountG cursor : String)
  | nextRecord (accountG last : String)
  | claimCredit (opId accountG : String)
  | claimableBalanceOrigin (balanceId : String)
  -- webhooks
  | dispatch (walletId : Uuid) (event : WebhookEvent)
  -- cursors and deposits
  | getCursor (walletId : Uuid)
  | setCursor (walletId : Uuid) (token : String)
  | markPolled (walletId : Uuid)
  | recordDeposit (d : NewDeposit)
  -- wallets and addresses
  | getWallet (id : Uuid)
  | getAddress (id : Uuid)
  | addressByMuxedId (walletId : Uuid) (muxedId : Int)
  | allocateAddress (walletId : Uuid) (base : String) (customerRef : Option String)
      (metadata : String)
  -- links
  | createPaymentLink (l : NewPaymentLink)
  | getPaymentLink (walletId id : Uuid)
  | getPaymentLinkBySlug (slug : String)
  | getPaymentLinkById (id : Uuid)
  | getPaymentLinkByAddress (addressId : Uuid)
  | setPaymentLinkActive (walletId id : Uuid) (active : Bool)
  | updateUnpaidPaymentLink (walletId id : Uuid) (u : PaymentLinkUpdate)
  | cancelPaymentLink (walletId id : Uuid)
  -- payments
  | recordPaymentLinkIntent (linkId : Uuid) (payerName payerEmail : Option String) (amount : Int)
      (addressId : Option Uuid)
  | pendingPaymentByAddress (addressId : Uuid)
  | oldestPendingPaymentLinkPayment (linkId : Uuid)
  | confirmPaymentLinkPayment (id transactionId : Uuid)
  | markPaymentLinkPaymentMismatched (id transactionId : Uuid) (m : Db.Mismatch)
  | expireStalePaymentLinkPayments

abbrev Ans : Op → Type
  | .systemTime => Nat
  | .utcNow => Time
  | .paymentsAfter .. => Except HorizonError (List PaymentRecord)
  | .openPaymentStream .. => Except HorizonError Unit
  | .nextRecord .. => Except HorizonError (Option PaymentRecord)
  | .claimCredit .. => Except HorizonError (Option ClaimCredit)
  | .claimableBalanceOrigin .. => Except HorizonError (Option ClaimOrigin)
  | .dispatch .. => Unit
  | .getCursor .. => Except StoreError (Option String)
  | .setCursor .. => Except StoreError Unit
  | .markPolled .. => Except StoreError Unit
  | .recordDeposit .. => Except StoreError (Option Transaction)
  | .getWallet .. => Except StoreError Wallet
  | .getAddress .. => Except StoreError (Option Address)
  | .addressByMuxedId .. => Except StoreError (Option Address)
  | .allocateAddress .. => Except StoreError Address
  | .createPaymentLink .. => Except StoreError PaymentLink
  | .getPaymentLink .. => Except StoreError PaymentLink
  | .getPaymentLinkBySlug .. => Except StoreError PaymentLink
  | .getPaymentLinkById .. => Except StoreError (Option PaymentLink)
  | .getPaymentLinkByAddress .. => Except StoreError (Option PaymentLink)
  | .setPaymentLinkActive .. => Except StoreError (Option PaymentLink)
  | .updateUnpaidPaymentLink .. => Except StoreError (Option PaymentLink)
  | .cancelPaymentLink .. => Except StoreError (PaymentLink × List PaymentLinkPayment)
  | .recordPaymentLinkIntent .. => Except StoreError PaymentLinkPayment
  | .pendingPaymentByAddress .. => Except StoreError (Option PaymentLinkPayment)
  | .oldestPendingPaymentLinkPayment .. => Except StoreError (Option PaymentLinkPayment)
  | .confirmPaymentLinkPayment .. => Except StoreError Bool
  | .markPaymentLinkPaymentMismatched .. => Except StoreError Bool
  | .expireStalePaymentLinkPayments => Except StoreError (List PaymentLinkPayment)

abbrev ask (o : Op) : Conc.Prog Op Ans (Ans o) := .perform o

def askHorizon {α : Type} (answer : Nat → α) (ch : Choice) (db : Db) :
    Option (Except HorizonError α × Db) :=
  match ch with
  | .served n => some (.ok (answer n), db)
  | _ => some (.error .request, db)

/-- Everything outside the repository: Horizon, the strkey codec, the URL parser (the scheme of
an absolute URL) and a lower bound on the readings of the host clock. -/
structure Outside where
  horizon : Horizon
  strkey : Strkey
  urlScheme : String → Option String
  clockFloor : Nat

/-- The caller's closure for `allocate_address`: `encode_muxed(&base, u64::try_from(id)?)`. -/
def Outside.deriveMuxed (out : Outside) (base : String) (id : Int) : Option String :=
  if 0 ≤ id then out.strkey.encodeMuxed base id.toNat else none

def exec (out : Outside) : (o : Op) → Choice → Db → Option (Ans o × Db)
  | .systemTime, ch, db =>
    match ch with
    | .served n => if out.clockFloor ≤ n then some (n, db) else none
    | _ => none
  | .utcNow, ch, db =>
    match ch with
    | .served n => some (n, db)
    | _ => none
  | .paymentsAfter acct cursor limit, ch, db =>
    askHorizon (fun n => (out.horizon.after acct cursor).take (min n limit)) ch db
  | .openPaymentStream _ _, ch, db => askHorizon (fun _ => ()) ch db
  | .nextRecord acct last, ch, db =>
    -- `served 0`: the stream was closed, went idle, or the task was shut down
    askHorizon (fun n => ((out.horizon.after acct (some last)).take n).head?) ch db
  | .claimCredit opId acct, ch, db =>
    askHorizon (fun _ => claimCreditOf (out.horizon.effects opId) acct) ch db
  | .claimableBalanceOrigin id, ch, db =>
    askHorizon (fun _ => claimableBalanceOriginOf (out.horizon.balanceOperations id)) ch db
  | .dispatch _ _, _, db => some ((), db)
  | .getCursor w, ch, db => storeRead (fun _ db => .ok (db.getCursor w)) ch db
  | .setCursor w token, ch, db => store (fun _ db => (.ok (), db.setCursor w token)) ch db
  | .markPolled w, ch, db => store (fun _ db => (.ok (), db.markPolled w)) ch db
  | .recordDeposit d, ch, db => store (fun _ db => db.recordDeposit d) ch db
  | .getWallet id, ch, db => storeRead (fun _ db => db.getWallet id) ch db
  | .getAddress id, ch, db => storeRead (fun _ db => .ok (db.getAddress id)) ch db
  | .addressByMuxedId w id, ch, db => storeRead (fun _ db => .ok (db.addressByMuxedId w id)) ch db
  | .allocateAddress w base ref md, ch, db =>
    store (fun _ db => db.allocateAddress w (out.deriveMuxed base) ref md) ch db
  | .createPaymentLink l, ch, db => store (fun _ db => db.createPaymentLink l) ch db
  | .getPaymentLink w id, ch, db => storeRead (fun _ db => db.getPaymentLink w id) ch db
  | .getPaymentLinkBySlug slug, ch, db => storeRead (fun _ db => db.getPaymentLinkBySlug slug) ch db
  | .getPaymentLinkById id, ch, db => storeRead (fun _ db => .ok (db.getPaymentLinkById id)) ch db
  | .getPaymentLinkByAddress a, ch, db =>
    storeRead (fun _ db => .ok (db.getPaymentLinkByAddress a)) ch db
  | .setPaymentLinkActive w id active, ch, db =>
    store (fun _ db => let r := db.setPaymentLinkActive w id active; (.ok r.1, r.2)) ch db
  | .updateUnpaidPaymentLink w id u, ch, db =>
    store (fun _ db => let r := db.updateUnpaidPaymentLink w id u; (.ok r.1, r.2)) ch db
  | .cancelPaymentLink w id, ch, db => store (fun _ db => db.cancelPaymentLink w id) ch db
  | .recordPaymentLinkIntent l n e amt a, ch, db =>
    store (fun _ db => let r := db.recordPaymentLinkIntent l n e amt a; (.ok r.1, r.2)) ch db
  | .pendingPaymentByAddress a, ch, db =>
    storeRead (fun n db => .ok (db.pendingPaymentByAddress a n)) ch db
  | .oldestPendingPaymentLinkPayment l, ch, db =>
    storeRead (fun n db => .ok (db.oldestPendingPaymentLinkPayment l n)) ch db
  | .confirmPaymentLinkPayment p t, ch, db =>
    store (fun _ db => let r := db.confirmPaymentLinkPayment p t; (.ok r.1, r.2)) ch db
  | .markPaymentLinkPaymentMismatched p t m, ch, db =>
    store (fun _ db => let r := db.markPaymentLinkPaymentMismatched p t m; (.ok r.1, r.2)) ch db
  | .expireStalePaymentLinkPayments, ch, db =>
    store (fun _ db => let r := db.expireStalePaymentLinkPayments; (.ok r.1, r.2)) ch db

end Octo.Ingest
