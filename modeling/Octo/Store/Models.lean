import Mathlib.Algebra.Order.Ring.Int
import Octo.Keyset.Rows

/-!
# Row types of the store

The rows of the Postgres tables (`crates/store/src/models.rs` and the migrations), as far
as the modelled functions read or write them.

* A text column with a `CHECK (... IN ...)` is an enumeration: a value outside it cannot be stored.
-/

namespace Octo

abbrev Uuid := Nat
abbrev Time := Nat

def i64Max : Int := 9223372036854775807

def i64Min : Int := -9223372036854775808

/-- `i64` arithmetic in a release build, which wraps around. -/
def wrapI64 (n : Int) : Int := n.bmod (2 ^ 64)

inductive StoreError
  | database
  | migration
  | conflict
  | notFound
  | budgetExceeded
  | invalidOtp
  | invalidMemoId
  | walletArchived
  | duplicateCustomerRef
  | auditChainCorrupt
  deriving DecidableEq

/-- A master wallet; `stellarAccountG` is `UNIQUE`. -/
structure Wallet where
  id : Uuid
  stellarAccountG : String
  nextMuxedId : Int
  archivedAt : Option Time
  deriving DecidableEq

structure Address where
  id : Uuid
  walletId : Uuid
  muxedId : Int
  muxedAddress : String
  customerRef : Option String
  metadata : String
  createdAt : Time
  deriving DecidableEq

inductive Direction
  | deposit
  | withdrawal
  deriving DecidableEq

inductive TxStatus
  | pending
  | confirmed
  | failed
  deriving DecidableEq

/-- The keys of `transactions.metadata` that the code reads or writes. -/
structure TxMetadata where
  maxTime : Option Int := none
  reconcileReason : Option String := none
  deriving DecidableEq

structure Transaction where
  id : Uuid
  walletId : Uuid
  addressId : Option Uuid
  direction : Direction
  assetCode : String
  assetIssuer : Option String
  amountStroops : Int
  sourceAccount : Option String
  destinationAccount : Option String
  stellarTxHash : Option String
  operationIndex : Option Int
  horizonOpId : Option String
  ledger : Option Int
  memoId : Option Int
  status : TxStatus
  metadata : TxMetadata
  createdAt : Time
  deriving DecidableEq

structure NewDeposit where
  walletId : Uuid
  addressId : Option Uuid
  assetCode : String
  assetIssuer : Option String
  amountStroops : Int
  sourceAccount : Option String
  destinationAccount : Option String
  stellarTxHash : String
  operationIndex : Int
  horizonOpId : String
  ledger : Option Int
  memoId : Option Int
  deriving DecidableEq

/-- A row of `ingest_cursor`; the paging token is null until the first record. -/
structure IngestCursor where
  walletId : Uuid
  pagingToken : Option String
  updatedAt : Time
  lastPolledAt : Option Time
  deriving DecidableEq

structure PaymentLink where
  id : Uuid
  walletId : Uuid
  addressId : Uuid
  slug : String
  name : String
  description : Option String
  imageUrl : Option String
  redirectUrl : Option String
  amountUsdcStroops : Option Int
  active : Bool
  createdAt : Time
  updatedAt : Time
  expiresAt : Option Time
  cancelledAt : Option Time
  deriving DecidableEq

namespace PaymentLink

def isClosedAt (link : PaymentLink) (now : Time) : Bool :=
  link.cancelledAt.isSome || link.expiresAt.any (fun e => e ≤ now)

inductive Status
  | cancelled
  | expired
  | active
  | inactive
  deriving DecidableEq

/-- Lifecycle state: `cancelled` and `expired` win over the `active` toggle. -/
def statusAt (link : PaymentLink) (now : Time) : Status :=
  if link.cancelledAt.isSome then .cancelled
  else if link.expiresAt.any (fun e => e ≤ now) then .expired
  else if link.active then .active
  else .inactive

end PaymentLink

inductive PaymentStatus
  | pending
  | confirmed
  | expired
  | underpaid
  | overpaid
  | cancelled
  deriving DecidableEq

structure PaymentLinkPayment where
  id : Uuid
  paymentLinkId : Uuid
  transactionId : Option Uuid
  addressId : Option Uuid
  payerName : Option String
  payerEmail : Option String
  amountUsdcStroops : Int
  status : PaymentStatus
  createdAt : Time
  deriving DecidableEq

structure NewPaymentLink where
  walletId : Uuid
  addressId : Uuid
  slug : String
  name : String
  description : Option String
  imageUrl : Option String
  redirectUrl : Option String
  amountUsdcStroops : Option Int
  expiresAt : Option Time
  deriving DecidableEq

/-- Owner edits: outer `none` keeps a field, `some none` clears it. -/
structure PaymentLinkUpdate where
  description : Option (Option String) := none
  redirectUrl : Option (Option String) := none
  amountUsdcStroops : Option (Option Int) := none
  deriving DecidableEq

/-- The tables that deposit ingest and payment links work on, with the database clock and
the source of fresh ids. -/
structure Db where
  now : Time
  nextId : Uuid
  wallets : List Wallet
  addresses : List Address
  transactions : List Transaction
  cursors : List IngestCursor
  links : List PaymentLink
  payments : List PaymentLinkPayment

end Octo
