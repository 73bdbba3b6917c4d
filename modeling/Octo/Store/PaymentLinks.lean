import Octo.Store.Models

/-!
# Payment links in the store

`crates/store/src/payment_links.rs`.  Every write to a payment row is guarded by
`status = 'pending'`; `settlePayments` is that statement, and each of the writers below changes a
payment only through it.

`ORDER BY created_at LIMIT 1` leaves ties open, so the two lookups of the oldest pending
payment take the index of the row that Postgres happens to return among the oldest ones.
-/

namespace Octo

namespace Db

/-! ### Links -/

def linkRow (db : Db) (l : NewPaymentLink) : PaymentLink where
  id := db.nextId
  walletId := l.walletId
  addressId := l.addressId
  slug := l.slug
  name := l.name
  description := l.description
  imageUrl := l.imageUrl
  redirectUrl := l.redirectUrl
  amountUsdcStroops := l.amountUsdcStroops
  active := true
  createdAt := db.now
  updatedAt := db.now
  expiresAt := l.expiresAt
  cancelledAt := none

/-- `Store::create_payment_link`; slugs are unique. -/
def createPaymentLink (l : NewPaymentLink) (db : Db) : Except StoreError PaymentLink × Db :=
  if db.links.any (fun k => k.slug == l.slug) then (.error .conflict, db)
  else (.ok (db.linkRow l),
    { db with nextId := db.nextId + 1, links := db.links ++ [db.linkRow l] })

def getPaymentLink (walletId id : Uuid) (db : Db) : Except StoreError PaymentLink :=
  match db.links.find? (fun l => l.id == id && l.walletId == walletId) with
  | some l => .ok l
  | none => .error .notFound

def getPaymentLinkBySlug (slug : String) (db : Db) : Except StoreError PaymentLink :=
  match db.links.find? (fun l => l.slug == slug) with
  | some l => .ok l
  | none => .error .notFound

def getPaymentLinkById (id : Uuid) (db : Db) : Option PaymentLink :=
  db.links.find? (fun l => l.id == id)

def getPaymentLinkByAddress (addressId : Uuid) (db : Db) : Option PaymentLink :=
  db.links.find? (fun l => l.addressId == addressId)

/-- `UPDATE payment_links ... WHERE`: change the rows that satisfy the guard. -/
def updateLinks (guard : PaymentLink → Bool) (f : PaymentLink → PaymentLink) (db : Db) : Db :=
  { db with links := db.links.map (fun l => if guard l then f l else l) }

/-- `Store::set_payment_link_active`: a cancelled link cannot be activated. -/
def setPaymentLinkActive (walletId id : Uuid) (active : Bool) (db : Db) : Option PaymentLink × Db :=
  let guard := fun l : PaymentLink =>
    l.id == id && l.walletId == walletId && (l.cancelledAt.isNone || !active)
  let f := fun l : PaymentLink => { l with active := active, updatedAt := db.now }
  ((db.links.find? guard).map f, db.updateLinks guard f)

def locksTerms (s : PaymentStatus) : Bool :=
  s == .pending || s == .confirmed || s == .underpaid || s == .overpaid

/-- `Store::update_unpaid_payment_link`: the edit and its guard are one statement. -/
def updateUnpaidPaymentLink (walletId id : Uuid) (u : PaymentLinkUpdate) (db : Db) :
    Option PaymentLink × Db :=
  let guard := fun l : PaymentLink => l.id == id && l.walletId == walletId &&
    !db.payments.any (fun p => p.paymentLinkId == l.id && locksTerms p.status)
  let f := fun l : PaymentLink =>
    { l with
      description := u.description.getD l.description
      redirectUrl := u.redirectUrl.getD l.redirectUrl
      amountUsdcStroops := u.amountUsdcStroops.getD l.amountUsdcStroops
      updatedAt := db.now }
  ((db.links.find? guard).map f, db.updateLinks guard f)

/-! ### Payments -/

def paymentRow (db : Db) (linkId : Uuid) (payerName payerEmail : Option String) (amount : Int)
    (addressId : Option Uuid) : PaymentLinkPayment where
  id := db.nextId
  paymentLinkId := linkId
  transactionId := none
  addressId := addressId
  payerName := payerName
  payerEmail := payerEmail
  amountUsdcStroops := amount
  status := .pending
  createdAt := db.now

def recordPaymentLinkIntent (linkId : Uuid) (payerName payerEmail : Option String) (amount : Int)
    (addressId : Option Uuid) (db : Db) : PaymentLinkPayment × Db :=
  let p := db.paymentRow linkId payerName payerEmail amount addressId
  (p, { db with nextId := db.nextId + 1, payments := db.payments ++ [p] })

def oldestOf (rows : List PaymentLinkPayment) : List PaymentLinkPayment :=
  rows.filter (fun p => rows.all (fun q => p.createdAt ≤ q.createdAt))

/-- `ORDER BY created_at ASC LIMIT 1`, where `tie` picks among equally old rows. -/
def firstByAge (tie : Nat) (rows : List PaymentLinkPayment) : Option PaymentLinkPayment :=
  ((oldestOf rows)[tie]?).or (oldestOf rows).head?

def pendingPaymentByAddress (addressId : Uuid) (tie : Nat) (db : Db) : Option PaymentLinkPayment :=
  firstByAge tie
    (db.payments.filter (fun p => p.addressId == some addressId && p.status == .pending))

def oldestPendingPaymentLinkPayment (linkId : Uuid) (tie : Nat) (db : Db) :
    Option PaymentLinkPayment :=
  firstByAge tie (db.payments.filter (fun p => p.paymentLinkId == linkId && p.status == .pending))

/-- `UPDATE payment_link_payments SET status = .. WHERE status = 'pending' AND ..`: the only
way a payment changes; a missing transaction id leaves the column alone. -/
def settlePayments (guard : PaymentLinkPayment → Bool) (status : PaymentStatus)
    (transactionId : Option Uuid) (db : Db) : Db :=
  { db with
    payments := db.payments.map (fun p =>
      if p.status == .pending && guard p then
        { p with status := status, transactionId := transactionId.or p.transactionId }
      else p) }

/-- `Store::confirm_payment_link_payment`: whether a row was flipped. -/
def confirmPaymentLinkPayment (id transactionId : Uuid) (db : Db) : Bool × Db :=
  (db.payments.any (fun p => p.status == .pending && p.id == id),
    db.settlePayments (fun p => p.id == id) .confirmed (some transactionId))

/-- The two statuses `mark_payment_link_payment_mismatched` accepts. -/
inductive Mismatch
  | underpaid
  | overpaid
  deriving DecidableEq

def Mismatch.status : Mismatch → PaymentStatus
  | .underpaid => .underpaid
  | .overpaid => .overpaid

def markPaymentLinkPaymentMismatched (id transactionId : Uuid) (m : Mismatch) (db : Db) :
    Bool × Db :=
  (db.payments.any (fun p => p.status == .pending && p.id == id),
    db.settlePayments (fun p => p.id == id) m.status (some transactionId))

def intentLifetime : Time := 3600 * 1000000

/-- The guard of the expiry sweep: past the one-hour deadline, or the link's deadline passed. -/
def isStale (db : Db) (p : PaymentLinkPayment) : Bool :=
  decide (p.createdAt + intentLifetime < db.now) ||
    db.links.any (fun l => l.id == p.paymentLinkId && l.expiresAt.any (fun e => e ≤ db.now))

/-- `Store::expire_stale_payment_link_payments`, with the flipped rows. -/
def expireStalePaymentLinkPayments (db : Db) : List PaymentLinkPayment × Db :=
  ((db.payments.filter (fun p => p.status == .pending && db.isStale p)).map
      (fun p => { p with status := .expired }),
    db.settlePayments db.isStale .expired none)

/-- `Store::cancel_payment_link`: close the link and its pending payments in one transaction. -/
def cancelPaymentLink (walletId id : Uuid) (db : Db) :
    Except StoreError (PaymentLink × List PaymentLinkPayment) × Db :=
  let guard := fun l : PaymentLink => l.id == id && l.walletId == walletId
  let f := fun l : PaymentLink =>
    { l with cancelledAt := l.cancelledAt.or (some db.now), active := false, updatedAt := db.now }
  match db.links.find? guard with
  | none => (.error .notFound, db)
  | some l =>
    (.ok (f l, (db.payments.filter (fun p => p.status == .pending && p.paymentLinkId == l.id)).map
        (fun p => { p with status := .cancelled })),
      (db.updateLinks guard f).settlePayments (fun p => p.paymentLinkId == l.id) .cancelled none)

end Db

end Octo
