import Octo.Api.Error
import Octo.Ingest.Calls

/-!
# Payment-link routes

`crates/api/src/routes/payment_links.rs` from the point where the caller is authorised and the
body parsed, and the expiry sweep of the supervisor.  What a route does after its last write to
these tables (audit log, totals for the view) is left out.
-/

namespace Octo.PaymentLinks

open Conc Octo.Ingest Octo.Api

abbrev ApiM := ExceptT ApiError (Prog Op Ans)

/-! ### Validation -/

def maxLinkLifetimeDays : Nat := 365
def maxPaymentIntentAmount : Int := 10000000000

def days (n : Nat) : Time := n * 86400 * 1000000

def validateLinkExpiry (expiresAt now : Time) : Except ApiError Unit :=
  if expiresAt ≤ now then .error (.badRequest "expires_at must be in the future")
  else if now + days maxLinkLifetimeDays < expiresAt then
    .error (.badRequest "expires_at must be at most 365 days from now")
  else .ok ()

def validateLinkAmount (amount : Int) : Except ApiError Unit :=
  if amount ≤ 0 ∨ maxPaymentIntentAmount < amount then
    .error (.badRequest "amount_usdc_stroops must be between 1 and 10000000000")
  else .ok ()

def validateRedirectUrl (out : Outside) (url : String) : Except ApiError Unit :=
  if url == "" then .ok ()
  else
    match out.urlScheme url with
    | some scheme =>
      if scheme != "http" && scheme != "https" then
        .error (.badRequest "redirect_url must use http:// or https:// scheme")
      else .ok ()
    | none => .error (.badRequest "redirect_url must be a valid absolute URL")

/-- `ensure_payable`: paused links are hidden, closed ones answer `410`. -/
def ensurePayable (link : PaymentLink) (now : Time) : Except ApiError Unit :=
  match link.statusAt now with
  | .cancelled => .error (.gone "payment link has been cancelled")
  | .expired => .error (.gone "payment link has expired")
  | .inactive => .error .notFound
  | .active => .ok ()

def check? {α : Type} (f : α → Except ApiError Unit) : Option α → Except ApiError Unit
  | some a => f a
  | none => .ok ()

def orFail {α : Type} (r : Except ApiError α) : ApiM α := ExceptT.mk (pure r)

/-! ### Owner routes -/

structure CreatePaymentLinkRequest where
  name : Option String := none
  description : Option String := none
  imageUrl : Option String := none
  redirectUrl : Option String := none
  amountUsdcStroops : Option Int := none
  expiresAt : Option Time := none

/-- The deadline check of `create_link`; the clock is read only when there is a deadline. -/
def checkExpiry (expiresAt : Option Time) : ApiM Unit := do
  match expiresAt with
  | some e =>
    let now ← ask .utcNow
    orFail (validateLinkExpiry e now)
  | none => pure ()

def createLink (out : Outside) (walletId : Uuid) (req : CreatePaymentLinkRequest) (slug : String) :
    ApiM PaymentLink := do
  match req.name.filter (· != "") with
  | none => orFail (.error (.badRequest "name is required"))
  | some name =>
    orFail (check? (validateRedirectUrl out) req.redirectUrl)
    orFail (check? validateLinkAmount req.amountUsdcStroops)
    checkExpiry req.expiresAt
    let wallet ← Prog.tryCall (.getWallet walletId) fromStore
    let address ← Prog.tryCall (.allocateAddress walletId wallet.stellarAccountG none "{}")
      fromStore
    Prog.tryCall (.createPaymentLink {
      walletId := walletId
      addressId := address.id
      slug := slug
      name := name
      description := req.description
      imageUrl := req.imageUrl
      redirectUrl := req.redirectUrl
      amountUsdcStroops := req.amountUsdcStroops
      expiresAt := req.expiresAt }) fromStore

/-- `Store::set_payment_link_active` and `update_unpaid_payment_link`: no row means a foreign link
or a locked one. -/
def orConflict (walletId id : Uuid) (message : String) (updated : Option PaymentLink) :
    ApiM PaymentLink := do
  match updated with
  | some link => pure link
  | none =>
    let _ ← Prog.tryCall (.getPaymentLink walletId id) fromStore
    orFail (.error (.conflictWith message))

def setPaymentLinkActive (walletId id : Uuid) (active : Option Bool) : ApiM PaymentLink := do
  match active with
  | none => orFail (.error (.badRequest "active is required"))
  | some active =>
    let updated ← Prog.tryCall (.setPaymentLinkActive walletId id active) fromStore
    orConflict walletId id "payment link is cancelled and cannot be reactivated" updated

/-- `PATCH /v1/wallets/:id/payment-links/:link_id`; an empty text clears the field like `null`. -/
def updatePaymentLink (out : Outside) (walletId id : Uuid) (req : PaymentLinkUpdate) :
    ApiM PaymentLink := do
  if req.description.isNone && req.redirectUrl.isNone && req.amountUsdcStroops.isNone then
    orFail (.error (.badRequest
      "provide at least one of description, redirect_url, amount_usdc_stroops"))
  else
    let description := req.description.map (·.filter (fun s => !(trim s.toList).isEmpty))
    let redirectUrl := req.redirectUrl.map (·.filter (· != ""))
    orFail (check? (validateRedirectUrl out) (redirectUrl.join))
    orFail (check? validateLinkAmount (req.amountUsdcStroops.join))
    let updated ← Prog.tryCall (.updateUnpaidPaymentLink walletId id
      ⟨description, redirectUrl, req.amountUsdcStroops⟩) fromStore
    orConflict walletId id
      "payment link has a pending or completed payment and can no longer be edited" updated

def notifyCancelled (walletId : Uuid) (link : PaymentLink) :
    List PaymentLinkPayment → Prog Op Ans Unit
  | [] => pure ()
  | p :: ps => do
    ask (.dispatch walletId (.cancelled link p))
    notifyCancelled walletId link ps

def cancelPaymentLink (walletId id : Uuid) : ApiM PaymentLink := do
  let (link, cancelled) ← Prog.tryCall (.cancelPaymentLink walletId id) fromStore
  notifyCancelled walletId link cancelled
  pure link

def createAddress (walletId : Uuid) (customerRef : Option String) (metadata : String) :
    ApiM Address := do
  let wallet ← Prog.tryCall (.getWallet walletId) fromStore
  if wallet.archivedAt.isSome then orFail (.error (.forbidden "wallet is archived"))
  else
    Prog.tryCall (.allocateAddress walletId wallet.stellarAccountG customerRef metadata) fromStore

/-! ### Public routes -/

/-- The part of `GET /v1/pay/:slug` that hands out an address: an active link shows its own,
shared deposit address. -/
def getPublicPaymentLink (slug : String) : ApiM (PaymentLink × Option String) := do
  let link ← Prog.tryCall (.getPaymentLinkBySlug slug) fromStore
  let now ← ask .utcNow
  match link.statusAt now with
  | .inactive => orFail (.error .notFound)
  | .active =>
    match ← Prog.tryCall (.getAddress link.addressId) fromStore with
    | some address => pure (link, some address.muxedAddress)
    | none => orFail (.error .notFound)
  | _ => pure (link, none)

structure CreatePaymentIntentRequest where
  payerName : Option String := none
  payerEmail : Option String := none
  amountUsdcStroops : Option Int := none

/-- A fixed-amount link ignores what the payer sends; a flexible one requires a positive amount. -/
def intentAmount (link : PaymentLink) (req : CreatePaymentIntentRequest) : Except ApiError Int :=
  match link.amountUsdcStroops with
  | some fixed => .ok fixed
  | none =>
    match req.amountUsdcStroops.filter (fun a => decide (0 < a)) with
    | some a => .ok a
    | none => .error (.badRequest "amount_usdc_stroops is required")

/-- `POST /v1/pay/:slug/intent`: every intent gets its own address. -/
def createPaymentIntent (slug : String) (req : CreatePaymentIntentRequest) :
    ApiM (PaymentLinkPayment × String) := do
  let link ← Prog.tryCall (.getPaymentLinkBySlug slug) fromStore
  let now ← ask .utcNow
  orFail (ensurePayable link now)
  let amount ← orFail (intentAmount link req)
  let wallet ← Prog.tryCall (.getWallet link.walletId) fromStore
  let address ← Prog.tryCall (.allocateAddress link.walletId wallet.stellarAccountG none slug)
    fromStore
  let payment ← Prog.tryCall (.recordPaymentLinkIntent link.id req.payerName req.payerEmail amount
    (some address.id)) fromStore
  pure (payment, address.muxedAddress)

/-! ### The expiry sweep -/

/-- One `payment_link.expired` for each row whose link can be loaded. -/
def notifyExpired : List PaymentLinkPayment → Prog Op Ans Unit
  | [] => pure ()
  | p :: ps => do
    match ← ask (.getPaymentLinkById p.paymentLinkId) with
    | .ok (some link) => do
      ask (.dispatch link.walletId (.expired link p))
      notifyExpired ps
    | _ => notifyExpired ps

def expireStalePaymentLinkPayments : Prog Op Ans Unit := do
  match ← ask .expireStalePaymentLinkPayments with
  | .ok rows => notifyExpired rows
  | .error _ => pure ()

end Octo.PaymentLinks
