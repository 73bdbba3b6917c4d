import Octo.Store.Accounts
import Octo.Store.Otps
import Octo.Withdrawal.Relay

/-!
# Confirming a withdrawal with an emailed code

`withdraw_request_otp` and `withdraw_confirm` of `crates/api/src/routes/submit.rs`, `issue_otp` of
`crates/api/src/auth.rs` and the code that redeems codes for other purposes.  The relay that a
confirmation ends in is the one of `Withdrawal/Relay.lean`, with its calls among the calls of this
system.

The login, the wallet and the user that a request reads may be anything.
-/

namespace Octo.OneTimeCodes

open Conc Octo.Api
open Octo.Withdrawal (PaymentSummary RelayOutcome validateSignedXdr relaySignedTransaction)

/-- Everything outside: what the relay uses, and SHA-256 of a code, in hex. -/
structure Outside where
  relay : Withdrawal.Outside
  hashOtp : String → String

structure State where
  otps : OtpTable
  relay : Withdrawal.State

def State.now (s : State) : Time := s.relay.db.now

structure OwnedWallet where
  wallet : Wallet
  userId : Option Uuid
  deriving DecidableEq

inductive Mail
  | otp (purpose : OtpPurpose) (code : String)
  | withdrawalFailed (amountStroops : Int) (assetCode destination reason : String)
  | withdrawalSuccessful (amountStroops : Int) (assetCode destination hash : String)

inductive Op
  | requireLogin
  | getWallet (walletId : Uuid)
  | getUser (userId : Uuid)
  | generateOtp
  | createOtp (userId : Uuid) (purpose : OtpPurpose) (codeHash : String)
      (txHashBound : Option String) (ttl : Nat)
  | claimAttempt (userId : Uuid) (purpose : OtpPurpose)
  | consumeOtp (id : Uuid)
  | purgeExpiredOtps (retainFor : Nat)
  | deleteOtps (userId : Uuid)
  | send (recipient : String) (mail : Mail)
  | recordAudit (userId : Uuid) (status : TxStatus) (target : Option String)
  | relay (o : Withdrawal.Op)

abbrev Ans : Op → Type
  | .requireLogin => Except ApiError Uuid
  | .getWallet _ => Except StoreError OwnedWallet
  | .getUser _ => Except StoreError (Option Auth.User)
  | .generateOtp => String
  | .createOtp .. => Except StoreError Uuid
  | .claimAttempt .. => Except StoreError (Option (Uuid × String × Option String))
  | .consumeOtp _ => Except StoreError Bool
  | .purgeExpiredOtps _ => Except StoreError Unit
  | .deleteOtps _ => Except StoreError Unit
  /- Whether the mail was accepted for delivery. -/
  | .send .. => Bool
  | .recordAudit .. => Unit
  | .relay o => Withdrawal.Ans o

inductive Choice
  | login (r : Except ApiError Uuid)
  | wallet (r : Except StoreError OwnedWallet)
  | user (r : Except StoreError (Option Auth.User))
  | code (code : String)
  | store (ch : Octo.Choice)
  | sent (ok : Bool)
  | relay (ch : Withdrawal.Choice)

def onOtps {α : Type} (stmt : OtpTable → Except StoreError α × OtpTable) (s : State) :
    Except StoreError α × State :=
  let r := stmt s.otps
  (r.1, { s with otps := r.2 })

def storeOtps {α : Type} (stmt : Nat → State → Except StoreError α × State) (ch : Choice)
    (s : State) : Option (Except StoreError α × State) :=
  match ch with
  | .store ch => store stmt ch s
  | _ => none

def exec (out : Outside) : (o : Op) → Choice → State → Option (Ans o × State)
  | .requireLogin, .login r, s => some (r, s)
  | .getWallet id, .wallet r, s => if r.toOption.all (fun w => w.wallet.id == id) then some (r, s)
      else none
  | .getUser id, .user r, s => if r.toOption.join.all (fun u => u.id == id) then some (r, s)
      else none
  | .generateOtp, .code code, s => some (code, s)
  | .createOtp userId purpose codeHash bound ttl, ch, s => storeOtps (fun _ s => onOtps (fun t =>
      let r := t.createOtp s.now userId purpose codeHash bound ttl
      (.ok r.1, r.2)) s) ch s
  | .claimAttempt userId purpose, ch, s => storeOtps (fun n s => onOtps (fun t =>
      let r := t.claimAttempt s.now n userId purpose
      (.ok r.1, r.2)) s) ch s
  | .consumeOtp id, ch, s => storeOtps (fun _ s => onOtps (fun t =>
      let r := t.consumeOtp s.now id
      (.ok r.1, r.2)) s) ch s
  | .purgeExpiredOtps retainFor, ch, s =>
    storeOtps (fun _ s => onOtps (fun t => (.ok (), t.purgeExpiredOtps s.now retainFor)) s) ch s
  | .deleteOtps userId, ch, s =>
    storeOtps (fun _ s => onOtps (fun t => (.ok (), t.deleteOtps userId)) s) ch s
  | .send _ _, .sent ok, s => some (ok, s)
  | .recordAudit _ _ _, _, s => some ((), s)
  | .relay o, .relay ch, s =>
    (Withdrawal.exec out.relay o ch s.relay).map (fun r => (r.1, { s with relay := r.2 }))
  | _, _, _ => none

abbrev OtpM (α : Type) := ExceptT ApiError (Prog Op Ans) α

def query {α : Type} (o : Op) (f : Ans o → Except ApiError α) : OtpM α := Prog.tryCall o f

def attempt (o : Op) : OtpM Unit := Prog.tryCall o (fun _ => .ok ())

def check {α : Type} (r : Except ApiError α) : OtpM α := ExceptT.mk (.ret r)

def orInternal {ε α : Type} : Except ε α → Except ApiError α := Except.mapError (fun _ => .internal)

def mustSend (ok : Bool) : Except ApiError Unit := if ok then .ok () else .error .internal

/-! ### Codes -/

/-- `verify_and_consume_otp`; what it answers with is the same whatever is wrong. -/
def verifyAndConsumeOtp (userId : Uuid) (purpose : OtpPurpose) (codeHash : String)
    (txHashBound : Option String) : ExceptT StoreError (Prog Op Ans) Unit := do
  let claimed ← Prog.tryCall (.claimAttempt userId purpose) id
  match claimed with
  | none => throw .invalidOtp
  | some (otpId, storedHash, bound) =>
    if storedHash ≠ codeHash ∨ bound ≠ txHashBound then throw .invalidOtp
    else do
      let consumed ← Prog.tryCall (.consumeOtp otpId) id
      if consumed then return else throw .invalidOtp

/-- `OTP_TTL_MINUTES` and `WITHDRAW_OTP_TTL_MINUTES`, in microseconds. -/
def otpTtl : Nat := 10 * 60 * 1000000

def issueOtp (out : Outside) (userId : Uuid) (purpose : OtpPurpose) (recipient : String)
    (boundTo : Option String) : OtpM Unit := do
  let code ← query .generateOtp .ok
  let _ ← query (.createOtp userId purpose (out.hashOtp code) boundTo otpTtl) orInternal
  query (.send recipient (.otp purpose code)) mustSend

/-! ### Withdrawals -/

/-- `WithdrawConfirmRequest`, and with no code `WithdrawOtpRequest`. -/
structure WithdrawRequest where
  transactionXdr : Option String
  code : Option String
  deriving DecidableEq

def requireXdr (x : Option String) : Except ApiError String :=
  match x.filter (fun x => !x.isEmpty) with
  | some x => .ok x
  | none => .error (.badRequest "transaction_xdr is required")

def requireCode (c : Option String) : Except ApiError String :=
  match c.filter (fun c => !c.isEmpty) with
  | some c => .ok c
  | none => .error (.badRequest "code is required")

def hashOf (out : Outside) (signedXdr : String) : Except ApiError String :=
  match out.relay.txHash signedXdr with
  | some h => .ok h
  | none => .error (.badRequest "transaction_xdr could not be hashed")

/-- What both endpoints do first: the user, the wallet and the user's row. -/
def ownWallet (walletId : Uuid) : OtpM (Uuid × Wallet × Auth.User) := do
  let userId ← query .requireLogin id
  let w ← query (.getWallet walletId) fromStore
  if w.wallet.archivedAt.isSome then throw (.forbidden "wallet is archived")
  else if w.userId ≠ some userId then throw .notFound
  else do
    let user ← query (.getUser userId) orInternal
    match user with
    | none => throw .notFound
    | some user => return (userId, w.wallet, user)

def withdrawRequestOtp (out : Outside) (walletId : Uuid) (req : WithdrawRequest) : OtpM Unit := do
  let (userId, wallet, user) ← ownWallet walletId
  let signedXdr ← check (requireXdr req.transactionXdr)
  let _ ← check (validateSignedXdr out.relay.strkey out.relay.xdr signedXdr wallet.stellarAccountG)
  let txHash ← check (hashOf out signedXdr)
  issueOtp out userId .withdrawal user.email (some txHash)

def codeRefused (user : Auth.User) : Option PaymentSummary → OtpM Unit
  | some p => attempt (.send user.email (.withdrawalFailed p.amountStroops p.assetCode p.destination
      "an incorrect verification code was entered"))
  | none => return

def outcomeMail (o : RelayOutcome) : Option Mail := do
  let amount ← o.amountStroops
  let asset ← o.assetCode
  let destination ← o.destination
  if o.status = .confirmed then some (.withdrawalSuccessful amount asset destination
    (o.stellarTxHash.getD ""))
  else some (.withdrawalFailed amount asset destination
    (o.detail.getD "the transaction was rejected"))

/-- `relay_signed_transaction`, with its calls among those of this system. -/
def relay (out : Outside) (wallet : Wallet) (signedXdr : String) : OtpM RelayOutcome :=
  ExceptT.mk ((relaySignedTransaction out.relay wallet signedXdr).run.embed Op.relay (fun _ a => a))

def withdrawConfirm (out : Outside) (walletId : Uuid) (req : WithdrawRequest) : OtpM RelayOutcome :=
  do
  let (userId, wallet, user) ← ownWallet walletId
  let signedXdr ← check (requireXdr req.transactionXdr)
  let code ← check (requireCode req.code)
  let txHash ← check (hashOf out signedXdr)
  let payment ← check (validateSignedXdr out.relay.strkey out.relay.xdr signedXdr
    wallet.stellarAccountG)
  let verified ← ((verifyAndConsumeOtp userId .withdrawal (out.hashOtp code) (some txHash)).run :
    Prog Op Ans (Except StoreError Unit))
  match verified with
  | .error _ => do
    codeRefused user payment
    throw (.badRequest "invalid or expired code")
  | .ok () => do
    let outcome ← relay out wallet signedXdr
    attempt (.recordAudit userId outcome.status outcome.destination)
    match outcomeMail outcome with
    | some mail => do
      attempt (.send user.email mail)
      return outcome
    | none => return outcome

end Octo.OneTimeCodes
