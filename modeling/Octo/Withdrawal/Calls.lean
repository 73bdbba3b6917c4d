import Octo.Api.Horizon
import Octo.Store.Call
import Octo.Store.Ingest
import Octo.Store.Withdrawals
import Octo.Withdrawal.Validate

/-!
# The calls of the relay and the reconciler

The state the withdrawal code works on: the database, the circuit breaker of the Horizon client, the
ledgers the network has closed and how many of them Horizon has ingested.  `exec` is the effect of
one call.

* A submission may be answered in any way.
* A read is answered from the ledgers Horizon has ingested, or fails: `answersLookup` and
  `answersCloseTime` say which outcomes are possible.
-/

namespace Octo.Withdrawal

open Conc Octo.Api Resilience

/-- A closed ledger: its close time, as text and in unix seconds, and the transactions it applied
with their results. -/
structure Ledger where
  sequence : Nat
  closedAt : String
  closeTime : Int
  results : List (String × Bool)
  deriving DecidableEq

structure State where
  db : Db
  allowlist : Allowlist
  breaker : Breaker
  /-- Oldest first. -/
  ledgers : List Ledger
  /-- How many ledgers Horizon has ingested. -/
  view : Nat

namespace State

def ingested (s : State) : List Ledger := s.ledgers.take s.view

def lookup (s : State) (hash : String) : Option TxRecord :=
  s.ingested.findSome? (fun l => (l.results.lookup hash).map (fun ok => ⟨ok, some l.sequence⟩))

end State

/-- Everything outside the repository: the codecs, the client's configuration, and the upper time
bound that the network enforces for a transaction. -/
structure Outside where
  strkey : Strkey
  xdr : Xdr
  client : HorizonClient
  expiry : String → Option Int

inductive Op
  | utcNow
  | horizon (c : HttpCall)
  | getWithdrawalAllowlistConfig (walletId : Uuid)
  | isAddressWhitelisted (walletId : Uuid) (address : String)
  | recordWithdrawalTransaction (new : NewWithdrawalTransaction)
  | listStalePendingWithdrawals (olderThan limit : Nat)
  | settlePendingWithdrawal (id : Uuid) (status : TxStatus) (ledger : Option Int)
      (reason : Option String)

abbrev Ans : Op → Type
  | .utcNow => Time
  | .horizon c => HttpCall.Ans c
  | .getWithdrawalAllowlistConfig _ => Except StoreError (Option WithdrawalAllowlistConfig)
  | .isAddressWhitelisted .. => Except StoreError Bool
  | .recordWithdrawalTransaction _ => Except StoreError (Option Transaction)
  | .listStalePendingWithdrawals .. => Except StoreError (List Transaction)
  | .settlePendingWithdrawal .. => Except StoreError Bool

abbrev ask (o : Op) : Prog Op Ans (Ans o) := .perform o

def horizon {α : Type} (p : HttpM α) : Prog Op Ans α := p.embed Op.horizon (fun _ a => a)

/-- What the caller does not control: how a store call goes, which rows a listing gives, what an
HTTP request comes to, and the reading of the host clock. -/
inductive Choice
  | store (ch : Octo.Choice)
  | listed (rows : List Transaction)
  | http (o : HttpOutcome)
  | clock (t : Time)

/-- The possible outcomes of `GET /transactions/{hash}`: a record is the one Horizon has, and only a
transaction it does not have is not found. -/
def answersLookup (s : State) (hash : String) (o : HttpOutcome) : Bool :=
  match readLookup o with
  | .ok r => s.lookup hash == some r
  | .error .notFound => (s.lookup hash).isNone
  | .error _ => true

/-- The possible outcomes of the ledger query: a close time is that of the newest ledger ingested.
-/
def answersCloseTime (hz : HorizonClient) (s : State) (o : HttpOutcome) : Bool :=
  match hz.readCloseTime o with
  | .ok t => (s.ingested.getLast?).any (fun l => l.closeTime == t)
  | .error _ => true

def execHttp (out : Outside) : (c : HttpCall) → Choice → State → Option (HttpCall.Ans c × State)
  | .check, _, s =>
    let r := s.breaker.check s.db.now
    some (r.1, { s with breaker := r.2 })
  | .onSuccess, _, s => some ((), { s with breaker := s.breaker.onSuccess })
  | .onFailure, _, s => some ((), { s with breaker := s.breaker.onFailure s.db.now })
  | .sleep _, _, s => some ((), s)
  | .request r, ch, s =>
    match ch with
    | .http o =>
      match r with
      | .postTransactions _ => some (o, s)
      | .getTransaction hash => if answersLookup s hash o then some (o, s) else none
      | .getLatestLedger => if answersCloseTime out.client s o then some (o, s) else none
      | .getAccount _ => some (o, s)
    | _ => none

def onDb {α : Type} (stmt : Db → Except StoreError α × Db) (s : State) :
    Except StoreError α × State :=
  let r := stmt s.db
  (r.1, { s with db := r.2 })

def exec (out : Outside) : (o : Op) → Choice → State → Option (Ans o × State)
  | .utcNow, ch, s =>
    match ch with
    | .clock t => some (t, s)
    | _ => none
  | .horizon c, ch, s => execHttp out c ch s
  | .getWithdrawalAllowlistConfig w, ch, s =>
    match ch with
    | .store ch => storeRead (fun _ s => .ok (s.allowlist.config w)) ch s
    | _ => none
  | .isAddressWhitelisted w a, ch, s =>
    match ch with
    | .store ch => storeRead (fun _ s => .ok (s.allowlist.isAddressWhitelisted w a)) ch s
    | _ => none
  | .recordWithdrawalTransaction new, ch, s =>
    match ch with
    | .store ch => store (fun _ s => onDb (Db.recordWithdrawalTransaction new) s) ch s
    | _ => none
  | .listStalePendingWithdrawals olderThan limit, ch, s =>
    match ch with
    | .listed rows => if s.db.isStalePendingList olderThan limit rows then some (.ok rows, s)
        else none
    | _ => some (.error .database, s)
  | .settlePendingWithdrawal id status ledger reason, ch, s =>
    match ch with
    | .store ch =>
      store (fun _ s => onDb (fun db =>
        let r := db.settlePendingWithdrawal id status ledger reason
        (.ok r.1, r.2)) s) ch s
    | _ => none

end Octo.Withdrawal
