import Octo.Withdrawal.Calls

/-!
# The withdrawal reconciler

`crates/api/src/withdrawal_reconciler.rs`: rows left `pending` are looked up by hash and settled.
The lookup comes first; the newest close time is read only after it, when the transaction was not
found. Durations are in microseconds, close times and time bounds in seconds.
-/

namespace Octo.Withdrawal

open Conc Octo.Api

/-- `ReconcilerConfig`; the interval between sweeps is up to the schedule. -/
structure ReconcilerConfig where
  grace : Nat
  abandonAfter : Nat
  batch : Nat
  deriving DecidableEq

def ReconcilerConfig.default : ReconcilerConfig := ⟨120000000, 86400000000, 100⟩

inductive RowVerdict
  | confirmed (ledger : Option Int)
  | failed (reason : String)
  | wait
  deriving DecidableEq

structure Stats where
  confirmed : Nat
  failed : Nat
  waiting : Nat
  deriving DecidableEq

def decideRow (lookup : TxLookup) (maxTime ledgerClose : Option Int) (age abandonAfter : Nat) :
    RowVerdict :=
  match lookup with
  | .found true ledger => .confirmed ledger
  | .found false _ => .failed "transaction failed on-chain"
  | .notFound =>
    match maxTime with
    | some max =>
      match ledgerClose with
      | some close =>
        if close > max then .failed "transaction expired before inclusion (timebounds)" else .wait
      | none => .wait
    | none =>
      if age ≥ abandonAfter then .failed "no timebound and never found on-chain; abandoned"
        else .wait

/-- The close time is read only when the transaction is missing and has a time bound. -/
def readLedgerClose (out : Outside) (lookup : TxLookup) (maxTime : Option Int) :
    Prog Op Ans (Option Int) :=
  match lookup, maxTime with
  | .notFound, some _ => do
    let r ← horizon out.client.latestLedgerCloseTime
    return r.toOption
  | _, _ => return none

def resolve (out : Outside) (cfg : ReconcilerConfig) (row : Transaction) : Prog Op Ans RowVerdict :=
  match row.stellarTxHash with
  | none => return .failed "no transaction hash recorded"
  | some hash => do
    match ← horizon (out.client.transactionByHash hash) with
    | .error _ => return .wait
    | .ok lookup =>
      let ledgerClose ← readLedgerClose out lookup row.metadata.maxTime
      let now ← ask .utcNow
      return decideRow lookup row.metadata.maxTime ledgerClose (now - row.createdAt)
        cfg.abandonAfter

abbrev ReconcileM (α : Type) := ExceptT StoreError (Prog Op Ans) α

/-- `Store::settle_pending_withdrawal` for a row; `false` means another run settled it first. -/
def settleRow (row : Transaction) (status : TxStatus) (ledger : Option Int) (reason : Option String)
    (stats : Stats) : ReconcileM Stats := do
  let settled ← Prog.tryCall (.settlePendingWithdrawal row.id status ledger reason) id
  if settled then
    if status = .confirmed then return { stats with confirmed := stats.confirmed + 1 }
    else return { stats with failed := stats.failed + 1 }
  else return stats

def reconcileRow (out : Outside) (cfg : ReconcilerConfig) (row : Transaction) (stats : Stats) :
    ReconcileM Stats := do
  match ← resolve out cfg row with
  | .confirmed ledger => settleRow row .confirmed ledger none stats
  | .failed reason => settleRow row .failed none (some reason) stats
  | .wait => return { stats with waiting := stats.waiting + 1 }

def reconcileRows (out : Outside) (cfg : ReconcilerConfig) :
    List Transaction → Stats → ReconcileM Stats
  | [], stats => return stats
  | row :: rows, stats => do
    let stats ← reconcileRow out cfg row stats
    reconcileRows out cfg rows stats

def reconcileOnce (out : Outside) (cfg : ReconcilerConfig) : ReconcileM Stats := do
  let rows ← Prog.tryCall (.listStalePendingWithdrawals cfg.grace cfg.batch) id
  reconcileRows out cfg rows ⟨0, 0, 0⟩

end Octo.Withdrawal
