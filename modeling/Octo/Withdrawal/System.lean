import Octo.Withdrawal.Reconciler
import Octo.Withdrawal.Relay

/-!
# The system of relays and reconcilers

Any number of relay requests and reconciler sweeps run on one database and one Horizon client, one
call at a time, and each may die between two calls.  Outside of them time passes, the network closes
ledgers, Horizon ingests them, other callers use the breaker and deposits are recorded.

A ledger closes later than all before it, applies a transaction at most once, and only while the
transaction's time bound allows it.
-/

namespace Octo.Withdrawal

open Conc Octo.Api Resilience Option List

inductive Job
  | relay (wallet : Wallet) (signedXdr : String)
  | reconcile (cfg : ReconcilerConfig)

def code (out : Outside) : Job → Prog Op Ans Unit
  | .relay wallet xdr => (relaySignedTransaction out wallet xdr).run.bind (fun _ => .ret ())
  | .reconcile cfg => (reconcileOnce out cfg).run.bind (fun _ => .ret ())

inductive Env
  | tick (dt : Nat)
  | closeLedger (l : Ledger)
  | ingestLedger
  | otherCheck
  | otherSuccess
  | otherFailure
  | recordDeposit (d : NewDeposit)

/-- Ledgers close in order; no transaction has two results, or one after its time bound. -/
def canClose (out : Outside) (ledgers : List Ledger) (l : Ledger) : Bool :=
  out.client.parseRfc3339 l.closedAt == some l.closeTime
    && ledgers.all (fun l' => decide (l'.closeTime < l.closeTime))
    && decide (l.results.map (·.1)).Nodup
    && l.results.all (fun r => ledgers.all (fun l' => (l'.results.lookup r.1).isNone)
      && (out.expiry r.1).all (fun max => decide (l.closeTime ≤ max)))

def env (out : Outside) (e : Env) (s : State) : Option State :=
  match e with
  | .tick dt => some { s with db := { s.db with now := s.db.now + dt } }
  | .closeLedger l => if canClose out s.ledgers l then some { s with ledgers := s.ledgers ++ [l] }
      else none
  | .ingestLedger => if s.view < s.ledgers.length then some { s with view := s.view + 1 } else none
  | .otherCheck => some { s with breaker := (s.breaker.check s.db.now).2 }
  | .otherSuccess => some { s with breaker := s.breaker.onSuccess }
  | .otherFailure => some { s with breaker := s.breaker.onFailure s.db.now }
  | .recordDeposit d => some { s with db := (s.db.recordDeposit d).2 }

def system (out : Outside) : Sys Job Op Ans Choice Env State where
  code := code out
  canStart := fun _ _ => true
  exec := exec out
  env := env out

structure Initial (s : State) : Prop where
  transactions : s.db.transactions = []
  ledgers : s.ledgers = []
  view : s.view = 0

/-! ### What a step can do -/

/-- What no call takes back. -/
structure Grows (s s' : State) : Prop where
  allowlist : s'.allowlist = s.allowlist
  rows : RowsGrow s.db s'.db
  ledgers : s.ledgers <+: s'.ledgers
  view : s.view ≤ s'.view

theorem Grows.refl (s : State) : Grows s s :=
  ⟨rfl, .of_subset (List.Subset.refl _), prefix_rfl, Nat.le_refl _⟩

theorem Grows.trans {s1 s2 s3 : State} (h1 : Grows s1 s2) (h2 : Grows s2 s3) : Grows s1 s3 where
  allowlist := h2.allowlist.trans h1.allowlist
  rows := h1.rows.trans h2.rows
  ledgers := h1.ledgers.trans h2.ledgers
  view := h1.view.trans h2.view

theorem grows_db {s : State} {db : Db} (h : RowsGrow s.db db) : Grows s { s with db := db } :=
  ⟨rfl, h, prefix_rfl, Nat.le_refl _⟩

theorem grows_breaker (s : State) (b : Breaker) : Grows s { s with breaker := b } :=
  ⟨rfl, .of_subset (List.Subset.refl _), prefix_rfl, Nat.le_refl _⟩

/-- The write of a call. -/
def write (o : Op) (db : Db) : Db :=
  match o with
  | .recordWithdrawalTransaction new => (db.recordWithdrawalTransaction new).2
  | .settlePendingWithdrawal id status ledger reason =>
    (db.settlePendingWithdrawal id status ledger reason).2
  | _ => db

theorem rowsGrow_write (o : Op) (db : Db) : RowsGrow db (write o db) := by
  cases o with
  | recordWithdrawalTransaction new => exact rowsGrow_recordWithdrawal new db
  | settlePendingWithdrawal id status ledger reason =>
    exact rowsGrow_settle id status ledger reason db
  | _ => exact .of_subset (List.Subset.refl _)

variable {out : Outside} {ch : Choice} {s s' : State} {o : Op} {a : Ans o}

theorem execHttp_state {c : HttpCall} {a : HttpCall.Ans c}
    (h : execHttp out c ch s = some (a, s')) : ∃ b, s' = { s with breaker := b } := by
  cases c with
  | check | onSuccess | onFailure =>
    obtain ⟨-, rfl⟩ := call_inj h
    exact ⟨_, rfl⟩
  | sleep =>
    obtain ⟨-, rfl⟩ := call_inj h
    exact ⟨s.breaker, rfl⟩
  | request =>
    refine ⟨s.breaker, ?_⟩
    simp only [execHttp] at h
    split at h
    · split at h
      · exact (call_inj h).2.symm
      · split at h
        · exact (call_inj h).2.symm
        · cases h
      · split at h
        · exact (call_inj h).2.symm
        · cases h
      · exact (call_inj h).2.symm
    · cases h

theorem store_onDb {α : Type} {stmt : Db → Except StoreError α × Db} {ch : Octo.Choice}
    {a : Except StoreError α} (h : store (fun _ s => onDb stmt s) ch s = some (a, s')) :
    s' = s ∨ s' = { s with db := (stmt s.db).2 } := by
  rcases store_cases h with ⟨n, hn⟩ | ⟨-, hs | hs⟩
  · exact .inr (Prod.mk.inj hn).2
  · exact .inl hs
  · exact .inr hs

/-- **What a call can change**: the breaker, or the rows its statement writes. -/
theorem exec_state (h : exec out o ch s = some (a, s')) :
    (∃ b, s' = { s with breaker := b }) ∨ s' = { s with db := write o s.db } := by
  cases o with
  | horizon => exact .inl (execHttp_state h)
  | utcNow =>
    simp only [exec] at h
    split at h
    · exact .inl ⟨s.breaker, (call_inj h).2.symm⟩
    · cases h
  | getWithdrawalAllowlistConfig | isAddressWhitelisted =>
    simp only [exec] at h
    split at h
    · exact .inl ⟨s.breaker, (storeRead_cases h).1⟩
    · cases h
  | recordWithdrawalTransaction | settlePendingWithdrawal =>
    simp only [exec] at h
    split at h
    · rcases store_onDb h with hs | hs
      · exact .inl ⟨s.breaker, hs⟩
      · exact .inr hs
    · cases h
  | listStalePendingWithdrawals =>
    refine .inl ⟨s.breaker, ?_⟩
    simp only [exec] at h
    split at h
    · split at h
      · exact (call_inj h).2.symm
      · cases h
    · exact (call_inj h).2.symm

/-- Whatever happens, no row is lost, no settled row changes, and the chain and Horizon's view of it
only grow. -/
theorem exec_grows (h : exec out o ch s = some (a, s')) : Grows s s' := by
  rcases exec_state h with ⟨b, rfl⟩ | rfl
  · exact grows_breaker s b
  · exact grows_db (rowsGrow_write o s.db)

theorem env_grows {e : Env} (h : env out e s = some s') : Grows s s' := by
  cases e with
  | tick =>
    rw [← some.inj h]
    exact grows_db (.of_subset (List.Subset.refl _))
  | closeLedger =>
    simp only [env] at h
    split at h
    · rw [← some.inj h]
      exact ⟨rfl, .of_subset (List.Subset.refl _), prefix_append _ _, Nat.le_refl _⟩
    · cases h
  | ingestLedger =>
    simp only [env] at h
    split at h
    · rw [← some.inj h]
      exact ⟨rfl, .of_subset (List.Subset.refl _), prefix_rfl, Nat.le_succ _⟩
    · cases h
  | otherCheck | otherSuccess | otherFailure => rw [← some.inj h]; exact grows_breaker s _
  | recordDeposit =>
    rw [← some.inj h]
    refine grows_db (.of_subset ?_)
    unfold Db.recordDeposit
    split
    · exact List.Subset.refl _
    · split
      · exact List.Subset.refl _
      · exact subset_append_left _ _

end Octo.Withdrawal
