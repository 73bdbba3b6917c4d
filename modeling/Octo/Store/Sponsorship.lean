import Mathlib.Algebra.BigOperators.Group.List.Basic
import Octo.Store.SealedWallets

/-!
# Gas sponsorship in the store

`crates/store/src/sponsorship.rs` and migration 0007.  A reservation is a database transaction of
several statements: an advisory lock on the wallet, then one statement that sums the fees counted
today and inserts the row.  Under READ COMMITTED that statement sees the rows as they were when it
started, so it is two steps here: its snapshot (`reserveSnapshot`) and its insert (`reserveInsert`).
What a transaction has done before it commits is kept in its `Session`; a lock is held until the
session ends.

A step of a session that is not open fails; one that has to wait for another session is `none`.
-/

namespace Octo

structure GasSponsorshipConfig where
  walletId : Uuid
  enabled : Bool
  perTxFeeCapStroops : Option Int
  dailyBudgetStroops : Option Int
  allowedOperations : Option (List String)
  deriving DecidableEq

/-- A row of `sponsored_transactions`; `innerTxHash` is `UNIQUE`. -/
structure SponsoredTransaction where
  id : Uuid
  walletId : Uuid
  innerTxHash : String
  feeBumpTxHash : Option String
  feeStroops : Int
  status : TxStatus
  error : Option String
  createdAt : Time
  deriving DecidableEq

/-- How far a session is in the statement of `try_reserve_sponsored_transaction`. -/
inductive Phase
  | idle
  /-- The statement has summed the fees of the wallet. -/
  | summed (walletId : Uuid) (total : Int)
  | inserted (row : SponsoredTransaction)
  deriving DecidableEq

structure Session where
  /-- `now()` in the transaction. -/
  startedAt : Time
  locks : List Nat
  phase : Phase
  deriving DecidableEq

def Session.hasInserted (q : Session) (innerTxHash : String) : Bool :=
  match q.phase with
  | .inserted r => r.innerTxHash == innerTxHash
  | _ => false

/-- The tables that sponsorship works on, and the open transactions by their number. -/
structure SponsorDb where
  now : Time
  nextId : Uuid
  nextSession : Nat
  wallets : List SealedWallet
  configs : List GasSponsorshipConfig
  sponsored : List SponsoredTransaction
  sessions : Nat → Option Session

def dayLength : Nat := 86400000000

def dayOf (t : Time) : Nat := t / dayLength

/-- `date_trunc('day', t AT TIME ZONE 'UTC')`, in a session whose time zone is UTC. -/
def dayStart (t : Time) : Time := dayOf t * dayLength

/-- The advisory lock key: the two halves of the wallet's id, folded into 64 bits. -/
def sponsorLockKey (walletId : Uuid) : Nat := (walletId / 2 ^ 64 % 2 ^ 64) ^^^ (walletId % 2 ^ 64)

def SponsoredTransaction.isCounted (r : SponsoredTransaction) : Bool :=
  r.status == .pending || r.status == .confirmed

/-- The sum of the wallet's fees that are pending or confirmed, since the given time. -/
def feesSince (rows : List SponsoredTransaction) (walletId : Uuid) (since : Time) : Int :=
  ((rows.filter (fun r => r.walletId == walletId && r.isCounted &&
    decide (since ≤ r.createdAt))).map (·.feeStroops)).sum

namespace SponsorDb

variable (db : SponsorDb)

def getWallet (walletId : Uuid) : Except StoreError SealedWallet :=
  match db.wallets.find? (fun w => w.id == walletId) with
  | some w => .ok w
  | none => .error .notFound

def getGasSponsorshipConfig (walletId : Uuid) : Option GasSponsorshipConfig :=
  db.configs.find? (fun c => c.walletId == walletId)

def otherSession (tx : Nat) (p : Session → Bool) : Bool :=
  (List.range db.nextSession).any (fun i => i != tx && (db.sessions i).any p)

def setSession (tx : Nat) (q : Session) : SponsorDb :=
  { db with sessions := Function.update db.sessions tx (some q) }

def endSession (tx : Nat) : SponsorDb := { db with sessions := Function.update db.sessions tx none }

def begin : Nat × SponsorDb :=
  (db.nextSession,
    { db.setSession db.nextSession ⟨db.now, [], .idle⟩ with nextSession := db.nextSession + 1 })

/-- `pg_advisory_xact_lock`: waits while another session holds the key. -/
def advisoryXactLock (tx key : Nat) : Option (Except StoreError Unit × SponsorDb) :=
  match db.sessions tx with
  | none => some (.error .database, db)
  | some q =>
    if db.otherSession tx (fun q => q.locks.contains key) then none
    else some (.ok (), db.setSession tx { q with locks := key :: q.locks })

def reserveSnapshot (tx : Nat) (walletId : Uuid) : Except StoreError Unit × SponsorDb :=
  match db.sessions tx with
  | some ⟨startedAt, locks, .idle⟩ =>
    let total := feesSince db.sponsored walletId (dayStart startedAt)
    if total < i64Min ∨ i64Max < total then (.error .database, db)
    else (.ok (), db.setSession tx ⟨startedAt, locks, .summed walletId total⟩)
  | _ => (.error .database, db)

/-- `sponsorship_projection`: the sum of the CTE, and whether the hash is taken. -/
def sponsorshipProjection (walletId : Uuid) (innerTxHash : String) :
    Except StoreError (Int × Bool) :=
  let total := feesSince db.sponsored walletId (dayStart db.now)
  if total < i64Min ∨ i64Max < total then .error .database
  else .ok (total, db.sponsored.any (fun r => r.innerTxHash == innerTxHash))

def reservation (startedAt : Time) (walletId : Uuid) (innerTxHash : String) (feeStroops : Int) :
    SponsoredTransaction :=
  ⟨db.nextId, walletId, innerTxHash, none, feeStroops, .pending, none, startedAt⟩

def hashes : List String := db.sponsored.map (·.innerTxHash)

/-- No row has the hash, and no other session is about to add one. -/
def IsFree (tx : Nat) (innerTxHash : String) : Prop :=
  innerTxHash ∉ db.hashes ∧ db.otherSession tx (fun q => q.hasInserted innerTxHash) = false

/-- The row passes the unique index on `inner_tx_hash`, or waits for a session that has inserted the
hash. -/
def insertUnique (tx : Nat) (q : Session) (row : SponsoredTransaction) :
    Option (Except StoreError (Option SponsoredTransaction) × SponsorDb) :=
  if db.sponsored.any (fun r => r.innerTxHash == row.innerTxHash) then some (.error .conflict, db)
  else if db.otherSession tx (fun q => q.hasInserted row.innerTxHash) then none
  else
    some (.ok (some row), { db.setSession tx { q with phase := .inserted row } with
      nextId := db.nextId + 1 })

/-- The `INSERT ... SELECT ... WHERE` on the snapshot: a row, or none if the budget would be
exceeded. -/
def reserveInsert (tx : Nat) (walletId : Uuid) (innerTxHash : String) (feeStroops : Int)
    (dailyBudget : Option Int) :
    Option (Except StoreError (Option SponsoredTransaction) × SponsorDb) :=
  match db.sessions tx with
  | some ⟨startedAt, locks, .summed w total⟩ =>
    let row := db.reservation startedAt walletId innerTxHash feeStroops
    if w ≠ walletId then some (.error .database, db)
    else
      match dailyBudget with
      | none => db.insertUnique tx ⟨startedAt, locks, .summed w total⟩ row
      | some budget =>
        if total + feeStroops < i64Min ∨ i64Max < total + feeStroops
          then some (.error .database, db)
        else if total + feeStroops ≤ budget then
          db.insertUnique tx ⟨startedAt, locks, .summed w total⟩ row
        else some (.ok none, db.setSession tx ⟨startedAt, locks, .idle⟩)
  | _ => some (.error .database, db)

def commit (tx : Nat) : Except StoreError Unit × SponsorDb :=
  match db.sessions tx with
  | none => (.error .database, db)
  | some ⟨_, _, .inserted row⟩ =>
    (.ok (), { db.endSession tx with sponsored := db.sponsored ++ [row] })
  | some _ => (.ok (), db.endSession tx)

def updateSponsored (p : SponsoredTransaction → Bool)
    (f : SponsoredTransaction → SponsoredTransaction) : SponsorDb :=
  { db with sponsored := db.sponsored.map (fun r => if p r then f r else r) }

/-- `update_sponsored_tx_status`: the row is written whatever its status is. -/
def finalize (id : Uuid) (status : TxStatus) (feeBumpTxHash error : Option String) : SponsorDb :=
  db.updateSponsored (fun r => r.id == id)
    (fun r => { r with status := status, feeBumpTxHash := feeBumpTxHash, error := error })

/-- `reconcile_stale_pending_sponsorships`: how many rows it wrote. -/
def reconcileStale (olderThan : Nat) : Nat × SponsorDb :=
  let stale := fun r : SponsoredTransaction => r.status == .pending &&
    decide (r.createdAt + olderThan < db.now)
  ((db.sponsored.filter stale).length, db.updateSponsored stale
    (fun r => { r with
      status := .failed, error := some (r.error.getD "timed out pending confirmation") }))

@[simp] theorem setSession_self (tx : Nat) (q : Session) :
    (db.setSession tx q).sessions tx = some q :=
  Function.update_self _ _ _

theorem setSession_of_ne {tx tx' : Nat} (h : tx' ≠ tx) (q : Session) :
    (db.setSession tx q).sessions tx' = db.sessions tx' := Function.update_of_ne h _ _

/-! ### What a statement can do -/

variable {db} {db' : SponsorDb} {tx key : Nat} {walletId : Uuid} {q : Session} {tx' : Nat}

theorem sessions_of_setSession {q q' : Session} (h : (db.setSession tx q).sessions tx' = some q') :
    tx' = tx ∧ q' = q ∨ tx' ≠ tx ∧ db.sessions tx' = some q' := by
  simp only [setSession, Function.update_apply] at h
  split at h
  · exact .inl ⟨‹_›, (Option.some.inj h).symm⟩
  · exact .inr ⟨‹_›, h⟩

theorem sessions_of_endSession (h : (db.endSession tx).sessions tx' = some q) :
    tx' ≠ tx ∧ db.sessions tx' = some q := by
  simp only [endSession, Function.update_apply] at h
  split at h
  · cases h
  · exact ⟨‹_›, h⟩

variable {a : Except StoreError Unit}

theorem advisoryXactLock_cases (h : db.advisoryXactLock tx key = some (a, db')) :
    a = .error .database ∧ db' = db ∨
    ∃ q, db.sessions tx = some q ∧ db.otherSession tx (fun q => q.locks.contains key) = false ∧
      a = .ok () ∧ db' = db.setSession tx { q with locks := key :: q.locks } := by
  unfold advisoryXactLock at h
  split at h
  · cases h
    exact .inl ⟨rfl, rfl⟩
  · rename_i q hq
    split at h
    · cases h
    · rename_i hother
      cases h
      exact .inr ⟨q, hq, by simpa using hother, rfl, rfl⟩

theorem reserveSnapshot_cases (h : db.reserveSnapshot tx walletId = (a, db')) :
    a = .error .database ∧ db' = db ∨
    ∃ q, db.sessions tx = some q ∧ q.phase = .idle ∧ a = .ok () ∧ db' = db.setSession tx { q with
      phase := .summed walletId (feesSince db.sponsored walletId (dayStart q.startedAt)) } := by
  unfold reserveSnapshot at h
  split at h
  · rename_i hq
    dsimp only at h
    split at h
    · cases h
      exact .inl ⟨rfl, rfl⟩
    · cases h
      exact .inr ⟨_, hq, rfl, rfl, rfl⟩
  · cases h
    exact .inl ⟨rfl, rfl⟩

theorem insertUnique_cases {row : SponsoredTransaction}
    {a : Except StoreError (Option SponsoredTransaction)}
    (h : db.insertUnique tx q row = some (a, db')) : (∃ e, a = .error e) ∧ db' = db ∨
    db.IsFree tx row.innerTxHash ∧ a = .ok (some row) ∧
      db' = { db.setSession tx { q with phase := .inserted row } with nextId := db.nextId +
        1 } := by
  unfold insertUnique at h
  split at h
  · cases h
    exact .inl ⟨⟨_, rfl⟩, rfl⟩
  · rename_i hnew
    split at h
    · cases h
    · rename_i hother
      cases h
      refine .inr ⟨⟨fun hm => hnew ?_, by simpa using hother⟩, rfl, rfl⟩
      obtain ⟨r, hr, he⟩ := List.mem_map.mp hm
      exact List.any_eq_true.mpr ⟨r, hr, beq_iff_eq.mpr he⟩

theorem reserveInsert_cases {hash : String} {fee : Int} {budget : Option Int}
    {a : Except StoreError (Option SponsoredTransaction)}
    (h : db.reserveInsert tx walletId hash fee budget = some (a, db')) :
    (∃ e, a = .error e) ∧ db' = db ∨
    ∃ q total, db.sessions tx = some q ∧ q.phase = .summed walletId total ∧
      (a = .ok none ∧ db' = db.setSession tx { q with phase := .idle } ∨
        db.IsFree tx hash ∧ (∀ b, budget = some b → total + fee ≤ b) ∧
        a = .ok (some (db.reservation q.startedAt walletId hash fee)) ∧
        db' = { db.setSession tx { q with
            phase := .inserted (db.reservation q.startedAt walletId hash fee) } with
          nextId := db.nextId + 1 }) := by
  unfold reserveInsert at h
  split at h
  · rename_i total hq
    split at h
    · cases h
      exact .inl ⟨⟨_, rfl⟩, rfl⟩
    · rename_i hw
      rw [not_not] at hw
      subst hw
      split at h
      · rcases insertUnique_cases h with hc | ⟨hfree, ha, hdb⟩
        · exact .inl hc
        · exact .inr ⟨_, total, hq, rfl, .inr ⟨hfree, fun b hb => (nomatch hb), ha, hdb⟩⟩
      · split at h
        · cases h
          exact .inl ⟨⟨_, rfl⟩, rfl⟩
        · split at h
          · rename_i hle
            rcases insertUnique_cases h with hc | ⟨hfree, ha, hdb⟩
            · exact .inl hc
            · refine .inr ⟨_, total, hq, rfl, .inr ⟨hfree, fun b' hb => ?_, ha, hdb⟩⟩
              rw [← Option.some.inj hb]
              exact hle
          · cases h
            exact .inr ⟨_, total, hq, rfl, .inl ⟨rfl, rfl⟩⟩
  · cases h
    exact .inl ⟨⟨_, rfl⟩, rfl⟩

theorem commit_cases (h : db.commit tx = (a, db')) : a = .error .database ∧ db' = db ∨
    ∃ q, db.sessions tx = some q ∧ a = .ok () ∧ ((∃ row, q.phase = .inserted row ∧
        db' = { db.endSession tx with sponsored := db.sponsored ++ [row] }) ∨
      (∀ row, q.phase ≠ .inserted row) ∧ db' = db.endSession tx) := by
  unfold commit at h
  split at h
  · cases h
    exact .inl ⟨rfl, rfl⟩
  · rename_i row hq
    cases h
    exact .inr ⟨_, hq, rfl, .inl ⟨row, rfl, rfl⟩⟩
  · rename_i q hno hq
    cases h
    refine .inr ⟨q, hq, rfl, .inr ⟨fun row hrow => ?_, rfl⟩⟩
    obtain ⟨_, _, _⟩ := q
    subst hrow
    exact hno _ _ _ rfl

end SponsorDb

end Octo
