import Octo.Store.Models

/-!
# Withdrawal history and allowlist in the store

The withdrawal statements of `crates/store/src/ingest.rs` and the allowlist lookups of
`sponsorship.rs`.  The history lives in `transactions`; `idx_tx_withdrawal_unique` makes the row of
a wallet and a transaction hash unique.
-/

namespace Octo

structure NewWithdrawalTransaction where
  walletId : Uuid
  assetCode : String
  assetIssuer : Option String
  amountStroops : Int
  sourceAccount : String
  destinationAccount : String
  stellarTxHash : Option String
  status : TxStatus
  ledger : Option Int
  maxTime : Option Int
  deriving DecidableEq

structure WithdrawalAllowlistConfig where
  walletId : Uuid
  enabled : Bool
  deriving DecidableEq

structure WhitelistedAddress where
  id : Uuid
  walletId : Uuid
  address : String
  label : Option String
  deriving DecidableEq

structure Allowlist where
  configs : List WithdrawalAllowlistConfig
  addresses : List WhitelistedAddress
  deriving DecidableEq

namespace Allowlist

def config (al : Allowlist) (walletId : Uuid) : Option WithdrawalAllowlistConfig :=
  al.configs.find? (fun c => c.walletId == walletId)

def isAddressWhitelisted (al : Allowlist) (walletId : Uuid) (address : String) : Bool :=
  al.addresses.any (fun a => a.walletId == walletId && a.address == address)

def enabled (al : Allowlist) (walletId : Uuid) : Bool := (al.config walletId).any (·.enabled)

def ofAddresses (walletId : Uuid) (addresses : List String) : Allowlist where
  configs := [⟨walletId, true⟩]
  addresses := addresses.map (fun a => ⟨0, walletId, a, none⟩)

theorem ofAddresses_enabled (walletId : Uuid) (addresses : List String) :
    (ofAddresses walletId addresses).enabled walletId = true := by
  simp [ofAddresses, enabled, config]

theorem ofAddresses_isAddressWhitelisted {walletId : Uuid} {addresses : List String} {a : String} :
    (ofAddresses walletId addresses).isAddressWhitelisted walletId a = true ↔ a ∈ addresses := by
  simp [ofAddresses, isAddressWhitelisted]

end Allowlist

def Transaction.isWithdrawalOf (walletId : Uuid) (hash : String) (t : Transaction) : Bool :=
  t.direction == .withdrawal && t.walletId == walletId && t.stellarTxHash == some hash

/-- `ON CONFLICT (wallet_id, stellar_tx_hash)`; rows without a hash never conflict. -/
def NewWithdrawalTransaction.conflicts (new : NewWithdrawalTransaction) (t : Transaction) : Bool :=
  new.stellarTxHash.any (fun h => t.isWithdrawalOf new.walletId h)

/-- A pending withdrawal row moved to a final (or again the pending) status. -/
def Transaction.settled (status : TxStatus) (ledger : Option Int) (reason : Option String)
    (t : Transaction) : Transaction :=
  { t with
    status := status
    ledger := ledger.or t.ledger
    metadata := { t.metadata with reconcileReason := reason.or t.metadata.reconcileReason } }

variable {p : Transaction → Bool} {db : Db}

namespace Db

def withdrawalRow (db : Db) (new : NewWithdrawalTransaction) : Transaction where
  id := db.nextId
  walletId := new.walletId
  addressId := none
  direction := .withdrawal
  assetCode := new.assetCode
  assetIssuer := new.assetIssuer
  amountStroops := new.amountStroops
  sourceAccount := some new.sourceAccount
  destinationAccount := some new.destinationAccount
  stellarTxHash := new.stellarTxHash
  operationIndex := none
  horizonOpId := none
  ledger := new.ledger
  memoId := none
  status := new.status
  metadata := { maxTime := new.maxTime }
  createdAt := db.now

def updateTransactions (p : Transaction → Bool) (f : Transaction → Transaction) (db : Db) : Db :=
  { db with transactions := db.transactions.map (fun t => if p t then f t else t) }

/-- `Store::record_withdrawal_transaction`: insert, or advance the row if it is still pending.
`none` when the row already existed in a final state. -/
def recordWithdrawalTransaction (new : NewWithdrawalTransaction) (db : Db) :
    Except StoreError (Option Transaction) × Db :=
  -- CHECK (amount_stroops > 0)
  if new.amountStroops ≤ 0 then (.error .database, db)
  else
    match db.transactions.find? new.conflicts with
    | none => (.ok (some (db.withdrawalRow new)),
        { db with
          nextId := db.nextId + 1
          transactions := db.transactions ++ [db.withdrawalRow new] })
    | some t =>
      if t.status = .pending then
        (.ok (some (t.settled new.status new.ledger none)),
          db.updateTransactions (fun r => new.conflicts r && r.status == .pending)
            (Transaction.settled new.status new.ledger none))
      else (.ok none, db)

/-- Is `t` among the rows `list_stale_pending_withdrawals` selects from? -/
def isStalePendingWithdrawal (db : Db) (olderThan : Nat) (t : Transaction) : Bool :=
  t.direction == .withdrawal && t.status == .pending && decide (t.createdAt + olderThan < db.now)

/-- `Store::list_stale_pending_withdrawals`: `rows` are the oldest `limit` of the stale rows, oldest
first; rows of one age come in any order. -/
def isStalePendingList (db : Db) (olderThan limit : Nat) (rows : List Transaction) : Bool :=
  let stale := db.transactions.filter (db.isStalePendingWithdrawal olderThan)
  decide rows.Nodup && rows.all (fun r => stale.contains r)
    && rows.length == min limit stale.length
    && decide (rows.Pairwise (fun r r' => r.createdAt ≤ r'.createdAt))
    && rows.all (fun r => stale.all (fun t => rows.contains t ||
      decide (r.createdAt ≤ t.createdAt)))

/-- Does `settle_pending_withdrawal` touch `t`? -/
def isPendingWithdrawal (id : Uuid) (t : Transaction) : Bool :=
  t.id == id && t.direction == .withdrawal && t.status == .pending

/-- `Store::settle_pending_withdrawal`: `false` when the row was already settled. -/
def settlePendingWithdrawal (id : Uuid) (status : TxStatus) (ledger : Option Int)
    (reason : Option String) (db : Db) : Bool × Db :=
  (db.transactions.any (isPendingWithdrawal id),
    db.updateTransactions (isPendingWithdrawal id) (Transaction.settled status ledger reason))

/-! ### What the statements do to the rows -/

theorem mem_updateTransactions {f : Transaction → Transaction}
    {t' : Transaction} : t' ∈ (db.updateTransactions p f).transactions ↔
      ∃ t ∈ db.transactions, (if p t then f t else t) = t' := List.mem_map

/-- The upsert fails, inserts the row, advances a pending row or leaves a settled one alone. -/
theorem recordWithdrawal_cases (new : NewWithdrawalTransaction) (db : Db) :
    (db.recordWithdrawalTransaction new = (.error .database, db) ∧ new.amountStroops ≤ 0) ∨
    0 < new.amountStroops ∧
    ((db.recordWithdrawalTransaction new = (.ok (some (db.withdrawalRow new)),
        { db with
          nextId := db.nextId + 1, transactions := db.transactions ++ [db.withdrawalRow new] }) ∧
        ∀ t ∈ db.transactions, new.conflicts t = false) ∨
      ∃ t ∈ db.transactions, new.conflicts t = true ∧
      (t.status = .pending ∧ db.recordWithdrawalTransaction new =
          (.ok (some (t.settled new.status new.ledger none)),
            db.updateTransactions (fun r => new.conflicts r && r.status == .pending)
              (Transaction.settled new.status new.ledger none)) ∨
        t.status ≠ .pending ∧ db.recordWithdrawalTransaction new = (.ok none, db))) := by
  unfold recordWithdrawalTransaction
  by_cases hamt : new.amountStroops ≤ 0
  · exact .inl ⟨by rw [if_pos hamt], hamt⟩
  · refine .inr ⟨by omega, ?_⟩
    rw [if_neg hamt]
    cases hf : db.transactions.find? new.conflicts with
    | none =>
      refine .inl ⟨rfl, fun t ht => ?_⟩
      simpa using List.find?_eq_none.mp hf t ht
    | some t =>
      refine .inr ⟨t, List.mem_of_find?_eq_some hf, List.find?_some hf, ?_⟩
      by_cases hp : t.status = .pending
      · exact .inl ⟨hp, by simp only [hp, if_true]⟩
      · exact .inr ⟨hp, by simp only [hp, if_false]⟩

theorem recordWithdrawal_of_empty {new : NewWithdrawalTransaction} (h : db.transactions = [])
    (hpos : 0 < new.amountStroops) : (db.recordWithdrawalTransaction new).2 =
      { db with nextId := db.nextId + 1, transactions := [db.withdrawalRow new] } := by
  rcases recordWithdrawal_cases new db with ⟨-, hle⟩ | ⟨-, ⟨he, -⟩ | ⟨t, ht, -⟩⟩
  · omega
  · rw [he, h]
    rfl
  · rw [h] at ht
    exact absurd ht List.not_mem_nil

end Db

/-- What may happen to a row: its identity stays, and once it is settled it never changes. -/
structure RowStep (t t' : Transaction) : Prop where
  id : t'.id = t.id
  walletId : t'.walletId = t.walletId
  direction : t'.direction = t.direction
  hash : t'.stellarTxHash = t.stellarTxHash
  maxTime : t'.metadata.maxTime = t.metadata.maxTime
  final : t.status ≠ .pending → t' = t

theorem RowStep.refl (t : Transaction) : RowStep t t := ⟨rfl, rfl, rfl, rfl, rfl, fun _ => rfl⟩

theorem RowStep.trans {t1 t2 t3 : Transaction} (h1 : RowStep t1 t2) (h2 : RowStep t2 t3) :
    RowStep t1 t3 where
  id := h2.id.trans h1.id
  walletId := h2.walletId.trans h1.walletId
  direction := h2.direction.trans h1.direction
  hash := h2.hash.trans h1.hash
  maxTime := h2.maxTime.trans h1.maxTime
  final := by
    intro hf
    have h := h1.final hf
    rw [h2.final (by rw [h]; exact hf), h]

theorem RowStep.isWithdrawalOf {t t' : Transaction} (h : RowStep t t') (w : Uuid) (hash : String) :
    t'.isWithdrawalOf w hash = t.isWithdrawalOf w hash := by
  unfold Transaction.isWithdrawalOf
  rw [h.direction, h.walletId, h.hash]

theorem rowStep_settled {t : Transaction} (h : t.status = .pending) (status : TxStatus)
    (ledger : Option Int) (reason : Option String) : RowStep t (t.settled status ledger reason) :=
  ⟨rfl, rfl, rfl, rfl, rfl, fun hf => absurd h hf⟩

def RowsGrow (db db' : Db) : Prop :=
  ∀ t ∈ db.transactions, ∃ t' ∈ db'.transactions, RowStep t t'

theorem RowsGrow.of_subset {db db' : Db} (h : db.transactions ⊆ db'.transactions) :
    RowsGrow db db' := by
  intro t ht
  exact ⟨t, h ht, .refl t⟩

theorem RowsGrow.trans {db1 db2 db3 : Db} (h1 : RowsGrow db1 db2) (h2 : RowsGrow db2 db3) :
    RowsGrow db1 db3 := by
  intro t ht
  obtain ⟨t', ht', hs⟩ := h1 t ht
  obtain ⟨t'', ht'', hs'⟩ := h2 t' ht'
  exact ⟨t'', ht'', hs.trans hs'⟩

theorem rowsGrow_update {status : TxStatus} {ledger : Option Int}
    {reason : Option String} (hp : ∀ t, p t = true → t.status = .pending) :
    RowsGrow db (db.updateTransactions p (Transaction.settled status ledger reason)) := by
  intro t ht
  refine ⟨_, Db.mem_updateTransactions.mpr ⟨t, ht, rfl⟩, ?_⟩
  by_cases h : p t = true
  · rw [if_pos h]
    exact rowStep_settled (hp t h) status ledger reason
  · rw [if_neg h]
    exact .refl t

/-- No row is lost, and a settled row never changes. -/
theorem rowsGrow_recordWithdrawal (new : NewWithdrawalTransaction) (db : Db) :
    RowsGrow db (db.recordWithdrawalTransaction new).2 := by
  rcases Db.recordWithdrawal_cases new db with ⟨h, -⟩ | ⟨-, ⟨h, -⟩ | ⟨t, -, -, ⟨-, h⟩ | ⟨-, h⟩⟩⟩
  · rw [h]
    exact .of_subset (List.Subset.refl _)
  · rw [h]
    exact .of_subset (List.subset_append_left _ _)
  · rw [h]
    refine rowsGrow_update ?_
    intro t ht
    simp only [Bool.and_eq_true, beq_iff_eq] at ht
    exact ht.2
  · rw [h]
    exact .of_subset (List.Subset.refl _)

theorem rowsGrow_settle (id : Uuid) (status : TxStatus) (ledger : Option Int)
    (reason : Option String) (db : Db) :
    RowsGrow db (db.settlePendingWithdrawal id status ledger reason).2 := by
  refine rowsGrow_update ?_
  intro t ht
  simp only [Db.isPendingWithdrawal, Bool.and_eq_true, beq_iff_eq] at ht
  exact ht.2

end Octo
