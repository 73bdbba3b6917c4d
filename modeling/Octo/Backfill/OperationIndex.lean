import Mathlib.Data.List.Sort
import Octo.Ingest.Text

/-!
# The backfill of operation indices

`bin/backfill-operation-index` reads the deposit rows page by page and sets `operation_index` to
what `horizon_op_id` says. Its `UPDATE` also sets `updated_at`, a column that no migration gives to
`transactions`: Postgres refuses the statement, the batch is rolled back and counted as an error,
and the run goes on and exits `Ok`.
-/

namespace Octo.Backfill

open Option

/-- The columns of `transactions`: `0001_init.sql`, `0002_horizon_op_id.sql`. -/
def transactionsColumns : List String :=
  ["id", "wallet_id", "address_id", "direction", "asset_code", "asset_issuer", "amount_stroops",
    "source_account", "destination_account", "stellar_tx_hash", "operation_index", "ledger",
    "memo_id", "status", "reference", "metadata", "created_at", "horizon_op_id"]

/-- A row, with the column that the rest of the code does not read. -/
structure Row extends Transaction where
  reference : Option String
  deriving DecidableEq

structure UpdateCandidate where
  id : Uuid
  horizonOpId : String
  currentOperationIndex : Int
  newOperationIndex : Int

structure Args where
  batchSize : Nat
  dryRun : Bool
  limit : Nat

/-- What the run meets in its batches: the order of rows created at the same time, the clock, and
calls that fail. -/
structure Env where
  order : Nat → List Row → List Row
  order_perm : ∀ k rows, (order k rows).Perm rows
  order_sorted : ∀ k rows, (order k rows).Pairwise (fun r r' => r.createdAt ≤ r'.createdAt)
  clock : Nat → Nat
  selectFails : Nat → Bool
  beginFails : Nat → Bool
  commitFails : Nat → Bool

def operationIndexFromToid (now : Nat) (toid : String) : Option Int :=
  (decodeToid toid (plausibleMaxLedger now)).map (·.operationIndex)

def candidate (now : Nat) (r : Row) : Option UpdateCandidate := do
  let op ← r.horizonOpId
  let current ← r.operationIndex
  let new ← operationIndexFromToid now op
  if new ≠ current then some ⟨r.id, op, current, new⟩ else none

/-- `find_candidates_batch`.  The bounds are bound as `i64`, and `row.get` panics on an index that
is `NULL`. -/
def findCandidatesBatch (env : Env) (k limit offset : Nat) (rows : List Row) :
    Option (List UpdateCandidate × Nat) :=
  if env.selectFails k || decide (2 ^ 63 ≤ limit) || decide (2 ^ 63 ≤ offset) then none
  else
    let deposits := rows.filter (fun r => r.direction == .deposit && r.horizonOpId.isSome)
    let found := ((env.order k deposits).drop offset).take limit
    if found.any (·.operationIndex.isNone) then none
    else some (found.filterMap (candidate (env.clock k)), found.length)

/-- The keys of `uq_tx_onchain`. -/
def onchainKeys (rows : List Row) : List (String × Int) :=
  rows.filterMap (fun r => do return (← r.stellarTxHash, ← r.operationIndex))

/-- The `UPDATE` of `update_batch`: the number of rows it hits and the table.  It is refused if it
sets a column that the table does not have, and if the unique index does not allow it. -/
def updateOperationIndex (c : UpdateCandidate) (rows : List Row) : Option (Nat × List Row) :=
  if !(["operation_index", "updated_at"].all (transactionsColumns.contains ·)) then none
  else
    let hit (r : Row) : Bool :=
      r.id == c.id && r.operationIndex == some c.currentOperationIndex &&
        r.horizonOpId == some c.horizonOpId
    let rows' := rows.map (fun r => if hit r
      then { r with operationIndex := some c.newOperationIndex } else r)
    if (onchainKeys rows').Nodup then some (rows.countP hit, rows') else none

def updateCandidates : List UpdateCandidate → List Row → Option (Nat × List Row)
  | [], rows => some (0, rows)
  | c :: cs, rows => do
    let (affected, rows) ← updateOperationIndex c rows
    let (updated, rows) ← updateCandidates cs rows
    return ((if affected = 1 then 1 else 0) + updated, rows)

def updateBatch (env : Env) (k : Nat) (candidates : List UpdateCandidate) (dryRun : Bool)
    (rows : List Row) : Option (Nat × List Row) :=
  if candidates.isEmpty then some (0, rows)
  else if dryRun then some (candidates.length, rows)
  else if env.beginFails k then none
  else (updateCandidates candidates rows).filter (fun _ => !env.commitFails k)

structure BackfillStats where
  totalExamined : Nat := 0
  needsUpdate : Nat := 0
  updated : Nat := 0
  errors : Nat := 0
  deriving DecidableEq

/-- The loop of `run_backfill`, for at most so many batches.  Nothing is returned by a run that does
not exit `Ok`. -/
def backfillLoop (env : Env) (args : Args) :
    Nat → Nat → Nat → Nat → BackfillStats → List Row → Option (BackfillStats × List Row)
  | 0, _, _, _, _, _ => none
  | fuel + 1, k, offset, processed, stats, rows =>
    let size := if args.limit > 0 then min args.batchSize (args.limit - processed)
      else args.batchSize
    if size = 0 then some (stats, rows)
    else match findCandidatesBatch env k size offset rows with
      | none => none
      | some (candidates, examined) =>
        if examined = 0 then some (stats, rows)
        else
          let stats := { stats with
            totalExamined := stats.totalExamined + examined
            needsUpdate := stats.needsUpdate + candidates.length }
          if candidates.isEmpty then
            if examined < size then some (stats, rows)
            else backfillLoop env args fuel (k + 1) (offset + examined) (processed + examined)
              stats rows
          else
            let (stats, rows) := match updateBatch env k candidates args.dryRun rows with
              | some (n, rows) => ({ stats with updated := stats.updated + n }, rows)
              | none => ({ stats with errors := stats.errors + 1 }, rows)
            if args.limit > 0 && decide (args.limit ≤ processed + examined) then some (stats, rows)
            else backfillLoop env args fuel (k + 1) (offset + examined) (processed + examined)
              stats rows

def runBackfill (env : Env) (args : Args) (fuel : Nat) (rows : List Row) :
    Option (BackfillStats × List Row) :=
  backfillLoop env args fuel 0 0 0 {} rows

/-! ### Nothing is written -/

theorem updateOperationIndex_refused (c : UpdateCandidate) (rows : List Row) :
    updateOperationIndex c rows = none :=
  if_pos (by decide)

variable {env : Env} {args : Args} {rows rows' : List Row}

/-- A batch that does not fail has written nothing. -/
theorem updateBatch_keeps {k n : Nat} {candidates : List UpdateCandidate} {dryRun : Bool}
    (h : updateBatch env k candidates dryRun rows = some (n, rows')) : rows' = rows := by
  cases candidates with
  | nil => exact (Prod.mk.inj (some.inj h)).2.symm
  | cons c cs =>
    cases dryRun with
    | true => exact (Prod.mk.inj (some.inj h)).2.symm
    | false =>
      have hnone : updateCandidates (c :: cs) rows = none := by
        rw [updateCandidates, updateOperationIndex_refused]
        rfl
      rw [updateBatch, hnone] at h
      cases hb : env.beginFails k <;> rw [hb] at h <;> cases h

/-- **A run leaves the table as it is.** -/
theorem backfillLoop_keeps {fuel k offset processed : Nat} {stats stats' : BackfillStats}
    (h : backfillLoop env args fuel k offset processed stats rows = some (stats', rows')) :
    rows' = rows := by
  induction fuel generalizing k offset processed stats with
  | zero => cases h
  | succ fuel ih =>
    rw [backfillLoop] at h
    dsimp only at h
    generalize (if args.limit > 0 then min args.batchSize (args.limit - processed)
      else args.batchSize) = size at h
    split at h
    · exact (Prod.mk.inj (some.inj h)).2.symm
    · split at h
      · cases h
      · rename_i candidates examined _
        split at h
        · exact (Prod.mk.inj (some.inj h)).2.symm
        · split at h
          · split at h
            · exact (Prod.mk.inj (some.inj h)).2.symm
            · exact ih h
          · cases hu : updateBatch env k candidates args.dryRun rows with
            | none =>
              rw [hu] at h
              split at h
              · exact (Prod.mk.inj (some.inj h)).2.symm
              · exact ih h
            | some =>
              obtain rfl := updateBatch_keeps hu
              rw [hu] at h
              split at h
              · exact (Prod.mk.inj (some.inj h)).2.symm
              · exact ih h

/-- Every deposit row whose `horizon_op_id` decodes has the decoded index. -/
def Repaired (now : Nat) (rows : List Row) : Prop :=
  ∀ r ∈ rows, r.direction = .deposit → ∀ op, r.horizonOpId = some op →
    ∀ i, operationIndexFromToid now op = some i → r.operationIndex = some i

def withoutIndex (r : Row) : Row := { r with operationIndex := none }

/-- **The backfill repairs the rows exactly if they needed no repair**: after a run that exits `Ok`,
every deposit row has the decoded index, the other columns are unchanged and another run changes
nothing, if and only if every deposit row had the decoded index before. -/
theorem backfill_repairs_iff (now : Nat) {fuel : Nat} {stats : BackfillStats}
    (h : runBackfill env args fuel rows = some (stats, rows')) :
    (Repaired now rows' ∧ rows'.map withoutIndex = rows.map withoutIndex ∧
      ∀ env' args' fuel' stats' rows'', runBackfill env' args' fuel' rows' = some (stats', rows'') →
      rows'' = rows') ↔ Repaired now rows := by
  obtain rfl := backfillLoop_keeps h
  exact ⟨fun h => h.1, fun h => ⟨h, rfl, fun _ _ _ _ _ h' => backfillLoop_keeps h'⟩⟩

/-- Rows in the order of their insertion where they were created at the same time. -/
def exampleEnv : Env where
  order _ rows := rows.insertionSort (fun r r' => r.createdAt ≤ r'.createdAt)
  order_perm _ rows := List.perm_insertionSort _ rows
  order_sorted _ rows := List.pairwise_insertionSort _ rows
  clock _ := 1767225600
  selectFails _ := false
  beginFails _ := false
  commitFails _ := false

/-- The second operation of its transaction, recorded with the index of the first. -/
def exampleRow : Row where
  id := 1
  walletId := 1
  addressId := none
  direction := .deposit
  assetCode := "native"
  assetIssuer := none
  amountStroops := 10000000
  sourceAccount := none
  destinationAccount := none
  stellarTxHash := some "h"
  operationIndex := some 0
  horizonOpId := some "12884905986"
  ledger := some 3
  memoId := none
  status := .confirmed
  metadata := {}
  createdAt := 0
  reference := none

theorem right_index_kept : Repaired 1767225600 [{ exampleRow with operationIndex := some 1 }] :=
  ((backfill_repairs_iff 1767225600 (show runBackfill exampleEnv ⟨1000, false, 0⟩ 1
    [{ exampleRow with operationIndex := some 1 }] =
      some (⟨1, 0, 0, 0⟩, [{ exampleRow with operationIndex := some 1 }]) by decide)).mpr (by
    intro r hr _ op hop i hi
    obtain rfl := List.mem_singleton.mp hr
    obtain rfl : "12884905986" = op := Option.some.inj hop
    rw [← hi]
    decide)).1

/-- **A run that exits `Ok` and repairs nothing.** -/
theorem wrong_index_stays :
    runBackfill exampleEnv ⟨1000, false, 0⟩ 2 [exampleRow] = some (⟨1, 1, 0, 1⟩, [exampleRow]) ∧
      ¬Repaired 1767225600 [exampleRow] := by
  refine ⟨by decide, fun h => ?_⟩
  have hindex := h exampleRow List.mem_cons_self rfl "12884905986" rfl 1 (by decide)
  cases hindex

end Octo.Backfill
