import Octo.Store.Models

/-!
# Deposits, cursors and addresses in the store

`crates/store/src/ingest.rs`, `addresses.rs` and the wallet lookups, each as the effect of
one statement (or one store transaction) on the tables.  Foreign keys never fire on the
modelled paths: wallets, addresses and links are never deleted.
-/

namespace Octo

namespace Db

/-- The unique indexes `uq_tx_onchain` and `uq_tx_horizon_op_id`: does row `t` clash with the
new deposit `d`? -/
def clashes (d : NewDeposit) (t : Transaction) : Bool :=
  (t.stellarTxHash == some d.stellarTxHash && t.operationIndex == some d.operationIndex)
    || t.horizonOpId == some d.horizonOpId

def depositRow (db : Db) (d : NewDeposit) : Transaction where
  id := db.nextId
  walletId := d.walletId
  addressId := d.addressId
  direction := .deposit
  assetCode := d.assetCode
  assetIssuer := d.assetIssuer
  amountStroops := d.amountStroops
  sourceAccount := d.sourceAccount
  destinationAccount := d.destinationAccount
  stellarTxHash := some d.stellarTxHash
  operationIndex := some d.operationIndex
  horizonOpId := some d.horizonOpId
  ledger := d.ledger
  memoId := d.memoId
  status := .confirmed
  metadata := {}
  createdAt := db.now

/-- `Store::record_deposit`: `none` when a unique index says the operation is already there. -/
def recordDeposit (d : NewDeposit) (db : Db) : Except StoreError (Option Transaction) × Db :=
  -- CHECK (amount_stroops > 0)
  if d.amountStroops ≤ 0 then (.error .database, db)
  else if db.transactions.any (clashes d) then (.ok none, db)
  else (.ok (some (db.depositRow d)),
    { db with nextId := db.nextId + 1, transactions := db.transactions ++ [db.depositRow d] })

def getCursor (walletId : Uuid) (db : Db) : Option String :=
  (db.cursors.find? (fun c => c.walletId == walletId)).bind (·.pagingToken)

def upsertCursor (walletId : Uuid) (insert : IngestCursor) (update : IngestCursor → IngestCursor)
    (db : Db) : Db :=
  if db.cursors.any (fun c => c.walletId == walletId) then
    { db with cursors := db.cursors.map (fun c => if c.walletId == walletId then update c else c) }
  else { db with cursors := db.cursors ++ [insert] }

/-- `Store::set_cursor`: unconditional, so the token may move in either direction. -/
def setCursor (walletId : Uuid) (token : String) (db : Db) : Db :=
  db.upsertCursor walletId ⟨walletId, some token, db.now, none⟩
    (fun c => { c with pagingToken := some token, updatedAt := db.now })

def markPolled (walletId : Uuid) (db : Db) : Db :=
  db.upsertCursor walletId ⟨walletId, none, 0, some db.now⟩
    (fun c => { c with lastPolledAt := some db.now })

def getWallet (id : Uuid) (db : Db) : Except StoreError Wallet :=
  match db.wallets.find? (fun w => w.id == id) with
  | some w => .ok w
  | none => .error .notFound

def getAddress (id : Uuid) (db : Db) : Option Address :=
  db.addresses.find? (fun a => a.id == id)

def addressByMuxedId (walletId : Uuid) (muxedId : Int) (db : Db) : Option Address :=
  db.addresses.find? (fun a => a.walletId == walletId && a.muxedId == muxedId)

/-- `Store::allocate_address`: bump the wallet's counter and insert the row, in one
transaction.  `derive` is the caller's muxed-address closure. -/
def allocateAddress (walletId : Uuid) (derive : Int → Option String) (customerRef : Option String)
    (metadata : String) (db : Db) : Except StoreError Address × Db :=
  match db.wallets.find? (fun w => w.id == walletId) with
  | none => (.error .notFound, db)
  | some w =>
    match derive w.nextMuxedId with
    | none => (.error .notFound, db)
    | some muxedAddress =>
      -- UNIQUE (wallet_id, muxed_id) and the partial unique index on customer_ref
      if db.addresses.any (fun a => a.walletId == walletId && a.muxedId == w.nextMuxedId) then
        (.error .conflict, db)
      else if customerRef.isSome &&
          db.addresses.any (fun a => a.walletId == walletId && a.customerRef == customerRef) then
        (.error .duplicateCustomerRef, db)
      else
      let a : Address := ⟨db.nextId, walletId, w.nextMuxedId, muxedAddress, customerRef, metadata,
        db.now⟩
      (.ok a,
        { db with
          nextId := db.nextId + 1
          wallets := db.wallets.map (fun w =>
            if w.id == walletId then { w with nextMuxedId := w.nextMuxedId + 1 } else w)
          addresses := db.addresses ++ [a] })

/-! ### The cursor after an upsert -/

theorem find?_upsertCursor (db : Db) {w : Uuid} {i : IngestCursor} {f : IngestCursor → IngestCursor}
    (hi : i.walletId = w) (hf : ∀ c, (f c).walletId = c.walletId) (w' : Uuid) :
    (db.upsertCursor w i f).cursors.find? (fun c => c.walletId == w') =
      if w' = w then some ((db.cursors.find? (fun c => c.walletId == w)).elim i f)
      else db.cursors.find? (fun c => c.walletId == w') := by
  unfold upsertCursor
  split
  · rename_i hany
    have hcomp : (fun c : IngestCursor => c.walletId == w') ∘
        (fun c => if c.walletId == w then f c else c) = fun c => c.walletId == w' := by
      funext c
      simp only [Function.comp]
      split
      · rw [hf]
      · rfl
    rw [List.find?_map, hcomp]
    split
    · rename_i heq
      subst heq
      obtain ⟨c, hc⟩ := Option.isSome_iff_exists.mp
        (List.find?_isSome.mpr (List.any_eq_true.mp hany))
      have hw : c.walletId = w' := by simpa using List.find?_some hc
      simp [hc, hw]
    · rename_i hne
      cases hc : db.cursors.find? (fun c => c.walletId == w') with
      | none => rfl
      | some c =>
        have hw : c.walletId = w' := by simpa using List.find?_some hc
        simp [hw, hne]
  · rename_i hany
    have hnone : db.cursors.find? (fun c => c.walletId == w) = none := by
      rw [List.find?_eq_none]
      intro c hc hw
      exact hany (List.any_eq_true.mpr ⟨c, hc, hw⟩)
    split
    · rename_i heq
      subst heq
      simp [hnone, hi]
    · rename_i hne
      have : (w == w') = false := by simpa using Ne.symm hne
      simp [hi, this]

/-- What the saved cursor is after the upsert. -/
theorem getCursor_setCursor (db : Db) (w : Uuid) (token : String) (w' : Uuid) :
    (db.setCursor w token).getCursor w' = if w' = w then some token else db.getCursor w' := by
  unfold getCursor setCursor
  rw [find?_upsertCursor db (i := ⟨w, some token, db.now, none⟩)
    (f := fun c => { c with pagingToken := some token, updatedAt := db.now }) rfl (fun _ => rfl)]
  split
  · cases db.cursors.find? (fun c => c.walletId == w) <;> rfl
  · rfl

theorem getCursor_markPolled (db : Db) (w w' : Uuid) :
    (db.markPolled w).getCursor w' = db.getCursor w' := by
  unfold getCursor markPolled
  rw [find?_upsertCursor db (i := ⟨w, none, 0, some db.now⟩)
    (f := fun c => { c with lastPolledAt := some db.now }) rfl (fun _ => rfl)]
  split
  · rename_i heq
    subst heq
    cases db.cursors.find? (fun c => c.walletId == w') <;> rfl
  · rfl

end Db

end Octo
