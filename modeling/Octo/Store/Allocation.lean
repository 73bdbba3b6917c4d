import Octo.Store.Call

/-!
# Address allocation in the store

The statements of `allocate_addresses` (`crates/store/src/addresses.rs`), with migrations 0001 and
0033.  A batch is one database transaction: an `UPDATE` that raises the wallet's counter and takes
the lock of its row, an `INSERT` for every address, and the commit.  What a transaction has not
committed is kept in its session: the new counter and the inserted rows.  The lock of the wallet's
row is held until the session ends.

A statement of a session that is not open fails; one that has to wait for another session is `none`.
-/

namespace Octo

structure NewAddress where
  customerRef : Option String
  metadata : String
  deriving DecidableEq

structure AllocSession where
  /-- `now()` in the transaction. -/
  startedAt : Time
  /-- The wallet whose counter was raised, and its new value. -/
  bumped : Option (Uuid × Int)
  /-- Oldest first. -/
  inserted : List Address

def AllocSession.locks (q : AllocSession) (walletId : Uuid) : Bool :=
  q.bumped.any (fun b => b.1 == walletId)

structure AllocDb where
  db : Db
  nextSession : Nat
  sessions : Nat → Option AllocSession

def usesId (rows : List Address) (walletId : Uuid) (muxedId : Int) : Bool :=
  rows.any (fun a => a.walletId == walletId && a.muxedId == muxedId)

/-- `idx_addresses_wallet_customer_ref`: is the reference in use?  Rows without one never conflict.
-/
def usesRef (rows : List Address) (walletId : Uuid) (customerRef : Option String) : Bool :=
  customerRef.isSome && rows.any (fun a => a.walletId == walletId && a.customerRef == customerRef)

namespace AllocDb

variable (s : AllocDb)

def otherSession (tx : Nat) (p : AllocSession → Bool) : Bool :=
  (List.range s.nextSession).any (fun i => i != tx && (s.sessions i).any p)

def setSession (tx : Nat) (q : AllocSession) : AllocDb :=
  { s with sessions := Function.update s.sessions tx (some q) }

def endSession (tx : Nat) : AllocDb := { s with sessions := Function.update s.sessions tx none }

def begin : Nat × AllocDb :=
  (s.nextSession,
    { s.setSession s.nextSession ⟨s.db.now, none, []⟩ with nextSession := s.nextSession + 1 })

/-- `UPDATE wallets SET next_muxed_id = next_muxed_id + $2 ... RETURNING next_muxed_id - $2`: waits
for the lock of the row, and fails if the counter overflows.  A transaction makes this statement
once. -/
def bumpCounter (tx : Nat) (walletId : Uuid) (count : Int) :
    Option (Except StoreError (Option Int) × AllocDb) :=
  match s.sessions tx with
  | none => some (.error .database, s)
  | some q =>
    if q.bumped.isSome then some (.error .database, s)
    else if s.otherSession tx (fun q => q.locks walletId) then none
    else
      match s.db.wallets.find? (fun w => w.id == walletId) with
      | none => some (.ok none, s)
      | some w =>
        if i64Max < w.nextMuxedId + count then some (.error .database, s)
        else some (.ok (some (w.nextMuxedId + count - count)),
          s.setSession tx { q with bumped := some (walletId, w.nextMuxedId + count) })

/-- `INSERT INTO addresses`: a key that another open session has inserted is waited for. -/
def insertAddress (tx : Nat) (walletId : Uuid) (muxedId : Int) (muxedAddress : String)
    (item : NewAddress) : Option (Except StoreError Address × AllocDb) :=
  match s.sessions tx with
  | none => some (.error .database, s)
  | some q =>
    -- CHECK (muxed_id >= 0) and the foreign key
    if muxedId < 0 || !s.db.wallets.any (fun w => w.id == walletId) then some (.error .database, s)
    else if usesId (s.db.addresses ++ q.inserted) walletId muxedId then some (.error .conflict, s)
    else if s.otherSession tx (fun q => usesId q.inserted walletId muxedId) then none
    else if usesRef (s.db.addresses ++ q.inserted) walletId item.customerRef
      then some (.error .duplicateCustomerRef, s)
    else if s.otherSession tx (fun q => usesRef q.inserted walletId item.customerRef) then none
    else
      let row : Address :=
        ⟨s.db.nextId, walletId, muxedId, muxedAddress, item.customerRef, item.metadata, q.startedAt⟩
      some (.ok row, { s.setSession tx { q with inserted := q.inserted ++ [row] } with
        db := { s.db with nextId := s.db.nextId + 1 } })

def written (q : AllocSession) (db : Db) : Db :=
  { db with
    wallets := db.wallets.map (fun w =>
      match q.bumped with
      | some (walletId, next) => if w.id == walletId then { w with nextMuxedId := next } else w
      | none => w)
    addresses := db.addresses ++ q.inserted }

def commit (tx : Nat) : Except StoreError Unit × AllocDb :=
  match s.sessions tx with
  | none => (.error .database, s)
  | some q => (.ok (), { s.endSession tx with db := written q s.db })

@[simp] theorem setSession_self (tx : Nat) (q : AllocSession) :
    (s.setSession tx q).sessions tx = some q :=
  Function.update_self _ _ _

variable {tx tx' : Nat}

theorem setSession_of_ne (h : tx' ≠ tx) (q : AllocSession) :
    (s.setSession tx q).sessions tx' = s.sessions tx' := Function.update_of_ne h _ _

theorem sessions_of_setSession {q q' : AllocSession}
    (h : (s.setSession tx q).sessions tx' = some q') :
    tx' = tx ∧ q' = q ∨ tx' ≠ tx ∧ s.sessions tx' = some q' := by
  simp only [setSession, Function.update_apply] at h
  split at h
  · exact .inl ⟨‹_›, (Option.some.inj h).symm⟩
  · exact .inr ⟨‹_›, h⟩

theorem sessions_of_endSession {q : AllocSession} (h : (s.endSession tx).sessions tx' = some q) :
    tx' ≠ tx ∧ s.sessions tx' = some q := by
  simp only [endSession, Function.update_apply] at h
  split at h
  · cases h
  · exact ⟨‹_›, h⟩

/-! ### What a statement can do -/

variable {s} {s' : AllocDb} {tx : Nat} {walletId : Uuid}

def counter (db : Db) (walletId : Uuid) : Option Int :=
  (db.wallets.find? (fun w => w.id == walletId)).map (·.nextMuxedId)

theorem bumpCounter_cases {count : Int} {a : Except StoreError (Option Int)}
    (h : s.bumpCounter tx walletId count = some (a, s')) :
    ((∃ e, a = .error e) ∨ a = .ok none) ∧ s' = s ∨
    ∃ q first, s.sessions tx = some q ∧ q.bumped = none ∧
      s.otherSession tx (fun q => q.locks walletId) = false ∧
      counter s.db walletId = some first ∧ a = .ok (some first) ∧
      s' = s.setSession tx { q with bumped := some (walletId, first + count) } := by
  unfold bumpCounter at h
  cases hq : s.sessions tx with
  | none =>
    rw [hq] at h
    cases h
    exact .inl ⟨.inl ⟨_, rfl⟩, rfl⟩
  | some q =>
    rw [hq] at h
    dsimp only at h
    split at h
    · cases h
      exact .inl ⟨.inl ⟨_, rfl⟩, rfl⟩
    · rename_i hbumped
      split at h
      · cases h
      · rename_i hother
        cases hw : s.db.wallets.find? (fun w => w.id == walletId) with
        | none =>
          rw [hw] at h
          cases h
          exact .inl ⟨.inr rfl, rfl⟩
        | some w =>
          rw [hw] at h
          dsimp only at h
          split at h
          · cases h
            exact .inl ⟨.inl ⟨_, rfl⟩, rfl⟩
          · cases h
            refine .inr ⟨q, w.nextMuxedId,
              rfl, by simpa using hbumped, by simpa using hother, by simp [counter, hw], ?_, rfl⟩
            rw [Int.add_sub_cancel]

theorem insertAddress_cases {muxedId : Int} {muxedAddress : String} {item : NewAddress}
    {a : Except StoreError Address}
    (h : s.insertAddress tx walletId muxedId muxedAddress item = some (a, s')) :
    (∃ e, a = .error e) ∧ s' = s ∨
    ∃ q row, s.sessions tx = some q ∧ usesId (s.db.addresses ++ q.inserted) walletId muxedId =
      false ∧ a = .ok row ∧ row.walletId = walletId ∧ row.muxedId = muxedId ∧
      s' = { s.setSession tx { q with inserted := q.inserted ++ [row] } with
        db := { s.db with nextId := s.db.nextId + 1 } } := by
  unfold insertAddress at h
  cases hq : s.sessions tx with
  | none =>
    rw [hq] at h
    cases h
    exact .inl ⟨⟨_, rfl⟩, rfl⟩
  | some q =>
    rw [hq] at h
    dsimp only at h
    split at h
    · cases h
      exact .inl ⟨⟨_, rfl⟩, rfl⟩
    · split at h
      · cases h
        exact .inl ⟨⟨_, rfl⟩, rfl⟩
      · rename_i hfree
        split at h
        · cases h
        · split at h
          · cases h
            exact .inl ⟨⟨_, rfl⟩, rfl⟩
          · split at h
            · cases h
            · cases h
              exact .inr ⟨q, _, rfl, by simpa using hfree, rfl, rfl, rfl, rfl⟩

end AllocDb

end Octo
