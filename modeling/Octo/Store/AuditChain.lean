import Mathlib.Data.List.Sort
import Octo.Codec.BigEndian
import Octo.Crypto.Seal
import Octo.Store.Models

/-!
# The audit chain in the store

`crates/store/src/audit_chain.rs`, the part of `account.rs` that works on it, and the migrations
0006, 0026, 0029, 0031 and 0032 of `audit_logs`.  The rows of a user are linked by a MAC under a key
that the database does not have, and `audit_chain_heads` pins the newest link under a MAC of its
own.

Transactions that write the chain of one user exclude one another by an advisory lock, so each is
one function here: it commits with the tables it returns, or fails and changes nothing.  The MAC
itself is a parameter.  The constraints of the tables are fields of `AuditDb`.
-/

namespace Octo.Audit

open Codec Crypto

/-! ### Rows -/

abbrev Text := {s : String // (utf8 s).length < 2 ^ 63}

abbrev Uuid128 := Fin (2 ^ 128)

instance neZero_two_pow_128 : NeZero (2 ^ 128) := ⟨(Nat.two_pow_pos 128).ne'⟩

abbrev Hash := {b : Bytes // b.length = 32}

/-- The column `seq`: `BIGINT CHECK (seq >= 1)`. -/
abbrev Seq := {n : Int // 1 ≤ n ∧ n < 2 ^ 63}

def Seq.of? (n : Int) : Option Seq := if h : 1 ≤ n ∧ n < 2 ^ 63 then some ⟨n, h⟩ else none

structure Entry where
  id : Uuid128
  userId : Uuid128
  action : Text
  category : Text
  target : Option Text
  ipAddress : Option Text
  /-- In microseconds, the precision that is stored. -/
  createdAt : I64
  deriving DecidableEq

/-- A row of `audit_logs`.  `audit_logs_chain_complete` wants the three columns of the chain all
there, or none, but a `CHECK` lets a row pass on which it is `NULL`: so each may be there without
the others. -/
structure AuditRow extends Entry where
  seq : Option Seq
  prevHash : Option Hash
  rowHash : Option Hash
  deriving DecidableEq

structure ChainRow extends Entry where
  seq : Seq
  prevHash : Option Hash
  rowHash : Option Hash
  deriving DecidableEq

structure ChainHead where
  userId : Uuid128
  seq : Seq
  rowHash : Hash
  headMac : Hash
  deriving DecidableEq

def AuditRow.chainRow? (r : AuditRow) : Option ChainRow :=
  r.seq.map (fun seq => ⟨r.toEntry, seq, r.prevHash, r.rowHash⟩)

def ChainRow.row (r : ChainRow) : AuditRow := ⟨r.toEntry, some r.seq, r.prevHash, r.rowHash⟩

@[simp] theorem ChainRow.row_seq (r : ChainRow) : r.row.seq = some r.seq := rfl
@[simp] theorem ChainRow.row_toEntry (r : ChainRow) : r.row.toEntry = r.toEntry := rfl

/-! ### Hashes -/

structure AuditChainKey where
  mac : Bytes → Hash

def genesisPrevHash : Hash := ⟨List.replicate 32 0, List.length_replicate⟩

def rowDomain : Bytes := utf8 "octo/audit-row/v1"
def headDomain : Bytes := utf8 "octo/audit-head/v1"

def putStr (s : Text) : Bytes := beBytes 8 (utf8 s.val).length ++ utf8 s.val

def putOpt : Option Text → Bytes
  | none => [0]
  | some s => 1 :: putStr s

def seqBytes (n : Seq) : Bytes := i64Bytes ⟨n.val, by omega, n.property.2⟩

structure LinkFields where
  entry : Entry
  seq : Seq
  deriving DecidableEq

def rowMessage (prevHash : Hash) (f : LinkFields) : Bytes :=
  rowDomain ++ (prevHash.val ++
    (beBytes 16 f.entry.id ++ (beBytes 16 f.entry.userId ++ (seqBytes f.seq ++
    (i64Bytes f.entry.createdAt ++ (putStr f.entry.action ++ (putStr f.entry.category ++
      (putOpt f.entry.target ++ putOpt f.entry.ipAddress))))))))

def rowHash (key : AuditChainKey) (prevHash : Hash) (f : LinkFields) : Hash :=
  key.mac (rowMessage prevHash f)

def headMac (key : AuditChainKey) (userId : Uuid128) (seq : Seq) (rowHash : Hash) : Hash :=
  key.mac (headDomain ++ (beBytes 16 userId ++ (seqBytes seq ++ rowHash.val)))

def ChainRow.fields (r : ChainRow) : LinkFields := ⟨r.toEntry, r.seq⟩

def ChainHead.verified (key : AuditChainKey) (h : ChainHead) (userId : Uuid128) :
    Option (Int × Hash) :=
  if Audit.headMac key userId h.seq h.rowHash = h.headMac then some (h.seq, h.rowHash) else none

/-! ### Tables -/

structure AuditUser where
  id : Uuid128
  deletedAt : Option Time
  deriving DecidableEq

def samePosition (r r' : AuditRow) : Bool :=
  r.userId == r'.userId && r.seq.isSome && r.seq == r'.seq

structure AuditDb where
  users : List AuditUser
  /-- The id and the owner of each wallet. -/
  wallets : List (Uuid128 × Uuid128)
  logs : List AuditRow
  heads : List ChainHead
  ids_nodup : (logs.map (·.id)).Nodup
  positions : logs.Pairwise (fun r r' => samePosition r r' = false)
  heads_nodup : (heads.map (·.userId)).Nodup

namespace AuditDb

variable (db : AuditDb)

/-- New contents of `audit_logs`, if they keep the constraints. -/
def setLogs (logs : List AuditRow) : Except StoreError AuditDb :=
  if h : (logs.map (·.id)).Nodup ∧ logs.Pairwise (fun r r' => samePosition r r' = false) then
    .ok { db with logs := logs, ids_nodup := h.1, positions := h.2 }
  else .error .database

def insertLog (row : AuditRow) : Except StoreError AuditDb := db.setLogs (db.logs ++ [row])

def ownerDeleted (userId : Uuid128) : Bool :=
  db.users.any (fun u => u.id == userId && u.deletedAt.isSome)

def retained (r : AuditRow) : Entry × Option Seq :=
  ({ r.toEntry with target := none, ipAddress := none }, r.seq)

/-- `audit_logs_block_mutation` on an `UPDATE` by the server: a legacy row may be adopted, and a
deleted user's row anonymised. -/
def mutationAllowed (old new : AuditRow) : Bool :=
  old.seq.isNone && old.prevHash.isNone && old.rowHash.isNone && new.seq.isSome &&
    old.toEntry == new.toEntry ||
  new.target.isNone && new.ipAddress.isNone && retained old == retained new &&
    db.ownerDeleted old.userId

def updateLogs (p : AuditRow → Bool) (f : AuditRow → AuditRow) : Except StoreError AuditDb :=
  if (db.logs.filter p).all (fun r => db.mutationAllowed r (f r)) then
    db.setLogs (db.logs.map (fun r => if p r then f r else r))
  else .error .database

def headOf (userId : Uuid128) : Option ChainHead := db.heads.find? (fun h => h.userId == userId)

def writeHead (key : AuditChainKey) (userId : Uuid128) (seq : Seq) (rowHash : Hash) : AuditDb :=
  { db with
    heads := ⟨userId, seq, rowHash, headMac key userId seq rowHash⟩ ::
      db.heads.filter (fun h => h.userId != userId)
    heads_nodup := by
      refine List.nodup_cons.mpr ⟨?_, db.heads_nodup.sublist (List.filter_sublist.map _)⟩
      simp }

def seqBefore (r r' : ChainRow) : Prop := r.seq.val ≤ r'.seq.val

instance : DecidableRel seqBefore := fun _ _ => inferInstanceAs (Decidable (_ ≤ _))

def chainAfter (userId : Uuid128) (lastSeq : Int) : List ChainRow :=
  ((db.logs.filterMap AuditRow.chainRow?).filter
    (fun r => r.userId == userId && decide (lastSeq < r.seq.val))).insertionSort seqBefore

def verifyBatch : Nat := 1000

/-- `SELECT ... WHERE user_id = $1 AND seq > $2 ORDER BY seq LIMIT $3`. -/
def chainBatch (userId : Uuid128) (lastSeq : Int) : List ChainRow :=
  (db.chainAfter userId lastSeq).take verifyBatch

def unchained (userId : Uuid128) : List AuditRow :=
  db.logs.filter (fun r => r.userId == userId && r.seq.isNone)

def legacyBefore (r r' : AuditRow) : Prop :=
  r.createdAt.val < r'.createdAt.val ∨ r.createdAt.val = r'.createdAt.val ∧ r.id ≤ r'.id

instance : DecidableRel legacyBefore := fun _ _ => inferInstanceAs (Decidable (_ ∨ _))

/-! ### Appending -/

section

variable (key : AuditChainKey)

def adoptRows : AuditDb → Int → Hash → List AuditRow → Except StoreError ((Int × Hash) × AuditDb)
  | db, seq, prev, [] => .ok ((seq, prev), db)
  | db, seq, prev, row :: rows =>
    match Seq.of? (seq + 1) with
    | none => .error .database
    | some n => do
      let hash := rowHash key prev ⟨row.toEntry, n⟩
      let db ← db.updateLogs (fun r => r.id == row.id) 
        (fun r => { r with seq := some n, prevHash := some prev, rowHash := some hash })
      adoptRows db n.val hash rows

def adoptLegacyRows (userId : Uuid128) : Except StoreError ((Int × Hash) × AuditDb) :=
  adoptRows key db 0 genesisPrevHash ((db.unchained userId).insertionSort legacyBefore)

def chainTip (userId : Uuid128) : Except StoreError ((Int × Hash) × AuditDb) :=
  match db.headOf userId with
  | some head =>
    match head.verified key userId with
    | some tip => .ok (tip, db)
    | none => .error .auditChainCorrupt
  | none =>
    if db.logs.any (fun r => r.userId == userId && r.seq.isSome) then .error .auditChainCorrupt
    else db.adoptLegacyRows key userId

/-- `append_link`, with the id and the time that were drawn in `e`. -/
def appendLink (e : Entry) : Except StoreError AuditDb := do
  let (tip, db) ← db.chainTip key e.userId
  match Seq.of? (tip.1 + 1) with
  | none => .error .database
  | some seq =>
    let hash := rowHash key tip.2 ⟨e, seq⟩
    let db ← db.insertLog ⟨e, some seq, some tip.2, some hash⟩
    .ok (db.writeHead key e.userId seq hash)

def recordAudit (e : Entry) : Except StoreError AuditDb := db.appendLink key e

/-! ### Anonymising -/

/-- The variables of the loop of `anonymise_chain`, with the tables as the transaction sees them. -/
structure Relink where
  db : AuditDb
  lastSeq : Int
  oldPrev : Hash
  newPrev : Hash

def scrubbed (e : Entry) : Entry := { e with target := none, ipAddress := none }

/-- One row: checked against its hash, then linked anew without its personal data. -/
def relinkRow (st : Relink) (row : ChainRow) : Except StoreError Relink :=
  if row.seq.val ≠ st.lastSeq + 1 ∨ row.prevHash ≠ some st.oldPrev then .error .auditChainCorrupt
  else
    let oldHash := rowHash key st.oldPrev row.fields
    if row.rowHash ≠ some oldHash then .error .auditChainCorrupt
    else do
      let newHash := rowHash key st.newPrev ⟨scrubbed row.toEntry, row.seq⟩
      let db ← st.db.updateLogs (fun r => r.id == row.id)
        (fun r => ⟨scrubbed r.toEntry, r.seq, some st.newPrev, some newHash⟩)
      .ok ⟨db, row.seq, oldHash, newHash⟩

/-- The loop over the batches; each moves on, so that the fuel does not run out. -/
def relinkBatches (userId : Uuid128) : Nat → Relink → Except StoreError Relink
  | 0, _ => .error .database
  | fuel + 1, st =>
    let rows := st.db.chainBatch userId st.lastSeq
    if rows.isEmpty then .ok st
    else do
      let st ← rows.foldlM (relinkRow key) st
      relinkBatches userId fuel st

def Relink.writeHead (st : Relink) (userId : Uuid128) : AuditDb :=
  match Seq.of? st.lastSeq with
  | some seq => st.db.writeHead key userId seq st.newPrev
  | none => st.db

def isStray (userId : Uuid128) (r : AuditRow) : Bool :=
  r.userId == userId && r.seq.isNone && (r.target.isSome || r.ipAddress.isSome)

def anonymiseChain (userId : Uuid128) : Except StoreError (Nat × AuditDb) := do
  let (tip, db) ← db.chainTip key userId
  let st ← relinkBatches key userId (db.logs.length + 1) ⟨db, 0, genesisPrevHash, genesisPrevHash⟩
  if st.lastSeq ≠ tip.1 ∨ st.oldPrev ≠ tip.2 then .error .auditChainCorrupt
  else
    let db := st.writeHead key userId
    let stray := (db.logs.filter (isStray userId)).length
    let db ← db.updateLogs (isStray userId)
      (fun r => ⟨scrubbed r.toEntry, r.seq, r.prevHash, r.rowHash⟩)
    .ok (st.lastSeq.toNat + stray, db)

structure Deletion where
  userId : Uuid128
  checkedWallets : List Uuid128
  now : Time
  id : Uuid128
  createdAt : I64

def Deletion.entry (d : Deletion) : Entry :=
  ⟨d.id, d.userId, ⟨"deleted their account", by decide⟩, ⟨"authentication", by decide⟩, none, none,
    d.createdAt⟩

/-- `delete_account`, on the tables that the chain is in: how many audit rows were anonymised. -/
def deleteAccount (d : Deletion) : Except StoreError (Nat × AuditDb) :=
  if !db.users.any (fun u => u.id == d.userId && u.deletedAt.isNone) then .error .notFound
  else if ((db.wallets.filter (fun w => w.2 == d.userId)).map (·.1)).insertionSort (· ≤ ·) ≠
      d.checkedWallets.insertionSort (· ≤ ·) then .error .conflict
  else do
    let db : AuditDb := { db with users := db.users.map (fun u =>
      if u.id == d.userId then { u with deletedAt := some d.now } else u) }
    let (anonymised, db) ← db.anonymiseChain key d.userId
    let db ← db.appendLink key d.entry
    .ok (anonymised, db)

end

end AuditDb

end Octo.Audit
