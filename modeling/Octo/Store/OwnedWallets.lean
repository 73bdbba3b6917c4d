import Mathlib.Data.List.Sort
import Octo.Store.Accounts

/-!
# Wallets with their owners, API keys and webhook endpoints

`create_client_wallet` and the listing of `crates/store/src/wallets.rs`, `api_keys.rs`, the
registration in `webhooks.rs`, and `delete_account` of `account.rs` on these tables and those of the
user.
-/

namespace Octo.Account

open Auth List

structure WalletRow where
  id : Uuid
  userId : Option Uuid
  network : String
  stellarAccountG : String
  gasTankAccountG : Option String
  label : Option String
  description : Option String
  encryptedBackup : Option String
  createdAt : Time
  archivedAt : Option Time
  deriving DecidableEq

structure ApiKey where
  walletId : Uuid
  keyPrefix : String
  keyHash : String
  scopes : List String
  expiresAt : Option Time
  lastUsedAt : Option Time
  deriving DecidableEq

structure WebhookEndpoint where
  id : Uuid
  walletId : Uuid
  url : String
  secret : String
  active : Bool
  deletedAt : Option Time
  deriving DecidableEq

structure AccountDb where
  auth : AuthDb
  wallets : List WalletRow
  apiKeys : List ApiKey
  webhooks : List WebhookEndpoint
  nextId : Uuid
  wallets_nodup : (wallets.map (·.id)).Nodup
  wallets_lt : ∀ r ∈ wallets, r.id < nextId

structure NewClientWallet where
  network : String
  stellarAccountG : String
  encryptedBackup : Option String
  label : Option String
  description : Option String
  deriving DecidableEq

namespace AccountDb

variable (db : AccountDb)

/-! ### Wallets -/

def getWallet (id : Uuid) : Except StoreError WalletRow :=
  match db.wallets.find? (fun r => r.id == id) with
  | some r => .ok r
  | none => .error .notFound

/-- `(created_at, id)` of `r` comes after that of `r'`, or they are one row. -/
def isNewest (r r' : WalletRow) : Bool :=
  decide (r'.createdAt < r.createdAt) || (r.createdAt == r'.createdAt && decide (r'.id ≤ r.id))

/-- `list_wallets_for_user_page`: newest first, after the row `before`. -/
def listWalletsForUserPage (userId : Uuid) (limit : Nat) (before : Option Uuid) : List WalletRow :=
  let after (r : WalletRow) : Bool := before.all (fun id =>
    (db.wallets.find? (fun c => c.id == id)).any (fun c => isNewest c r && r.id != id))
  ((db.wallets.filter (fun r => r.userId == some userId && after r)).insertionSort
    (fun r r' => isNewest r r' = true)).take limit

def walletRow (userId : Uuid) (n : NewClientWallet) : WalletRow :=
  ⟨db.nextId, some userId, n.network, n.stellarAccountG, none, n.label, n.description,
    n.encryptedBackup, db.auth.now, none⟩

/-- `create_client_wallet`: accounts are unique, and the user is a row. -/
def createClientWallet (userId : Uuid) (n : NewClientWallet) :
    Except StoreError WalletRow × AccountDb :=
  if db.wallets.any (fun r => r.stellarAccountG == n.stellarAccountG) then (.error .conflict, db)
  else if db.auth.users.any (fun u => u.id == userId) then
    (.ok (db.walletRow userId n),
      { db with
        wallets := db.wallets ++ [db.walletRow userId n]
        nextId := db.nextId + 1
        wallets_nodup := Rows.nodup_concat db.wallets_nodup
          (fun r hr => Nat.ne_of_lt (db.wallets_lt r hr))
        wallets_lt := Rows.lt_concat db.wallets_lt rfl })
  else (.error .database, db)

/-! ### API keys -/

def hasWallet (walletId : Uuid) : Bool := db.wallets.any (fun r => r.id == walletId)

def upsertApiKey (k : ApiKey) : Except StoreError ApiKey × AccountDb :=
  if db.hasWallet k.walletId then
    (.ok k, { db with apiKeys := db.apiKeys.filter (fun k' => k'.walletId != k.walletId) ++ [k] })
  else (.error .database, db)

/-- `create_api_key`; an existing key is a database error, too. -/
def createApiKey (k : ApiKey) : Except StoreError ApiKey × AccountDb :=
  if db.hasWallet k.walletId && !db.apiKeys.any (fun k' => k'.walletId == k.walletId) then
    (.ok k, { db with apiKeys := db.apiKeys ++ [k] })
  else (.error .database, db)

def useApiKey (keyHash : String) : Option ApiKey × AccountDb :=
  let live := fun k : ApiKey => k.keyHash == keyHash &&
    k.expiresAt.all (fun t => decide (db.auth.now < t))
  let used := fun k : ApiKey => { k with lastUsedAt := some db.auth.now }
  ((db.apiKeys.find? live).map used,
    { db with apiKeys := db.apiKeys.map (fun k => if live k then used k else k) })

/-! ### Webhook endpoints -/

def createWebhookEndpoint (walletId : Uuid) (url secret : String) :
    Except StoreError WebhookEndpoint × AccountDb :=
  if db.hasWallet walletId then
    (.ok ⟨db.nextId, walletId, url, secret, true, none⟩,
      { db with
        webhooks := db.webhooks ++ [⟨db.nextId, walletId, url, secret, true, none⟩]
        nextId := db.nextId + 1
        wallets_lt := fun r hr => Nat.lt_succ_of_lt (db.wallets_lt r hr) })
  else (.error .database, db)

/-! ### Deletion -/

def walletIds (userId : Uuid) : List Uuid :=
  (db.wallets.filter (fun r => r.userId == some userId)).map (·.id)

def scrubUser (u : User) : AuthDb :=
  let scrubbed := (db.auth.updateUser u.id (fun u =>
      { u with
        email := "deleted+" ++ toString u.id ++ "@users.invalid"
        passwordHash := "!deleted"
        deletedAt := some db.auth.now
        sessionEpoch := u.sessionEpoch + 1 })).updateSessions (fun q => q.userId == u.id &&
          q.revokedAt.isNone)
      (fun q => { q with revokedAt := some db.auth.now })
  { scrubbed with lockouts := scrubbed.lockouts.filter (fun l => l.email != u.email.toLower) }

def archived (r : WalletRow) : WalletRow :=
  { r with
    archivedAt := r.archivedAt.or (some db.auth.now)
    label := none
    description := none
    encryptedBackup := none }

def retired (h : WebhookEndpoint) : WebhookEndpoint :=
  { h with active := false, deletedAt := h.deletedAt.or (some db.auth.now) }

def afterDeletion (u : User) : AccountDb :=
  { db with
    auth := db.scrubUser u
    wallets := db.wallets.map (fun r => if r.userId == some u.id then db.archived r else r)
    apiKeys := db.apiKeys.filter (fun k => !(db.walletIds u.id).contains k.walletId)
    webhooks := db.webhooks.map (fun h => if (db.walletIds u.id).contains h.walletId
      then db.retired h else h)
    wallets_nodup := Rows.nodup_update (fun r => by split <;> rfl) db.wallets_nodup
    wallets_lt := Rows.lt_update (fun r => by split <;> rfl) db.wallets_lt }

def deleteAccount (userId : Uuid) (checkedWallets : List Uuid) :
    Except StoreError Nat × AccountDb :=
  match db.auth.users.find? (fun u => u.id == userId && u.deletedAt.isNone) with
  | none => (.error .notFound, db)
  | some u =>
    if (db.walletIds userId).insertionSort (· ≤ ·) ≠ checkedWallets.insertionSort (· ≤ ·)
      then (.error .conflict, db)
    else (.ok (db.walletIds userId).length, db.afterDeletion u)

def isDeleted (userId : Uuid) : Bool :=
  db.auth.users.any (fun u => u.id == userId && u.deletedAt.isSome)

variable {db} {userId : Uuid}

theorem mem_walletIds {id : Uuid} :
    id ∈ db.walletIds userId ↔ ∃ r ∈ db.wallets, r.userId = some userId ∧ r.id = id := by
  simp only [walletIds, mem_map, mem_filter, beq_iff_eq, and_assoc]

theorem eq_of_id {r r' : WalletRow} (hr : r ∈ db.wallets) (hr' : r' ∈ db.wallets)
    (h : r.id = r'.id) : r = r' :=
  inj_on_of_nodup_map db.wallets_nodup hr hr' h

theorem mem_listWalletsForUserPage {limit : Nat} {before : Option Uuid} {r : WalletRow}
    (h : r ∈ db.listWalletsForUserPage userId limit before) :
    r ∈ db.wallets ∧ r.userId = some userId := by
  have hm := mem_filter.mp ((mem_insertionSort _).mp (mem_of_mem_take h))
  simp only [Bool.and_eq_true, beq_iff_eq] at hm
  exact ⟨hm.1, hm.2.1⟩

/-- An account is deleted when the checked wallets are the user's wallets, and otherwise nothing
changes. -/
theorem deleteAccount_cases (db : AccountDb) (userId : Uuid) (checkedWallets : List Uuid) :
    (∃ e, db.deleteAccount userId checkedWallets = (.error e, db)) ∨
    ∃ u ∈ db.auth.users, u.id = userId ∧ (db.walletIds userId).Perm checkedWallets ∧
      db.deleteAccount userId checkedWallets = (.ok (db.walletIds userId).length,
        db.afterDeletion u) := by
  unfold deleteAccount
  cases hu : db.auth.users.find? (fun u => u.id == userId && u.deletedAt.isNone) with
  | none => exact .inl ⟨_, rfl⟩
  | some u =>
    by_cases hids : (db.walletIds userId).insertionSort (· ≤ ·) ≠
      checkedWallets.insertionSort (· ≤ ·)
    · simp only [if_pos hids]
      exact .inl ⟨_, rfl⟩
    · simp only [if_neg hids]
      have hid := find?_some hu
      simp only [Bool.and_eq_true, beq_iff_eq] at hid
      refine .inr ⟨u, mem_of_find?_eq_some hu, hid.1, ?_, rfl⟩
      have hperm := perm_insertionSort (· ≤ ·) (db.walletIds userId)
      rw [Decidable.not_not.mp hids] at hperm
      exact hperm.symm.trans (perm_insertionSort (· ≤ ·) checkedWallets)

end AccountDb

end Octo.Account
