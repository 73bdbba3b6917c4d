import Octo.Auth.Token

/-!
# Accounts, sessions and revoked tokens in the store

`crates/store/src/users.rs`, `sessions.rs` and `denylist.rs`, with the migrations 0009, 0021, 0026
and 0030. The SHA-256 hash under which a token is deny-listed stands for the token, and the id of a
new session is one that no session has had.
-/

namespace Octo.Auth

structure User where
  id : Uuid
  email : String
  passwordHash : String
  sessionEpoch : Int
  emailVerifiedAt : Option Time
  deletedAt : Option Time
  deriving DecidableEq

structure Session where
  id : Uuid
  userId : Uuid
  expiresAt : Time
  revokedAt : Option Time
  deriving DecidableEq

structure DenyRow where
  token : Token
  userId : Uuid
  expiresAt : Time
  deriving DecidableEq

structure Lockout where
  email : String
  failedAttempts : Int
  windowStarted : Time
  lockoutCount : Nat
  lockedUntil : Option Time
  deriving DecidableEq

structure AuthDb where
  users : List User
  sessions : List Session
  denylist : List DenyRow
  lockouts : List Lockout
  nextId : Uuid
  now : Time
  users_nodup : (users.map (·.id)).Nodup
  sessions_nodup : (sessions.map (·.id)).Nodup
  sessions_lt : ∀ q ∈ sessions, q.id < nextId

namespace AuthDb

variable (db : AuthDb)

/-! ### Users -/

def getUser (id : Uuid) : Option User := db.users.find? (fun u => u.id == id)

def findUserByEmail (email : String) : Option User := db.users.find? (fun u => u.email == email)

def updateUser (id : Uuid) (f : User → User) : AuthDb :=
  { db with
    users := db.users.map (fun u => if u.id == id then { f u with id := u.id } else u)
    users_nodup := Rows.nodup_update (fun u => by split <;> rfl) db.users_nodup }

/-- An upgrade of the hash moves no epoch. -/
def rehashPassword (userId : Uuid) (passwordHash : String) : AuthDb :=
  db.updateUser userId (fun u => { u with passwordHash := passwordHash })

/-! ### Failed logins -/

def authLockedUntil (email : String) : Option Time :=
  (db.lockouts.find? (fun l => l.email == email.toLower)).bind
    (fun l => l.lockedUntil.filter (fun t => decide (db.now < t)))

def fifteenMinutes : Time := 15 * 60 * microsPerSec

/-- The old counter decides the lock, also when its window is over. -/
def failAgain (l : Lockout) : Lockout :=
  let stale := decide (l.windowStarted + fifteenMinutes < db.now)
  let locks := decide (5 ≤ l.failedAttempts + 1)
  { l with
    failedAttempts := if stale then 1 else l.failedAttempts + 1
    windowStarted := if stale then db.now else l.windowStarted
    lockoutCount := if locks then l.lockoutCount + 1 else l.lockoutCount
    lockedUntil :=
      if locks then some (db.now + 60 * 2 ^ min l.lockoutCount 6 * microsPerSec)
        else l.lockedUntil }

/-- The counters of a row are `INTEGER`s; `failed_attempts + 1` is computed in every case. -/
def overflows (l : Lockout) : Bool :=
  decide (2 ^ 31 ≤ l.failedAttempts + 1) ||
    decide (5 ≤ l.failedAttempts + 1) && decide (2 ^ 31 ≤ l.lockoutCount + 1)

def countFailure (email : String) : AuthDb :=
  { db with lockouts :=
      if db.lockouts.any (fun l => l.email == email.toLower) then
        db.lockouts.map (fun l => if l.email == email.toLower then db.failAgain l else l)
      else db.lockouts ++ [⟨email.toLower, 1, db.now, 0, none⟩] }

def recordAuthFailure (email : String) : Except StoreError Unit × AuthDb :=
  let full := (db.lockouts.find? (fun l => l.email == email.toLower)).any overflows
  (if full then .error .database else .ok (),
    { db with lockouts := if full then db.lockouts else (db.countFailure email).lockouts })

def resetAuthFailures (email : String) : AuthDb :=
  { db with lockouts := db.lockouts.filter (fun l => l.email != email.toLower) }

/-! ### Sessions -/

def updateSessions (p : Session → Bool) (f : Session → Session) : AuthDb :=
  { db with
    sessions := db.sessions.map (fun q => if p q then { f q with id := q.id } else q)
    sessions_nodup := Rows.nodup_update (fun q => by split <;> rfl) db.sessions_nodup
    sessions_lt := Rows.lt_update (fun q => by split <;> rfl) db.sessions_lt }

def createSession (userId : Uuid) (expiresAt : Time) : Except StoreError Uuid × AuthDb :=
  if db.users.any (fun u => u.id == userId) then
    (.ok db.nextId,
      { db with
        sessions := db.sessions ++ [⟨db.nextId, userId, expiresAt, none⟩]
        nextId := db.nextId + 1
        sessions_nodup := Rows.nodup_concat db.sessions_nodup
          (fun q hq => Nat.ne_of_lt (db.sessions_lt q hq))
        sessions_lt := Rows.lt_concat db.sessions_lt rfl })
  else (.error .database, db)

def isUnrevoked (userId id : Uuid) (q : Session) : Bool :=
  q.id == id && q.userId == userId && q.revokedAt.isNone

/-- The user's session `id`, if it is neither revoked nor expired. -/
def isLive (userId id : Uuid) (q : Session) : Bool :=
  isUnrevoked userId id q && decide (db.now < q.expiresAt)

def extendSession (userId id : Uuid) (expiresAt : Time) : Bool × AuthDb :=
  (db.sessions.any (db.isLive userId id),
    db.updateSessions (db.isLive userId id) (fun q => { q with expiresAt := expiresAt }))

/-- The user is not deleted and still at this epoch. -/
def atEpoch (userId : Uuid) (sessionEpoch : Int) : Bool :=
  db.users.any (fun u => u.id == userId && u.sessionEpoch == sessionEpoch && u.deletedAt.isNone)

def isTokenDenylisted (token : Token) : Bool :=
  db.denylist.any (fun d => d.token == token && decide (db.now < d.expiresAt))

def sessionLive (userId : Uuid) (sessionId : Option Uuid) : Bool :=
  match sessionId with
  | none => true
  | some sid => db.sessions.any (db.isLive userId sid)

/-- A token is good at the current epoch, off the deny-list and in a live session. -/
def isSessionValid (token : Token) (userId : Uuid) (sessionEpoch : Int) (sessionId : Option Uuid) :
    Bool :=
  db.atEpoch userId sessionEpoch && !db.isTokenDenylisted token && db.sessionLive userId sessionId

/-- An `UPDATE sessions SET revoked_at = now()` of rows that are not revoked. -/
def revokeWhere (p : Session → Bool) : AuthDb :=
  db.updateSessions (fun q => p q && q.revokedAt.isNone)
    (fun q => { q with revokedAt := some db.now })

def revokeSession (userId id : Uuid) : Bool × AuthDb :=
  (db.sessions.any (isUnrevoked userId id),
    db.revokeWhere (fun q => q.id == id && q.userId == userId))

/-- A session of the user but the one to keep. -/
def isOther (userId : Uuid) (keep : Option Uuid) (q : Session) : Bool :=
  q.userId == userId && (keep.isNone || some q.id != keep)

/-- Bump `session_epoch`, set what `f` sets and revoke the sessions except `keep`: the new epoch,
and how many sessions were revoked. -/
def bumpEpoch (userId : Uuid) (keep : Option Uuid) (f : User → User) :
    Except StoreError (Int × Nat) × AuthDb :=
  match db.getUser userId with
  | none => (.error .notFound, db)
  | some u =>
    -- the column is an INTEGER
    if u.sessionEpoch + 1 < 2 ^ 31 then
      let revoked := db.sessions.filter (fun q => isOther userId keep q && q.revokedAt.isNone)
      (.ok (u.sessionEpoch + 1, revoked.length),
        (db.updateUser userId (fun u =>
          { f u with sessionEpoch := u.sessionEpoch + 1 })).revokeWhere (isOther userId keep))
    else (.error .database, db)

def changePassword (userId : Uuid) (newPasswordHash : String) (keepSession : Option Uuid) :
    Except StoreError Int × AuthDb :=
  let r := db.bumpEpoch userId keepSession (fun u => { u with passwordHash := newPasswordHash })
  (r.1.map (·.1), r.2)

def revokeOtherSessions (userId : Uuid) (keep : Option Uuid) :
    Except StoreError (Int × Nat) × AuthDb :=
  db.bumpEpoch userId keep id

def oneDay : Time := 24 * 60 * 60 * microsPerSec

def purgeExpiredSessions : Nat × AuthDb :=
  let expired := fun q : Session => decide (q.expiresAt + oneDay < db.now)
  ((db.sessions.filter expired).length,
    { db with
      sessions := db.sessions.filter (fun q => !expired q)
      sessions_nodup := db.sessions_nodup.sublist (List.filter_sublist.map _)
      sessions_lt := fun q hq => db.sessions_lt q (List.mem_of_mem_filter hq) })

/-! ### Revoked tokens -/

def denylistToken (token : Token) (userId : Uuid) (expiresAt : Time) :
    Except StoreError Unit × AuthDb :=
  if db.denylist.any (fun d => d.token == token) then (.ok (), db)
  else if db.users.any (fun u => u.id == userId) then
    (.ok (), { db with denylist := db.denylist ++ [⟨token, userId, expiresAt⟩] })
  else (.error .database, db)

def purgeExpiredTokens : Nat × AuthDb :=
  let expired := fun d : DenyRow => decide (d.expiresAt < db.now)
  ((db.denylist.filter expired).length,
    { db with denylist := db.denylist.filter (fun d => !expired d) })

end AuthDb

end Octo.Auth
