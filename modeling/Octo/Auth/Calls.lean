import Mathlib.Data.List.Infix
import Octo.Store.Accounts
import Octo.Store.Call

/-!
# The calls of the auth endpoints

The state that the auth endpoints and the hourly purge work on, and the effect of each of their
calls.  The server and the database share one clock.  The rate limiter may admit or refuse any
request, and a one-time code may be right or wrong: neither touches the tables.
-/

namespace Octo.Auth

structure State where
  db : AuthDb
  issued : List Token
  nextJti : Uuid

structure PasswordHashing where
  /-- `hash_password`, with the salt that was drawn. -/
  hash : Nat → String → Option String
  /-- `verify_password`. -/
  verify : String → String → Bool
  /-- The part of a PHC string that has the configured parameters. -/
  params : String

def PasswordHashing.needsUpgrade (h : PasswordHashing) (phc : String) : Bool :=
  !decide (h.params.toList <:+: phc.toList)

/-- What is outside the repository, and the configuration of the server. -/
structure Outside where
  jwt : JwtConfig
  hashing : PasswordHashing
  /-- `trim().to_lowercase()`. -/
  normalize : String → String

inductive StoreOp
  | authLockedUntil (email : String)
  | findUserByEmail (email : String)
  | recordAuthFailure (email : String)
  | resetAuthFailures (email : String)
  | rehashPassword (userId : Uuid) (passwordHash : String)
  | getUser (id : Uuid)
  | createSession (userId : Uuid) (expiresAt : Time)
  | extendSession (userId sessionId : Uuid) (expiresAt : Time)
  | isSessionValid (token : Token) (userId : Uuid) (sessionEpoch : Int) (sessionId : Option Uuid)
  | denylistToken (token : Token) (userId : Uuid) (expiresAt : Time)
  | changePassword (userId : Uuid) (newPasswordHash : String) (keepSession : Option Uuid)
  | revokeSession (userId sessionId : Uuid)
  | revokeOtherSessions (userId : Uuid) (keep : Option Uuid)
  | purgeExpiredTokens
  | purgeExpiredSessions
  deriving DecidableEq

abbrev StoreOp.Val : StoreOp → Type
  | .authLockedUntil _ => Option Time
  | .findUserByEmail _ => Option User
  | .recordAuthFailure _ => Unit
  | .resetAuthFailures _ => Unit
  | .rehashPassword .. => Unit
  | .getUser _ => Option User
  | .createSession .. => Uuid
  | .extendSession .. => Bool
  | .isSessionValid .. => Bool
  | .denylistToken .. => Unit
  | .changePassword .. => Int
  | .revokeSession .. => Bool
  | .revokeOtherSessions .. => Int × Nat
  | .purgeExpiredTokens => Nat
  | .purgeExpiredSessions => Nat

inductive Op
  | store (o : StoreOp)
  /-- `verify_token`, by the clock of this moment. -/
  | verifyToken (token : Token)
  /-- `chrono::Utc::now`. -/
  | utcNow
  /-- `issue_token`, with the clock and the `jti` of this moment. -/
  | issueToken (userId : Uuid) (sessionEpoch : Int) (sessionId : Option Uuid)
  | rateLimit (action : String)
  /-- The salt that `hash_password` draws. -/
  | salt
  | issueSignupOtp (userId : Uuid)
  | verifyAndConsumeOtp (userId : Uuid) (code : String)
  deriving DecidableEq

abbrev Ans : Op → Type
  | .store o => Except StoreError o.Val
  | .verifyToken _ => Option Claims
  | .utcNow => Time
  | .issueToken .. => Token
  | .rateLimit _ => Bool
  | .salt => Nat
  | .issueSignupOtp _ => Bool
  | .verifyAndConsumeOtp .. => Bool

inductive Choice
  | none
  | store (ch : Octo.Choice)
  | answer (b : Bool)
  | drawn (n : Nat)

def statement : (o : StoreOp) → AuthDb → Except StoreError o.Val × AuthDb
  | .authLockedUntil email, db => (.ok (db.authLockedUntil email), db)
  | .findUserByEmail email, db => (.ok (db.findUserByEmail email), db)
  | .recordAuthFailure email, db => db.recordAuthFailure email
  | .resetAuthFailures email, db => (.ok (), db.resetAuthFailures email)
  | .rehashPassword id hash, db => (.ok (), db.rehashPassword id hash)
  | .getUser id, db => (.ok (db.getUser id), db)
  | .createSession id expiresAt, db => db.createSession id expiresAt
  | .extendSession id sid expiresAt, db =>
    (.ok (db.extendSession id sid expiresAt).1, (db.extendSession id sid expiresAt).2)
  | .isSessionValid token id epoch sid, db => (.ok (db.isSessionValid token id epoch sid), db)
  | .denylistToken token id expiresAt, db => db.denylistToken token id expiresAt
  | .changePassword id hash keep, db => db.changePassword id hash keep
  | .revokeSession id sid, db => (.ok (db.revokeSession id sid).1, (db.revokeSession id sid).2)
  | .revokeOtherSessions id keep, db => db.revokeOtherSessions id keep
  | .purgeExpiredTokens, db => (.ok db.purgeExpiredTokens.1, db.purgeExpiredTokens.2)
  | .purgeExpiredSessions, db => (.ok db.purgeExpiredSessions.1, db.purgeExpiredSessions.2)

def onDb {α : Type} (stmt : AuthDb → Except StoreError α × AuthDb) (s : State) :
    Except StoreError α × State :=
  ((stmt s.db).1, { s with db := (stmt s.db).2 })

def exec (out : Outside) : (o : Op) → Choice → State → Option (Ans o × State)
  | .store o, .store ch, s => store (fun _ => onDb (statement o)) ch s
  | .verifyToken token, .none, s => some (out.jwt.verifyToken s.issued s.db.now token, s)
  | .utcNow, .none, s => some (s.db.now, s)
  | .issueToken id epoch sid, .none, s =>
    let token := out.jwt.issueToken s.db.now s.nextJti id epoch sid
    some (token, { s with issued := token :: s.issued, nextJti := s.nextJti + 1 })
  | .rateLimit _, .answer b, s => some (b, s)
  | .salt, .drawn n, s => some (n, s)
  | .issueSignupOtp _, .answer b, s => some (b, s)
  | .verifyAndConsumeOtp .., .answer b, s => some (b, s)
  | _, _, _ => Option.none

end Octo.Auth
