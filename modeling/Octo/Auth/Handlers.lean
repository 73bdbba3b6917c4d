import Octo.Api.Error
import Octo.Auth.Calls
import Octo.Conc.Prog

/-!
# The auth endpoints

Login, refresh, logout, change-password and confirm-password-reset of `crates/api/src/auth.rs`, the
two revocations of `crates/api/src/routes/sessions.rs`, and the hourly purge of the server.  A
request carries its bearer token.  Audit entries, `last_seen_at` and the hash of the user agent are
left out: nothing here reads them.
-/

namespace Octo.Auth

open Conc Octo.Api

abbrev AuthM (α : Type) := ExceptT ApiError (Prog Op Ans) α

def ask (o : Op) : AuthM (Ans o) := Prog.tryCall o .ok

def query (o : StoreOp) : AuthM o.Val :=
  Prog.tryCall (.store o) (Except.mapError (fun _ => .internal))

def check {α : Type} (r : Except ApiError α) : AuthM α := ExceptT.mk (.ret r)

def limit (action message : String) : AuthM Unit :=
  Prog.tryCall (.rateLimit action)
    (fun admitted => if admitted then .ok () else .error (.tooManyRequests message))

def checkAuthRateLimit : AuthM Unit :=
  limit "auth" "too many attempts — wait a minute and try again"

/-! ### Requests -/

structure Credentials where
  email : Option String
  password : Option String
  deriving DecidableEq

structure ChangePasswordRequest where
  currentPassword : Option String
  newPassword : Option String
  deriving DecidableEq

structure ConfirmPasswordResetRequest where
  email : Option String
  code : Option String
  newPassword : Option String
  deriving DecidableEq

structure UserView where
  id : Uuid
  email : String
  deriving DecidableEq

structure AuthResponse where
  token : Token
  user : UserView
  deriving DecidableEq

/-- What `login` answers: a token, or that the email has to be verified. -/
inductive LoginResponse
  | signedIn (r : AuthResponse)
  | verificationRequired (userId : Uuid)
  deriving DecidableEq

def require {α : Type} (x : Option α) (p : α → Bool) (message : String) : Except ApiError α :=
  match x.filter p with
  | some v => .ok v
  | none => .error (.badRequest message)

def normalizeEmail (out : Outside) (email : Option String) : Except ApiError String :=
  require (email.map out.normalize) (fun e => e.toList.contains '@' && decide (3 ≤ e.utf8ByteSize))
    "a valid email is required"

def isPasswordLength (password : String) : Bool :=
  decide (8 ≤ password.utf8ByteSize) && decide (password.utf8ByteSize ≤ 128)

def validate (out : Outside) (creds : Credentials) : Except ApiError (String × String) := do
  let email ← normalizeEmail out creds.email
  let password ← require creds.password isPasswordLength "password must be 8-128 bytes"
  return (email, password)

/-- The checks of a `change_password` request: the current and the new password. -/
def checkPasswords (req : ChangePasswordRequest) : Except ApiError (String × String) := do
  let current ← require req.currentPassword (fun p => !p.isEmpty && decide (p.utf8ByteSize ≤ 128))
    "current_password is required"
  let new ← require req.newPassword isPasswordLength "new_password must be 8-128 bytes"
  if new = current then throw (.badRequest "new_password must differ from the current password")
  else return (current, new)

def hashPassword (out : Outside) (password : String) : AuthM String := do
  let salt ← ask .salt
  check (match out.hashing.hash salt password with
    | some phc => .ok phc
    | none => .error .internal)

/-! ### Sessions -/

structure AuthenticatedSession where
  userId : Uuid
  sessionId : Option Uuid
  expiresAt : Int
  deriving DecidableEq

def verifyToken (token : Token) : AuthM Claims :=
  Prog.tryCall (.verifyToken token) (fun claims =>
    match claims with
    | some c => .ok c
    | none => .error .unauthorized)

/-- A good signature is not enough: the session must be live in the database. -/
def authenticateSession (token : Token) : AuthM AuthenticatedSession := do
  let claims ← verifyToken token
  let valid ← query (.isSessionValid token claims.sub claims.epoch claims.sid)
  if !valid then throw .unauthorized
  else return ⟨claims.sub, claims.sid, claims.exp⟩

def sessionExpiry (now : Time) : Time := now + timestamp tokenTtlSecs

def startSession (userId : Uuid) (sessionEpoch : Int) : AuthM Token := do
  let now ← ask .utcNow
  let id ← query (.createSession userId (sessionExpiry now))
  ask (.issueToken userId sessionEpoch (some id))

/-- A new token for the same session, which must not have been revoked. -/
def continueSession (session : AuthenticatedSession) (sessionEpoch : Int) : AuthM Token :=
  match session.sessionId with
  | none => startSession session.userId sessionEpoch
  | some sid => do
    let now ← ask .utcNow
    let extended ← query (.extendSession session.userId sid (sessionExpiry now))
    -- revoked between authentication and here
    if !extended then throw .unauthorized
    else ask (.issueToken session.userId sessionEpoch (some sid))

def denylist (token : Token) (session : AuthenticatedSession) : AuthM Unit :=
  query (.denylistToken token session.userId (timestamp session.expiresAt))

def found {α : Type} (row : Option α) (e : ApiError) : AuthM α :=
  check (match row with
    | some r => .ok r
    | none => .error e)

/-! ### Endpoints -/

def invalidCredentials : ApiError := .badRequest "invalid email or password"

/-- Every rejected password counts towards the lockout. -/
def rejectLogin (email : String) : AuthM LoginResponse := do
  query (.recordAuthFailure email)
  throw invalidCredentials

def upgradeHash (out : Outside) (user : User) (password : String) : AuthM Unit :=
  if out.hashing.needsUpgrade user.passwordHash then do
    let upgraded ← hashPassword out password
    query (.rehashPassword user.id upgraded)
  else return

def issueSignupOtp (userId : Uuid) : AuthM Unit :=
  Prog.tryCall (.issueSignupOtp userId) (fun sent => if sent then .ok () else .error .internal)

def signIn (user : User) : AuthM LoginResponse :=
  if user.emailVerifiedAt.isNone then do
    issueSignupOtp user.id
    return .verificationRequired user.id
  else do
    let token ← startSession user.id user.sessionEpoch
    return .signedIn ⟨token, ⟨user.id, user.email⟩⟩

def login (out : Outside) (creds : Credentials) : AuthM LoginResponse := do
  checkAuthRateLimit
  let (email, password) ← check (validate out creds)
  let lockedUntil ← query (.authLockedUntil email)
  if lockedUntil.isSome then throw invalidCredentials
  else
    let user ← query (.findUserByEmail email)
    match user with
    | none => rejectLogin email
    | some user =>
      if !out.hashing.verify password user.passwordHash then rejectLogin email
      else
        query (.resetAuthFailures email)
        upgradeHash out user password
        signIn user

/-- The old token is denied before the new one is issued. -/
def refresh (token : Token) : AuthM AuthResponse := do
  let session ← authenticateSession token
  let user ← query (.getUser session.userId)
  let user ← found user .notFound
  denylist token session
  let new ← continueSession session user.sessionEpoch
  return ⟨new, ⟨user.id, user.email⟩⟩

def changePassword (out : Outside) (token : Token) (req : ChangePasswordRequest) :
    AuthM AuthResponse := do
  checkAuthRateLimit
  let session ← authenticateSession token
  limit "change_password" "too many attempts — wait a while and try again"
  let (current, new) ← check (checkPasswords req)
  let user ← query (.getUser session.userId)
  let user ← found user .unauthorized
  if !out.hashing.verify current user.passwordHash
    then throw (.badRequest "current password is incorrect")
  else
    let phc ← hashPassword out new
    let epoch ← query (.changePassword session.userId phc session.sessionId)
    let token ← continueSession session epoch
    return ⟨token, ⟨user.id, user.email⟩⟩

def verifyAndConsumeOtp (userId : Uuid) (code : String) : AuthM Unit :=
  Prog.tryCall (.verifyAndConsumeOtp userId code)
    (fun right => if right then .ok () else .error (.badRequest "invalid or expired code"))

def confirmPasswordReset (out : Outside) (req : ConfirmPasswordResetRequest) : AuthM Unit := do
  checkAuthRateLimit
  let (email, newPassword) ← check (validate out ⟨req.email, req.newPassword⟩)
  let code ← check (require req.code (fun c => !c.isEmpty) "code is required")
  let user ← query (.findUserByEmail email)
  let user ← found user (.badRequest "invalid or expired code")
  verifyAndConsumeOtp user.id code
  let phc ← hashPassword out newPassword
  -- `reset_password`
  let _ ← query (.changePassword user.id phc none)
  return

def logout (token : Token) : AuthM Unit := do
  let claims ← verifyToken token
  denylist token ⟨claims.sub, claims.sid, claims.exp⟩
  match claims.sid with
  | none => return
  | some sid => do
    let _ ← query (.revokeSession claims.sub sid)
    return

def revokeSession (token : Token) (sessionId : Uuid) : AuthM Unit := do
  let caller ← authenticateSession token
  let revoked ← query (.revokeSession caller.userId sessionId)
  if !revoked then throw .notFound
  else return

def revokeOtherSessions (token : Token) : AuthM (Token × Nat) := do
  let caller ← authenticateSession token
  let (epoch, revoked) ← query (.revokeOtherSessions caller.userId caller.sessionId)
  let new ← continueSession caller epoch
  return (new, revoked)

/-- One round of the purge task of the server, which only logs an error. -/
def purge : Prog Op Ans Unit := do
  let _ ← Prog.perform (.store .purgeExpiredTokens)
  let _ ← Prog.perform (.store .purgeExpiredSessions)

end Octo.Auth
