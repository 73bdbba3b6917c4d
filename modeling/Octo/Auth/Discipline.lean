import Octo.Auth.System

/-!
# When an auth request makes which call

`Allowed out j tr o` says when a task of job `j` that has made the calls `tr` (newest first) makes
the call `o`.  A token is deny-listed by the request that presents it, until its `exp` claim.  A
password hash is written only by a login, of the password it was given, or by a change or reset, of
the new password.  A token is issued under an epoch that the request has read, and by a refresh only
for a token that was verified.
-/

namespace Octo.Auth

open Conc Octo.Api List

/-- The call answered this epoch for the user. -/
def ReadsEpoch (userId : Uuid) (epoch : Int) : Act → Prop
  | ⟨.store (.getUser id), .ok (some user), _, _⟩ => id = userId ∧ user.sessionEpoch = epoch
  | ⟨.store (.findUserByEmail _), .ok (some user), _, _⟩ =>
    user.id = userId ∧ user.sessionEpoch = epoch
  | ⟨.store (.changePassword id _ _), .ok new, _, _⟩ => id = userId ∧ new = epoch
  | ⟨.store (.revokeOtherSessions id _), .ok r, _, _⟩ => id = userId ∧ r.1 = epoch
  | _ => False

def Verified (token : Token) (tr : List Act) : Prop :=
  ∃ claims s s', ⟨.verifyToken token, some claims, s, s'⟩ ∈ tr

def GotUser (userId : Uuid) (epoch : Int) (tr : List Act) : Prop :=
  ∃ user s s', ⟨.store (.getUser userId), .ok (some user), s, s'⟩ ∈ tr ∧ user.sessionEpoch = epoch

/-- The grounds on which a job issues a token for the user under the epoch. -/
def MayIssue (j : Job) (userId : Uuid) (epoch : Int) (tr : List Act) : Prop :=
  (∃ x ∈ tr, ReadsEpoch userId epoch x) ∧
    match j with
    | .refresh token => Verified token tr ∧ userId = token.claims.sub ∧ GotUser userId epoch tr
    | .login _ | .changePassword .. | .revokeOtherSessions _ => True
    | _ => False

def Job.newPassword : Job → Option String
  | .changePassword _ req => req.newPassword
  | .confirmPasswordReset req => req.newPassword
  | _ => none

def Job.loginPassword : Job → Option String
  | .login creds => creds.password
  | _ => none

def IsHashOf (out : Outside) (password phc : String) : Prop :=
  ∃ salt, out.hashing.hash salt password = some phc

/-- When a request `j` that has made the calls `tr` may make a call. -/
def Allowed (out : Outside) (j : Job) (tr : List Act) : Op → Prop
  | .store (.denylistToken token _ expiresAt) =>
    (j = .refresh token ∨ j = .logout token) ∧ expiresAt = timestamp token.claims.exp
  | .store (.rehashPassword _ phc) => ∃ p, j.loginPassword = some p ∧ IsHashOf out p phc
  | .store (.changePassword _ phc _) => ∃ p, j.newPassword = some p ∧ IsHashOf out p phc
  | .issueToken userId epoch _ => MayIssue j userId epoch tr
  | _ => True

/-! ### Rules -/

variable {out : Outside} {j : Job} {epoch : Int} {password : String} {u : Uuid}

/-- The obligation of a piece of code: its calls are allowed, and `P` holds of what it returns. -/
abbrev Does {α : Type} (out : Outside) (j : Job) (p : AuthM α) (P : α → List Act → Prop)
    (tr : List Act) : Prop := Conc.Does (system out) Grows (Allowed out j) p P tr

section

variable {α : Type} {P : α → List Act → Prop} {tr : List Act} {e : ApiError} {o : Op}

theorem does_call {f : Ans o → Except ApiError α} (hL : Allowed out j tr o)
    (h : ∀ a s ch s' v, exec out o ch s = some (a, s') → f a = .ok v → P v (⟨o, a, s, s'⟩ :: tr)) :
    Does out j (Prog.tryCall o f) P tr :=
  does_tryCall hL (fun s ch a s' v _ he hv => h a s ch s' v he hv)

theorem does_ask (hL : Allowed out j tr o) :
    Does out j (ask o) (fun a tr' => ∃ s s', tr' = ⟨o, a, s, s'⟩ :: tr) tr := by
  apply does_call hL
  intro a s ch s' v _ hv
  cases hv
  exact ⟨s, s', rfl⟩

theorem does_query {o : StoreOp} (hL : Allowed out j tr (.store o)) :
    Does out j (query o) (fun v tr' => ∃ s s', tr' = ⟨.store o, .ok v, s, s'⟩ :: tr) tr := by
  apply does_call hL
  intro a s ch s' v _ hv
  cases a with
  | error => cases hv
  | ok =>
    cases hv
    exact ⟨s, s', rfl⟩

theorem does_check {r : Except ApiError α} :
    Does out j (check r) (fun v tr' => r = .ok v ∧ tr' = tr) tr :=
  fun _ hv => ⟨hv, rfl⟩

theorem does_found {row : Option α} :
    Does out j (found row e) (fun v tr' => row = some v ∧ tr' = tr) tr := by
  intro v hv
  cases row with
  | none => cases hv
  | some =>
    cases hv
    exact ⟨rfl, rfl⟩

theorem does_limit {action message : String} :
    Does out j (limit action message) (fun _ tr' => ∃ x, tr' = x :: tr) tr := by
  refine does_call (by trivial) ?_
  intro a s ch s' v _ _
  exact ⟨_, rfl⟩

end

theorem MayIssue.cons {tr : List Act} (h : MayIssue j u epoch tr) (x : Act) :
    MayIssue j u epoch (x :: tr) := by
  obtain ⟨⟨y, hy, hread⟩, hj⟩ := h
  refine ⟨⟨y, mem_cons_of_mem _ hy, hread⟩, ?_⟩
  cases j with
  | refresh =>
    obtain ⟨⟨claims, s, s', hv⟩, hu, user, t, t', hg, he⟩ := hj
    exact ⟨⟨claims, s, s', mem_cons_of_mem _ hv⟩, hu, user, t, t', mem_cons_of_mem _ hg, he⟩
  | _ => exact hj

theorem Verified.cons {token : Token} {tr : List Act} (h : Verified token tr) (x : Act) :
    Verified token (x :: tr) := by
  obtain ⟨claims, s, s', hv⟩ := h
  exact ⟨claims, s, s', mem_cons_of_mem _ hv⟩

/-! ### The code keeps to it -/

section

variable {tr : List Act} {token : Token}

theorem does_verifyToken :
    Does out j (verifyToken token) (fun claims tr' => claims = token.claims ∧ Verified token tr')
      tr := by
  refine does_call (by trivial) ?_
  intro a s ch s' v he hv
  cases a with
  | none => cases hv
  | some =>
    cases hv
    have hverify := (exec_verifyToken he).1
    exact ⟨(verifyToken_eq_some.mp hverify).1, v, s, s', mem_cons_self⟩

def Token.session (token : Token) : AuthenticatedSession :=
  ⟨token.claims.sub, token.claims.sid, token.claims.exp⟩

theorem does_authenticateSession : Does out j (authenticateSession token) (fun session tr' =>
    session = token.session ∧ Verified token tr') tr := by
  refine does_verifyToken.bind ?_
  rintro _ tr1 ⟨rfl, hv⟩
  refine Does.bind (does_query (by trivial)) ?_
  rintro valid _ ⟨s, s', rfl⟩
  cases valid with
  | false => exact does_throw
  | true => exact does_pure ⟨rfl, hv.cons _⟩

theorem does_startSession (h : MayIssue j u epoch tr) :
    Does out j (startSession u epoch) (fun _ _ => True) tr := by
  refine Does.bind (does_ask (by trivial)) ?_
  rintro now _ ⟨s, s', rfl⟩
  refine Does.bind (does_query (by trivial)) ?_
  rintro id _ ⟨t, t', rfl⟩
  refine does_call (by exact (h.cons _).cons _) ?_
  intros
  trivial

theorem does_continueSession {session : AuthenticatedSession}
    (h : MayIssue j session.userId epoch tr) :
    Does out j (continueSession session epoch) (fun _ _ => True) tr := by
  unfold continueSession
  cases session.sessionId with
  | none => exact does_startSession h
  | some =>
    refine Does.bind (does_ask (by trivial)) ?_
    rintro now _ ⟨s, s', rfl⟩
    refine Does.bind (does_query (by trivial)) ?_
    rintro extended _ ⟨t, t', rfl⟩
    cases extended with
    | false => exact does_throw
    | true =>
      refine does_call (by exact (h.cons _).cons _) ?_
      intros
      trivial

theorem does_hashPassword :
    Does out j (hashPassword out password) (fun phc tr' => IsHashOf out password phc ∧
      ∃ x, tr' = x :: tr) tr := by
  refine Does.bind (does_ask (by trivial)) ?_
  rintro salt _ ⟨s, s', rfl⟩
  intro phc hphc
  refine ⟨⟨salt, ?_⟩, _, rfl⟩
  cases hh : out.hashing.hash salt password with
  | none => simp only [hh] at hphc; cases hphc
  | some => simp only [hh] at hphc; cases hphc; rfl

theorem does_denylist (hj : j = .refresh token ∨ j = .logout token) :
    Does out j (denylist token token.session) (fun _ tr' => ∃ x, tr' = x :: tr) tr := by
  refine does_call (by exact ⟨hj, rfl⟩) ?_
  intros
  exact ⟨_, rfl⟩

end

theorem require_ok {α : Type} {x : Option α} {p : α → Bool} {message : String} {v : α}
    (h : require x p message = .ok v) : x = some v := by
  unfold require at h
  split at h
  · rename_i hw
    cases h
    exact (Option.filter_eq_some_iff.mp hw).1
  · cases h

variable {creds : Credentials} {token : Token} {req : ChangePasswordRequest} {user : User}

theorem validate_ok {email password : String}
    (h : validate out creds = .ok (email, password)) : creds.password = some password := by
  unfold validate at h
  cases he : normalizeEmail out creds.email with
  | error => rw [he] at h; cases h
  | ok e =>
    rw [he] at h
    cases hp : require creds.password isPasswordLength "password must be 8-128 bytes" with
    | error => simp only [hp] at h; cases h
    | ok =>
      simp only [hp] at h
      cases h
      exact require_ok hp

theorem checkPasswords_ok {current new : String}
    (h : checkPasswords req = .ok (current, new)) : req.newPassword = some new ∧ new ≠ current := by
  unfold checkPasswords at h
  cases hc : require req.currentPassword (fun p => !p.isEmpty && decide (p.utf8ByteSize ≤ 128))
      "current_password is required" with
  | error e => rw [hc] at h; cases h
  | ok c =>
    rw [hc] at h
    cases hn : require req.newPassword isPasswordLength "new_password must be 8-128 bytes" with
    | error => simp only [hn] at h; cases h
    | ok n =>
      simp only [hn] at h
      change (if n = c then _ else _) = _ at h
      split at h
      · cases h
      · cases h
        exact ⟨require_ok hn, ‹_›⟩

theorem does_upgradeHash {tr : List Act} (hp : creds.password = some password) :
    Does out (.login creds) (upgradeHash out user password) (fun _ tr' => ∃ more, tr' = more ++ tr)
      tr := by
  unfold upgradeHash
  split
  · refine Does.bind does_hashPassword ?_
    rintro phc _ ⟨hphc, x, rfl⟩
    refine does_call (by exact ⟨password, hp, hphc⟩) ?_
    intro a s ch s' v _ _
    exact ⟨[_, x], rfl⟩
  · exact does_pure ⟨[], rfl⟩

theorem does_signIn {tr : List Act} (h : MayIssue j user.id user.sessionEpoch tr) :
    Does out j (signIn user) (fun _ _ => True) tr := by
  unfold signIn
  split
  · have hotp : Does out j (issueSignupOtp user.id) (fun _ _ => True) tr :=
      does_call (by trivial) (fun _ _ _ _ _ _ _ => trivial)
    exact Does.bind hotp (fun _ _ _ => does_pure trivial)
  · exact Does.bind (does_startSession h) (fun _ _ _ => does_pure trivial)

theorem does_login : Does out (.login creds) (login out creds) (fun _ _ => True) [] := by
  refine Does.bind does_limit ?_
  rintro - _ ⟨x, rfl⟩
  refine Does.bind does_check ?_
  rintro ⟨email, password⟩ _ ⟨hcreds, rfl⟩
  refine Does.bind (does_query (by trivial)) ?_
  rintro _ _ ⟨s1, s1', rfl⟩
  split
  · exact does_throw
  refine Does.bind (does_query (by trivial)) ?_
  rintro user _ ⟨s2, s2', rfl⟩
  have hreject : ∀ tr, Does out (.login creds) (rejectLogin email) (fun _ _ => True) tr := fun tr =>
    Does.bind (does_query (by trivial)) (fun _ _ _ => does_throw)
  cases user with
  | none => exact hreject _
  | some user =>
    show Does _ _ (if _ then _ else _) _ _
    split
    · exact hreject _
    refine Does.bind (does_query (by trivial)) ?_
    rintro - _ ⟨s3, s3', rfl⟩
    -- an outdated hash is replaced by one of the password that was just verified
    have hread : ReadsEpoch user.id user.sessionEpoch
        ⟨.store (.findUserByEmail email), .ok (some user), s2, s2'⟩ := ⟨rfl, rfl⟩
    refine Does.bind (does_upgradeHash (validate_ok hcreds)) ?_
    rintro - tr' ⟨_, rfl⟩
    refine does_signIn ⟨⟨_, ?_, hread⟩, trivial⟩
    simp

theorem does_refresh : Does out (.refresh token) (refresh token) (fun _ _ => True) [] := by
  refine Does.bind does_authenticateSession ?_
  rintro _ tr1 ⟨rfl, hv⟩
  refine Does.bind (does_query (by trivial)) ?_
  rintro row _ ⟨s, s', rfl⟩
  refine Does.bind does_found ?_
  rintro user _ ⟨rfl, rfl⟩
  refine Does.bind (does_denylist (.inl rfl)) ?_
  rintro - _ ⟨x, rfl⟩
  have hgot : GotUser token.claims.sub user.sessionEpoch
      (⟨.store (.getUser token.claims.sub), .ok (some user), s, s'⟩ :: tr1) :=
    ⟨user, s, s', mem_cons_self, rfl⟩
  have hissue : MayIssue (.refresh token) token.session.userId user.sessionEpoch
      (⟨.store (.getUser token.claims.sub), .ok (some user), s, s'⟩ :: tr1) :=
    ⟨⟨_, mem_cons_self, rfl, rfl⟩, hv.cons _, rfl, hgot⟩
  exact Does.bind (does_continueSession (hissue.cons x)) (fun _ _ _ => does_pure trivial)

theorem does_changePassword :
    Does out (.changePassword token req) (changePassword out token req) (fun _ _ => True) [] := by
  refine Does.bind does_limit ?_
  rintro - _ ⟨x, rfl⟩
  refine Does.bind does_authenticateSession ?_
  rintro _ tr1 ⟨rfl, -⟩
  refine Does.bind does_limit ?_
  rintro - _ ⟨y, rfl⟩
  refine Does.bind does_check ?_
  rintro ⟨_, new⟩ _ ⟨hreq, rfl⟩
  refine Does.bind (does_query (by trivial)) ?_
  rintro row _ ⟨s, s', rfl⟩
  refine Does.bind does_found ?_
  rintro _ _ ⟨rfl, rfl⟩
  split
  · exact does_throw
  refine Does.bind does_hashPassword ?_
  rintro phc _ ⟨hphc, z, rfl⟩
  refine Does.bind (does_query (by exact ⟨new, (checkPasswords_ok hreq).1, hphc⟩)) ?_
  rintro _ _ ⟨t, t', rfl⟩
  refine Does.bind (does_continueSession ⟨⟨_, mem_cons_self, ?_⟩, trivial⟩) ?_
  · exact ⟨rfl, rfl⟩
  · exact fun _ _ _ => does_pure trivial

theorem does_confirmPasswordReset {req : ConfirmPasswordResetRequest} :
    Does out (.confirmPasswordReset req) (confirmPasswordReset out req) (fun _ _ => True) [] := by
  refine Does.bind does_limit ?_
  rintro - _ ⟨x, rfl⟩
  refine Does.bind does_check ?_
  rintro ⟨_, password⟩ _ ⟨hcreds, rfl⟩
  refine Does.bind does_check ?_
  rintro code _ ⟨-, rfl⟩
  refine Does.bind (does_query (by trivial)) ?_
  rintro row _ ⟨s, s', rfl⟩
  refine Does.bind does_found ?_
  rintro user _ ⟨rfl, rfl⟩
  have hotp : ∀ tr, Does out (.confirmPasswordReset req) (verifyAndConsumeOtp user.id code)
      (fun _ _ => True) tr := fun tr => does_call (by trivial) (fun _ _ _ _ _ _ _ => trivial)
  refine Does.bind (hotp _) ?_
  rintro - tr1 -
  refine Does.bind does_hashPassword ?_
  rintro phc _ ⟨hphc, z, rfl⟩
  have hnew : (Job.confirmPasswordReset req).newPassword = some password := validate_ok hcreds
  refine Does.bind (does_query (by exact ⟨password, hnew, hphc⟩)) ?_
  exact fun _ _ _ => does_pure trivial

theorem does_logout : Does out (.logout token) (logout token) (fun _ _ => True) [] := by
  refine Does.bind does_verifyToken ?_
  rintro _ tr1 ⟨rfl, -⟩
  refine Does.bind (does_denylist (.inr rfl)) ?_
  rintro - _ ⟨x, rfl⟩
  cases token.claims.sid with
  | none => exact does_pure trivial
  | some => exact Does.bind (does_query (by trivial)) (fun _ _ _ => does_pure trivial)

theorem does_revokeSession {sessionId : Uuid} :
    Does out (.revokeSession token sessionId) (revokeSession token sessionId) (fun _ _ => True)
      [] := by
  refine Does.bind does_authenticateSession ?_
  rintro _ tr1 ⟨rfl, -⟩
  refine Does.bind (does_query (by trivial)) ?_
  rintro revoked - -
  cases revoked with
  | false => exact does_throw
  | true => exact does_pure trivial

theorem does_revokeOtherSessions :
    Does out (.revokeOtherSessions token) (revokeOtherSessions token) (fun _ _ => True) [] := by
  refine Does.bind does_authenticateSession ?_
  rintro _ tr1 ⟨rfl, -⟩
  refine Does.bind (does_query (by trivial)) ?_
  rintro ⟨_, _⟩ _ ⟨s, s', rfl⟩
  refine Does.bind (does_continueSession ⟨⟨_, mem_cons_self, ?_⟩, trivial⟩) ?_
  · exact ⟨rfl, rfl⟩
  · exact fun _ _ _ => does_pure trivial

theorem calls_endpoint {α : Type} {p : AuthM α} (h : Does out j p (fun _ _ => True) []) :
    Calls (system out) Grows (Allowed out j) (endpoint p) (fun _ _ => True) [] :=
  calls_bind (Calls.imp h (fun _ _ _ => trivial))

theorem discipline (out : Outside) : Discipline (system out) Grows (Allowed out) where
  refl := Grows.refl
  trans := Grows.trans
  exec := exec_grows
  env := env_grows
  code := by
    intro j
    cases j with
    | authenticate =>
      exact calls_endpoint (Calls.imp does_authenticateSession (fun _ _ _ _ _ => trivial))
    | login => exact calls_endpoint does_login
    | refresh => exact calls_endpoint does_refresh
    | logout => exact calls_endpoint does_logout
    | changePassword => exact calls_endpoint does_changePassword
    | confirmPasswordReset => exact calls_endpoint does_confirmPasswordReset
    | revokeSession => exact calls_endpoint does_revokeSession
    | revokeOtherSessions => exact calls_endpoint does_revokeOtherSessions
    | purge => exact ⟨trivial, fun _ _ _ _ _ _ => ⟨trivial, fun _ _ _ _ _ _ => trivial⟩⟩

end Octo.Auth
