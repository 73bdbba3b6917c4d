import Octo.Auth.Handlers
import Octo.Conc.Trace

/-!
# The system of auth requests

Any number of auth requests and rounds of the purge task run on one database, one call at a time,
and each may die between two calls.  Outside of them only time passes.

* `statement_grows`, `exec_grows`, `env_grows`: whatever happens, no epoch goes back, no revoked
  session comes back, no token is forgotten, and a deny-list row stays until it has expired.
-/

namespace Octo.Auth

open Conc Octo.Api List

inductive Job
  | authenticate (token : Token)
  | login (creds : Credentials)
  | refresh (token : Token)
  | logout (token : Token)
  | changePassword (token : Token) (req : ChangePasswordRequest)
  | confirmPasswordReset (req : ConfirmPasswordResetRequest)
  | revokeSession (token : Token) (sessionId : Uuid)
  | revokeOtherSessions (token : Token)
  | purge
  deriving DecidableEq

def endpoint {α : Type} (p : AuthM α) : Prog Op Ans Unit := p.run.bind (fun _ => .ret ())

def code (out : Outside) : Job → Prog Op Ans Unit
  | .authenticate token => endpoint (authenticateSession token)
  | .login creds => endpoint (login out creds)
  | .refresh token => endpoint (refresh token)
  | .logout token => endpoint (logout token)
  | .changePassword token req => endpoint (changePassword out token req)
  | .confirmPasswordReset req => endpoint (confirmPasswordReset out req)
  | .revokeSession token sessionId => endpoint (revokeSession token sessionId)
  | .revokeOtherSessions token => endpoint (revokeOtherSessions token)
  | .purge => purge

inductive Env
  | tick (dt : Nat)

def AuthDb.tick (db : AuthDb) (dt : Nat) : AuthDb := { db with now := db.now + dt }

def env (e : Env) (s : State) : Option State :=
  match e with
  | .tick dt => some { s with db := s.db.tick dt }

def system (out : Outside) : Sys Job Op Ans Choice Env State where
  code := code out
  canStart := fun _ _ => true
  exec := exec out
  env := env

abbrev Act := Conc.Act Op Ans State
abbrev World := Conc.World Job Op Ans State
abbrev Conf := Conc.Conf Job Op Ans State

/-! ### What a call can do -/

variable {out : Outside} {ch : Choice} {s s' : State} {token : Token} {o : StoreOp}

def State.after (s : State) (o : StoreOp) : State := { s with db := (statement o s.db).2 }

theorem exec_store {a : Ans (.store o)} (h : exec out (.store o) ch s = some (a, s')) :
    a = (statement o s.db).1 ∧ s' = s.after o ∨ a = .error .database ∧
    (s' = s ∨ s' = s.after o) := by
  cases ch with
  | store =>
    rcases store_cases h with ⟨n, hn⟩ | h
    · cases hn
      exact .inl ⟨rfl, rfl⟩
    · exact .inr h
  | _ => cases h

theorem exec_store_ok {v : o.Val} (h : exec out (.store o) ch s = some (.ok v, s')) :
    (statement o s.db).1 = .ok v ∧ s' = s.after o := by
  rcases exec_store h with ⟨ha, hs⟩ | ⟨ha, -⟩
  · exact ⟨ha.symm, hs⟩
  · cases ha

theorem exec_verifyToken {a : Option Claims}
    (h : exec out (.verifyToken token) ch s = some (a, s')) :
    out.jwt.verifyToken s.issued s.db.now token = a ∧ s' = s := by
  cases ch with
  | none =>
    cases h
    exact ⟨rfl, rfl⟩
  | _ => cases h

theorem exec_issueToken {u : Uuid} {epoch : Int} {sid : Option Uuid}
    (h : exec out (.issueToken u epoch sid) ch s = some (token, s')) :
    token = out.jwt.issueToken s.db.now s.nextJti u epoch sid ∧
      s' = { s with issued := token :: s.issued, nextJti := s.nextJti + 1 } := by
  cases ch with
  | none =>
    cases h
    exact ⟨rfl, rfl⟩
  | _ => cases h

/-- A call changes nothing, runs its statement, or issues a token with the claims asked for. -/
theorem exec_cases {o : Op} {a : Ans o} (h : exec out o ch s = some (a, s')) :
    s' = s ∨ (∃ q, o = .store q ∧ s' = s.after q) ∨
      ∃ u epoch sid token, o = .issueToken u epoch sid ∧ token.claims.sub = u ∧
        token.claims.epoch = epoch ∧
        s' = { s with issued := token :: s.issued, nextJti := s.nextJti + 1 } := by
  cases o with
  | store q =>
    rcases exec_store h with ⟨-, hs⟩ | ⟨-, hs | hs⟩
    · exact .inr (.inl ⟨q, rfl, hs⟩)
    · exact .inl hs
    · exact .inr (.inl ⟨q, rfl, hs⟩)
  | issueToken u epoch sid =>
    obtain ⟨ha, hs⟩ := exec_issueToken h
    exact .inr (.inr ⟨u, epoch, sid, a, rfl, by rw [ha]; rfl, by rw [ha]; rfl, hs⟩)
  | _ =>
    -- no other call writes anything, whatever it is answered
    left
    cases ch <;> cases h
    rfl

/-! ### What never goes back -/

namespace AuthDb

variable {db db' db'' : AuthDb}

theorem eq_of_user_id {u u' : User} (h : u ∈ db.users) (h' : u' ∈ db.users) (hid : u.id = u'.id) :
    u = u' :=
  inj_on_of_nodup_map db.users_nodup h h' hid

theorem eq_of_session_id {q q' : Session} (h : q ∈ db.sessions) (h' : q' ∈ db.sessions)
    (hid : q.id = q'.id) : q = q' :=
  inj_on_of_nodup_map db.sessions_nodup h h' hid

variable {id : Uuid} {f : User → User} {p : Session → Bool}

theorem getUser_eq_some {u : User} (h : db.getUser id = some u) : u ∈ db.users ∧ u.id = id :=
  ⟨mem_of_find?_eq_some h, by simpa using find?_some h⟩

theorem mem_updateUser {u' : User} (h : u' ∈ (db.updateUser id f).users) :
    ∃ u ∈ db.users, u.id = u'.id ∧
    (u.id ≠ id ∧ u' = u ∨ u.id = id ∧ u' = { f u with id := u.id }) := by
  obtain ⟨u, hu, rfl⟩ := mem_map.mp h
  refine ⟨u, hu, ?_⟩
  by_cases hid : u.id = id
  · simp [hid]
  · simp [hid]

theorem mem_updateSessions {f : Session → Session} {q' : Session}
    (h : q' ∈ (db.updateSessions p f).sessions) :
    ∃ q ∈ db.sessions, q.id = q'.id ∧ (q' = q ∨ p q = true ∧ q' = { f q with id := q.id }) := by
  obtain ⟨q, hq, rfl⟩ := mem_map.mp h
  refine ⟨q, hq, ?_⟩
  by_cases hp : p q = true
  · simp [hp]
  · simp [hp]

/-- What no statement takes back. -/
structure Grows (db db' : AuthDb) : Prop where
  now : db.now ≤ db'.now
  nextId : db.nextId ≤ db'.nextId
  users : ∀ u' ∈ db'.users, ∃ u ∈ db.users, u.id = u'.id ∧ u.sessionEpoch ≤ u'.sessionEpoch
  sessions : ∀ q' ∈ db'.sessions, q'.id < db.nextId →
    ∃ q ∈ db.sessions, q.id = q'.id ∧ (q.revokedAt.isSome → q'.revokedAt.isSome)
  denylist : ∀ d ∈ db.denylist, d ∈ db'.denylist ∨ d.expiresAt < db'.now

theorem Grows.refl (db : AuthDb) : db.Grows db where
  now := Nat.le_refl _
  nextId := Nat.le_refl _
  users := fun u hu => ⟨u, hu, rfl, Int.le_refl _⟩
  sessions := fun q hq _ => ⟨q, hq, rfl, id⟩
  denylist := fun _ hd => .inl hd

theorem Grows.trans (h : db.Grows db') (h' : db'.Grows db'') : db.Grows db'' where
  now := h.now.trans h'.now
  nextId := h.nextId.trans h'.nextId
  users := by
    intro u'' hu''
    obtain ⟨u', hu', hid', he'⟩ := h'.users u'' hu''
    obtain ⟨u, hu, hid, he⟩ := h.users u' hu'
    exact ⟨u, hu, hid.trans hid', Int.le_trans he he'⟩
  sessions := by
    intro q'' hq'' hlt
    obtain ⟨q', hq', hid', hr'⟩ := h'.sessions q'' hq'' (Nat.lt_of_lt_of_le hlt h.nextId)
    obtain ⟨q, hq, hid, hr⟩ := h.sessions q' hq' (hid' ▸ hlt)
    exact ⟨q, hq, hid.trans hid', fun hs => hr' (hr hs)⟩
  denylist := by
    intro d hd
    rcases h.denylist d hd with hd | hd
    · exact h'.denylist d hd
    · exact .inr (Nat.lt_of_lt_of_le hd h'.now)

theorem grows_updateUser (hf : ∀ u, u.sessionEpoch ≤ (f u).sessionEpoch) :
    db.Grows (db.updateUser id f) := by
  refine { Grows.refl db with users := fun u' hu' => ?_ }
  obtain ⟨u, hu, -, ⟨-, rfl⟩ | ⟨-, rfl⟩⟩ := mem_updateUser hu'
  · exact ⟨_, hu, rfl, Int.le_refl _⟩
  · exact ⟨u, hu, rfl, hf u⟩

theorem grows_updateSessions {f : Session → Session}
    (hf : ∀ q, p q = true → q.revokedAt.isSome → (f q).revokedAt.isSome) :
    db.Grows (db.updateSessions p f) := by
  refine { Grows.refl db with sessions := fun q' hq' _ => ?_ }
  obtain ⟨q, hq, -, rfl | ⟨hp, rfl⟩⟩ := mem_updateSessions hq'
  · exact ⟨_, hq, rfl, fun h => h⟩
  · exact ⟨q, hq, rfl, hf q hp⟩

theorem grows_revokeWhere (p : Session → Bool) : db.Grows (db.revokeWhere p) :=
  grows_updateSessions (fun _ _ _ => rfl)

theorem grows_createSession (userId : Uuid) (expiresAt : Time) :
    db.Grows (db.createSession userId expiresAt).2 := by
  unfold createSession
  split
  · refine { Grows.refl db with nextId := Nat.le_succ _, sessions := fun q' hq' hlt => ?_ }
    rcases Rows.mem_concat.mp hq' with hq' | rfl
    · exact ⟨q', hq', rfl, fun h => h⟩
    · exact absurd hlt (Nat.lt_irrefl _)
  · exact .refl db

theorem grows_bumpEpoch {userId : Uuid} {keep : Option Uuid} :
    db.Grows (db.bumpEpoch userId keep f).2 := by
  unfold bumpEpoch
  split
  · exact .refl db
  split
  · refine Grows.trans (grows_updateUser (fun u => ?_)) (grows_revokeWhere _)
    exact Int.le_of_lt (Int.lt_succ _)
  · exact .refl db

theorem grows_denylistToken (token : Token) (userId : Uuid) (expiresAt : Time) :
    db.Grows (db.denylistToken token userId expiresAt).2 := by
  unfold denylistToken
  split
  · exact .refl db
  split
  · exact { Grows.refl db with denylist := fun d hd => .inl (mem_append_left _ hd) }
  · exact .refl db

theorem grows_purgeExpiredTokens : db.Grows db.purgeExpiredTokens.2 := by
  refine { Grows.refl db with denylist := fun d hd => ?_ }
  by_cases hexp : d.expiresAt < db.now
  · exact .inr hexp
  · left
    apply mem_filter.mpr
    exact ⟨hd, by simpa using hexp⟩

theorem grows_purgeExpiredSessions : db.Grows db.purgeExpiredSessions.2 :=
  { Grows.refl db with sessions := fun q hq _ => ⟨q, mem_of_mem_filter hq, rfl, fun h => h⟩ }

theorem statement_grows (o : StoreOp) (db : AuthDb) : db.Grows (statement o db).2 := by
  cases o with
  | recordAuthFailure | resetAuthFailures => exact { Grows.refl db with }
  | rehashPassword => exact grows_updateUser (fun _ => Int.le_refl _)
  | createSession id expiresAt => exact grows_createSession id expiresAt
  | extendSession => exact grows_updateSessions (fun _ _ h => h)
  | denylistToken token id expiresAt => exact grows_denylistToken token id expiresAt
  | changePassword => exact grows_bumpEpoch
  | revokeSession => exact grows_revokeWhere _
  | revokeOtherSessions => exact grows_bumpEpoch
  | purgeExpiredTokens => exact grows_purgeExpiredTokens
  | purgeExpiredSessions => exact grows_purgeExpiredSessions
  | _ => exact .refl db

end AuthDb

structure Grows (s s' : State) : Prop where
  db : s.db.Grows s'.db
  issued : s.issued ⊆ s'.issued

theorem Grows.refl (s : State) : Grows s s := ⟨.refl _, List.Subset.refl _⟩

theorem Grows.trans {s1 s2 s3 : State} (h : Grows s1 s2) (h' : Grows s2 s3) : Grows s1 s3 :=
  ⟨h.db.trans h'.db, List.Subset.trans h.issued h'.issued⟩

theorem exec_grows {o : Op} {a : Ans o} (h : exec out o ch s = some (a, s')) : Grows s s' := by
  rcases exec_cases h with rfl | ⟨q, -, rfl⟩ | ⟨u, _, sid, _, -, -, -, rfl⟩
  · exact .refl _
  · exact ⟨AuthDb.statement_grows q s.db, List.Subset.refl _⟩
  · exact ⟨.refl _, subset_cons_self _ _⟩

theorem env_grows {e : Env} (h : env e s = some s') : Grows s s' := by
  cases e with
  | tick =>
    rw [← Option.some.inj h]
    refine ⟨{ AuthDb.Grows.refl s.db with now := Nat.le_add_right _ _, denylist := ?_ },
      List.Subset.refl _⟩
    exact fun d hd => .inl hd

end Octo.Auth
