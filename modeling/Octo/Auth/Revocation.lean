import Octo.Auth.Consistent

/-!
# Revoked tokens

A token is revoked by a deny-list row (logout, refresh), through its session or through its user's
epoch.  The last two are permanent.  A deny-list row counts until the instant of the `exp` claim,
but `verify_token` accepts the token through the whole second that begins there: a token that is
only deny-listed is accepted again in that second (`revoked_rejected_iff`,
`refreshed_token_returns`).
-/

namespace Octo.Auth

open Conc Octo.Api List

/-- The token was logged out or refreshed, or its session was revoked, or its epoch was bumped. -/
def Revoked (s : State) (t : Token) : Prop :=
  (∃ d ∈ s.db.denylist, d.token = t) ∨
    (∃ q ∈ s.db.sessions, t.claims.sid = some q.id ∧ q.revokedAt.isSome = true) ∨
    ∃ u ∈ s.db.users, u.id = t.claims.sub ∧ t.claims.epoch < u.sessionEpoch

/-- The call revokes the token: a logout or a refresh has deny-listed it, its session was revoked,
or a password change or the revocation of the other sessions has bumped the epoch of its user. -/
def Revokes (t : Token) : Act → Prop
  | ⟨.store (.denylistToken token _ _), .ok _, _, _⟩ => token = t
  | ⟨.store (.revokeSession _ sid), .ok revoked, _, _⟩ => revoked = true ∧ t.claims.sid = some sid
  | ⟨.store (.changePassword u _ _), .ok _, pre, _⟩ => t.claims.sub = u ∧ t ∈ pre.issued
  | ⟨.store (.revokeOtherSessions u _), .ok _, pre, _⟩ => t.claims.sub = u ∧ t ∈ pre.issued
  | _ => False

/-! ### Calls that revoke -/

variable {out : Outside} {ch : Choice} {s s' : State} {t : Token}

variable {keep : Option Uuid} {u : Uuid} {r : Int × Nat} {epoch : Int} {e : Time}

/-- **`denylist_token` revokes**: the call of logout and refresh. -/
theorem denyRow_of_denylistToken
    (h : exec out (.store (.denylistToken t u e)) ch s = some (.ok (), s')) :
    ∃ d ∈ s'.db.denylist, d.token = t := by
  obtain ⟨hok, rfl⟩ := exec_store_ok h
  change ∃ d ∈ (s.db.denylistToken t u e).2.denylist, d.token = t
  change (s.db.denylistToken t u e).1 = .ok () at hok
  unfold AuthDb.denylistToken at hok ⊢
  split
  · rename_i hany
    obtain ⟨d, hd, ht⟩ := any_eq_true.mp hany
    exact ⟨d, hd, beq_iff_eq.mp ht⟩
  · rename_i hnone
    rw [if_neg hnone] at hok
    split
    · exact ⟨_, mem_concat_self, rfl⟩
    · rename_i huser
      rw [if_neg huser] at hok
      cases hok

/-- **`revoke_session` revokes** the tokens of the session. -/
theorem revoked_of_revokeSession {u sid : Uuid} (hsid : t.claims.sid = some sid)
    (h : exec out (.store (.revokeSession u sid)) ch s = some (.ok true, s')) : Revoked s' t := by
  obtain ⟨hok, rfl⟩ := exec_store_ok h
  obtain ⟨q, hq, hunrevoked⟩ := any_eq_true.mp (Except.ok.inj hok)
  simp only [AuthDb.isUnrevoked, Bool.and_eq_true, beq_iff_eq] at hunrevoked
  obtain ⟨⟨hid, huser⟩, hnone⟩ := hunrevoked
  refine .inr (.inl ⟨_, mem_map.mpr ⟨q, hq, rfl⟩, ?_⟩)
  simp [hid, huser, hnone, hsid]

theorem revoked_of_bump {f : User → User} (hs : Consistent s) (ht : t ∈ s.issued)
    (hsub : t.claims.sub = u) (hok : (s.db.bumpEpoch u keep f).1 = .ok r) :
    Revoked { s with db := (s.db.bumpEpoch u keep f).2 } t := by
  obtain ⟨row, hrow, hid, -, hdb⟩ := AuthDb.bumpEpoch_ok hok
  refine .inr (.inr ?_)
  rw [hdb]
  refine ⟨_, mem_map.mpr ⟨row, hrow, rfl⟩, ?_⟩
  have hle := hs.epochs t ht row hrow (hid.trans hsub.symm)
  simp only [hid, hsub, beq_self_eq_true, if_true, true_and]
  omega

/-- **`change_password` revokes** every token of the user. -/
theorem revoked_of_changePassword {phc : String} (hs : Consistent s) (ht : t ∈ s.issued)
    (hsub : t.claims.sub = u)
    (h : exec out (.store (.changePassword u phc keep)) ch s = some (.ok epoch, s')) :
    Revoked s' t := by
  obtain ⟨hok, rfl⟩ := exec_store_ok h
  obtain ⟨n, hbump⟩ := AuthDb.changePassword_ok hok
  exact revoked_of_bump hs ht hsub hbump

/-- **`revoke_other_sessions` revokes** every token of the user. -/
theorem revoked_of_revokeOtherSessions (hs : Consistent s) (ht : t ∈ s.issued)
    (hsub : t.claims.sub = u)
    (h : exec out (.store (.revokeOtherSessions u keep)) ch s = some (.ok r, s')) :
    Revoked s' t := by
  obtain ⟨hok, rfl⟩ := exec_store_ok h
  exact revoked_of_bump hs ht hsub hok

theorem revoked_of_revokes {x : Act} (hs : Consistent x.pre)
    (hexec : ∃ ch, exec out x.op ch x.pre = some (x.ans, x.post)) (h : Revokes t x) :
    Revoked x.post t := by
  obtain ⟨ch, he⟩ := hexec
  unfold Revokes at h
  split at h
  · exact .inl (h ▸ denyRow_of_denylistToken he)
  · obtain ⟨rfl, hsid⟩ := h
    exact revoked_of_revokeSession hsid he
  · exact revoked_of_changePassword hs h.2 h.1 he
  · exact revoked_of_revokeOtherSessions hs h.2 h.1 he
  · cases h

/-! ### What revocation comes to later -/

namespace AuthDb

variable {db db' : AuthDb}

theorem Grows.not_sessionLive (h : db.Grows db') {q : Session} (hq : q ∈ db.sessions)
    (hrev : q.revokedAt.isSome = true) (u : Uuid) : db'.sessionLive u (some q.id) = false := by
  simp only [sessionLive, any_eq_false]
  intro q' hq' hlive
  simp only [isLive, isUnrevoked, Bool.and_eq_true, beq_iff_eq] at hlive
  obtain ⟨⟨⟨hid, -⟩, hnone⟩, -⟩ := hlive
  -- the row of this id has been revoked all along
  obtain ⟨q0, hq0, hid0, hkeep⟩ := h.sessions q' hq' (hid ▸ db.sessions_lt q hq)
  rw [eq_of_session_id hq0 hq (hid0.trans hid)] at hkeep
  have hsome := hkeep hrev
  rw [Option.isNone_iff_eq_none.mp hnone] at hsome
  cases hsome

theorem Grows.not_atEpoch (h : db.Grows db') {row : User} (hrow : row ∈ db.users)
    (hlt : epoch < row.sessionEpoch) : db'.atEpoch row.id epoch = false := by
  apply Bool.eq_false_iff.mpr
  intro hat
  obtain ⟨row', hrow', hid, hepoch, -⟩ := atEpoch_iff.mp hat
  obtain ⟨row0, hrow0, hid0, hle⟩ := h.users row' hrow'
  rw [eq_of_user_id hrow0 hrow (hid0.trans hid)] at hle
  omega

theorem Grows.isTokenDenylisted_iff (h : db.Grows db') {d : DenyRow} (hd : d ∈ db.denylist)
    (hexp : d.expiresAt = timestamp d.token.claims.exp)
    (hexp' : ∀ d' ∈ db'.denylist, d'.expiresAt = timestamp d'.token.claims.exp) :
    db'.isTokenDenylisted d.token = true ↔ db'.now < timestamp d.token.claims.exp := by
  simp only [isTokenDenylisted, any_eq_true, Bool.and_eq_true, beq_iff_eq, decide_eq_true_eq]
  constructor
  · rintro ⟨d', hd', htoken, hlt⟩
    rwa [hexp' d' hd', htoken] at hlt
  · intro hlt
    rcases h.denylist d hd with hd' | hpast
    · exact ⟨d, hd', rfl, hexp ▸ hlt⟩
    · rw [hexp] at hpast
      exact absurd hlt (Nat.lt_asymm hpast)

end AuthDb

/-- The token would be accepted if it had not been deny-listed: it is trusted, its user is at its
epoch and its session is live. -/
structure Otherwise (out : Outside) (s1 s2 : State) (t : Token) : Prop where
  trusts : out.jwt.Trusts s1.issued t
  epoch : s2.db.atEpoch t.claims.sub t.claims.epoch = true
  session : s2.db.sessionLive t.claims.sub t.claims.sid = true

/-- `verify_token` runs before the second of the `exp` claim is over, and `is_session_valid` after
it has begun. -/
def InExpSecond (s1 s2 : State) (t : Token) : Prop :=
  nowSecs s1.db.now ≤ t.claims.exp ∧ timestamp t.claims.exp ≤ s2.db.now

/-- **A revoked token is rejected at every later instant**, unless it is revoked by a deny-list row
only and the authentication falls into the second of its `exp` claim.  It is enough that some call
of the history has revoked it: the row may be gone by now. -/
theorem revoked_rejected_iff {c c1 c2 : Conf} (hc : Reachable (system out) Consistent c)
    (hrev : Revoked c.world.db t ∨ ∃ e ∈ c.world.hist, Revokes t e.act)
    (h1 : Leads (system out) c c1) (h2 : Leads (system out) c1 c2) :
    ¬ Accepts out c1.world.db c2.world.db t ↔
      ¬ (InExpSecond c1.world.db c2.world.db t ∧ Otherwise out c1.world.db c2.world.db t) := by
  obtain ⟨s, hcons, hrev, hgrows⟩ : ∃ s, Consistent s ∧ Revoked s t ∧ Grows s c2.world.db := by
    have hlater := (discipline out).leads (h1.trans h2)
    rcases hrev with hrev | ⟨e, he, hrev⟩
    · exact ⟨_, consistent_reach hc, hrev, hlater⟩
    · -- the state right after the call that revoked it
      have hchained := (discipline out).chained hc
      obtain ⟨hpre, hpost⟩ := reach_hist (fun _ => consistent_reach) hc e he
      exact ⟨_, hpost, revoked_of_revokes hpre (hchained.executed e he) hrev,
        (hchained.below e he).trans hlater⟩
  have hcons2 := consistent_reach (hc.leads (h1.trans h2))
  rw [not_iff_not, accepts_iff, isSessionValid_iff]
  -- if its user and its session stand, the token has a deny-list row
  have hdenied : c2.world.db.db.atEpoch t.claims.sub t.claims.epoch = true →
      c2.world.db.db.sessionLive t.claims.sub t.claims.sid = true →
      (c2.world.db.db.isTokenDenylisted t = false ↔
        timestamp t.claims.exp ≤ c2.world.db.db.now) := by
    intro hat hlive
    rcases hrev with ⟨d, hd, rfl⟩ | ⟨q, hq, hsid, hsome⟩ | ⟨row, hrow, hid, hlt⟩
    · have hiff := hgrows.db.isTokenDenylisted_iff hd (hcons.denylist d hd) hcons2.denylist
      rw [← Bool.not_eq_true, hiff]
      exact Nat.not_lt
    · rw [hsid, hgrows.db.not_sessionLive hq hsome] at hlive
      cases hlive
    · rw [← hid, hgrows.db.not_atEpoch hrow hlt] at hat
      cases hat
  constructor
  · rintro ⟨htrust, hexp, hat, hnot, hlive⟩
    exact ⟨⟨hexp, (hdenied hat hlive).mp hnot⟩, htrust, hat, hlive⟩
  · rintro ⟨⟨hexp, hpast⟩, htrust, hat, hlive⟩
    exact ⟨htrust, hexp, hat, (hdenied hat hlive).mpr hpast, hlive⟩

def refreshOnce : List (Move Job Choice Env) :=
  [.env (.tick microsPerSec), .start (.refresh exampleToken), computed 0, served 0, served 0,
    served 0, computed 0, served 0, computed 0]

theorem refreshed_token_rejected : ∃ c : Conf, Reachable (system exampleOut) Consistent c ∧
    Revoked c.world.db exampleToken ∧ ¬ Accepts exampleOut c.world.db c.world.db exampleToken := by
  obtain ⟨c, hc, hrefreshed, hbefore⟩ := exists_reachable_of_runMoves (S := system exampleOut)
    (exampleState_consistent "v2:old-password") refreshOnce
    (p := fun c => (∃ d ∈ c.world.db.db.denylist, d.token = exampleToken) ∧
      c.world.db.db.now < timestamp exampleToken.claims.exp) (by decide +kernel)
  have hrev : Revoked c.world.db exampleToken := .inl hrefreshed
  refine ⟨c, hc, hrev, (revoked_rejected_iff hc (.inl hrev) .refl .refl).mpr ?_⟩
  rintro ⟨⟨-, hpast⟩, -⟩
  exact absurd hbefore (Nat.not_lt.mpr hpast)

def untilExp : Nat := (7 * 24 * 60 * 60 - 1) * microsPerSec

theorem refreshed_token_returns : ∃ c c1 : Conf, Reachable (system exampleOut) Consistent c ∧
    c.world.jobs = [.refresh exampleToken] ∧ (∀ p ∈ c.threads, hasReturned p = true) ∧
    Revoked c.world.db exampleToken ∧ ¬ Accepts exampleOut c.world.db c.world.db exampleToken ∧
    Leads (system exampleOut) c c1 ∧ nowSecs c1.world.db.db.now = exampleToken.claims.exp ∧
    Accepts exampleOut c1.world.db c1.world.db exampleToken := by
  -- the clock moved on by `untilExp` after the refresh
  let later (s : State) : State := { s with db := s.db.tick untilExp }
  obtain ⟨c, hc, hjobs, hret, hrefreshed, hrejected, hsecond, haccepted⟩ :=
    exists_reachable_of_runMoves (S := system exampleOut)
      (exampleState_consistent "v2:old-password")
      refreshOnce (p := fun c => c.world.jobs = [.refresh exampleToken] ∧
        (∀ p ∈ c.threads, hasReturned p = true) ∧
        (∃ d ∈ c.world.db.db.denylist, d.token = exampleToken) ∧
        ¬ Accepts exampleOut c.world.db c.world.db exampleToken ∧
        nowSecs (later c.world.db).db.now = exampleToken.claims.exp ∧
        Accepts exampleOut (later c.world.db) (later c.world.db) exampleToken) (by decide +kernel)
  refine ⟨c, ⟨c.world.setDb (later c.world.db), c.threads⟩, hc, hjobs, hret,
    .inl hrefreshed, hrejected, ?_, hsecond, haccepted⟩
  exact .single ⟨.env, .env (.tick untilExp) _ rfl⟩

end Octo.Auth
