import Octo.Auth.Discipline
import Octo.Conc.Runs

/-!
# Consistent tables, and what authentication accepts
-/

namespace Octo.Auth

open Conc Octo.Api AuthDb List

/-! ### Which statement writes what -/

variable {o : StoreOp}

namespace AuthDb

variable {db : AuthDb}

variable {id : Uuid} {keep : Option Uuid} {f : User → User} {u' : User}

theorem bumpEpoch_ok {r : Int × Nat} (h : (db.bumpEpoch id keep f).1 = .ok r) :
    ∃ u ∈ db.users, u.id = id ∧ r.1 = u.sessionEpoch + 1 ∧
      (db.bumpEpoch id keep f).2 =
        (db.updateUser id (fun u => { f u with sessionEpoch := u.sessionEpoch + 1 })).revokeWhere
          (isOther id keep) := by
  unfold bumpEpoch at h ⊢
  cases hu : db.getUser id with
  | none => simp only [hu] at h; cases h
  | some u =>
    obtain ⟨hmem, hid⟩ := getUser_eq_some hu
    simp only [hu] at h ⊢
    split at h
    · rename_i hlt
      rw [if_pos hlt]
      cases h
      exact ⟨u, hmem, hid, rfl, rfl⟩
    · cases h

theorem changePassword_ok {hash : String} {epoch : Int}
    (h : (db.changePassword id hash keep).1 = .ok epoch) :
    ∃ n, (db.bumpEpoch id keep (fun u => { u with passwordHash := hash })).1 = .ok (epoch, n) := by
  unfold changePassword at h
  cases hr : (db.bumpEpoch id keep (fun u => { u with passwordHash := hash })).1 with
  | error => simp only [hr] at h; cases h
  | ok r =>
    simp only [hr] at h
    cases h
    exact ⟨r.2, rfl⟩

theorem mem_users_bumpEpoch (h : u' ∈ (db.bumpEpoch id keep f).2.users) :
    ∃ u ∈ db.users, u.id = u'.id ∧
      (u' = u ∨ u.id = id ∧ u' = { f u with id := u.id, sessionEpoch := u.sessionEpoch + 1 } ∧
        ∃ r, (db.bumpEpoch id keep f).1 = .ok r) := by
  unfold bumpEpoch at h ⊢
  cases hu : db.getUser id with
  | none =>
    simp only [hu] at h
    exact ⟨u', h, rfl, .inl rfl⟩
  | some =>
    simp only [hu] at h ⊢
    split at h
    · rename_i hlt
      rw [if_pos hlt]
      obtain ⟨u, hu, hid, ⟨-, hr⟩ | ⟨hid', hr⟩⟩ := mem_updateUser h
      · exact ⟨u, hu, hid, .inl hr⟩
      · exact ⟨u, hu, hid, .inr ⟨hid', hr, _, rfl⟩⟩
    · exact ⟨u', h, rfl, .inl rfl⟩

theorem bumpEpoch_denylist (id : Uuid) (keep : Option Uuid) (f : User → User) :
    (db.bumpEpoch id keep f).2.denylist = db.denylist := by
  unfold bumpEpoch
  split
  · rfl
  · split <;> rfl

theorem createSession_users (id : Uuid) (expiresAt : Time) :
    (db.createSession id expiresAt).2.users = db.users ∧
      (db.createSession id expiresAt).2.denylist = db.denylist := by
  unfold createSession
  split <;> exact ⟨rfl, rfl⟩

theorem denylistToken_users (token : Token) (id : Uuid) (expiresAt : Time) :
    (db.denylistToken token id expiresAt).2.users = db.users := by
  unfold denylistToken
  split
  · rfl
  · split <;> rfl

theorem mem_users_after (h : u' ∈ (statement o db).2.users) :
    ∃ u ∈ db.users, u.id = u'.id ∧ (u'.passwordHash = u.passwordHash ∨
      o = .rehashPassword u'.id u'.passwordHash ∨
        ∃ keep epoch, o = .changePassword u'.id u'.passwordHash keep ∧
        (db.changePassword u'.id u'.passwordHash keep).1 = .ok epoch) := by
  cases o with
  | rehashPassword =>
    obtain ⟨u, hu, -, ⟨-, rfl⟩ | ⟨hid', rfl⟩⟩ := mem_updateUser h
    · exact ⟨_, hu, rfl, .inl rfl⟩
    · exact ⟨u, hu, rfl, .inr (.inl (by rw [hid']))⟩
  | changePassword id hash keep =>
    obtain ⟨u, hu, -, rfl | ⟨rfl, rfl, r, hr⟩⟩ := mem_users_bumpEpoch h
    · exact ⟨_, hu, rfl, .inl rfl⟩
    · refine ⟨u, hu, rfl, .inr (.inr ⟨keep, r.1, rfl, ?_⟩)⟩
      unfold changePassword
      simp only [hr]
      rfl
  | revokeOtherSessions =>
    obtain ⟨u, hu, -, rfl | ⟨-, rfl, -⟩⟩ := mem_users_bumpEpoch h
    · exact ⟨_, hu, rfl, .inl rfl⟩
    · exact ⟨u, hu, rfl, .inl rfl⟩
  | createSession id expiresAt =>
    rw [show (statement (.createSession id expiresAt) db).2.users =
      db.users from (createSession_users id _).1] at h
    exact ⟨u', h, rfl, .inl rfl⟩
  | denylistToken token id expiresAt =>
    rw [show (statement (.denylistToken token id expiresAt) db).2.users = db.users from
      denylistToken_users token id _] at h
    exact ⟨u', h, rfl, .inl rfl⟩
  | _ => exact ⟨u', h, rfl, .inl rfl⟩

theorem mem_denylist_after {d : DenyRow} (h : d ∈ (statement o db).2.denylist) :
    d ∈ db.denylist ∨ o = .denylistToken d.token d.userId d.expiresAt := by
  cases o with
  | denylistToken token id expiresAt =>
    change d ∈ (db.denylistToken token id expiresAt).2.denylist at h
    unfold denylistToken at h
    split at h
    · exact .inl h
    split at h
    · rcases Rows.mem_concat.mp h with h | rfl
      · exact .inl h
      · exact .inr rfl
    · exact .inl h
  | createSession id expiresAt =>
    rw [show (statement (.createSession id expiresAt) db).2.denylist = db.denylist from
      (createSession_users id _).2] at h
    exact .inl h
  | changePassword id hash keep =>
    rw [show (statement (.changePassword id hash keep) db).2.denylist = db.denylist from
      bumpEpoch_denylist id keep _] at h
    exact .inl h
  | revokeOtherSessions id keep =>
    rw [show (statement (.revokeOtherSessions id keep) db).2.denylist = db.denylist from
      bumpEpoch_denylist id keep _] at h
    exact .inl h
  | purgeExpiredTokens => exact .inl (mem_of_mem_filter h)
  | _ => exact .inl h

end AuthDb

/-! ### Consistency -/

structure Consistent (s : State) : Prop where
  epochs : ∀ t ∈ s.issued, ∀ u ∈ s.db.users, u.id = t.claims.sub → t.claims.epoch ≤ u.sessionEpoch
  denylist : ∀ d ∈ s.db.denylist, d.expiresAt = timestamp d.token.claims.exp

variable {out : Outside} {c : Conf} {cond : World → Label Job Op Ans → Prop}

variable {x : Act} {u : Uuid} {token : Token}

theorem row_of_readsEpoch {epoch : Int}
    (hx : ∃ ch, exec out x.op ch x.pre = some (x.ans, x.post)) (h : ReadsEpoch u epoch x) :
    ∃ row ∈ x.post.db.users, row.id = u ∧ row.sessionEpoch = epoch := by
  obtain ⟨ch, hx⟩ := hx
  -- the statement that bumps the epoch answers with the new one
  have hbump : ∀ {db : AuthDb} {keep : Option Uuid} {f : User → User} {r : Int × Nat},
      (db.bumpEpoch u keep f).1 = .ok r →
      ∃ row ∈ (db.bumpEpoch u keep f).2.users, row.id = u ∧ row.sessionEpoch = r.1 := by
    intro db keep f r hr
    obtain ⟨v, hv, hid, he, hdb⟩ := bumpEpoch_ok hr
    rw [hdb, he]
    refine ⟨_, mem_map.mpr ⟨v, hv, rfl⟩, ?_⟩
    simp [hid]
  unfold ReadsEpoch at h
  split at h
  · obtain ⟨hstmt, hpost⟩ := exec_store_ok hx
    obtain ⟨hmem, hid⟩ := getUser_eq_some (Except.ok.inj hstmt)
    exact ⟨_, by rw [hpost]; exact hmem, hid.trans h.1, h.2⟩
  · obtain ⟨hstmt, hpost⟩ := exec_store_ok hx
    exact ⟨_, by rw [hpost]; exact mem_of_find?_eq_some (Except.ok.inj hstmt), h.1, h.2⟩
  · obtain ⟨rfl, rfl⟩ := h
    obtain ⟨hstmt, hpost⟩ := exec_store_ok hx
    obtain ⟨n, hn⟩ := changePassword_ok hstmt
    rw [hpost]
    exact hbump hn
  · obtain ⟨rfl, rfl⟩ := h
    obtain ⟨hstmt, hpost⟩ := exec_store_ok hx
    rw [hpost]
    exact hbump hstmt
  · exact absurd h not_false

theorem epoch_le_of_readsEpoch {w : World} (hw : w.Chained (system out) Grows) {i : Nat}
    (hx : x ∈ w.trace i) {u : User} {epoch : Int} (hu : u ∈ w.db.db.users)
    (h : ReadsEpoch u.id epoch x) : epoch ≤ u.sessionEpoch := by
  obtain ⟨row, hrow, hid, rfl⟩ := row_of_readsEpoch (hw.executed _ (World.mem_trace.mp hx)) h
  obtain ⟨_, hrow', hid', hle⟩ := (hw.below_of_mem hx).db.users u hu
  rw [eq_of_user_id hrow hrow' (hid.trans hid'.symm)]
  exact hle

theorem Consistent.after {s : State} (h : Consistent s)
    (ho : ∀ t u e, o = .denylistToken t u e → e = timestamp t.claims.exp) :
    Consistent (s.after o) where
  epochs := by
    intro t ht u' hu' hid
    obtain ⟨u, hu, hid', hle⟩ := (statement_grows o s.db).users u' hu'
    exact Int.le_trans (h.epochs t ht u hu (hid'.trans hid)) hle
  denylist := by
    intro d hd
    rcases mem_denylist_after hd with hd | hd
    · exact h.denylist d hd
    · exact ho _ _ _ hd

/-- No token is ahead of its user's epoch, and a deny-list row stands until the `exp` claim of its
token. -/
theorem consistent_reach (h : Reach (system out) cond Consistent c) : Consistent c.world.db := by
  refine (discipline out).invariant (I := fun w => Consistent w.db) (fun s hs => hs)
    (fun w j hw _ _ => hw) ?_ ?_ h
  · intro w i j o ch a s hw hchain _ hallowed hexec _
    rcases exec_cases hexec with rfl | ⟨q, rfl, rfl⟩
      | ⟨u, epoch, sid, token, rfl, hsub, hepoch, rfl⟩
    · exact hw
    · refine hw.after ?_
      rintro t u e rfl
      exact hallowed.2
    · refine ⟨?_, hw.denylist⟩
      intro t ht row hrow hid
      rcases mem_cons.mp ht with rfl | ht
      · obtain ⟨⟨x, hx, hread⟩, -⟩ := hallowed
        rw [hepoch]
        rw [← hsub, ← hid] at hread
        exact epoch_le_of_readsEpoch hchain hx hrow hread
      · exact hw.epochs t ht row hrow hid
  · intro w e s hw henv _
    cases e with
    | tick =>
      rw [← Option.some.inj henv]
      exact ⟨hw.epochs, hw.denylist⟩

/-! ### Acceptance -/

/-- `authenticate_session` accepts the token, with the call of `verify_token` in `s1` and that of
`is_session_valid` in `s2`. -/
def Accepts (out : Outside) (s1 s2 : State) (token : Token) : Prop :=
  ∃ session, MayReturn (system out) (authenticateSession token).run [s1, s2] (.ok session)

/-- `authenticate_session` accepts a token that `verify_token` accepts in one state and
`is_session_valid` in a later one. -/
theorem accepts_iff {s1 s2 : State} : Accepts out s1 s2 token ↔
    out.jwt.Trusts s1.issued token ∧ nowSecs s1.db.now ≤ token.claims.exp ∧
      s2.db.isSessionValid token token.claims.sub token.claims.epoch token.claims.sid = true := by
  constructor
  · rintro ⟨_, ch1, a, s1', hverify, hrest⟩
    cases a with
    | none => cases hrest
    | some =>
      obtain ⟨rfl, htrust, hexp⟩ := verifyToken_eq_some.mp (exec_verifyToken hverify).1
      obtain ⟨ch2, valid, s2', hvalid, hret⟩ := hrest
      cases valid with
      | error => cases hret
      | ok valid =>
        refine ⟨htrust, hexp, ?_⟩
        cases valid with
        | false => cases hret
        | true => exact Except.ok.inj (exec_store_ok hvalid).1
  · rintro ⟨htrust, hexp, hvalid⟩
    have hverify := verifyToken_eq_some.mpr ⟨rfl, htrust, hexp⟩
    refine ⟨token.session, .none, some token.claims, s1, by rw [← hverify]; rfl, ?_⟩
    refine ⟨.store (.served 0), .ok true, s2, ?_, rfl⟩
    rw [← hvalid]
    rfl

instance (s1 s2 : State) (token : Token) : Decidable (Accepts out s1 s2 token) :=
  decidable_of_iff _ accepts_iff.symm

theorem isSessionValid_iff {db : AuthDb} {epoch : Int} {sid : Option Uuid} :
    db.isSessionValid token u epoch sid = true ↔
      db.atEpoch u epoch = true ∧ db.isTokenDenylisted token = false ∧
      db.sessionLive u sid = true := by
  unfold isSessionValid
  rw [Bool.and_eq_true, Bool.and_eq_true, Bool.not_eq_true', and_assoc]

theorem atEpoch_iff {db : AuthDb} {epoch : Int} : db.atEpoch u epoch = true ↔
    ∃ row ∈ db.users, row.id = u ∧ row.sessionEpoch = epoch ∧ row.deletedAt = none := by
  simp [atEpoch, and_assoc]

/-! ### Password changes -/

/-- The call has changed the user's password, whether or not its answer arrived. -/
def Changes (u : Uuid) (x : Act) : Prop :=
  ∃ phc keep epoch, x.op = .store (.changePassword u phc keep) ∧
    (x.pre.db.changePassword u phc keep).1 = .ok epoch ∧
    x.post = x.pre.after (.changePassword u phc keep)

theorem Changes.epoch (h : Changes u x) {row' : User} (hrow : row' ∈ x.post.db.users)
    (hid : row'.id = u) :
    ∃ row ∈ x.pre.db.users, row.id = u ∧ row'.sessionEpoch = row.sessionEpoch + 1 := by
  obtain ⟨phc, keep, _, -, hok, hpost⟩ := h
  obtain ⟨n, hbump⟩ := changePassword_ok hok
  obtain ⟨-, -, -, -, hdb⟩ := bumpEpoch_ok hbump
  have hmem : row' ∈ (x.pre.db.bumpEpoch u keep
      (fun v => { v with passwordHash := phc })).2.users := by
    rw [hpost] at hrow
    exact hrow
  rw [hdb] at hmem
  obtain ⟨row, hold, hid', ⟨hne, -⟩ | ⟨-, rfl⟩⟩ := mem_updateUser hmem
  · exact absurd (hid'.trans hid) hne
  · exact ⟨row, hold, hid, rfl⟩

def isChange (u : Uuid) : Act → Bool
  | ⟨.store (.changePassword v _ _), .ok _, _, _⟩ => u == v
  | _ => false

theorem changes_of_isChange (hx : ∃ ch, exec out x.op ch x.pre = some (x.ans, x.post))
    (h : isChange u x = true) : Changes u x := by
  obtain ⟨ch, hx⟩ := hx
  unfold isChange at h
  split at h
  · obtain rfl := beq_iff_eq.mp h
    obtain ⟨hok, hpost⟩ := exec_store_ok hx
    exact ⟨_, _, _, rfl, hok, hpost⟩
  · cases h

/-! ### An account -/

/-- A hashing scheme in which a hash is the password behind a tag of three characters, `v2:` being
the tag that is configured. -/
def tagHashing : PasswordHashing where
  hash := fun _ password => some ("v2:" ++ password)
  verify := fun password phc => phc.toList.drop 3 == password.toList
  params := "v2:"

def exampleOut : Outside where
  jwt := ⟨"current", none, "octo-api", "octo-clients"⟩
  hashing := tagHashing
  normalize := id

def exampleToken : Token := exampleOut.jwt.issueToken 0 0 1 0 (some 10)

def exampleState (phc : String) : State where
  db :=
    { users := [⟨1, "ann@octo.dev", phc, 0, some 0, none⟩]
      sessions := [⟨10, 1, sessionExpiry 0, none⟩]
      denylist := []
      lockouts := []
      nextId := 11
      now := 0
      users_nodup := List.nodup_singleton _
      sessions_nodup := by decide
      sessions_lt := by decide }
  issued := [exampleToken]
  nextJti := 1

theorem exampleState_consistent (phc : String) : Consistent (exampleState phc) where
  epochs := by
    intro t ht u hu _
    rw [mem_singleton.mp ht, mem_singleton.mp hu]
    exact Int.le_refl _
  denylist := fun d hd => nomatch hd

def served (i : Nat) : Move Job Choice Env := .call i (.store (.served 0))

def computed (i : Nat) : Move Job Choice Env := .call i .none

def exampleRequest : ChangePasswordRequest := ⟨some "old-password", some "new-password"⟩

/-- A password change by thread `i`, from its first call to its last. -/
def changeMoves (i : Nat) : List (Move Job Choice Env) :=
  [.call i (.answer true), computed i, served i, .call i (.answer true), served i,
    .call i (.drawn 0), served i, computed i, served i, computed i]

def hasReturned : Prog Op Ans Unit → Bool
  | .ret _ => true
  | .call .. => false

end Octo.Auth
