import Octo.Auth.Consistent

/-!
# A password change and the tokens before it

`refresh` authenticates its token and then reads the user again, so the token it issues carries the
epoch of the second read.  If every refresh that issues a token has found its own token's epoch
there, a token that is accepted after a password change was issued by the change or descends from it
by refreshes (`change_revokes_rest`).  If not, a refresh that was authenticated before the change
issues a token that outlives it (`refresh_survives_change`).
-/

namespace Octo.Auth

open Conc Octo.Api List

/-! ### Descent -/

def Issued (w : World) (i : Nat) (t : Token) : Prop :=
  ∃ u epoch sid s s', ⟨.issueToken u epoch sid, t, s, s'⟩ ∈ w.trace i

/-- The token was issued by a password change, or by a refresh of a token that descends from one. -/
inductive Descends (w : World) : Token → Prop
  | change {i : Nat} {t token : Token} {req : ChangePasswordRequest} :
      w.jobs[i]? = some (.changePassword token req) → Issued w i t → Descends w t
  | refresh {i : Nat} {t t' : Token} :
      w.jobs[i]? = some (.refresh t') → Descends w t' → Issued w i t → Descends w t

variable {t : Token} {j : Job} {i : Nat} {o : Op} {s : State} {c : Conf}

theorem Descends.mono {w w' : World} (hjobs : w.jobs <+: w'.jobs)
    (htr : ∀ i, w.trace i ⊆ w'.trace i) (h : Descends w t) : Descends w' t := by
  have hissued : ∀ {i t}, Issued w i t → Issued w' i t := by
    rintro i t ⟨u, epoch, sid, s, s', hm⟩
    exact ⟨u, epoch, sid, s, s', htr i hm⟩
  have hjob : ∀ {i : Nat} {j : Job}, w.jobs[i]? = some j → w'.jobs[i]? = some j := by
    intro i j hj
    obtain ⟨_, hmore⟩ := hjobs
    rw [← hmore, getElem?_append_left (List.getElem?_eq_some_iff.mp hj).1]
    exact hj
  induction h with
  | change hj hi => exact .change (hjob hj) (hissued hi)
  | refresh hj _ hi ih => exact .refresh (hjob hj) ih (hissued hi)

/-! ### Runs of refreshes and changes -/

def opensNothing : Label Job Op Ans → Bool
  | .start (.login _) => false
  | .start (.revokeOtherSessions _) => false
  | _ => true

/-- A refresh of `t` that read its user in this call found the epoch of `t`. -/
def foundEpoch (t : Token) : Act → Bool
  | ⟨.store (.getUser _), .ok (some user), _, _⟩ => user.sessionEpoch == t.claims.epoch
  | _ => true

/-- Where a refresh issues a token, it has read its user at the epoch of the token that was
presented. A refresh whose session was revoked in the meantime gets nowhere, whatever it has read.
-/
def readsOwnEpoch (w : World) : Label Job Op Ans → Bool
  | .call i (.issueToken ..) _ =>
    match w.jobs[i]? with
    | some (.refresh t) => (w.trace i).all (foundEpoch t)
    | _ => true
  | _ => true

def inTime (w : World) (l : Label Job Op Ans) : Bool := opensNothing l && readsOwnEpoch w l

structure Rotated (u : Uuid) (w : World) : Prop where
  jobs : ∀ j ∈ w.jobs, opensNothing (.start j) = true
  own : ∀ i t t', w.jobs[i]? = some (.refresh t') → Issued w i t →
    t.claims.sub = t'.claims.sub ∧ t.claims.epoch = t'.claims.epoch
  descends : ∀ i x, x ∈ w.trace i → Changes u x → ∀ row ∈ x.pre.db.users, row.id = u →
    ∀ t ∈ w.db.issued, t.claims.sub = u → row.sessionEpoch < t.claims.epoch → Descends w t

variable {out : Outside} {w : World} {u : Uuid}

theorem Rotated.addJob (h : Rotated u w) (hj : opensNothing (.start j) = true)
    (hfresh : w.trace w.jobs.length = []) : Rotated u (w.addJob j) where
  jobs := Rows.forall_mem_concat h.jobs hj
  own := by
    intro i t t' hi hissued
    rw [World.addJob_jobs] at hi
    by_cases hlt : i < w.jobs.length
    · rw [getElem?_append_left hlt] at hi
      exact h.own i t t' hi hissued
    · -- the new job has made no call
      have hlen := (List.getElem?_eq_some_iff.mp hi).1
      rw [length_append, length_singleton] at hlen
      obtain ⟨_, _, _, _, _, hm⟩ := hissued
      rw [World.trace_addJob, show i = w.jobs.length by omega, hfresh] at hm
      exact absurd hm not_mem_nil
  descends := by
    intro i x hx hch row hrow hid t ht hsub hlt
    apply Descends.mono _ _ (h.descends i x hx hch row hrow hid t ht hsub hlt)
    · exact prefix_append _ _
    · exact fun _ _ hy => hy

variable {a : Ans o} {ch : Choice} {epoch : Int} {k : Nat} {x : Act}

theorem Descends.record (h : Descends w t) : Descends (w.record i o a s) t := by
  apply Descends.mono _ _ h
  · exact prefix_refl _
  · exact fun _ => World.trace_subset_record

/-- The token that a refresh issues is one of its user, under the epoch of the token it was
presented. -/
theorem own_of_mayIssue (hj : w.jobs[i]? = some (.refresh t)) {v : Uuid} {sid : Option Uuid}
    {a : Token} (hmay : MayIssue (.refresh t) v epoch (w.trace i))
    (hown : readsOwnEpoch w (.call i (.issueToken v epoch sid) a) = true) :
    v = t.claims.sub ∧ epoch = t.claims.epoch := by
  obtain ⟨-, -, hv, _, s1, s2, hm, rfl⟩ := hmay
  simp only [readsOwnEpoch, hj, all_eq_true] at hown
  exact ⟨hv, beq_iff_eq.mp (hown _ hm)⟩

theorem Rotated.own_record (h : Rotated u w) (hj : w.jobs[i]? = some j)
    (hallowed : Allowed out j (w.trace i) o) (hexec : exec out o ch w.db = some (a, s))
    (hown : readsOwnEpoch w (.call i o a) = true) {t' : Token}
    (hk : w.jobs[k]? = some (.refresh t')) (hissued : Issued (w.record i o a s) k t) :
    t.claims.sub = t'.claims.sub ∧ t.claims.epoch = t'.claims.epoch := by
  obtain ⟨v, epoch, sid, s1, s2, hm⟩ := hissued
  rcases World.mem_trace_record hm with hm | ⟨rfl, hnew⟩
  · exact h.own k t t' hk ⟨v, epoch, sid, s1, s2, hm⟩
  · cases hnew
    obtain rfl : j = .refresh t' := Option.some.inj (hj.symm.trans hk)
    obtain ⟨rfl, rfl⟩ := own_of_mayIssue hk hallowed hown
    rw [(exec_issueToken hexec).1]
    exact ⟨rfl, rfl⟩

theorem Rotated.descends_issued (h : Rotated u w) (hchain : w.Chained (system out) Grows)
    (hj : w.jobs[i]? = some j) {sid : Option Uuid} (hmay : MayIssue j u epoch (w.trace i))
    (hown : readsOwnEpoch w (.call i (.issueToken u epoch sid) t) = true) (hx : x ∈ w.trace k)
    (hch : Changes u x) {row : User} (hrow : row ∈ x.pre.db.users) (hid : row.id = u)
    (hlt : row.sessionEpoch < epoch) : Descends (w.record i (.issueToken u epoch sid) t s) t := by
  have hissued : Issued (w.record i (.issueToken u epoch sid) t s) i t :=
    ⟨u, epoch, sid, w.db, s, by rw [World.trace_record_self]; exact mem_cons_self⟩
  cases j with
  | changePassword => exact .change hj hissued
  | refresh t' =>
    -- the token it presented is above that epoch as well
    obtain ⟨rfl, hepoch⟩ := own_of_mayIssue hj hmay hown
    obtain ⟨-, ⟨claims, s1, s2, hv⟩, -⟩ := hmay
    obtain ⟨ch, hexec⟩ := hchain.exec_of_mem hv
    obtain ⟨hverify, rfl⟩ := exec_verifyToken hexec
    obtain ⟨-, htrust, -⟩ := verifyToken_eq_some.mp hverify
    have hin : t' ∈ w.db.issued := (hchain.below_of_mem hv).issued htrust.issued
    have hdesc : Descends w t' := h.descends k x hx hch row hrow hid t' hin rfl (by omega)
    exact .refresh hj hdesc.record hissued
  | login | revokeOtherSessions => cases h.jobs _ (mem_of_getElem? hj)
  | _ => exact hmay.2.elim

theorem Rotated.record (h : Rotated u w) (hcons : Consistent w.db)
    (hchain : w.Chained (system out) Grows) (hj : w.jobs[i]? = some j)
    (hallowed : Allowed out j (w.trace i) o) (hexec : exec out o ch w.db = some (a, s))
    (hown : readsOwnEpoch w (.call i o a) = true) : Rotated u (w.record i o a s) where
  jobs := h.jobs
  own := fun k t t' hk hissued => h.own_record hj hallowed hexec hown hk hissued
  descends := by
    intro k x hx hch row hrow hid t ht hsub hlt
    by_cases hold : t ∈ w.db.issued
    · rcases World.mem_trace_record hx with hx' | ⟨rfl, rfl⟩
      · exact (h.descends k x hx' hch row hrow hid t hold hsub hlt).record
      · -- the change itself: no token is above the epoch it found
        have hle := hcons.epochs t hold row hrow (hid.trans hsub.symm)
        omega
    · -- a token that is issued now
      rcases exec_cases hexec with rfl | ⟨q, rfl, rfl⟩
        | ⟨v, epoch, sid, token, rfl, hsub', hepoch, hs⟩
      · exact absurd ht hold
      · exact absurd ht hold
      · rw [hs] at ht
        rcases mem_cons.mp ht with rfl | ht
        · rw [(exec_issueToken hexec).2] at hs
          obtain rfl : a = t := (cons.inj (congrArg State.issued hs)).1
          obtain rfl : v = u := hsub'.symm.trans hsub
          rcases World.mem_trace_record hx with hx' | ⟨-, rfl⟩
          · exact h.descends_issued hchain hj hallowed hown hx' hch hrow hid (hepoch ▸ hlt)
          · obtain ⟨_, _, _, hop, -⟩ := hch
            cases hop
        · exact absurd ht hold

theorem rotated_reach (h : Reach (system out) (fun w l => inTime w l = true) Consistent c) :
    Rotated u c.world := by
  -- every state is consistent, and a job that is started has made no call
  have hstrong := Reach.strengthen (K := fun w => Consistent w.db ∧ w.trace w.jobs.length = [])
    (fun c hc => ⟨consistent_reach hc, reach_trace_nil hc (Nat.le_refl _)⟩) h
  refine (discipline out).invariant ?_ ?_ ?_ ?_ hstrong
  · intro s _
    exact ⟨fun j hj => (nomatch hj), fun i t t' hi => (nomatch hi), fun i x hx => (nomatch hx)⟩
  · rintro w j hw - ⟨hl, -, hfresh⟩
    exact hw.addJob (Bool.and_eq_true_iff.mp hl).1 hfresh
  · rintro w i j o ch a s hw hchain hj hallowed hexec ⟨hl, hcons, -⟩
    exact hw.record hcons hchain hj hallowed hexec (Bool.and_eq_true_iff.mp hl).2
  · intro w e s hw henv _
    cases e with
    | tick =>
      rw [← Option.some.inj henv]
      refine ⟨hw.jobs, hw.own, ?_⟩
      intro i x hx hch row hrow hid t ht hsub hlt
      apply Descends.mono _ _ (hw.descends i x hx hch row hrow hid t ht hsub hlt)
      · exact prefix_refl _
      · exact fun _ _ hy => hy

/-- **After a password change, what is accepted comes from the change**, as long as every refresh
that issues a token has read its user at the epoch of its own; and nothing is accepted that was
refreshed from a token issued before. -/
theorem change_revokes_rest {c : Conf}
    (h : Reach (system out) (fun w l => inTime w l = true) Consistent c) {i : Nat} {x : Act}
    (hx : x ∈ c.world.trace i) (hchange : Changes u x) {s1 : State} (hs1 : Grows s1 c.world.db)
    {t : Token} (hsub : t.claims.sub = u) (haccept : Accepts out s1 c.world.db t) :
    Descends c.world t ∧ ∀ k t', c.world.jobs[k]? = some (.refresh t') → t' ∈ x.pre.issued →
      ¬ Issued c.world k t := by
  have hrot : Rotated u c.world := rotated_reach h
  have hchain := (discipline out).chained h
  obtain ⟨htrust, -, hvalid⟩ := accepts_iff.mp haccept
  obtain ⟨row, hrow, hid, hepoch, -⟩ := atEpoch_iff.mp (isSessionValid_iff.mp hvalid).1
  -- the change has bumped the epoch, and it has not gone back since
  obtain ⟨row1, hrow1, hid1, hle⟩ := (hchain.below_of_mem hx).db.users row hrow
  obtain ⟨row0, hrow0, hid0, hbump⟩ := hchange.epoch hrow1 (hid1.trans (hid.trans hsub))
  refine ⟨?_, ?_⟩
  · apply hrot.descends i x hx hchange row0 hrow0 hid0 t (hs1.issued htrust.issued) hsub
    omega
  · intro k t' hk hold hissued
    obtain ⟨hsub', hepoch'⟩ := hrot.own k t t' hk hissued
    have hcons : Consistent x.pre :=
      (reach_hist (fun _ => consistent_reach) h _ (World.mem_trace.mp hx)).1
    have hle' := hcons.epochs t' hold row0 hrow0 (hid0.trans (hsub.symm.trans hsub'))
    omega

/-! ### Schedules -/

def refreshMoves (i : Nat) : List (Move Job Choice Env) :=
  [served i, served i, computed i, served i, computed i]

def issued? : Act → Option Token
  | ⟨.issueToken .., t, _, _⟩ => some t
  | _ => none

theorem issued_of_mem (hx : x ∈ w.trace i) (h : issued? x = some t) : Issued w i t := by
  unfold issued? at h
  split at h
  · cases h
    exact ⟨_, _, _, _, _, hx⟩
  · cases h

def lastIssued (w : World) (i : Nat) : Option Token := (w.trace i).findSome? issued?

theorem issued_of_lastIssued (h : lastIssued w i = some t) : Issued w i t := by
  obtain ⟨x, hx, hi⟩ := exists_of_findSome?_eq_some h
  exact issued_of_mem hx hi

def changeThenRefresh : List (Move Job Choice Env) :=
  .start (.changePassword exampleToken exampleRequest) :: changeMoves 0 ++
    [.start (.refresh (exampleOut.jwt.issueToken 0 1 1 1 (some 10))), computed 1, served 1] ++
      refreshMoves 1

theorem changed_then_refreshed :
    ∃ c t, Reach (system exampleOut) (fun w l => inTime w l = true) Consistent c ∧
    Accepts exampleOut c.world.db c.world.db t ∧ Descends c.world t := by
  obtain ⟨c, hc, ⟨x, hx, hisx⟩, t, -, hsub, haccept⟩ := exists_reach_of_runMovesIf
    (S := system exampleOut) inTime (exampleState_consistent "v2:old-password") changeThenRefresh
    (p := fun c => (∃ x ∈ c.world.trace 0, isChange 1 x) ∧ ∃ t ∈ lastIssued c.world 1,
      t.claims.sub = 1 ∧ Accepts exampleOut c.world.db c.world.db t) (by decide +kernel)
  have hchange := changes_of_isChange
    (((discipline exampleOut).chained hc).executed _ (World.mem_trace.mp hx)) hisx
  exact ⟨c, t, hc, haccept, (change_revokes_rest hc hx hchange (.refl _) hsub haccept).1⟩

/-- A refresh is authenticated, the password is changed, and the refresh goes on. -/
def changeInsideRefresh : List (Move Job Choice Env) :=
  [.start (.refresh exampleToken), computed 0, served 0,
    .start (.changePassword exampleToken exampleRequest)] ++ changeMoves 1 ++ refreshMoves 0

theorem refresh_survives_change : ∃ c : Conf, Reachable (system exampleOut) Consistent c ∧
    c.world.jobs = [.refresh exampleToken, .changePassword exampleToken exampleRequest] ∧
    (∀ p ∈ c.threads, hasReturned p = true) ∧
    ∃ x t, x ∈ c.world.trace 1 ∧ Changes 1 x ∧ exampleToken ∈ x.pre.issued ∧ Issued c.world 0 t ∧
      t.claims.sub = 1 ∧ Accepts exampleOut c.world.db c.world.db t := by
  obtain ⟨c, hc, hjobs, hret, ⟨x, hx, hisx, hold⟩, t, ht, haccept⟩ := exists_reachable_of_runMoves
    (S := system exampleOut) (exampleState_consistent "v2:old-password") changeInsideRefresh
      (p := fun c =>
      c.world.jobs = [.refresh exampleToken, .changePassword exampleToken exampleRequest] ∧
      (∀ p ∈ c.threads, hasReturned p = true) ∧
      (∃ x ∈ c.world.trace 1, isChange 1 x ∧ exampleToken ∈ x.pre.issued) ∧
      ∃ t ∈ lastIssued c.world 0, t.claims.sub = 1 ∧ Accepts exampleOut c.world.db c.world.db t)
    (by decide +kernel)
  have hexec := ((discipline exampleOut).chained hc).executed _ (World.mem_trace.mp hx)
  exact ⟨c, hc, hjobs, hret, x, t, hx, changes_of_isChange hexec hisx, hold,
    issued_of_lastIssued ht, haccept⟩

end Octo.Auth
