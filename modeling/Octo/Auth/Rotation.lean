import Octo.Auth.PasswordChange
import Octo.Auth.Revocation

/-!
# Refresh and the tokens of a session

`refresh` authenticates the token, deny-lists it and then issues its successor, in separate calls;
and the insert into the deny-list does nothing if the token is there already.  So two requests with
one token may both get through, and the session has two tokens (`two_tokens_live`).

If a refresh never finds its token deny-listed, then the right to the session is in one place at a
time: it is a token that was not exchanged, or it is with a request that has deny-listed its token
and not yet issued another.
-/

namespace Octo.Auth

open Conc Octo.Api World List

/-! ### What a refresh does -/

def Exchanges (t : Token) (x : Act) : Prop :=
  ∃ u e s s', x = ⟨.store (.denylistToken t u e), .ok (), s, s'⟩

def NoIssue (tr : List Act) : Prop := ∀ x ∈ tr, issued? x = none

def Opens (tr : List Act) (sid : Option Uuid) : Prop :=
  ∃ id u e s s', sid = some id ∧ ⟨.store (.createSession u e), .ok id, s, s'⟩ ∈ tr

/-- A refresh deny-lists the token that was verified, and issues one token, for the session of the
one it has deny-listed or for a session of its own. -/
def AllowedRefresh : Job → List Act → Op → Prop
  | .refresh t, tr, .store (.denylistToken t' _ _) => t' = t ∧ Verified t tr
  | .refresh t, tr, .issueToken _ _ sid =>
    (∃ x ∈ tr, Exchanges t x) ∧ NoIssue tr ∧ (sid = t.claims.sid ∨ Opens tr sid)
  | _, _, _ => True

theorem NoIssue.cons {tr : List Act} (h : NoIssue tr) {x : Act} (hx : issued? x = none) :
    NoIssue (x :: tr) := by
  exact forall_mem_cons.mpr ⟨hx, h⟩

variable {epoch : Int} {u : Uuid}

section

variable {out : Outside} {t : Token} {tr : List Act}

abbrev DoesRefresh {α : Type} (out : Outside) (t : Token) (p : AuthM α) (P : α → List Act → Prop)
    (tr : List Act) : Prop :=
  Conc.Does (system out) Grows (AllowedRefresh (.refresh t)) p P tr

theorem doesRefresh_query {o : StoreOp} (hL : AllowedRefresh (.refresh t) tr (.store o)) :
    DoesRefresh out t (query o) (fun v tr' => ∃ s s', tr' = ⟨.store o, .ok v, s, s'⟩ :: tr) tr := by
  refine does_tryCall hL ?_
  intro s ch a s' v _ _ hv
  cases a with
  | error => cases hv
  | ok =>
    cases hv
    exact ⟨s, s', rfl⟩

theorem doesRefresh_now :
    DoesRefresh out t (ask .utcNow) (fun _ tr' => ∃ x, issued? x = none ∧ tr' = x :: tr) tr := by
  refine does_tryCall trivial ?_
  intro s ch a s' v _ _ _
  exact ⟨_, rfl, rfl⟩

theorem doesRefresh_authenticate : DoesRefresh out t (authenticateSession t)
    (fun session tr' => session = t.session ∧ Verified t tr' ∧ NoIssue tr') [] := by
  have hverify : DoesRefresh out t (verifyToken t)
      (fun claims tr' => claims = t.claims ∧ Verified t tr' ∧ NoIssue tr') [] := by
    refine does_tryCall trivial ?_
    intro s ch a s' v _ he hv
    cases a with
    | none => cases hv
    | some =>
      cases hv
      refine ⟨(verifyToken_eq_some.mp (exec_verifyToken he).1).1, ⟨v, s, s', mem_cons_self⟩, ?_⟩
      exact NoIssue.cons (forall_mem_nil _) rfl
  refine hverify.bind ?_
  rintro _ tr1 ⟨rfl, hv, hno⟩
  refine Does.bind (doesRefresh_query trivial) ?_
  rintro valid _ ⟨s, s', rfl⟩
  cases valid with
  | false => exact does_throw
  | true => exact does_pure ⟨rfl, hv.cons _, hno.cons rfl⟩

theorem doesRefresh_issue {sid : Option Uuid} (hex : ∃ x ∈ tr, Exchanges t x) (hno : NoIssue tr)
    (hsid : sid = t.claims.sid ∨ Opens tr sid) :
    DoesRefresh out t (ask (.issueToken u epoch sid)) (fun _ _ => True) tr :=
  does_tryCall ⟨hex, hno, hsid⟩ (fun _ _ _ _ _ _ _ _ => trivial)

theorem doesRefresh_continue (hex : ∃ x ∈ tr, Exchanges t x) (hno : NoIssue tr) :
    DoesRefresh out t (continueSession t.session epoch) (fun _ _ => True) tr := by
  obtain ⟨x, hx, hexchanges⟩ := hex
  rw [continueSession]
  cases hsid : t.session.sessionId with
  | none =>
    rw [startSession]
    refine Does.bind doesRefresh_now ?_
    rintro now _ ⟨y, hy, rfl⟩
    refine Does.bind (doesRefresh_query trivial) ?_
    rintro id _ ⟨s, s', rfl⟩
    refine doesRefresh_issue ⟨x, ?_, hexchanges⟩ ((hno.cons hy).cons rfl) (.inr ?_)
    · exact mem_cons_of_mem _ (mem_cons_of_mem _ hx)
    · exact ⟨id, _, _, s, s', rfl, mem_cons_self⟩
  | some =>
    refine Does.bind doesRefresh_now ?_
    rintro now _ ⟨y, hy, rfl⟩
    refine Does.bind (doesRefresh_query trivial) ?_
    rintro extended _ ⟨s, s', rfl⟩
    cases extended with
    | false => exact does_throw
    | true =>
      refine doesRefresh_issue ⟨x, ?_, hexchanges⟩ ((hno.cons hy).cons rfl) (.inl hsid.symm)
      exact mem_cons_of_mem _ (mem_cons_of_mem _ hx)

theorem doesRefresh_refresh : DoesRefresh out t (refresh t) (fun _ _ => True) [] := by
  refine doesRefresh_authenticate.bind ?_
  rintro _ tr1 ⟨rfl, hv, hno⟩
  refine Does.bind (doesRefresh_query trivial) ?_
  rintro row _ ⟨s, s', rfl⟩
  have hfound : DoesRefresh out t (found row .notFound)
      (fun _ tr' => tr' = ⟨.store (.getUser t.session.userId), .ok row, s, s'⟩ :: tr1)
      (⟨.store (.getUser t.session.userId), .ok row, s, s'⟩ :: tr1) := fun _ _ => rfl
  refine hfound.bind ?_
  rintro _ _ rfl
  refine Does.bind (doesRefresh_query ⟨rfl, hv.cons _⟩) ?_
  rintro ⟨⟩ _ ⟨s1, s1', rfl⟩
  refine Does.bind (doesRefresh_continue ⟨_, mem_cons_self, _, _, _, _, rfl⟩
    ((hno.cons rfl).cons rfl)) ?_
  exact fun _ _ _ => does_pure trivial

end

theorem rotation (out : Outside) :
    Discipline (system out) Grows (fun j tr o => Allowed out j tr o ∧ AllowedRefresh j tr o) := by
  refine (discipline out).and ⟨Grows.refl, Grows.trans, exec_grows, env_grows, fun j => ?_⟩
  cases j with
  | refresh => exact calls_bind (Calls.imp doesRefresh_refresh (fun _ _ _ => trivial))
  | _ => exact calls_of_always (fun _ _ => trivial) _ _

/-! ### Where the right to the session is -/

/-- Nobody logs in, changes a password or signs the other devices out: these requests issue tokens
of their own. -/
def Job.issuesByRefresh : Job → Bool
  | .login _ => false
  | .changePassword .. => false
  | .revokeOtherSessions _ => false
  | _ => true

/-- Where a refresh deny-lists its token, the token has no row and the second of its `exp` claim has
not begun. -/
def exchangesOnce (w : World) : Label Job Op Ans → Bool
  | .start j => j.issuesByRefresh
  | .call i (.store (.denylistToken t _ _)) _ =>
    match w.jobs[i]? with
    | some (.refresh _) => w.db.db.denylist.all (fun d => d.token != t) &&
        decide (w.db.db.now < timestamp t.claims.exp)
    | _ => true
  | _ => true

def Exchanged (w : World) (t : Token) : Prop :=
  ∃ i, w.jobs[i]? = some (.refresh t) ∧ ∃ x ∈ w.trace i, Exchanges t x

structure Live (sid : Uuid) (w : World) (t : Token) : Prop where
  issued : t ∈ w.db.issued
  session : t.claims.sid = some sid
  kept : ¬ Exchanged w t

structure Pending (sid : Uuid) (w : World) (i : Nat) : Prop where
  exchanged : ∃ t, w.jobs[i]? = some (.refresh t) ∧ t.claims.sid = some sid ∧
    ∃ x ∈ w.trace i, Exchanges t x
  noIssue : NoIssue (w.trace i)

structure Rotates (sid : Uuid) (w : World) : Prop where
  jobs : ∀ j ∈ w.jobs, j.issuesByRefresh = true
  /-- The session is older than the run. -/
  older : sid < w.db.db.nextId ∧ ∀ e ∈ w.hist, sid < e.act.pre.db.nextId
  live : ∀ t t', Live sid w t → Live sid w t' → t = t'
  pending : ∀ i i', Pending sid w i → Pending sid w i' → i = i'
  apart : ∀ t i, Live sid w t → ¬ Pending sid w i

variable {out : Outside} {w w' : World} {sid : Uuid} {j : Job}

theorem Rotates.of_le (h : Rotates sid w) (hjobs : ∀ j ∈ w'.jobs, j.issuesByRefresh = true)
    (holder : sid < w'.db.db.nextId ∧ ∀ e ∈ w'.hist, sid < e.act.pre.db.nextId)
    (hlive : ∀ t, Live sid w' t → Live sid w t)
    (hpending : ∀ i, Pending sid w' i → Pending sid w i) : Rotates sid w' where
  jobs := hjobs
  older := holder
  live := fun t t' ht ht' => h.live t t' (hlive t ht) (hlive t' ht')
  pending := fun i i' hi hi' => h.pending i i' (hpending i hi) (hpending i' hi')
  apart := fun t i ht hi => h.apart t i (hlive t ht) (hpending i hi)

theorem nextId_of_createSession {db : AuthDb} {e : Time} {id : Uuid}
    (h : (statement (.createSession u e) db).1 = .ok id) : db.nextId = id := by
  change (db.createSession u e).1 = .ok id at h
  unfold AuthDb.createSession at h
  split at h
  · exact Except.ok.inj h
  · cases h

theorem Rotates.addJob (h : Rotates sid w) (hj : j.issuesByRefresh = true)
    (hfresh : w.trace w.jobs.length = []) : Rotates sid (w.addJob j) := by
  refine h.of_le (Rows.forall_mem_concat h.jobs hj) h.older ?_ ?_
  · rintro t ⟨hissued, hsession, hkept⟩
    refine ⟨hissued, hsession, fun hex => hkept ?_⟩
    obtain ⟨i, hi, hx⟩ := hex
    refine ⟨i, ?_, hx⟩
    rw [addJob_jobs, getElem?_append_left (List.getElem?_eq_some_iff.mp hi).1]
    exact hi
  · rintro i ⟨⟨t, hi, hsession, x, hx, hexchanges⟩, hno⟩
    rw [trace_addJob] at hx
    rw [addJob_jobs] at hi
    by_cases hlt : i < w.jobs.length
    · rw [getElem?_append_left hlt] at hi
      exact ⟨⟨t, hi, hsession, x, hx, hexchanges⟩, hno⟩
    · -- the new job has made no call
      have hlen := (List.getElem?_eq_some_iff.mp hi).1
      rw [length_append, length_singleton] at hlen
      rw [show i = w.jobs.length by omega, hfresh] at hx
      exact absurd hx not_mem_nil

section

variable {i : Nat} {o : Op} {a : Ans o} {s : State} {t : Token}

theorem Exchanged.record (h : Exchanged w t) : Exchanged (w.record i o a s) t := by
  obtain ⟨k, hk, x, hx, hexchanges⟩ := h
  exact ⟨k, hk, x, trace_subset_record hx, hexchanges⟩

theorem Rotates.older_record (h : Rotates sid w) (hs : sid < s.db.nextId) :
    sid < (w.record i o a s).db.db.nextId ∧ ∀ e ∈ (w.record i o a s).hist,
    sid < e.act.pre.db.nextId := by
  exact ⟨hs, forall_mem_cons.mpr ⟨h.older.1, h.older.2⟩⟩

theorem Live.of_record (h : Live sid (w.record i o a s) t) (hissued : s.issued = w.db.issued) :
    Live sid w t where
  issued := hissued ▸ h.issued
  session := h.session
  kept := fun hex => h.kept hex.record

theorem Pending.of_record {k : Nat} (h : Pending sid (w.record i o a s) k)
    (hnew : i = k → ∀ t, w.jobs[i]? = some (.refresh t) → t.claims.sid = some sid →
      ¬ Exchanges t ⟨o, a, w.db, s⟩) : Pending sid w k := by
  obtain ⟨⟨t, hk, hsession, x, hx, hexchanges⟩, hno⟩ := h
  refine ⟨⟨t, hk, hsession, x, ?_, hexchanges⟩, fun y hy => hno y (trace_subset_record hy)⟩
  rcases mem_trace_record hx with hx | ⟨hik, rfl⟩
  · exact hx
  · exact absurd hexchanges (hnew hik t (hik ▸ hk) hsession)

/-- **A token is exchanged once**: it has a row from then on, until its `exp` claim. -/
theorem row_of_exchanged (hhist : ∀ e ∈ w.hist, Consistent e.act.post)
    (hchain : w.Chained (system out) Grows) (h : Exchanged w t) :
    (∃ d ∈ w.db.db.denylist, d.token = t ∧ d.expiresAt = timestamp t.claims.exp) ∨
      timestamp t.claims.exp < w.db.db.now := by
  obtain ⟨k, -, _, hx, u, e, s1, s2, rfl⟩ := h
  obtain ⟨ch, hexec⟩ := hchain.exec_of_mem hx
  obtain ⟨d, hd, rfl⟩ : ∃ d ∈ s2.db.denylist, d.token = t := denyRow_of_denylistToken hexec
  have hexp := (hhist _ (mem_trace.mp hx)).denylist d hd
  rcases (hchain.below_of_mem hx).db.denylist d hd with hd' | hpast
  · exact .inl ⟨d, hd', rfl, hexp⟩
  · exact .inr (hexp ▸ hpast)

theorem Rotates.exchange (h : Rotates sid w) (hhist : ∀ e ∈ w.hist, Consistent e.act.post)
    (hchain : w.Chained (system out) Grows) (hi : w.jobs[i]? = some (.refresh t))
    (hsession : t.claims.sid = some sid) (hverified : Verified t (w.trace i))
    (hrow : ∀ d ∈ w.db.db.denylist, d.token ≠ t) (hbefore : w.db.db.now < timestamp t.claims.exp)
    (hexchanges : Exchanges t ⟨o, a, w.db, s⟩) (hissued : s.issued = w.db.issued)
    (holder : sid < s.db.nextId) : Rotates sid (w.record i o a s) := by
  have hkept : ¬ Exchanged w t := by
    intro hex
    rcases row_of_exchanged hhist hchain hex with ⟨d, hd, hd', -⟩ | hpast
    · exact hrow d hd hd'
    · exact absurd hbefore (Nat.lt_asymm hpast)
  have hlive : Live sid w t := by
    obtain ⟨_, s1, s2, hv⟩ := hverified
    obtain ⟨ch, hexec⟩ := hchain.exec_of_mem hv
    obtain ⟨hverify, rfl⟩ := exec_verifyToken hexec
    obtain ⟨-, htrust, -⟩ := verifyToken_eq_some.mp hverify
    exact ⟨(hchain.below_of_mem hv).issued htrust.issued, hsession, hkept⟩
  have hself : Exchanged (w.record i o a s) t :=
    ⟨i, hi, _, by rw [trace_record_self]; exact mem_cons_self, hexchanges⟩
  -- no token is left that was not exchanged, and no other thread has the right
  have hnone : ∀ t', ¬ Live sid (w.record i o a s) t' := by
    intro t' ht'
    obtain rfl := h.live t' t (ht'.of_record hissued) hlive
    exact ht'.kept hself
  have honly : ∀ k, Pending sid (w.record i o a s) k → k = i := by
    intro k hk
    by_contra hne
    exact h.apart t k hlive (hk.of_record (fun heq => absurd heq.symm hne))
  refine ⟨h.jobs, h.older_record holder, fun t' t'' ht' => absurd ht' (hnone t'),
    fun k k' hk hk' => ?_, fun t' k ht' => absurd ht' (hnone t')⟩
  rw [honly k hk, honly k' hk']

theorem Rotates.issue (h : Rotates sid w) {sid' : Option Uuid} {new : Token}
    (hi : w.jobs[i]? = some (.refresh t)) (hchain : w.Chained (system out) Grows)
    (hallowed : AllowedRefresh (.refresh t) (w.trace i) (.issueToken u epoch sid'))
    (hsid : new.claims.sid = sid') (hs : s.issued = new :: w.db.issued)
    (holder : sid < s.db.nextId) : Rotates sid (w.record i (.issueToken u epoch sid') new s) := by
  obtain ⟨hex, hno, hfor⟩ := hallowed
  -- the thread has issued now
  have hpending : ∀ k, Pending sid (w.record i (.issueToken u epoch sid') new s) k →
      Pending sid w k ∧ k ≠ i := by
    intro k hk
    refine ⟨hk.of_record ?_, ?_⟩
    · rintro - t' - - ⟨_, _, _, _, hact⟩
      cases hact
    · rintro rfl
      have hlast := hk.noIssue _ (by rw [trace_record_self]; exact mem_cons_self)
      cases hlast
  have hlive : ∀ t', Live sid (w.record i (.issueToken u epoch sid') new s) t' → t' = new ∨
      Live sid w t' := by
    rintro t' ⟨hissued, hsession, hkept⟩
    rw [record_db, hs] at hissued
    rcases mem_cons.mp hissued with rfl | hissued
    · exact .inl rfl
    · exact .inr ⟨hissued, hsession, fun hex => hkept hex.record⟩
  by_cases hours : sid' = some sid
  · have hmine : Pending sid w i := by
      rcases hfor with hsame | ⟨id, v, e, s1, s2, hid, hopen⟩
      · exact ⟨⟨t, hi, hsame ▸ hours, hex⟩, hno⟩
      · -- a session that is opened now is another one
        obtain ⟨ch, hexec⟩ := hchain.exec_of_mem hopen
        have hold := h.older.2 _ (mem_trace.mp hopen)
        have hnext := nextId_of_createSession (exec_store_ok hexec).1
        rw [hours] at hid
        cases hid
        exact absurd hold (by rw [hnext]; exact Nat.lt_irrefl _)
    refine ⟨h.jobs, h.older_record holder, fun t' t'' ht' ht'' => ?_, fun k k' hk _ => ?_,
      fun t' k _ hk => ?_⟩
    · rcases hlive t' ht' with rfl | hold
      · rcases hlive t'' ht'' with rfl | hold'
        · rfl
        · exact absurd hmine (h.apart t'' i hold')
      · exact absurd hmine (h.apart t' i hold)
    · exact absurd (h.pending k i (hpending k hk).1 hmine) (hpending k hk).2
    · exact absurd (h.pending k i (hpending k hk).1 hmine) (hpending k hk).2
  · refine h.of_le h.jobs (h.older_record holder) (fun t' ht' => ?_) (fun k hk => (hpending k hk).1)
    rcases hlive t' ht' with rfl | hold
    · exact absurd (hsid.symm.trans ht'.session) hours
    · exact hold

theorem Rotates.record (h : Rotates sid w) (hhist : ∀ e ∈ w.hist, Consistent e.act.post)
    (hchain : w.Chained (system out) Grows) (hj : w.jobs[i]? = some j)
    (hallowed : Allowed out j (w.trace i) o ∧ AllowedRefresh j (w.trace i) o) {ch : Choice}
    (hexec : exec out o ch w.db = some (a, s)) (hcond : exchangesOnce w (.call i o a) = true) :
    Rotates sid (w.record i o a s) := by
  have holder : sid < s.db.nextId := Nat.lt_of_lt_of_le h.older.1 (exec_grows hexec).db.nextId
  by_cases hissue : ∃ u epoch sid', o = .issueToken u epoch sid'
  · obtain ⟨u, _, _, rfl⟩ := hissue
    obtain ⟨ha, hs⟩ := exec_issueToken hexec
    have hmay := hallowed.1.2
    cases j with
    | refresh => exact h.issue hj hchain hallowed.2 (by rw [ha]; rfl) (by rw [hs]) holder
    | login | changePassword | revokeOtherSessions =>
      cases h.jobs _ (mem_of_getElem? hj)
    | _ => exact hmay.elim
  have hissued : s.issued = w.db.issued := by
    rcases exec_cases hexec with rfl | ⟨q, -, rfl⟩ | ⟨u, epoch, sid', -, ho, -⟩
    · rfl
    · rfl
    · exact absurd ⟨u, epoch, sid', ho⟩ hissue
  by_cases hex : ∃ t, w.jobs[i]? = some (.refresh t) ∧ t.claims.sid = some sid ∧
    Exchanges t ⟨o, a, w.db, s⟩
  · obtain ⟨t, hi, hsession, u, e, s1, s2, hact⟩ := hex
    cases hact
    obtain rfl := Option.some.inj (hj.symm.trans hi)
    simp only [exchangesOnce, hi, Bool.and_eq_true, all_eq_true, bne_iff_ne,
      decide_eq_true_eq] at hcond
    exact h.exchange hhist hchain hi hsession hallowed.2.2 hcond.1 hcond.2 ⟨u, e, _, _, rfl⟩
      hissued holder
  · refine h.of_le h.jobs (h.older_record holder) (fun t ht => ht.of_record hissued)
      (fun k hk => hk.of_record ?_)
    exact fun _ t hi hsession hexchanges => hex ⟨t, hi, hsession, hexchanges⟩

end

/-! ### Runs -/

/-- A session that exists, with one token at most: as a login leaves it. -/
structure Opened (sid : Uuid) (s : State) : Prop where
  consistent : Consistent s
  older : sid < s.db.nextId
  one : ∀ t ∈ s.issued, ∀ t' ∈ s.issued, t.claims.sid = some sid → t'.claims.sid = some sid → t = t'

section

variable {c : Conf} {cond : World → Label Job Op Ans → Prop}

theorem consistent_hist (h : Reach (system out) cond (Opened sid) c) :
    ∀ e ∈ c.world.hist, Consistent e.act.post := fun e he =>
  (reach_hist (fun _ hc => consistent_reach (hc.imp_init (fun _ hs => hs.consistent))) h e he).2

/-- **In every state of a run the right to the session is in one place.** -/
theorem rotates_reach
    (h : Reach (system out) (fun w l => exchangesOnce w l = true) (Opened sid) c) :
    Rotates sid c.world := by
  have hstrong := Reach.strengthen (K := fun w => (∀ e ∈ w.hist, Consistent e.act.post) ∧
    w.trace w.jobs.length = [])
    (fun c hc => ⟨consistent_hist hc, reach_trace_nil hc (Nat.le_refl _)⟩) h
  refine (rotation out).invariant ?_ ?_ ?_ ?_ hstrong
  · intro s hs
    have hnone : ∀ i, ¬ Pending sid ⟨s, [], []⟩ i := by
      rintro i ⟨⟨t, hi, -⟩, -⟩
      cases hi
    refine ⟨forall_mem_nil _, ⟨hs.older, forall_mem_nil _⟩, ?_,
      fun i _ hi => absurd hi (hnone i), fun _ i _ => hnone i⟩
    exact fun t t' ht ht' => hs.one t ht.issued t' ht'.issued ht.session ht'.session
  · rintro w j hw - ⟨hl, -, hfresh⟩
    exact hw.addJob hl hfresh
  · rintro w i j o ch a s hw hchain hj hallowed hexec ⟨hl, hhist, -⟩
    exact hw.record hhist hchain hj hallowed hexec hl
  · intro w e s hw henv _
    cases e with
    | tick =>
      rw [← Option.some.inj henv]
      exact hw.of_le hw.jobs hw.older (fun t ht => ⟨ht.issued, ht.session, ht.kept⟩)
        (fun i hi => ⟨hi.exchanged, hi.noIssue⟩)

theorem rejected_of_exchanged
    (h : Reach (system out) (fun w l => exchangesOnce w l = true) (Opened sid) c) {s1 : State}
    {t : Token} (ht : Exchanged c.world t) (hsecond : ¬ InExpSecond s1 c.world.db t) :
    ¬ Accepts out s1 c.world.db t := by
  intro haccept
  obtain ⟨-, hexp, hvalid⟩ := accepts_iff.mp haccept
  have hnot := (isSessionValid_iff.mp hvalid).2.1
  rcases row_of_exchanged (consistent_hist h) ((rotation out).chained h) ht with ⟨d, hd, rfl, hd'⟩
    | hpast
  · refine hsecond ⟨hexp, Nat.not_lt.mp fun hlt => ?_⟩
    have hden : c.world.db.db.isTokenDenylisted d.token = true :=
      any_eq_true.mpr ⟨d, hd, by simp [hd', hlt]⟩
    rw [hnot] at hden
    cases hden
  · exact hsecond ⟨hexp, Nat.le_of_lt hpast⟩

theorem exchanged_of_issued {init : State → Prop} (h : Reach (system out) cond init c) {i : Nat}
    {t new : Token} (hi : c.world.jobs[i]? = some (.refresh t)) (hissued : Issued c.world i new) :
    Exchanged c.world t := by
  obtain ⟨u, _, _, s, s', hm⟩ := hissued
  obtain ⟨_, hsub, -, ⟨x, hx, hexchanges⟩, -⟩ := (rotation out).allowed_before h hi hm
  exact ⟨i, hi, x, hsub hx, hexchanges⟩

/-- **Refresh rotates**, if no refresh finds its token deny-listed when it deny-lists it.  In every
state of such a run, for an authentication that does not fall into the second of the `exp` claim of
a token that was exchanged: at most one token of the session is accepted, and none that was
presented in a refresh that succeeded. -/
theorem refresh_rotates
    (h : Reach (system out) (fun w l => exchangesOnce w l = true) (Opened sid) c) {s1 : State}
    (hs1 : Grows s1 c.world.db)
    (hsecond : ∀ t, t.claims.sid = some sid → Exchanged c.world t → ¬ InExpSecond s1 c.world.db t) :
    (∀ t t', t.claims.sid = some sid → t'.claims.sid = some sid → Accepts out s1 c.world.db t →
      Accepts out s1 c.world.db t' → t = t') ∧
    ∀ i t new, c.world.jobs[i]? = some (.refresh t) → t.claims.sid = some sid →
      Issued c.world i new → ¬ Accepts out s1 c.world.db t := by
  have hlive : ∀ t, t.claims.sid = some sid → Accepts out s1 c.world.db t → Live sid c.world t := by
    intro t hsession haccept
    obtain ⟨htrust, -⟩ := accepts_iff.mp haccept
    refine ⟨hs1.issued htrust.issued, hsession, fun hex => ?_⟩
    exact rejected_of_exchanged h hex (hsecond t hsession hex) haccept
  constructor
  · intro t t' hsession hsession' haccept haccept'
    exact (rotates_reach h).live t t' (hlive t hsession haccept) (hlive t' hsession' haccept')
  · intro i t new hi hsession hissued
    have hex := exchanged_of_issued h hi hissued
    exact rejected_of_exchanged h hex (hsecond t hsession hex)

end

/-! ### Schedules -/

theorem exampleState_opened (phc : String) : Opened 10 (exampleState phc) where
  consistent := exampleState_consistent phc
  older := by
    show 10 < 11
    decide
  one := by
    intro t ht t' ht' _ _
    rw [mem_singleton.mp ht, mem_singleton.mp ht']

def exampleSuccessor : Token := exampleOut.jwt.issueToken 0 1 1 0 (some 10)

def wholeRefresh (i : Nat) : List (Move Job Choice Env) := computed i :: served i :: refreshMoves i

def refreshTwice : List (Move Job Choice Env) :=
  .start (.refresh exampleToken) :: wholeRefresh 0 ++ .start (.refresh exampleSuccessor) ::
    wholeRefresh 1

theorem refreshed_twice :
    ∃ c t, Reach (system exampleOut) (fun w l => exchangesOnce w l = true) (Opened 10) c ∧
    Accepts exampleOut c.world.db c.world.db t ∧
    (∀ t', t'.claims.sid = some 10 → Accepts exampleOut c.world.db c.world.db t' → t' = t) ∧
    ¬ Accepts exampleOut c.world.db c.world.db exampleToken := by
  obtain ⟨c, hc, hjobs, hnow, hissued, t, -, hsid, ht⟩ := exists_reach_of_runMovesIf
    (S := system exampleOut) exchangesOnce (exampleState_opened "v2:old-password") refreshTwice
    (p := fun c => c.world.jobs = [.refresh exampleToken, .refresh exampleSuccessor] ∧
      c.world.db.db.now = 0 ∧
      (lastIssued c.world 0).isSome ∧ ∃ t ∈ lastIssued c.world 1, t.claims.sid = some 10 ∧
        Accepts exampleOut c.world.db c.world.db t) (by decide +kernel)
  obtain ⟨new, hnew⟩ := Option.isSome_iff_exists.mp hissued
  -- the clock stands before the second of either token
  have hsecond : ∀ t, t.claims.sid = some 10 → Exchanged c.world t →
      ¬ InExpSecond c.world.db c.world.db t := by
    rintro t - ⟨i, hi, -⟩ ⟨-, hpast⟩
    have hmem := List.mem_of_getElem? hi
    rw [hjobs] at hmem
    rw [hnow] at hpast
    rcases List.mem_cons.mp hmem with heq | hmem
    · cases heq
      exact absurd hpast (by decide)
    · cases List.mem_singleton.mp hmem
      exact absurd hpast (by decide)
  obtain ⟨hone, hrejected⟩ := refresh_rotates hc (.refl _) hsecond
  refine ⟨c, t, hc, ht, fun t' hsession haccept => hone t' t hsession hsid haccept ht, ?_⟩
  exact hrejected 0 exampleToken new (by rw [hjobs]; rfl) rfl (issued_of_lastIssued hnew)

/-- Two requests with one token are authenticated, and then both go on. -/
def refreshAtOnce : List (Move Job Choice Env) :=
  [.start (.refresh exampleToken), .start (.refresh exampleToken), computed 0, served 0, computed 1,
    served 1] ++ refreshMoves 0 ++ refreshMoves 1

theorem two_tokens_live : ∃ c : Conf, Reachable (system exampleOut) (Opened 10) c ∧
    c.world.jobs = [.refresh exampleToken, .refresh exampleToken] ∧
    (∀ p ∈ c.threads, hasReturned p = true) ∧
    ∃ t t', t ≠ t' ∧ t.claims.sid = some 10 ∧ t'.claims.sid = some 10 ∧
      Accepts exampleOut c.world.db c.world.db t ∧ Accepts exampleOut c.world.db c.world.db t' := by
  obtain ⟨c, hc, hjobs, hret, t, -, t', -, hboth⟩ := exists_reachable_of_runMoves
    (S := system exampleOut) (exampleState_opened "v2:old-password") refreshAtOnce (p := fun c =>
      c.world.jobs = [.refresh exampleToken, .refresh exampleToken] ∧
      (∀ p ∈ c.threads, hasReturned p = true) ∧
      ∃ t ∈ lastIssued c.world 0, ∃ t' ∈ lastIssued c.world 1, t ≠ t' ∧
        t.claims.sid = some 10 ∧ t'.claims.sid = some 10 ∧
        Accepts exampleOut c.world.db c.world.db t ∧ Accepts exampleOut c.world.db c.world.db t')
    (by decide +kernel)
  exact ⟨c, hc, hjobs, hret, t, t', hboth⟩

/-! ### What a refresh issues -/

/-- **A refresh issues at most one token**, in every run: when it does, it has deny-listed the token
it was given, and the new one is the same user's, for the same session or one that this refresh has
opened. -/
theorem refresh_issues_once {out : Outside} {c : Conf} {init : State → Prop}
    (h : Reachable (system out) init c) {i : Nat} {t new : Token}
    (hi : c.world.jobs[i]? = some (.refresh t)) (hissued : Issued c.world i new) :
    new.claims.sub = t.claims.sub ∧
      (new.claims.sid = t.claims.sid ∨ Opens (c.world.trace i) new.claims.sid) ∧
      (∃ x ∈ c.world.trace i, Exchanges t x) ∧ ∀ new', Issued c.world i new' → new' = new := by
  obtain ⟨u, _, sid, s, s', hm⟩ := hissued
  obtain ⟨_, _, htr⟩ := append_of_mem hm
  obtain ⟨⟨-, -, rfl, -⟩, ⟨x, hx, hexchanges⟩, hnone, hsid⟩ := (rotation out).allowed h hi htr
  obtain ⟨ch, hexec⟩ := ((discipline out).chained h).exec_of_mem hm
  obtain ⟨hnew, -⟩ := exec_issueToken hexec
  refine ⟨by rw [hnew]; rfl, ?_, ⟨x, mem_of_before htr hx, hexchanges⟩, ?_⟩
  · rw [hnew]
    refine hsid.imp_right (fun ⟨id, v, e, r, r', hid, hopen⟩ =>
      ⟨id, v, e, r, r', hid, mem_of_before htr hopen⟩)
  · rintro _ ⟨u', _, _, r, r', hm'⟩
    rw [htr] at hm'
    rcases mem_append.mp hm' with hlater | hm'
    · obtain ⟨_, _, rfl⟩ := append_of_mem hlater
      rw [append_assoc] at htr
      obtain ⟨-, -, hnone', -⟩ := (rotation out).allowed h hi htr
      cases hnone' _ (mem_append_right _ mem_cons_self)
    · rcases mem_cons.mp hm' with heq | hbefore
      · cases heq
        rfl
      · cases hnone _ hbefore

theorem refresh_issues_successor : ∃ c : Conf, Reachable (system exampleOut) (Opened 10) c ∧
    ∃ new, Issued c.world 0 new ∧ ∀ new', Issued c.world 0 new' → new' = new := by
  obtain ⟨c, hc, hjob, hsome⟩ := exists_reachable_of_runMoves (S := system exampleOut)
    (exampleState_opened "v2:old-password") refreshTwice
    (p := fun c => c.world.jobs[0]? = some (.refresh exampleToken) ∧ (lastIssued c.world 0).isSome)
    (by decide +kernel)
  obtain ⟨new, hnew⟩ := Option.isSome_iff_exists.mp hsome
  have hissued := issued_of_lastIssued hnew
  exact ⟨c, hc, new, hissued, (refresh_issues_once hc hjob hissued).2.2.2⟩

end Octo.Auth
