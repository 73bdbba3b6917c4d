import Octo.Sponsor.Budget
import Octo.Withdrawal.Verdict

/-!
# When a reservation is released

A reservation that is finalised as `failed` gives its fee back to the day's budget, so this must not
happen while its fee-bump may still be applied.  The endpoint takes every answer that does not
decode as a success for a failure, so this depends on the answer (`SoundlyJudged`).
-/

namespace Octo.Sponsor

open Conc Octo.Api Resilience List Option
open Withdrawal (gatewayTimeout)

def ReadsAsSuccess : HttpOutcome → Prop
  | .answer _ body => ∃ r, body.bind readSubmitResponse = some r ∧ r.successful = true
  | .transport => False

/-- The result codes of a transaction that was applied.  Its fee is charged even if it failed. -/
def appliedCodes : List String :=
  ["tx_success", "tx_failed", "tx_fee_bump_inner_success", "tx_fee_bump_inner_failed"]

/-- The answers after which a fee-bump cannot be charged: a 4xx with the code of a transaction that
was not applied.  An answer with `successful = false` is not among them, it reports a failure on
chain. -/
def Rejected : HttpOutcome → Prop
  | .answer status (some body) => 400 ≤ status ∧ status < 500 ∧
    ∃ code, body.at? ["extras", "result_codes", "transaction"] = some (.str code) ∧
    code ∉ appliedCodes
  | _ => False

/-- The outcomes that the endpoint does not take for a failure they are not. -/
def SoundlyJudged (a : HttpOutcome) : Prop := Rejected a ∨ ReadsAsSuccess a

theorem finalStatus_failed_iff (a : HttpOutcome) :
    (finalStatus (submitVerdict a)).1 = .failed ↔ ¬ ReadsAsSuccess a := by
  cases a with
  | transport => simp [ReadsAsSuccess, submitVerdict, readSubmit, Except.mapError, finalStatus]
  | answer status body =>
    simp only [ReadsAsSuccess, submitVerdict, readSubmit]
    cases hb : body.bind readSubmitResponse with
    | some r =>
      cases hr : r.successful with
      | true | false => simp [Except.mapError, finalStatus, SubmitResult.ofResponse, hr]
    | none =>
      cases hs : isSuccess status with
      | true | false => simp [Except.mapError, finalStatus]

/-- What the submission of a task came to: `none` if nothing was sent. -/
def outcomeOf (tr : List Act) : Option HttpOutcome := (posted tr).getLast?.map (·.2)

/-- In every run, a request whose submission comes to `o` finalises its reservation as `failed` only
if nothing was sent or the network has rejected it. -/
def ReleasesSoundly (o : Option HttpOutcome) : Prop :=
  ∀ (out : Outside) (init : State → Prop) (c : Conf Job Op Ans State),
    Reachable (system out) init c →
    ∀ i walletId req, c.world.jobs[i]? = some (.sponsor walletId req) →
    outcomeOf (c.world.trace i) = o →
    ∀ x ∈ c.world.trace i, ∀ id hash error, x.op = .finalize id .failed hash error →
      ∀ a, o = some a → Rejected a

variable {x : Act}

section

variable {out : Outside} {init : State → Prop} {cond : World → Label Job Op Ans → Prop}
  {c : Conf Job Op Ans State} {i : Nat} {walletId : Uuid} {req : SponsorRequest}

section

variable (hc : Reach (system out) cond init c)
  (hj : c.world.jobs[i]? = some (.sponsor walletId req))
include hc hj

theorem posted_later {later before : List Act} (hx : c.world.trace i = later ++ x :: before)
    (hloud : isQuiet x.op = false) : posted later = [] := by
  refine eq_nil_iff_forall_not_mem.mpr (fun ⟨xdr, o⟩ hq => ?_)
  obtain ⟨s, s', hm⟩ := mem_posted hq
  obtain ⟨l1, l2, rfl⟩ := append_of_mem hm
  rw [append_assoc] at hx
  have hquiet := ((discipline out).allowed hc hj hx).1 x (mem_append_right _ mem_cons_self)
  rw [hloud] at hquiet
  cases hquiet

/-- **A task submits once**, a fee-bump of the fee that it has reserved. -/
theorem posted_eq {xdr : String} {a : HttpOutcome}
    (hm : (xdr, a) ∈ posted (c.world.trace i)) : posted (c.world.trace i) = [(xdr, a)] ∧
      ∃ (p : Preflight) (row : SponsoredTransaction), p.IsOf out req ∧
        Reserved walletId p.innerHashHex p.maxFee row (c.world.trace i) ∧
          signWith out p.wallet p.innerXdr p.maxFee = .signed xdr := by
  obtain ⟨s, s', hx⟩ := mem_posted hm
  obtain ⟨_, before, htr⟩ := append_of_mem hx
  obtain ⟨hquiet, p, row, hof, hres, hsign⟩ := (discipline out).allowed hc hj htr
  refine ⟨?_, p, row, hof, ?_, hsign⟩
  · rw [htr, posted_append, posted_later hc hj htr rfl]
    show (xdr, a) :: posted before = _
    rw [hquiet.posted]
  · rw [htr, ← singleton_append, ← append_assoc]
    exact hres.append _

/-- **A release follows the verdict on what was sent.** -/
theorem failed_of_released (hx : x ∈ c.world.trace i)
    {id : Uuid} {hash error : Option String} (ho : x.op = .finalize id .failed hash error)
    {q : String × HttpOutcome} (hq : q ∈ posted (c.world.trace i)) : ¬ ReadsAsSuccess q.2 := by
  obtain ⟨_, before, htr⟩ := append_of_mem hx
  have hallowed := (discipline out).allowed hc hj htr
  have hself : post? x = none := by
    obtain ⟨op, ans, s, s'⟩ := x
    subst ho
    rfl
  rw [htr, posted_append, posted_later hc hj htr (by rw [ho]; rfl)] at hq
  have hsame : posted (x :: before) = posted before := filterMap_cons_none hself
  rw [hsame] at hq
  rw [ho] at hallowed
  obtain ⟨-, -, ⟨hnone, -⟩ | ⟨xdr, o, hone, hst⟩⟩ := hallowed
  · rw [hnone] at hq
    cases hq
  · rw [hone] at hq
    rw [mem_singleton.mp hq]
    exact (finalStatus_failed_iff o).mp hst.symm

end

end

theorem example_finalized (a : HttpOutcome) :
    ∃ c, Reachable (system exampleOutside) (· = exampleState) c ∧
      c.world.jobs[0]? = some (.sponsor 1 (exampleRequest onePayment)) ∧
      posted (c.world.trace 0) = [(exampleFeeBump onePayment, a)] ∧
      ∃ x ∈ c.world.trace 0, x.op = finalizeOp exampleRow a := by
  obtain ⟨tr, ⟨db, b⟩, hr, -, hpost, -, -⟩ := runs_to_finalize (s := exampleState) 1
    onePayment_sponsorable rfl rfl rfl rfl rfl a
  have pool : ∃ c, Reachable (system exampleOutside) (· = exampleState) c ∧
      c.world.jobs = [.sponsor 1 (exampleRequest onePayment)] ∧ c.world.db = _ ∧
      c.world.trace 0 = [finalizeAct exampleRow a ⟨db, b⟩] ++ tr :=
    exists_reachable_of_runs rfl rfl (hr.trans (runs_finalize exampleOutside exampleRow a ⟨db, b⟩))
  obtain ⟨c, hc, hjobs, -, htr⟩ := pool
  refine ⟨c, hc, by rw [hjobs]; rfl, ?_, finalizeAct exampleRow a ⟨db, b⟩, ?_, rfl⟩
  · rw [htr]
    exact hpost
  · rw [htr]
    exact mem_cons_self

theorem releasesSoundly_iff (o : Option HttpOutcome) :
    ReleasesSoundly o ↔ ∀ a, o = some a → SoundlyJudged a := by
  constructor
  · rintro h a rfl
    by_contra hno
    obtain ⟨hdef, hsucc⟩ := not_or.mp hno
    obtain ⟨c, hc, hj, hpost, x, hx, ho⟩ := example_finalized a
    have hstatus : (finalStatus (submitVerdict a)).1 = .failed :=
      (finalStatus_failed_iff a).mpr hsucc
    rw [finalizeOp, hstatus] at ho
    exact hdef (h _ _ c hc 0 1 _ hj (by rw [outcomeOf, hpost]; rfl) x hx _ _ _ ho a rfl)
  · rintro h out _ c hc i _ req hj hout x hx id _ _ ho a rfl
    cases hpost : (posted (c.world.trace i)).getLast? with
    | none =>
      rw [outcomeOf, hpost] at hout
      cases hout
    | some q =>
      rw [outcomeOf, hpost] at hout
      have hqa : q.2 = a := some.inj hout
      have hfailed := failed_of_released hc hj hx ho (mem_of_getLast? hpost)
      rw [hqa] at hfailed
      exact (h a rfl).resolve_right hfailed

/-! ### Which rows are failed -/

def InsertedPending (db : SponsorDb) : Prop :=
  ∀ tx q row, db.sessions tx = some q → q.phase = .inserted row → row.status = .pending

variable {r : SponsoredTransaction} {tx : Nat} {q : Session}

section

variable {db db' : SponsorDb} {o : Op} {a : Ans o}

theorem InsertedPending.setSession (h : InsertedPending db)
    (hq : ∀ row, q.phase = .inserted row → row.status = .pending) :
    InsertedPending (db.setSession tx q) := by
  intro tx' q' row hq' hrow
  rcases SponsorDb.sessions_of_setSession hq' with ⟨-, rfl⟩ | ⟨-, hq'⟩
  · exact hq row hrow
  · exact h tx' q' row hq' hrow

theorem InsertedPending.endSession (h : InsertedPending db) (tx : Nat) :
    InsertedPending (db.endSession tx) :=
  fun tx' q' row hq' hrow => h tx' q' row (SponsorDb.sessions_of_endSession hq').2 hrow

theorem insertedPending_statement (hst : statement o db = some (a, db'))
    (h : InsertedPending db) : InsertedPending db' := by
  cases statement_change hst with
  | @locked tx _ q hq => exact h.setSession (fun row hrow => h tx q row hq hrow)
  | begun | summed | refused => exact h.setSession (fun row hrow => nomatch hrow)
  | inserted =>
    refine h.setSession (fun row hrow => ?_)
    rw [← Phase.inserted.inj hrow]
    rfl
  | committed | ended => exact h.endSession _
  | unchanged | finalized | swept => exact h

/-- **What can make a row `failed`**: a finalisation, or the sweep. -/
theorem failed_statement (hst : statement o db = some (a, db'))
    (h : InsertedPending db) (hr : r ∈ db'.sponsored) (hf : r.status = .failed) :
    (∃ r0 ∈ db.sponsored, r0.id = r.id ∧ r0.status = .failed) ∨
      (∃ hash error, o = .finalize r.id .failed hash error) ∨
      ∃ olderThan, o = .reconcileStale olderThan := by
  cases statement_change hst with
  | @committed tx q row hq hrow =>
    rcases Rows.mem_concat.mp hr with hr | rfl
    · exact .inl ⟨r, hr, rfl, hf⟩
    · rw [h tx q r hq hrow] at hf
      cases hf
  | @finalized id status hash error =>
    obtain ⟨r0, hr0, rfl⟩ := mem_map.mp hr
    by_cases hid : (r0.id == id) = true
    · rw [if_pos hid] at hf ⊢
      refine .inr (.inl ⟨hash, error, ?_⟩)
      rw [show status = .failed from hf, eq_of_beq hid]
    · rw [if_neg hid] at hf ⊢
      exact .inl ⟨r0, hr0, rfl, hf⟩
  | @swept olderThan => exact .inr (.inr ⟨olderThan, rfl⟩)
  | _ => exact .inl ⟨r, hr, rfl, hf⟩

end

/-! ### Runs of sponsor requests -/

/-- Only sponsor requests are started, and every submission comes to an outcome that is judged
soundly. -/
def JudgesSoundly (_ : World) : Label Job Op Ans → Prop
  | .start j => ∃ walletId req, j = .sponsor walletId req
  | .call _ (.horizon (.request (.postTransactions _))) a => SoundlyJudged a
  | _ => True

theorem judgesSoundly_of_posted {tr : List Act} (h : ∀ q ∈ posted tr, SoundlyJudged q.2)
    (hx : x ∈ tr) (w : World) (i : Nat) : JudgesSoundly w (.call i x.op x.ans) := by
  obtain ⟨op, ans, s, s'⟩ := x
  unfold JudgesSoundly
  split
  · cases ‹Label.call i op ans = Label.start _›
  · rename_i heq
    cases heq
    exact h _ (mem_filterMap.mpr ⟨_, hx, rfl⟩)
  · trivial

structure OpenDay (day : Nat) (walletId : Uuid) (budget : Int) (s : State) : Prop
    extends DayStart day walletId budget s where
  ids : ∀ r ∈ s.db.sponsored, r.id < s.db.nextId

structure FailsByRequest (n : Nat) (w : World) : Prop where
  sponsors : ∀ j ∈ w.jobs, ∃ walletId req, j = .sponsor walletId req
  inserted : InsertedPending w.db.db
  failed : ∀ r ∈ w.db.db.sponsored, r.status = .failed → r.id < n ∨
    ∃ k, ∃ x ∈ w.trace k, ∃ hash error, x.op = .finalize r.id .failed hash error

section

variable {out : Outside} {c : Conf Job Op Ans State} {s0 : State} {day : Nat} {walletId : Uuid}
  {budget : Int}

theorem failsByRequest_reach (hs0 : OpenDay day walletId budget s0)
    (h : Reach (system out) JudgesSoundly (· = s0) c) : FailsByRequest s0.db.nextId c.world := by
  refine (discipline out).invariant ?_ ?_ ?_ ?_ h
  · rintro s rfl
    refine ⟨forall_mem_nil _, fun tx q row hq => ?_, fun r hr _ => .inl (hs0.ids r hr)⟩
    rw [hs0.sessions tx] at hq
    cases hq
  · intro w j hI _ hstart
    exact ⟨Rows.forall_mem_concat hI.sponsors hstart, hI.inserted, hI.failed⟩
  · intro w i j o ch a s hI _ hj hL he _
    have hkeep : ∀ r : SponsoredTransaction, (r.id < s0.db.nextId ∨
        ∃ k, ∃ x ∈ w.trace k, ∃ hash error, x.op = .finalize r.id .failed hash error) →
        r.id < s0.db.nextId ∨ ∃ k, ∃ x ∈ (w.record i o a s).trace k, ∃ hash error,
          x.op = .finalize r.id .failed hash error := by
      rintro r (hlt | ⟨k, x, hx, hop⟩)
      · exact .inl hlt
      · refine .inr ⟨k, x, ?_, hop⟩
        rw [World.mem_trace] at hx ⊢
        exact mem_cons_of_mem _ hx
    rcases exec_state he with ⟨b, rfl⟩ | ⟨b, db', hst, rfl⟩
    · exact ⟨hI.sponsors, hI.inserted, fun r hr hf => hkeep r (hI.failed r hr hf)⟩
    · refine ⟨hI.sponsors, insertedPending_statement hst hI.inserted, fun r hr hf => ?_⟩
      rcases failed_statement hst hI.inserted hr hf with ⟨r0, hr0, hid, hf0⟩ | ⟨hash, error, rfl⟩
        | ⟨n, rfl⟩
      · exact hkeep r (hid ▸ hI.failed r0 hr0 hf0)
      · refine .inr ⟨i, ⟨_, a, w.db, ⟨db', w.db.breaker⟩⟩, ?_, hash, error, rfl⟩
        rw [World.trace_record_self]
        exact mem_cons_self
      · obtain ⟨w', req, rfl⟩ := hI.sponsors j (mem_of_getElem? hj)
        exact hL.elim
  · intro w e s hI he _
    cases e with
    | abort tx =>
      rw [← some.inj he]
      exact ⟨hI.sponsors, hI.inserted.endSession tx, hI.failed⟩
    | _ =>
      rw [← some.inj he]
      exact ⟨hI.sponsors, hI.inserted, hI.failed⟩

/-! ### A reservation and its row -/

variable {w : Uuid} {hash xdr : String} {fee : Int} {row : SponsoredTransaction} {ch : Choice}

theorem insert_of_exec {b : Option Int} {s s' : State}
    (he : exec (.reserveInsert tx w hash fee b) ch s = some (.ok (some row), s')) :
    ∃ q, s.db.sessions tx = some q ∧ row = s.db.reservation q.startedAt w hash fee ∧
      s'.db.nextId = s.db.nextId + 1 ∧ s'.db.sessions tx = some { q with phase := .inserted row } ∧
      (∃ total, q.phase = .summed w total) ∧ s.db.IsFree tx hash := by
  obtain ⟨db', hst, rfl⟩ := execStore_ok he
  rcases SponsorDb.reserveInsert_cases hst with
    ⟨⟨e, ha⟩, -⟩ | ⟨q, total, hq, hsum, ⟨ha, -⟩ | ⟨hfree, -, ha, rfl⟩⟩
  · cases ha
  · cases ha
  · obtain rfl := some.inj (Except.ok.inj ha)
    exact ⟨q, hq, rfl, rfl, SponsorDb.setSession_self _ _ _, ⟨total, hsum⟩, hfree⟩

variable {init : State → Prop} {cond : World → Label Job Op Ans → Prop} {i : Nat}

/-- **A reservation belongs to one task.** -/
theorem reserved_unique (hc : Reach (system out) cond init c) {i k : Nat} {w' : Uuid}
    {hash' : String} {fee' : Int} {row' : SponsoredTransaction}
    (h : Reserved w hash fee row (c.world.trace i))
    (h' : Reserved w' hash' fee' row' (c.world.trace k)) (hid : row.id = row'.id) : i = k := by
  have hchain := (discipline out).chained hc
  obtain ⟨tx, b, _, t, t', _, s, s', htr, hm⟩ := h
  obtain ⟨tx', b', _, u, u', _, v, v', htr', hm'⟩ := h'
  have hin : ⟨.reserveInsert tx w hash fee b, .ok (some row), s, s'⟩ ∈ c.world.trace i :=
    mem_of_before htr hm
  have hin' : ⟨.reserveInsert tx' w' hash' fee' b', .ok (some row'), v, v'⟩ ∈ c.world.trace k :=
    mem_of_before htr' hm'
  obtain ⟨ch, he⟩ := hchain.exec_of_mem hin
  obtain ⟨ch', he'⟩ := hchain.exec_of_mem hin'
  obtain ⟨q, -, rfl, hnext, -⟩ := insert_of_exec he
  obtain ⟨q', -, rfl, hnext', -⟩ := insert_of_exec he'
  replace hid : s.db.nextId = v.db.nextId := hid
  rcases hchain.comparable (World.mem_trace.mp hin) (World.mem_trace.mp hin') with heq | hlt | hlt
  · exact congrArg Event.tid heq
  · have hle : s'.db.nextId ≤ v.db.nextId := hlt.nextId
    rw [hnext, hid] at hle
    exact absurd hle (Nat.not_succ_le_self _)
  · have hle : v'.db.nextId ≤ s.db.nextId := hlt.nextId
    rw [hnext', ← hid] at hle
    exact absurd hle (Nat.not_succ_le_self _)

/-- A session that has inserted a row still has it when it commits. -/
theorem row_of_commit {s t t' : State} (hgrow : Grows s t) (hq : s.db.sessions tx = some q)
    (hrow : q.phase = .inserted row) (hopen : tx < s.db.nextSession)
    (he : exec (.commit tx) ch t = some (.ok (), t')) :
    ∃ q1, t.db.sessions tx = some q1 ∧ q1.phase = .inserted row ∧ row ∈ t'.db.sponsored := by
  obtain ⟨db', hst, rfl⟩ := execStore_ok he
  rcases SponsorDb.commit_cases (some.inj hst) with ⟨hno, -⟩ | ⟨q1, hq1, -, hphase⟩
  · cases hno
  obtain ⟨q2, hq2, hsess⟩ := hgrow.sessions tx q1 hq1 hopen
  obtain rfl := some.inj (hq.symm.trans hq2)
  have hins := hsess.inserted row hrow
  refine ⟨q1, hq1, hins, ?_⟩
  rcases hphase with ⟨_, hrow', rfl⟩ | ⟨hno, -⟩
  · obtain rfl := Phase.inserted.inj (hins.symm.trans hrow')
    exact mem_concat_self
  · exact absurd hins (hno row)

/-- **A reservation that was committed is in the table**, with a new id and its fee. -/
theorem reserved_row (hs0 : OpenDay day walletId budget s0)
    (hc : Reach (system out) cond (· = s0) c) (h : Reserved w hash fee row (c.world.trace i)) :
    s0.db.nextId ≤ row.id ∧ ∃ r ∈ c.world.db.db.sponsored, r.id = row.id ∧ r.walletId = w ∧
      r.feeStroops = fee ∧ day * dayLength ≤ r.createdAt := by
  have hday : Reach (system out) cond (DayStart day walletId budget) c := by
    refine hc.imp_init ?_
    rintro s rfl
    exact hs0.toDayStart
  have hchain := (discipline out).chained hc
  have hok := reach_hist (P := fun s => SessionsOk day s.db) (fun _ => sessionsOk_reach) hday
  obtain ⟨tx, b, _, t, t', _, s, s', htr, hm⟩ := h
  have hin : ⟨.reserveInsert tx w hash fee b, .ok (some row), s, s'⟩ ∈ c.world.trace i :=
    mem_of_before htr hm
  have hcommit : ⟨.commit tx, .ok (), t, t'⟩ ∈ c.world.trace i := mem_of_split htr
  obtain ⟨ch, he⟩ := hchain.exec_of_mem hin
  obtain ⟨q, hq, hrow, -, hq', -⟩ := insert_of_exec he
  obtain ⟨hpre, hpost⟩ := hok _ (World.mem_trace.mp hin)
  obtain ⟨ch', he'⟩ := hchain.exec_of_mem hcommit
  obtain ⟨_, -, -, hmem⟩ :=
    row_of_commit (hchain.between htr hm) hq' rfl (hpost.opened tx _ hq') he'
  obtain ⟨r, hr, hsr⟩ := (hchain.below_of_mem hcommit).rows row hmem
  have habove : ∀ c, Reach (system out) cond (· = s0) c → s0.db.nextId ≤ c.world.db.db.nextId := by
    intro c hc
    obtain ⟨s, rfl, hg⟩ := (discipline out).above_init hc
    exact hg.nextId
  have hnew := (reach_hist (P := fun s => s0.db.nextId ≤ s.db.nextId)
    habove hc _ (World.mem_trace.mp hin)).1
  rw [hrow] at hsr ⊢
  refine ⟨hnew, r, hr, hsr.1, hsr.2.1, hsr.2.2.1, ?_⟩
  rw [hsr.2.2.2]
  exact (hpre.started tx q hq).1

theorem released_by_own (hs0 : OpenDay day walletId budget s0)
    (hc : Reach (system out) JudgesSoundly (· = s0) c)
    (h : Reserved w hash fee row (c.world.trace i)) (hr : r ∈ c.world.db.db.sponsored)
    (hid : r.id = row.id) (hf : r.status = .failed) :
    ∃ x ∈ c.world.trace i, ∃ hash error, x.op = .finalize row.id .failed hash error := by
  have hI := failsByRequest_reach hs0 hc
  rcases hI.failed r hr hf with hlt | ⟨k, x, hx, hash', error, ho⟩
  · rw [hid] at hlt
    exact absurd (reserved_row hs0 hc h).1 (Nat.not_le.mpr hlt)
  · rw [hid] at ho
    obtain ⟨j, hj⟩ := reach_job_of_trace hc hx
    obtain ⟨w', req, rfl⟩ := hI.sponsors j (mem_of_getElem? hj)
    obtain ⟨later, _, htr⟩ := append_of_mem hx
    have hallowed := (discipline out).allowed hc hj htr
    rw [ho] at hallowed
    obtain ⟨-, ⟨_, _, _, hres, hid'⟩, -⟩ := hallowed
    have hres' := hres.append (later ++ [x])
    rw [append_assoc, singleton_append, ← htr] at hres'
    obtain rfl := reserved_unique hc h hres' hid'.symm
    exact ⟨x, hx, hash', error, ho⟩

theorem keepsReleased_reach (hs0 : OpenDay day walletId budget s0)
    (h : Reach (system out) JudgesSoundly (· = s0) c) :
    Reach (system out) KeepsReleased (DayStart day walletId budget) c := by
  induction h with
  | init hi =>
    subst hi
    exact .init hs0.toDayStart
  | @step c c' l hr hs _ ih =>
    refine .step ih hs ?_
    cases hs with
    | call i o k ch a s hi =>
      rintro ⟨id, _, _, _, rfl, -, r, hmem, hid, hf⟩
      obtain ⟨j, hj, hcalls⟩ := (discipline out).reach hr i _ hi
      obtain ⟨w, req, rfl⟩ := (failsByRequest_reach hs0 hr).sponsors j (mem_of_getElem? hj)
      obtain ⟨hun, ⟨_, _, row, hres, hrow⟩, -⟩ := hcalls.1
      obtain ⟨x, hx, _, _, ho⟩ := released_by_own hs0 hr hres hmem (hid.trans hrow.symm) hf
      have hno := hun x hx
      rw [ho] at hno
      cases hno
    | _ => trivial

/-! ### What may land -/

/-- A fee-bump that the wallet's gas tank may still be charged for: it was sent, and not rejected.
-/
def MayLand (w : World) (walletId : Uuid) (xdr : String) : Prop :=
  ∃ i req a, w.jobs[i]? = some (.sponsor walletId req) ∧ (xdr, a) ∈ posted (w.trace i) ∧
    ¬ Rejected a

def feeCeiling (out : Outside) (xdr : String) : Int := (out.feeBumps.feeOf xdr).getD 0

def Covers (w : World) (walletId : Uuid) (xdr : String) (r : SponsoredTransaction) : Prop :=
  ∃ i req a hash fee row, w.jobs[i]? = some (.sponsor walletId req) ∧
    (xdr, a) ∈ posted (w.trace i) ∧ Reserved walletId hash fee row (w.trace i) ∧ r.id = row.id

theorem Covers.unique (hc : Reach (system out) cond init c) {xdr' : String}
    (h : Covers c.world walletId xdr r) (h' : Covers c.world walletId xdr' r) : xdr = xdr' := by
  obtain ⟨i, req, a, hash, fee, row, hj, hm, hres, hid⟩ := h
  obtain ⟨k, req', a', hash', fee', row', hj', hm', hres', hid'⟩ := h'
  obtain rfl := reserved_unique hc hres hres' (hid.symm.trans hid')
  rw [(posted_eq hc hj hm).1] at hm'
  exact (Prod.mk.inj (mem_singleton.mp hm')).1.symm

theorem feeOf_signWith {wallet : SealedWallet} {innerXdr : String} {maxFee : Int}
    (h : signWith out wallet innerXdr maxFee = .signed xdr) :
    out.feeBumps.feeOf xdr = some maxFee := by
  unfold signWith at h
  split at h
  · split at h
    · cases h
    · split at h
      · cases h
      · split at h
        · rename_i hfound
          obtain ⟨key, -, hkey⟩ := exists_of_findSome?_eq_some hfound
          obtain rfl := Signing.signed.inj h
          exact feeOf_signFeeBump hkey
        · cases h
  · cases h

theorem judged_of_posted (hc : Reach (system out) JudgesSoundly init c) :
    ∀ i, ∀ q ∈ posted (c.world.trace i), SoundlyJudged q.2 := by
  refine (discipline out).invariant (I := fun w => ∀ i, ∀ q ∈ posted (w.trace i), SoundlyJudged q.2)
    ?_ ?_ ?_ ?_ hc
  · intro s _ i q hq
    cases hq
  · exact fun w j hI _ _ => hI
  · intro w i j o ch a s hI _ _ _ _ hcond k q hq
    by_cases hk : i = k
    · subst hk
      rw [World.trace_record_self] at hq
      obtain ⟨x, hx, hp⟩ := mem_filterMap.mp hq
      rcases mem_cons.mp hx with rfl | hx
      · unfold post? at hp
        split at hp
        · rename_i heq
          cases heq
          rw [← some.inj hp]
          exact hcond
        · cases hp
      · exact hI i q (mem_filterMap.mpr ⟨x, hx, hp⟩)
    · rw [World.trace_record_of_ne _ _ _ _ _ hk] at hq
      exact hI k q hq
  · exact fun w e s hI _ _ => hI

/-- **A fee-bump that may land is covered** by a row that counts, at its fee. -/
theorem covered_of_mayLand (hs0 : OpenDay day walletId budget s0)
    (hc : Reach (system out) JudgesSoundly (· = s0) c) (h : MayLand c.world walletId xdr) :
    ∃ r ∈ c.world.db.db.sponsored, Covers c.world walletId xdr r ∧
      charge walletId (day * dayLength) r = feeCeiling out xdr := by
  obtain ⟨i, req, a, hj, hm, hdef⟩ := h
  obtain ⟨-, p, row, -, hres, hsign⟩ := posted_eq hc hj hm
  obtain ⟨-, r, hr, hid, hw, hfee, hcreated⟩ := reserved_row hs0 hc hres
  refine ⟨r, hr, ⟨i, req, a, _, _, row, hj, hm, hres, hid⟩, ?_⟩
  have hcounted : r.isCounted = true := by
    cases hstatus : r.status with
    | failed =>
      obtain ⟨x, hx, _, _, ho⟩ := released_by_own hs0 hc hres hr hid hstatus
      have hno := failed_of_released hc hj hx ho hm
      exact absurd (judged_of_posted hc i _ hm) (not_or.mpr ⟨hdef, hno⟩)
    | pending | confirmed => simp [SponsoredTransaction.isCounted, hstatus]
  rw [feeCeiling, feeOf_signWith hsign, charge, if_pos (counts_iff.mpr ⟨hw, hcounted, hcreated⟩)]
  exact hfee

end

theorem sum_le_of_covered {α β : Type} {P : α → β → Prop} {f : α → Int} {g : β → Int}
    (hinj : ∀ a a' b, P a b → P a' b → a = a') {l : List α} {l' : List β} (hl : l.Nodup)
    (hcov : ∀ a ∈ l, ∃ b ∈ l', P a b ∧ g b = f a) (hg : ∀ b ∈ l', 0 ≤ g b) :
    (l.map f).sum ≤ (l'.map g).sum := by
  induction l generalizing l' with
  | nil => exact sum_nonneg (fun n hn => by
      obtain ⟨b, hb, rfl⟩ := mem_map.mp hn
      exact hg b hb)
  | cons a l ih =>
    obtain ⟨b, hb, hP, hgf⟩ := hcov a mem_cons_self
    obtain ⟨l1, l2, rfl⟩ := append_of_mem hb
    have hrest : (l.map f).sum ≤ ((l1 ++ l2).map g).sum := by
      refine ih (nodup_cons.mp hl).2 (fun a' ha' => ?_) (fun b' hb' => hg b' ?_)
      · obtain ⟨b', hb', hP', hgf'⟩ := hcov a' (mem_cons_of_mem _ ha')
        refine ⟨b', ?_, hP', hgf'⟩
        rcases mem_append.mp hb' with hb' | hb'
        · exact mem_append_left _ hb'
        · rcases mem_cons.mp hb' with rfl | hb'
          · rw [hinj a a' b' hP hP'] at hl
            exact absurd ha' (nodup_cons.mp hl).1
          · exact mem_append_right _ hb'
      · rcases mem_append.mp hb' with hb' | hb'
        · exact mem_append_left _ hb'
        · exact mem_append_right _ (mem_cons_of_mem _ hb')
    simp only [map_append, map_cons, sum_append, sum_cons] at hrest ⊢
    omega

/-- On such answers the fee-bumps that may land stay within the day's budget. -/
theorem landed_le_budget {out : Outside} {day : Nat} {walletId : Uuid} {budget : Int}
    {c : Conf Job Op Ans State}
    (hc : Reach (system out) JudgesSoundly (OpenDay day walletId budget) c)
    (hday : dayOf c.world.db.db.now = day) {landed : List String} (hl : landed.Nodup)
    (hmay : ∀ xdr ∈ landed, MayLand c.world walletId xdr) :
    (landed.map (feeCeiling out)).sum ≤ budget := by
  obtain ⟨s0, hs0, hc⟩ := hc.from_state
  have hw := withinBudget_reach (keepsReleased_reach hs0 hc) hday
  refine Int.le_trans ?_ hw.fees_le
  rw [feesSince_eq_sum]
  refine sum_le_of_covered (fun _ _ _ h h' => h.unique hc h') hl
    (fun xdr hxdr => covered_of_mayLand hs0 hc (hmay xdr hxdr)) (fun r hr => ?_)
  by_cases hcount : counts walletId (day * dayLength) r = true
  · rw [charge, if_pos hcount]
    exact hw.nonneg r hr (counts_iff.mp hcount).1
  · rw [charge, if_neg hcount]

/-- **When a release is sound**: a request releases its reservation only for a fee-bump that cannot
be charged exactly on the outcomes it judges soundly, and the fee-bumps that may land stay within
the day's budget in every run of sponsor requests on such outcomes. -/
theorem release_sound_iff (o : Option HttpOutcome) :
    (ReleasesSoundly o ↔ ∀ a, o = some a → SoundlyJudged a) ∧
    ∀ (out : Outside) (day : Nat) (walletId : Uuid) (budget : Int) (c : Conf Job Op Ans State),
      Reach (system out) JudgesSoundly (OpenDay day walletId budget) c →
      dayOf c.world.db.db.now = day →
      ∀ landed : List String, landed.Nodup → (∀ xdr ∈ landed, MayLand c.world walletId xdr) →
        (landed.map (feeCeiling out)).sum ≤ budget :=
  ⟨releasesSoundly_iff o, fun _ _ _ _ _ hc hday _ hl hmay => landed_le_budget hc hday hl hmay⟩

/-! ### A budget spent twice -/

theorem exampleState_openDay : OpenDay 20000 1 100 exampleState :=
  ⟨exampleState_dayStart, forall_mem_nil _⟩

theorem applied_not_rejected : ¬ Rejected applied := fun h => absurd h.1 (by decide)

theorem gatewayTimeout_not_rejected : ¬ Rejected gatewayTimeout := fun h => absurd h.2.1 (by decide)

def releasedDb : SponsorDb :=
  (reservedDb exampleDb exampleRow).finalize exampleRow.id .failed (some "") none

/-- **A timeout is released**: the reservation of a fee-bump that Horizon answered with a 504 is
finalised as `failed`, and with the next request fee-bumps of twice the budget may land. -/
theorem timeout_released : ¬ Rejected gatewayTimeout ∧
    ∃ c, Reachable (system exampleOutside) (OpenDay 20000 1 100) c ∧
      dayOf c.world.db.db.now = 20000 ∧
      posted (c.world.trace 0) = [(exampleFeeBump onePayment, gatewayTimeout)] ∧
      (∃ x ∈ c.world.trace 0, ∃ hash error, x.op = .finalize exampleRow.id .failed hash error) ∧
      ∃ landed : List String, landed.Nodup ∧ (∀ xdr ∈ landed, MayLand c.world 1 xdr) ∧
        (landed.map (feeCeiling exampleOutside)).sum = 200 := by
  refine ⟨gatewayTimeout_not_rejected, ?_⟩
  have hstart : Reachable (system exampleOutside) (OpenDay 20000 1 100) (.fresh exampleState) :=
    .init exampleState_openDay
  obtain ⟨tr1, ⟨db1, b1⟩, hr1, hdb1, hpost1, -, hclosed1⟩ := runs_to_finalize (s := exampleState) 1
    onePayment_sponsorable rfl rfl rfl rfl rfl gatewayTimeout
  subst hdb1
  have hfin := hr1.trans (runs_finalize exampleOutside exampleRow gatewayTimeout
    ⟨reservedDb exampleDb exampleRow, b1⟩)
  obtain ⟨c1, hc1, hjobs1, hdb1, htr1, -⟩ := start_runs hstart rfl hfin
  obtain ⟨tr2, ⟨db2, b2⟩, hr2, hdb2, hpost2, -⟩ := runs_to_finalize (s := ⟨releasedDb, b1⟩) 1
    twoPayments_sponsorable rfl rfl (hclosed1 _ rfl) rfl rfl applied
  obtain ⟨c2, hc2, hjobs2, hdb2', htr2, hothers⟩ :=
    start_runs (j := .sponsor 1 (exampleRequest twoPayments))
    hc1 rfl (by rw [hdb1]; exact hr2)
  have hlen : c1.world.jobs.length = 1 := by rw [hjobs1]; rfl
  rw [hlen] at htr2 hothers
  rw [hjobs1] at hjobs2
  have htr0 := (hothers 0 (by decide)).trans htr1
  have hsent0 : posted (c2.world.trace 0) = [(exampleFeeBump onePayment, gatewayTimeout)] := by
    rw [htr0]
    exact hpost1
  have hsent1 : posted (c2.world.trace 1) = [(exampleFeeBump twoPayments, applied)] := by
    rw [htr2]
    exact hpost2
  refine ⟨c2, hc2, ?_, hsent0, ⟨finalizeAct exampleRow gatewayTimeout
    ⟨reservedDb exampleDb exampleRow, b1⟩, ?_, some "", none, rfl⟩,
    [exampleFeeBump onePayment, exampleFeeBump twoPayments], by decide, ?_, by decide⟩
  · rw [hdb2', hdb2]
    exact exampleState_dayStart.now
  · rw [htr0]
    exact List.mem_cons_self
  · intro xdr hxdr
    rcases List.mem_cons.mp hxdr with rfl | hxdr
    · refine ⟨0, _, gatewayTimeout, by rw [hjobs2]; rfl, ?_, gatewayTimeout_not_rejected⟩
      rw [hsent0]
      exact List.mem_singleton_self _
    · obtain rfl := List.mem_singleton.mp hxdr
      refine ⟨1, _, applied, by rw [hjobs2]; rfl, ?_, applied_not_rejected⟩
      rw [hsent1]
      exact List.mem_singleton_self _

/-- A fee-bump that was applied is within the budget. -/
theorem applied_within_budget :
    ∃ c, Reach (system exampleOutside) JudgesSoundly (OpenDay 20000 1 100) c ∧
    dayOf c.world.db.db.now = 20000 ∧ MayLand c.world 1 (exampleFeeBump onePayment) ∧
    ([exampleFeeBump onePayment].map (feeCeiling exampleOutside)).sum ≤ 100 := by
  obtain ⟨tr, ⟨db, b⟩, hr, hdb, hpost, -, -⟩ := runs_to_finalize (s := exampleState) 1
    onePayment_sponsorable rfl rfl rfl rfl rfl applied
  have hjudged : SoundlyJudged applied := .inr ⟨_, rfl, rfl⟩
  have hcall : ∀ x ∈ tr, ∀ w : World, w.db = x.pre → JudgesSoundly w (.call 0 x.op x.ans) := by
    intro x hx w _
    refine judgesSoundly_of_posted (fun q hq => ?_) hx w 0
    rw [hpost] at hq
    rw [List.mem_singleton.mp hq]
    exact hjudged
  have hstart : Reach (system exampleOutside) JudgesSoundly (OpenDay 20000 1 100)
      (.fresh exampleState) :=
    .init exampleState_openDay
  obtain ⟨c, hc, hran⟩ := reach_start_runs hstart rfl ⟨_, _, rfl⟩ hr hcall (fun _ => trivial)
  have hnow : dayOf c.world.db.db.now = 20000 := by
    rw [hran.db, hdb]
    exact exampleState_dayStart.now
  have hmay : MayLand c.world 1 (exampleFeeBump onePayment) := by
    refine ⟨0, _, applied, by rw [hran.jobs]; rfl, ?_, applied_not_rejected⟩
    rw [show c.world.trace 0 = tr from hran.trace.trans (List.append_nil tr), hpost]
    exact List.mem_singleton_self _
  refine ⟨c, hc, hnow, hmay,
    (release_sound_iff none).2 _ _ _ _ c hc hnow _ (List.pairwise_singleton _ _) ?_⟩
  intro xdr hxdr
  rw [List.mem_singleton.mp hxdr]
  exact hmay

end Octo.Sponsor
