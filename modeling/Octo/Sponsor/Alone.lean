import Octo.Api.Hosted
import Octo.Sponsor.Discipline

/-!
# A sponsor request on its own

Executions of one sponsor request with nobody else in the database, a store that answers and a
closed breaker.  They are what shows that a bad outcome does happen.
-/

namespace Octo.Sponsor

open Conc Octo.Api Resilience SponsorDb List

variable {out : Outside} {walletId : Uuid} {req : SponsorRequest} {s s' : State} {p : Preflight}
  {xdr : String} {l : List Nat} {db db' : SponsorDb} {o : Op} {a : Ans o} {α : Type}

theorem host (out : Outside) : Host (system out) Op.horizon (fun _ a => a)
    (fun s => s.breaker.state = .closed) (fun s s' => s'.db = s.db) where
  refl := fun _ => rfl
  trans := fun h1 h2 => h2.trans h1
  check := by
    intro s hc
    refine ⟨.http .transport, true, ?_, rfl⟩
    show some ((s.breaker.check s.db.now).1, { s with breaker := (s.breaker.check s.db.now).2 }) = _
    rw [show s.breaker.check s.db.now = (true, s.breaker) by rw [Breaker.check, hc]]
  recheck := fun _ => ⟨.http .transport, _, _, rfl, rfl⟩
  onSuccess := fun _ => ⟨.http .transport, _, _, rfl, rfl, rfl⟩
  onFailure := fun _ => ⟨.http .transport, _, _, rfl, rfl⟩

theorem answers (out : Outside) (s : State) (r : Request) (o : HttpOutcome) :
    Answers (system out) Op.horizon (fun _ a => a) s r o := ⟨.http o, o, rfl, rfl⟩

theorem exec_served (o : Op) {a : Ans o} (b : Breaker) (h : statement o db = some (a, db')) :
    (system out).exec o (.store (.served 0)) ⟨db, b⟩ = some (a, ⟨db', b⟩) := by
  have hserved : ∀ {α : Type} {stmt : SponsorDb → Option (Except StoreError α × SponsorDb)}
      {a : Except StoreError α}, stmt db = some (a, db') →
      execStore stmt (.store (.served 0)) ⟨db, b⟩ = some (a, ⟨db', b⟩) := by
    intro α stmt a h
    show (stmt db).map _ = _
    rw [h]
    rfl
  cases o with
  | horizon => cases h
  | _ => exact hserved h

/-! ### Preflight -/

/-- The request passes every check of the endpoint, on an account whose sequence number is 0, and is
signed. -/
structure Sponsorable (out : Outside) (req : SponsorRequest) (p : Preflight) (xdr : String) :
    Prop where
  request : checkRequest req = .ok (p.innerXdr, p.maxFee)
  active : p.wallet.archivedAt = none
  enabled : p.config.enabled = true
  wallet : checkWallet out p.innerXdr p.maxFee p.wallet p.config = .ok ()
  sequence : checkSequence out p.innerXdr 0 = .ok p.innerHashHex
  signed : signWith out p.wallet p.innerXdr p.maxFee = .signed xdr

def freshAccount : HttpOutcome :=
  .answer 200 (some (.obj [("balances", .arr []), ("sequence", .str "0")]))

theorem readAccount_fresh : readAccount freshAccount = .ok ⟨[], 0, 0, 0, 0⟩ := rfl

theorem runs_accountSequence (out : Outside) (accountG : String) (hb : s.breaker.state = .closed) :
    ∃ tr s', Runs (system out) (horizon (out.client.accountSequence accountG)) s tr
      (.ret (.ok 0)) s' ∧ s'.db = s.db ∧ s'.breaker.state = .closed := by
  obtain ⟨as, s', hcall, -, hdb, hclosed⟩ := (host out).read out.client hb
    (answers out s (.getAccount accountG) freshAccount) readAccount_fresh
  have hinfo : Hosted (system out) Op.horizon (fun _ a => a) (out.client.accountInfo accountG) s
      ([] ++ as) (.ok ⟨[], 0, 0, 0, 0⟩) s' := hcall.bind (hosted_ret s' _)
  have hseq : Hosted (system out) Op.horizon (fun _ a => a) (out.client.accountSequence accountG) s
      ([] ++ ([] ++ as)) (.ok 0) s' := hinfo.bind (hosted_ret s' _)
  obtain ⟨tr, hr, -⟩ := hseq
  exact ⟨tr, s', hr, hdb, hclosed⟩

theorem runs_check {β : Type} {r : Except ApiError α} {v : α} {f : α → SponsorM β} {tr : List Act}
    {q : Prog Op Ans (Except ApiError β)} (hr : r = .ok v)
    (h : Runs (system out) (f v).run s tr q s') :
    Runs (system out) (check r >>= f).run s tr q s' := by
  rw [hr]
  exact h

theorem runs_preflight (hp : Sponsorable out req p xdr)
    (hw : s.db.getWallet walletId = .ok p.wallet)
    (hc : s.db.getGasSponsorshipConfig walletId = some p.config) (hb : s.breaker.state = .closed) :
    ∃ tr s', Runs (system out) (preflight out walletId req).run s tr (.ret (.ok p)) s' ∧
      s'.db = s.db ∧ s'.breaker.state = .closed := by
  obtain ⟨tr, s', hr, hdb, hclosed⟩ := runs_accountSequence out p.wallet.stellarAccountG hb
  have hwallet : (system out).exec (.getWallet walletId) (.store (.served 0)) s =
      some (.ok p.wallet, s) :=
    exec_served (.getWallet walletId) s.breaker (congrArg (fun r => some (r, s.db)) hw)
  have hconfig : (system out).exec (.getGasSponsorshipConfig walletId) (.store (.served 0)) s =
      some (.ok (some p.config), s) :=
    exec_served (.getGasSponsorshipConfig walletId) s.breaker
      (congrArg (fun r => some (Except.ok r, s.db)) hc)
  have henabled : enabledConfig (some p.config) = .ok p.config := if_pos hp.enabled
  have hseq : Runs (system out) (ExceptT.run (ExceptT.mk (horizon (out.client.accountSequence
      p.wallet.stellarAccountG) >>= fun r => .ret (mapUnfunded r)))) s ([] ++ tr)
        (.ret (.ok 0)) s' :=
    hr.bind .stop
  refine ⟨([] ++ ([] ++ tr)) ++ [⟨.getGasSponsorshipConfig walletId, .ok (some p.config), s, s⟩] ++
    [⟨.getWallet walletId, .ok p.wallet, s, s⟩], s', runs_check hp.request ?_, hdb, hclosed⟩
  show Runs _ ((Prog.tryCall (.getWallet walletId) fromStore : SponsorM SealedWallet) >>= _).run
    _ _ _ _
  refine runs_tryCall hwallet rfl ?_
  rw [hp.active]
  exact runs_tryCall hconfig rfl
    (runs_check henabled (runs_check hp.wallet (hseq.bindE (runs_check hp.sequence .stop))))

/-! ### One request alone -/

/-- A statement that is served.  Nobody else is in the database, so none has to wait. -/
def served {α : Type} (stmt : SponsorDb → Option (Except StoreError α × SponsorDb)) (s : State) :
    Except StoreError α × State :=
  match stmt s.db with
  | some (a, db) => (a, { s with db := db })
  | none => (.error .database, s)

def serveHttp (http : Request → HttpOutcome) : (c : HttpCall) → State → HttpCall.Ans c × State
  | .check, s => ((s.breaker.check s.db.now).1, { s with breaker := (s.breaker.check s.db.now).2 })
  | .onSuccess, s => ((), { s with breaker := s.breaker.onSuccess })
  | .onFailure, s => ((), { s with breaker := s.breaker.onFailure s.db.now })
  | .sleep _, s => ((), s)
  | .request r, s => (http r, s)

def serve (http : Request → HttpOutcome) : (o : Op) → State → Ans o × State
  | .horizon c => serveHttp http c
  | .getWallet w => served (statement (.getWallet w))
  | .getGasSponsorshipConfig w => served (statement (.getGasSponsorshipConfig w))
  | .sponsorshipProjection w hash => served (statement (.sponsorshipProjection w hash))
  | .begin => served (statement .begin)
  | .advisoryXactLock tx key => served (statement (.advisoryXactLock tx key))
  | .reserveSnapshot tx w => served (statement (.reserveSnapshot tx w))
  | .reserveInsert tx w hash fee budget => served (statement (.reserveInsert tx w hash fee budget))
  | .commit tx => served (statement (.commit tx))
  | .rollback tx => served (statement (.rollback tx))
  | .finalize id status hash error => served (statement (.finalize id status hash error))
  | .reconcileStale olderThan => served (statement (.reconcileStale olderThan))

section

variable {http : Request → HttpOutcome} {tx : Nat}

section

variable {q : Prog Op Ans (Except StoreError α)}

theorem serves_ask (out : Outside) (http : Request → HttpOutcome) (o : Op) {a : Ans o} (b : Breaker)
    (h : statement o db = some (a, db')) :
    Serves (system out) (serve http) (ask o) ⟨db, b⟩ a ⟨db', b⟩ := by
  have hserved : ∀ {α : Type} {stmt : SponsorDb → Option (Except StoreError α × SponsorDb)}
      {a : Except StoreError α}, stmt db = some (a, db') → served stmt ⟨db, b⟩ = (a, ⟨db', b⟩) := by
    intro α stmt a h
    unfold served
    rw [h]
  refine ⟨?_, _, .call _ a (exec_served o b h) .stop⟩
  cases o with
  | horizon => cases h
  | _ => exact hserved h

theorem serves_orRollback {v : α} (h : Serves (system out) (serve http) q s (.ok v) s') :
    Serves (system out) (serve http) (orRollback tx q).run s (.ok v) s' := h.bind (serves_ret _ _)

theorem serves_rolledBack {e : StoreError} {b : Breaker}
    (h : Serves (system out) (serve http) q s (.error e) ⟨db, b⟩) :
    Serves (system out) (serve http) (orRollback tx q).run s (.error e) ⟨db.endSession tx, b⟩ :=
  h.bind ((serves_ask out http (.rollback tx) b rfl).bind (serves_ret _ _))

end

/-! ### Reservation -/

def FitsI64 (n : Int) : Prop := i64Min ≤ n ∧ n ≤ i64Max

instance (n : Int) : Decidable (FitsI64 n) := inferInstanceAs (Decidable (_ ∧ _))

theorem not_fitsI64 {n : Int} : ¬ FitsI64 n ↔ n < i64Min ∨ i64Max < n := by
  unfold FitsI64
  omega

def isSponsored (db : SponsorDb) (innerTxHash : String) : Bool :=
  db.sponsored.any (fun r => r.innerTxHash == innerTxHash)

def spentToday (db : SponsorDb) (walletId : Uuid) : Int :=
  feesSince db.sponsored walletId (dayStart db.now)

def rowOf (db : SponsorDb) (walletId : Uuid) (p : Preflight) : SponsoredTransaction :=
  db.reservation db.now walletId p.innerHashHex p.maxFee

def reserveOutcome (db : SponsorDb) (walletId : Uuid) (p : Preflight) :
    Except StoreError SponsoredTransaction :=
  let unique := if isSponsored db p.innerHashHex then .error .conflict
    else .ok (rowOf db walletId p)
  if ¬ FitsI64 (spentToday db walletId) then .error .database
  else
    match p.config.dailyBudgetStroops with
    | none => unique
    | some budget =>
      if ¬ FitsI64 (spentToday db walletId + p.maxFee) then .error .database
      else if spentToday db walletId + p.maxFee ≤ budget then unique
      else .error .budgetExceeded

def reservedDb (db : SponsorDb) (row : SponsoredTransaction) : SponsorDb :=
  { db with
    nextId := db.nextId + 1
    nextSession := db.nextSession + 1
    sponsored := db.sponsored ++ [row] }

def inSession (db : SponsorDb) (q : Session) : SponsorDb :=
  { db with
    nextSession := db.nextSession + 1
    sessions := Function.update (fun _ => none) db.nextSession (some q) }

variable (q : Session)

theorem inSession_self : (inSession db q).sessions db.nextSession = some q := by
  simp [inSession]

theorem inSession_otherSession (f : Session → Bool) :
    (inSession db q).otherSession db.nextSession f = false := by
  refine any_eq_false.mpr (fun i _ => ?_)
  by_cases hi : i = db.nextSession
  · simp [hi]
  · have hnone : (inSession db q).sessions i = none := by simp [inSession, hi]
    simp [hnone]

theorem inSession_setSession (q q' : Session) :
    (inSession db q).setSession db.nextSession q' = inSession db q' := by
  unfold setSession inSession
  rw [Function.update_idem]

theorem begin_alone (h : db.sessions = fun _ => none) :
    db.begin = (db.nextSession, inSession db ⟨db.now, [], .idle⟩) := by
  unfold begin setSession inSession
  rw [h]

theorem advisoryXactLock_alone (key : Nat) : (inSession db q).advisoryXactLock db.nextSession key =
      some (.ok (), inSession db { q with locks := key :: q.locks }) := by
  unfold advisoryXactLock
  rw [inSession_self]
  dsimp only
  rw [inSession_otherSession, inSession_setSession]
  rfl

theorem reserveSnapshot_alone (db : SponsorDb) (walletId : Uuid) (l : List Nat) :
    (inSession db ⟨db.now, l, .idle⟩).reserveSnapshot db.nextSession walletId =
    if FitsI64 (spentToday db walletId) then
      (.ok (), inSession db ⟨db.now, l, .summed walletId (spentToday db walletId)⟩)
    else (.error .database, inSession db ⟨db.now, l, .idle⟩) := by
  unfold reserveSnapshot
  rw [inSession_self]
  by_cases hfits : FitsI64 (spentToday db walletId)
  · rw [if_pos hfits]
    exact (if_neg (mt not_fitsI64.mpr (not_not.mpr hfits))).trans
      (by rw [inSession_setSession]; rfl)
  · rw [if_neg hfits]
    exact if_pos (not_fitsI64.mp hfits)

/-- What the insert answers, and the session it leaves. -/
def insertAnswer (db : SponsorDb) (q : Session) :
    Except StoreError SponsoredTransaction →
    Except StoreError (Option SponsoredTransaction) × SponsorDb
  | .ok row =>
    (.ok (some row), { inSession db { q with phase := .inserted row } with
      nextId := db.nextId + 1 })
  | .error .budgetExceeded => (.ok none, inSession db { q with phase := .idle })
  | .error e => (.error e, inSession db q)

theorem insertUnique_alone (db : SponsorDb) (row : SponsoredTransaction) :
    (inSession db q).insertUnique db.nextSession q row = some (insertAnswer db q
      (if isSponsored db row.innerTxHash then .error .conflict else .ok row)) := by
  unfold insertUnique
  rw [inSession_otherSession, inSession_setSession]
  by_cases hin : isSponsored db row.innerTxHash = true
  · rw [if_pos hin]
    exact if_pos hin
  · rw [if_neg hin]
    exact if_neg hin

/-- **What the insert comes to**, with the sum of the snapshot. -/
theorem reserveInsert_alone (hfits : FitsI64 (spentToday db walletId)) :
    (inSession db ⟨db.now, l, .summed walletId (spentToday db walletId)⟩).reserveInsert
      db.nextSession walletId p.innerHashHex p.maxFee p.config.dailyBudgetStroops =
    some (insertAnswer db ⟨db.now, l, .summed walletId (spentToday db walletId)⟩
      (reserveOutcome db walletId p)) := by
  have hunique := insertUnique_alone ⟨db.now, l, .summed walletId (spentToday db walletId)⟩ db
    (rowOf db walletId p)
  unfold reserveInsert reserveOutcome
  rw [inSession_self, if_neg (not_not.mpr hfits)]
  dsimp only
  rw [if_neg (not_not.mpr rfl)]
  cases p.config.dailyBudgetStroops with
  | none => exact hunique
  | some budget =>
    dsimp only
    by_cases hsum : FitsI64 (spentToday db walletId + p.maxFee)
    · rw [if_neg (mt not_fitsI64.mpr (not_not.mpr hsum)), if_neg (not_not.mpr hsum)]
      by_cases hle : spentToday db walletId + p.maxFee ≤ budget
      · rw [if_pos hle, if_pos hle]
        exact hunique
      · rw [if_neg hle, if_neg hle, inSession_setSession]
        rfl
    · rw [if_pos (not_fitsI64.mp hsum), if_pos hsum]
      rfl

theorem commit_alone (t : Time) (l : List Nat) (row : SponsoredTransaction)
    (halone : db.sessions = fun _ => none) :
    ({ inSession db ⟨t, l, .inserted row⟩ with nextId := db.nextId + 1 } : SponsorDb).commit
      db.nextSession = (.ok (), reservedDb db row) := by
  have hend : Function.update (inSession db ⟨t, l, .inserted row⟩).sessions db.nextSession none =
      db.sessions := by
    show Function.update (Function.update (fun _ => none) db.nextSession _) db.nextSession none = _
    rw [Function.update_idem, Function.update_eq_self_iff.mpr rfl, halone]
  unfold commit
  rw [show ({ inSession db ⟨t, l, .inserted row⟩ with nextId := db.nextId + 1 } :
    SponsorDb).sessions db.nextSession = some ⟨t, l, .inserted row⟩ from inSession_self _]
  unfold endSession
  rw [hend]
  rfl

/-- **What the reservation makes of a request that passes `preflight`.** -/
theorem serves_tryReserve (out : Outside) (http : Request → HttpOutcome)
    (halone : db.sessions = fun _ => none) (b : Breaker) :
    ∃ db', Serves (system out) (serve http) (tryReserve walletId p.innerHashHex p.maxFee
        p.config.dailyBudgetStroops).run ⟨db, b⟩ (reserveOutcome db walletId p) ⟨db', b⟩ ∧
      ∀ row, reserveOutcome db walletId p = .ok row → db' = reservedDb db row := by
  let locked : Session := ⟨db.now, [sponsorLockKey walletId], .idle⟩
  have hbegin : Serves (system out) (serve http) (Prog.tryCall .begin id : ReserveM Nat).run ⟨db, b⟩
      (.ok db.nextSession) ⟨inSession db ⟨db.now, [], .idle⟩, b⟩ :=
    serves_ask out http .begin b (by rw [statement, begin_alone halone])
  have hlock : Serves (system out) (serve http)
      (ask (.advisoryXactLock db.nextSession (sponsorLockKey walletId)))
      ⟨inSession db ⟨db.now, [], .idle⟩, b⟩ (.ok ()) ⟨inSession db locked, b⟩ :=
    serves_ask out http (.advisoryXactLock _ _) b (advisoryXactLock_alone _ _)
  have hsnapshot := reserveSnapshot_alone db walletId locked.locks
  by_cases hfits : FitsI64 (spentToday db walletId)
  · rw [if_pos hfits] at hsnapshot
    have hsum := serves_ask out http (.reserveSnapshot db.nextSession walletId) b
      (congrArg some hsnapshot)
    have hins := reserveInsert_alone (l := locked.locks) (p := p) hfits
    cases ho : reserveOutcome db walletId p with
    | ok row =>
      rw [ho] at hins
      have hinsert := serves_ask out http (.reserveInsert db.nextSession walletId
        p.innerHashHex p.maxFee p.config.dailyBudgetStroops) b hins
      have hcommit := serves_ask out http (.commit db.nextSession) b
        (congrArg some (commit_alone db.now locked.locks row halone))
      refine ⟨_, hbegin.bindE ((serves_orRollback hlock).bindE ((serves_orRollback hsum).bindE
        ((serves_orRollback hinsert).bindE ((serves_orRollback hcommit).bindE (serves_ret _ _))))),
          ?_⟩
      rintro _ ⟨⟩
      rfl
    | error e =>
      rw [ho] at hins
      cases e with
      | budgetExceeded =>
        have hinsert := serves_ask out http (.reserveInsert db.nextSession walletId
          p.innerHashHex p.maxFee p.config.dailyBudgetStroops) b hins
        have hcommit : Serves (system out) (serve http) (ask (.commit db.nextSession))
            ⟨inSession db locked, b⟩ (.ok ()) ⟨(inSession db locked).endSession db.nextSession,
              b⟩ :=
          serves_ask out http (.commit _) b (by rw [statement, commit, inSession_self])
        exact ⟨_, hbegin.bindE ((serves_orRollback hlock).bindE ((serves_orRollback hsum).bindE
          ((serves_orRollback hinsert).bindE
            ((serves_orRollback hcommit).bindE (serves_ret _ _))))), nofun⟩
      | _ =>
        have hinsert := serves_ask out http (.reserveInsert db.nextSession walletId
          p.innerHashHex p.maxFee p.config.dailyBudgetStroops) b hins
        exact ⟨_, hbegin.bindE ((serves_orRollback hlock).bindE ((serves_orRollback hsum).bindE
          (serves_rolledBack hinsert).bindE_error)), nofun⟩
  · rw [if_neg hfits] at hsnapshot
    have hsum := serves_ask out http (.reserveSnapshot db.nextSession walletId) b
      (congrArg some hsnapshot)
    rw [show reserveOutcome db walletId p = .error .database from if_pos hfits]
    exact ⟨_, hbegin.bindE ((serves_orRollback hlock).bindE (serves_rolledBack hsum).bindE_error),
      nofun⟩

end

/-! ### Submission -/

def finalizeOp (row : SponsoredTransaction) (o : HttpOutcome) : Op :=
  .finalize row.id (finalStatus (submitVerdict o)).1 (finalStatus (submitVerdict o)).2 none

/-- A request that passes every check and is reserved can be carried to its finalisation, on any
outcome of its submission. -/
theorem runs_to_finalize (walletId : Uuid) {row : SponsoredTransaction}
    (hp : Sponsorable out req p xdr) (hw : s.db.getWallet walletId = .ok p.wallet)
    (hc : s.db.getGasSponsorshipConfig walletId = some p.config) (hb : s.breaker.state = .closed)
    (halone : s.db.sessions = fun _ => none) (hrow : reserveOutcome s.db walletId p = .ok row)
    (o : HttpOutcome) :
    ∃ tr s', Runs (system out) ((system out).code (.sponsor walletId req)) s tr
        (.call (finalizeOp row o) (fun _ => .ret ())) s' ∧
      s'.db = reservedDb s.db row ∧ posted tr = [(xdr, o)] ∧ (∀ x ∈ tr, isFinalize x.op = false) ∧
      ∀ r, readSubmit o = .ok r → s'.breaker.state = .closed := by
  obtain ⟨tr1, ⟨db1, b1⟩, hr1, hdb1, hclosed1⟩ := runs_preflight hp hw hc hb
  subst hdb1
  obtain ⟨db2, hreserve, hdb2⟩ := serves_tryReserve (p := p) out (fun _ => o) halone b1
  rw [hrow] at hreserve
  obtain rfl := hdb2 row hrow
  obtain ⟨tr2, hr2⟩ := hreserve.runs
  obtain ⟨as, s', ⟨tr3, hr3, hs3⟩, hreq, hdb3, hclosed⟩ := (host out).submit out.client
    (s := ⟨reservedDb s.db row, b1⟩) hclosed1 (answers out _ (.postTransactions xdr) o)
  have hreserved : Runs (system out)
      (ExceptT.run (ExceptT.mk ((tryReserve walletId p.innerHashHex p.maxFee
      p.config.dailyBudgetStroops).run >>= fun r => .ret (fromStore r)))) ⟨s.db, b1⟩ ([] ++ tr2)
      (.ret (.ok row)) ⟨reservedDb s.db row, b1⟩ := hr2.bind .stop
  have hsubmit : Runs (system out) (signAndSubmit out p row).run ⟨reservedDb s.db row, b1⟩
      ([] ++ tr3)
      (.call (finalizeOp row o) (fun _ => .ret (.ok ⟨row.id, (finalStatus (submitVerdict o)).1,
        p.innerHashHex, (finalStatus (submitVerdict o)).2, p.maxFee⟩))) s' := by
    rw [signAndSubmit, hp.signed]
    exact (hr3.bind .stop).bind_left
  have hwhole : Runs (system out) (sponsor out walletId req).run s
      (([] ++ tr3) ++ ([] ++ tr2) ++ tr1) _ s' :=
    hr1.bindE (hreserved.bindE hsubmit)
  -- what the discipline says of a finalisation: it is the first, and one submission is its ground
  have hallowed : Allowed out (.sponsor walletId req) (([] ++ tr3) ++ ([] ++ tr2) ++ tr1 ++ [])
      (finalizeOp row o) := ((discipline out).calls_runs hwhole calls_sponsor (forall_mem_nil _)).1
  obtain ⟨hun, -, hgrounds⟩ := hallowed
  have hpost3 : posted tr3 = [(xdr, o)] := by
    rw [posted_of_sees hs3, hreq]
    rfl
  refine ⟨_, s', hwhole.bind_left, hdb3, ?_, fun x hx => hun x (mem_append_left _ hx), hclosed⟩
  rcases hgrounds with ⟨hnone, -⟩ | ⟨xdr', o', hone, -⟩
  · simp [hpost3] at hnone
  · simp_all

def finalizeAct (row : SponsoredTransaction) (o : HttpOutcome) (s : State) : Act :=
  ⟨finalizeOp row o, .ok (), s, ⟨s.db.finalize row.id (finalStatus (submitVerdict o)).1
    (finalStatus (submitVerdict o)).2 none, s.breaker⟩⟩

theorem runs_finalize (out : Outside) (row : SponsoredTransaction) (o : HttpOutcome) (s : State) :
    Runs (system out) (.call (finalizeOp row o) (fun _ => .ret ())) s [finalizeAct row o s]
      (.ret ()) (finalizeAct row o s).post := by
  have hexec : (system out).exec (finalizeOp row o) (.store (.served 0)) s =
      some (.ok (), (finalizeAct row o s).post) := exec_served (finalizeOp row o) s.breaker rfl
  exact Runs.call _ _ hexec Runs.stop

/-! ### Requests of one account -/

open Crypto

/-- Fee-bumps at the minimum fee, told apart by the number of operations they carry. -/
def exampleFeeBumps : FeeBumps where
  deriveEd25519Secret seed _ := some (seed.take 32)
  envelope _ v1 fee := if fee = minBaseFee then some ("AAAABQ" ++ toString v1.tx.operations.length)
    else none
  feeOf _ := some minBaseFee
  feeOf_envelope := by
    intro secret v1 fee xdr h
    split at h
    · rename_i hfee
      rw [hfee]
    · cases h

def exampleDraw : Draw where
  salt := List.replicate 32 6
  nonce := List.replicate 12 7
  salt_length := rfl
  nonce_length := rfl

def exampleMasterKey : Bytes := List.replicate 32 5

def exampleSeed : Bytes := List.replicate 64 8

/-- The outside of the examples: a server with one master key on the test network. -/
def exampleOutside : Outside where
  strkey := sep23
  xdr := Known.codecOfTwo onePayment twoPayments
  client := ⟨3, fun _ => none⟩
  aead := framed
  feeBumps := exampleFeeBumps
  keys := ⟨exampleMasterKey, none⟩
  network := .testnet

def exampleCiphertext : Bytes :=
  framedHeader (framed.hkdf exampleDraw.salt exampleMasterKey StellarNetwork.testnet.cryptoContext)
    exampleDraw.nonce StellarNetwork.testnet.cryptoContext ++ exampleSeed

def exampleWallet : SealedWallet where
  id := 1
  network := "testnet"
  stellarAccountG := exampleAccountG 4
  gasTankAccountG := none
  sealedCiphertext := some exampleCiphertext
  sealedNonce := some exampleDraw.nonce
  sealedSalt := some exampleDraw.salt
  sealedScheme := some 1
  archivedAt := none

def exampleConfig : GasSponsorshipConfig := ⟨1, true, none, some 100, none⟩

def exampleRequest (e : Known) : SponsorRequest := ⟨some e.text, some 100⟩

def examplePreflight (e : Known) : Preflight :=
  ⟨exampleWallet, exampleConfig, e.text, 100, hexEncode e.hash⟩

def exampleFeeBump (e : Known) : String := "AAAABQ" ++ toString e.envelope.tx.operations.length

theorem exampleSource_differs :
    Withdrawal.sourceMatches sep23 (.ed25519 (exampleKey 1)) (exampleAccountG 4) = false := by
  unfold Withdrawal.sourceMatches exampleAccountG
  rw [sep23_lawful.publicKey_roundTrip _ (exampleKey 4).length_eq]
  decide

theorem signWith_of_found {wallet : SealedWallet} {ciphertext nonce salt : Bytes} {scheme : UInt8}
    {sealed : SealedSeed} {innerXdr : String} {maxFee : Int}
    (hc : wallet.sealedCiphertext = some ciphertext) (hn : wallet.sealedNonce = some nonce)
    (hs : wallet.sealedSalt = some salt) (hscheme : toU8 (wallet.sealedScheme.getD 1) = some scheme)
    (hparts : SealedSeed.fromPartsWithScheme ciphertext nonce salt scheme = .ok sealed)
    (hfound : out.keys.openingKeys.findSome?
      (fun key => signFeeBump out.aead out.xdr out.feeBumps key sealed out.network 0 innerXdr
        maxFee) = some xdr) : signWith out wallet innerXdr maxFee = .signed xdr := by
  unfold signWith
  rw [hc, hn, hs]
  rw [hscheme]
  dsimp only
  rw [hparts]
  dsimp only
  rw [hfound]

theorem example_signed (hk : e.KnownTo exampleOutside.xdr) :
    signWith exampleOutside exampleWallet e.text 100 = .signed (exampleFeeBump e) := by
  let sealed : SealedSeed := ⟨exampleCiphertext, exampleDraw.nonce, exampleDraw.salt, schemeV1,
    exampleDraw.nonce_length, exampleDraw.salt_length⟩
  have hparts : SealedSeed.fromPartsWithScheme exampleCiphertext exampleDraw.nonce exampleDraw.salt
      schemeV1 = .ok sealed := rfl
  have hseal : sealSeed framed exampleDraw exampleMasterKey exampleSeed
      StellarNetwork.testnet.cryptoContext = .ok sealed := rfl
  have hopen : openSeed framed exampleMasterKey sealed StellarNetwork.testnet.cryptoContext =
      .ok exampleSeed := openSeed_of_sealSeed framed_ideal hseal
  have hsecret : derivedSecretFromSealed framed exampleFeeBumps exampleMasterKey sealed .testnet 0 =
      some (exampleSeed.take 32) := by
    unfold derivedSecretFromSealed
    rw [hopen]
    rfl
  have hsign : signFeeBump framed exampleOutside.xdr exampleFeeBumps exampleMasterKey sealed
      .testnet 0 e.text 100 = some (exampleFeeBump e) := by
    unfold signFeeBump
    rw [hk.parseInnerV1, hsecret]
    rfl
  have hfound : exampleOutside.keys.openingKeys.findSome?
      (fun key => signFeeBump framed exampleOutside.xdr
      exampleFeeBumps key sealed .testnet 0 e.text 100) = some (exampleFeeBump e) := by
    show [exampleMasterKey].findSome? _ = _
    rw [findSome?_cons, hsign]
  exact signWith_of_found rfl rfl rfl rfl hparts hfound

theorem example_sponsorable (hk : e.KnownTo exampleOutside.xdr) (hne : e.raw ≠ [])
    (hsrc : e.envelope.tx.sourceAccount = .ed25519 (exampleKey 1)) (hseq : e.envelope.tx.seqNum = 5)
    (hops : ∀ op ∈ e.envelope.tx.operations, ∃ d, op = examplePay d) :
    Sponsorable exampleOutside (exampleRequest e) (examplePreflight e) (exampleFeeBump e) where
  request := by
    have htext : e.text.isEmpty = false := by
      have hlen := e.text_length
      have hpos : 0 < e.raw.length := length_pos_iff.mpr hne
      simp only [String.isEmpty_eq_false_iff]
      rintro h
      rw [h] at hlen
      simp at hlen
      omega
    have hfilter : (some e.text).filter (fun x => !x.isEmpty) = some e.text := by
      simp [htext]
    unfold checkRequest exampleRequest
    rw [hfilter]
    rfl
  active := rfl
  enabled := rfl
  wallet := by
    have hvalid : ∀ ops : List Operation, (∀ op ∈ ops, ∃ d, op = examplePay d) →
        validateOps none ops = .ok () := by
      intro ops
      induction ops with
      | nil => exact fun _ => rfl
      | cons op ops ih =>
        intro h
        obtain ⟨d, rfl⟩ := h _ mem_cons_self
        exact ih (forall_mem_cons.mp h).2
    have hinner : validateInnerXdr sep23 exampleOutside.xdr e.text (exampleAccountG 4) none =
        .ok () := by
      unfold validateInnerXdr
      rw [hk.fromXdrBase64]
      dsimp only
      rw [hsrc, exampleSource_differs]
      exact hvalid _ hops
    show (validateInnerXdr sep23 exampleOutside.xdr e.text (exampleAccountG 4) none >>= _) = _
    rw [hinner]
    rfl
  sequence := by
    have hnumber : exampleOutside.xdr.innerSequenceNumber e.text = some 5 := by
      rw [Xdr.innerSequenceNumber, hk.parseInnerV1, ← hseq]
      rfl
    have hhash : exampleOutside.xdr.computeInnerTxHash e.text = some e.hash := hk.computeInnerTxHash
    simp [checkSequence, hnumber, hhash, examplePreflight]
  signed := example_signed hk

theorem onePayment_sponsorable : Sponsorable exampleOutside (exampleRequest onePayment)
    (examplePreflight onePayment) (exampleFeeBump onePayment) :=
  example_sponsorable (Known.knownTo_codecOfTwo_left _ _) (cons_ne_nil _ _) rfl rfl
    (fun _ hop => ⟨2, mem_singleton.mp hop⟩)

theorem twoPayments_sponsorable : Sponsorable exampleOutside (exampleRequest twoPayments)
    (examplePreflight twoPayments) (exampleFeeBump twoPayments) := by
  refine example_sponsorable (Known.knownTo_codecOfTwo_right onePayment_apart) (cons_ne_nil _ _) rfl
    rfl (fun op hop => ?_)
  rcases mem_cons.mp hop with rfl | hop
  · exact ⟨2, rfl⟩
  · exact ⟨3, mem_singleton.mp hop⟩

def exampleDb : SponsorDb where
  now := 20000 * dayLength
  nextId := 1
  nextSession := 0
  wallets := [exampleWallet]
  configs := [exampleConfig]
  sponsored := []
  sessions := fun _ => none

def exampleState : State := ⟨exampleDb, .new 5 30000000⟩

def exampleRow : SponsoredTransaction := rowOf exampleDb 1 (examplePreflight onePayment)

end Octo.Sponsor
