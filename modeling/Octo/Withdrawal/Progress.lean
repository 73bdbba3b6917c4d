import Octo.Batch.Queue
import Octo.Withdrawal.Alone

/-!
# How long the reconciler takes

One sweep after the other over the rows left `pending`, with nothing else going on: no row is added,
every call of the store works, and Horizon has one fixed answer to each request.  Time goes by
between the sweeps.  The answers may be errors, but not those that are retried and that the breaker
counts (`Answered`): so the breaker, closed at the start, stays closed.

Each sweep reads the `batch` oldest rows and leaves those on which it has to wait where they are, so
they are read again by the next one (`Batch.sweep`).
-/

namespace Octo.Withdrawal.Progress

open Conc Octo.Api Resilience Prog List

/-! ### Fixed answers -/

/-- The database, and the breaker of the Horizon client. -/
structure Service where
  db : Db
  breaker : Breaker

section

variable (http : Request → HttpOutcome)

/-- The breaker's own calls, as in `execHttp`; every request has its answer. -/
def answer : (c : HttpCall) → Service → HttpCall.Ans c × Service
  | .check, s => ((s.breaker.check s.db.now).1, { s with breaker := (s.breaker.check s.db.now).2 })
  | .onSuccess, s => ((), { s with breaker := s.breaker.onSuccess })
  | .onFailure, s => ((), { s with breaker := s.breaker.onFailure s.db.now })
  | .sleep _, s => ((), s)
  | .request r, s => (http r, s)

/-- No lookup, and no read of the close time, ends in a transport error or a 5xx. -/
structure Answered (hz : HorizonClient) : Prop where
  lookup : ∀ hash, readLookup (http (.getTransaction hash)) ≠ .error .transport
  close : hz.readCloseTime (http .getLatestLedger) ≠ .error .transport

variable {http} {db : Db} {threshold timeout : Nat}

/-- **A read is told its fixed answer**, at the first attempt, and leaves the breaker as it is. -/
theorem call_answered {T : Type} {r : Request} {read : HttpOutcome → Except FetchError T}
    (h : read (http r) ≠ .error .transport) (hz : HorizonClient) :
    (hz.call .readOnly r read).Yields (fun c _ s => answer http c s)
      ⟨db, .new threshold timeout⟩ ((read (http r)).mapError .exhausted)
      ⟨db, .new threshold timeout⟩ := by
  have honce : ∀ next, (tryOnce FetchError.isRetriable (fetch r read) next).Yields
      (fun c _ s => answer http c s) ⟨db, .new threshold timeout⟩
      ((read (http r)).mapError .exhausted) ⟨db, .new threshold timeout⟩ := by
    intro next
    refine yields_call (fun n => rfl) (Prog.Yields.bind (yields_ret (read (http r)) _) ?_)
    cases hd : read (http r) with
    | ok => exact yields_call (fun n => rfl) (yields_ret _ _)
    | error e =>
      cases e with
      | transport => exact absurd hd h
      | _ => exact yields_ret _ _
  refine yields_call (fun _ => rfl) ?_
  show Prog.Yields _ (attempts _ _ _ _) _ _ _
  cases (if CallKind.readOnly = .submit then 1 else max hz.maxAttempts 1) - 1 with
  | zero => exact honce _
  | succ => exact honce _

end

section

variable (out : Outside) (http : Request → HttpOutcome)

def lookupTold (hash : String) : Except ApiError TxLookup :=
  if hash.toList.length ≠ 64 || !hash.toList.all isAsciiHexdigit then
    .error (.badRequest "transaction hash is malformed")
  else
    match readLookup (http (.getTransaction hash)) with
    | .ok r => .ok (.found r.successful r.ledger)
    | .error .notFound => .ok .notFound
    | .error _ => .error .internal

def closeTold (lookup : TxLookup) (maxTime : Option Int) : Option Int :=
  match lookup, maxTime with
  | .notFound, some _ => (out.client.readCloseTime (http .getLatestLedger)).toOption
  | _, _ => none

def verdict (cfg : ReconcilerConfig) (t : Time) (row : Transaction) : RowVerdict :=
  match row.stellarTxHash with
  | none => .failed "no transaction hash recorded"
  | some hash =>
    match lookupTold http hash with
    | .error _ => .wait
    | .ok lookup =>
      decideRow lookup row.metadata.maxTime (closeTold out http lookup row.metadata.maxTime)
        (t - row.createdAt) cfg.abandonAfter

/-- The oldest rows that are pending and past the grace period; rows of one age are listed in the
order of `order`. -/
def listed (order : List Transaction) (db : Db) (olderThan limit : Nat) : List Transaction :=
  (order.filter (fun r =>
    db.transactions.contains r && db.isStalePendingWithdrawal olderThan r)).take limit

/-- The calls of the reconciler, served. -/
def serve (order : List Transaction) (t : Time) : (o : Op) → Nat → Service → Ans o × Service
  | .utcNow, _, s => (t, s)
  | .horizon c, _, s => answer http c s
  | .listStalePendingWithdrawals olderThan limit, _, s =>
    (.ok (listed order s.db olderThan limit), s)
  | .settlePendingWithdrawal id status ledger reason, _, s =>
    let r := s.db.settlePendingWithdrawal id status ledger reason
    (.ok r.1, { s with db := r.2 })
  -- the reconciler makes no other call
  | .getWithdrawalAllowlistConfig _, _, s => (.error .database, s)
  | .isAddressWhitelisted .., _, s => (.error .database, s)
  | .recordWithdrawalTransaction _, _, s => (.error .database, s)

/-- One sweep at time `t`: what it returns, and the database and the breaker after it. -/
def sweep (cfg : ReconcilerConfig) (order : List Transaction) (t : Time) (s : Service) :
    Except StoreError Stats × Service :=
  let r := (reconcileOnce out cfg).run.runWith (serve http order t) 0
    { s with db := { s.db with now := t } }
  (r.1, r.2.2)

def sweeps (cfg : ReconcilerConfig) (order : List Transaction) (times : Nat → Time) :
    Nat → Service → Service
  | 0, s => s
  | k + 1, s => (sweep out http cfg order (times k) (sweeps cfg order times k s)).2

def Settled (db : Db) (row : Transaction) : Prop :=
  ∃ t ∈ db.transactions, t.id = row.id ∧ t.status ≠ .pending

/-- `order` are the pending withdrawals, oldest first, and all are past the grace period at time
`t`. -/
structure Queue (cfg : ReconcilerConfig) (t : Time) (db : Db) (order : List Transaction) :
    Prop where
  ids : (db.transactions.map (·.id)).Nodup
  nodup : order.Nodup
  mem : ∀ r, r ∈ order ↔ r ∈ db.transactions ∧ r.direction = .withdrawal ∧ r.status = .pending
  oldestFirst : order.Pairwise (fun r r' => r.createdAt ≤ r'.createdAt)
  stale : ∀ r ∈ order, r.createdAt + cfg.grace < t

/-! ### One sweep -/

variable {out http} {cfg : ReconcilerConfig} {order : List Transaction} {t : Time} {db : Db}
  {threshold timeout : Nat}

section

variable (ha : Answered http out.client)
include ha

theorem lookup_yields (hash : String) : (horizon (out.client.transactionByHash hash)).Yields
    (serve http order t) ⟨db, .new threshold timeout⟩ (lookupTold http hash)
    ⟨db, .new threshold timeout⟩ := by
  refine Prog.Yields.embed _ _ ?_
  unfold HorizonClient.transactionByHash lookupTold
  split
  · exact yields_ret _ _
  · refine (call_answered (ha.lookup hash) out.client).bind ?_
    cases readLookup (http (.getTransaction hash)) with
    | ok => exact yields_ret _ _
    | error e => cases e <;> exact yields_ret _ _

theorem close_yields (lookup : TxLookup) (maxTime : Option Int) :
    (readLedgerClose out lookup maxTime).Yields (serve http order t) ⟨db, .new threshold timeout⟩
      (closeTold out http lookup maxTime) ⟨db, .new threshold timeout⟩ := by
  cases lookup with
  | found => exact yields_ret _ _
  | notFound =>
    cases maxTime with
    | none => exact yields_ret _ _
    | some =>
      have hread : (horizon out.client.latestLedgerCloseTime).Yields (serve http order t)
          ⟨db, .new threshold timeout⟩
          (mapResult ((out.client.readCloseTime (http .getLatestLedger)).mapError .exhausted))
          ⟨db, .new threshold timeout⟩ := by
        refine Prog.Yields.embed _ _ ?_
        exact (call_answered ha.close out.client).bind (yields_ret _ _)
      refine hread.bind ?_
      rw [closeTold]
      cases out.client.readCloseTime (http .getLatestLedger) with
      | ok => exact yields_ret _ _
      | error e => cases e <;> exact yields_ret _ _

/-- **A row is judged by its answers.** -/
theorem resolve_yields (row : Transaction) : (resolve out cfg row).Yields (serve http order t)
    ⟨db, .new threshold timeout⟩ (verdict out http cfg t row) ⟨db, .new threshold timeout⟩ := by
  unfold resolve verdict
  cases row.stellarTxHash with
  | none => exact yields_ret _ _
  | some hash =>
    dsimp only
    refine (lookup_yields ha hash).bind ?_
    cases lookupTold http hash with
    | error => exact yields_ret _ _
    | ok lookup =>
      exact (close_yields ha lookup _).bind (yields_call (fun n => rfl) (yields_ret _ _))

end

def settleAs (v : RowVerdict) (id : Uuid) (db : Db) : Db :=
  match v with
  | .confirmed ledger => (db.settlePendingWithdrawal id .confirmed ledger none).2
  | .failed reason => (db.settlePendingWithdrawal id .failed none (some reason)).2
  | .wait => db

theorem settleRow_yields (row : Transaction) (status : TxStatus) (ledger : Option Int)
    (reason : Option String) (stats : Stats) (b : Breaker) :
    ∃ stats', (settleRow row status ledger reason stats).run.Yields (serve http order t) ⟨db, b⟩
      (.ok stats') ⟨(db.settlePendingWithdrawal row.id status ledger reason).2, b⟩ := by
  generalize hr : db.settlePendingWithdrawal row.id status ledger reason = r
  obtain ⟨done, db'⟩ := r
  have hserve : ∀ n, serve http order t (.settlePendingWithdrawal row.id status ledger reason) n
      ⟨db, b⟩ = (.ok done, ⟨db', b⟩) := by
    intro n
    rw [serve, hr]
  cases done with
  | false => exact ⟨stats, yields_call hserve (yields_ret _ _)⟩
  | true =>
    by_cases hst : status = .confirmed
    · refine ⟨{ stats with confirmed := stats.confirmed + 1 }, yields_call hserve ?_⟩
      simp only [hst, id, ret_bind, if_true]
      exact yields_ret _ _
    · refine ⟨{ stats with failed := stats.failed + 1 }, yields_call hserve ?_⟩
      simp only [hst, id, ret_bind, if_false]
      exact yields_ret _ _

variable (out http cfg order) in
/-- What a sweep makes of the database: it reads the first rows of the queue that are stale, and
judges each. -/
def judged (t : Time) (db : Db) : Db :=
  (listed order { db with now := t } cfg.grace cfg.batch).foldl
    (fun db row => settleAs (verdict out http cfg t row) row.id db) { db with now := t }

variable (out http cfg order) in
def judgedBy (times : Nat → Time) : Nat → Db → Db
  | 0, db => db
  | k + 1, db => judged out http cfg order (times k) (judgedBy times k db)

section

variable (ha : Answered http out.client)
include ha

theorem reconcileRow_yields (row : Transaction) (stats : Stats) :
    ∃ stats', (reconcileRow out cfg row stats).run.Yields (serve http order t)
      ⟨db, .new threshold timeout⟩ (.ok stats')
      ⟨settleAs (verdict out http cfg t row) row.id db, .new threshold timeout⟩ := by
  have hresolve : ((liftM (resolve out cfg row) : ReconcileM RowVerdict)).run.Yields
      (serve http order t) ⟨db, .new threshold timeout⟩ (.ok (verdict out http cfg t row))
      ⟨db, .new threshold timeout⟩ := (resolve_yields ha row).bind (yields_ret _ _)
  generalize verdict out http cfg t row = v at hresolve
  cases v with
  | confirmed ledger =>
    obtain ⟨stats', h⟩ := settleRow_yields row .confirmed ledger none stats _
    exact ⟨stats', Prog.Yields.bind hresolve h⟩
  | failed reason =>
    obtain ⟨stats', h⟩ := settleRow_yields row .failed none (some reason) stats _
    exact ⟨stats', Prog.Yields.bind hresolve h⟩
  | wait => exact ⟨_, Prog.Yields.bind hresolve (yields_ret _ _)⟩

/-- **A sweep judges the rows it reads, one after the other.** -/
theorem reconcileRows_yields (rows : List Transaction) (stats : Stats) (db : Db) :
    ∃ stats', (reconcileRows out cfg rows stats).run.Yields (serve http order t)
      ⟨db, .new threshold timeout⟩ (.ok stats')
      ⟨rows.foldl (fun db row => settleAs (verdict out http cfg t row) row.id db) db,
        .new threshold timeout⟩ := by
  induction rows generalizing stats db with
  | nil => exact ⟨stats, yields_ret _ _⟩
  | cons row rows ih =>
    obtain ⟨stats1, h1⟩ := reconcileRow_yields ha row stats
    obtain ⟨stats', h'⟩ := ih stats1 _
    exact ⟨stats', Prog.Yields.bind h1 h'⟩

/-- **What a sweep does**: it judges the rows that are listed, and the breaker stays closed. -/
theorem sweep_eq (t : Time) (db : Db) :
    (sweep out http cfg order t ⟨db, .new threshold timeout⟩).2 =
      ⟨judged out http cfg order t db, .new threshold timeout⟩ := by
  obtain ⟨stats, hrows⟩ : ∃ stats, (reconcileRows out cfg
      (listed order { db with now := t } cfg.grace cfg.batch) ⟨0, 0, 0⟩).run.Yields
      (serve http order t) ⟨{ db with now := t }, .new threshold timeout⟩ (.ok stats) _ :=
    reconcileRows_yields ha _ _ _
  have honce : (reconcileOnce out cfg).run.Yields (serve http order t)
      ⟨{ db with now := t }, .new threshold timeout⟩ (.ok stats) _ :=
    yields_call (fun n => rfl) hrows
  obtain ⟨n, hn⟩ := honce 0
  rw [sweep, hn]
  rfl

theorem sweeps_eq (times : Nat → Time) (k : Nat) :
    sweeps out http cfg order times k ⟨db, .new threshold timeout⟩ =
      ⟨judgedBy out http cfg order times k db, .new threshold timeout⟩ := by
  induction k with
  | zero => rfl
  | succ k ih => rw [sweeps, ih, sweep_eq ha, judgedBy]

end

/-! ### What is left of the queue -/

def remaining (order : List Transaction) (db : Db) : List Transaction :=
  order.filter (fun r => db.transactions.contains r)

variable {r : Transaction}

theorem mem_remaining : r ∈ remaining order db ↔ r ∈ order ∧ r ∈ db.transactions := by
  simp [remaining]

theorem mem_settle {id : Uuid} {status : TxStatus} {ledger : Option Int} {reason : Option String}
    (hst : status ≠ .pending) (hr : r.status = .pending) :
    r ∈ (db.settlePendingWithdrawal id status ledger reason).2.transactions ↔
      r ∈ db.transactions ∧ Db.isPendingWithdrawal id r = false := by
  rw [Db.settlePendingWithdrawal, Db.mem_updateTransactions]
  constructor
  · intro h
    obtain ⟨t, ht, he⟩ := h
    by_cases hp : Db.isPendingWithdrawal id t = true
    · rw [if_pos hp] at he
      rw [← he] at hr
      exact absurd hr hst
    · rw [if_neg hp] at he
      rw [← he]
      exact ⟨ht, by simpa using hp⟩
  · intro h
    exact ⟨r, h.1, by rw [if_neg (by simp [h.2])]⟩

theorem mem_settleAs {v : RowVerdict} {id : Uuid} (hr : r.status = .pending) :
    r ∈ (settleAs v id db).transactions ↔
      r ∈ db.transactions ∧ (v ≠ .wait → Db.isPendingWithdrawal id r = false) := by
  cases v with
  | confirmed => simp [settleAs, mem_settle (show TxStatus.confirmed ≠ .pending by simp) hr]
  | failed => simp [settleAs, mem_settle (show TxStatus.failed ≠ .pending by simp) hr]
  | wait => simp [settleAs]

theorem ids_settleAs (v : RowVerdict) (id : Uuid) :
    (settleAs v id db).transactions.map (·.id) = db.transactions.map (·.id) := by
  have hupdate : ∀ p status ledger reason,
      (db.updateTransactions p (Transaction.settled status ledger reason)).transactions.map
      (·.id) = db.transactions.map (·.id) := by
    intro p status ledger reason
    rw [Db.updateTransactions, map_map]
    refine map_congr_left (fun r _ => ?_)
    show (if p r = true then r.settled status ledger reason else r).id = r.id
    split <;> rfl
  cases v with
  | confirmed | failed => exact hupdate _ _ _ _
  | wait => rfl

variable (rows : List Transaction) {V : Transaction → RowVerdict} {row : Transaction}
  {times : Nat → Time} {k : Nat}

theorem mem_judged (hr : r.status = .pending)
    (db : Db) : r ∈ (rows.foldl (fun db row => settleAs (V row) row.id db) db).transactions ↔
      r ∈ db.transactions ∧ ∀ row ∈ rows, V row ≠ .wait →
      Db.isPendingWithdrawal row.id r = false := by
  induction rows generalizing db with
  | nil => simp
  | cons row rows ih => rw [foldl_cons, ih, mem_settleAs hr, and_assoc, forall_mem_cons]

theorem ids_judged (db : Db) :
    (rows.foldl (fun db row => settleAs (V row) row.id db) db).transactions.map (·.id) =
      db.transactions.map (·.id) := by
  induction rows generalizing db with
  | nil => rfl
  | cons row rows ih => rw [foldl_cons, ih, ids_settleAs]

theorem decideRow_wait_of_le {lookup : TxLookup} {maxTime ledgerClose : Option Int}
    {age age' abandonAfter : Nat} (hle : age ≤ age')
    (h : decideRow lookup maxTime ledgerClose age' abandonAfter = .wait) :
    decideRow lookup maxTime ledgerClose age abandonAfter = .wait := by
  cases lookup with
  | found successful => cases successful <;> exact nomatch h
  | notFound =>
    cases maxTime with
    | some => exact h
    | none =>
      simp only [decideRow] at h ⊢
      split at h
      · cases h
      · rw [if_neg (by omega)]

/-- **A row that waits has always waited.** -/
theorem verdict_wait_of_le {t t' : Time} (hle : t ≤ t') (h : verdict out http cfg t' row = .wait) :
    verdict out http cfg t row = .wait := by
  unfold verdict at h ⊢
  cases hhash : row.stellarTxHash with
  | none =>
    rw [hhash] at h
    cases h
  | some hash =>
    rw [hhash] at h
    dsimp only at h ⊢
    cases hl : lookupTold http hash with
    | error => rfl
    | ok =>
      rw [hl] at h
      exact decideRow_wait_of_le (Nat.sub_le_sub_right hle _) h

def waits (out : Outside) (http : Request → HttpOutcome) (cfg : ReconcilerConfig)
    (times : Nat → Time) (k : Nat) (row : Transaction) : Bool :=
  verdict out http cfg (times k) row == .wait

variable {db0 : Db} {t0 : Time}

section

variable (hq : Queue cfg t0 db0 order)
include hq

theorem Queue.eq_of_id {r r' : Transaction} (hr : r ∈ order) (hr' : r' ∈ db0.transactions)
    (h : r.id = r'.id) : r = r' :=
  inj_on_of_nodup_map hq.ids ((hq.mem r).mp hr).1 hr' h

theorem Queue.stale_at (ht : t0 ≤ t) {r : Transaction} (hr : r ∈ order) :
    ({ db with now := t } : Db).isStalePendingWithdrawal cfg.grace r = true := by
  obtain ⟨-, hdir, hst⟩ := (hq.mem r).mp hr
  have hlt : r.createdAt + cfg.grace < t := Nat.lt_of_lt_of_le (hq.stale r hr) ht
  simp [Db.isStalePendingWithdrawal, hdir, hst, hlt]

theorem Queue.listed_eq (ht : t0 ≤ t) (db : Db) (limit : Nat) :
    listed order { db with now := t } cfg.grace limit = (remaining order db).take limit := by
  refine congrArg (take limit) (filter_congr (fun r hr => ?_))
  rw [hq.stale_at ht hr, Bool.and_true]

theorem Queue.nodup_remaining (db : Db) : (remaining order db).Nodup := hq.nodup.filter _

theorem Queue.kept_iff {rows : List Transaction}
    (hrows : ∀ row ∈ rows, row ∈ order) {r : Transaction} (hr : r ∈ order) :
    (∀ row ∈ rows, V row ≠ .wait → Db.isPendingWithdrawal row.id r = false) ↔
    (r ∈ rows → V r = .wait) := by
  obtain ⟨hmem, hdir, hst⟩ := (hq.mem r).mp hr
  have hpending : ∀ id, Db.isPendingWithdrawal id r = false ↔ r.id ≠ id := by
    simp [Db.isPendingWithdrawal, hdir, hst]
  constructor
  · intro h hin
    by_contra hne
    exact (hpending _).mp (h r hin hne) rfl
  · intro h row hrow hne
    rw [hpending]
    intro hid
    have heq : row = r := hq.eq_of_id (hrows row hrow) hmem hid.symm
    rw [heq] at hrow hne
    exact hne (h hrow)

/-- **A sweep of the database is a sweep of the queue.** -/
theorem remaining_judged (ht : t0 ≤ times k) (db : Db) :
    remaining order (judged out http cfg order (times k) db) =
      Batch.sweep cfg.batch (waits out http cfg times) k (remaining order db) := by
  rw [judged, hq.listed_eq ht, Batch.sweep_eq_filter (hq.nodup_remaining db)]
  generalize hread : (remaining order db).take cfg.batch = read
  have hsub : ∀ row ∈ read, row ∈ order := fun row hrow =>
    (mem_remaining.mp (mem_of_mem_take (hread ▸ hrow))).1
  conv_rhs => rw [remaining, filter_filter]
  refine filter_congr (fun r hr => ?_)
  rw [Bool.eq_iff_iff]
  simp only [contains_iff_mem, Bool.and_eq_true, decide_eq_true_eq, waits, beq_iff_eq]
  rw [mem_judged read ((hq.mem r).mp hr).2.2, hq.kept_iff hsub hr, and_comm]

end

theorem remaining_judgedBy (hq : Queue cfg (times 0) db order) (htimes : Monotone times) (k : Nat) :
    remaining order (judgedBy out http cfg order times k db) =
      Batch.sweeps cfg.batch (waits out http cfg times) k order := by
  induction k with
  | zero => exact filter_eq_self.mpr (fun r hr => by simpa [judgedBy] using ((hq.mem r).mp hr).1)
  | succ k ih => rw [judgedBy, remaining_judged hq (htimes (Nat.zero_le k)), ih, Batch.sweeps]

theorem ids_judgedBy (times : Nat → Time) (k : Nat) :
    (judgedBy out http cfg order times k db).transactions.map (·.id) =
      db.transactions.map (·.id) := by
  induction k with
  | zero => rfl
  | succ k ih =>
    rw [judgedBy, judged, ids_judged]
    exact ih

theorem pending_judgedBy {r : Transaction} (hst : r.status = .pending)
    (hr : r ∈ (judgedBy out http cfg order times k db).transactions) : r ∈ db.transactions := by
  induction k with
  | zero => exact hr
  | succ k ih =>
    rw [judgedBy, judged, mem_judged _ hst] at hr
    exact ih hr.1

section

variable (hq : Queue cfg (times 0) db order)
include hq

theorem settled_iff_not_mem (hrow : row ∈ order) :
    Settled (judgedBy out http cfg order times k db) row ↔
      row ∉ (judgedBy out http cfg order times k db).transactions := by
  obtain ⟨hmem, -, hst⟩ := (hq.mem row).mp hrow
  have hids : ((judgedBy out http cfg order times k db).transactions.map (·.id)).Nodup := by
    rw [ids_judgedBy]
    exact hq.ids
  constructor
  · intro h hin
    obtain ⟨r, hr, hid, hne⟩ := h
    rw [inj_on_of_nodup_map hids hr hin hid] at hne
    exact hne hst
  · intro hout
    have hid : row.id ∈ (judgedBy out http cfg order times k db).transactions.map (·.id) := by
      rw [ids_judgedBy]
      exact mem_map_of_mem hmem
    obtain ⟨r, hr, hid⟩ := mem_map.mp hid
    refine ⟨r, hr, hid, fun hpending => hout ?_⟩
    rw [hq.eq_of_id hrow (pending_judgedBy hpending hr) hid.symm]
    exact hr

theorem settled_iff_scanned (ha : Answered http out.client) (htimes : Monotone times) {p : Nat}
    (hrow : order[p]? = some row) (hdecided : verdict out http cfg (times 0) row ≠ .wait)
    (k : Nat) :
    Settled (sweeps out http cfg order times k ⟨db, .new threshold timeout⟩).db row ↔
      p < Batch.scanned cfg.batch (waits out http cfg times) order k := by
  have hin : row ∈ order := mem_of_getElem? hrow
  have hlast : ∀ k x, waits out http cfg times (k + 1) x = true →
      waits out http cfg times k x = true := by
    intro k x h
    simp only [waits, beq_iff_eq] at h ⊢
    exact verdict_wait_of_le (htimes (Nat.le_succ k)) h
  have hmem : row ∈ (judgedBy out http cfg order times k db).transactions ↔
      row ∈ remaining order (judgedBy out http cfg order times k db) := by
    rw [mem_remaining]
    exact (and_iff_right hin).symm
  rw [sweeps_eq ha, settled_iff_not_mem hq hin, hmem, remaining_judgedBy hq htimes,
    Batch.mem_sweeps_iff hlast hq.nodup hrow (by simpa [waits] using hdecided), Nat.not_le]

/-- **Progress of the reconciler**: a row that its answers decide is settled within `⌈n / batch⌉`
sweeps exactly if the sweeps get to it, each going on by the room that the rows leave which were
read before and wait. -/
theorem settled_within_iff (ha : Answered http out.client) (htimes : Monotone times) {p : Nat}
    {row : Transaction} (hrow : order[p]? = some row)
    (hdecided : verdict out http cfg (times 0) row ≠ .wait) :
    Settled (sweeps out http cfg order times ((order.length + cfg.batch - 1) / cfg.batch)
        ⟨db, .new threshold timeout⟩).db row ↔
      p < Batch.scanned cfg.batch (waits out http cfg times) order
        ((order.length + cfg.batch - 1) / cfg.batch) :=
  settled_iff_scanned hq ha htimes hrow hdecided _

end

/-- A pending withdrawal with the hash that consists of `c`s. -/
def exampleRow (id : Uuid) (c : Char) (createdAt : Time) : Transaction where
  id := id
  walletId := 1
  addressId := none
  direction := .withdrawal
  assetCode := "XLM"
  assetIssuer := none
  amountStroops := 5
  sourceAccount := none
  destinationAccount := none
  stellarTxHash := some (String.ofList (List.replicate 64 c))
  operationIndex := none
  horizonOpId := none
  ledger := none
  memoId := none
  status := .pending
  metadata := {}
  createdAt := createdAt

/-- Horizon has the transaction of the younger row, and not that of the older one. -/
def exampleAnswers : Request → HttpOutcome
  | .getTransaction hash =>
    if hash = String.ofList (List.replicate 64 'b') then
      .answer 200 (some (.obj [("successful", .bool true)]))
    else .answer 404 none
  | _ => .answer 404 none

theorem exampleAnswers_answered (hz : HorizonClient) : Answered exampleAnswers hz where
  lookup hash := by
    show readLookup (if _ then _ else _) ≠ _
    split <;> exact nofun
  close := nofun

def exampleOrder : List Transaction := [exampleRow 1 'a' 0, exampleRow 2 'b' 1]

def exampleRows : Db := ⟨10, 3, [], [], exampleOrder, [], [], []⟩

theorem exampleRows_queue (batch : Nat) : Queue ⟨2, 100, batch⟩ 10 exampleRows exampleOrder where
  ids := by decide
  nodup := by decide
  mem r := by
    constructor
    · intro hr
      refine ⟨hr, ?_⟩
      simp only [exampleOrder, mem_cons, not_mem_nil, or_false] at hr
      rcases hr with rfl | rfl
      · exact ⟨rfl, rfl⟩
      · exact ⟨rfl, rfl⟩
    · exact fun hr => hr.1
  oldestFirst := by decide
  stale r hr := by
    simp only [exampleOrder, mem_cons, not_mem_nil, or_false] at hr
    rcases hr with rfl | rfl
    · exact (by decide : 0 + 2 < 10)
    · exact (by decide : 1 + 2 < 10)

/-- The older row waits, and a batch of two reads the younger one as well. -/
theorem example_settled :
    Settled (sweeps (exampleOutside onePayment) exampleAnswers ⟨2, 100, 2⟩ exampleOrder
      (fun _ => 10) 1 ⟨exampleRows, .new 5 30⟩).db (exampleRow 2 'b' 1) :=
  (settled_within_iff (p := 1) (exampleRows_queue 2) (exampleAnswers_answered _)
    (fun _ _ _ => Nat.le_refl _) rfl (by decide)).mpr (by decide)

theorem waiting_row_starves :
    Queue ⟨2, 100, 1⟩ 10 exampleRows exampleOrder ∧
      Answered exampleAnswers (exampleOutside onePayment).client ∧
      exampleOrder[1]? = some (exampleRow 2 'b' 1) ∧
      verdict (exampleOutside onePayment) exampleAnswers ⟨2, 100, 1⟩ 10 (exampleRow 2 'b' 1) =
        .confirmed none ∧
      ¬ Settled (sweeps (exampleOutside onePayment) exampleAnswers ⟨2, 100, 1⟩ exampleOrder
        (fun _ => 10) ((2 + 1 - 1) / 1) ⟨exampleRows, .new 5 30⟩).db (exampleRow 2 'b' 1) := by
  refine ⟨exampleRows_queue 1, exampleAnswers_answered _, rfl, by decide, ?_⟩
  rw [settled_iff_scanned (p := 1) (exampleRows_queue 1) (exampleAnswers_answered _)
    (fun _ _ _ => Nat.le_refl _) rfl (by decide)]
  decide

end

end Octo.Withdrawal.Progress
