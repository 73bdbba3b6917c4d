import Octo.Withdrawal.Alone
import Octo.Withdrawal.Rows

/-!
# When the reconciler fails a withdrawal

The reconciler settles a missing transaction as `failed` once a ledger has closed after its time
bound. It looks the transaction up first and reads the newest close time afterwards, so ledgers may
close in between: the close time then says nothing about the lookup.
-/

namespace Octo.Withdrawal

open Conc Octo.Api Resilience List

/-- The network enforces the time bound of the transaction a hash belongs to. -/
def Outside.BoundsEnforced (out : Outside) : Prop :=
  ∀ xdr v1 hash max, out.xdr.fromXdrBase64 xdr = some (.tx v1) → out.txHash xdr = some hash →
    txMaxTime v1.tx.cond = some max → ∃ bound, out.expiry hash = some bound ∧ bound ≤ max

/-! ### The chain -/

/-- Close times increase, and no ledger applies a transaction past its time bound. -/
structure LedgersOk (out : Outside) (ledgers : List Ledger) : Prop where
  increasing : ledgers.Pairwise (fun l l' => l.closeTime < l'.closeTime)
  bounded : ∀ l ∈ ledgers, ∀ hash ok bound, l.results.lookup hash = some ok →
    out.expiry hash = some bound → l.closeTime ≤ bound

variable {out : Outside}

variable {results : List (String × Bool)} {s s' : State} {o : HttpOutcome}

variable {hash : String} {r : TxRecord} {ch : Choice}

theorem mem_of_lookup {ok : Bool} (h : results.lookup hash = some ok) : (hash, ok) ∈ results := by
  obtain ⟨l1, l2, rfl, -⟩ := lookup_eq_some_iff.mp h
  exact mem_append_right _ mem_cons_self

theorem LedgersOk.append {ledgers : List Ledger} {l : Ledger} (h : LedgersOk out ledgers)
    (hl : canClose out ledgers l = true) : LedgersOk out (ledgers ++ [l]) := by
  simp only [canClose, Bool.and_eq_true, all_eq_true, decide_eq_true_eq] at hl
  obtain ⟨⟨⟨-, hlater⟩, -⟩, hresults⟩ := hl
  refine ⟨Rows.pairwise_concat h.increasing hlater, Rows.forall_mem_concat h.bounded ?_⟩
  intro hash ok bound hlook hexp
  have hbound := (hresults _ (mem_of_lookup hlook)).2
  rw [hexp] at hbound
  exact of_decide_eq_true hbound

/-- Close times increase, and no ledger applies a transaction past its time bound. -/
theorem ledgers_reach {c : Conf Job Op Ans State} (h : Reachable (system out) Initial c) :
    LedgersOk out c.world.db.ledgers := by
  refine (discipline out).invariant (I := fun w => LedgersOk out w.db.ledgers) ?_ ?_ ?_ ?_ h
  · intro s hs
    rw [hs.ledgers]
    exact ⟨List.Pairwise.nil, forall_mem_nil _⟩
  · intro w j hI _ _
    exact hI
  · intro w i j o ch a s hI _ _ _ he _
    rcases exec_state he with ⟨b, rfl⟩ | rfl
    · exact hI
    · exact hI
  · intro w e s hI he _
    cases e with
    | closeLedger l =>
      have he' : env out (.closeLedger l) w.db = some s := he
      simp only [env] at he'
      split at he'
      · rename_i hl
        rw [← Option.some.inj he']
        exact hI.append hl
      · cases he'
    | ingestLedger =>
      have he' : env out .ingestLedger w.db = some s := he
      simp only [env] at he'
      split at he'
      · rw [← Option.some.inj he']
        exact hI
      · cases he'
    | tick | otherCheck | otherSuccess | otherFailure | recordDeposit =>
      rw [← Option.some.inj he]; exact hI

theorem lookup_eq_none (h : s.lookup hash = none) :
    ∀ l ∈ s.ingested, l.results.lookup hash = none := by
  intro l hl
  have hl' := findSome?_eq_none_iff.mp h l hl
  exact Option.map_eq_none_iff.mp hl'

theorem lookup_eq_some (h : s.lookup hash = some r) :
    ∃ l ∈ s.ledgers, l.results.lookup hash = some r.successful := by
  obtain ⟨l, hl, hr⟩ := exists_of_findSome?_eq_some h
  obtain ⟨ok, hok, rfl⟩ := Option.map_eq_some_iff.mp hr
  exact ⟨l, mem_of_mem_take hl, hok⟩

/-- A transaction that Horizon does not have when it has ingested a ledger past the time bound is
never applied. -/
theorem never_applied (hok : LedgersOk out s'.ledgers) (hg : Grows s s') {bound close : Int}
    (hexp : out.expiry hash = some bound) (hlt : bound < close) {l0 : Ledger}
    (hlast : s.ingested.getLast? = some l0) (hclose : l0.closeTime = close)
    (hnone : s.lookup hash = none) : ∀ l ∈ s'.ledgers, l.results.lookup hash = none := by
  obtain ⟨more, hmore⟩ := hg.ledgers
  have hsplit : s'.ledgers = s.ingested ++ (s.ledgers.drop s.view ++ more) := by
    rw [← hmore, ← append_assoc]
    exact congrArg (· ++ more) (take_append_drop s.view s.ledgers).symm
  have hinc := hok.increasing
  rw [hsplit] at hinc
  intro l hl
  rw [hsplit] at hl
  rcases mem_append.mp hl with hold | hnew
  · exact lookup_eq_none hnone l hold
  · -- a ledger that Horizon has not ingested closes after the one it has
    have hafter : l0.closeTime < l.closeTime :=
      (pairwise_append.mp hinc).2.2 l0 (mem_of_getLast? hlast) l hnew
    cases hres : l.results.lookup hash with
    | none => rfl
    | some ok =>
      have hbound := hok.bounded l (by rw [hsplit]; exact hl) hash ok bound hres hexp
      omega

/-! ### The two reads -/

theorem exec_lookup
    (h : exec out (.horizon (.request (.getTransaction hash))) ch s = some (o, s')) :
    answersLookup s hash o = true := by
  simp only [exec, execHttp] at h
  split at h
  · split at h
    · rename_i ho
      rw [← (call_inj h).1]
      exact ho
    · cases h
  · cases h

theorem exec_closeTime (h : exec out (.horizon (.request .getLatestLedger)) ch s = some (o, s')) :
    answersCloseTime out.client s o = true := by
  simp only [exec, execHttp] at h
  split at h
  · split at h
    · rename_i ho
      rw [← (call_inj h).1]
      exact ho
    · cases h
  · cases h

theorem mem_of_lastLookup {tr : List Act} (h : lastLookup tr = some (hash, o)) :
    ∃ s s', ⟨.horizon (.request (.getTransaction hash)), o, s, s'⟩ ∈ tr := by
  obtain ⟨x, hx, hs⟩ := mem_filterMap.mp (mem_sent_of_lastLookup h)
  obtain ⟨s, s', rfl⟩ := sent?_eq_some hs
  exact ⟨s, s', hx⟩

/-- No transaction that a lookup missed is seen to have succeeded by the time a close time past its
bound is read. -/
def ReadsInTime (out : Outside) (w : World) : Prop :=
  ∀ i later o s s' before hash o', w.trace i =
      later ++ ⟨.horizon (.request .getLatestLedger), o, s, s'⟩ :: before →
    lastLookup before = some (hash, o') → readLookup o' = .error .notFound →
    ∀ close, out.client.readCloseTime o = .ok close → (∀ bound ∈ out.expiry hash, bound < close) →
    ∀ r, s.lookup hash = some r → r.successful = false

theorem Relayed.bound (hnet : out.BoundsEnforced) {t : Transaction} (h : Relayed out t) {max : Int}
    (hmax : t.metadata.maxTime = some max) :
    ∃ hash bound, t.stellarTxHash = some hash ∧ out.expiry hash = some bound ∧ bound ≤ max := by
  obtain ⟨_, xdr, p, hash, ha, -, hhash, hp⟩ := h
  obtain ⟨v1, hdec, hsum⟩ := validateSignedXdr_ok ha.valid
  obtain ⟨q, -, hq⟩ := Option.map_eq_some_iff.mp hsum.symm
  have hmaxp : txMaxTime v1.tx.cond = some max := by
    rw [← hmax, hp, ← hq]
    rfl
  obtain ⟨bound, hexp, hle⟩ := hnet xdr v1 hash max hdec ha.hash hmaxp
  exact ⟨hash, bound, hhash, hexp, hle⟩

section

variable {c : Conf Job Op Ans State} {i : Nat} {later before : List Act} {x : Act} {hash : String}

theorem applied_of_reported (hc : Reachable (system out) Initial c)
    (htr : c.world.trace i = later ++ x :: before) {o : HttpOutcome}
    (hlast : lastLookup before = some (hash, o)) (hread : readLookup o = .ok r) :
    ∃ l ∈ x.pre.ledgers, l.results.lookup hash = some r.successful := by
  have hch := (discipline out).chained hc
  obtain ⟨s, s', hm⟩ := mem_of_lastLookup hlast
  obtain ⟨ch, he⟩ := exec_of_trace hch (mem_of_before htr hm)
  have hans := exec_lookup he
  rw [answersLookup, hread] at hans
  obtain ⟨l, hl, hres⟩ := lookup_eq_some (beq_iff_eq.mp hans)
  have hgrow := (exec_grows he).trans (hch.between htr hm)
  exact ⟨l, hgrow.ledgers.subset hl, hres⟩

theorem failed_or_never (hc : Reachable (system out) Initial c) (hreads : ReadsInTime out c.world)
    (htr : c.world.trace i = later ++ x :: before) {bound close : Int}
    (hmiss : Missing out before hash close) (hexp : out.expiry hash = some bound)
    (hpast : bound < close) :
    (∃ l ∈ x.pre.ledgers, l.results.lookup hash = some false) ∨
      ∀ l ∈ c.world.db.ledgers, l.results.lookup hash = none := by
  have hch := (discipline out).chained hc
  obtain ⟨later', o, s, s', before', o', rfl, hclose, hlast, hnot⟩ := hmiss
  have hmem : ⟨.horizon (.request .getLatestLedger), o, s, s'⟩ ∈
      later' ++ ⟨.horizon (.request .getLatestLedger), o, s, s'⟩ :: before' :=
    mem_append_right _ mem_cons_self
  have hmem' : ⟨.horizon (.request .getLatestLedger), o, s, s'⟩ ∈ c.world.trace i :=
    mem_of_before htr hmem
  obtain ⟨ch, he⟩ := exec_of_trace hch hmem'
  have hans := exec_closeTime he
  rw [answersCloseTime, hclose, Option.any_eq_true] at hans
  obtain ⟨l0, hl0, hl₀c⟩ := hans
  cases hrec : s.lookup hash with
  | some r =>
    have hpasts : ∀ b ∈ out.expiry hash, b < close := by
      intro b hb
      rw [hexp] at hb
      cases hb
      exact hpast
    have hsucc := hreads i (later ++ x :: later') o s s' before' hash o'
      (by rw [htr, append_assoc]; rfl) hlast hnot close hclose hpasts r hrec
    obtain ⟨l, hl, hres⟩ := lookup_eq_some hrec
    have hgrow := (exec_grows he).trans (hch.between htr hmem)
    rw [hsucc] at hres
    exact .inl ⟨l, hgrow.ledgers.subset hl, hres⟩
  | none =>
    have hafter : Grows s c.world.db := (exec_grows he).trans (hch.below_of_mem hmem')
    exact .inr (never_applied (ledgers_reach hc) hafter hexp hpast hl0 (beq_iff_eq.mp hl₀c) hrec)

end

/-- **A row is failed only on proof**, as long as no transaction lands between the lookup and the
reading of the close time: it was applied and failed, or it is in no ledger at any time. -/
theorem failed_only_on_proof (out : Outside) (hnet : out.BoundsEnforced) {c : Conf Job Op Ans State}
    (hc : Reachable (system out) Initial c) (hreads : ReadsInTime out c.world) :
    ∀ i, ∀ x ∈ c.world.trace i, ∀ row ∈ x.pre.db.transactions, ∀ ledger reason,
      x.op = .settlePendingWithdrawal row.id .failed ledger reason → row.metadata.maxTime ≠ none →
      ∃ hash, row.stellarTxHash = some hash ∧
        ((∃ l ∈ x.pre.ledgers, l.results.lookup hash = some false) ∨
          ∀ l ∈ c.world.db.ledgers, l.results.lookup hash = none) := by
  intro i x hx row hrow ledger reason hop hmax
  have hrows := (rows_of_trace (fun _ h => h) hc hx).1
  obtain ⟨j, hj⟩ := reach_job_of_trace hc hx
  obtain ⟨later, before, htr⟩ := List.append_of_mem hx
  have hallowed := (discipline out).allowed hc hj htr
  rw [hop] at hallowed
  cases j with
  | relay => exact hallowed.elim
  | reconcile =>
    obtain ⟨row0, hlisted, hid, hjudged⟩ := hallowed
    -- the row the sweep was given is the one it settles
    obtain ⟨hdir, t, ht, hstep⟩ := listed_row hc htr hlisted
    have hsame : t = row := hrows.eq_of_id ht hrow (hstep.id.trans hid)
    subst hsame
    obtain ⟨max, hmax⟩ := Option.ne_none_iff_exists'.mp hmax
    have hrel := hrows.relayed t ht (hstep.direction.trans hdir)
    obtain ⟨hash, bound, hhash, hexp, hle⟩ := hrel.bound hnet hmax
    refine ⟨hash, hhash, ?_⟩
    rw [hstep.hash] at hhash
    rw [hstep.maxTime] at hmax
    cases hjudged with
    | noHash hnone =>
      rw [hhash] at hnone
      cases hnone
    | abandoned hnone =>
      rw [hmax] at hnone
      cases hnone
    | onChain hh hasked hread =>
      rw [hhash] at hh
      cases hh
      exact .inl (applied_of_reported hc htr (lastLookup_of_asked hasked) hread)
    | expired hh hm _ hmiss =>
      rw [hhash] at hh
      cases hh
      rw [hmax] at hm
      cases hm
      exact failed_or_never hc hreads htr hmiss hexp (by omega)

/-! ### A payment that lands between the two reads -/

/-- The test network of the examples: `onePayment` may be applied up to its time bound, and the
close times of two ledgers are known. -/
def exampleNet : Outside where
  strkey := sep23
  xdr := onePayment.codec
  client := ⟨3, fun text =>
    [("2025-12-31T23:59:58Z", 1767225598), ("2026-01-01T00:00:04Z", 1767225604)].lookup text⟩
  expiry := fun hash => if hash = hexEncode onePayment.hash then some 1767225600 else none

theorem exampleNet_expiry : exampleNet.expiry (hexEncode onePayment.hash) = some 1767225600 := by
  simp [exampleNet]

theorem exampleNet_boundsEnforced : exampleNet.BoundsEnforced := by
  intro xdr v1 hash max hdec hhash hmax
  obtain ⟨rfl, henv⟩ := onePayment.fromXdrBase64_eq_some hdec
  cases henv
  have hhash' : exampleNet.txHash onePayment.text = some (hexEncode onePayment.hash) := by
    show (onePayment.codec.computeInnerTxHash onePayment.text).map hexEncode = _
    rw [Known.computeInnerTxHash]
    rfl
  rw [hhash'] at hhash
  cases hhash
  exact ⟨1767225600, exampleNet_expiry, Int.le_of_eq (Option.some.inj hmax)⟩

def lastLedger (results : List (String × Bool)) : Ledger :=
  ⟨100, "2025-12-31T23:59:58Z", 1767225598, results⟩

def nextLedger : Ledger := ⟨101, "2026-01-01T00:00:04Z", 1767225604, []⟩

def nextLedgerPage : HttpOutcome :=
  .answer 200 (some (.obj [("_embedded", .obj [("records", .arr [.obj
    [("closed_at", .str "2026-01-01T00:00:04Z")]])])]))

theorem isStalePendingList_singleton {db : Db} {row : Transaction} {olderThan limit : Nat}
    (hrows : db.transactions = [row]) (hstale : db.isStalePendingWithdrawal olderThan row = true)
    (hlimit : 1 ≤ limit) : db.isStalePendingList olderThan limit [row] = true := by
  simp [Db.isStalePendingList, hrows, hstale, hlimit]

theorem drifts_two (hl : s.ledgers = []) (hv : s.view = 0)
    (hres : results = [] ∨ results = [(hexEncode onePayment.hash, true)]) :
    Drifts (system exampleNet) s
      { s with ledgers := [lastLedger results, nextLedger], view := 2 } := by
  have hclose : canClose exampleNet [] (lastLedger results) = true := by
    rcases hres with rfl | rfl
    · rfl
    · rfl
  refine .head (b := { s with ledgers := [lastLedger results] })
    ⟨.closeLedger (lastLedger results), ?_⟩ ?_
  · show (if canClose exampleNet s.ledgers (lastLedger results) then some _ else none) = _
    rw [hl, if_pos hclose]
    rfl
  refine .head (b := { s with ledgers := [lastLedger results, nextLedger] })
    ⟨.closeLedger nextLedger, ?_⟩ ?_
  · show (if canClose exampleNet [lastLedger results] nextLedger then some _ else none) = _
    rfl
  refine .head (b := { s with ledgers := [lastLedger results, nextLedger], view := 1 })
    ⟨.ingestLedger, ?_⟩ ?_
  · rw [hv]
    rfl
  exact .single ⟨.ingestLedger, rfl⟩

theorem exists_pendingRow : ∃ c row, Reachable (system exampleNet) Initial c ∧
    c.world.jobs = [.relay exampleWallet onePayment.text] ∧ c.world.db.db.transactions = [row] ∧
    c.world.db.db.now = 0 ∧ c.world.db.breaker.state = .closed ∧ c.world.db.ledgers = [] ∧
    c.world.db.view = 0 ∧ row.direction = .withdrawal ∧ row.status = .pending ∧ row.createdAt = 0 ∧
    row.stellarTxHash = some (hexEncode onePayment.hash) ∧
    row.metadata.maxTime = some 1767225600 := by
  obtain ⟨p, ha, hpos, hmax⟩ := onePayment_accepted
  have ha' : Accepted exampleNet exampleWallet onePayment.text (some p) _ := ⟨ha.valid, ha.hash⟩
  obtain ⟨tr, _, hr⟩ := runs_pending (s := State.start ⟨[], []⟩) ha'
    (fun _ _ h => Bool.noConfusion h)
  have pool : ∃ c, Reachable (system exampleNet) Initial c ∧
      c.world.jobs = [.relay exampleWallet onePayment.text] ∧ c.world.db = _ ∧
      c.world.trace 0 = tr :=
    exists_reachable_of_runs (State.start_initial _) rfl hr
  obtain ⟨c, hc, hjobs, hdb, -⟩ := pool
  have hrec : ((State.start ⟨[], []⟩).db.recordWithdrawalTransaction
      (withdrawalOf exampleWallet p (hexEncode onePayment.hash) .pending none)).2 = _ :=
    Db.recordWithdrawal_of_empty rfl hpos
  refine ⟨c, (State.start ⟨[], []⟩).db.withdrawalRow
    (withdrawalOf exampleWallet p (hexEncode onePayment.hash) .pending none), hc, hjobs, ?_⟩
  rw [hdb]
  refine ⟨?_, ?_, rfl, rfl, rfl, rfl, rfl, rfl, rfl, hmax⟩
  · exact congrArg Db.transactions hrec
  · exact congrArg Db.now hrec

theorem exampleHash_hex : (hexEncode onePayment.hash).toList.length = 64 ∧
    (hexEncode onePayment.hash).toList.all isAsciiHexdigit = true := by
  decide

theorem runs_resolve_expired {row : Transaction} {s2 : State}
    (hhash : row.stellarTxHash = some (hexEncode onePayment.hash))
    (hmax : row.metadata.maxTime = some 1767225600) (hb : s.breaker.state = .closed)
    (hnone : s.lookup (hexEncode onePayment.hash) = none) (hd : Drifts (system exampleNet) s s2)
    (hb2 : s2.breaker.state = .closed)
    (hans : answersCloseTime exampleNet.client s2 nextLedgerPage = true) :
    ∃ tr reason, Runs (system exampleNet) (resolve exampleNet .default row) s tr
      (.ret (.failed reason)) { s2 with breaker := s2.breaker.onSuccess } := by
  have hmissing : (system exampleNet).exec
      (.horizon (.request (.getTransaction (hexEncode onePayment.hash))))
      (.http (.answer 404 none)) s = some (.answer 404 none, s) := by
    show (if answersLookup s (hexEncode onePayment.hash) (.answer 404 none) then _ else _) = _
    rw [if_pos (by simp [answersLookup, readLookup, hnone])]
  have hpage : (system exampleNet).exec (.horizon (.request .getLatestLedger))
      (.http nextLedgerPage) s2 = some (nextLedgerPage, s2) := by
    show (if answersCloseTime exampleNet.client s2 nextLedgerPage then _ else _) = _
    rw [if_pos hans]
  have hlookup : ∃ tr, Runs (system exampleNet) (horizon (exampleNet.client.transactionByHash
      (hexEncode onePayment.hash))) s tr (.ret (.ok .notFound)) s := by
    unfold HorizonClient.transactionByHash
    rw [if_neg (by simp [exampleHash_hex])]
    exact ⟨_, Runs.call (.clock 0) true (exec_check _ hb) (by exact .call _ _ hmissing .stop)⟩
  have hclose : ∃ tr, Runs (system exampleNet) (horizon exampleNet.client.latestLedgerCloseTime)
      s2 tr (.ret (.ok 1767225604)) { s2 with breaker := s2.breaker.onSuccess } :=
    ⟨_, Runs.call (.clock 0) true (exec_check _ hb2)
      (by exact .call _ _ hpage (.call (.clock 0) () rfl .stop))⟩
  obtain ⟨tr1, h1⟩ := hlookup
  obtain ⟨tr2, h2⟩ := hclose
  have hnow : (system exampleNet).exec .utcNow (.clock 0)
      { s2 with breaker := s2.breaker.onSuccess } =
      some (0, { s2 with breaker := s2.breaker.onSuccess }) := rfl
  unfold resolve
  rw [hhash, hmax]
  exact ⟨_, _, h1.bind (Runs.after hd (Runs.bind (h2.bind .stop) (runs_perform hnow .stop)))⟩

/-- A sweep that reads the close time of `nextLedger` after it missed `onePayment`, whatever
`lastLedger` applied in between. -/
theorem exists_sweep (hres : results = [] ∨ results = [(hexEncode onePayment.hash, true)]) :
    ∃ c, Reachable (system exampleNet) Initial c ∧
      c.world.db.ledgers = [lastLedger results, nextLedger] ∧
      ∃ x ∈ c.world.trace 1, ∃ row ∈ x.pre.db.transactions, ∃ reason,
        x.op = .settlePendingWithdrawal row.id .failed none reason ∧ row.status = .pending ∧
        row.metadata.maxTime = some 1767225600 ∧
        row.stellarTxHash = some (hexEncode onePayment.hash) ∧
        x.pre.ledgers = [lastLedger results, nextLedger] ∧
        ∃ row' ∈ c.world.db.db.transactions, row'.id = row.id ∧ row'.status = .failed := by
  obtain ⟨c, row, hc, hjobs, hrows, hnow, hb, hl, hv, hdir, hst, hcr, hhash, hmax⟩ :=
    exists_pendingRow
  -- long enough for the row to be stale
  let s : State := { c.world.db with
    db := { c.world.db.db with now := c.world.db.db.now + 200000000 } }
  have hstale : s.db.isStalePendingWithdrawal 120000000 row = true := by
    simp [s, Db.isStalePendingWithdrawal, hdir, hst, hcr, hnow]
  have hlist : s.db.isStalePendingList 120000000 100 [row] = true :=
    isStalePendingList_singleton hrows hstale (by decide)
  have hnone : s.lookup (hexEncode onePayment.hash) = none := by
    simp [s, State.lookup, State.ingested, hl]
  have htick : Reachable (system exampleNet) Initial ⟨c.world.setDb s, c.threads⟩ :=
    .step hc (.env (.tick 200000000) s rfl) trivial
  obtain ⟨_, reason, hresolve⟩ :=
    runs_resolve_expired (s := s) hhash hmax hb hnone (drifts_two hl hv hres) hb rfl
  obtain ⟨tr, hr, hx⟩ := runs_sweep .default hlist hresolve
  obtain ⟨c', hc', -, hdb', htr', -⟩ := start_runs htick rfl hr
  have hone : (c.world.setDb s).jobs.length = 1 := by
    rw [World.setDb_jobs, hjobs]
    rfl
  rw [hone] at htr'
  refine ⟨c', hc', by rw [hdb']; rfl, _, by rw [htr']; exact hx, row, ?_, some reason, rfl, hst,
    hmax, hhash, rfl, row.settled .failed none (some reason), ?_, rfl, rfl⟩
  · show row ∈ c.world.db.db.transactions
    rw [hrows]
    exact mem_singleton_self _
  · rw [hdb']
    refine Db.mem_updateTransactions.mpr ⟨row, ?_, ?_⟩
    · show row ∈ c.world.db.db.transactions
      rw [hrows]
      exact mem_singleton_self _
    · rw [if_pos (by simp [Db.isPendingWithdrawal, hdir, hst])]

/-- **A payment that landed is failed**: `lastLedger` applies `onePayment` between the lookup and
the reading of the close time, and the sweep fails its row. -/
theorem landed_payment_failed : ∃ c, Reachable (system exampleNet) Initial c ∧
    ∃ x ∈ c.world.trace 1, ∃ row ∈ x.pre.db.transactions, ∃ reason,
      x.op = .settlePendingWithdrawal row.id .failed none reason ∧ row.status = .pending ∧
      row.metadata.maxTime = some 1767225600 ∧
      row.stellarTxHash = some (hexEncode onePayment.hash) ∧
      (∃ l ∈ x.pre.ledgers, l.results.lookup (hexEncode onePayment.hash) = some true) ∧
      (∀ l ∈ x.pre.ledgers, l.results.lookup (hexEncode onePayment.hash) ≠ some false) ∧
      ∃ row' ∈ c.world.db.db.transactions, row'.id = row.id ∧ row'.status = .failed := by
  obtain ⟨c, hc, -, x, hx, row, hrow, reason, hop, hst, hmax, hhash, hl, hfailed⟩ :=
    exists_sweep (.inr rfl)
  refine ⟨c, hc, x, hx, row, hrow, reason, hop, hst, hmax, hhash, ?_, ?_, hfailed⟩
  · rw [hl]
    exact ⟨_, List.mem_cons_self, by simp [lastLedger]⟩
  · rw [hl]
    simp [lastLedger, nextLedger]

theorem readsInTime_of_empty {c : Conf Job Op Ans State} (hc : Reachable (system out) Initial c)
    (h : ∀ l ∈ c.world.db.ledgers, l.results = []) : ReadsInTime out c.world := by
  intro i later o s s' before hash o' htr _ _ close _ _ r hr
  have hm : ⟨.horizon (.request .getLatestLedger), o, s, s'⟩ ∈ c.world.trace i := mem_of_split htr
  have hch := (discipline out).chained hc
  obtain ⟨ch, he⟩ := exec_of_trace hch hm
  have hgrow : Grows s c.world.db := (exec_grows he).trans (hch.below_of_mem hm)
  obtain ⟨l, hl, hres⟩ := lookup_eq_some hr
  rw [h l (hgrow.ledgers.subset hl)] at hres
  cases hres

/-- A payment that never lands is failed on proof. -/
theorem missing_payment_failed_on_proof : exampleNet.BoundsEnforced ∧
    ∃ c, Reachable (system exampleNet) Initial c ∧ ReadsInTime exampleNet c.world ∧
      ∃ x ∈ c.world.trace 1, ∃ row ∈ x.pre.db.transactions, ∃ reason,
        x.op = .settlePendingWithdrawal row.id .failed none reason ∧ row.metadata.maxTime ≠ none ∧
        ∃ hash, row.stellarTxHash = some hash ∧
          ((∃ l ∈ x.pre.ledgers, l.results.lookup hash = some false) ∨
            ∀ l ∈ c.world.db.ledgers, l.results.lookup hash = none) := by
  obtain ⟨c, hc, hl, x, hx, row, hrow, reason, hop, -, hmax, -⟩ := exists_sweep (.inl rfl)
  have hreads : ReadsInTime exampleNet c.world := by
    refine readsInTime_of_empty hc ?_
    rw [hl]
    simp [lastLedger, nextLedger]
  have hbound : row.metadata.maxTime ≠ none := by
    rw [hmax]
    exact Option.some_ne_none _
  refine ⟨exampleNet_boundsEnforced, c, hc, hreads, x, hx, row, hrow, reason, hop, hbound, ?_⟩
  exact failed_only_on_proof exampleNet exampleNet_boundsEnforced hc hreads 1 x hx row hrow none
    reason hop hbound

end Octo.Withdrawal
