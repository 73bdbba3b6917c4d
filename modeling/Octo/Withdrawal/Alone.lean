import Octo.Api.Hosted
import Octo.Withdrawal.Discipline

/-!
# A relay request or a sweep on its own

Executions of one relay request or one sweep with nobody else around, a store that answers and a
closed breaker.  They are what shows that a bad outcome does happen.
-/

namespace Octo.Withdrawal

open Conc Octo.Api Resilience List

variable {out : Outside} {wallet : Wallet} {xdr : String} {s : State}
  {payment : Option PaymentSummary}

def State.start (al : Allowlist) : State where
  db := ⟨0, 0, [], [], [], [], [], []⟩
  allowlist := al
  breaker := .new 5 30000000
  ledgers := []
  view := 0

theorem State.start_initial (al : Allowlist) : Initial (State.start al) := ⟨rfl, rfl, rfl⟩

theorem runs_checkPayment (h : ∀ p, payment = some p → s.allowlist.enabled wallet.id = true →
      ∃ base, out.strkey.toBaseAccount p.destination = some base ∧
        s.allowlist.isAddressWhitelisted wallet.id base = true) :
    ∃ tr, Runs (system out) (checkPayment out wallet.id payment).run s tr (.ret (.ok ())) s ∧
    sent tr = [] := by
  cases payment with
  | none => exact ⟨[], .stop, rfl⟩
  | some p =>
    have hconf : (system out).exec (.getWithdrawalAllowlistConfig wallet.id)
        (.store (.served 0)) s = some (.ok (s.allowlist.config wallet.id), s) := rfl
    by_cases he : (s.allowlist.config wallet.id).any (·.enabled) = true
    · obtain ⟨base, hb, hw⟩ := h p rfl he
      have hlisted : (system out).exec (.isAddressWhitelisted wallet.id base)
          (.store (.served 0)) s = some (.ok true, s) := by rw [← hw]; rfl
      refine ⟨[⟨.isAddressWhitelisted wallet.id base, .ok true, s, s⟩] ++ [_],
        runs_tryCall hconf rfl ?_, rfl⟩
      rw [if_pos he, hb]
      exact runs_tryCall hlisted rfl .stop
    · refine ⟨[] ++ [_], runs_tryCall hconf rfl ?_, rfl⟩
      rw [if_neg he]
      exact .stop

theorem exec_check (out : Outside) (hb : s.breaker.state = .closed) :
    (system out).exec (.horizon .check) (.clock 0) s = some (true, s) := by
  show some ((s.breaker.check s.db.now).1, { s with breaker := (s.breaker.check s.db.now).2 }) = _
  rw [show s.breaker.check s.db.now = (true, s.breaker) by rw [Breaker.check, hb]]

theorem host (out : Outside) : Host (system out) Op.horizon (fun _ a => a)
    (fun s => s.breaker.state = .closed) (fun s s' => s'.db = s.db) where
  refl := fun _ => rfl
  trans := fun h1 h2 => h2.trans h1
  check := fun _ hc => ⟨.clock 0, true, exec_check out hc, rfl⟩
  recheck := fun _ => ⟨.clock 0, _, _, rfl, rfl⟩
  onSuccess := fun _ => ⟨.clock 0, _, _, rfl, rfl, rfl⟩
  onFailure := fun _ => ⟨.clock 0, _, _, rfl, rfl⟩

theorem runs_submit (out : Outside) (xdr : String) (hb : s.breaker.state = .closed)
    (o : HttpOutcome) :
    ∃ tr s', Runs (system out) (horizon (out.client.submitTransaction xdr)) s tr
      (.ret (submitVerdict o)) s' ∧ s'.db = s.db ∧ sent tr = [(.postTransactions xdr, o)] ∧
      (∀ z ∈ tr, isStore z.op = false) ∧ ∀ r, readSubmit o = .ok r →
      s'.breaker.state = .closed := by
  have hans : Answers (system out) Op.horizon (fun _ a => a) s (.postTransactions xdr) o :=
    ⟨.http o, o, rfl, rfl⟩
  obtain ⟨as, s', ⟨tr, hr, hs⟩, hreq, hdb, hclosed⟩ := (host out).submit out.client hb hans
  refine ⟨tr, s', hr, hdb, ?_, isStore_of_sees hs, hclosed⟩
  rw [sent_of_sees hs, hreq]
  rfl

def recordAct (new : NewWithdrawalTransaction) (s : State) : Act :=
  ⟨.recordWithdrawalTransaction new, (s.db.recordWithdrawalTransaction new).1, s,
    { s with db := (s.db.recordWithdrawalTransaction new).2 }⟩

theorem runs_recordWithdrawal (p : PaymentSummary) (hash : String) (status : TxStatus)
    (ledger : Option Int) (s : State) :
    Runs (system out) (recordWithdrawal wallet p hash status ledger) s
      [recordAct (withdrawalOf wallet p hash status ledger) s] (.ret ())
      (recordAct (withdrawalOf wallet p hash status ledger) s).post := by
  exact .call (.store (.served 0)) _ rfl .stop

variable {hash : String} {row : Transaction} {s2 : State}

/-- **An accepted request can be carried through on any outcome of its submission.**  A verdict is
recorded right after it, on the row as the pending write left it. -/
theorem exists_relay (ha : Accepted out wallet xdr payment hash) (hb : s.breaker.state = .closed)
    (hc : ∀ p, payment = some p → s.allowlist.enabled wallet.id = true →
      ∃ base, out.strkey.toBaseAccount p.destination = some base ∧
        s.allowlist.isAddressWhitelisted wallet.id base = true) (o : HttpOutcome) :
    ∃ tr s', Runs (system out) ((system out).code (.relay wallet xdr)) s tr (.ret ()) s' ∧
      sent tr = [(.postTransactions xdr, o)] ∧
      ∀ p, payment = some p → (verdictOf hash (submitVerdict o)).settled = true →
      ∃ t between before, t.db =
            (s.db.recordWithdrawalTransaction (withdrawalOf wallet p hash .pending none)).2 ∧
          tr = recordAct (withdrawalOf wallet p hash (verdictOf hash (submitVerdict o)).status
            (verdictOf hash (submitVerdict o)).ledger) t :: (between ++ before) ∧
          s' = (recordAct (withdrawalOf wallet p hash (verdictOf hash (submitVerdict o)).status
            (verdictOf hash (submitVerdict o)).ledger) t).post ∧
          sent between = [(.postTransactions xdr, o)] ∧ (∀ z ∈ between, isStore z.op = false) ∧
          ∀ r, readSubmit o = .ok r → t.breaker.state = .closed := by
  obtain ⟨tr1, hr1, hs1⟩ := runs_checkPayment hc
  have pending : ∃ tr2 s2, Runs (system out) (recordPending wallet hash payment) s tr2
      (.ret ()) s2 ∧ s2.breaker = s.breaker ∧ sent tr2 = [] ∧ ∀ p, payment = some p →
        s2.db = (s.db.recordWithdrawalTransaction
          (withdrawalOf wallet p hash .pending none)).2 := by
    cases payment with
    | none => exact ⟨[], s, .stop, rfl, rfl, fun p h => nomatch h⟩
    | some p =>
      refine ⟨_, _, runs_recordWithdrawal p hash .pending none s, rfl, rfl, fun p' hp => ?_⟩
      cases hp
      rfl
  obtain ⟨tr2, s2, hr2, hb2, hs2, hdb2⟩ := pending
  obtain ⟨tr3, s3, hr3, hdb3, hs3, hstore3, hclosed3⟩ :=
    runs_submit out xdr (by rw [hb2]; exact hb) o
  have verdict : ∃ tr4 s4, Runs (system out)
      (recordVerdict wallet hash (verdictOf hash (submitVerdict o)) payment) s3 tr4 (.ret ()) s4 ∧
      sent tr4 = [] ∧ ∀ p, payment = some p → (verdictOf hash (submitVerdict o)).settled = true →
        tr4 = [recordAct (withdrawalOf wallet p hash (verdictOf hash (submitVerdict o)).status
          (verdictOf hash (submitVerdict o)).ledger) s3] ∧
        s4 = (recordAct (withdrawalOf wallet p hash (verdictOf hash (submitVerdict o)).status
          (verdictOf hash (submitVerdict o)).ledger) s3).post := by
    cases payment with
    | none => exact ⟨[], s3, .stop, rfl, fun p h => nomatch h⟩
    | some p =>
      by_cases hset : (verdictOf hash (submitVerdict o)).settled = true
      · simp only [recordVerdict, if_pos hset]
        refine ⟨_, _, runs_recordWithdrawal p hash _ _ s3, rfl, fun p' hp _ => ?_⟩
        cases hp
        exact ⟨rfl, rfl⟩
      · simp only [recordVerdict, if_neg hset]
        exact ⟨[], s3, .stop, rfl, fun p' _ h => absurd h hset⟩
  obtain ⟨tr4, s4, hr4, hs4, hact⟩ := verdict
  have body : ∃ r, Runs (system out) (submitAndRecord out wallet xdr payment hash) s
      ((([] ++ tr4) ++ tr3) ++ tr2) (.ret r) s4 := ⟨_, hr2.bind (hr3.bind (hr4.bind .stop))⟩
  obtain ⟨r, body⟩ := body
  have whole : Runs (system out) (relaySignedTransaction out wallet xdr).run s
      ((([] ++ ((([] ++ tr4) ++ tr3) ++ tr2)) ++ tr1) ++ []) (.ret (.ok r)) s4 := by
    refine Runs.bindE ?_ (Runs.bindE hr1 ?_)
    · rw [ha.valid]
      exact .stop
    · rw [ha.hash]
      exact body.bind .stop
  refine ⟨_, s4, whole.bind .stop, ?_, ?_⟩
  · simp [hs1, hs2, hs3, hs4]
  · intro p hp hset
    obtain ⟨htr4, hs4'⟩ := hact p hp hset
    refine ⟨s3, tr3, tr2 ++ tr1, ?_, ?_, hs4', hs3, hstore3, hclosed3⟩
    · rw [hdb3, hdb2 p hp]
    · rw [htr4]
      simp

theorem runs_pending {p : PaymentSummary} (ha : Accepted out wallet xdr (some p) hash)
    (hc : ∀ q, some p = some q → s.allowlist.enabled wallet.id = true →
      ∃ base, out.strkey.toBaseAccount q.destination = some base ∧
        s.allowlist.isAddressWhitelisted wallet.id base = true) :
    ∃ tr rest, Runs (system out) ((system out).code (.relay wallet xdr)) s tr rest
      (recordAct (withdrawalOf wallet p hash .pending none) s).post := by
  obtain ⟨tr1, hr1, -⟩ := runs_checkPayment hc
  have body : ∃ rest, Runs (system out) (submitAndRecord out wallet xdr (some p) hash) s _ rest _ :=
    ⟨_, (runs_recordWithdrawal p hash .pending none s).bind .stop⟩
  obtain ⟨rest, body⟩ := body
  have whole : ∃ tr rest, Runs (system out) (relaySignedTransaction out wallet xdr).run s tr rest
      (recordAct (withdrawalOf wallet p hash .pending none) s).post := by
    unfold relaySignedTransaction
    rw [ha.valid, ha.hash]
    exact ⟨_, _, Runs.bindE .stop (Runs.bindE hr1 body.bind_left)⟩
  obtain ⟨tr, _, whole⟩ := whole
  exact ⟨_, _, whole.bind_left⟩

/-! ### A sweep -/

def failAct (id : Uuid) (reason : String) (s : State) : Act :=
  ⟨.settlePendingWithdrawal id .failed none (some reason),
    .ok (s.db.settlePendingWithdrawal id .failed none (some reason)).1, s,
    { s with db := (s.db.settlePendingWithdrawal id .failed none (some reason)).2 }⟩

theorem runs_settleRow (out : Outside) (row : Transaction) (reason : String) (stats : Stats)
    (s : State) :
    ∃ stats', Runs (system out) (settleRow row .failed none (some reason) stats).run s
      [failAct row.id reason s] (.ret (.ok stats')) (failAct row.id reason s).post := by
  have he : (system out).exec (.settlePendingWithdrawal row.id .failed none (some reason))
      (.store (.served 0)) s = some ((failAct row.id reason s).ans,
        (failAct row.id reason s).post) := rfl
  show ∃ stats', Runs _ _ s ([] ++ [failAct row.id reason s]) _ _
  cases hdone : (s.db.settlePendingWithdrawal row.id .failed none (some reason)).1 with
  | true | false => exact ⟨_, runs_tryCall he (congrArg Except.ok hdone) .stop⟩

theorem runs_sweep (cfg : ReconcilerConfig) {reason : String} {tr1 : List Act}
    (hlist : s.db.isStalePendingList cfg.grace cfg.batch [row] = true)
    (h : Runs (system out) (resolve out cfg row) s tr1 (.ret (.failed reason)) s2) :
    ∃ tr, Runs (system out) ((system out).code (.reconcile cfg)) s tr (.ret ())
      (failAct row.id reason s2).post ∧ failAct row.id reason s2 ∈ tr := by
  obtain ⟨stats, hsettle⟩ := runs_settleRow out row reason ⟨0, 0, 0⟩ s2
  have hlisted : (system out).exec (.listStalePendingWithdrawals cfg.grace cfg.batch)
      (.listed [row]) s = some (.ok [row], s) := by
    show (if s.db.isStalePendingList cfg.grace cfg.batch [row] then _ else _) = _
    rw [if_pos hlist]
  have hrow : Runs (system out) (reconcileRow out cfg row ⟨0, 0, 0⟩).run s
      ([failAct row.id reason s2] ++ ([] ++ tr1)) (.ret (.ok stats))
        (failAct row.id reason s2).post :=
    Runs.bindE (h.bind .stop) hsettle
  have whole : Runs (system out) (reconcileOnce out cfg).run s _ (.ret (.ok stats)) _ :=
    runs_tryCall hlisted rfl (Runs.bindE hrow .stop)
  exact ⟨_, whole.bind .stop, by simp⟩

/-! ### Requests of one account -/

/-- The outside of the examples: the strkey codec of SEP-23 and a codec that knows `e`. -/
def exampleOutside (e : Known) : Outside where
  strkey := sep23
  xdr := e.codec
  client := ⟨3, fun _ => none⟩
  expiry := fun _ => none

def exampleWallet : Wallet := ⟨1, exampleAccountG 1, 1, none⟩

theorem exampleSource_matches :
    sourceMatches sep23 (.ed25519 (exampleKey 1)) (exampleAccountG 1) = true := by
  unfold sourceMatches exampleAccountG
  rw [sep23_lawful.publicKey_roundTrip _ (exampleKey 1).length_eq]
  exact beq_self_eq_true _

theorem exampleKnown_accepted (e : Known) (hsig : e.envelope.signatures ≠ [])
    (hsrc : e.envelope.tx.sourceAccount = .ed25519 (exampleKey 1))
    (hops : ∀ op ∈ e.envelope.tx.operations, ∃ d, op = examplePay d) :
    ∃ payment, Accepted (exampleOutside e) exampleWallet e.text payment (hexEncode e.hash) := by
  have hallowed : ∀ op ∈ e.envelope.tx.operations, OpAllowed sep23 (exampleAccountG 1) op := by
    intro op hop
    obtain ⟨d, rfl⟩ := hops op hop
    exact ⟨fun src h => (nomatch h), fun o h => (nomatch h)⟩
  obtain ⟨payment, hv⟩ := validateSignedXdr_accepts e.fromXdrBase64 hsig
    (by rw [hsrc]; exact exampleSource_matches) hallowed
  refine ⟨payment, hv, ?_⟩
  show (e.codec.computeInnerTxHash e.text).map hexEncode = _
  rw [Known.computeInnerTxHash]
  rfl

theorem onePayment_accepted :
    ∃ p, Accepted (exampleOutside onePayment) exampleWallet onePayment.text (some p)
    (hexEncode onePayment.hash) ∧ 0 < p.amountStroops ∧ p.maxTime = some 1767225600 := by
  obtain ⟨_, ha⟩ := exampleKnown_accepted onePayment (by decide) rfl
    (fun op hop => ⟨2, mem_singleton.mp hop⟩)
  obtain ⟨v1, hdec, hsum⟩ := validateSignedXdr_ok ha.valid
  obtain ⟨-, henv⟩ := onePayment.fromXdrBase64_eq_some hdec
  cases henv
  rw [hsum] at ha
  exact ⟨_, ha, by decide, rfl⟩

end Octo.Withdrawal
