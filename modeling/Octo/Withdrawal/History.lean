import Octo.Withdrawal.Verdict

/-!
# What becomes of a withdrawal row

A settled row is never touched again.  So a success that Horizon reports settles the row only if the
row was not already `failed`, as it is after a rejection of the same transaction.
-/

namespace Octo.Withdrawal

open Conc Octo.Api Resilience List

/-- The call by which the job learns from Horizon that the transaction succeeded. -/
def Observes (out : Outside) (j : Job) (hash : String) (y : Act) : Prop :=
  match j with
  | .relay _ xdr => out.txHash xdr = some hash ∧ ∃ o r, sent? y = some (.postTransactions xdr, o) ∧
      readSubmit o = .ok r ∧ r.successful = true
  | .reconcile _ => ∃ o ledger, sent? y = some (.getTransaction hash, o) ∧
      readLookup o = .ok ⟨true, ledger⟩

/-- `x` is the first store call after a reported success. -/
def Follows (out : Outside) (j : Job) (hash : String) (tr : List Act) (x : Act) : Prop :=
  ∃ later between y before, tr = later ++ x :: (between ++ y :: before) ∧ Observes out j hash y ∧
    (∀ z ∈ between, isStore z.op = false) ∧ isStore x.op = true

def returned : Act → Bool
  | ⟨.getWithdrawalAllowlistConfig _, .ok _, _, _⟩ => true
  | ⟨.isAddressWhitelisted .., .ok _, _, _⟩ => true
  | ⟨.recordWithdrawalTransaction _, .ok _, _, _⟩ => true
  | ⟨.listStalePendingWithdrawals .., .ok _, _, _⟩ => true
  | ⟨.settlePendingWithdrawal .., .ok _, _, _⟩ => true
  | _ => false

def Concerns (j : Job) (x : Act) (walletId : Uuid) : Prop :=
  match j with
  | .relay wallet _ => walletId = wallet.id
  | .reconcile _ => ∃ id status ledger reason, x.op = .settlePendingWithdrawal id status ledger
      reason ∧ ∃ t ∈ x.pre.db.transactions, t.id = id ∧ t.walletId = walletId

def HasStatus (db : Db) (walletId : Uuid) (hash : String) (status : TxStatus) : Prop :=
  ∃ t ∈ db.transactions, t.isWithdrawalOf walletId hash = true ∧ t.status = status

variable {out : Outside}

variable {s s' : State} {hash : String} {ledger : Option Int} {wallet : Wallet}
  {c : Conf Job Op Ans State} {i : Nat} {reason : Option String} {cfg : ReconcilerConfig}
  {p : PaymentSummary} {status : TxStatus} {o : HttpOutcome} {xdr : String} {ch : Choice} {w : Uuid}
  {db : Db} {x : Act}

theorem HasStatus.grows (h : HasStatus s.db w hash status) (hg : Grows s s')
    (hne : status ≠ .pending) : HasStatus s'.db w hash status := by
  obtain ⟨t, ht, hw, hs⟩ := h
  obtain ⟨t', ht', hstep⟩ := hg.rows t ht
  have hsame : t' = t := hstep.final (by rw [hs]; exact hne)
  subst hsame
  exact ⟨t', ht', hw, hs⟩

/-! ### The store call that follows -/

theorem amount_pos_of_returned {new : NewWithdrawalTransaction} {row : Option Transaction}
    (h : exec out (.recordWithdrawalTransaction new) ch s = some (.ok row, s')) :
    0 < new.amountStroops ∧ s'.db = write (.recordWithdrawalTransaction new) s.db := by
  simp only [exec] at h
  split at h
  · obtain ⟨n, hn⟩ := store_ok h
    obtain ⟨hok, rfl⟩ := Prod.mk.inj hn
    refine ⟨?_, rfl⟩
    rcases Db.recordWithdrawal_cases new s.db with ⟨he, -⟩ | ⟨hpos, -⟩
    · rw [he] at hok
      cases hok
    · exact hpos
  · cases h

theorem settled_of_returned {id : Uuid} {done : Bool}
    (h : exec out (.settlePendingWithdrawal id status ledger reason) ch s = some (.ok done, s')) :
    s'.db = write (.settlePendingWithdrawal id status ledger reason) s.db := by
  simp only [exec] at h
  split at h
  · obtain ⟨n, hn⟩ := store_ok h
    rw [← (Prod.mk.inj hn).2]
    rfl
  · cases h

theorem hasStatus_record (hpos : 0 < p.amountStroops) :
    HasStatus db wallet.id hash .failed ∨ HasStatus
      (db.recordWithdrawalTransaction (withdrawalOf wallet p hash .confirmed ledger)).2
        wallet.id hash
      .confirmed := by
  rcases Db.recordWithdrawal_cases (withdrawalOf wallet p hash .confirmed ledger) db with
    ⟨-, hle⟩ | ⟨-, ⟨he, -⟩ | ⟨t, ht, hc, ⟨hp, he⟩ | ⟨hp, he⟩⟩⟩
  · exact absurd hpos (Int.not_lt.mpr hle)
  · rw [he]
    refine .inr ⟨_, mem_concat_self, ?_, rfl⟩
    exact isWithdrawalOf_iff.mpr ⟨rfl, rfl, rfl⟩
  · rw [he]
    refine .inr ⟨t.settled .confirmed ledger none, Db.mem_updateTransactions.mpr ⟨t, ht, ?_⟩,
      hc, rfl⟩
    rw [hc, hp]
    rfl
  · rw [he]
    cases hs : t.status with
    | pending => exact absurd hs hp
    | confirmed => exact .inr ⟨t, ht, hc, hs⟩
    | failed => exact .inl ⟨t, ht, hc, hs⟩

theorem hasStatus_settle {t : Transaction} (ht : t ∈ db.transactions)
    (hw : t.isWithdrawalOf w hash = true) :
    HasStatus db w hash .failed ∨
      HasStatus (db.settlePendingWithdrawal t.id .confirmed ledger reason).2 w hash .confirmed := by
  have hdir := (isWithdrawalOf_iff.mp hw).1
  cases hs : t.status with
  | failed => exact .inl ⟨t, ht, hw, hs⟩
  | pending =>
    refine .inr ⟨t.settled .confirmed ledger reason, Db.mem_updateTransactions.mpr ⟨t, ht, ?_⟩,
      hw, rfl⟩
    rw [if_pos (by simp [Db.isPendingWithdrawal, hdir, hs])]
  | confirmed =>
    refine .inr ⟨t, Db.mem_updateTransactions.mpr ⟨t, ht, ?_⟩, hw, hs⟩
    rw [if_neg (by simp [Db.isPendingWithdrawal, hs])]

/-- Once a lookup found the transaction, the sweep makes no other before its next store call. -/
theorem asked_since_found (hc : Reachable (system out) Initial c)
    (hj : c.world.jobs[i]? = some (.reconcile cfg)) {y : Act} {before : List Act} {r : TxRecord}
    (hy : sent? y = some (.getTransaction hash, o)) (hread : readLookup o = .ok r)
    (between later : List Act) (htr : c.world.trace i = later ++ (between ++ y :: before))
    (hbetween : ∀ z ∈ between, isStore z.op = false) :
    asked (between ++ y :: before) = some (hash, o) := by
  induction between generalizing later with
  | nil =>
    obtain ⟨s, s', rfl⟩ := sent?_eq_some hy
    rfl
  | cons z between ih =>
    have ih' := ih (later ++ [z]) (by rw [htr]; simp) (forall_mem_cons.mp hbetween).2
    have hz : isStore z.op = false := hbetween z mem_cons_self
    have hone : ∀ w ∈ [z], isStore w.op = false := by
      intro w hw
      rw [mem_singleton.mp hw]
      exact hz
    have happ : asked ([z] ++ (between ++ y :: before)) = _ :=
      asked_append hone (between ++ y :: before)
    cases hl : lastLookup [z] with
    | none =>
      rw [hl, ih'] at happ
      exact happ
    | some q =>
      -- the sweep would look another one up although this one is decided
      have hm : (.getTransaction q.1, q.2) ∈ sent [z] := mem_sent_of_lastLookup hl
      obtain ⟨z', hz', hs⟩ := mem_filterMap.mp hm
      rw [mem_singleton.mp hz'] at hs
      obtain ⟨s, s', rfl⟩ := sent?_eq_some hs
      obtain ⟨-, hund⟩ := (discipline out).allowed hc hj htr
      obtain ⟨e, he⟩ := hund q.1 rfl hash o ih'
      rw [hread] at he
      cases he

theorem followed_relay (hc : Reachable (system out) Initial c)
    (hj : c.world.jobs[i]? = some (.relay wallet xdr))
    (hf : Follows out (.relay wallet xdr) hash (c.world.trace i) x) (hr : returned x = true) :
    HasStatus x.pre.db wallet.id hash .failed ∨ HasStatus x.post.db wallet.id hash .confirmed := by
  obtain ⟨_, between, y, before, htr, ⟨hhash, o, r, hy, hread, hsucc⟩, -, hstore⟩ := hf
  have hx : x ∈ c.world.trace i := mem_of_split htr
  have hallowed := (discipline out).allowed hc hj htr
  have hsent : (.postTransactions xdr, o) ∈ sent (between ++ y :: before) := by
    rw [sent_append, sent_cons, hy]
    simp
  have unsent : sent (between ++ y :: before) ≠ [] := ne_nil_of_mem hsent
  obtain ⟨op, ans, s, s'⟩ := x
  cases op with
  | utcNow | horizon => cases hstore
  | getWithdrawalAllowlistConfig | isAddressWhitelisted => exact absurd hallowed unsent
  | listStalePendingWithdrawals => exact hallowed.elim
  | settlePendingWithdrawal => exact hallowed.elim
  | recordWithdrawalTransaction =>
    cases ans with
    | error => cases hr
    | ok =>
      obtain ⟨p, hash', ha, ⟨hnil, -⟩ | ⟨o', hone, -, hnew⟩⟩ := hallowed
      · exact absurd hnil unsent
      · rw [hone] at hsent
        obtain ⟨-, rfl⟩ := Prod.mk.inj (mem_singleton.mp hsent)
        have hsame : hash' = hash := Option.some.inj (ha.hash.symm.trans hhash)
        have hverdict : verdictOf hash' (submitVerdict o) = ⟨.confirmed, r.hash, none, true,
            r.ledger⟩ := by
          simp [submitVerdict, hread, Except.mapError, verdictOf, hsucc]
        rw [hverdict, hsame] at hnew
        obtain ⟨ch, he⟩ := exec_of_trace ((discipline out).chained hc) hx
        obtain ⟨hpos, hpost⟩ := amount_pos_of_returned he
        rw [hnew] at hpos hpost
        rw [hpost]
        exact hasStatus_record hpos

theorem followed_reconcile (hc : Reachable (system out) Initial c)
    (hj : c.world.jobs[i]? = some (.reconcile cfg))
    (hf : Follows out (.reconcile cfg) hash (c.world.trace i) x) (hr : returned x = true) :
    ∃ w, Concerns (.reconcile cfg) x w ∧
      (HasStatus x.pre.db w hash .failed ∨ HasStatus x.post.db w hash .confirmed) := by
  obtain ⟨later, between, y, before, htr, ⟨o, _, hy, hread⟩, hbetween, hstore⟩ := hf
  have hx : x ∈ c.world.trace i := mem_of_split htr
  have hallowed := (discipline out).allowed hc hj htr
  have hsplit : c.world.trace i = (later ++ [x]) ++ (between ++ y :: before) := by
    rw [htr]
    simp
  have hasked := asked_since_found hc hj hy hread between (later ++ [x]) hsplit hbetween
  have decided : ¬ Undecided (between ++ y :: before) := by
    intro hu
    obtain ⟨e, he⟩ := hu hash o hasked
    rw [hread] at he
    cases he
  have hlistRow : ∀ row, Listed (between ++ y :: before) row →
      row.direction = .withdrawal ∧ ∃ t ∈ x.pre.db.transactions, RowStep row t := by
    intro row hrow
    exact listed_row hc htr hrow
  obtain ⟨op, ans, s, s'⟩ := x
  cases op with
  | utcNow | horizon => cases hstore
  | getWithdrawalAllowlistConfig | isAddressWhitelisted | recordWithdrawalTransaction =>
    exact hallowed.elim
  | listStalePendingWithdrawals =>
    have hnil : between ++ y :: before = [] := hallowed
    simp at hnil
  | settlePendingWithdrawal id =>
    cases ans with
    | error => cases hr
    | ok =>
      obtain ⟨row, hlisted, rfl, hjudged⟩ := hallowed
      obtain ⟨hdir, t, ht, hstep⟩ := hlistRow row hlisted
      cases hjudged with
      | noHash _ hu | expired _ _ hu | abandoned _ hu => exact absurd hu decided
      | onChain _ hasked' hread' =>
        rw [hasked] at hasked'
        cases hasked'
        rw [hread] at hread'
        cases hread'
      | confirmed hh hasked' =>
        rw [hasked] at hasked'
        cases hasked'
        have hw : t.isWithdrawalOf t.walletId hash = true :=
          isWithdrawalOf_iff.mpr ⟨hstep.direction.trans hdir, rfl, hstep.hash.trans hh⟩
        refine ⟨t.walletId, ⟨row.id, _, _, _, rfl, t, ht, hstep.id, rfl⟩, ?_⟩
        obtain ⟨ch, he⟩ := exec_of_trace ((discipline out).chained hc) hx
        have hpost := settled_of_returned he
        rw [hpost, ← hstep.id]
        exact hasStatus_settle ht hw

/-- **The history of a withdrawal**: at most one row for a wallet and a hash; a confirmed row is
never overwritten; and once Horizon reported the transaction as successful and the store call that
follows has returned, the row is confirmed from then on, unless it was already failed when that call
ran. -/
theorem withdrawal_history (out : Outside) {c : Conf Job Op Ans State}
    (hc : Reachable (system out) Initial c) :
    (∀ t ∈ c.world.db.db.transactions, ∀ t' ∈ c.world.db.db.transactions, ∀ w hash,
      t.isWithdrawalOf w hash = true → t'.isWithdrawalOf w hash = true → t = t') ∧
    (∀ t ∈ c.world.db.db.transactions, t.direction = .withdrawal → t.status = .confirmed →
      ∀ c', Leads (system out) c c' → t ∈ c'.world.db.db.transactions) ∧
    ∀ i j, c.world.jobs[i]? = some j → ∀ hash x, Follows out j hash (c.world.trace i) x →
      returned x = true → ∃ w, Concerns j x w ∧ (HasStatus x.pre.db w hash .failed ∨
        ∀ c', Leads (system out) c c' → HasStatus c'.world.db.db w hash .confirmed) := by
  refine ⟨?_, ?_, ?_⟩
  · intro t ht t' ht' w hash hw hw'
    exact (rows_reach (fun _ h => h) hc).eq_of_isWithdrawalOf ht ht' hw hw'
  · intro t ht _ hs c' hl
    obtain ⟨t', ht', hstep⟩ := ((discipline out).leads hl).rows t ht
    have hsame : t' = t := hstep.final (by rw [hs]; decide)
    rw [← hsame]
    exact ht'
  · intro i j hj hash x hf hr
    have hnow : ∃ w, Concerns j x w ∧
        (HasStatus x.pre.db w hash .failed ∨ HasStatus x.post.db w hash .confirmed) := by
      cases j with
      | relay wallet => exact ⟨wallet.id, rfl, followed_relay hc hj hf hr⟩
      | reconcile => exact followed_reconcile hc hj hf hr
    obtain ⟨w, hw, hfailed | hconf⟩ := hnow
    · exact ⟨w, hw, .inl hfailed⟩
    · refine ⟨w, hw, .inr (fun c' hl => ?_)⟩
      obtain ⟨_, _, y, _, htr, -⟩ := hf
      have hx : x ∈ c.world.trace i := mem_of_split htr
      have hgrow := ((discipline out).chained hc).below_of_mem hx
      exact hconf.grows (hgrow.trans ((discipline out).leads hl)) (by decide)

/-! ### A transaction that is sent twice -/

theorem returned_recordAct (new : NewWithdrawalTransaction) (hpos : 0 < new.amountStroops)
    (s : State) : returned (recordAct new s) = true := by
  unfold recordAct returned
  rcases Db.recordWithdrawal_cases new s.db with ⟨-, hle⟩
    | ⟨-, ⟨he, -⟩ | ⟨t, -, -, ⟨-, he⟩ | ⟨-, he⟩⟩⟩
  · exact absurd hpos (Int.not_lt.mpr hle)
  · rw [he]
  · rw [he]
  · rw [he]

theorem exists_relay_again (hc : Reachable (system out) Initial c)
    (hb : c.world.db.breaker.state = .closed) (hal : c.world.db.allowlist = ⟨[], []⟩)
    (ha : Accepted out wallet xdr (some p) hash) {r : SubmitResult} (hread : readSubmit o = .ok r) :
    ∃ c' t, Reachable (system out) Initial c' ∧
      c'.world.jobs = c.world.jobs ++ [.relay wallet xdr] ∧
      t.db = (c.world.db.db.recordWithdrawalTransaction
        (withdrawalOf wallet p hash .pending none)).2 ∧
      c'.world.db = (recordAct (withdrawalOf wallet p hash
        (if r.successful then .confirmed else .failed)
        r.ledger) t).post ∧ t.breaker.state = .closed ∧ Grows c.world.db c'.world.db ∧
      (r.successful = true → Follows out (.relay wallet xdr) hash
        (c'.world.trace c.world.jobs.length)
        (recordAct (withdrawalOf wallet p hash (if r.successful then .confirmed else .failed)
          r.ledger) t)) := by
  have hclear : ∀ q, some p = some q → c.world.db.allowlist.enabled wallet.id = true →
      ∃ base, out.strkey.toBaseAccount q.destination = some base ∧
        c.world.db.allowlist.isAddressWhitelisted wallet.id base = true := by
    intro q _ hon
    rw [hal] at hon
    cases hon
  obtain ⟨tr, s', hr, -, hact⟩ := exists_relay ha hb hclear o
  have hverdict : (verdictOf hash (submitVerdict o)).settled = true ∧
      (verdictOf hash (submitVerdict o)).status = (if r.successful then .confirmed else .failed) ∧
      (verdictOf hash (submitVerdict o)).ledger = r.ledger := by
    cases hs : r.successful with
    | true | false => simp [submitVerdict, hread, Except.mapError, verdictOf, hs]
  obtain ⟨t, _, before, ht, htr, hs', hsent, hquiet, hclosed⟩ := hact p rfl hverdict.1
  rw [hverdict.2.1, hverdict.2.2] at htr hs'
  obtain ⟨c', hc', hjobs, hdb, htrace, -⟩ := start_runs hc rfl hr
  refine ⟨c', t, hc', hjobs, ht, by rw [hdb, hs'], hclosed r hread, ?_, ?_⟩
  · rw [hdb]
    exact (discipline out).runs hr
  · intro hsucc
    obtain ⟨later, u, u', rest, hbetween, -⟩ := sent_eq_cons hsent
    refine ⟨[], later, ⟨.horizon (.request (.postTransactions xdr)), o, u, u'⟩, rest ++ before, ?_,
      ⟨ha.hash, o, r, rfl, hread, hsucc⟩, ?_, rfl⟩
    · rw [htrace, htr, hbetween]
      simp
    · intro z hz
      refine hquiet z ?_
      rw [hbetween]
      exact mem_append_left _ hz

def badSequence : HttpOutcome :=
  .answer 400 (some (.obj [("title", .str "Transaction Failed"), ("status", .int 400),
    ("extras", .obj [("result_codes", .obj [("transaction", .str "tx_bad_seq")])])]))

def applied : HttpOutcome :=
  .answer 200 (some (.obj [("successful", .bool true), ("ledger", .int 100)]))

theorem readSubmit_badSequence :
    readSubmit badSequence = .ok ⟨"", false, none, some "tx_bad_seq", []⟩ :=
  rfl

theorem readSubmit_applied : readSubmit applied = .ok ⟨"", true, some 100, none, []⟩ := rfl

/-- A transaction that is applied at once is confirmed for good. -/
theorem applied_confirmed : ∃ c, Reachable (system (exampleOutside onePayment)) Initial c ∧
    ∃ x, Follows (exampleOutside onePayment) (.relay exampleWallet onePayment.text)
        (hexEncode onePayment.hash) (c.world.trace 0) x ∧ returned x = true ∧
      ∀ c', Leads (system (exampleOutside onePayment)) c c' →
        HasStatus c'.world.db.db exampleWallet.id (hexEncode onePayment.hash) .confirmed := by
  obtain ⟨p, ha, hpos, -⟩ := onePayment_accepted
  have hstart : Reachable (system (exampleOutside onePayment)) Initial
      (.fresh (State.start ⟨[], []⟩)) :=
    .init (State.start_initial _)
  obtain ⟨c, t, hc, hjobs, ht, -, -, -, hfollows⟩ :=
    exists_relay_again hstart rfl rfl ha readSubmit_applied
  have hreturned := returned_recordAct (withdrawalOf exampleWallet p (hexEncode onePayment.hash)
    .confirmed (some 100)) hpos t
  refine ⟨c, hc, _, hfollows rfl, hreturned, ?_⟩
  have hjob : c.world.jobs[0]? = some (.relay exampleWallet onePayment.text) := by
    rw [hjobs]
    rfl
  obtain ⟨w, rfl, hfailed | hconf⟩ :=
    (withdrawal_history (exampleOutside onePayment) hc).2.2 0 _ hjob _ _
    (hfollows rfl) hreturned
  · obtain ⟨row, hrow, -, hs⟩ := hfailed
    have hrow' : row ∈ t.db.transactions := hrow
    rw [ht, Db.recordWithdrawal_of_empty rfl hpos, List.mem_singleton] at hrow'
    rw [hrow'] at hs
    cases hs
  · exact hconf

/-- **A success after a rejection is lost**: a transaction is rejected, sent again and applied; the
store call that follows returns, and the row is not confirmed. -/
theorem success_after_rejection : ∃ c, Reachable (system (exampleOutside onePayment)) Initial c ∧
    c.world.jobs[1]? = some (.relay exampleWallet onePayment.text) ∧
    ∃ x, Follows (exampleOutside onePayment) (.relay exampleWallet onePayment.text)
        (hexEncode onePayment.hash) (c.world.trace 1) x ∧ returned x = true ∧
      Concerns (.relay exampleWallet onePayment.text) x exampleWallet.id ∧
      ¬ HasStatus c.world.db.db exampleWallet.id (hexEncode onePayment.hash) .confirmed := by
  obtain ⟨p, ha, hpos, -⟩ := onePayment_accepted
  have hstart : Reachable (system (exampleOutside onePayment)) Initial
      (.fresh (State.start ⟨[], []⟩)) :=
    .init (State.start_initial _)
  obtain ⟨c1, t1, hc1, hjobs1, ht1, hdb1, hb1, hg1, -⟩ :=
    exists_relay_again hstart rfl rfl ha readSubmit_badSequence
  have hfailed : HasStatus c1.world.db.db exampleWallet.id (hexEncode onePayment.hash) .failed := by
    rw [hdb1]
    exact (moves_recordAct hpos rfl ht1).2
  obtain ⟨c2, t2, hc2, hjobs2, -, -, -, hg2, hfollows⟩ :=
    exists_relay_again hc1 (by rw [hdb1]; exact hb1) hg1.allowlist ha readSubmit_applied
  have hlen : c1.world.jobs.length = 1 := by
    rw [hjobs1]
    rfl
  rw [hlen] at hfollows
  refine ⟨c2, hc2, ?_, _, hfollows rfl, returned_recordAct _ hpos _, rfl, ?_⟩
  · rw [hjobs2, hjobs1]
    rfl
  · rintro ⟨t, ht, hw, hs⟩
    obtain ⟨t', ht', hw', hs'⟩ := hfailed.grows hg2 (by decide)
    have hsame := (rows_reach (fun _ h => h) hc2).eq_of_isWithdrawalOf ht ht' hw hw'
    rw [hsame, hs'] at hs
    cases hs

end Octo.Withdrawal
