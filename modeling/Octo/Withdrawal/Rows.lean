import Mathlib.Data.List.Pairwise
import Octo.Withdrawal.Discipline

/-!
# The withdrawal rows

What holds of the table whatever the relays and reconcilers do.
-/

namespace Octo.Withdrawal

open Conc Octo.Api Resilience Option List

/-- Withdrawals of one wallet with one hash. -/
def SameWithdrawal (t t' : Transaction) : Prop :=
  ∃ w h, t.isWithdrawalOf w h = true ∧ t'.isWithdrawalOf w h = true

/-- The row has the wallet, hash and time bound of a transaction that a relay accepts. -/
def Relayed (out : Outside) (t : Transaction) : Prop :=
  ∃ wallet xdr p hash, Accepted out wallet xdr (some p) hash ∧ t.walletId = wallet.id ∧
    t.stellarTxHash = some hash ∧ t.metadata.maxTime = p.maxTime

/-- The invariant of the table. -/
structure RowsOk (out : Outside) (db : Db) : Prop where
  unique : db.transactions.Pairwise (fun t t' => ¬ SameWithdrawal t t')
  ids : db.transactions.Pairwise (fun t t' => t.id ≠ t'.id)
  fresh : ∀ t ∈ db.transactions, t.id < db.nextId
  relayed : ∀ t ∈ db.transactions, t.direction = .withdrawal → Relayed out t

variable {out : Outside}

variable {t t' : Transaction} {w : Uuid} {db : Db} {hash : String} {status : TxStatus}
  {ledger : Option Int} {wallet : Wallet} {p : PaymentSummary} {c : Conf Job Op Ans State} {x : Act}
  {cond : World → Label Job Op Ans → Prop} {reason : Option String} {init : State → Prop}
  {xdr : String} {i : Nat}

theorem isWithdrawalOf_iff {h : String} :
    t.isWithdrawalOf w h = true ↔ t.direction = .withdrawal ∧ t.walletId = w ∧
      t.stellarTxHash = some h := by
  simp [Transaction.isWithdrawalOf, and_assoc]

theorem RowsOk.eq_of_isWithdrawalOf (h : RowsOk out db) (ht : t ∈ db.transactions)
    (ht' : t' ∈ db.transactions) (hw : t.isWithdrawalOf w hash = true)
    (hw' : t'.isWithdrawalOf w hash = true) : t = t' := by
  have symm : Std.Symm (fun t t' : Transaction => ¬ SameWithdrawal t t') := by
    refine ⟨fun a b hab => ?_⟩
    rintro ⟨w, h, hb, ha⟩
    exact hab ⟨w, h, ha, hb⟩
  by_contra hne
  exact h.unique.forall ht ht' hne ⟨w, hash, hw, hw'⟩

theorem RowsOk.eq_of_id (h : RowsOk out db) (ht : t ∈ db.transactions)
    (ht' : t' ∈ db.transactions) (hid : t.id = t'.id) : t = t' := by
  have symm : Std.Symm (fun t t' : Transaction => t.id ≠ t'.id) := ⟨fun _ _ h => h.symm⟩
  by_contra hne
  exact h.ids.forall ht ht' hne hid

/-- Settling pending rows keeps the invariant: it changes no key of a row. -/
theorem RowsOk.update (h : RowsOk out db) {p : Transaction → Bool}
    (hp : ∀ t, p t = true → t.status = .pending) :
    RowsOk out (db.updateTransactions p (Transaction.settled status ledger reason)) := by
  have step : ∀ t, RowStep t (if p t then t.settled status ledger reason else t) := by
    intro t
    by_cases ht : p t = true
    · rw [if_pos ht]
      exact rowStep_settled (hp t ht) status ledger reason
    · rw [if_neg ht]
      exact .refl t
  refine ⟨?_, ?_, ?_, ?_⟩
  · refine pairwise_map.mpr (h.unique.imp ?_)
    rintro t t' hne ⟨w, hash, hw, hw'⟩
    rw [(step t).isWithdrawalOf] at hw
    rw [(step t').isWithdrawalOf] at hw'
    exact hne ⟨w, hash, hw, hw'⟩
  · refine pairwise_map.mpr (h.ids.imp ?_)
    intro t t' hne
    rw [(step t).id, (step t').id]
    exact hne
  · intro t' ht'
    obtain ⟨t, ht, rfl⟩ := Db.mem_updateTransactions.mp ht'
    rw [(step t).id]
    exact h.fresh t ht
  · intro t' ht' hd
    obtain ⟨t, ht, rfl⟩ := Db.mem_updateTransactions.mp ht'
    rw [(step t).direction] at hd
    obtain ⟨wallet, xdr, p', hash, ha, hw, hh, hm⟩ := h.relayed t ht hd
    exact ⟨wallet, xdr, p', hash, ha, (step t).walletId.trans hw, (step t).hash.trans hh,
      (step t).maxTime.trans hm⟩

theorem RowsOk.append (h : RowsOk out db) (hid : t.id = db.nextId)
    (hnew : ∀ t' ∈ db.transactions, ¬ SameWithdrawal t' t)
    (hrel : t.direction = .withdrawal → Relayed out t) :
    RowsOk out { db with nextId := db.nextId + 1, transactions := db.transactions ++ [t] } := by
  refine ⟨Rows.pairwise_concat h.unique hnew, Rows.pairwise_concat h.ids ?_,
    Rows.lt_concat h.fresh hid, Rows.forall_mem_concat h.relayed hrel⟩
  intro t' ht'
  rw [hid]
  exact Nat.ne_of_lt (h.fresh t' ht')

theorem Records.new_eq {tr : List Act} {new : NewWithdrawalTransaction}
    (h : Records wallet xdr p hash tr new) :
    ∃ status ledger, new = withdrawalOf wallet p hash status ledger := by
  rcases h with ⟨-, rfl⟩ | ⟨o, -, -, rfl⟩
  · exact ⟨_, _, rfl⟩
  · exact ⟨_, _, rfl⟩

/-- The conflict target of the upsert is the wallet and the hash. -/
theorem conflicts_withdrawalOf (t : Transaction) :
    (withdrawalOf wallet p hash status ledger).conflicts t = t.isWithdrawalOf wallet.id hash := rfl

theorem RowsOk.recordWithdrawal (h : RowsOk out db) (ha : Accepted out wallet xdr (some p) hash)
    (status : TxStatus) (ledger : Option Int) :
    RowsOk out (db.recordWithdrawalTransaction (withdrawalOf wallet p hash status ledger)).2 := by
  rcases Db.recordWithdrawal_cases (withdrawalOf wallet p hash status ledger) db with
    ⟨he, -⟩ | ⟨-, ⟨he, hnew⟩ | ⟨t, -, -, ⟨-, he⟩ | ⟨-, he⟩⟩⟩
  · rw [he]
    exact h
  · rw [he]
    refine h.append rfl ?_ (fun _ => ⟨wallet, xdr, p, hash, ha, rfl, rfl, rfl⟩)
    rintro t ht ⟨w, hash', hw, hw'⟩
    obtain ⟨-, hw2, hh2⟩ := isWithdrawalOf_iff.mp hw'
    have hclash := hnew t ht
    rw [← hw2, ← some.inj hh2] at hw
    exact absurd hw (Bool.eq_false_iff.mp hclash)
  · rw [he]
    refine h.update ?_
    intro t ht
    simp only [Bool.and_eq_true, beq_iff_eq] at ht
    exact ht.2
  · rw [he]
    exact h

theorem RowsOk.recordDeposit (h : RowsOk out db) (d : NewDeposit) :
    RowsOk out (db.recordDeposit d).2 := by
  unfold Db.recordDeposit
  split
  · exact h
  · split
    · exact h
    · refine h.append rfl ?_ nofun
      rintro t - ⟨w, _, -, hw⟩
      obtain ⟨hd, -⟩ := isWithdrawalOf_iff.mp hw
      cases hd

/-- There is at most one withdrawal row for a wallet and a transaction hash, and every row was
recorded by a relay for an accepted transaction, with its hash and time bound. -/
theorem rows_reach (hinit : ∀ s, init s → Initial s) (h : Reach (system out) cond init c) :
    RowsOk out c.world.db.db := by
  refine (discipline out).invariant (I := fun w => RowsOk out w.db.db) ?_ ?_ ?_ ?_ h
  · intro s hs
    have hnil := (hinit s hs).transactions
    exact ⟨by simp [hnil], by simp [hnil], by simp [hnil], by simp [hnil]⟩
  · intro w j hI _ _
    exact hI
  · intro w i j o ch a s hI _ hj hL he _
    rcases exec_state he with ⟨b, rfl⟩ | rfl
    · exact hI
    · cases o with
      | recordWithdrawalTransaction =>
        cases j with
        | relay =>
          obtain ⟨p, _, ha, hr⟩ := hL
          obtain ⟨status, ledger, rfl⟩ := hr.new_eq
          exact hI.recordWithdrawal ha status ledger
        | reconcile => exact hL.elim
      | settlePendingWithdrawal =>
        refine hI.update ?_
        intro t ht
        simp only [Db.isPendingWithdrawal, Bool.and_eq_true, beq_iff_eq] at ht
        exact ht.2
      | _ => exact hI
  · intro w e s hI he _
    cases e with
    | tick => rw [← some.inj he]; exact ⟨hI.unique, hI.ids, hI.fresh, hI.relayed⟩
    | closeLedger | ingestLedger =>
      simp only [system, env] at he
      split at he
      · rw [← some.inj he]; exact hI
      · cases he
    | otherCheck | otherSuccess | otherFailure => rw [← some.inj he]; exact hI
    | recordDeposit d => rw [← some.inj he]; exact hI.recordDeposit d

theorem rows_of_trace (hinit : ∀ s, init s → Initial s) (h : Reach (system out) cond init c)
    (hx : x ∈ c.world.trace i) : RowsOk out x.pre.db ∧ RowsOk out x.post.db :=
  reach_hist (P := fun s => RowsOk out s.db) (fun _ hc => rows_reach hinit hc)
    h _ (World.mem_trace.mp hx)

/-- A row that the reconciler was listed is in the table still, at most settled since. -/
theorem listed_row (hc : Reachable (system out) Initial c)
    {later before : List Act} (htr : c.world.trace i = later ++ x :: before)
    {row : Transaction} (h : Listed before row) :
    row.direction = .withdrawal ∧ ∃ t ∈ x.pre.db.transactions, RowStep row t := by
  obtain ⟨olderThan, limit, rows, s, s', hm, hr⟩ := h
  have hch := (discipline out).chained hc
  have hm' : ⟨.listStalePendingWithdrawals olderThan limit, .ok rows, s, s'⟩ ∈ c.world.trace i :=
    mem_of_before htr hm
  obtain ⟨ch, he⟩ := exec_of_trace hch hm'
  have hlist : s' = s ∧ s.db.isStalePendingList olderThan limit rows = true := by
    simp only [exec] at he
    split at he
    · split at he
      · rename_i hstale
        obtain ⟨ha, hs⟩ := call_inj he
        rw [← Except.ok.inj ha]
        exact ⟨hs.symm, hstale⟩
      · cases he
    · cases (call_inj he).1
  obtain ⟨rfl, hstale⟩ := hlist
  simp only [Db.isStalePendingList, Bool.and_eq_true, List.all_eq_true] at hstale
  have hin := mem_filter.mp (contains_iff_mem.mp (hstale.1.1.1.2 row hr))
  simp only [Db.isStalePendingWithdrawal, Bool.and_eq_true, beq_iff_eq] at hin
  exact ⟨hin.2.1.1, (hch.between htr hm).rows row hin.1⟩

/-! ### Moving a row out of `pending` -/

/-- The call moved the row of a wallet and hash from `pending` to `status`. -/
def Moves (walletId : Uuid) (hash : String) (status : TxStatus) (x : Act) : Prop :=
  (∃ t ∈ x.pre.db.transactions, t.isWithdrawalOf walletId hash = true ∧ t.status = .pending) ∧
    ∃ t ∈ x.post.db.transactions, t.isWithdrawalOf walletId hash = true ∧ t.status = status

theorem mem_settled {p : Transaction → Bool}
    (h : t' ∈ (db.updateTransactions p (Transaction.settled status ledger reason)).transactions) :
    t'.status = status ∨ t' ∈ db.transactions := by
  obtain ⟨t, ht, rfl⟩ := Db.mem_updateTransactions.mp h
  by_cases hp : p t = true
  · rw [if_pos hp]
    exact .inl rfl
  · rw [if_neg hp]
    exact .inr ht

theorem mem_write {o : Op} (h : t ∈ (write o db).transactions) : t ∈ db.transactions ∨
      (∃ new, o = .recordWithdrawalTransaction new ∧ 0 < new.amountStroops ∧
        t.status = new.status) ∨
      ∃ id ledger reason, o = .settlePendingWithdrawal id t.status ledger reason := by
  cases o with
  | recordWithdrawalTransaction new =>
    rcases Db.recordWithdrawal_cases new db with ⟨he, -⟩
      | ⟨hpos, ⟨he, -⟩ | ⟨r, -, -, ⟨-, he⟩ | ⟨-, he⟩⟩⟩
    · rw [write, he] at h
      exact .inl h
    · rw [write, he] at h
      rcases Rows.mem_concat.mp h with h | rfl
      · exact .inl h
      · exact .inr (.inl ⟨new, rfl, hpos, rfl⟩)
    · rw [write, he] at h
      rcases mem_settled h with hs | hold
      · exact .inr (.inl ⟨new, rfl, hpos, hs⟩)
      · exact .inl hold
    · rw [write, he] at h
      exact .inl h
  | settlePendingWithdrawal id status ledger reason =>
    rcases mem_settled h with hs | hold
    · exact .inr (.inr ⟨id, ledger, reason, by rw [hs]⟩)
    · exact .inl hold
  | _ => exact .inl h

/-- Only a record and a settle take a row out of `pending`, to the status they carry. -/
theorem moves_write {ch : Choice} (hok : RowsOk out x.pre.db)
    (he : exec out x.op ch x.pre = some (x.ans, x.post)) (hm : Moves w hash status x)
    (hne : status ≠ .pending) :
    (∃ new, x.op = .recordWithdrawalTransaction new ∧ 0 < new.amountStroops ∧ new.status = status) ∨
      ∃ id ledger reason, x.op = .settlePendingWithdrawal id status ledger reason := by
  obtain ⟨⟨t, ht, hw, hp⟩, t', ht', hw', hs⟩ := hm
  have stays : t' ∈ x.pre.db.transactions → False := by
    intro hmem
    rw [← hok.eq_of_isWithdrawalOf ht hmem hw hw', hp] at hs
    exact hne hs.symm
  rcases exec_state he with ⟨b, hb⟩ | hb
  · rw [hb] at ht'
    exact (stays ht').elim
  · rw [hb] at ht'
    rcases mem_write ht' with h | ⟨new, ho, hpos, hn⟩ | ⟨id, ledger, reason, ho⟩
    · exact (stays h).elim
    · exact .inl ⟨new, ho, hpos, hn.symm.trans hs⟩
    · exact .inr ⟨id, ledger, reason, by rw [ho, hs]⟩

end Octo.Withdrawal
