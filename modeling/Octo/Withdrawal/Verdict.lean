import Octo.Withdrawal.Alone
import Octo.Withdrawal.Rows

/-!
# On which answers the relay settles a withdrawal

The relay ought to take a row out of `pending` only when Horizon has decided the transaction: to
`failed` on a definitive rejection, to `confirmed` on a success.  `submit_transaction` reads any
JSON body as a result, whatever the status, and takes any other body of a non-2xx answer for a
rejection, so this depends on the answer (`Decided`).
-/

namespace Octo.Withdrawal

open Conc Octo.Api Codec Resilience List

/-- A definitive rejection: a 4xx answer that carries the transaction's result code, or a 2xx answer
with `successful = false`. -/
def Definitive : HttpOutcome → Prop
  | .answer status (some body) =>
    (400 ≤ status ∧ status < 500 ∧
      ∃ code, body.at? ["extras", "result_codes", "transaction"] = some (.str code)) ∨
    (isSuccess status = true ∧ body.at? ["successful"] = some (.bool false))
  | _ => False

def ReportsSuccess : HttpOutcome → Prop
  | .answer status body =>
    isSuccess status = true ∧ ∃ r, body.bind readSubmitResponse = some r ∧ r.successful = true
  | .transport => False

/-- What a submission came to: `none` if nothing was sent, because the breaker was open or the relay
has not got so far. -/
def outcomeOf (tr : List Act) : Option HttpOutcome := (sent tr).getLast?.map (·.2)

/-- In every run, a relay of `xdr` whose submission comes to `o` takes the row out of `pending` only
to `failed` on a definitive rejection or to `confirmed` on a reported success. -/
def SettlesSoundly (out : Outside) (wallet : Wallet) (xdr : String) (o : Option HttpOutcome) :
    Prop :=
  ∀ c, Reachable (system out) Initial c → ∀ i, c.world.jobs[i]? = some (.relay wallet xdr) →
    outcomeOf (c.world.trace i) = o → ∀ hash, out.txHash xdr = some hash →
    ∀ x ∈ c.world.trace i, ∀ status, status ≠ .pending → Moves wallet.id hash status x →
      ∃ a, o = some a ∧ (status = .failed ∧ Definitive a ∨ status = .confirmed ∧ ReportsSuccess a)

def Recordable (out : Outside) (wallet : Wallet) (xdr : String) : Prop :=
  ∃ p hash, Accepted out wallet xdr (some p) hash ∧ 0 < p.amountStroops

/-- The answers that `submit_transaction` does not take for a verdict they are not. -/
def Decided : HttpOutcome → Prop
  | .transport => True
  | .answer status body =>
    match body.bind readSubmitResponse with
    | some r => if r.successful then isSuccess status = true else Definitive (.answer status body)
    | none => isSuccess status = true ∨ Definitive (.answer status body)

variable {out : Outside} {wallet : Wallet} {xdr : String}

theorem settled_iff (hash : String) (a : HttpOutcome) :
    Decided a ↔ ((verdictOf hash (submitVerdict a)).settled = true →
      (verdictOf hash (submitVerdict a)).status = .failed ∧ Definitive a ∨
      (verdictOf hash (submitVerdict a)).status = .confirmed ∧ ReportsSuccess a) := by
  cases a with
  | transport => simp [Decided, submitVerdict, readSubmit, submitError, Except.mapError, verdictOf]
  | answer status body =>
    simp only [Decided, ReportsSuccess, submitVerdict, readSubmit]
    cases hb : body.bind readSubmitResponse with
    | some r =>
      cases hr : r.successful with
      | true | false => simp [Except.mapError, verdictOf, SubmitResult.ofResponse, hr]
    | none =>
      cases hs : isSuccess status with
      | true | false => simp [Except.mapError, verdictOf, submitError]

theorem status_ne_pending (hash : String) (res : Except ApiError SubmitResult) :
    (verdictOf hash res).status ≠ .pending := by
  unfold verdictOf
  split
  · split <;> exact nofun
  · exact nofun
  · exact nofun

variable {hash : String} {p : PaymentSummary} {status : TxStatus}

/-- **The relay moves a row only on the verdict of its submission.** -/
theorem verdict_of_moves {c : Conf Job Op Ans State} (hc : Reachable (system out) Initial c)
    {i : Nat} (hj : c.world.jobs[i]? = some (.relay wallet xdr)) {x : Act}
    (hx : x ∈ c.world.trace i) {w : Uuid} (hne : status ≠ .pending) (hm : Moves w hash status x) :
    Recordable out wallet xdr ∧ ∃ hash' a, outcomeOf (c.world.trace i) = some a ∧
      (verdictOf hash' (submitVerdict a)).settled = true ∧
      (verdictOf hash' (submitVerdict a)).status = status := by
  have hrows := (rows_of_trace (fun _ h => h) hc hx).1
  obtain ⟨ch, he⟩ := ((discipline out).chained hc).executed _ (World.mem_trace.mp hx)
  obtain ⟨_, _, htr⟩ := append_of_mem hx
  have hallowed := (discipline out).allowed hc hj htr
  rcases moves_write hrows he hm hne with ⟨new, ho, hpos, hst⟩ | ⟨id, _, _, ho⟩
  · rw [ho] at hallowed
    obtain ⟨p, hash', ha, ⟨-, hnew⟩ | ⟨a, hsent, hset, hnew⟩⟩ := hallowed
    · rw [hnew] at hst
      exact absurd hst.symm hne
    · rw [hnew] at hst hpos
      refine ⟨⟨p, hash', ha, hpos⟩, hash', a, ?_, hset, hst⟩
      rw [outcomeOf, htr, sent_append, sent_cons, hsent]
      simp
  · rw [ho] at hallowed
    exact hallowed.elim

theorem moves_recordAct {ledger : Option Int} {s t : State} (hpos : 0 < p.amountStroops)
    (hs : s.db.transactions = [])
    (ht : t.db = (s.db.recordWithdrawalTransaction (withdrawalOf wallet p hash .pending none)).2) :
    Moves wallet.id hash status (recordAct (withdrawalOf wallet p hash status ledger) t) := by
  have hrow : t.db.transactions =
      [s.db.withdrawalRow (withdrawalOf wallet p hash .pending none)] := by
    rw [ht, Db.recordWithdrawal_of_empty hs hpos]
  have hmine : (s.db.withdrawalRow (withdrawalOf wallet p hash .pending none)).isWithdrawalOf
      wallet.id hash = true := isWithdrawalOf_iff.mpr ⟨rfl, rfl, rfl⟩
  refine ⟨⟨_, ?_, hmine, rfl⟩, ?_⟩
  · show _ ∈ t.db.transactions
    rw [hrow]
    exact mem_singleton_self _
  · refine ⟨(s.db.withdrawalRow (withdrawalOf wallet p hash .pending none)).settled status
      ledger none, ?_, hmine, rfl⟩
    show _ ∈ (t.db.recordWithdrawalTransaction
      (withdrawalOf wallet p hash status ledger)).2.transactions
    rcases Db.recordWithdrawal_cases (withdrawalOf wallet p hash status ledger) t.db with
      ⟨-, hle⟩ | ⟨-, ⟨-, hno⟩ | ⟨r, hr, -, ⟨-, he⟩ | ⟨hp, -⟩⟩⟩
    · exact absurd hpos (Int.not_lt.mpr hle)
    · rw [hrow] at hno
      have hclash := hno _ (mem_singleton_self _)
      rw [conflicts_withdrawalOf, hmine] at hclash
      cases hclash
    · rw [he]
      refine Db.mem_updateTransactions.mpr ⟨_, by rw [hrow]; exact mem_singleton_self _, ?_⟩
      rw [conflicts_withdrawalOf, hmine]
      rfl
    · rw [hrow] at hr
      rw [mem_singleton.mp hr] at hp
      exact absurd rfl hp

/-- **Every settled verdict is reached**: some run moves the row of a recordable transaction on it.
-/
theorem exists_moves (ha : Accepted out wallet xdr (some p) hash) (hpos : 0 < p.amountStroops)
    {a : HttpOutcome} (hset : (verdictOf hash (submitVerdict a)).settled = true) :
    ∃ c, Reachable (system out) Initial c ∧ c.world.jobs[0]? = some (.relay wallet xdr) ∧
      outcomeOf (c.world.trace 0) = some a ∧ ∃ x ∈ c.world.trace 0,
        Moves wallet.id hash (verdictOf hash (submitVerdict a)).status x := by
  -- a wallet without an allowlist
  obtain ⟨tr, s', hr, hsent, hact⟩ := exists_relay (s := State.start ⟨[], []⟩) ha rfl
    (fun _ _ h => Bool.noConfusion h) a
  obtain ⟨t, between, before, ht, hlast, -⟩ := hact p rfl hset
  have pool : ∃ c, Reachable (system out) Initial c ∧ c.world.jobs = [.relay wallet xdr] ∧
      c.world.db = s' ∧ c.world.trace 0 = tr :=
    exists_reachable_of_runs (State.start_initial _) rfl hr
  obtain ⟨c, hc, hjobs, -, htr⟩ := pool
  have hx := mem_cons_self (a := recordAct (withdrawalOf wallet p hash
    (verdictOf hash (submitVerdict a)).status (verdictOf hash (submitVerdict a)).ledger) t)
    (l := between ++ before)
  rw [← hlast, ← htr] at hx
  refine ⟨c, hc, by rw [hjobs]; rfl, ?_, _, hx, moves_recordAct hpos rfl ht⟩
  rw [outcomeOf, htr, hsent]
  rfl

/-- **When the relay settles soundly**: exactly on the outcomes that `submit_transaction` does not
take for a verdict they are not, or for a transaction it keeps no row of. -/
theorem relay_settles_iff (out : Outside) (wallet : Wallet) (xdr : String)
    (o : Option HttpOutcome) :
    SettlesSoundly out wallet xdr o ↔
      (Recordable out wallet xdr → ∀ a, o = some a → Decided a) := by
  constructor
  · rintro h ⟨p, hash, ha, hpos⟩ a rfl
    refine (settled_iff hash a).mpr (fun hset => ?_)
    obtain ⟨c, hc, hj, hout, x, hx, hm⟩ := exists_moves ha hpos hset
    obtain ⟨a', ha', hgood⟩ := h c hc 0 hj hout hash ha.hash x hx _ (status_ne_pending _ _) hm
    cases ha'
    exact hgood
  · intro h c hc i hj hout hash _ x hx status hne hm
    obtain ⟨hrec, hash', a, ha, hset, hst⟩ := verdict_of_moves hc hj hx hne hm
    have hdec := h hrec a (hout.symm.trans ha)
    refine ⟨a, hout.symm.trans ha, ?_⟩
    rw [← hst]
    exact (settled_iff hash' a).mp hdec hset

/-! ### A gateway timeout -/

/-- Horizon's problem document for a submission it stopped waiting for. -/
def gatewayTimeout : HttpOutcome :=
  .answer 504 (some (.obj [("type", .str "transaction_submission_timeout"),
    ("title", .str "Timeout"), ("status", .int 504)]))

theorem gatewayTimeout_not_definitive : ¬ Definitive gatewayTimeout := by
  rintro (⟨-, h, -⟩ | ⟨h, -⟩)
  · exact absurd h (by decide)
  · exact absurd h (by decide)

/-- **A timeout is settled as `failed`**: the row of a transaction that Horizon answered with a 504
leaves `pending`, although nothing was decided. -/
theorem gateway_timeout_settles : ¬ Definitive gatewayTimeout ∧
    ∃ c, Reachable (system (exampleOutside onePayment)) Initial c ∧
      c.world.jobs[0]? = some (.relay exampleWallet onePayment.text) ∧
      outcomeOf (c.world.trace 0) = some gatewayTimeout ∧
      ∃ x ∈ c.world.trace 0, Moves exampleWallet.id (hexEncode onePayment.hash) .failed x := by
  refine ⟨gatewayTimeout_not_definitive, ?_⟩
  obtain ⟨p, ha, hpos, -⟩ := onePayment_accepted
  have hverdict : (verdictOf (hexEncode onePayment.hash) (submitVerdict gatewayTimeout)).settled =
      true ∧
      (verdictOf (hexEncode onePayment.hash) (submitVerdict gatewayTimeout)).status =
        .failed := ⟨rfl, rfl⟩
  obtain ⟨c, hc, hj, hout, x, hx, hm⟩ := exists_moves ha hpos hverdict.1
  exact ⟨c, hc, hj, hout, x, hx, hm⟩

end Octo.Withdrawal
