import Octo.Conc.Trace
import Octo.Ingest.Process
import Octo.PaymentLinks.Routes
import Octo.Store.Grows

/-!
# The system of ingest tasks and payment-link routes

Any number of ingest tasks (polls, page tasks, stream sessions), expiry sweeps and API requests run
on one database, one call at a time, and each may die between two calls.  An ingest task belongs to
a wallet row; the clock moves and wallets appear on their own.
-/

namespace Octo.Ingest

open Conc Octo.PaymentLinks List

inductive Job
  | poll (g : Ingestor) (limit : Nat)
  | page (g : Ingestor) (limit : Nat)
  | stream (g : Ingestor) (lifetime : Nat)
  | expireSweep
  | createAddress (walletId : Uuid) (customerRef : Option String) (metadata : String)
  | createLink (walletId : Uuid) (req : CreatePaymentLinkRequest) (slug : String)
  | setLinkActive (walletId id : Uuid) (active : Option Bool)
  | updateLink (walletId id : Uuid) (req : PaymentLinkUpdate)
  | cancelLink (walletId id : Uuid)
  | publicLink (slug : String)
  | createIntent (slug : String) (req : CreatePaymentIntentRequest)

def Job.ingestor : Job → Option Ingestor
  | .poll g _ | .page g _ | .stream g _ => some g
  | _ => none

def discard {α : Type} (p : Prog Op Ans α) : Prog Op Ans Unit := p.bind (fun _ => .ret ())

def code (out : Outside) : Job → Prog Op Ans Unit
  | .poll g limit => discard (pollOnce out.strkey g limit).run
  | .page g limit => pageTask out.strkey g limit
  | .stream g n => discard (streamSession out.strkey g n).run
  | .expireSweep => expireStalePaymentLinkPayments
  | .createAddress w ref md => discard (createAddress w ref md).run
  | .createLink w req slug => discard (createLink out w req slug).run
  | .setLinkActive w id active => discard (setPaymentLinkActive w id active).run
  | .updateLink w id req => discard (updatePaymentLink out w id req).run
  | .cancelLink w id => discard (cancelPaymentLink w id).run
  | .publicLink slug => discard (getPublicPaymentLink slug).run
  | .createIntent slug req => discard (createPaymentIntent slug req).run

/-- An ingest task is started for a wallet row, with the row's account. -/
def canStart (j : Job) (db : Db) : Bool :=
  j.ingestor.all (fun g =>
    db.wallets.any (fun w => w.id == g.walletId && w.stellarAccountG == g.accountG))

/-- What happens on its own: time passes, a wallet is created (accounts are unique). -/
inductive Env
  | tick (dt : Nat)
  | createWallet (account : String)

def env (e : Env) (db : Db) : Option Db :=
  match e with
  | .tick dt => some { db with now := db.now + dt }
  | .createWallet account =>
    if db.wallets.any (fun w => w.stellarAccountG == account) then none
    else some { db with
      nextId := db.nextId + 1
      wallets := db.wallets ++ [⟨db.nextId, account, 1, none⟩] }

def system (out : Outside) : Sys Job Op Ans Choice Env Db where
  code := code out
  canStart := canStart
  exec := exec out
  env := env

/-! ### Answered calls -/

theorem askHorizon_cases {α : Type} {answer : Nat → α} {ch : Choice} {s s' : Db}
    {a : Except HorizonError α} (h : askHorizon answer ch s = some (a, s')) :
    s' = s ∧ ((∃ n, a = .ok (answer n)) ∨ a = .error .request) := by
  cases ch <;> cases h
  · exact ⟨rfl, .inl ⟨_, rfl⟩⟩
  · exact ⟨rfl, .inr rfl⟩
  · exact ⟨rfl, .inr rfl⟩

section

variable {out : Outside} {ch : Choice} {s s' : Db}

variable {w : Uuid} {l : PaymentLink} {p : PaymentLinkPayment} {a : Address}

theorem exec_getCursor {c : Option String}
    (h : exec out (.getCursor w) ch s = some (.ok c, s')) : s' = s ∧ s.getCursor w = c := by
  obtain ⟨hs, n, hn⟩ := storeRead_ok h
  exact ⟨hs, Except.ok.inj hn⟩

theorem exec_recordDeposit {d : NewDeposit} {ans : Option Transaction}
    (h : exec out (.recordDeposit d) ch s = some (.ok ans, s')) :
    s.recordDeposit d = (.ok ans, s') := by
  obtain ⟨-, hn⟩ := store_ok h
  exact hn

theorem exec_addressByMuxedId {id : Int}
    (h : exec out (.addressByMuxedId w id) ch s = some (.ok (some a), s')) :
    s' = s ∧ a ∈ s.addresses ∧ a.walletId = w := by
  obtain ⟨hs, n, hn⟩ := storeRead_ok h
  have hf := Except.ok.inj hn
  have hp := find?_some hf
  simp only [Bool.and_eq_true, beq_iff_eq] at hp
  exact ⟨hs, mem_of_find?_eq_some hf, hp.1⟩

theorem exec_allocateAddress {base : String} {ref : Option String} {md : String}
    (h : exec out (.allocateAddress w base ref md) ch s = some (.ok a, s')) :
    s.allocateAddress w (out.deriveMuxed base) ref md = (.ok a, s') := by
  obtain ⟨-, hn⟩ := store_ok h
  exact hn

theorem exec_getPaymentLink {id : Uuid}
    (h : exec out (.getPaymentLink w id) ch s = some (.ok l, s')) :
    s' = s ∧ l ∈ s.links ∧ l.id = id ∧ l.walletId = w := by
  obtain ⟨hs, n, hn⟩ := storeRead_ok h
  unfold Db.getPaymentLink at hn
  split at hn
  · rename_i hf
    cases hn
    have hp := find?_some hf
    simp only [Bool.and_eq_true, beq_iff_eq] at hp
    exact ⟨hs, mem_of_find?_eq_some hf, hp⟩
  · cases hn

theorem exec_getPaymentLinkBySlug {slug : String}
    (h : exec out (.getPaymentLinkBySlug slug) ch s = some (.ok l, s')) : s' = s ∧ l ∈ s.links := by
  obtain ⟨hs, n, hn⟩ := storeRead_ok h
  unfold Db.getPaymentLinkBySlug at hn
  split at hn
  · rename_i hf
    cases hn
    exact ⟨hs, mem_of_find?_eq_some hf⟩
  · cases hn

theorem exec_getPaymentLinkByAddress {a : Uuid}
    (h : exec out (.getPaymentLinkByAddress a) ch s = some (.ok (some l), s')) :
    s' = s ∧ l ∈ s.links ∧ l.addressId = a := by
  obtain ⟨hs, n, hn⟩ := storeRead_ok h
  have hf := Except.ok.inj hn
  exact ⟨hs, mem_of_find?_eq_some hf, by simpa using find?_some hf⟩

theorem firstByAge_mem {n : Nat} {rows : List PaymentLinkPayment}
    (h : Db.firstByAge n rows = some p) : p ∈ rows := by
  rcases Option.or_eq_some_iff.mp h with h | ⟨-, h⟩
  · exact mem_of_mem_filter (mem_of_getElem? h)
  · exact mem_of_mem_filter (mem_of_head? h)

theorem exec_pendingPaymentByAddress {a : Uuid}
    (h : exec out (.pendingPaymentByAddress a) ch s = some (.ok (some p), s')) :
    s' = s ∧ p ∈ s.payments ∧ p.addressId = some a ∧ p.status = .pending := by
  obtain ⟨hs, n, hn⟩ := storeRead_ok h
  have hm := mem_filter.mp (firstByAge_mem (Except.ok.inj hn))
  simp only [Bool.and_eq_true, beq_iff_eq] at hm
  exact ⟨hs, hm⟩

theorem exec_oldestPending {l : Uuid}
    (h : exec out (.oldestPendingPaymentLinkPayment l) ch s = some (.ok (some p), s')) :
    s' = s ∧ p ∈ s.payments ∧ p.paymentLinkId = l ∧ p.status = .pending := by
  obtain ⟨hs, n, hn⟩ := storeRead_ok h
  have hm := mem_filter.mp (firstByAge_mem (Except.ok.inj hn))
  simp only [Bool.and_eq_true, beq_iff_eq] at hm
  exact ⟨hs, hm⟩

end

/-! ### Effects -/

/-- The tables after a call that took effect; calls that only read are not listed. -/
def write (out : Outside) : Op → Db → Db
  | .setCursor w token, db => db.setCursor w token
  | .markPolled w, db => db.markPolled w
  | .recordDeposit d, db => (db.recordDeposit d).2
  | .allocateAddress w base ref md, db => (db.allocateAddress w (out.deriveMuxed base) ref md).2
  | .createPaymentLink l, db => (db.createPaymentLink l).2
  | .setPaymentLinkActive w id active, db => (db.setPaymentLinkActive w id active).2
  | .updateUnpaidPaymentLink w id u, db => (db.updateUnpaidPaymentLink w id u).2
  | .cancelPaymentLink w id, db => (db.cancelPaymentLink w id).2
  | .recordPaymentLinkIntent l n e amt a, db => (db.recordPaymentLinkIntent l n e amt a).2
  | .confirmPaymentLinkPayment p t, db => (db.confirmPaymentLinkPayment p t).2
  | .markPaymentLinkPaymentMismatched p t m, db => (db.markPaymentLinkPaymentMismatched p t m).2
  | .expireStalePaymentLinkPayments, db => db.expireStalePaymentLinkPayments.2
  | _, db => db

variable {s s' : Db} {e : Env} {o : Op}

theorem exec_write {out : Outside} {ch : Choice} {a : Ans o}
    (h : exec out o ch s = some (a, s')) : s' = s ∨ s' = write out o s := by
  cases o with
  | systemTime =>
    left
    cases ch with
    | served n =>
      have h : (if out.clockFloor ≤ n then some (n, s) else none) = some (a, s') := h
      split at h
      · exact (call_inj h).2.symm
      · cases h
    | failed | lost => cases h
  | utcNow =>
    left
    cases ch with
    | served => exact (call_inj h).2.symm
    | failed | lost => cases h
  | dispatch => exact .inl (call_inj h).2.symm
  | paymentsAfter | openPaymentStream =>
    exact .inl (askHorizon_cases h).1
  | nextRecord | claimCredit | claimableBalanceOrigin =>
    exact .inl (askHorizon_cases h).1
  | _ =>
    simp only [exec] at h
    exact store_write h (fun _ => rfl)

theorem grows_write (out : Outside) (o : Op) (s : Db) : Grows s (write out o s) := by
  cases o with
  | setCursor | markPolled => exact grows_upsertCursor s _ _ _
  | recordDeposit d => exact grows_recordDeposit s d
  | allocateAddress => exact grows_allocateAddress s _ _ _ _
  | createPaymentLink l => exact grows_createPaymentLink s l
  | setPaymentLinkActive => exact grows_setPaymentLinkActive s _ _ _
  | updateUnpaidPaymentLink => exact grows_updateUnpaidPaymentLink s _ _ _
  | cancelPaymentLink => exact grows_cancelPaymentLink s _ _
  | recordPaymentLinkIntent => exact grows_recordPaymentLinkIntent s _ _ _ _ _
  | confirmPaymentLinkPayment | markPaymentLinkPaymentMismatched =>
    exact grows_settlePayments s _ _ _
  | expireStalePaymentLinkPayments => exact grows_settlePayments s _ _ _
  | _ =>
    exact .refl s

theorem exec_grows {out : Outside} {ch : Choice} {a : Ans o} (h : exec out o ch s = some (a, s')) :
    Grows s s' := by
  rcases exec_write h with rfl | rfl
  · exact .refl _
  · exact grows_write out o s

theorem env_rows (h : env e s = some s') :
    s'.transactions = s.transactions ∧ s'.links = s.links ∧ s'.payments = s.payments ∧
    s'.cursors = s.cursors := by
  cases e with
  | tick =>
    cases h
    exact ⟨rfl, rfl, rfl, rfl⟩
  | createWallet =>
    simp only [env] at h
    split at h
    · cases h
    · cases h
      exact ⟨rfl, rfl, rfl, rfl⟩

theorem env_grows (h : env e s = some s') : Grows s s' := by
  cases e with
  | tick dt =>
    rw [← Option.some.inj h]
    exact grows_tick s dt
  | createWallet =>
    simp only [env] at h
    split at h
    · cases h
    · rw [← Option.some.inj h]
      exact grows_of_links_eq (Nat.le_refl _) (Nat.le_succ _)
        (fun w hw => ⟨w, mem_append_left _ hw, rfl, rfl⟩) (fun _ h => h) (fun _ h => h) rfl rfl

end Octo.Ingest
