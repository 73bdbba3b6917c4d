import Octo.Withdrawal.System

/-!
# When the relay and the reconciler make which call

`Allowed out j tr o` says when a task of job `j` that has made the calls `tr` (newest first) makes
the call `o`.  The relay submits only what the validator accepted and the allowlist check let
through, only once, and records only the pending row and the row of the verdict; the reconciler
settles only rows it was given, on the verdict of the lookup it made since its last store call, and
once a lookup found the transaction it settles the row before it looks up another.
-/

namespace Octo.Withdrawal

open Conc Octo.Api Resilience List

abbrev Act := Conc.Act Op Ans State
abbrev World := Conc.World Job Op Ans State

theorem exec_of_trace {out : Outside} {w : World} (hc : w.Chained (system out) Grows) {i : Nat}
    {o : Op} {a : Ans o} {s s' : State} (hm : ⟨o, a, s, s'⟩ ∈ w.trace i) :
    ∃ ch, exec out o ch s = some (a, s') :=
  hc.exec_of_mem hm

/-! ### Requests in a trace -/

def sent? : Act → Option (Request × HttpOutcome)
  | ⟨.horizon (.request r), o, _, _⟩ => some (r, o)
  | _ => none

/-- The requests sent, with their outcomes. -/
def sent (tr : List Act) : List (Request × HttpOutcome) := tr.filterMap sent?

def lastLookup (tr : List Act) : Option (String × HttpOutcome) :=
  (sent tr).findSome? (fun q => match q.1 with
    | .getTransaction hash => some (hash, q.2)
    | _ => none)

def isStore : Op → Bool
  | .utcNow => false
  | .horizon _ => false
  | _ => true

/-- The lookup made since the last store call. -/
def asked (tr : List Act) : Option (String × HttpOutcome) :=
  lastLookup (tr.takeWhile (fun x => !isStore x.op))

@[simp] theorem sent_append (tr tr' : List Act) : sent (tr ++ tr') = sent tr ++ sent tr' :=
  filterMap_append

theorem sent_cons (x : Act) (tr : List Act) : sent (x :: tr) = (sent? x).toList ++ sent tr := by
  unfold sent
  rw [filterMap_cons]
  cases sent? x <;> rfl

variable {r : Request} {more tr : List Act} {p : PaymentSummary}
  {rest : List (Request × HttpOutcome)} {as : List (Sigma HttpCall.Ans)} {x : Act} {tr' : List Act}

theorem sent?_eq_some {o : HttpOutcome} (h : sent? x = some (r, o)) :
    ∃ s s', x = ⟨.horizon (.request r), o, s, s'⟩ := by
  obtain ⟨op, ans, s, s'⟩ := x
  unfold sent? at h
  split at h
  · rename_i heq
    cases heq
    cases h
    exact ⟨s, s', rfl⟩
  · cases h

theorem sent_eq_cons {o : HttpOutcome} (h : sent tr = (r, o) :: rest) :
    ∃ later s s' before, tr = later ++ ⟨.horizon (.request r), o, s, s'⟩ :: before ∧
    sent before = rest := by
  induction tr with
  | nil => cases h
  | cons x tr ih =>
    rw [sent_cons] at h
    cases hx : sent? x with
    | none =>
      rw [hx] at h
      obtain ⟨later, s, s', before, rfl, hb⟩ := ih h
      exact ⟨x :: later, s, s', before, rfl, hb⟩
    | some =>
      rw [hx] at h
      cases h
      obtain ⟨s, s', rfl⟩ := sent?_eq_some hx
      exact ⟨[], s, s', tr, rfl, rfl⟩

abbrev SeesHttp (x : Act) (y : Sigma HttpCall.Ans) : Prop := Sees Op.horizon (fun _ a => a) x y

theorem sent_of_sees (h : List.Forall₂ SeesHttp more as) :
    sent more = (requests as).map (fun y => (y.1, y.2)) := by
  induction h with
  | nil => rfl
  | @cons x y more as hx hs ih =>
    obtain ⟨a, s, s', rfl, rfl⟩ := hx
    obtain ⟨c, b⟩ := y
    rw [sent_cons, ih]
    cases c <;> rfl

theorem lastLookup_append (more tr : List Act) :
    lastLookup (more ++ tr) = (lastLookup more).or (lastLookup tr) := by
  unfold lastLookup
  rw [sent_append, findSome?_append]

theorem asked_append (h : ∀ x ∈ more, isStore x.op = false) (tr : List Act) :
    asked (more ++ tr) = (lastLookup more).or (asked tr) := by
  have hall : ∀ x ∈ more, (!isStore x.op) = true := by
    intro x hx
    rw [h x hx]
    rfl
  unfold asked
  rw [takeWhile_append_of_pos hall, lastLookup_append]

theorem asked_cons_store (h : isStore x.op = true) (tr : List Act) : asked (x :: tr) = none := by
  unfold asked
  rw [takeWhile_cons_of_neg (by rw [h]; decide)]
  rfl

theorem lastLookup_of_asked {q : String × HttpOutcome} (h : asked tr = some q) :
    lastLookup tr = some q := by
  rw [← takeWhile_append_dropWhile (l := tr), lastLookup_append]
  unfold asked at h
  rw [h]
  rfl

theorem isStore_of_sees (h : List.Forall₂ SeesHttp more as) : ∀ x ∈ more, isStore x.op = false :=
  forall_of_sees (fun _ _ _ _ => rfl) h

/-- The transaction looked up since the last store call, if any, was not found. -/
def Undecided (tr : List Act) : Prop :=
  ∀ hash o, asked tr = some (hash, o) → ∃ e, readLookup o = .error e

/-! ### The discipline -/

/-- The validator accepted the transaction, with this summary, and this is its hash. -/
structure Accepted (out : Outside) (wallet : Wallet) (xdr : String)
    (payment : Option PaymentSummary) (hash : String) : Prop where
  valid : validateSignedXdr out.strkey out.xdr xdr wallet.stellarAccountG = .ok payment
  hash : out.txHash xdr = some hash

/-- The allowlist was read, and if it is enabled it has the destination. -/
def Cleared (out : Outside) (walletId : Uuid) (p : PaymentSummary) (tr : List Act) : Prop :=
  ∃ config s s', ⟨.getWithdrawalAllowlistConfig walletId, .ok config, s, s'⟩ ∈ tr ∧
    (config.any (·.enabled) = true → ∃ base s s', out.strkey.toBaseAccount p.destination =
      some base ∧ ⟨.isAddressWhitelisted walletId base, .ok true, s, s'⟩ ∈ tr)

theorem Cleared.mono {out : Outside} {w : Uuid}
    (h : Cleared out w p tr) (hsub : ∀ x ∈ tr, x ∈ tr') : Cleared out w p tr' := by
  obtain ⟨config, s, s', hm, hw⟩ := h
  refine ⟨config, s, s', hsub _ hm, fun he => ?_⟩
  obtain ⟨base, t, t', hb, hm'⟩ := hw he
  exact ⟨base, t, t', hb, hsub _ hm'⟩

/-- The rows a relay records: the pending one before it submits, the settled one on the verdict. -/
def Records (wallet : Wallet) (xdr : String) (p : PaymentSummary) (hash : String) (tr : List Act)
    (new : NewWithdrawalTransaction) : Prop :=
  (sent tr = [] ∧ new = withdrawalOf wallet p hash .pending none) ∨
    ∃ o, sent tr = [(.postTransactions xdr, o)] ∧
      (verdictOf hash (submitVerdict o)).settled = true ∧
      new = withdrawalOf wallet p hash (verdictOf hash (submitVerdict o)).status
        (verdictOf hash (submitVerdict o)).ledger

/-- The reconciler was given the row as a stale pending one. -/
def Listed (tr : List Act) (row : Transaction) : Prop :=
  ∃ olderThan limit rows s s',
    ⟨.listStalePendingWithdrawals olderThan limit, .ok rows, s, s'⟩ ∈ tr ∧ row ∈ rows

/-- The close time was read as `close` while the transaction was last seen missing. -/
def Missing (out : Outside) (tr : List Act) (hash : String) (close : Int) : Prop :=
  ∃ later o s s' before o', tr = later ++ ⟨.horizon (.request .getLatestLedger), o, s, s'⟩ ::
    before ∧ out.client.readCloseTime o = .ok close ∧ lastLookup before = some (hash, o') ∧
    readLookup o' = .error .notFound

/-- What the reconciler must have seen to settle a row with a status. -/
inductive Judged (out : Outside) (tr : List Act) (row : Transaction) : TxStatus → Option Int → Prop
  | confirmed {hash o ledger} : row.stellarTxHash = some hash → asked tr = some (hash, o) →
      readLookup o = .ok ⟨true, ledger⟩ → Judged out tr row .confirmed ledger
  | noHash : row.stellarTxHash = none → Undecided tr → Judged out tr row .failed none
  | onChain {hash o ledger} : row.stellarTxHash = some hash → asked tr = some (hash, o) →
      readLookup o = .ok ⟨false, ledger⟩ → Judged out tr row .failed none
  | expired {hash max close} : row.stellarTxHash = some hash → row.metadata.maxTime = some max →
      Undecided tr → Missing out tr hash close → max < close → Judged out tr row .failed none
  | abandoned : row.metadata.maxTime = none → Undecided tr → Judged out tr row .failed none

def Allowed (out : Outside) (j : Job) (tr : List Act) (o : Op) : Prop :=
  match j with
  | .relay wallet xdr =>
    match o with
    | .horizon (.request r) => r = .postTransactions xdr ∧ sent tr = [] ∧
        ∃ payment hash, Accepted out wallet xdr payment hash ∧
          ∀ p, payment = some p → Cleared out wallet.id p tr
    | .getWithdrawalAllowlistConfig _ => sent tr = []
    | .isAddressWhitelisted .. => sent tr = []
    | .recordWithdrawalTransaction new => ∃ p hash, Accepted out wallet xdr (some p) hash ∧
        Records wallet xdr p hash tr new
    | .listStalePendingWithdrawals .. => False
    | .settlePendingWithdrawal .. => False
    | _ => True
  | .reconcile _ =>
    match o with
    | .horizon (.request r) => (∀ xdr, r ≠ .postTransactions xdr) ∧
        ∀ hash, r = .getTransaction hash → Undecided tr
    | .getWithdrawalAllowlistConfig _ => False
    | .isAddressWhitelisted .. => False
    | .recordWithdrawalTransaction _ => False
    | .listStalePendingWithdrawals .. => tr = []
    | .settlePendingWithdrawal id status ledger _ =>
      ∃ row, Listed tr row ∧ row.id = id ∧ Judged out tr row status ledger
    | _ => True

/-! ### The code keeps to it -/

variable {out : Outside} {ledger : Option Int} {status : TxStatus}

abbrev Does (out : Outside) (j : Job) {α : Type} (p : Prog Op Ans α) (Q : α → List Act → Prop)
    (tr : List Act) : Prop := Calls (system out) Grows (Allowed out j) p Q tr

theorem allowed_http (j : Job) (tr : List Act) {c : HttpCall} (hc : ∀ q, c ≠ .request q) :
    Allowed out j tr (.horizon c) := by
  cases c with
  | request q => exact absurd rfl (hc q)
  | _ => cases j <;> exact trivial

theorem calls_horizon {j : Job} {α T : Type} {p : HttpM α} {kind : CallKind}
    {read : HttpOutcome → Except FetchError T} {Q : α → List (Sigma HttpCall.Ans) → Prop}
    (he : p.Ends (Polite kind r read) Q [])
    (hL : ∀ more, (∀ x ∈ more, isStore x.op = false) → (kind = .submit → sent more = []) →
      (∀ q ∈ sent more, q.1 = r ∧ ∃ e, read q.2 = .error e) →
      Allowed out j (more ++ tr) (.horizon (.request r))) :
    Does out j (horizon p) (fun a tr' => ∃ more as, tr' = more ++ tr ∧
      (∀ x ∈ more, isStore x.op = false) ∧
      sent more = (requests as).map (fun y => (y.1, y.2)) ∧ Q a as) tr := by
  refine (calls_embed ?_ he).imp ?_
  · intro more as hs o ho
    by_cases hq : ∃ q, o = .request q
    · obtain ⟨q, rfl⟩ := hq
      obtain ⟨rfl, hk, hrefused⟩ := ho q rfl
      refine hL more (isStore_of_sees hs) (fun h => ?_) (fun q' hq' => ?_)
      · rw [sent_of_sees hs, hk h]
        rfl
      · rw [sent_of_sees hs] at hq'
        obtain ⟨y, hy, rfl⟩ := mem_map.mp hq'
        obtain ⟨a, e, rfl, hread⟩ := hrefused y hy
        exact ⟨rfl, e, hread⟩
    · exact allowed_http j _ (fun q h => hq ⟨q, h⟩)
  · rintro a tr' ⟨more, as, rfl, hs, hQ⟩
    exact ⟨more, as, rfl, isStore_of_sees hs, sent_of_sees hs, hQ⟩

section Relay

variable {wallet : Wallet} {xdr : String}

variable {tr : List Act} {hash : String}

theorem calls_checkAllowlist (hs : sent tr = []) :
    Does out (.relay wallet xdr) (checkAllowlist out wallet.id p).run (fun r tr' =>
      r = .ok () → sent tr' = [] ∧ Cleared out wallet.id p tr') tr := by
  refine calls_tryCall hs ?_
  intro s ch a s' _ _
  cases a with
  | error => exact nofun
  | ok config =>
    show Calls _ _ _ (ExceptT.run (if _ then _ else _)) _ _
    by_cases he : config.any (·.enabled) = true
    · rw [if_pos he]
      cases hb : out.strkey.toBaseAccount p.destination with
      | none => exact nofun
      | some base =>
        refine calls_tryCall hs ?_
        intro t ch a t' _ _
        cases a with
        | error => exact nofun
        | ok found =>
          cases found with
          | false => exact nofun
          | true =>
            intro _
            refine ⟨hs, config, s, s', mem_cons_of_mem _ mem_cons_self, fun _ => ?_⟩
            exact ⟨base, t, t', hb, mem_cons_self⟩
    · rw [if_neg he]
      exact fun _ => ⟨hs, config, s, s', mem_cons_self, fun h => absurd h he⟩

theorem calls_checkPayment (payment : Option PaymentSummary) :
    Does out (.relay wallet xdr) (checkPayment out wallet.id payment).run (fun r tr' =>
      r = .ok () → sent tr' = [] ∧ ∀ p, payment = some p → Cleared out wallet.id p tr') [] := by
  cases payment with
  | none => exact fun _ => ⟨rfl, fun p h => nomatch h⟩
  | some =>
    refine (calls_checkAllowlist rfl).imp ?_
    intro r tr' h hr
    refine ⟨(h hr).1, fun p' hp => ?_⟩
    cases hp
    exact (h hr).2

theorem calls_recordWithdrawal (ha : Accepted out wallet xdr (some p) hash)
    (hr : Records wallet xdr p hash tr (withdrawalOf wallet p hash status ledger)) :
    Does out (.relay wallet xdr) (recordWithdrawal wallet p hash status ledger) (fun _ tr' =>
      sent tr' = sent tr ∧ ∀ x ∈ tr, x ∈ tr') tr :=
  ⟨⟨p, hash, ha, hr⟩, fun _ _ _ _ _ _ => ⟨rfl, fun _ hx => mem_cons_of_mem _ hx⟩⟩

theorem calls_submitAndRecord {payment : Option PaymentSummary}
    (ha : Accepted out wallet xdr payment hash) (hs : sent tr = [])
    (hc : ∀ p, payment = some p → Cleared out wallet.id p tr) :
    Does out (.relay wallet xdr) (submitAndRecord out wallet xdr payment hash) (fun _ _ => True)
      tr := by
  have pending : Does out (.relay wallet xdr) (recordPending wallet hash payment) (fun _ tr' =>
      sent tr' = [] ∧ ∀ x ∈ tr, x ∈ tr') tr := by
    cases payment with
    | none => exact ⟨hs, fun _ h => h⟩
    | some =>
      refine (calls_recordWithdrawal ha (.inl ⟨hs, rfl⟩)).imp ?_
      intro _ tr' h
      exact ⟨h.1.trans hs, h.2⟩
  refine calls_bind (pending.imp ?_)
  rintro - tr1 ⟨hs1, hsub⟩
  refine calls_bind ((calls_horizon (submitTransaction_ends out.client xdr) ?_).imp ?_)
  · intro more _ hmore _
    refine ⟨rfl, ?_, payment, hash, ha, fun p hp => ?_⟩
    · rw [sent_append, hmore rfl, hs1]
      rfl
    · exact (hc p hp).mono (fun x hx => mem_append_right _ (hsub x hx))
  rintro res tr2 ⟨_, as, rfl, -, hsent, hres⟩
  refine calls_bind ?_
  cases payment with
  | none => exact trivial
  | some =>
    show Calls _ _ _ (if _ then _ else _) _ _
    by_cases hset : (verdictOf hash res).settled = true
    · rw [if_pos hset]
      refine (calls_recordWithdrawal ha (.inr ?_)).imp (fun _ _ _ => trivial)
      rcases hres with ⟨rfl, -⟩ | ⟨o, hreq, rfl⟩
      · cases hset
      · refine ⟨o, ?_, hset, rfl⟩
        rw [sent_append, hsent, hreq, hs1]
        rfl
    · rw [if_neg hset]
      exact trivial

theorem calls_relay : Does out (.relay wallet xdr) (relaySignedTransaction out wallet xdr).run
    (fun _ _ => True) [] := by
  refine calls_bindE ?_
  cases hv : validateSignedXdr out.strkey out.xdr xdr wallet.stellarAccountG with
  | error => exact trivial
  | ok payment =>
    refine calls_bindE ((calls_checkPayment payment).imp ?_)
    intro r tr hr
    cases r with
    | error => exact trivial
    | ok =>
      obtain ⟨hs, hc⟩ := hr rfl
      cases hh : out.txHash xdr with
      | none => exact trivial
      | some =>
        exact calls_bind ((calls_submitAndRecord ⟨hv, hh⟩ hs hc).imp (fun _ _ _ => trivial))

end Relay

section Reconcile

variable {cfg : ReconcilerConfig}

variable {more tr : List Act} {row : Transaction} {hash : String} {o : HttpOutcome} {stats : Stats}

theorem Listed.mono (h : Listed tr row) (hsub : ∀ x ∈ tr, x ∈ tr') : Listed tr' row := by
  obtain ⟨olderThan, limit, rows, s, s', hm, hr⟩ := h
  exact ⟨olderThan, limit, rows, s, s', hsub _ hm, hr⟩

theorem lastLookup_of_sent (h : sent more = (.getTransaction hash, o) :: rest) :
    lastLookup more = some (hash, o) := by
  unfold lastLookup
  rw [h]
  rfl

theorem mem_sent_of_lastLookup (h : lastLookup tr = some (hash, o)) :
    (.getTransaction hash, o) ∈ sent tr := by
  obtain ⟨⟨r, o'⟩, hq, hr⟩ := exists_of_findSome?_eq_some h
  cases r with
  | getTransaction =>
    cases hr
    exact hq
  | _ => cases hr

theorem lastLookup_eq_none (h : ∀ q ∈ sent more, q.1 = .getLatestLedger) :
    lastLookup more = none := by
  cases hl : lastLookup more with
  | none => rfl
  | some => cases h _ (mem_sent_of_lastLookup hl)

theorem Undecided.append (h : Undecided tr) (hmore : ∀ x ∈ more, isStore x.op = false)
    (hs : ∀ hash o, (.getTransaction hash, o) ∈ sent more → ∃ e, readLookup o = .error e) :
    Undecided (more ++ tr) := by
  intro hash o hlast
  rw [asked_append hmore] at hlast
  cases hl : lastLookup more with
  | none =>
    rw [hl] at hlast
    exact h hash o hlast
  | some =>
    rw [hl] at hlast
    cases hlast
    exact hs hash o (mem_sent_of_lastLookup hl)

theorem Undecided.store (h : isStore x.op = true) (tr : List Act) : Undecided (x :: tr) := by
  intro hash o hlast
  rw [asked_cons_store h] at hlast
  cases hlast

theorem undecided_of_asked {e : FetchError}
    (h : asked tr = some (hash, o)) (he : readLookup o = .error e) : Undecided tr := by
  intro hash' o' h'
  rw [h] at h'
  cases h'
  exact ⟨e, he⟩

theorem calls_lookup (hash : String) (hu : Undecided tr) :
    Does out (.reconcile cfg) (horizon (out.client.transactionByHash hash)) (fun r tr' =>
      (∀ x ∈ tr, x ∈ tr') ∧
      match r with
      | .ok (.found successful ledger) =>
        ∃ o, asked tr' = some (hash, o) ∧ readLookup o = .ok ⟨successful, ledger⟩
      | .ok .notFound => ∃ o, asked tr' = some (hash, o) ∧ readLookup o = .error .notFound
      | .error _ => Undecided tr') tr := by
  refine (calls_horizon (transactionByHash_ends out.client hash) ?_).imp ?_
  · intro more hmore _ hrefused
    refine ⟨fun xdr h => (nomatch h), fun _ _ => hu.append hmore ?_⟩
    intro hash' o ho
    exact (hrefused _ ho).2
  · rintro r tr' ⟨more, as, rfl, hmore, hsent, hres⟩
    refine ⟨fun x hx => mem_append_right _ hx, ?_⟩
    rcases hres with ⟨hnone, e, rfl⟩ | ⟨o, _, hreq, hread⟩
    · refine hu.append hmore ?_
      rw [hsent, hnone]
      exact fun _ _ h => absurd h not_mem_nil
    · have hasked : asked (more ++ tr) = some (hash, o) := by
        rw [hreq] at hsent
        rw [asked_append hmore, lastLookup_of_sent hsent]
        rfl
      cases r with
      | error =>
        obtain ⟨e', he'⟩ := hread
        exact undecided_of_asked hasked he'
      | ok lookup =>
        cases lookup with
        | found | notFound => exact ⟨o, hasked, hread⟩

theorem calls_closeTime (tr : List Act) :
    Does out (.reconcile cfg) (horizon out.client.latestLedgerCloseTime) (fun r tr' =>
      (∀ x ∈ tr, x ∈ tr') ∧ asked tr' = asked tr ∧ ∀ close, r = .ok close →
        ∀ hash o, lastLookup tr = some (hash, o) → readLookup o = .error .notFound →
          Missing out tr' hash close) tr := by
  refine (calls_horizon (latestLedgerCloseTime_ends out.client) ?_).imp ?_
  · intro more _ _ _
    exact ⟨fun xdr h => (nomatch h), fun hash h => (nomatch h)⟩
  · rintro r tr' ⟨more, as, rfl, hmore, hsent, honly, hclose⟩
    have hnone : ∀ q ∈ sent more, q.1 = .getLatestLedger := by
      intro q hq
      rw [hsent] at hq
      obtain ⟨y, hy, rfl⟩ := mem_map.mp hq
      exact honly y hy
    refine ⟨fun x hx => mem_append_right _ hx, ?_, ?_⟩
    · rw [asked_append hmore, lastLookup_eq_none hnone]
      rfl
    · intro close hr hash o' hlast hmiss
      obtain ⟨o, _, hreq, hread⟩ := hclose close hr
      rw [hreq] at hsent
      obtain ⟨later, s, s', before, rfl, -⟩ := sent_eq_cons hsent
      refine ⟨later, o, s, s', before ++ tr, o', by rw [append_assoc]; rfl, hread, ?_, hmiss⟩
      have hnone' : ∀ q ∈ sent before, q.1 = .getLatestLedger := by
        intro q hq
        refine hnone q ?_
        rw [sent_append, sent_cons]
        simp [hq]
      rw [lastLookup_append, lastLookup_eq_none hnone', hlast]
      rfl

/-- Why a verdict is given. -/
def Grounds (out : Outside) (tr : List Act) (row : Transaction) : RowVerdict → Prop
  | .confirmed ledger => Judged out tr row .confirmed ledger
  | .failed _ => Judged out tr row .failed none
  | .wait => Undecided tr

theorem asked_utcNow (t : Time) (s s' : State) (tr : List Act) :
    asked (⟨.utcNow, t, s, s'⟩ :: tr) = asked tr := by
  have hone : ∀ x ∈ [(⟨.utcNow, t, s, s'⟩ : Act)], isStore x.op = false := by
    intro x hx
    rw [mem_singleton.mp hx]
    rfl
  have happ := asked_append hone tr
  exact happ

theorem calls_resolve (row : Transaction) (hu : Undecided tr) :
    Does out (.reconcile cfg) (resolve out cfg row) (fun v tr' =>
      (∀ x ∈ tr, x ∈ tr') ∧ Grounds out tr' row v) tr := by
  unfold resolve
  cases hh : row.stellarTxHash with
  | none => exact ⟨fun _ h => h, .noHash hh hu⟩
  | some hash =>
    refine calls_bind ((calls_lookup hash hu).imp ?_)
    rintro r tr1 ⟨hsub, hlook⟩
    cases r with
    | error => exact ⟨hsub, hlook⟩
    | ok lookup =>
      cases lookup with
      | found successful =>
        obtain ⟨o, hasked, hread⟩ := hlook
        refine calls_perform trivial ?_
        intro s ch t s' _ _
        refine ⟨fun x hx => mem_cons_of_mem _ (hsub x hx), ?_⟩
        cases successful with
        | true => exact .confirmed hh hasked hread
        | false => exact .onChain hh hasked hread
      | notFound =>
        obtain ⟨o, hasked, hread⟩ := hlook
        have hu1 : Undecided tr1 := undecided_of_asked hasked hread
        cases hm : row.metadata.maxTime with
        | none =>
          refine calls_perform trivial ?_
          intro s ch t s' _ _
          have hu2 : Undecided (⟨.utcNow, t, s, s'⟩ :: tr1) := by
            unfold Undecided
            exact hu1
          refine ⟨fun x hx => mem_cons_of_mem _ (hsub x hx), ?_⟩
          show Grounds out _ row (if _ then _ else _)
          split
          · exact .abandoned hm hu2
          · exact hu2
        | some =>
          refine calls_bind (calls_bind ((calls_closeTime tr1).imp ?_))
          rintro r tr2 ⟨hsub2, hsame, hclose⟩
          refine calls_perform trivial ?_
          intro s ch t s' _ _
          have hu2 : Undecided (⟨.utcNow, t, s, s'⟩ :: tr2) := by
            unfold Undecided
            rw [asked_utcNow, hsame]
            exact hu1
          refine ⟨fun x hx => mem_cons_of_mem _ (hsub2 x (hsub x hx)), ?_⟩
          cases r with
          | error => exact hu2
          | ok close =>
            show Grounds out _ row (if _ then _ else _)
            split
            · rename_i hgt
              obtain ⟨later, o1, s1, s1', before, o', rfl, h1, h2, h3⟩ :=
                hclose close rfl hash o (lastLookup_of_asked hasked) hread
              exact .expired hh hm hu2 ⟨_ :: later, o1, s1, s1', before, o', rfl, h1, h2, h3⟩ hgt
            · exact hu2

theorem calls_settleRow {reason : Option String} (hl : Listed tr row)
    (hj : Judged out tr row status ledger) :
    Does out (.reconcile cfg) (settleRow row status ledger reason stats).run (fun _ tr' =>
      (∀ x ∈ tr, x ∈ tr') ∧ Undecided tr') tr := by
  refine calls_tryCall ⟨row, hl, rfl, hj⟩ ?_
  intro s ch a s' _ _
  have done : (∀ x ∈ tr, x ∈ ⟨.settlePendingWithdrawal row.id status ledger reason, a, s, s'⟩ ::
      tr) ∧ Undecided (⟨.settlePendingWithdrawal row.id status ledger reason, a, s, s'⟩ :: tr) :=
    ⟨fun x hx => mem_cons_of_mem _ hx, .store rfl tr⟩
  cases a with
  | error => exact done
  | ok =>
    show Calls _ _ _ (ExceptT.run (if _ then _ else _)) _ _
    split
    · split
      · exact done
      · exact done
    · exact done

theorem calls_reconcileRow (hl : Listed tr row) (hu : Undecided tr) :
    Does out (.reconcile cfg) (reconcileRow out cfg row stats).run (fun _ tr' =>
      (∀ x ∈ tr, x ∈ tr') ∧ Undecided tr') tr := by
  refine calls_lift ((calls_resolve row hu).imp ?_)
  rintro v tr1 ⟨hsub, hg⟩
  cases v with
  | confirmed | failed =>
    exact (calls_settleRow (hl.mono hsub) hg).imp
      (fun _ _ h => ⟨fun x hx => h.1 x (hsub x hx), h.2⟩)
  | wait => exact ⟨hsub, hg⟩

theorem calls_reconcileRows (rows : List Transaction) (hl : ∀ row ∈ rows, Listed tr row)
    (hu : Undecided tr) :
    Does out (.reconcile cfg) (reconcileRows out cfg rows stats).run (fun _ _ => True) tr := by
  induction rows generalizing stats tr with
  | nil => exact trivial
  | cons row rows ih =>
    refine calls_bindE ((calls_reconcileRow (hl row mem_cons_self) hu).imp ?_)
    rintro r tr' ⟨hsub, hu'⟩
    cases r with
    | error => exact trivial
    | ok => exact ih (fun r hr => (hl r (mem_cons_of_mem _ hr)).mono hsub) hu'

theorem calls_reconcileOnce :
    Does out (.reconcile cfg) (reconcileOnce out cfg).run (fun _ _ => True) [] := by
  refine calls_tryCall rfl ?_
  intro s ch a s' _ _
  cases a with
  | error => exact trivial
  | ok rows =>
    refine calls_reconcileRows rows ?_ (.store rfl [])
    intro row hrow
    exact ⟨cfg.grace, cfg.batch, rows, s, s', mem_cons_self, hrow⟩

end Reconcile

theorem discipline (out : Outside) : Discipline (system out) Grows (Allowed out) where
  refl := Grows.refl
  trans := Grows.trans
  exec := exec_grows
  env := env_grows
  code := by
    intro j
    cases j with
    | relay => exact calls_bind (calls_relay.imp (fun _ _ h => h))
    | reconcile => exact calls_bind (calls_reconcileOnce.imp (fun _ _ h => h))

end Octo.Withdrawal
