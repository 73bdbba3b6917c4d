import Octo.Sponsor.System

/-!
# When a sponsor request makes which call

`Allowed out j tr o` says when a task of job `j` that has made the calls `tr` (newest first) makes
the call `o`.  A request sums the fees of its wallet only under the wallet's lock, and inserts only
a fee of at least the network's minimum, against the budget it has read.  It submits once, a
fee-bump of the fee it has committed to, and finalises that reservation once, by the verdict on the
submission.
-/

namespace Octo.Sponsor

open Conc Octo.Api Resilience List

abbrev Act := Conc.Act Op Ans State
abbrev World := Conc.World Job Op Ans State

/-! ### Submissions in a trace -/

def post? : Act → Option (String × HttpOutcome)
  | ⟨.horizon (.request (.postTransactions xdr)), o, _, _⟩ => some (xdr, o)
  | _ => none

def posted (tr : List Act) : List (String × HttpOutcome) := tr.filterMap post?

def isFinalize : Op → Bool
  | .finalize .. => true
  | _ => false

def isQuiet : Op → Bool
  | .horizon (.request (.postTransactions _)) => false
  | .finalize .. => false
  | _ => true

def Quiet (tr : List Act) : Prop := ∀ x ∈ tr, isQuiet x.op = true

@[simp] theorem posted_append (tr tr' : List Act) : posted (tr ++ tr') = posted tr ++ posted tr' :=
  filterMap_append

variable {more tr : List Act} {hash : String} {fee : Int} {row : SponsoredTransaction}
  {as : List (Sigma HttpCall.Ans)}

theorem mem_posted {xdr : String} {o : HttpOutcome} (h : (xdr, o) ∈ posted tr) :
    ∃ s s', ⟨.horizon (.request (.postTransactions xdr)), o, s, s'⟩ ∈ tr := by
  obtain ⟨⟨op, ans, s, s'⟩, hx, hp⟩ := mem_filterMap.mp h
  unfold post? at hp
  split at hp
  · rename_i heq
    cases heq
    cases hp
    exact ⟨s, s', hx⟩
  · cases hp

theorem Quiet.cons (h : Quiet tr) {x : Act} (hx : isQuiet x.op = true) : Quiet (x :: tr) :=
  forall_mem_cons.mpr ⟨hx, h⟩

theorem Quiet.append {tr' : List Act} (h : Quiet tr) (h' : Quiet tr') : Quiet (tr ++ tr') := by
  exact forall_mem_append.mpr ⟨h, h'⟩

theorem Quiet.posted (h : Quiet tr) : posted tr = [] := by
  refine eq_nil_iff_forall_not_mem.mpr (fun ⟨xdr, o⟩ hq => ?_)
  obtain ⟨s, s', hx⟩ := mem_posted hq
  exact Bool.noConfusion (h _ hx)

theorem Quiet.unfinalized (h : Quiet tr) : ∀ x ∈ tr, isFinalize x.op = false := by
  intro x hx
  have hq := h x hx
  cases hop : x.op <;> rw [hop] at hq <;> first | rfl | cases hq

/-! ### What is allowed -/

/-- The row was inserted for the wallet, with this hash, fee and budget, and committed. -/
def Reserved (walletId : Uuid) (hash : String) (fee : Int) (row : SponsoredTransaction)
    (tr : List Act) : Prop :=
  ∃ tx budget later t t' before s s', tr = later ++ ⟨.commit tx, .ok (), t, t'⟩ :: before ∧
    ⟨.reserveInsert tx walletId hash fee budget, .ok (some row), s, s'⟩ ∈ before

theorem Reserved.append {w : Uuid} (h : Reserved w hash fee row tr) (more : List Act) :
    Reserved w hash fee row (more ++ tr) := by
  obtain ⟨tx, budget, later, t, t', before, s, s', rfl, hm⟩ := h
  exact ⟨tx, budget, more ++ later, t, t', before, s, s', (append_assoc _ _ _).symm, hm⟩

def ReadBudget (walletId : Uuid) (budget : Option Int) (tr : List Act) : Prop :=
  ∃ c s s', ⟨.getGasSponsorshipConfig walletId, .ok (some c), s, s'⟩ ∈ tr ∧
    c.dailyBudgetStroops = budget

/-- The grounds of a finalisation: nothing was sent, or the verdict on what was. -/
def Grounds (tr : List Act) (status : TxStatus) : Prop :=
  posted tr = [] ∧ status = .failed ∨
    ∃ xdr o, posted tr = [(xdr, o)] ∧ status = (finalStatus (submitVerdict o)).1

/-- The preflight is one of this request: it has the request's transaction, and its hash. -/
def Preflight.IsOf (out : Outside) (req : SponsorRequest) (p : Preflight) : Prop :=
  req.transactionXdr = some p.innerXdr ∧
    ∃ hash, out.xdr.computeInnerTxHash p.innerXdr = some hash ∧ p.innerHashHex = hexEncode hash

def Allowed (out : Outside) (j : Job) (tr : List Act) (o : Op) : Prop :=
  match j with
  | .sponsor walletId req =>
    match o with
    | .horizon (.request (.postTransactions xdr)) => Quiet tr ∧
        ∃ (p : Preflight) (row : SponsoredTransaction), p.IsOf out req ∧
          Reserved walletId p.innerHashHex p.maxFee row tr ∧
          signWith out p.wallet p.innerXdr p.maxFee = .signed xdr
    | .reserveSnapshot tx w => w = walletId ∧
        ∃ s s', ⟨.advisoryXactLock tx (sponsorLockKey walletId), .ok (), s, s'⟩ ∈ tr
    | .reserveInsert _ w _ fee budget =>
      w = walletId ∧ minBaseFee ≤ fee ∧ ReadBudget walletId budget tr
    | .finalize id status _ _ => (∀ x ∈ tr, isFinalize x.op = false) ∧
        (∃ hash fee row, Reserved walletId hash fee row tr ∧ row.id = id) ∧ Grounds tr status
    | .reconcileStale _ => False
    | _ => True
  | .reconcile _ => ∃ olderThan, o = .reconcileStale olderThan

/-! ### The code keeps to it -/

variable {out : Outside} {walletId : Uuid} {req : SponsorRequest}

abbrev Does (out : Outside) (walletId : Uuid) (req : SponsorRequest) {α : Type} (p : Prog Op Ans α)
    (Q : α → List Act → Prop) (tr : List Act) : Prop :=
  Calls (system out) Grows (Allowed out (.sponsor walletId req)) p Q tr

abbrev SeesHttp (x : Act) (y : Sigma HttpCall.Ans) : Prop := Sees Op.horizon (fun _ a => a) x y

def postOf : Sigma (fun _ : Request => HttpOutcome) → Option (String × HttpOutcome)
  | ⟨.postTransactions xdr, o⟩ => some (xdr, o)
  | _ => none

theorem posted_of_sees (h : List.Forall₂ SeesHttp more as) :
    posted more = (requests as).filterMap postOf := by
  induction h with
  | nil => rfl
  | @cons x y more as hx hs ih =>
    obtain ⟨c, b⟩ := y
    obtain ⟨a, s, s', rfl, ha⟩ := hx
    cases c with
    | request r =>
      cases ha
      have hp : posted (⟨.horizon (.request r), b, s, s'⟩ :: more) = (postOf ⟨r, b⟩).toList ++
          posted more := by
        unfold posted
        cases r <;> rfl
      rw [hp, ih]
      show _ = filterMap postOf (⟨r, b⟩ :: requests as)
      rw [filterMap_cons]
      cases postOf ⟨r, b⟩ <;> rfl
    | _ => exact ih

theorem quiet_of_sees (h : List.Forall₂ SeesHttp more as)
    (hno : ∀ y ∈ requests as, postOf y = none) : Quiet more := by
  induction h with
  | nil => exact forall_mem_nil _
  | @cons x y more as hx hs ih =>
    obtain ⟨c, b⟩ := y
    obtain ⟨a, s, s', rfl, -⟩ := hx
    cases c with
    | request r =>
      have hr := hno ⟨r, b⟩ mem_cons_self
      refine (ih (forall_mem_cons.mp hno).2).cons ?_
      cases r with
      | postTransactions => cases hr
      | _ => rfl
    | _ => exact (ih hno).cons rfl

theorem allowed_http {c : HttpCall} (hc : ∀ xdr, c ≠ .request (.postTransactions xdr)) :
    Allowed out (.sponsor walletId req) tr (.horizon c) := by
  cases c with
  | request r =>
    cases r with
    | postTransactions xdr => exact absurd rfl (hc xdr)
    | _ => exact trivial
  | _ => exact trivial

theorem calls_accountSequence {accountG : String} (hq : Quiet tr) :
    Does out walletId req (horizon (out.client.accountSequence accountG)) (fun _ tr' =>
      Quiet tr' ∧ ∀ x ∈ tr, x ∈ tr') tr := by
  refine (calls_embed ?_ (accountSequence_ends out.client accountG)).imp ?_
  · intro more as _ o ho
    refine allowed_http (fun xdr h => ?_)
    cases (ho _ h).1
  · rintro r tr' ⟨_, as, rfl, hs, hreq⟩
    refine ⟨Quiet.append (quiet_of_sees hs (fun y hy => ?_)) hq, fun x hx => mem_append_right _ hx⟩
    obtain ⟨q, o⟩ := y
    have h : q = _ := hreq _ hy
    subst h
    rfl

theorem checkRequest_ok {innerXdr : String} {maxFee : Int}
    (h : checkRequest req = .ok (innerXdr, maxFee)) :
    req.transactionXdr = some innerXdr ∧ minBaseFee ≤ maxFee := by
  unfold checkRequest at h
  split at h
  · cases h
  · rename_i hxdr
    split at h
    · cases h
    · split at h
      · cases h
      · rename_i hlt
        cases h
        exact ⟨(Option.filter_eq_some_iff.mp hxdr).1, Int.not_lt.mp hlt⟩

theorem checkSequence_ok {innerXdr hash : String} {liveSeq : Int}
    (h : checkSequence out innerXdr liveSeq = .ok hash) :
    ∃ bytes, out.xdr.computeInnerTxHash innerXdr = some bytes ∧ hash = hexEncode bytes := by
  unfold checkSequence at h
  split at h
  · cases h
  · split at h
    · cases h
    · split at h
      · cases h
        exact ⟨_, ‹_›, rfl⟩
      · cases h

theorem enabledConfig_ok {config : Option GasSponsorshipConfig} {c : GasSponsorshipConfig}
    (h : enabledConfig config = .ok c) : config = some c ∧ c.enabled = true := by
  cases config with
  | none => cases h
  | some =>
    simp only [enabledConfig] at h
    split at h
    · cases h
      exact ⟨rfl, ‹_›⟩
    · cases h

/-- **What a preflight that passes has established.** -/
theorem calls_preflight : Does out walletId req (preflight out walletId req).run (fun r tr' =>
    ∀ p, r = .ok p → p.IsOf out req ∧ Quiet tr' ∧ minBaseFee ≤ p.maxFee ∧
      ReadBudget walletId p.config.dailyBudgetStroops tr') [] := by
  refine calls_result ?_ (fun e _ p h => nomatch h)
  rintro ⟨_, _⟩ hreq
  refine calls_tryCall trivial ?_
  intro s ch a s' _ _
  cases a with
  | error => exact fun p h => nomatch h
  | ok wallet =>
    show Calls _ _ _ (ExceptT.run (if _ then _ else _)) _ _
    split
    · exact fun p h => nomatch h
    refine calls_tryCall trivial ?_
    intro t ch a t' _ _
    cases a with
    | error => exact fun p h => nomatch h
    | ok =>
      refine calls_result ?_ (fun e _ p h => nomatch h)
      intro c hc
      obtain ⟨rfl, -⟩ := enabledConfig_ok hc
      refine calls_result ?_ (fun e _ p h => nomatch h)
      intro _ _
      have hquiet : Quiet [⟨Op.getGasSponsorshipConfig walletId, .ok (some c), t, t'⟩,
          ⟨Op.getWallet walletId, .ok wallet, s, s'⟩] := by
        intro x hx
        rcases mem_cons.mp hx with rfl | hx
        · rfl
        · rw [mem_singleton.mp hx]
          rfl
      refine calls_bindE (calls_bind ((calls_accountSequence hquiet).imp ?_))
      rintro seq tr' ⟨hq, hsub⟩
      cases mapUnfunded seq with
      | error => exact fun p h => nomatch h
      | ok =>
        refine calls_result ?_ (fun e _ p h => nomatch h)
        intro hash hhash p hp
        cases hp
        obtain ⟨hxdr, hfee⟩ := checkRequest_ok hreq
        exact ⟨⟨hxdr, checkSequence_ok hhash⟩, hq, hfee, c, t, t', hsub _ mem_cons_self, rfl⟩

theorem calls_orRollback {α β : Type} {tx : Nat} {p : Prog Op Ans (Except StoreError α)}
    {k : α → ReserveM β} {Q : Except StoreError β → List Act → Prop}
    (h : Does out walletId req p (fun r tr' => match r with
      | .ok v => Does out walletId req (k v).run Q tr'
      | .error e => ∀ x : Act, Q (.error e) (x :: tr')) tr) :
    Does out walletId req (orRollback tx p >>= k).run Q tr := by
  refine calls_bindE (calls_bind (h.imp ?_))
  intro r tr' hr
  cases r with
  | ok => exact hr
  | error => exact ⟨trivial, fun _ _ _ _ _ _ => hr _⟩

/-- **A reservation that succeeds** was inserted under the budget that was read, and committed. -/
theorem calls_tryReserve {budget : Option Int}
    (hq : Quiet tr) (hfee : minBaseFee ≤ fee) (hb : ReadBudget walletId budget tr) :
    Does out walletId req (tryReserve walletId hash fee budget).run (fun r tr' =>
      ∀ row, r = .ok row → Quiet tr' ∧ Reserved walletId hash fee row tr') tr := by
  refine calls_tryCall trivial ?_
  intro s0 _ a s0' _ _
  cases a with
  | error => exact fun p h => nomatch h
  | ok tx =>
    refine calls_orRollback ⟨trivial, ?_⟩
    intro s1 _ a s1' _ _
    cases a with
    | error => exact fun _ p h => nomatch h
    | ok u =>
      refine calls_orRollback ⟨⟨rfl, s1, s1', mem_cons_self⟩, ?_⟩
      intro s2 _ a s2' _ _
      cases a with
      | error => exact fun _ p h => nomatch h
      | ok u =>
        refine calls_orRollback ⟨⟨rfl, hfee, ?_⟩, ?_⟩
        · obtain ⟨c, s, s', hm, hc⟩ := hb
          exact ⟨c, s, s', mem_cons_of_mem _ (mem_cons_of_mem _ (mem_cons_of_mem _ hm)), hc⟩
        intro s3 _ a s3' _ _
        cases a with
        | error => exact fun _ p h => nomatch h
        | ok row =>
          refine calls_orRollback ⟨trivial, ?_⟩
          intro s4 _ a s4' _ _
          cases a with
          | error => exact fun _ p h => nomatch h
          | ok =>
            cases row with
            | none => exact fun p h => nomatch h
            | some =>
              intro row' hrow
              cases hrow
              refine ⟨((((hq.cons rfl).cons rfl).cons rfl).cons rfl).cons rfl, ?_⟩
              exact ⟨tx, budget, [], s4, s4', _, s3, s3', rfl, mem_cons_self⟩

theorem calls_giveUp {error : String} (hq : Quiet tr) (hr : Reserved walletId hash fee row tr) :
    Does out walletId req (giveUp row error).run (fun _ _ => True) tr :=
  ⟨⟨hq.unfinalized, ⟨hash, fee, row, hr, rfl⟩, .inl ⟨hq.posted, rfl⟩⟩, fun _ _ _ _ _ _ => trivial⟩

/-- **One submission, and the verdict on it.** -/
theorem calls_submitAndFinalize {p : Preflight} {xdr : String}
    (hof : p.IsOf out req) (hq : Quiet tr) (hr : Reserved walletId p.innerHashHex p.maxFee row tr)
    (hs : signWith out p.wallet p.innerXdr p.maxFee = .signed xdr) :
    Does out walletId req (submitAndFinalize out p row xdr) (fun _ _ => True) tr := by
  refine calls_bind ((calls_embed ?_ (submitTransaction_ends out.client xdr)).imp ?_)
  · intro more as hsee o ho
    by_cases hpost : ∃ x, o = .request (.postTransactions x)
    · obtain ⟨x, rfl⟩ := hpost
      obtain ⟨hx, hnone, -⟩ := ho _ rfl
      cases hx
      refine ⟨Quiet.append (quiet_of_sees hsee ?_) hq, p, row, hof, hr.append more, hs⟩
      rw [hnone rfl]
      exact forall_mem_nil _
    · exact allowed_http (fun x hx => hpost ⟨x, hx⟩)
  · rintro res tr' ⟨more, as, rfl, hsee, hres⟩
    have hposted : posted (more ++ tr) = (requests as).filterMap postOf := by
      rw [posted_append, hq.posted, append_nil, posted_of_sees hsee]
    refine ⟨⟨?_, ⟨_, _, row, hr.append more, rfl⟩, ?_⟩, fun _ _ _ _ _ _ => trivial⟩
    · exact forall_mem_append.mpr ⟨forall_of_sees (fun _ _ _ _ => rfl) hsee, hq.unfinalized⟩
    · rcases hres with ⟨rfl, hreq⟩ | ⟨o, hreq, rfl⟩
      · exact .inl ⟨by rw [hposted, hreq]; rfl, rfl⟩
      · exact .inr ⟨xdr, o, by rw [hposted, hreq]; rfl, rfl⟩

theorem calls_sponsor :
    Does out walletId req (sponsor out walletId req).run (fun _ _ => True) [] := by
  refine calls_bindE (calls_preflight.imp ?_)
  intro r tr hr
  cases r with
  | error => exact trivial
  | ok p =>
    obtain ⟨hof, hq, hfee, hb⟩ := hr p rfl
    refine calls_bindE (calls_bind ((calls_tryReserve hq hfee hb).imp ?_))
    intro r tr' hr
    cases r with
    | error => exact trivial
    | ok row =>
      obtain ⟨hq', hres⟩ := hr row rfl
      unfold signAndSubmit
      split
      · exact calls_giveUp hq' hres
      · exact trivial
      · exact calls_giveUp hq' hres
      · exact calls_bind ((calls_submitAndFinalize hof hq' hres ‹_›).imp (fun _ _ _ => trivial))

theorem discipline (out : Outside) : Discipline (system out) Grows (Allowed out) where
  refl := fun s => DbGrows.refl s.db
  trans := DbGrows.trans
  exec := exec_grows
  env := env_grows
  code := by
    intro j
    cases j with
    | sponsor => exact calls_bind (calls_sponsor.imp (fun _ _ h => h))
    | reconcile olderThan => exact ⟨⟨olderThan, rfl⟩, fun _ _ _ _ _ _ => trivial⟩

end Octo.Sponsor
