import Octo.OneTimeCodes.Withdraw
import Octo.Withdrawal.System

/-!
# The system of one-time codes

Any number of requests for a code, confirmations, and uses of codes for other purposes run on one
database, one call at a time, and each may die between two calls.  Codes are purged, and deleted
with their account. A confirmation reaches the relay only after it has counted an attempt on a live
code of its user that is bound to its transaction, has compared the code, and has used it up
(`discipline`).
-/

namespace Octo.OneTimeCodes

open Conc Octo.Api List

inductive Job
  | withdrawRequestOtp (walletId : Uuid) (req : WithdrawRequest)
  | withdrawConfirm (walletId : Uuid) (req : WithdrawRequest)
  | issueOtp (userId : Uuid) (purpose : OtpPurpose) (recipient : String) (boundTo : Option String)
  | redeemOtp (userId : Uuid) (purpose : OtpPurpose) (codeHash : String) (boundTo : Option String)
  | purgeExpiredOtps (retainFor : Nat)
  | deleteOtps (userId : Uuid)
  deriving DecidableEq

def drop {ε α : Type} (p : ExceptT ε (Prog Op Ans) α) : Prog Op Ans Unit :=
  p.run.bind (fun _ => .ret ())

def code (out : Outside) : Job → Prog Op Ans Unit
  | .withdrawRequestOtp walletId req => drop (withdrawRequestOtp out walletId req)
  | .withdrawConfirm walletId req => drop (withdrawConfirm out walletId req)
  | .issueOtp userId purpose recipient boundTo =>
    drop (issueOtp out userId purpose recipient boundTo)
  | .redeemOtp userId purpose codeHash boundTo =>
    drop (verifyAndConsumeOtp userId purpose codeHash boundTo)
  | .purgeExpiredOtps retainFor => drop (attempt (.purgeExpiredOtps retainFor))
  | .deleteOtps userId => drop (attempt (.deleteOtps userId))

def env (out : Outside) (e : Withdrawal.Env) (s : State) : Option State :=
  (Withdrawal.env out.relay e s.relay).map (fun r => { s with relay := r })

def system (out : Outside) : Sys Job Op Ans Choice Withdrawal.Env State where
  code := code out
  canStart _ _ := true
  exec := exec out
  env := env out

abbrev Act := Conc.Act Op Ans State
abbrev World := Conc.World Job Op Ans State
abbrev Conf := Conc.Conf Job Op Ans State

def AnyState (_ : State) : Prop := True

/-! ### What a call can do -/

variable {out : Outside} {ch : Choice} {s s' : State} {bound : Option String} {o : Op} {r : Otp}

theorem storeOtps_cases {α : Type} {stmt : Nat → State → Except StoreError α × State}
    {a : Except StoreError α} (h : storeOtps stmt ch s = some (a, s')) :
    (∃ n, (a, s') = stmt n s) ∨ a = .error .database ∧ (s' = s ∨ s' = (stmt 0 s).2) := by
  cases ch with
  | store => exact store_cases h
  | _ => cases h

theorem storeOtps_grows {α : Type} {stmt : Nat → State → Except StoreError α × State}
    {a : Except StoreError α} (hstmt : ∀ n, s.otps.Grows (stmt n s).2.otps)
    (h : storeOtps stmt ch s = some (a, s')) : s.otps.Grows s'.otps := by
  rcases storeOtps_cases h with ⟨n, hn⟩ | ⟨-, rfl | rfl⟩
  · have hs : s' = (stmt n s).2 := congrArg Prod.snd hn
    rw [hs]
    exact hstmt n
  · exact .refl _
  · exact hstmt 0

def Grows (s s' : State) : Prop := s.otps.Grows s'.otps

theorem exec_grows {a : Ans o} (h : exec out o ch s = some (a, s')) : Grows s s' := by
  cases o with
  | createOtp userId purpose codeHash bound ttl =>
    exact storeOtps_grows (fun _ => s.otps.grows_createOtp s.now userId purpose codeHash bound ttl)
      h
  | claimAttempt userId purpose =>
    exact storeOtps_grows (fun n => s.otps.grows_claimAttempt s.now n userId purpose) h
  | consumeOtp id => exact storeOtps_grows (fun _ => s.otps.grows_consumeOtp s.now id) h
  | purgeExpiredOtps | deleteOtps =>
    exact storeOtps_grows (fun _ => s.otps.grows_keep _) h
  | relay =>
    cases ch with
    | relay =>
      obtain ⟨r, -, he⟩ := Option.map_eq_some_iff.mp h
      obtain ⟨-, rfl⟩ := Prod.mk.inj he
      exact .refl _
    | _ => cases h
  | getWallet =>
    cases ch with
    | wallet =>
      simp only [exec] at h
      split at h
      · obtain ⟨-, rfl⟩ := call_inj h
        exact .refl _
      · cases h
    | _ => cases h
  | getUser =>
    cases ch with
    | user =>
      simp only [exec] at h
      split at h
      · obtain ⟨-, rfl⟩ := call_inj h
        exact .refl _
      · cases h
    | _ => cases h
  | _ =>
    cases ch <;> cases h
    all_goals exact .refl _

theorem exec_claim {userId : Uuid} {purpose : OtpPurpose} {id : Uuid} {hash : String}
    (h : exec out (.claimAttempt userId purpose) ch s = some (.ok (some (id, hash, bound)), s')) :
    ∃ r ∈ s.otps.rows, r.userId = userId ∧ r.purpose = purpose ∧ OtpTable.isLive r s.now = true ∧
      r.id = id ∧ r.codeHash = hash ∧ r.txHashBound = bound ∧
      s'.otps = s.otps.update (fun r' => r'.id == r.id)
        (fun r' => { r' with attempts := r'.attempts + 1 }) := by
  rcases storeOtps_cases h with ⟨n, hn⟩ | ⟨ha, -⟩
  · obtain ⟨ha, hs⟩ := Prod.mk.inj hn
    rcases s.otps.claimAttempt_cases s.now n userId purpose with hc
      | ⟨r, hr, huser, hpurpose, hlive, hc⟩
    · simp only [hc] at ha
      cases ha
    · simp only [hc] at ha hs
      cases ha
      exact ⟨r, hr, huser, hpurpose, hlive, rfl, rfl, rfl, by rw [hs]⟩
  · cases ha

theorem exec_consume {id : Uuid} (h : exec out (.consumeOtp id) ch s = some (.ok true, s')) :
    (s.otps.consumeOtp s.now id).1 = true ∧ s'.otps = (s.otps.consumeOtp s.now id).2 := by
  rcases storeOtps_cases h with ⟨n, hn⟩ | ⟨ha, -⟩
  · obtain ⟨ha, hs⟩ := Prod.mk.inj hn
    exact ⟨(Except.ok.inj ha).symm, congrArg State.otps hs⟩
  · cases ha

theorem env_grows {e : Withdrawal.Env} (h : env out e s = some s') : Grows s s' := by
  obtain ⟨r, -, rfl⟩ := Option.map_eq_some_iff.mp h
  exact .refl _

/-! ### What a confirmation rests on -/

def LoggedIn (userId : Uuid) (tr : List Act) : Prop :=
  ∃ s s', ⟨.requireLogin, .ok userId, s, s'⟩ ∈ tr

/-- An attempt was counted on the code `r` of the user, which was then for withdrawals, not used up,
not expired and not out of attempts. -/
def Counted (userId : Uuid) (r : Otp) (tr : List Act) : Prop :=
  ∃ s s', ⟨.claimAttempt userId .withdrawal, .ok (some (r.id, r.codeHash, r.txHashBound)), s, s'⟩ ∈
    tr ∧
    r ∈ s.otps.rows ∧ r.userId = userId ∧ r.purpose = .withdrawal ∧ OtpTable.isLive r s.now = true

/-- The code was used up by one of the calls. -/
def UsedUp (id : Uuid) (tr : List Act) : Prop := ∃ s s', ⟨.consumeOtp id, .ok true, s, s'⟩ ∈ tr

/-- The code `r` authorises the request: it was issued to its user for its transaction, matches the
code submitted, and was used up for it. -/
def Authorised (out : Outside) (req : WithdrawRequest) (r : Otp) (tr : List Act) : Prop :=
  ∃ userId xdr code hash, LoggedIn userId tr ∧ req.transactionXdr = some xdr ∧
    req.code = some code ∧
    out.relay.txHash xdr = some hash ∧ r.codeHash = out.hashOtp code ∧ r.txHashBound = some hash ∧
    Counted userId r tr ∧ UsedUp r.id tr

/-- What a call of the relay carries: a submission this XDR, and a recorded row its hash. -/
def Carries (out : Withdrawal.Outside) (xdr : String) : Withdrawal.Op → Prop
  | .horizon (.request r) => r = .postTransactions xdr
  | .recordWithdrawalTransaction new => new.stellarTxHash = out.txHash xdr
  | .listStalePendingWithdrawals .. | .settlePendingWithdrawal .. => False
  | _ => True

/-- A relay call needs an authorised code for the very transaction it carries. -/
def Allowed (out : Outside) (j : Job) (tr : List Act) : Op → Prop
  | .relay o =>
    match j with
    | .withdrawConfirm _ req => (∃ r, Authorised out req r tr) ∧
        ∃ xdr, req.transactionXdr = some xdr ∧ Carries out.relay xdr o
    | _ => False
  | _ => True

theorem Authorised.mono {req : WithdrawRequest} {tr tr' : List Act} (h : Authorised out req r tr)
    (hsub : tr ⊆ tr') : Authorised out req r tr' := by
  obtain ⟨userId, xdr, code, hash, ⟨s, s', hl⟩, hx, hcode, hh, hch, hb, ⟨t, t', hm, hr⟩, u, u',
      hu⟩ := h
  exact ⟨userId, xdr, code, hash, ⟨s, s', hsub hl⟩, hx, hcode, hh, hch, hb, ⟨t, t', hsub hm, hr⟩, u,
    u', hsub hu⟩

/-! ### The relay keeps to its transaction -/

section

open Withdrawal (checkPayment recordPending recordVerdict relaySignedTransaction submitAndRecord
  Verdict PaymentSummary)

variable {net : Withdrawal.Outside} {xdr hash : String}

/-- Relay code that touches no transaction but `xdr`. -/
abbrev Only {α : Type} (net : Withdrawal.Outside) (xdr : String)
    (p : Prog Withdrawal.Op Withdrawal.Ans α) (as : List (Sigma Withdrawal.Ans)) : Prop :=
  p.Ends (fun _ => Carries net xdr) (fun _ _ => True) as

variable {as : List (Sigma Withdrawal.Ans)} {wallet : Wallet} {payment : Option PaymentSummary}

theorem only_checkPayment {walletId : Uuid} :
    Only net xdr (checkPayment net walletId payment).run as := by
  cases payment with
  | none => trivial
  | some p =>
    refine ends_bindE ⟨trivial, fun _ => trivial⟩ (fun config as' => ?_)
    split
    · cases net.strkey.toBaseAccount p.destination with
      | none => trivial
      | some =>
        refine ends_bindE ⟨trivial, fun _ => trivial⟩ (fun ok as'' => ?_)
        split <;> trivial
    · trivial

theorem only_submitAndRecord (hhash : net.txHash xdr = some hash) :
    Only net xdr (submitAndRecord net wallet xdr payment hash) as := by
  refine ends_then ?_ (fun _ as1 => ends_then ?_ (fun r as2 => ends_then ?_ (fun _ _ => trivial)))
  · cases payment with
    | none => trivial
    | some => exact ⟨hhash.symm, fun _ => trivial⟩
  · refine (submitTransaction_ends net.client xdr).embed _ _ (fun as o ho => ?_) as1
    cases o with
    | request q => exact (ho q rfl).1
    | _ => trivial
  · cases payment with
    | none => trivial
    | some =>
      show Prog.Ends _ (if _ then _ else _) _ _
      split
      · exact ⟨hhash.symm, fun _ => trivial⟩
      · trivial

/-- `relay_signed_transaction` submits the transaction it is given and no other. -/
theorem only_relaySignedTransaction :
    Only net xdr (relaySignedTransaction net wallet xdr).run as := by
  refine ends_bindE trivial (fun payment as1 => ends_bindE only_checkPayment (fun _ as2 => ?_))
  cases hhash : net.txHash xdr with
  | none => trivial
  | some => exact ends_then (only_submitAndRecord hhash) (fun _ _ => trivial)

end

/-! ### The code keeps to it -/

abbrev Keeps {ε α : Type} (out : Outside) (j : Job) (p : ExceptT ε (Prog Op Ans) α)
    (P : α → List Act → Prop) (tr : List Act) : Prop :=
  Does (system out) Grows (Allowed out j) p P tr

section

variable {j : Job} {tr : List Act} {α : Type}

theorem keeps_query {f : Ans o → Except ApiError α} (hL : Allowed out j tr o) :
    Keeps out j (query o f) (fun v tr' => ∃ a s s', f a = .ok v ∧ tr' = ⟨o, a, s, s'⟩ :: tr)
      tr := by
  apply does_tryCall hL
  intro s ch a s' v _ _ hv
  exact ⟨a, s, s', hv, rfl⟩

theorem keeps_check {r : Except ApiError α} :
    Keeps out j (check r) (fun v tr' => r = .ok v ∧ tr' = tr) tr := by
  intro v hv
  exact ⟨hv, rfl⟩

theorem keeps_attempt (hL : Allowed out j tr o) : Keeps out j (attempt o) (fun _ _ => True) tr := by
  apply does_tryCall hL
  intros
  trivial

variable {userId walletId : Uuid} {purpose : OtpPurpose} {req : WithdrawRequest} {v : String}
  {x : Option String}

theorem keeps_claimAttempt :
    Keeps out j (Prog.tryCall (.claimAttempt userId purpose) id : ExceptT StoreError
      (Prog Op Ans) _)
      (fun claimed tr' => ∃ ch s s', exec out (.claimAttempt userId purpose) ch s =
        some (.ok claimed, s') ∧
        tr' = ⟨.claimAttempt userId purpose, .ok claimed, s, s'⟩ :: tr) tr := by
  refine does_tryCall (by trivial) ?_
  intro s ch a s' v _ he hv
  obtain rfl : a = .ok v := hv
  exact ⟨ch, s, s', he, rfl⟩

theorem keeps_consumeOtp {otpId : Uuid} :
    Keeps out j (Prog.tryCall (.consumeOtp otpId) id : ExceptT StoreError (Prog Op Ans) _)
      (fun consumed tr' => ∃ s s', tr' = ⟨.consumeOtp otpId, .ok consumed, s, s'⟩ :: tr) tr := by
  refine does_tryCall (by trivial) ?_
  intro s ch a s' v _ _ hv
  obtain rfl : a = .ok v := hv
  exact ⟨s, s', rfl⟩

theorem keeps_verifyAndConsumeOtp {codeHash : String} :
    Keeps out j (verifyAndConsumeOtp userId purpose codeHash bound) (fun _ tr' => tr ⊆ tr' ∧
      ∃ r : Otp, r.codeHash = codeHash ∧ r.txHashBound = bound ∧ UsedUp r.id tr' ∧
        ∃ s s', ⟨.claimAttempt userId purpose, .ok (some (r.id, r.codeHash, r.txHashBound)), s,
          s'⟩ ∈ tr' ∧
          r ∈ s.otps.rows ∧ r.userId = userId ∧ r.purpose = purpose ∧
          OtpTable.isLive r s.now = true) tr := by
  refine keeps_claimAttempt.bind ?_
  intro claimed tr1 h1
  obtain ⟨ch, s, s', he, rfl⟩ := h1
  match claimed with
  | none => exact does_throw
  | some (otpId, storedHash, boundTo) =>
    obtain ⟨r, hr, huser, hpurpose, hlive, rfl, rfl, rfl, -⟩ := exec_claim he
    simp only
    split
    · exact does_throw
    · rename_i hok
      rw [not_or, not_not, not_not] at hok
      refine keeps_consumeOtp.bind ?_
      intro consumed tr2 h2
      obtain ⟨t, t', rfl⟩ := h2
      split
      · rename_i hconsumed
        subst hconsumed
        apply does_pure
        refine ⟨fun y hy => mem_cons_of_mem _ (mem_cons_of_mem _ hy), r, hok.1, hok.2,
          ⟨t, t', mem_cons_self⟩, s, s', ?_, hr, huser, hpurpose, hlive⟩
        exact mem_cons_of_mem _ mem_cons_self
      · exact does_throw

theorem keeps_ownWallet : Keeps out j (ownWallet walletId) (fun v tr' => LoggedIn v.1 tr') tr := by
  refine Does.bind (keeps_query (by trivial)) ?_
  intro userId tr1 h1
  obtain ⟨a, s, s', rfl, rfl⟩ := h1
  refine Does.bind (keeps_query (by trivial)) ?_
  intro w tr2 h2
  obtain ⟨b, t, t', -, rfl⟩ := h2
  split
  · exact does_throw
  split
  · exact does_throw
  refine Does.bind (keeps_query (by trivial)) ?_
  intro user tr3 h3
  obtain ⟨d, u, u', -, rfl⟩ := h3
  cases user with
  | none => exact does_throw
  | some =>
    apply does_pure
    exact ⟨s, s', mem_cons_of_mem _ (mem_cons_of_mem _ mem_cons_self)⟩

theorem keeps_issueOtp {recipient : String} {boundTo : Option String} :
    Keeps out j (issueOtp out userId purpose recipient boundTo) (fun _ _ => True) tr := by
  refine Does.bind (keeps_query (by trivial)) ?_
  intro code tr1 _
  refine Does.bind (keeps_query (by trivial)) ?_
  intro _ tr2 _
  refine Calls.imp (keeps_query (by trivial)) ?_
  intros
  trivial

theorem keeps_withdrawRequestOtp :
    Keeps out j (withdrawRequestOtp out walletId req) (fun _ _ => True) tr := by
  refine keeps_ownWallet.bind ?_
  intro v tr1 _
  refine keeps_check.bind ?_
  intro signedXdr tr2 _
  refine keeps_check.bind ?_
  intro _ tr3 _
  refine keeps_check.bind ?_
  intro txHash tr4 _
  exact keeps_issueOtp

theorem keeps_relay (hj : j = .withdrawConfirm walletId req)
    (h : Authorised out req r tr) {wallet : Wallet} {signedXdr : String}
    (hxdr : req.transactionXdr = some signedXdr) :
    Keeps out j (relay out wallet signedXdr) (fun _ _ => True) tr := by
  refine Calls.imp (calls_embed ?_ only_relaySignedTransaction) ?_
  · intro more as _ o ho
    subst hj
    exact ⟨⟨r, h.mono (subset_append_right _ _)⟩, signedXdr, hxdr, ho⟩
  · intros
    trivial

theorem requireXdr_ok (h : requireXdr x = .ok v) : x = some v := by
  unfold requireXdr at h
  split at h
  · rename_i hy
    cases h
    exact (Option.filter_eq_some_iff.mp hy).1
  · cases h

theorem requireCode_ok (h : requireCode x = .ok v) : x = some v := by
  unfold requireCode at h
  split at h
  · rename_i hy
    cases h
    exact (Option.filter_eq_some_iff.mp hy).1
  · cases h

theorem hashOf_ok {xdr : String} (h : hashOf out xdr = .ok v) : out.relay.txHash xdr = some v := by
  unfold hashOf at h
  split at h
  · rename_i hy
    cases h
    exact hy
  · cases h

theorem keeps_withdrawConfirm (hj : j = .withdrawConfirm walletId req) :
    Keeps out j (withdrawConfirm out walletId req) (fun _ _ => True) tr := by
  refine keeps_ownWallet.bind ?_
  intro v tr1 hlogin
  obtain ⟨userId, _, _⟩ := v
  refine keeps_check.bind ?_
  intro signedXdr tr2 h2
  obtain ⟨hxdr, rfl⟩ := h2
  refine keeps_check.bind ?_
  intro code tr3 h3
  obtain ⟨hcode, rfl⟩ := h3
  refine keeps_check.bind ?_
  intro txHash tr4 h4
  obtain ⟨hhash, rfl⟩ := h4
  refine keeps_check.bind ?_
  intro payment tr5 h5
  obtain ⟨-, rfl⟩ := h5
  refine calls_lift (Calls.imp keeps_verifyAndConsumeOtp ?_)
  intro verified tr6 h6
  cases verified with
  | error =>
    cases payment with
    | none => exact does_throw
    | some =>
      refine (keeps_attempt (by trivial)).bind ?_
      intro _ _ _
      exact does_throw
  | ok u =>
    obtain ⟨hsub, r, hrhash, hrbound, hused, hcounted⟩ := h6 u rfl
    have hauth : Authorised out req r tr6 := by
      obtain ⟨s, s', hl⟩ := hlogin
      exact ⟨userId, signedXdr, code, txHash, ⟨s, s', hsub hl⟩, requireXdr_ok hxdr,
        requireCode_ok hcode, hashOf_ok hhash, hrhash, hrbound, hcounted, hused⟩
    refine Does.bind (keeps_relay hj hauth (requireXdr_ok hxdr)) ?_
    intro outcome tr7 _
    refine Does.bind (keeps_attempt (by trivial)) ?_
    intro _ tr8 _
    cases outcomeMail outcome with
    | none => exact does_pure trivial
    | some =>
      refine Does.bind (keeps_attempt (by trivial)) ?_
      intro _ _ _
      exact does_pure trivial

theorem keeps_drop {ε : Type} {p : ExceptT ε (Prog Op Ans) α} {P : α → List Act → Prop}
    (h : Keeps out j p P tr) :
    Calls (system out) Grows (Allowed out j) (drop p) (fun _ _ => True) tr := by
  refine calls_bind (Calls.imp h ?_)
  intros
  trivial

end

theorem discipline (out : Outside) : Discipline (system out) Grows (Allowed out) where
  refl s := OtpTable.Grows.refl s.otps
  trans := OtpTable.Grows.trans
  exec := exec_grows
  env := env_grows
  code := by
    intro j
    cases j with
    | withdrawRequestOtp => exact keeps_drop keeps_withdrawRequestOtp
    | withdrawConfirm => exact keeps_drop (keeps_withdrawConfirm rfl)
    | issueOtp => exact keeps_drop keeps_issueOtp
    | redeemOtp => exact keeps_drop keeps_verifyAndConsumeOtp
    | purgeExpiredOtps | deleteOtps =>
      exact keeps_drop (keeps_attempt (by trivial))

end Octo.OneTimeCodes
