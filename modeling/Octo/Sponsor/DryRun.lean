import Octo.Sponsor.Alone

/-!
# The dry run of a sponsorship

`validate_sponsor` is to say what `sponsor` would answer.  Both are evaluated alone, from one state
of the database and the breaker, with a Horizon that has one answer to each request (`serve`).  Both
begin with `preflight`, so they can differ only in the last guard: the projection reads the dedup
key before the budget, and the reservation the budget before the dedup key.
-/

namespace Octo.Sponsor

open Conc Octo.Api Resilience Prog

/-- The first half of `sponsor`: `preflight`, and the reservation. -/
def reserve (out : Outside) (walletId : Uuid) (req : SponsorRequest) :
    SponsorM (Preflight × SponsoredTransaction) := do
  let p ← preflight out walletId req
  let reserved ← ExceptT.mk ((tryReserve walletId p.innerHashHex p.maxFee
    p.config.dailyBudgetStroops).run >>= fun r => .ret (fromStore r))
  return (p, reserved)

def Accepted (r : Except ApiError SponsorValidateResponse) : Prop :=
  ∃ v, r = .ok v ∧ v.verdict = .accepted

/-- The status the dry run has announced, in its verdict or as its own. -/
def announced : Except ApiError SponsorValidateResponse → Option Nat
  | .ok v => v.rejectionStatus
  | .error e => some e.parts.1

section

variable (out : Outside) (http : Request → HttpOutcome) (s : State) (walletId : Uuid)
  (req : SponsorRequest)

/-- **The dry run predicts the real call**: it accepts exactly if the reservation succeeds, and
otherwise tells the status that `sponsor` answers with. -/
def Predicts : Prop :=
  let dry := ((validateSponsor out walletId req).run.eval (serve http) s).1
  let real := ((reserve out walletId req).run.eval (serve http) s).1
  (Accepted dry ↔ ∃ v, real = .ok v) ∧
  ∀ e, real = .error e → ((sponsor out walletId req).run.eval (serve http) s).1 = .error e ∧
    announced dry = some e.parts.1

/-- What `account_sequence` answers in this state, and the state it leaves. -/
def liveSequence (accountG : String) : Except ApiError Int × State :=
  (horizon (out.client.accountSequence accountG)).eval (serve http) s

structure Passes (p : Preflight) : Prop where
  request : checkRequest req = .ok (p.innerXdr, p.maxFee)
  wallet : s.db.getWallet walletId = .ok p.wallet
  active : p.wallet.archivedAt = none
  config : s.db.getGasSponsorshipConfig walletId = some p.config
  enabled : p.config.enabled = true
  checks : checkWallet out p.innerXdr p.maxFee p.wallet p.config = .ok ()
  sequence : ∃ seq, (liveSequence out http s p.wallet.stellarAccountG).1 = .ok seq ∧
    checkSequence out p.innerXdr seq = .ok p.innerHashHex

end

/-- The two guards agree: under a budget, a request that is already sponsored has to fit into it,
and the sums of a new one have to be `i64`s. -/
def Agreed (db : SponsorDb) (walletId : Uuid) (p : Preflight) : Prop :=
  ∀ budget, p.config.dailyBudgetStroops = some budget → FitsI64 (spentToday db walletId) →
    if isSponsored db p.innerHashHex then spentToday db walletId + p.maxFee ≤ budget
    else spentToday db walletId + p.maxFee ≤ i64Max ∧
      FitsI64 (budget - (spentToday db walletId + p.maxFee))

/-- A state in which no transaction is open; budgets are `BIGINT`s. -/
structure Rest where
  state : State
  alone : state.db.sessions = fun _ => none
  budgets : ∀ c ∈ state.db.configs, ∀ budget, c.dailyBudgetStroops = some budget → FitsI64 budget

/-! ### Preflight -/

section

variable {out : Outside} {http : Request → HttpOutcome} {s s' : State} {walletId : Uuid}
  {req : SponsorRequest} {p : Preflight} {db : SponsorDb} {α β : Type}
  {q : Prog Op Ans (Except StoreError α)} {tx : Nat}

theorem eval_check (r : Except ApiError α) : (check r).run.eval (serve http) s = (r, s) := rfl

theorem eval_horizon_db (q : HttpM α) (s : State) :
    ((horizon q).eval (serve http) s).2.db = s.db := by
  induction q generalizing s with
  | ret => rfl
  | call c k ih =>
    refine (ih _ _).trans ?_
    cases c <;> rfl

theorem eval_preflight {wallet : SealedWallet} {config : GasSponsorshipConfig} {innerXdr : String}
    {maxFee : Int} (hrequest : checkRequest req = .ok (innerXdr, maxFee))
    (hwallet : s.db.getWallet walletId = .ok wallet) (hactive : wallet.archivedAt = none)
    (hconfig : s.db.getGasSponsorshipConfig walletId = some config)
    (henabled : config.enabled = true)
    (hchecks : checkWallet out innerXdr maxFee wallet config = .ok ()) :
    (preflight out walletId req).run.eval (serve http) s = (do
        let live ← mapUnfunded (liveSequence out http s wallet.stellarAccountG).1
        let hash ← checkSequence out innerXdr live
        return ⟨wallet, config, innerXdr, maxFee, hash⟩,
       (liveSequence out http s wallet.stellarAccountG).2) := by
  have hread : (tryCall (.getWallet walletId) fromStore : SponsorM SealedWallet).run.eval
      (serve http) s = (.ok wallet, s) := by
    show (fromStore (s.db.getWallet walletId), s) = _
    rw [hwallet]
    rfl
  have hfound : (tryCall (.getGasSponsorshipConfig walletId) orInternal :
      SponsorM (Option GasSponsorshipConfig)).run.eval (serve http) s = (.ok (some config), s) := by
    show (orInternal (.ok (s.db.getGasSponsorshipConfig walletId)), s) = _
    rw [hconfig]
    rfl
  have hon : enabledConfig (some config) = .ok config := if_pos henabled
  have hsequence : (ExceptT.mk (horizon (out.client.accountSequence wallet.stellarAccountG) >>=
      fun r => .ret (mapUnfunded r)) : SponsorM Int).run.eval (serve http) s =
      (mapUnfunded (liveSequence out http s wallet.stellarAccountG).1,
        (liveSequence out http s wallet.stellarAccountG).2) := by
    show eval (serve http) ((horizon _).bind _) s = _
    rw [eval_bind]
    rfl
  unfold preflight
  rw [eval_bindE_ok (by rw [eval_check, hrequest])]
  rw [eval_bindE_ok hread, hactive]
  simp only [Option.isSome_none, Bool.false_eq_true, if_false]
  rw [eval_bindE_ok hfound, eval_bindE_ok (by rw [eval_check, hon]),
    eval_bindE_ok (by rw [eval_check, hchecks])]
  cases hl : mapUnfunded (liveSequence out http s wallet.stellarAccountG).1 with
  | error =>
    rw [eval_bindE_error (by rw [hsequence, hl])]
    rfl
  | ok live =>
    rw [eval_bindE_ok (by rw [hsequence, hl])]
    cases hc : checkSequence out innerXdr live with
    | error =>
      show _ = (checkSequence out innerXdr live >>= _, _)
      rw [hc]
      rfl
    | ok =>
      show _ = (checkSequence out innerXdr live >>= _, _)
      rw [hc]
      rfl

theorem preflight_of_passes (h : Passes out http s walletId req p) :
    (preflight out walletId req).run.eval (serve http) s =
      (.ok p, (liveSequence out http s p.wallet.stellarAccountG).2) := by
  obtain ⟨seq, hlive, hseq⟩ := h.sequence
  have hmapped : mapUnfunded (liveSequence out http s p.wallet.stellarAccountG).1 = .ok seq := by
    rw [hlive]
    rfl
  rw [eval_preflight h.request h.wallet h.active h.config h.enabled h.checks, hmapped]
  show (checkSequence out p.innerXdr seq >>= _, _) = _
  rw [hseq]
  rfl

theorem passes_of_preflight
    (h : (preflight out walletId req).run.eval (serve http) s = (.ok p, s')) :
    Passes out http s walletId req p := by
  obtain ⟨⟨_, _⟩, s1, h1, k1⟩ := of_eval_bindE_ok h
  obtain ⟨hrequest, rfl⟩ := Prod.mk.inj h1
  obtain ⟨wallet, s2, h2, k2⟩ := of_eval_bindE_ok k1
  obtain ⟨hwallet, rfl⟩ : fromStore (s.db.getWallet walletId) = .ok wallet ∧ s = s2 :=
    Prod.mk.inj h2
  split at k2
  · cases k2
  rename_i hactive
  obtain ⟨found, s3, h3, k3⟩ := of_eval_bindE_ok k2
  obtain ⟨hconfig, rfl⟩ : Except.ok (s.db.getGasSponsorshipConfig walletId) = .ok found ∧ s = s3 :=
    Prod.mk.inj h3
  obtain ⟨_, s4, h4, k4⟩ := of_eval_bindE_ok k3
  obtain ⟨hfound, rfl⟩ := Prod.mk.inj h4
  obtain ⟨rfl, henabled⟩ := enabledConfig_ok hfound
  obtain ⟨_, s5, h5, k5⟩ := of_eval_bindE_ok k4
  obtain ⟨hchecks, rfl⟩ := Prod.mk.inj h5
  obtain ⟨seq, s6, hlive, k6⟩ := of_eval_bindE_ok k5
  obtain ⟨_, s7, h7, k7⟩ := of_eval_bindE_ok k6
  obtain ⟨hseq, rfl⟩ := Prod.mk.inj h7
  cases k7
  refine ⟨hrequest, ?_, by simpa using hactive, Except.ok.inj hconfig, henabled, hchecks, seq,
    ?_, hseq⟩
  · cases hfound : s.db.getWallet walletId with
    | ok =>
      rw [hfound] at hwallet
      cases hwallet
      rfl
    | error =>
      rw [hfound] at hwallet
      cases hwallet
  · have hmapped : mapUnfunded (liveSequence out http s wallet.stellarAccountG).1 = .ok seq := by
      have hrun : eval (serve http)
          ((horizon (out.client.accountSequence wallet.stellarAccountG)).bind
          fun r => .ret (mapUnfunded r)) s = (.ok seq, s') := hlive
      rw [eval_bind] at hrun
      exact (Prod.mk.inj hrun).1
    cases hr : (liveSequence out http s wallet.stellarAccountG).1 with
    | ok =>
      rw [hr] at hmapped
      exact hmapped
    | error e =>
      rw [hr] at hmapped
      cases e <;> cases hmapped

/-! ### The two guards -/

def dryOutcome (db : SponsorDb) (walletId : Uuid) (p : Preflight) :
    Except StoreError (Option Int) :=
  if ¬ FitsI64 (spentToday db walletId) then .error .database
  else if isSponsored db p.innerHashHex then .error .conflict
  else
    match p.config.dailyBudgetStroops with
    | none => .ok none
    | some budget =>
      let left := wrapI64 (budget - (spentToday db walletId + p.maxFee))
      if left < 0 then .error .budgetExceeded else .ok (some left)

theorem wrapI64_sub (a b : Int) : wrapI64 (wrapI64 a - b) = wrapI64 (a - b) := Int.bmod_sub_bmod

theorem eval_tryReserve (halone : db.sessions = fun _ => none) (b : Breaker) :
    ((tryReserve walletId p.innerHashHex p.maxFee p.config.dailyBudgetStroops).run.eval (serve http)
      ⟨db, b⟩).1 = reserveOutcome db walletId p := by
  obtain ⟨db', h, -⟩ := serves_tryReserve (p := p) exampleOutside http halone b
  exact congrArg Prod.fst h.eval

variable {budget sum : Int}

theorem sponsorshipProjection_eq (db : SponsorDb) (walletId : Uuid) (hash : String) :
    db.sponsorshipProjection walletId hash = if ¬ FitsI64 (spentToday db walletId)
      then .error .database
      else .ok (spentToday db walletId, isSponsored db hash) := by
  by_cases hfits : FitsI64 (spentToday db walletId)
  · rw [if_neg (not_not.mpr hfits)]
    exact if_neg (mt not_fitsI64.mpr (not_not.mpr hfits))
  · rw [if_pos hfits]
    exact if_pos (not_fitsI64.mp hfits)

theorem eval_dryRun (h : (preflight out walletId req).run.eval (serve http) s = (.ok p, s')) :
    ((dryRun out walletId req).run.eval (serve http) s).1 =
      (fromStore (dryOutcome s'.db walletId p)).map (fun left => (p, left)) := by
  have hproj : (tryCall (.sponsorshipProjection walletId p.innerHashHex) fromStore :
      SponsorM (Int × Bool)).run.eval (serve http) s' =
      (fromStore (s'.db.sponsorshipProjection walletId p.innerHashHex), s') := rfl
  rw [sponsorshipProjection_eq] at hproj
  unfold dryRun
  rw [eval_bindE_ok h]
  unfold dryOutcome
  by_cases hfits : FitsI64 (spentToday s'.db walletId)
  · rw [if_neg (not_not.mpr hfits)] at hproj ⊢
    rw [eval_bindE_ok hproj]
    dsimp only
    by_cases hin : isSponsored s'.db p.innerHashHex = true
    · rw [if_pos hin, if_pos hin]
      rfl
    · rw [if_neg hin, if_neg hin]
      cases p.config.dailyBudgetStroops with
      | none => rfl
      | some =>
        dsimp only
        rw [wrapI64_sub, Int.sub_sub]
        split
        · rfl
        · rfl
  · rw [if_pos hfits] at hproj ⊢
    rw [eval_bindE_error hproj]
    rfl

/-! ### When they agree -/

def SameAnswer : Except StoreError α → Except StoreError β → Prop
  | .ok _, .ok _ => True
  | .error e, .error e' => (ApiError.ofStore e).parts.1 = (ApiError.ofStore e').parts.1
  | _, _ => False

theorem fitsI64_sub_iff (hb : FitsI64 budget) (hs : FitsI64 sum) :
    FitsI64 (budget - sum) ↔ (wrapI64 (budget - sum) < 0 ↔ budget < sum) := by
  unfold FitsI64 i64Min i64Max at *
  unfold wrapI64
  rw [Int.bmod_def]
  omega

theorem sameAnswer_budget (hb : FitsI64 budget) (hs : i64Min ≤ sum) (taken : Bool) (v : α)
    (row : β) : SameAnswer
      (if taken then .error .conflict else if wrapI64 (budget - sum) < 0 then .error .budgetExceeded
        else .ok v)
      (if ¬ FitsI64 sum then .error .database
        else if sum ≤ budget then (if taken then .error .conflict else .ok row)
          else .error .budgetExceeded) ↔
    if taken then sum ≤ budget else sum ≤ i64Max ∧ FitsI64 (budget - sum) := by
  by_cases hsum : FitsI64 sum
  · rw [if_neg (not_not.mpr hsum), fitsI64_sub_iff hb hsum]
    have hmax := hsum.2
    cases taken with
    | true =>
      by_cases hle : sum ≤ budget
      · simp [hle, SameAnswer]
      · simp [hle, SameAnswer, ApiError.ofStore, ApiError.parts]
    | false =>
      by_cases hneg : wrapI64 (budget - sum) < 0
      · by_cases hle : sum ≤ budget
        · simp [hneg, hle, SameAnswer]
        · simp [hneg, hle, SameAnswer, hmax, Int.not_le.mp hle]
      · by_cases hle : sum ≤ budget
        · simp [hneg, hle, SameAnswer, hmax]
        · simp [hneg, hle, SameAnswer, hmax]
  · -- the sum overflows, and the reservation fails in the database
    have hover : i64Max < sum := (not_fitsI64.mp hsum).resolve_left (Int.not_lt.mpr hs)
    have hle : ¬ sum ≤ budget := Int.not_le.mpr (Int.lt_of_le_of_lt hb.2 hover)
    rw [if_pos hsum]
    cases taken with
    | true => simp [hle, SameAnswer, ApiError.ofStore, ApiError.parts]
    | false =>
      by_cases hneg : wrapI64 (budget - sum) < 0
      · simp [hneg, SameAnswer, ApiError.ofStore, ApiError.parts, Int.not_le.mpr hover]
      · simp [hneg, SameAnswer, Int.not_le.mpr hover]

/-- **The guards give the same answer exactly if they agree.** -/
theorem sameAnswer_iff_agreed (hfee : 0 ≤ p.maxFee)
    (hbudget : ∀ budget, p.config.dailyBudgetStroops = some budget → FitsI64 budget) :
    SameAnswer (dryOutcome db walletId p) (reserveOutcome db walletId p) ↔
    Agreed db walletId p := by
  unfold dryOutcome reserveOutcome Agreed
  by_cases hfits : FitsI64 (spentToday db walletId)
  · rw [if_neg (not_not.mpr hfits), if_neg (not_not.mpr hfits)]
    cases hb : p.config.dailyBudgetStroops with
    | none =>
      -- without a budget both look at the hash alone
      by_cases hin : isSponsored db p.innerHashHex = true
      · simp [hin, SameAnswer]
      · simp [hin, SameAnswer]
    | some budget =>
      have hmin := hfits.1
      refine (sameAnswer_budget (hbudget budget hb) (by omega) _ _ _).trans ?_
      exact ⟨fun h b hb _ => Option.some.inj hb ▸ h, fun h => h budget rfl hfits⟩
  · simp [hfits, SameAnswer]

/-! ### The dry run and the real call -/

theorem accepted_validateResponse (r : Except ApiError (Preflight × Option Int)) :
    Accepted (validateResponse req r) ↔ ∃ v, r = .ok v := by
  cases r with
  | ok v => exact ⟨fun _ => ⟨v, rfl⟩, fun _ => ⟨_, rfl, rfl⟩⟩
  | error =>
    simp only [validateResponse, Accepted]
    split
    · simp
    · simp

theorem announced_validateResponse (r : Except ApiError (Preflight × Option Int)) {n : Nat} :
    announced (validateResponse req r) = some n ↔ ∃ e, r = .error e ∧ e.parts.1 = n := by
  cases r with
  | ok => simp [validateResponse, announced]
  | error =>
    simp only [validateResponse]
    split
    · simp [announced]
    · simp [announced]

theorem eval_fromStore (http : Request → HttpOutcome) (s : State) (q : ReserveM α) :
    (ExceptT.mk (q.run >>= fun r => .ret (fromStore r)) : SponsorM α).run.eval (serve http) s =
      (fromStore (q.run.eval (serve http) s).1, (q.run.eval (serve http) s).2) := by
  show eval (serve http) (q.run.bind _) s = _
  rw [eval_bind]
  rfl

/-- **`sponsor` answers with the error of its first half.** -/
theorem sponsor_of_reserve_error {e : ApiError}
    (h : ((reserve out walletId req).run.eval (serve http) s).1 = .error e) :
    ((sponsor out walletId req).run.eval (serve http) s).1 = .error e := by
  unfold reserve at h
  unfold sponsor
  cases hpre : (preflight out walletId req).run.eval (serve http) s with
  | mk r s1 =>
    cases r with
    | error =>
      rw [eval_bindE_error hpre] at h ⊢
      cases h
      rfl
    | ok p =>
      rw [eval_bindE_ok hpre] at h ⊢
      cases hres : (ExceptT.mk ((tryReserve walletId p.innerHashHex p.maxFee
        p.config.dailyBudgetStroops).run >>=
          fun r => .ret (fromStore r)) : SponsorM SponsoredTransaction).run.eval
            (serve http) s1 with
      | mk r s2 =>
        cases r with
        | error =>
          rw [eval_bindE_error hres] at h ⊢
          cases h
          rfl
        | ok =>
          rw [eval_bindE_ok hres] at h
          cases h

theorem eval_reserve (h : (preflight out walletId req).run.eval (serve http) s = (.ok p, s'))
    (halone : s'.db.sessions = fun _ => none) :
    ((reserve out walletId req).run.eval (serve http) s).1 =
      (fromStore (reserveOutcome s'.db walletId p)).map (fun row => (p, row)) := by
  have hres := eval_fromStore http s'
    (tryReserve walletId p.innerHashHex p.maxFee p.config.dailyBudgetStroops)
  rw [eval_tryReserve halone s'.breaker] at hres
  unfold reserve
  rw [eval_bindE_ok h]
  cases ho : reserveOutcome s'.db walletId p with
  | ok =>
    rw [ho] at hres
    rw [eval_bindE_ok hres]
    rfl
  | error =>
    rw [ho] at hres
    rw [eval_bindE_error hres]
    rfl

theorem eval_validateSponsor (out : Outside) (walletId : Uuid) (req : SponsorRequest) :
    ((validateSponsor out walletId req).run.eval (serve http) s).1 =
      validateResponse req ((dryRun out walletId req).run.eval (serve http) s).1 := by
  show (eval (serve http) ((dryRun out walletId req).run.bind _) s).1 = _
  rw [eval_bind]
  rfl

theorem reports_iff_sameAnswer (d : Except StoreError (Option Int))
    (q : Except StoreError SponsoredTransaction) :
    (Accepted (validateResponse req ((fromStore d).map (fun left => (p, left)))) ↔
        ∃ v, (fromStore q).map (fun row => (p, row)) = .ok v) ∧
      (∀ e, (fromStore q).map (fun row => (p, row)) = .error e →
        announced (validateResponse req ((fromStore d).map (fun left => (p, left)))) =
          some e.parts.1) ↔
    SameAnswer d q := by
  rw [accepted_validateResponse]
  simp only [announced_validateResponse]
  cases d with
  | ok =>
    cases q with
    | ok | error => simp [fromStore, Except.mapError, Except.map, SameAnswer]
  | error =>
    cases q with
    | ok | error => simp [fromStore, Except.mapError, Except.map, SameAnswer]

/-- **When the dry run predicts the real call.**  For every state at rest, every Horizon and every
request: it does exactly if the request fails `preflight`, or the guards on its dedup key and its
budget agree. -/
theorem dry_run_predicts_iff (out : Outside) (http : Request → HttpOutcome) (r : Rest)
    (walletId : Uuid) (req : SponsorRequest) :
    Predicts out http r.state walletId req ↔
      ∀ p, Passes out http r.state walletId req p → Agreed r.state.db walletId p := by
  have hsponsor : Predicts out http r.state walletId req ↔
      (Accepted ((validateSponsor out walletId req).run.eval (serve http) r.state).1 ↔
        ∃ v, ((reserve out walletId req).run.eval (serve http) r.state).1 = .ok v) ∧
      ∀ e, ((reserve out walletId req).run.eval (serve http) r.state).1 = .error e →
        announced ((validateSponsor out walletId req).run.eval (serve http) r.state).1 =
          some e.parts.1 :=
    and_congr_right' (forall₂_congr (fun e he => and_iff_right (sponsor_of_reserve_error he)))
  rw [hsponsor, eval_validateSponsor]
  cases hpre : (preflight out walletId req).run.eval (serve http) r.state with
  | mk q s1 =>
    cases q with
    | error e =>
      -- nothing passes, and both answer with the error of `preflight`
      have hnone : ∀ p, ¬ Passes out http r.state walletId req p := by
        intro p hp
        rw [preflight_of_passes hp] at hpre
        cases hpre
      rw [dryRun, Prog.eval_bindE_error hpre, reserve, Prog.eval_bindE_error hpre,
        accepted_validateResponse]
      refine ⟨fun _ p hp => absurd hp (hnone p), fun _ => ⟨by simp, fun e' he => ?_⟩⟩
      cases he
      exact (announced_validateResponse _).mpr ⟨e, rfl, rfl⟩
    | ok p =>
      have hp := passes_of_preflight hpre
      have hstate := (Prod.mk.inj (hpre.symm.trans (preflight_of_passes hp))).2
      have hdb : s1.db = r.state.db := by
        rw [hstate]
        exact eval_horizon_db _ _
      have hunique : ∀ p', Passes out http r.state walletId req p' → p' = p := by
        intro p' hp'
        rw [preflight_of_passes hp'] at hpre
        exact Except.ok.inj (Prod.mk.inj hpre).1
      rw [eval_dryRun hpre, eval_reserve hpre (by rw [hdb]; exact r.alone), reports_iff_sameAnswer,
        hdb]
      have hfee : 0 ≤ p.maxFee := Int.le_trans (by decide) (checkRequest_ok hp.request).2
      rw [sameAnswer_iff_agreed hfee (r.budgets p.config (List.mem_of_find?_eq_some hp.config))]
      exact ⟨fun h p' hp' => hunique p' hp' ▸ h, fun h => h p hp⟩

end

/-! ### The same transaction again -/

/-- The example request was sponsored once, and has used up the budget of the day. -/
def spentState : State := ⟨reservedDb exampleDb exampleRow, .new 5 30000000⟩

theorem spentState_passes :
    Passes exampleOutside (fun _ => freshAccount) spentState 1 (exampleRequest onePayment)
    (examplePreflight onePayment) where
  request := onePayment_sponsorable.request
  wallet := rfl
  active := onePayment_sponsorable.active
  config := rfl
  enabled := onePayment_sponsorable.enabled
  checks := onePayment_sponsorable.wallet
  sequence := ⟨0, rfl, onePayment_sponsorable.sequence⟩

/-- A request both already sponsored and over budget is announced as 409 and refused with 429. -/
theorem sponsored_twice_over_budget :
    announced ((validateSponsor exampleOutside 1 (exampleRequest onePayment)).run.eval
      (serve (fun _ => freshAccount)) spentState).1 = some 409 ∧
    ((sponsor exampleOutside 1 (exampleRequest onePayment)).run.eval (serve (fun _ => freshAccount))
      spentState).1 = .error (.tooManyRequests "daily sponsorship budget exceeded") ∧
    ¬ Predicts exampleOutside (fun _ => freshAccount) spentState 1 (exampleRequest onePayment) := by
  have hpre := preflight_of_passes spentState_passes
  have hdb : (liveSequence exampleOutside (fun _ => freshAccount) spentState
      (examplePreflight onePayment).wallet.stellarAccountG).2.db =
        spentState.db := eval_horizon_db _ _
  have hspent : spentToday spentState.db 1 = 100 := by decide
  have htaken : isSponsored spentState.db (examplePreflight onePayment).innerHashHex = true := by
    simp [isSponsored, spentState, reservedDb, exampleRow, rowOf, SponsorDb.reservation]
  have hdry : announced ((validateSponsor exampleOutside 1 (exampleRequest onePayment)).run.eval
      (serve (fun _ => freshAccount)) spentState).1 = some 409 := by
    rw [eval_validateSponsor, eval_dryRun hpre, hdb, dryOutcome, hspent, if_neg (by decide),
      if_pos htaken]
    rfl
  have hreal : ((reserve exampleOutside 1 (exampleRequest onePayment)).run.eval
      (serve (fun _ => freshAccount)) spentState).1 =
        .error (.tooManyRequests "daily sponsorship budget exceeded") := by
    rw [eval_reserve hpre (by rw [hdb]; rfl), hdb, reserveOutcome, hspent, if_neg (by decide)]
    rfl
  refine ⟨hdry, sponsor_of_reserve_error hreal, fun h => ?_⟩
  have hannounced := (h.2 _ hreal).2
  rw [hdry] at hannounced
  cases hannounced

end Octo.Sponsor
