import Octo.Ingest.Discipline

/-!
# All code keeps to the discipline

One lemma per function of the ingest worker, in the order of the calls, then the routes.
-/

namespace Octo.Ingest

open Conc Octo.PaymentLinks Prog.Uses Prog List Option Except

abbrev Does (out : Outside) (j : Job) {α : Type} (p : Prog Op Ans α) (Q : α → List Act → Prop)
    (tr : List Act) : Prop :=
  Calls (system out) Grows (Allowed out j) p Q tr

/-! ### Quiet calls -/

/-- Calls that are always allowed and neither bound a window nor settle. -/
def Op.quiet : Op → Bool
  | .recordDeposit _ | .setCursor _ _ | .confirmPaymentLinkPayment _ _
  | .markPaymentLinkPaymentMismatched _ _ _ | .createPaymentLink _
  | .recordPaymentLinkIntent _ _ _ _ _ => false
  | _ => true

theorem allowed_of_quiet {out : Outside} {j : Job} (tr : List Act) (o : Op) (h : o.quiet = true) :
    Allowed out j tr o := by
  cases o with
  | recordDeposit | setCursor | confirmPaymentLinkPayment | markPaymentLinkPaymentMismatched
  | createPaymentLink | recordPaymentLinkIntent => cases h
  | _ => exact trivial

abbrev UsesQuiet {α : Type} (p : Prog Op Ans α) : Prop := p.Uses (fun o => o.quiet = true)

theorem quiet_act {x : Act} (h : x.op.quiet = true) :
    isBoundary x = false ∧ isSettle x = false ∧ inserted x = none := by
  obtain ⟨o, ans, s, s'⟩ := x
  cases o with
  | recordDeposit | setCursor | confirmPaymentLinkPayment | markPaymentLinkPaymentMismatched
  | createPaymentLink | recordPaymentLinkIntent => cases h
  | _ => exact ⟨rfl, rfl, rfl⟩

/-- Only quiet calls were added. -/
def Quietly (tr tr' : List Act) : Prop := ∃ more, tr' = more ++ tr ∧ ∀ x ∈ more, x.op.quiet = true

theorem Quietly.refl (tr : List Act) : Quietly tr tr := ⟨[], rfl, forall_mem_nil _⟩

variable {tr tr' : List Act}

theorem Quietly.cons (h : Quietly tr tr') {x : Act} (hx : x.op.quiet = true) :
    Quietly tr (x :: tr') := by
  obtain ⟨more, rfl, hmore⟩ := h
  exact ⟨x :: more, rfl, forall_mem_cons.mpr ⟨hx, hmore⟩⟩

theorem Quietly.trans {tr tr' tr'' : List Act} (h : Quietly tr tr') (h' : Quietly tr' tr'') :
    Quietly tr tr'' := by
  obtain ⟨more, rfl, hmore⟩ := h
  obtain ⟨ext', rfl, hext'⟩ := h'
  exact ⟨ext' ++ more, by rw [append_assoc], forall_mem_append.mpr ⟨hext', hmore⟩⟩

theorem Quietly.subset (h : Quietly tr tr') : tr ⊆ tr' := by
  obtain ⟨more, rfl, -⟩ := h
  exact subset_append_right more tr

theorem NoWindow.quietly (hn : NoWindow tr) (h : Quietly tr tr') : NoWindow tr' := by
  obtain ⟨more, rfl, hmore⟩ := h
  induction more with
  | nil => exact hn
  | cons x more ih =>
    refine NoWindow.cons (ih (forall_mem_cons.mp hmore).2) ?_
    exact (quiet_act (hmore x mem_cons_self)).2.2

/-- A window in which nothing has been settled yet. -/
structure Unsettled (tr : List Act) (x0 : Act) (tx : Transaction) (post : List Act) : Prop where
  window : Window tr x0 tx post
  once : ∀ x ∈ post, isSettle x = false

theorem Unsettled.cons {tr : List Act} {x0 x : Act} {tx : Transaction} {post : List Act}
    (h : Unsettled tr x0 tx post) (hx : x.op.quiet = true) :
    Unsettled (x :: tr) x0 tx (x :: post) := by
  obtain ⟨hb, hs, -⟩ := quiet_act hx
  exact ⟨h.window.cons hb, forall_mem_cons.mpr ⟨hs, h.once⟩⟩

theorem Unsettled.quietly {x0 : Act} {tx : Transaction} {post : List Act}
    (h : Unsettled tr x0 tx post) (hq : Quietly tr tr') : ∃ post', Unsettled tr' x0 tx post' := by
  obtain ⟨more, rfl, hmore⟩ := hq
  induction more with
  | nil => exact ⟨post, h⟩
  | cons x more ih =>
    obtain ⟨post', hp⟩ := ih (forall_mem_cons.mp hmore).2
    exact ⟨x :: post', hp.cons (hmore x mem_cons_self)⟩

section

variable {out : Outside} {j : Job} {g : Ingestor} {tr : List Act}

/-! ### Settling -/

variable {x0 : Act} {tx : Transaction} {post : List Act} {rec : PaymentRecord} {acct : String}
  {ch : Choice} {s s' : Db} {cursor : Option String} {r : PaymentRecord} {credit : Credit}
  {now : Nat} {α : Type} {p : Prog Op Ans α}

theorem calls_dispatch (b : Bool) (w : Uuid) (e : WebhookEvent) (hw : Window tr x0 tx post) :
    Does out j (if b then ask (.dispatch w e) else pure ())
      (fun _ tr' => ∃ post', Window tr' x0 tx post' ∧ post ⊆ post' ∧ tr ⊆ tr') tr := by
  cases b with
  | false => exact ⟨post, hw, fun _ h => h, fun _ h => h⟩
  | true =>
    refine ⟨trivial, fun s ch a s' _ _ => ⟨_, hw.cons rfl, ?_, ?_⟩⟩
    · exact subset_cons_self _ _
    · exact subset_cons_self _ _

/-- A matched payment is settled once, or the link is closed or the amount is another. -/
theorem calls_settlePayment {link : PaymentLink}
    {pay : PaymentLinkPayment} (hj : j.ingestor = some g) (h : Unsettled tr x0 tx post)
    (hu : IsUsdc tx) (hm : Matched g tx link pay post) :
    Does out j (settlePayment g tx link pay) (fun _ tr' => ∃ post', Window tr' x0 tx post' ∧
      post ⊆ post' ∧ tr ⊆ tr' ∧
      (link.isClosedAt tx.createdAt = true ∨ tx.amountStroops ≠ pay.amountUsdcStroops ∨
        ∃ ans s s', (⟨.confirmPaymentLinkPayment pay.id tx.id, ans, s, s'⟩ : Act) ∈ post')) tr := by
  unfold settlePayment
  split
  · rename_i hc
    exact ⟨post, h.window, fun _ hx => hx, fun _ hx => hx, .inl hc⟩
  · rename_i hc
    have hs : SettleOk g tr x0 tx post link pay :=
      ⟨h.window, h.once, hu, hm, Bool.not_eq_true _ ▸ hc⟩
    split
    · rename_i hne
      refine calls_perform ⟨g, x0, tx, post, link, pay, hj, hs, rfl, rfl, hne⟩ ?_
      rintro s ch a s' - -
      have hw := h.window.cons (x := ⟨.markPaymentLinkPaymentMismatched pay.id tx.id _, a, s, s'⟩)
        rfl
      split
      · refine (calls_dispatch _ _ _ hw).imp ?_
        rintro - tr' ⟨post', hw', hp, ht⟩
        exact ⟨post', hw', subset_of_cons_subset hp, subset_of_cons_subset ht, .inr (.inl hne)⟩
      · exact ⟨_, hw, subset_cons_self _ _, subset_cons_self _ _, .inr (.inl hne)⟩
    · rename_i heq
      refine calls_perform ⟨g, x0, tx, post, link, pay, hj, hs, rfl, rfl, not_not.mp heq⟩ ?_
      rintro s ch a s' - -
      have hw := h.window.cons (x := ⟨.confirmPaymentLinkPayment pay.id tx.id, a, s, s'⟩) rfl
      split
      · refine (calls_dispatch _ _ _ hw).imp ?_
        rintro - tr' ⟨post', hw', hp, ht⟩
        exact ⟨post', hw', subset_of_cons_subset hp, subset_of_cons_subset ht,
          .inr (.inr ⟨_, s, s', hp mem_cons_self⟩)⟩
      · exact ⟨_, hw, subset_cons_self _ _, subset_cons_self _ _,
          .inr (.inr ⟨a, s, s', mem_cons_self⟩)⟩

/-- A deposit's payment is looked up and, if it is found, settled in the window. -/
theorem calls_confirmPaymentLink (hj : j.ingestor = some g) (h : Unsettled tr x0 tx post) :
    Does out j (confirmPaymentLink g tx) (fun _ tr' => ∃ post', Window tr' x0 tx post' ∧ tr ⊆ tr' ∧
      Attempted g tx post') tr := by
  unfold confirmPaymentLink
  split
  · rename_i hn
    refine ⟨post, h.window, fun _ hx => hx, fun a hu => ?_⟩
    simp [hu.1, hu.2] at hn
  rename_i hu
  have hu : IsUsdc tx := by
    simp only [Bool.or_eq_true, bne_iff_ne, not_or, not_not] at hu
    exact hu
  split
  · rename_i ha
    exact ⟨post, h.window, fun _ hx => hx, fun a _ ha' => by rw [ha] at ha'; cases ha'⟩
  rename_i addressId ha
  have haddr : ∀ {a}, tx.addressId = some a → addressId = a := fun h' => some.inj (ha.symm.trans h')
  refine calls_perform trivial ?_
  rintro s1 ch1 a1 s1' - -
  have h1 := h.cons (x := ⟨.pendingPaymentByAddress addressId, a1, s1, s1'⟩) rfl
  have hsub1 : tr ⊆ _ :: tr :=
    subset_cons_self (⟨.pendingPaymentByAddress addressId, a1, s1, s1'⟩ : Act) tr
  split
  · -- the intent's own address
    rename_i pay
    refine calls_perform trivial ?_
    rintro s2 ch2 a2 s2' - -
    have h2 := h1.cons (x := ⟨.getPaymentLink g.walletId pay.paymentLinkId, a2, s2, s2'⟩) rfl
    split
    · rename_i link
      refine (calls_settlePayment hj h2 hu
        (.exact ha (mem_cons_of_mem _ mem_cons_self) mem_cons_self)).imp ?_
      rintro - tr' ⟨post', hw, hp, ht, hd⟩
      refine ⟨post', hw, fun _ hx => ht (mem_cons_of_mem _ (hsub1 hx)), fun a _ ha' => ?_⟩
      obtain rfl := haddr ha'
      exact .inr (.inr ⟨pay, s1, s1', hp (mem_cons_of_mem _ mem_cons_self),
        .inr ⟨link, s2, s2', hp mem_cons_self, hd⟩⟩)
    · rename_i e
      refine ⟨_, h2.window, fun _ hx => mem_cons_of_mem _ (hsub1 hx), fun a _ ha' => ?_⟩
      obtain rfl := haddr ha'
      exact .inr (.inr ⟨pay, s1, s1', mem_cons_of_mem _ mem_cons_self,
        .inl ⟨e, s2, s2', mem_cons_self⟩⟩)
  · -- the link's shared address
    rename_i hne
    have hatt : ∀ post', (⟨.pendingPaymentByAddress addressId, a1, s1, s1'⟩ : Act) ∈ post' →
        Attempted g tx post' := by
      intro post' hmem a _ ha'
      obtain rfl := haddr ha'
      cases a1 with
      | error e => exact .inl ⟨e, s1, s1', hmem⟩
      | ok p? =>
        cases p? with
        | none => exact .inr (.inl ⟨s1, s1', hmem⟩)
        | some pay => exact absurd rfl (hne pay)
    refine calls_perform trivial ?_
    rintro s2 ch2 a2 s2' - -
    have h2 := h1.cons (x := ⟨.getPaymentLinkByAddress addressId, a2, s2, s2'⟩) rfl
    split
    · rename_i link
      refine calls_perform trivial ?_
      rintro s3 ch3 a3 s3' - -
      have h3 := h2.cons (x := ⟨.oldestPendingPaymentLinkPayment link.id, a3, s3, s3'⟩) rfl
      split
      · refine (calls_settlePayment hj h3 hu
          (.fallback ha (mem_cons_of_mem _ mem_cons_self) mem_cons_self)).imp ?_
        rintro - tr' ⟨post', hw, hp, ht, -⟩
        refine ⟨post', hw, fun _ hx => ht (mem_cons_of_mem _ (mem_cons_of_mem _ (hsub1 hx))), ?_⟩
        exact hatt post' (hp (mem_cons_of_mem _ (mem_cons_of_mem _ mem_cons_self)))
      · exact ⟨_, h3.window, fun _ hx => mem_cons_of_mem _ (mem_cons_of_mem _ (hsub1 hx)),
          hatt _ (mem_cons_of_mem _ (mem_cons_of_mem _ mem_cons_self))⟩
    · exact ⟨_, h2.window, fun _ hx => mem_cons_of_mem _ (hsub1 hx),
        hatt _ (mem_cons_of_mem _ mem_cons_self)⟩

/-! ### Recording -/

theorem addressMetadata_uses (a : Option Uuid) : UsesQuiet (addressMetadata a) := by
  cases a with
  | none => exact trivial
  | some =>
    refine ⟨rfl, fun ans => ?_⟩
    cases ans with
    | error => exact trivial
    | ok a? => cases a? <;> exact trivial

theorem fireDepositWebhook_uses (g : Ingestor) (tx : Transaction) :
    UsesQuiet (fireDepositWebhook g tx) := by
  unfold fireDepositWebhook
  split
  · exact trivial
  · exact bind (addressMetadata_uses _) (fun _ => ⟨rfl, fun _ => trivial⟩)

theorem calls_attributed (customerId : Option Int) :
    Does out j (attributed g customerId).run (fun r tr' => Quietly tr tr' ∧
      ∀ a, r = .ok (some a) → ∃ muxedId addr s s',
        (⟨.addressByMuxedId g.walletId muxedId, .ok (some addr), s, s'⟩ : Act) ∈ tr' ∧ addr.id = a)
          tr := by
  cases customerId with
  | none => exact ⟨.refl tr, fun a h => by cases h⟩
  | some id =>
    refine calls_tryCall trivial ?_
    rintro s ch ans s' - -
    cases ans with
    | error => exact ⟨(Quietly.refl tr).cons rfl, fun a h => by cases h⟩
    | ok addr? =>
      refine ⟨(Quietly.refl tr).cons rfl, fun a h => ?_⟩
      cases addr? with
      | none => cases h
      | some addr =>
        have ha : addr.id = a := some.inj (ok.inj h)
        exact ⟨id, addr, s, s', mem_cons_self, ha⟩

/-- What processing a record leaves behind. -/
structure Handled (out : Outside) (g : Ingestor) (rec : PaymentRecord) (tr tr' : List Act) :
    Prop where
  subset : tr ⊆ tr'
  deposited : Credits out g rec → Deposited g tr' rec
  attempted : ∀ x0 tx post, Window tr' x0 tx post → Attempted g tx post

theorem Handled.skip {tr' : List Act} (hn : NoWindow tr) (hq : Quietly tr tr')
    (hc : ¬ Credits out g rec) : Handled out g rec tr tr' :=
  ⟨hq.subset, fun h => absurd h hc, fun _ _ _ hw => absurd hw (hn.quietly hq _ _ _)⟩

theorem calls_recordCredit {toid : Toid} {stroops : Int} (hj : j.ingestor = some g)
    (hn : NoWindow tr) {m : Nat} (hmem : rec ∈ out.horizon.operations g.accountG)
    (hacc : creditAccount rec = some g.accountG) (htoid : decodeToid rec.id m = some toid) :
    Does out j (recordCredit g rec toid credit stroops).run
      (fun r tr' => ∀ p, r = .ok p → Handled out g rec tr tr') tr := by
  refine calls_bindE ((calls_attributed credit.customerId).imp ?_)
  rintro (e | addressId) tr1 ⟨hq, haddr⟩
  · exact fun p h => nomatch h
  have hd : DepositOk out g tr1 (newDeposit g rec toid credit stroops addressId) :=
    { walletId := rfl
      record := ⟨rec, hmem, rfl, rfl, hacc, m, toid, htoid, rfl⟩
      address := fun a ha => haddr a (by rw [show addressId = some a from ha])
      noWindow := hn.quietly hq }
  refine calls_tryCall ⟨g, hj, hd⟩ ?_
  rintro s ch ans s' - -
  rcases ans with e | tx?
  · exact fun p h => nomatch h
  have hdep : ∀ {tr'}, _ :: tr1 ⊆ tr' → Deposited g tr' rec := fun hs =>
    ⟨newDeposit g rec toid credit stroops addressId, tx?, s, s', hs mem_cons_self, rfl, rfl⟩
  rcases tx? with - | tx
  · -- a duplicate
    refine fun p _ => ⟨fun _ hx => mem_cons_of_mem _ (hq.subset hx), fun _ => hdep (fun _ h => h),
      ?_⟩
    exact fun _ _ _ hw => absurd hw ((hn.quietly hq).cons rfl _ _ _)
  · have hu : Unsettled (⟨.recordDeposit (newDeposit g rec toid credit stroops addressId),
        .ok (some tx), s, s'⟩ :: tr1) _ tx [] := ⟨window_insert rfl, forall_mem_nil _⟩
    refine calls_lift ((calls_of_uses allowed_of_quiet (fireDepositWebhook_uses g tx) _).imp ?_)
    rintro - tr2 hq2
    obtain ⟨_, hu2⟩ := hu.quietly hq2
    refine calls_lift ((calls_confirmPaymentLink hj hu2).imp ?_)
    rintro - tr3 ⟨_, hw3, hsub, hatt⟩ p -
    have hsub' : _ :: tr1 ⊆ tr3 := fun _ hx => hsub (Quietly.subset hq2 hx)
    refine ⟨fun _ hx => hsub' (mem_cons_of_mem _ (hq.subset hx)), fun _ => hdep hsub', ?_⟩
    intro x1 tx1 post1 hw1
    obtain ⟨-, rfl, rfl⟩ := hw3.unique hw1
    exact hatt

/-! ### One record -/

theorem exec_claimCredit {opId : String} {x : Option ClaimCredit}
    (h : (system out).exec (.claimCredit opId acct) ch s = some (.ok x, s')) :
    x = claimCreditOf (out.horizon.effects opId) acct := by
  rcases (askHorizon_cases h).2 with ⟨n, hn⟩ | hn
  · exact ok.inj hn
  · cases hn

theorem exec_claimableBalanceOrigin {id : String} {x : Option ClaimOrigin}
    (h : (system out).exec (.claimableBalanceOrigin id) ch s = some (.ok x, s')) :
    x = claimableBalanceOriginOf (out.horizon.balanceOperations id) := by
  rcases (askHorizon_cases h).2 with ⟨n, hn⟩ | hn
  · exact ok.inj hn
  · cases hn

theorem exec_systemTime (h : (system out).exec .systemTime ch s = some (now, s')) :
    out.clockFloor ≤ now := by
  cases ch with
  | served =>
    simp only [system, exec] at h
    split at h
    · rename_i hle
      rw [← (call_inj h).1]
      exact hle
    · cases h
  | failed => cases h
  | lost => cases h

section

variable {R : Db → Db → Prop} {L : List Act → Op → Prop}

theorem calls_claimCredit (hL : ∀ tr o, o.quiet = true → L tr o) (rec : PaymentRecord) :
    Calls (system out) R L (claimCredit g rec).run (fun r tr' => Quietly tr tr' ∧
      ∀ c, r = .ok c → c = claimCreditOn out.horizon g rec) tr := by
  unfold claimCredit claimCreditOn
  split
  · exact ⟨.refl tr, fun c h => (ok.inj h).symm⟩
  cases hb : rec.balanceId.filter isBalanceId with
  | none => exact ⟨.refl tr, fun c h => (ok.inj h).symm⟩
  | some =>
    refine calls_tryCall (hL _ _ rfl) ?_
    rintro s ch (e | credited?) s' - he
    · exact ⟨(Quietly.refl tr).cons rfl, fun c h => nomatch h⟩
    have hcred := exec_claimCredit he
    rw [← hcred]
    cases credited? with
    | none => exact ⟨(Quietly.refl tr).cons rfl, fun c h => (ok.inj h).symm⟩
    | some =>
      refine calls_tryCall (hL _ _ rfl) ?_
      rintro s2 ch2 (e | _) s2' - he2
      · exact ⟨((Quietly.refl tr).cons rfl).cons rfl, fun c h => nomatch h⟩
      obtain rfl := exec_claimableBalanceOrigin he2
      exact ⟨((Quietly.refl tr).cons rfl).cons rfl, fun c h => (ok.inj h).symm⟩

theorem calls_creditFor (hL : ∀ tr o, o.quiet = true → L tr o) (rec : PaymentRecord) :
    Calls (system out) R L (creditFor out.strkey g rec).run (fun r tr' => Quietly tr tr' ∧
      ∀ c, r = .ok c → c = creditOn out g rec) tr := by
  unfold creditFor creditOn
  split
  · exact calls_claimCredit hL rec
  · exact ⟨.refl tr, fun c h => (ok.inj h).symm⟩

end

/-- A credit is of the wallet's own account. -/
theorem creditOn_account (h : creditOn out g rec = some credit) :
    creditAccount rec = some g.accountG := by
  unfold creditOn at h
  unfold creditAccount
  split at h
  · rename_i hk
    rw [if_pos hk]
    by_contra hne
    simp [claimCreditOn, hne] at h
  · rename_i hk
    rw [if_neg hk]
    by_contra hne
    simp [directCredit, hne] at h

theorem plausibleToid_mono {m m' : Nat} (hm : m ≤ m')
    (h : (plausibleToid rec m).isSome) : (plausibleToid rec m').isSome := by
  unfold plausibleToid at h ⊢
  obtain ⟨t, ht⟩ := isSome_iff_exists.mp h
  rw [filter_eq_some_iff] at ht
  rw [decodeToid_mono hm ht.1]
  exact isSome_iff_exists.mpr ⟨t, filter_eq_some_iff.mpr ⟨rfl, ht.2⟩⟩

theorem Credits.worth (h : Credits out g rec) (hnow : out.clockFloor ≤ now) :
    (worth out g now rec).isSome := by
  obtain ⟨hs, ht, _, _, hcr, hn, hpos⟩ := h
  obtain ⟨_, htoid⟩ := isSome_iff_exists.mp
    (plausibleToid_mono (plausibleMaxLedger_mono hnow) ht)
  exact isSome_iff_exists.mpr ⟨_, worth_eq_some.mpr ⟨hs, htoid, hcr, hn, hpos⟩⟩

/-- **Processing, whatever the discipline**: a record that is worth something is recorded, any other
is skipped after quiet calls. -/
theorem calls_process_of {R : Db → Db → Prop} {L : List Act → Op → Prop}
    {Q : Except IngestError Processed → List Act → Prop} (hL : ∀ tr o, o.quiet = true → L tr o)
    (hskip : ∀ r tr', Quietly tr tr' → (∀ p, r = .ok p → ¬ Credits out g rec) → Q r tr')
    (hrecord : ∀ now toid credit stroops tr', out.clockFloor ≤ now →
      worth out g now rec = some (toid, credit, stroops) → Quietly tr tr' →
      Calls (system out) R L (recordCredit g rec toid credit stroops).run Q tr') :
    Calls (system out) R L (process out.strkey g rec).run Q tr := by
  have hworth : ∀ {now}, out.clockFloor ≤ now → worth out g now rec = none →
      ¬ Credits out g rec := by
    intro now hnow hw hc
    have := hc.worth hnow
    rw [hw] at this
    cases this
  unfold process
  split
  · rename_i hs
    refine hskip _ _ (.refl tr) fun p _ hc => ?_
    rw [hc.1] at hs
    cases hs
  rename_i hs
  refine calls_tryCall (hL _ _ rfl) ?_
  rintro s ch now s' - he
  have hnow := exec_systemTime he
  have hq := (Quietly.refl tr).cons (x := ⟨.systemTime, now, s, s'⟩) rfl
  dsimp only
  cases ht : plausibleToid rec (plausibleMaxLedger now) with
  | none => exact hskip _ _ hq fun _ _ => hworth hnow (by simp [worth, ht])
  | some toid =>
    refine calls_bindE ((calls_creditFor hL rec).imp ?_)
    rintro (e | credit?) tr1 ⟨hq1, hcr⟩
    · exact hskip _ _ (hq.trans hq1) (fun p h => by cases h)
    have hcr := (hcr _ rfl).symm
    cases credit? with
    | none => exact hskip _ _ (hq.trans hq1) fun _ _ => hworth hnow (by simp [worth, hcr])
    | some credit =>
      dsimp only
      cases hn : toStroops credit.amount with
      | none => exact hskip _ _ (hq.trans hq1) fun _ _ => hworth hnow (by simp [worth, hcr, hn])
      | some stroops =>
        show Calls _ _ _ (ExceptT.run (if stroops ≤ 0 then _ else _)) _ _
        split
        · rename_i hle
          exact hskip _ _ (hq.trans hq1) fun _ _ => hworth hnow (by simp [worth, hcr, hn, hle])
        · refine hrecord now toid credit stroops tr1 hnow ?_ (hq.trans hq1)
          exact worth_eq_some.mpr ⟨by simpa using hs, ht, hcr, hn, by omega⟩

/-- A record that is processed without an error is handled. -/
theorem calls_process (hj : j.ingestor = some g) (hn : NoWindow tr)
    (hmem : rec ∈ out.horizon.operations g.accountG) :
    Does out j (process out.strkey g rec).run
      (fun r tr' => ∀ p, r = .ok p → Handled out g rec tr tr') tr := by
  refine calls_process_of allowed_of_quiet ?_ ?_
  · intro r tr' hq hc p hp
    exact .skip hn hq (hc p hp)
  · intro now toid credit stroops tr1 _ hw hq
    obtain ⟨-, ht, hcr, -, -⟩ := worth_eq_some.mp hw
    have htoid : decodeToid rec.id (plausibleMaxLedger now) = some toid :=
      (filter_eq_some_iff.mp ht).1
    refine (calls_recordCredit hj (hn.quietly hq) hmem (creditOn_account hcr) htoid).imp ?_
    intro r tr' h p hp
    obtain ⟨hsub, hdep, hatt⟩ := h p hp
    exact ⟨fun _ hx => hsub (hq.subset hx), hdep, hatt⟩

/-! ### Pages and streams -/

theorem Deposited.mono {tr' : List Act} (h : Deposited g tr r) (hs : tr ⊆ tr') :
    Deposited g tr' r := by
  obtain ⟨d, ans, s, s', hm, hw, hid⟩ := h
  exact ⟨d, ans, s, s', hs hm, hw, hid⟩

theorem calls_ingestRecord (hj : j.ingestor = some g) (hn : NoWindow tr)
    (hmem : rec ∈ out.horizon.operations g.accountG)
    (hcov : ∀ tr', tr ⊆ tr' → (Credits out g rec → Deposited g tr' rec) → out.horizon.Lawful →
      CoveredIn out g tr' (some rec.pagingToken)) :
    Does out j (ingestRecord out.strkey g rec).run (fun r tr' => r = .ok () →
      tr ⊆ tr' ∧ NoWindow tr' ∧ (Credits out g rec → Deposited g tr' rec)) tr := by
  refine calls_bindE ((calls_process hj hn hmem).imp ?_)
  rintro (e | p) tr1 h
  · exact nofun
  obtain ⟨hsub, hdep, hatt⟩ := h p rfl
  refine ⟨⟨g, hj, rfl, hcov tr1 hsub hdep, hatt⟩, ?_⟩
  rintro s ch ans s' - - -
  refine ⟨fun _ hx => mem_cons_of_mem _ (hsub hx), noWindow_cursorSave rfl rfl, fun hc => ?_⟩
  exact (hdep hc).mono (subset_cons_self _ _)

/-- The loop over a page whose first records, `done`, are processed. -/
theorem calls_ingestPage (hj : j.ingestor = some g)
    (recs : List PaymentRecord) (done : List PaymentRecord) (count : Nat) (hn : NoWindow tr)
    (hpage : done ++ recs <+: out.horizon.after g.accountG cursor)
    (hget : (⟨.getCursor g.walletId, .ok cursor, s, s'⟩ : Act) ∈ tr)
    (hdone : ∀ r ∈ done, Credits out g r → Deposited g tr r) :
    Does out j (ingestPage out.strkey g recs count).run (fun _ _ => True) tr := by
  induction recs generalizing done count tr with
  | nil => exact trivial
  | cons rec rest ih =>
    have hmem : rec ∈ out.horizon.operations g.accountG :=
      (Horizon.mem_after.mp (hpage.subset (mem_append_right _ mem_cons_self))).1
    refine calls_bindE ((calls_ingestRecord hj hn hmem ?_).imp ?_)
    · intro tr' hsub hdep hlaw
      refine ⟨cursor, s, s', hsub hget, fun r hr hc hle => ?_⟩
      rcases Horizon.after_step hlaw hpage hr hle with h | h | rfl
      · exact .inl h
      · exact .inr ((hdone r h hc).mono hsub)
      · exact .inr (hdep hc)
    · rintro (e | u) tr' h
      · exact trivial
      obtain ⟨hsub, hn', hdep⟩ := h rfl
      refine ih (done ++ [rec]) (count + 1) hn' ?_ (hsub hget) ?_
      · rw [append_assoc]
        exact hpage
      · intro r hr hc
        rcases Rows.mem_concat.mp hr with hr | rfl
        · exact (hdone r hr hc).mono hsub
        · exact hdep hc

theorem exec_paymentsAfter {limit : Nat} {page : List PaymentRecord}
    (h : (system out).exec (.paymentsAfter acct cursor limit) ch s = some (.ok page, s')) :
    page <+: out.horizon.after acct cursor := by
  rcases (askHorizon_cases h).2 with ⟨n, hn⟩ | hn
  · rw [ok.inj hn]
    exact take_prefix _ _
  · cases hn

theorem calls_pollOnce (hj : j.ingestor = some g) (hn : NoWindow tr) (limit : Nat) :
    Does out j (pollOnce out.strkey g limit).run (fun _ _ => True) tr := by
  refine calls_tryCall trivial ?_
  rintro s1 ch1 (e | _) s1' - -
  · exact trivial
  refine calls_tryCall trivial ?_
  rintro s2 ch2 (e | page) s2' - he
  · exact trivial
  refine calls_ingestPage hj page [] 0 ((hn.cons rfl).cons rfl) (exec_paymentsAfter he)
    (mem_cons_of_mem _ mem_cons_self) ?_
  intro r hr
  cases hr

theorem exec_nextRecord {last : String}
    (h : (system out).exec (.nextRecord acct last) ch s = some (.ok (some rec), s')) :
    [rec] <+: out.horizon.after acct (some last) := by
  rcases (askHorizon_cases h).2 with ⟨n, hn⟩ | hn
  · have hhead := ok.inj hn
    cases hl : out.horizon.after acct (some last) with
    | nil => rw [hl, take_nil] at hhead; cases hhead
    | cons r rest =>
      rw [hl] at hhead
      cases n with
      | zero => cases hhead
      | succ =>
        cases hhead
        exact ⟨rest, rfl⟩
  · cases hn

/-- The stream after `last`, up to which every operation is processed. -/
theorem calls_streamLoop (hj : j.ingestor = some g) (n : Nat) (last : String) (hn : NoWindow tr)
    (hcov : out.horizon.Lawful → CoveredIn out g tr (some last)) :
    Does out j (streamLoop out.strkey g n last).run (fun _ _ => True) tr := by
  induction n generalizing last tr with
  | zero => exact trivial
  | succ n ih =>
    refine calls_tryCall trivial ?_
    rintro s ch (e | rec?) s' - he
    · exact trivial
    cases rec? with
    | none => exact trivial
    | some rec =>
      have hnext := exec_nextRecord he
      have hmem : rec ∈ out.horizon.operations g.accountG :=
        (Horizon.mem_after.mp (hnext.subset mem_cons_self)).1
      have hstep : ∀ tr', tr ⊆ tr' → (Credits out g rec → Deposited g tr' rec) →
          out.horizon.Lawful → CoveredIn out g tr' (some rec.pagingToken) := by
        intro tr' hsub hdep hlaw
        obtain ⟨c, s0, s0', hget, hc⟩ := hcov hlaw
        refine ⟨c, s0, s0', hsub hget, fun r hr hcr hle => ?_⟩
        have hfirst : [] ++ rec :: [] <+: out.horizon.after g.accountG (some last) := hnext
        rcases Horizon.after_step hlaw hfirst hr hle with h | h | rfl
        · rcases hc r hr hcr h with h | h
          · exact .inl h
          · exact .inr (h.mono hsub)
        · cases h
        · exact .inr (hdep hcr)
      refine calls_bindE ((calls_ingestRecord hj (hn.cons rfl) hmem ?_).imp ?_)
      · exact fun tr' hsub => hstep tr' (subset_of_cons_subset hsub)
      · rintro (e | u) tr' h
        · exact trivial
        obtain ⟨hsub, hn', hdep⟩ := h rfl
        exact ih _ hn' (hstep tr' (subset_of_cons_subset hsub) hdep)

theorem Credits.token_pos (hlaw : out.horizon.Lawful) (hr : r ∈ out.horizon.operations g.accountG)
    (hc : Credits out g r) : 0 < tokenValue r.pagingToken := by
  obtain ⟨t, ht⟩ := isSome_iff_exists.mp hc.2.1
  have hd := (filter_eq_some_iff.mp ht).1
  have hu := unpackToid_eq_some.mp (decodeToid_eq_some hd).2
  rw [hlaw.token _ r hr]
  omega

theorem calls_streamSession (hj : j.ingestor = some g) (hn : NoWindow tr) (n : Nat) :
    Does out j (streamSession out.strkey g n).run (fun _ _ => True) tr := by
  refine calls_tryCall trivial ?_
  rintro s1 ch1 (e | cursor) s1' - -
  · exact trivial
  refine calls_tryCall trivial ?_
  rintro s2 ch2 (e | u) s2' - -
  · exact trivial
  refine calls_streamLoop hj n _ ((hn.cons rfl).cons rfl) fun hlaw => ?_
  refine ⟨cursor, s1, s1', mem_cons_of_mem _ mem_cons_self, fun r hr hc hle => .inl ?_⟩
  cases cursor with
  | some => exact hle
  | none =>
    have hpos := hc.token_pos hlaw hr
    obtain ⟨c, hc', hle⟩ := hle
    rw [← some.inj hc', show tokenValue (getD none "0") = 0 from by decide] at hle
    omega

/-! ### Routes -/

theorem notifyExpired_uses (rows : List PaymentLinkPayment) : UsesQuiet (notifyExpired rows) := by
  induction rows with
  | nil => exact trivial
  | cons p ps ih =>
    refine ⟨rfl, fun ans => ?_⟩
    rcases ans with e | - | _
    · exact ih
    · exact ih
    · exact ⟨rfl, fun _ => ih⟩

theorem expireStale_uses : UsesQuiet expireStalePaymentLinkPayments := by
  refine ⟨rfl, fun ans => ?_⟩
  rcases ans with e | rows
  · exact trivial
  · exact notifyExpired_uses rows

theorem createAddress_uses (w : Uuid) (ref : Option String) (md : String) :
    UsesQuiet (createAddress w ref md).run := by
  refine bindE (uses_tryCall rfl) fun wallet => ?_
  split
  · exact trivial
  · exact uses_tryCall rfl

theorem orConflict_uses (w id : Uuid) (message : String) (updated : Option PaymentLink) :
    UsesQuiet (orConflict w id message updated).run := by
  cases updated with
  | some => exact trivial
  | none => exact bindE (uses_tryCall rfl) (fun _ => trivial)

theorem setPaymentLinkActive_uses (w id : Uuid) (active : Option Bool) :
    UsesQuiet (setPaymentLinkActive w id active).run := by
  cases active with
  | none => exact trivial
  | some => exact bindE (uses_tryCall rfl) (orConflict_uses w id _)

theorem updatePaymentLink_uses (w id : Uuid) (req : PaymentLinkUpdate) :
    UsesQuiet (updatePaymentLink out w id req).run := by
  unfold updatePaymentLink
  split
  · exact trivial
  · refine bindE trivial fun _ => bindE trivial fun _ => ?_
    exact bindE (uses_tryCall rfl) (orConflict_uses w id _)

theorem notifyCancelled_uses (w : Uuid) (link : PaymentLink) (rows : List PaymentLinkPayment) :
    UsesQuiet (notifyCancelled w link rows) := by
  induction rows with
  | nil => exact trivial
  | cons p ps ih => exact ⟨rfl, fun _ => ih⟩

theorem cancelPaymentLink_uses (w id : Uuid) : UsesQuiet (cancelPaymentLink w id).run := by
  refine bindE (uses_tryCall rfl) fun r => ?_
  exact bindE (uses_lift (notifyCancelled_uses w _ _)) (fun _ => trivial)

theorem getPublicPaymentLink_uses (slug : String) : UsesQuiet (getPublicPaymentLink slug).run := by
  refine bindE (uses_tryCall rfl) fun link => ?_
  refine bindE (uses_lift (uses_perform rfl)) fun now => ?_
  split
  · exact trivial
  · refine bindE (uses_tryCall rfl) fun a? => ?_
    cases a? <;> exact trivial
  · exact trivial

theorem checkExpiry_uses (e : Option Time) : UsesQuiet (checkExpiry e).run := by
  cases e with
  | none => exact trivial
  | some => exact bindE (uses_lift (uses_perform rfl)) (fun _ => trivial)

theorem calls_createLink (w : Uuid) (req : CreatePaymentLinkRequest) (slug : String) :
    Does out j (createLink out w req slug).run (fun _ _ => True) tr := by
  unfold createLink
  split
  · exact trivial
  refine calls_bindE ?_
  cases check? (validateRedirectUrl out) req.redirectUrl with
  | error => exact trivial
  | ok =>
    refine calls_bindE ?_
    cases check? validateLinkAmount req.amountUsdcStroops with
    | error => exact trivial
    | ok =>
      refine calls_bindE ((calls_of_uses allowed_of_quiet (checkExpiry_uses _) _).imp ?_)
      rintro (e | u) tr1 -
      · exact trivial
      refine calls_tryCall trivial ?_
      rintro s ch (e | _) s' - -
      · exact trivial
      refine calls_tryCall trivial ?_
      rintro s2 ch2 (e | addr) s2' - -
      · exact trivial
      refine ⟨⟨_, addr, s2, s2', _, rfl, rfl⟩, ?_⟩
      rintro s3 ch3 ans s3' - -
      exact trivial

theorem calls_createPaymentIntent (slug : String) (req : CreatePaymentIntentRequest) :
    Does out j (createPaymentIntent slug req).run (fun _ _ => True) tr := by
  refine calls_tryCall trivial ?_
  rintro s ch (e | link) s' - -
  · exact trivial
  refine calls_lift (calls_perform trivial ?_)
  rintro s1 ch1 now s1' - -
  refine calls_bindE ?_
  cases ensurePayable link now with
  | error => exact trivial
  | ok =>
    cases hamt : intentAmount link req with
    | error => exact trivial
    | ok =>
      refine calls_tryCall trivial ?_
      rintro s2 ch2 (e | _) s2' - -
      · exact trivial
      refine calls_tryCall trivial ?_
      rintro s3 ch3 (e | addr) s3' - -
      · exact trivial
      refine calls_tryCall ⟨link, _, slug, addr, s3, s3', s, s', _, rfl, rfl, rfl, ?_, req, hamt⟩ ?_
      · exact mem_cons_of_mem _ (mem_cons_of_mem _ mem_cons_self)
      · rintro s4 ch4 (e | p) s4' - -
        · exact trivial
        · exact trivial

/-! ### The whole system -/

theorem calls_discard (h : Does out j p (fun _ _ => True) tr) :
    Does out j (discard p) (fun _ _ => True) tr :=
  calls_bind (h.imp fun _ _ _ => trivial)

theorem calls_quiet (h : p.Uses (fun o => o.quiet = true)) : Does out j p (fun _ _ => True) tr :=
  (calls_of_uses allowed_of_quiet h tr).imp fun _ _ _ => trivial

theorem calls_code (out : Outside) (j : Job) : Does out j (code out j) (fun _ _ => True) [] := by
  cases j with
  | poll g limit => exact calls_discard (calls_pollOnce rfl noWindow_nil limit)
  | page g limit =>
    refine calls_bind ((calls_pollOnce rfl noWindow_nil limit).imp ?_)
    rintro - tr' -
    exact calls_perform trivial (fun _ _ _ _ _ _ => trivial)
  | stream g n => exact calls_discard (calls_streamSession rfl noWindow_nil n)
  | expireSweep => exact calls_quiet expireStale_uses
  | createAddress w ref md => exact calls_discard (calls_quiet (createAddress_uses w ref md))
  | createLink w req slug => exact calls_discard (calls_createLink w req slug)
  | setLinkActive w id active =>
    exact calls_discard (calls_quiet (setPaymentLinkActive_uses w id active))
  | updateLink w id req => exact calls_discard (calls_quiet (updatePaymentLink_uses w id req))
  | cancelLink w id => exact calls_discard (calls_quiet (cancelPaymentLink_uses w id))
  | publicLink slug => exact calls_discard (calls_quiet (getPublicPaymentLink_uses slug))
  | createIntent slug req => exact calls_discard (calls_createPaymentIntent slug req)

/-- **All code keeps to `Allowed`.** -/
theorem discipline (out : Outside) : Discipline (system out) Grows (Allowed out) where
  refl := .refl
  trans := .trans
  exec := exec_grows
  env := env_grows
  code := calls_code out

end

end Octo.Ingest
