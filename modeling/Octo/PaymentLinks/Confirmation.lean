import Mathlib.Data.List.MinMax
import Octo.PaymentLinks.OneShot

/-!
# Confirmations that are not lost

The insert of a deposit and the confirmation of the payment it pays are two store calls, and the
replay of a recorded operation is answered `Duplicate` and confirms nothing.  A task that dies, or
whose store calls fail, between the insert and the confirmation leaves the payment pending, and the
next task moves the cursor past the deposit (`confirmation_lost`).

In a run where this does not happen (`Undisturbed`), a payment that was pending on the deposit's
address, with its amount and on an open link, is confirmed with the deposit once the cursor is past
it, or was expired or cancelled (`confirmation_kept`).
-/

namespace Octo.PaymentLinks

open Conc Octo.Ingest World List

/-! ### Awaited payments -/

/-- The call `x` inserted the deposit `tx`, and when it did, payment `p` was pending on the
deposit's address, with its amount and on an open link. -/
structure Awaited (x : Act) (tx : Transaction) (p : PaymentLinkPayment) : Prop where
  inserts : tx ∈ x.post.transactions ∧ tx ∉ x.pre.transactions
  usdc : IsUsdc tx
  payment : p ∈ x.pre.payments
  pending : p.status = .pending
  address : p.addressId.isSome ∧ tx.addressId = p.addressId
  amount : tx.amountStroops = p.amountUsdcStroops
  link : ∃ l ∈ x.pre.links, l.id = p.paymentLinkId ∧ l.isClosedAt tx.createdAt = false

/-- The payment was confirmed with the deposit, or a sweep or a cancellation closed it first. -/
def Done (db : Db) (p : PaymentLinkPayment) (tx : Transaction) : Prop :=
  ∃ q ∈ db.payments, q.id = p.id ∧
    (q.status = .confirmed ∧ q.transactionId = some tx.id ∨ q.status = .expired ∨
      q.status = .cancelled)

/-- The saved cursor of the wallet is at or past the deposit's operation. -/
def Passed (db : Db) (tx : Transaction) : Prop :=
  ∃ token ∈ db.getCursor tx.walletId, ∃ op ∈ tx.horizonOpId, tokenValue op ≤ tokenValue token

def PendingAt (db : Db) (id : Uuid) : Prop := ∃ q ∈ db.payments, q.id = id ∧ q.status = .pending

instance (x : Act) (tx : Transaction) (p : PaymentLinkPayment) : Decidable (Awaited x tx p) :=
  decidable_of_iff ((tx ∈ x.post.transactions ∧ tx ∉ x.pre.transactions) ∧
      (tx.assetCode = "USDC" ∧ tx.assetIssuer = some usdcTestnetIssuer) ∧ p ∈ x.pre.payments ∧
      p.status = .pending ∧ (p.addressId.isSome ∧ tx.addressId = p.addressId) ∧
      tx.amountStroops = p.amountUsdcStroops ∧
      ∃ l ∈ x.pre.links, l.id = p.paymentLinkId ∧ l.isClosedAt tx.createdAt = false)
    ⟨fun ⟨h1, h2, h3, h4, h5, h6, h7⟩ => ⟨h1, h2, h3, h4, h5, h6, h7⟩,
      fun h => ⟨h.inserts, h.usdc, h.payment, h.pending, h.address, h.amount, h.link⟩⟩

instance (db : Db) (p : PaymentLinkPayment) (tx : Transaction) : Decidable (Done db p tx) :=
  inferInstanceAs (Decidable (∃ q ∈ db.payments, _))

instance (db : Db) (tx : Transaction) : Decidable (Passed db tx) :=
  inferInstanceAs (Decidable (∃ token ∈ db.getCursor tx.walletId, ∃ op ∈ tx.horizonOpId,
    tokenValue op ≤ tokenValue token))

section

variable {s s1 s' : Db} {p : PaymentLinkPayment} {tx : Transaction}

theorem Passed.congr (hcur : s.getCursor tx.walletId = s'.getCursor tx.walletId)
    (h : Passed s tx) : Passed s' tx := by
  unfold Passed at h ⊢
  rw [← hcur]
  exact h

theorem Done.mono (hg : Grows s s') (h : Done s p tx) : Done s' p tx := by
  obtain ⟨q, hq, hid, hst⟩ := h
  obtain ⟨q', hq', hstep⟩ := hg.payments q hq
  have hne : q.status ≠ .pending := by
    intro hp
    rw [hp] at hst
    rcases hst with ⟨hst, -⟩ | hst | hst <;> cases hst
  rw [hstep.final hne] at hq'
  exact ⟨q, hq', hid, hst⟩

theorem pending_row (hg : Grows s s1) (hg' : Grows s1 s') (hwf : WellFormed s')
    (hp : p ∈ s.payments) (hnow : PendingAt s' p.id) :
    ∃ q ∈ s1.payments, PayStep p q ∧ q.status = .pending := by
  obtain ⟨q, hq, hstep⟩ := hg.payments p hp
  refine ⟨q, hq, hstep, ?_⟩
  by_contra hne
  obtain ⟨q', hq', hstep'⟩ := hg'.payments q hq
  obtain ⟨r, hr, hrid, hrst⟩ := hnow
  have hsame : q' = r := by
    apply eq_of_pairwise_ne hwf.payments hq' hr
    rw [hstep'.id, hstep.id, hrid]
  rw [← hsame, hstep'.final hne] at hrst
  exact hne hrst

end

/-! ### Answers -/

def lookupFailed : Act → Bool
  | ⟨.pendingPaymentByAddress _, .error .database, _, _⟩ => true
  | ⟨.getPaymentLink _ _, .error .database, _, _⟩ => true
  | ⟨.confirmPaymentLinkPayment _ _, .error .database, _, _⟩ => true
  | _ => false

variable {ans : Except StoreError (Option PaymentLinkPayment)} {e : StoreError}

section

variable {out : Outside} {ch : Choice} {s s' : Db}

theorem firstByAge_eq_none {n : Nat} {rows : List PaymentLinkPayment}
    (h : Db.firstByAge n rows = none) : rows = [] := by
  by_contra hne
  -- a row of least age survives the filter
  obtain ⟨p, hmin⟩ := Option.ne_none_iff_exists'.mp
    (mt (argmin_eq_none (f := fun p : PaymentLinkPayment => p.createdAt)).mp hne)
  have hmem : p ∈ Db.oldestOf rows := by
    refine mem_filter.mpr ⟨argmin_mem hmin, ?_⟩
    rw [all_eq_true]
    intro q hq
    exact decide_eq_true (le_of_mem_argmin hq hmin)
  have hhead : (Db.oldestOf rows).head? = none := (Option.or_eq_none_iff.mp h).2
  rw [head?_eq_none_iff] at hhead
  rw [hhead] at hmem
  exact not_mem_nil hmem

theorem exec_pendingPaymentByAddress_miss {a : Uuid}
    (h : exec out (.pendingPaymentByAddress a) ch s = some (ans, s')) :
    (∃ p, ans = .ok (some p)) ∨ (∀ p ∈ s.payments, p.addressId = some a → p.status ≠ .pending) ∨
      ans = .error .database := by
  obtain ⟨-, ⟨n, rfl⟩ | rfl⟩ := storeRead_cases h
  · cases hf : s.pendingPaymentByAddress a n with
    | some p => exact .inl ⟨p, rfl⟩
    | none =>
      refine .inr (.inl fun p hp ha hst => ?_)
      have hrows := firstByAge_eq_none hf
      have hmem : p ∈ s.payments.filter (fun p => p.addressId == some a && p.status == .pending) :=
        mem_filter.mpr ⟨hp, by simp [ha, hst]⟩
      rw [hrows] at hmem
      exact not_mem_nil hmem
  · exact .inr (.inr rfl)

theorem exec_getPaymentLink_error {w id : Uuid}
    (h : exec out (.getPaymentLink w id) ch s = some (.error e, s')) :
    e = .database ∨ ∀ l ∈ s.links, l.id = id → l.walletId ≠ w := by
  obtain ⟨-, ⟨n, hn⟩ | hn⟩ := storeRead_cases h
  · right
    intro l hl hid hw
    unfold Db.getPaymentLink at hn
    split at hn
    · cases hn
    · rename_i hf
      have := find?_eq_none.mp hf l hl
      simp [hid, hw] at this
  · left
    cases hn
    rfl

theorem exec_confirm {p t : Uuid} {ans : Except StoreError Bool}
    (h : exec out (.confirmPaymentLinkPayment p t) ch s = some (ans, s')) :
    ans = .error .database ∨ s' = s.settlePayments (fun q => q.id == p) .confirmed (some t) := by
  simp only [exec] at h
  rcases store_cases h with ⟨n, hn⟩ | ⟨hn, -⟩
  · right
    exact (Prod.mk.inj hn).2
  · exact .inl hn

end

/-! ### An attempt settles -/

variable {t : Uuid} {x : Act}

section

variable {out : Outside} {cond : World → Label Job Op Ans → Prop} {c : Conf Job Op Ans Db} {i : Nat}

theorem Awaited.open_link (h : Reach (system out) cond Initial c) {tx : Transaction}
    {p : PaymentLinkPayment} (hx : x ∈ c.world.trace i) (ha : Awaited x tx p) :
    ∃ l ∈ x.pre.links, l.id = p.paymentLinkId ∧ l.walletId = tx.walletId ∧
    l.isClosedAt tx.createdAt = false := by
  obtain ⟨hwf, hwf'⟩ := wellFormed_trace h hx
  obtain ⟨l, hl, hid, hopen⟩ := ha.link
  obtain ⟨a, haddr⟩ := Option.isSome_iff_exists.mp ha.address.1
  obtain ⟨r, hr, l', hl', hrid, hlid', hw⟩ := hwf.payment_address p ha.payment a haddr
  have hsame : l' = l := eq_of_pairwise_ne hwf.links hl' hl (hlid'.trans hid.symm)
  obtain ⟨r', hr', hrid', hw'⟩ :=
    hwf'.transaction_address tx ha.inserts.1 a (ha.address.2.trans haddr)
  have hr'' : r ∈ x.post.addresses := by
    obtain ⟨ch, he⟩ := exec_of_trace ((discipline out).chained h) hx
    exact (exec_grows he).addresses r hr
  have hsame' : r' = r := eq_of_pairwise_ne hwf'.addresses hr' hr'' (hrid'.trans hrid.symm)
  refine ⟨l, hl, hid, ?_, hopen⟩
  rw [← hsame, hw, ← hsame', hw']

section

-- a task in the window of a deposit, and a payment that waits for it and is still pending
variable {x0 : Act} {tx : Transaction} {post : List Act} {p : PaymentLinkPayment}
  (h : Reach (system out) cond Initial c) (hw : Window (c.world.trace i) x0 tx post)
  (ha : Awaited x0 tx p) (hnow : PendingAt c.world.db p.id)

include h hw ha hnow

theorem awaited_row {y : Act} (hy : y ∈ post) :
    (∃ q ∈ y.pre.payments, PayStep p q ∧ q.status = .pending) ∧
      ∃ q ∈ y.post.payments, PayStep p q ∧ q.status = .pending := by
  have hc := (discipline out).chained h
  have hwf := wellFormed_reach h
  have hyt := hw.subset.2 hy
  have hpre := hw.grows hc (nil_append _).symm hy
  have hstep : Grows y.pre y.post := by
    obtain ⟨ch, he⟩ := exec_of_trace hc hyt
    exact exec_grows he
  exact ⟨pending_row hpre (grows_of_trace hc hyt) hwf ha.payment hnow,
    pending_row (hpre.trans hstep) (hc.below_of_mem hyt) hwf ha.payment hnow⟩

variable {s s' : Db} {g : Ingestor}

theorem awaited_found {a : Uuid} (hta : tx.addressId = some a)
    (hy : (⟨.pendingPaymentByAddress a, ans, s, s'⟩ : Act) ∈ post) :
    ans = .error .database ∨ ∃ pay, ans = .ok (some pay) ∧ PayStep p pay := by
  have hyt := hw.subset.2 hy
  obtain ⟨ch, he⟩ := exec_of_trace ((discipline out).chained h) hyt
  obtain ⟨q, hq, hstep, hst⟩ := (awaited_row h hw ha hnow hy).1
  have hqa : q.addressId = some a := by rw [hstep.addressId, ← ha.address.2, hta]
  rcases exec_pendingPaymentByAddress_miss he with ⟨pay, rfl⟩ | hnone | hdb
  · obtain ⟨-, hpay, hpa, -⟩ := exec_pendingPaymentByAddress he
    rw [(wellFormed_trace h hyt).1.eq_of_address hq hpay hqa hpa] at hstep
    exact .inr ⟨pay, rfl, hstep⟩
  · exact absurd hst (hnone q hq hqa)
  · exact .inl hdb

omit hnow in
theorem awaited_link_found (hg : tx.walletId = g.walletId)
    (hy : (⟨.getPaymentLink g.walletId p.paymentLinkId, .error e, s, s'⟩ : Act) ∈ post) :
    e = .database := by
  have hc := (discipline out).chained h
  obtain ⟨l, hl, hid, hwal, -⟩ := Awaited.open_link h hw.subset.1 ha
  obtain ⟨l', hl', hls⟩ := (hw.grows hc (nil_append _).symm hy).links l hl
  obtain ⟨ch, he⟩ := exec_of_trace hc (hw.subset.2 hy)
  rcases exec_getPaymentLink_error he with hdb | hnone
  · exact hdb
  · exact absurd (hls.walletId.trans (hwal.trans hg)) (hnone l' hl' (hls.id.trans hid))

theorem awaited_link_open {w : Uuid} {link : PaymentLink}
    (hy : (⟨.getPaymentLink w p.paymentLinkId, .ok link, s, s'⟩ : Act) ∈ post) :
    link.isClosedAt tx.createdAt = false := by
  have hc := (discipline out).chained h
  obtain ⟨hx0, hsub⟩ := hw.subset
  have hwf0 := (wellFormed_trace h hx0).1
  have hwfy := (wellFormed_trace h (hsub hy)).1
  obtain ⟨l, hl, hid, -, hopen⟩ := Awaited.open_link h hx0 ha
  have hgrow := hw.grows hc (nil_append _).symm hy
  obtain ⟨l', hl', hls⟩ := hgrow.links l hl
  obtain ⟨ch, he⟩ := exec_of_trace hc (hsub hy)
  obtain ⟨-, hlink, hlid, -⟩ := exec_getPaymentLink he
  have hsame : l' = link := eq_of_pairwise_ne hwfy.links hl' hlink (by rw [hls.id, hid, hlid])
  rw [hsame] at hls
  simp only [PaymentLink.isClosedAt, Bool.or_eq_false_iff] at hopen ⊢
  refine ⟨?_, by rw [hls.expiresAt]; exact hopen.2⟩
  rw [Option.isSome_eq_false_iff, Option.isNone_iff_eq_none]
  by_contra hcan
  have hnot : ¬ x0.pre.Cancelled p.paymentLinkId := by
    rintro ⟨k, hk, hkid, hkc⟩
    rw [eq_of_pairwise_ne hwf0.links hk hl (hkid.trans hid.symm), hopen.1] at hkc
    cases hkc
  have hyes : s.Cancelled p.paymentLinkId := ⟨link, hlink, hlid, Option.isSome_iff_ne_none.mpr hcan⟩
  obtain ⟨q, hq, hqid, hqst⟩ := hgrow.cancels p ha.payment hnot hyes
  obtain ⟨r, hr, hrs, hrst⟩ := (awaited_row h hw ha hnow hy).1
  rw [eq_of_pairwise_ne hwfy.payments hq hr (hqid.trans hrs.id.symm)] at hqst
  exact hqst hrst

theorem awaited_confirm_failed {ans : Except StoreError Bool}
    (hy : (⟨.confirmPaymentLinkPayment p.id t, ans, s, s'⟩ : Act) ∈ post) :
    ans = .error .database := by
  have hyt := hw.subset.2 hy
  obtain ⟨ch, he⟩ := exec_of_trace ((discipline out).chained h) hyt
  obtain ⟨⟨q, hq, hqs, hqst⟩, r, hr, hrs, hrst⟩ := awaited_row h hw ha hnow hy
  rcases exec_confirm he with hdb | rfl
  · exact hdb
  · have hset : settled (fun q => q.id == p.id) .confirmed (some t) q =
        { q with status := .confirmed, transactionId := some t } := by
      unfold settled
      rw [if_pos (by simp [hqst, hqs.id])]
      rfl
    have hmem := mem_settlePayments.mpr ⟨q, hq, hset.symm⟩
    have hsame := eq_of_pairwise_ne (wellFormed_trace h hyt).2.payments hmem hr
      (hqs.id.trans hrs.id.symm)
    rw [← hsame] at hrst
    cases hrst

/-- A payment that is pending after an attempt to confirm it had a failed call. -/
theorem failed_of_attempted (hg : tx.walletId = g.walletId) (hat : Attempted g tx post) :
    ∃ y ∈ post, lookupFailed y = true := by
  obtain ⟨a, haddr⟩ := Option.isSome_iff_exists.mp ha.address.1
  have hta := ha.address.2.trans haddr
  rcases hat a ha.usdc hta with ⟨e, s, s', hy⟩ | ⟨s, s', hy⟩ | ⟨pay, s, s', hy, hlink⟩
  · rcases awaited_found h hw ha hnow hta hy with he | ⟨pay, he, -⟩
    · cases he
      exact ⟨_, hy, rfl⟩
    · cases he
  · rcases awaited_found h hw ha hnow hta hy with he | ⟨pay, he, -⟩
    · cases he
    · cases he
  · rcases awaited_found h hw ha hnow hta hy with he | ⟨_, he, hstep⟩
    · cases he
    · cases he
      rw [hstep.paymentLinkId] at hlink
      rcases hlink with ⟨e, s, s', hz⟩ | ⟨_, s, s', hz, hclosed | hamt | ⟨ans, s1, s1', hv⟩⟩
      · obtain rfl := awaited_link_found h hw ha hg hz
        exact ⟨_, hz, rfl⟩
      · rw [awaited_link_open h hw ha hnow hz] at hclosed
        cases hclosed
      · exact absurd (ha.amount.trans hstep.amount.symm) hamt
      · rw [hstep.id] at hv
        obtain rfl := awaited_confirm_failed h hw ha hnow hv
        exact ⟨_, hv, rfl⟩

end

end

/-! ### Undisturbed runs -/

abbrev Call := Event Op Ans Db

def callsOf (hist : List Call) (k : Nat) : List Act :=
  (hist.filter (fun e => e.tid == k)).map (·.act)

def movesWallet : Act → Option Uuid
  | ⟨.setCursor w _, _, _, _⟩ => some w
  | x => (inserted x).map (·.walletId)

/-- A task that has inserted a deposit and may have to settle a payment with it, in the state `db`:
it has made no settling call since, or a payment that awaits the deposit is pending still. -/
structure Busy (tr : List Act) (db : Db) (x0 : Act) (tx : Transaction) (post : List Act) :
    Prop where
  window : Window tr x0 tx post
  usdc : IsUsdc tx
  addressed : tx.addressId.isSome
  unsettled : (∀ y ∈ post, isSettle y = false) ∨ ∃ p, Awaited x0 tx p ∧ PendingAt db p.id

/-- A call that loses no confirmation, made after the calls `before`. -/
structure CallOk (before : List Call) (e : Call) : Prop where
  /-- An insert that is answered with an error has not taken effect. -/
  insert : ∀ d err s s', e.act = ⟨.recordDeposit d, .error err, s, s'⟩ → s' = s
  /-- Between the insert of a deposit and the save of the cursor no call of the task fails. -/
  answered : ∀ x0 tx post, Window (callsOf before e.tid) x0 tx post → lookupFailed e.act = false
  /-- A cursor is saved and a deposit inserted only while no other task of the wallet, running or
  dead, is between the insert of a deposit and the payment that it settles. -/
  alone : ∀ w, movesWallet e.act = some w → ∀ k x0 tx post, k ≠ e.tid →
    Busy (callsOf before k) e.act.pre x0 tx post → tx.walletId ≠ w
  /-- A deposit is inserted before the cursor has passed it. -/
  ahead : ∀ tx, inserted e.act = some tx → ¬ Passed e.act.pre tx

def Undisturbed : List Call → Prop
  | [] => True
  | e :: before => CallOk before e ∧ Undisturbed before

variable {tx : Transaction} {before : List Call}

theorem inserted_of_inserts {out : Outside} {o : Op} {ch : Choice} {a : Ans o} {s s' : Db}
    (he : exec out o ch s = some (a, s')) {i : Nat}
    (hok : CallOk before ⟨i, o, a, s, s'⟩) (hpost : tx ∈ s'.transactions)
    (hpre : tx ∉ s.transactions) : inserted ⟨o, a, s, s'⟩ = some tx := by
  by_cases ho : ∃ d, o = .recordDeposit d
  · obtain ⟨d, rfl⟩ := ho
    cases a with
    | error err =>
      rw [hok.insert d err s s' rfl] at hpost
      exact absurd hpost hpre
    | ok =>
      have he' := exec_recordDeposit he
      rcases recordDeposit_cases d s with ⟨-, hd⟩ | ⟨-, hd⟩ | ⟨-, -, hd⟩
      · rw [hd] at he'
        cases he'
      · rw [hd] at he'
        obtain ⟨-, rfl⟩ := Prod.mk.inj he'
        exact absurd hpost hpre
      · rw [hd] at he'
        obtain ⟨hans, rfl⟩ := Prod.mk.inj he'
        cases hans
        rcases Rows.mem_concat.mp hpost with hold | rfl
        · exact absurd hold hpre
        · rfl
  · rcases exec_write he with rfl | rfl
    · exact absurd hpost hpre
    · rw [(write_frames out _ _).1 (fun d hd => ho ⟨d, hd⟩)] at hpost
      exact absurd hpost hpre

/-! ### The invariant -/

/-- The payment still waits for the task that inserted the deposit, and the cursor has not passed
it. -/
structure Waiting (w : World) (i : Nat) (x0 : Act) (tx : Transaction) (p : PaymentLinkPayment) :
    Prop where
  window : ∃ post, Window (w.trace i) x0 tx post
  pending : PendingAt w.db p.id
  ahead : ¬ Passed w.db tx

theorem busy_of_settleOk {g : Ingestor} {tr post : List Act} {x0 : Act} {link : PaymentLink}
    {pay : PaymentLinkPayment} (h : SettleOk g tr x0 tx post link pay) (db : Db) :
    Busy tr db x0 tx post := by
  refine ⟨h.window, h.usdc, ?_, .inl h.once⟩
  cases h.matched with
  | exact ha | fallback ha => rw [ha]; rfl

theorem Waiting.busy {w : World} {i : Nat} {x0 : Act} {p : PaymentLinkPayment}
    (h : Waiting w i x0 tx p) (ha : Awaited x0 tx p) :
    ∃ post, Busy (w.trace i) w.db x0 tx post := by
  obtain ⟨post, hw⟩ := h.window
  exact ⟨post, hw, ha.usdc, ha.address.2 ▸ ha.address.1, .inr ⟨p, ha, h.pending⟩⟩

/-- The invariant; one wallet has one busy task, and an awaited payment is done or waits for it. -/
structure WindowsOk (w : World) : Prop where
  one : ∀ k k' x0 x1 tx tx' post post', Busy (w.trace k) w.db x0 tx post →
    Busy (w.trace k') w.db x1 tx' post' → tx.walletId = tx'.walletId → k = k'
  answered : ∀ k x0 tx post, Window (w.trace k) x0 tx post → ∀ y ∈ post, lookupFailed y = false
  kept : ∀ k x0 tx p, x0 ∈ w.trace k → Awaited x0 tx p → Done w.db p tx ∨ Waiting w k x0 tx p

theorem window_record {w : World} {k : Nat} {o : Op} {a : Ans o} {s : Db} {m : Nat} {x0 : Act}
    {post : List Act} (h : Window ((w.record k o a s).trace m) x0 tx post) :
    (m = k ∧ post = [] ∧ inserted ⟨o, a, w.db, s⟩ = some tx) ∨
    ∃ post', Window (w.trace m) x0 tx post' ∧
        post' ⊆ post ∧ ∀ y ∈ post, y ∈ post' ∨ m = k ∧ y = ⟨o, a, w.db, s⟩ := by
  by_cases hk : k = m
  · subst hk
    rw [trace_record_self] at h
    rcases window_cons_cases h with ⟨rfl, hpost, hins⟩ | ⟨-, post', rfl, hw⟩
    · exact .inl ⟨rfl, hpost, hins⟩
    · refine .inr ⟨post', hw, subset_cons_self _ _, fun y hy => ?_⟩
      rcases mem_cons.mp hy with hy | hy
      · exact .inr ⟨rfl, hy⟩
      · exact .inl hy
  · rw [trace_record_of_ne _ _ _ _ _ hk] at h
    exact .inr ⟨post, h, fun _ hy => hy, fun y hy => .inl hy⟩

theorem movesWallet_inserted (h : inserted x = some tx) : movesWallet x = some tx.walletId := by
  obtain ⟨d, heq⟩ := inserted_eq h
  rw [heq]
  rfl

section

variable {out : Outside} {c : Conf Job Op Ans Db} {k : Nat} {j : Job} {o : Op} {ch : Choice}
  {a : Ans o} {s : Db} {i : Nat} {x0 : Act} {tx : Transaction} {p : PaymentLinkPayment}
  (hr : Reachable (system out) Initial c) (hI : WindowsOk c.world) (hj : c.world.jobs[k]? = some j)
  (hL : Allowed out j (c.world.trace k) o) (he : exec out o ch c.world.db = some (a, s))
  (hok : CallOk c.world.hist ⟨k, o, a, c.world.db, s⟩)

section

variable (ha : Awaited x0 tx p) (hwait : Waiting c.world i x0 tx p)

include hr hI hj hL ha hwait

theorem settles_waiting {st : PaymentStatus} (hs : settles o = some (p.id, t, st)) :
    t = tx.id ∧ st = .confirmed := by
  have hwf := wellFormed_reach hr
  obtain ⟨_, hw⟩ := hwait.window
  have hgrow := grows_of_trace ((discipline out).chained hr) hw.subset.1
  obtain ⟨g, x1, tx', post', link, pay, hg, hS, hpid, rfl, hamt⟩ := settleOk_of_allowed hL hs
  obtain ⟨-, ⟨l, hl, hls, hlw⟩, ⟨q, hq, hqs⟩, hpl⟩ := settleOk_rows hr hj hg (nil_append _).symm hS
  obtain ⟨q', hq', hqs'⟩ := hgrow.payments p ha.payment
  have hqq : q' = q := by
    apply eq_of_pairwise_ne hwf.payments hq' hq
    rw [hqs'.id, hqs.id, hpid]
  rw [hqq] at hqs'
  -- both deposits are on the wallet of the payment's link
  obtain ⟨l0, hl0, hid0, hw0, -⟩ := Awaited.open_link hr hw.subset.1 ha
  obtain ⟨l', hl', hls'⟩ := hgrow.links l0 hl0
  have hll : l' = l := by
    apply eq_of_pairwise_ne hwf.links hl' hl
    rw [hls'.id, hls.id, hid0, ← hpl, ← hqs.paymentLinkId, hqs'.paymentLinkId]
  have hwal : tx'.walletId = tx.walletId := by
    rw [← hlw, ← hll, hls'.walletId, hw0]
  obtain ⟨post0, hbusy⟩ := hwait.busy ha
  have hki : k = i := hI.one k i x1 x0 tx' tx post' post0 (busy_of_settleOk hS _) hbusy hwal
  subst hki
  obtain ⟨-, rfl, -⟩ := hS.window.unique hw
  refine ⟨rfl, hamt.mpr ?_⟩
  rw [ha.amount, ← hqs'.amount, hqs.amount]

include he

theorem pending_call : Done s p tx ∨ PendingAt s p.id := by
  have hwf := wellFormed_reach hr
  obtain ⟨q, hq, hqid, hqst⟩ := hwait.pending
  obtain ⟨q', hq', hqs⟩ := (exec_grows he).payments q hq
  have hid : q'.id = p.id := hqs.id.trans hqid
  have hmove := payMove_call he hq'
  cases hmove with
  | kept hold =>
    have hsame : q' = q := eq_of_pairwise_ne hwf.payments hold hq hqs.id
    exact .inr ⟨q', hq', hid, by rw [hsame]; exact hqst⟩
  | intent => exact .inr ⟨_, hq', hid, rfl⟩
  | settle hold hst hs =>
    rw [show _ = p.id from hid] at hs
    obtain ⟨rfl, rfl⟩ := settles_waiting hr hI hj hL ha hwait hs
    exact .inl ⟨_, hq', hid, .inl ⟨rfl, rfl⟩⟩
  | close hold hst hcl => exact .inl ⟨_, hq', hid, .inr hcl⟩

omit he in
theorem isBoundary_waiting (hki : k = i) : isBoundary ⟨o, a, c.world.db, s⟩ = false := by
  subst hki
  obtain ⟨post, hw⟩ := hwait.window
  cases o with
  | setCursor =>
    obtain ⟨g, hg, -, -, hat⟩ := hL
    have hwal := inserted_wallet hr hj hg hw.subset.1 hw.inserted
    obtain ⟨y, hy, hfail⟩ := failed_of_attempted hr hw ha hwait.pending hwal (hat x0 tx post hw)
    rw [hI.answered k x0 tx post hw y hy] at hfail
    cases hfail
  | recordDeposit =>
    obtain ⟨g, -, hd⟩ := hL
    exact absurd hw (hd.noWindow x0 tx post)
  | _ => rfl

include hok

/-- **One call.**  While the payment waits, the window stays open and the cursor behind the deposit.
-/
theorem waiting_call : Done s p tx ∨ Waiting (c.world.record k o a s) i x0 tx p := by
  rcases pending_call hr hI hj hL he ha hwait with hdone | hpend
  · exact .inl hdone
  obtain ⟨post, hw⟩ := hwait.window
  have hown := isBoundary_waiting (a := a) (s := s) hr hI hj hL ha hwait
  refine .inr ⟨?_, hpend, fun hpast => hwait.ahead (hpast.congr ?_)⟩
  · by_cases hki : k = i
    · subst hki
      rw [trace_record_self]
      exact ⟨_, hw.cons (hown rfl)⟩
    · rw [trace_record_of_ne _ _ _ _ _ hki]
      exact ⟨post, hw⟩
  · rw [record_db]
    rcases exec_write he with rfl | rfl
    · rfl
    · by_cases ho : ∃ w t, o = .setCursor w t
      · obtain ⟨w, t, rfl⟩ := ho
        have hne : tx.walletId ≠ w := by
          by_cases hki : k = i
          · exact absurd (hown hki) nofun
          · obtain ⟨post0, hbusy⟩ := hwait.busy ha
            exact hok.alone w rfl i x0 tx post0 (Ne.symm hki) hbusy
        simp only [write, Db.getCursor_setCursor, if_neg hne]
      · exact (write_frames out _ _).2 (fun w t h => ho ⟨w, t, h⟩) _

end

include hr hL he

/-- A task that is busy after a call was busy before it, or has just inserted its deposit. -/
theorem busy_record {m : Nat} {post : List Act}
    (h : Busy ((c.world.record k o a s).trace m) s x0 tx post) :
    (m = k ∧ inserted ⟨o, a, c.world.db, s⟩ = some tx) ∨
      ∃ post', Busy (c.world.trace m) c.world.db x0 tx post' := by
  have hc := (discipline out).chained hr
  have hwf : WellFormed s := by
    rcases exec_write he with rfl | rfl
    · exact wellFormed_reach hr
    · exact wellFormed_write (tablesOk_reach hr) hc hL
  rcases window_record h.window with ⟨hmk, -, hins⟩ | ⟨post', hw, hsub, -⟩
  · exact .inl ⟨hmk, hins⟩
  refine .inr ⟨post', hw, h.usdc, h.addressed, ?_⟩
  rcases h.unsettled with hno | ⟨p, ha, hp⟩
  · exact .inl fun y hy => hno y (hsub hy)
  · obtain ⟨q, hq, hstep, hst⟩ :=
      pending_row (grows_of_trace hc hw.subset.1) (exec_grows he) hwf ha.payment hp
    exact .inr ⟨p, ha, q, hq, hstep.id, hst⟩

include hI hj hok

theorem windowsOk_call : WindowsOk (c.world.record k o a s) where
  one m m' x0 x1 tx tx' post post' hw hw' hwal := by
    rcases busy_record hr hL he hw with ⟨rfl, hins⟩ | ⟨post1, hold⟩
    · rcases busy_record hr hL he hw' with ⟨rfl, -⟩ | ⟨post2, hold'⟩
      · rfl
      · by_contra hne
        exact hok.alone _ (movesWallet_inserted hins) m' x1 tx' post2 (Ne.symm hne) hold' hwal.symm
    · rcases busy_record hr hL he hw' with ⟨rfl, hins⟩ | ⟨post2, hold'⟩
      · by_contra hne
        exact hok.alone _ (movesWallet_inserted hins) m x0 tx post1 hne hold hwal
      · exact hI.one m m' x0 x1 tx tx' post1 post2 hold hold' hwal
  answered m x0 tx post hw y hy := by
    rcases window_record hw with ⟨-, rfl, -⟩ | ⟨post', hold, -, hmem⟩
    · cases hy
    · rcases hmem y hy with hy | ⟨rfl, rfl⟩
      · exact hI.answered m x0 tx post' hold y hy
      · exact hok.answered x0 tx post' hold
  kept m x0 tx p hx ha := by
    rcases mem_cons.mp (mem_trace.mp hx) with heq | hx
    · -- the call itself: a window opens
      cases heq
      have hins := inserted_of_inserts he hok ha.inserts.1 ha.inserts.2
      obtain ⟨d, hd⟩ := inserted_eq hins
      cases hd
      obtain ⟨-, rfl⟩ := exec_inserted he
      refine .inr ⟨⟨[], ?_⟩, ⟨p, ha.payment, rfl, ha.pending⟩, hok.ahead tx hins⟩
      rw [trace_record_self]
      exact window_insert hins
    · rcases hI.kept m x0 tx p (mem_trace.mpr hx) ha with hdone | hwait
      · exact .inl (hdone.mono (exec_grows he))
      · exact waiting_call hr hI hj hL he hok ha hwait

end

theorem windowsOk_reach {out : Outside} {c : Conf Job Op Ans Db}
    (h : Reachable (system out) Initial c) : Undisturbed c.world.hist → WindowsOk c.world := by
  have hr := h.strengthen (K := fun w => ∃ c, Reachable (system out) Initial c ∧ c.world = w)
    (fun c hc => ⟨c, hc, rfl⟩)
  refine (discipline out).invariant (I := fun w => Undisturbed w.hist → WindowsOk w)
    (fun s _ _ => ?_) ?_ ?_ ?_ hr
  · refine ⟨fun k k' x0 x1 tx tx' post post' hw => ?_, fun k x0 tx post hw => ?_,
      fun k x0 tx p hx => ?_⟩
    · exact absurd hw.window (noWindow_nil _ _ _)
    · exact absurd hw (noWindow_nil _ _ _)
    · exact absurd hx not_mem_nil
  · intro w j hI _ _ hu
    exact ⟨(hI hu).one, (hI hu).answered, fun k x0 tx p hx ha => by
      rcases (hI hu).kept k x0 tx p hx ha with hdone | hwait
      · exact .inl hdone
      · exact .inr ⟨hwait.window, hwait.pending, hwait.ahead⟩⟩
  · rintro w i j o ch a s hI - hj hL he ⟨-, c, hc, rfl⟩ ⟨hok, hu⟩
    exact windowsOk_call hc (hI hu) hj hL he hok
  · intro w e s hI he _ hu
    obtain ⟨-, -, hpay, hcur⟩ := env_rows he
    have hbusy : ∀ {k x0 tx post}, Busy ((w.setDb s).trace k) (w.setDb s).db x0 tx post →
        Busy (w.trace k) w.db x0 tx post := by
      rintro k x0 tx _ ⟨hw, husdc, haddr, hrest⟩
      simp only [setDb_db, PendingAt, hpay] at hrest
      exact ⟨hw, husdc, haddr, hrest⟩
    refine ⟨fun k k' x0 x1 tx tx' post post' hb hb' => ?_, (hI hu).answered,
      fun k x0 tx p hx ha => ?_⟩
    · exact (hI hu).one k k' x0 x1 tx tx' post post' (hbusy hb) (hbusy hb')
    rcases (hI hu).kept k x0 tx p hx ha with hdone | hwait
    · exact .inl (hdone.mono (env_grows he))
    · refine .inr ⟨hwait.window, ?_, fun hpast => hwait.ahead (hpast.congr ?_)⟩
      · obtain ⟨q, hq, hrest⟩ := hwait.pending
        exact ⟨q, by rw [setDb_db, hpay]; exact hq, hrest⟩
      · rw [setDb_db, Db.getCursor, hcur]
        rfl

/-- **Confirmations are not lost in an undisturbed run.**  Once the saved cursor has passed a
deposit, every payment that was awaiting it when it was inserted has been confirmed with it, unless
it was expired or cancelled. -/
theorem confirmation_kept (out : Outside) (c : Conf Job Op Ans Db)
    (h : Reachable (system out) Initial c) (hu : Undisturbed c.world.hist) {i : Nat} {x : Act}
    (hx : x ∈ c.world.trace i) {tx : Transaction} {p : PaymentLinkPayment} (ha : Awaited x tx p)
    (hpast : Passed c.world.db tx) : Done c.world.db p tx := by
  rcases (windowsOk_reach h hu).kept i x tx p hx ha with hdone | hwait
  · exact hdone
  · exact absurd hpast hwait.ahead

/-! ### A crash between the two calls -/

theorem confirmation_lost : ∃ c, Reachable (system (onePayment (usdcPayment "2"))) Initial c ∧
    ∃ e ∈ c.world.hist, ∃ tx ∈ e.act.post.transactions, ∃ p ∈ e.act.pre.payments,
      Awaited e.act tx p ∧ Passed c.world.db tx ∧ ¬ Done c.world.db p tx := by
  exact exists_reachable_of_runMoves intentDb_initial (pollMoves 0 3 ++ .crash 0 :: pollMoves 1 4)
    (by decide)

def calm : Act → Bool
  | ⟨.recordDeposit _, .error _, _, _⟩ => false
  | ⟨.recordDeposit _, .ok (some tx), s, _⟩ => (s.getCursor tx.walletId).isNone
  | x => !lookupFailed x

theorem callOk_of_calm {e : Call} (hone : ∀ k, k ≠ e.tid → callsOf before k = [])
    (hcalm : calm e.act = true) : CallOk before e where
  insert d err s s' heq := by
    rw [heq] at hcalm
    cases hcalm
  answered x0 tx post _ := by
    obtain ⟨i, o, a, s, s'⟩ := e
    unfold calm at hcalm
    split at hcalm
    · cases hcalm
    · rename_i heq
      have : (⟨o, a, s, s'⟩ : Act) = _ := heq
      rw [this]
      rfl
    · simpa using hcalm
  alone w _ k x0 tx post hk hw := by
    rw [hone k hk] at hw
    exact absurd hw.window (noWindow_nil _ _ _)
  ahead tx hins hpast := by
    obtain ⟨d, heq⟩ := inserted_eq hins
    rw [heq] at hcalm
    obtain ⟨_, htoken, -⟩ := hpast
    have hnone : (e.act.pre.getCursor tx.walletId).isNone = true := hcalm
    rw [Option.isNone_iff_eq_none.mp hnone] at htoken
    cases htoken

theorem undisturbed_of_calm {hist : List Call} {i : Nat}
    (h : ∀ e ∈ hist, e.tid = i ∧ calm e.act = true) : Undisturbed hist := by
  induction hist with
  | nil => trivial
  | cons e before ih =>
    obtain ⟨htid, hcalm⟩ := h e mem_cons_self
    have hrest : ∀ e' ∈ before, e'.tid = i ∧ calm e'.act = true := (forall_mem_cons.mp h).2
    refine ⟨callOk_of_calm (fun k hk => ?_) hcalm, ih hrest⟩
    have hnil : before.filter (fun e => e.tid == k) = [] := by
      rw [filter_eq_nil_iff]
      intro e' he'
      rw [(hrest e' he').1, ← htid]
      simpa using Ne.symm hk
    rw [callsOf, hnil]
    rfl

/-- A poll that is not disturbed confirms the intent before it saves the cursor. -/
theorem confirmation_kept_of_poll :
    ∃ c, Reachable (system (onePayment (usdcPayment "2"))) Initial c ∧
    Undisturbed c.world.hist ∧ ∃ x ∈ c.world.trace 0, ∃ tx p, Awaited x tx p ∧
      Passed c.world.db tx ∧ Done c.world.db p tx := by
  obtain ⟨c, hc, hcalm, e, he, tx, -, p, -, ha, hpast⟩ := exists_reachable_of_runMoves
    (S := system (onePayment (usdcPayment "2"))) intentDb_initial (pollMoves 0 7) (p := fun c =>
      (∀ e ∈ c.world.hist, e.tid = 0 ∧ calm e.act = true) ∧
      ∃ e ∈ c.world.hist, ∃ tx ∈ e.act.post.transactions, ∃ p ∈ e.act.pre.payments,
        Awaited e.act tx p ∧ Passed c.world.db tx) (by decide)
  have hu := undisturbed_of_calm hcalm
  have hx : e.act ∈ c.world.trace 0 := by
    rw [← (hcalm e he).1]
    exact World.mem_trace.mpr he
  exact ⟨c, hc, hu, e.act, hx, tx, p, ha, hpast, confirmation_kept _ c hc hu hx ha hpast⟩

end Octo.PaymentLinks
