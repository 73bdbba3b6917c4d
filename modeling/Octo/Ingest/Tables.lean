import Octo.Ingest.Code
import Octo.Store.WellFormed

/-!
# The tables in every run

What a call does to the payment rows is said once (`PayMove`); that the tables are well-formed in
every reachable world follows from it and the discipline (`wellFormed_reach`).  The one fact that is
not about a single statement is that an intent's address is its own: between the two calls of a
route, nobody else has claimed the address just allocated (`TablesOk.unclaimed`).
-/

namespace Octo.Ingest

open Conc Octo.PaymentLinks List

/-! ### Ids -/

def TakesId (x : Act) (n : Uuid) : Prop := x.pre.nextId = n ∧ n < x.post.nextId

/-- **An id is taken once.** -/
theorem takesId_unique {out : Outside} {w : World} (hc : w.Chained (system out) Grows)
    {e e' : Event Op Ans Db} (he : e ∈ w.hist) (he' : e' ∈ w.hist) {n : Uuid} (h : TakesId e.act n)
    (h' : TakesId e'.act n) : e = e' := by
  obtain ⟨hpre, hpost⟩ := h
  obtain ⟨hpre', hpost'⟩ := h'
  rcases hc.comparable he he' with heq | hlt | hlt
  · exact heq
  · have hgt := Nat.lt_of_lt_of_le hpost hlt.nextId
    rw [hpre'] at hgt
    exact absurd hgt (Nat.lt_irrefl n)
  · have hgt := Nat.lt_of_lt_of_le hpost' hlt.nextId
    rw [hpre] at hgt
    exact absurd hgt (Nat.lt_irrefl n)

def allocated : Act → Option Address
  | ⟨.allocateAddress _ _ _ _, .ok a, _, _⟩ => some a
  | _ => none

variable {ref : Option String} {base md : String}

section

variable {out : Outside}

variable {x : Act} {a : Address} {t : Transaction}

theorem allocated_eq (h : allocated x = some a) :
    ∃ w base ref md, x = ⟨.allocateAddress w base ref md, .ok a, x.pre, x.post⟩ := by
  unfold allocated at h
  split at h
  · rename_i heq
    cases heq
    cases h
    exact ⟨_, _, _, _, rfl⟩
  · cases h

theorem inserted_eq (h : inserted x = some t) :
    ∃ d, x = ⟨.recordDeposit d, .ok (some t), x.pre, x.post⟩ := by
  unfold inserted at h
  split at h
  · rename_i heq
    cases heq
    cases h
    exact ⟨_, rfl⟩
  · cases h

theorem exec_allocated {w : Uuid} {ch : Choice} {s s' : Db}
    (h : exec out (.allocateAddress w base ref md) ch s = some (.ok a, s')) :
    a.id = s.nextId ∧ a.walletId = w ∧ s'.nextId = s.nextId + 1 ∧ a ∈ s'.addresses ∧
    s'.payments = s.payments := by
  have he := exec_allocateAddress h
  rcases allocateAddress_cases w (out.deriveMuxed base) ref md s with ⟨e, hx⟩
    | ⟨wal, muxed, -, -, -, hx⟩
  · rw [hx] at he
    cases he
  · rw [hx] at he
    obtain ⟨ha, rfl⟩ := Prod.mk.inj he
    cases ha
    exact ⟨rfl, rfl, rfl, mem_concat_self, rfl⟩

theorem exec_inserted {d : NewDeposit} {ch : Choice} {s s' : Db}
    (h : exec out (.recordDeposit d) ch s = some (.ok (some t), s')) :
    t = s.depositRow d ∧ s' =
      { s with nextId := s.nextId + 1, transactions := s.transactions ++ [t] } := by
  have he := exec_recordDeposit h
  rcases recordDeposit_cases d s with ⟨-, hx⟩ | ⟨-, hx⟩ | ⟨-, -, hx⟩
  · rw [hx] at he
    cases he
  · rw [hx] at he
    cases he
  · rw [hx] at he
    obtain ⟨ht, rfl⟩ := Prod.mk.inj he
    cases ht
    exact ⟨rfl, rfl⟩

theorem takesId_allocated {w : World} (hc : w.Chained (system out) Grows) {i : Nat}
    (hx : x ∈ w.trace i) (h : allocated x = some a) : TakesId x a.id := by
  obtain ⟨w', _, ref, md, heq⟩ := allocated_eq h
  rw [heq] at hx ⊢
  obtain ⟨ch, he⟩ := exec_of_trace hc hx
  obtain ⟨hid, -, hnext, -⟩ := exec_allocated he
  exact ⟨hid.symm, by rw [hid, hnext]; exact Nat.lt_succ_self _⟩

theorem takesId_inserted {w : World} (hc : w.Chained (system out) Grows) {i : Nat}
    (hx : x ∈ w.trace i) (h : inserted x = some t) : TakesId x t.id := by
  obtain ⟨d, heq⟩ := inserted_eq h
  rw [heq] at hx ⊢
  obtain ⟨ch, he⟩ := exec_of_trace hc hx
  obtain ⟨rfl, hpost⟩ := exec_inserted he
  exact ⟨rfl, by rw [hpost]; exact Nat.lt_succ_self _⟩

end

/-! ### Payment rows -/

def settles : Op → Option (Uuid × Uuid × PaymentStatus)
  | .confirmPaymentLinkPayment p t => some (p, t, .confirmed)
  | .markPaymentLinkPaymentMismatched p t m => some (p, t, m.status)
  | _ => none

/-- Where a payment of the table after a write comes from. -/
inductive PayMove (o : Op) (s : Db) : PaymentLinkPayment → Prop
  | kept {p : PaymentLinkPayment} : p ∈ s.payments → PayMove o s p
  | intent {l : Uuid} {n e : Option String} {amt : Int} {a : Option Uuid} :
      o = .recordPaymentLinkIntent l n e amt a → PayMove o s (s.paymentRow l n e amt a)
  | settle {p : PaymentLinkPayment} {t : Uuid} {st : PaymentStatus} : p ∈ s.payments →
      p.status = .pending → settles o = some (p.id, t, st) →
      PayMove o s { p with status := st, transactionId := some t }
  | close {p : PaymentLinkPayment} {st : PaymentStatus} : p ∈ s.payments → p.status = .pending →
      st = .expired ∨ st = .cancelled → PayMove o s { p with status := st }

variable {o : Op} {p' : PaymentLinkPayment} {cond : World → Label Job Op Ans → Prop}
  {c : Conf Job Op Ans Db}

theorem payMove_settled {s : Db} {guard : PaymentLinkPayment → Bool} {st : PaymentStatus}
    {tx : Option Uuid} (hp' : p' ∈ (s.settlePayments guard st tx).payments)
    (h : ∀ p ∈ s.payments, p.status = .pending → guard p = true →
      PayMove o s { p with status := st, transactionId := tx.or p.transactionId }) :
    PayMove o s p' := by
  obtain ⟨p, hp, rfl⟩ := mem_settlePayments.mp hp'
  unfold settled
  split
  · rename_i hg
    simp only [Bool.and_eq_true, beq_iff_eq] at hg
    exact h p hp hg.1 hg.2
  · exact .kept hp

theorem payMove_write {out : Outside} {s : Db} (h : p' ∈ (write out o s).payments) :
    PayMove o s p' := by
  cases o with
  | setCursor w token =>
    obtain ⟨cs, hs⟩ := setCursor_eq s w token
    simp only [write, hs] at h
    exact .kept h
  | markPolled w =>
    obtain ⟨cs, hs⟩ := markPolled_eq s w
    simp only [write, hs] at h
    exact .kept h
  | recordDeposit d =>
    obtain ⟨n, ts, hs⟩ := recordDeposit_eq s d
    simp only [write, hs] at h
    exact .kept h
  | allocateAddress w base ref md =>
    obtain ⟨n, ws, as, hs⟩ := allocateAddress_eq s w (out.deriveMuxed base) ref md
    simp only [write, hs] at h
    exact .kept h
  | createPaymentLink l =>
    obtain ⟨n, ls, hs⟩ := createPaymentLink_eq s l
    simp only [write, hs] at h
    exact .kept h
  | recordPaymentLinkIntent =>
    rcases Rows.mem_concat.mp h with h | rfl
    · exact .kept h
    · exact .intent rfl
  | cancelPaymentLink w id =>
    simp only [write] at h
    rcases cancelPaymentLink_cases w id s with hs | ⟨l, -, -, -, _, hs⟩
    · rw [hs] at h
      exact .kept h
    · rw [hs] at h
      refine payMove_settled h fun p hp hst _ => ?_
      exact .close hp hst (.inr rfl)
  | confirmPaymentLinkPayment | markPaymentLinkPaymentMismatched =>
    refine payMove_settled h fun q hq hst hg => ?_
    exact .settle hq hst (by rw [beq_iff_eq.mp hg]; rfl)
  | expireStalePaymentLinkPayments =>
    refine payMove_settled h fun q hq hst _ => ?_
    exact .close hq hst (.inl rfl)
  | _ => exact .kept h

theorem payMove_call {out : Outside} {ch : Choice} {s s' : Db} {a : Ans o}
    (he : exec out o ch s = some (a, s')) (h : p' ∈ s'.payments) : PayMove o s p' := by
  rcases exec_write he with rfl | rfl
  · exact .kept h
  · exact payMove_write h

theorem PayMove.address {s : Db} (h : PayMove o s p') :
    (∃ p ∈ s.payments, p'.addressId = p.addressId) ∨
      ∃ l n e amt, o = .recordPaymentLinkIntent l n e amt p'.addressId := by
  cases h with
  | kept hp => exact .inl ⟨_, hp, rfl⟩
  | intent ho => exact .inr ⟨_, _, _, _, ho⟩
  | settle hp | close hp => exact .inl ⟨_, hp, rfl⟩

/-! ### Well-formed tables -/

/-- The invariant of the tables. -/
structure TablesOk (w : World) : Prop where
  wellFormed : WellFormed w.db
  /-- The address a task has just allocated is nobody's yet. -/
  unclaimed : ∀ i x before a, w.trace i = x :: before → allocated x = some a →
    ∀ p ∈ w.db.payments, p.addressId ≠ some a.id

section

variable {out : Outside} {w : World} {i : Nat} {j : Job} {ch : Choice} {s : Db}

variable {x : Act} {t : Transaction}

section

variable (hc : w.Chained (system out) Grows) {tx : Transaction} {post : List Act} {x0 : Act}
include hc

theorem grows_of_trace (hx : x ∈ w.trace i) : Grows x.pre w.db := by
  obtain ⟨ch, he⟩ := exec_of_trace hc hx
  exact (exec_grows he).trans (hc.below_of_mem hx)

theorem inserted_row (hx : x ∈ w.trace i) (h : inserted x = some t) :
    ∃ d, t = x.pre.depositRow d := by
  obtain ⟨d, heq⟩ := inserted_eq h
  rw [heq] at hx
  obtain ⟨ch, he⟩ := exec_of_trace hc hx
  exact ⟨d, (exec_inserted he).1⟩

theorem inserted_mem (hx : x ∈ w.trace i) (h : inserted x = some t) : t ∈ w.db.transactions := by
  obtain ⟨d, heq⟩ := inserted_eq h
  have hexec := hx
  rw [heq] at hexec
  obtain ⟨ch, he⟩ := exec_of_trace hc hexec
  refine (hc.below_of_mem hx).transactions t ?_
  rw [(exec_inserted he).2]
  exact mem_concat_self

theorem Window.grows {later tr : List Act} (htr : w.trace i = later ++ tr)
    (hw : Window tr x0 tx post) {y : Act} (hy : y ∈ post) : Grows x0.pre y.pre := by
  obtain ⟨b, rfl, -, -⟩ := hw
  obtain ⟨m, m', rfl⟩ := append_of_mem hy
  have hx0 : x0 ∈ w.trace i := by
    rw [htr]
    simp
  have htry : w.trace i = (later ++ m) ++ y :: (m' ++ x0 :: b) := by
    rw [htr]
    simp
  have hafter : Grows x0.post y.pre := hc.between htry (mem_append_right _ mem_cons_self)
  obtain ⟨ch, he⟩ := exec_of_trace hc hx0
  exact (exec_grows he).trans hafter

theorem inserted_lt (hx : x ∈ w.trace i) (h : inserted x = some t) : t.id < w.db.nextId :=
  Nat.lt_of_lt_of_le (takesId_inserted hc hx h).2 (hc.below_of_mem hx).nextId

theorem SettleOk.lt {g : Ingestor} {link : PaymentLink} {pay : PaymentLinkPayment}
    (h : SettleOk g (w.trace i) x0 tx post link pay) : tx.id < w.db.nextId := by
  obtain ⟨_, htr, hins, -⟩ := h.window
  exact inserted_lt hc (mem_of_split htr) hins

theorem allocated_mem {wal : Uuid} {a : Address} {s0 s0' : Db}
    (hx : (⟨.allocateAddress wal base ref md, .ok a, s0, s0'⟩ : Act) ∈ w.trace i) :
    a ∈ w.db.addresses ∧ a.walletId = wal := by
  obtain ⟨ch, he⟩ := exec_of_trace hc hx
  obtain ⟨-, hw, -, hm, -⟩ := exec_allocated he
  exact ⟨(hc.below_of_mem hx).addresses a hm, hw⟩

end

/-- **Every allowed call keeps the tables well-formed.** -/
theorem wellFormed_write (hI : TablesOk w) (hc : w.Chained (system out) Grows) {o : Op}
    (hL : Allowed out j (w.trace i) o) : WellFormed (write out o w.db) := by
  have hwf := hI.wellFormed
  cases o with
  | setCursor wal token =>
    obtain ⟨cs, hs⟩ := setCursor_eq w.db wal token
    simp only [write, hs]
    exact hwf.setCursors cs
  | markPolled wal =>
    obtain ⟨cs, hs⟩ := markPolled_eq w.db wal
    simp only [write, hs]
    exact hwf.setCursors cs
  | recordDeposit =>
    obtain ⟨g, -, hd⟩ := hL
    refine hwf.recordDeposit fun a ha => ?_
    obtain ⟨m, addr, s0, s0', hx, hid⟩ := hd.address a ha
    obtain ⟨ch, he⟩ := exec_of_trace hc hx
    obtain ⟨rfl, hm, hw⟩ := exec_addressByMuxedId he
    exact ⟨addr, (hc.below_of_mem hx).addresses addr hm, hid, by rw [hw, hd.walletId]⟩
  | allocateAddress => exact hwf.allocateAddress _ _ _ _
  | createPaymentLink =>
    obtain ⟨_, addr, s0, s0', _, htr, hla⟩ := hL
    obtain ⟨hm, hw⟩ := allocated_mem hc (by rw [htr]; exact mem_cons_self)
    exact hwf.createPaymentLink ⟨addr, hm, hla.symm, hw⟩
  | setPaymentLinkActive | updateUnpaidPaymentLink =>
    exact hwf.updateLinks fun _ => ⟨rfl, rfl, rfl, rfl, rfl, fun _ => rfl⟩
  | cancelPaymentLink wal id =>
    rcases cancelPaymentLink_cases wal id w.db with hs | ⟨l, -, -, -, _, hs⟩
    · simp only [write, hs]
      exact hwf
    · simp only [write, hs]
      exact (hwf.updateLinks (linkStep_cancelled w.db.now)).settlePayments (fun h => by cases h)
        (fun t ht => by cases ht)
  | recordPaymentLinkIntent =>
    obtain ⟨link, base, slug, addr, s0, s0', s1, s1', before, htr, rfl, rfl, hslug, -⟩ := hL
    have hx : (⟨.allocateAddress link.walletId base none slug, .ok addr, s0, s0'⟩ : Act) ∈
        w.trace i := by
      rw [htr]
      exact mem_cons_self
    have hy : (⟨.getPaymentLinkBySlug slug, .ok link, s1, s1'⟩ : Act) ∈ w.trace i := by
      rw [htr]
      exact mem_cons_of_mem _ hslug
    obtain ⟨ch, he⟩ := exec_of_trace hc hy
    obtain ⟨rfl, hl⟩ := exec_getPaymentLinkBySlug he
    obtain ⟨l', hl', hst⟩ := (hc.below_of_mem hy).links link hl
    obtain ⟨ha, hwal⟩ := allocated_mem hc hx
    refine hwf.recordPaymentLinkIntent ⟨l', hl', hst.id⟩ ?_ ?_
    · intro x hxa
      cases hxa
      exact ⟨addr, ha, l', hl', rfl, hst.id, by rw [hst.walletId, hwal]⟩
    · intro p hp _
      exact hI.unclaimed i _ before addr htr rfl p hp
  | confirmPaymentLinkPayment p t =>
    obtain ⟨g, x0, tx, _, _, pay, -, hS, -, rfl, -⟩ := hL
    refine hwf.settlePayments (fun h => by cases h) fun t ht => ?_
    cases ht
    exact hS.lt hc
  | markPaymentLinkPaymentMismatched p t m =>
    obtain ⟨g, x0, tx, _, _, pay, -, hS, -, rfl, -⟩ := hL
    refine hwf.settlePayments (by cases m <;> exact fun h => by cases h) fun t ht => ?_
    cases ht
    exact hS.lt hc
  | expireStalePaymentLinkPayments =>
    exact hwf.settlePayments (fun h => by cases h) (fun t ht => by cases ht)
  | _ => exact hwf

theorem unclaimed_call (hI : TablesOk w) (hc : w.Chained (system out) Grows) {o : Op} {a : Ans o}
    (hL : Allowed out j (w.trace i) o) (he : exec out o ch w.db = some (a, s)) {k : Nat}
    {before : List Act} {addr : Address} (htr : (w.record i o a s).trace k = x :: before)
    (hx : allocated x = some addr) : ∀ p ∈ s.payments, p.addressId ≠ some addr.id := by
  intro p' hp' hclaim
  by_cases hik : i = k
  · -- the address is new, so no reference points to it
    subst hik
    rw [World.trace_record_self] at htr
    cases htr
    obtain ⟨wal, _, ref, md, heq⟩ := allocated_eq hx
    cases heq
    obtain ⟨hid, -, -, -, hpay⟩ := exec_allocated he
    rw [hpay] at hp'
    obtain ⟨r, hr, -, -, hrid, -⟩ := hI.wellFormed.payment_address p' hp' _ hclaim
    have hlt := hI.wellFormed.addresses_fresh r hr
    rw [hrid, hid] at hlt
    exact Nat.lt_irrefl _ hlt
  · rw [World.trace_record_of_ne _ _ _ _ _ hik] at htr
    have hmem : x ∈ w.trace k := by
      rw [htr]
      exact mem_cons_self
    rcases (payMove_call he hp').address with ⟨p, hp, hpa⟩ | ⟨l, n, e, amt, rfl⟩
    · exact hI.unclaimed k x before addr htr hx p hp (hpa ▸ hclaim)
    · -- the intent claims the address its own task allocated
      obtain ⟨link, base, slug, addr', s0, s0', s1, s1', _, htr', ha', -⟩ := hL
      have hmem' : (⟨.allocateAddress link.walletId base none slug, .ok addr', s0, s0'⟩ : Act) ∈
          w.trace i := by
        rw [htr']
        exact mem_cons_self
      have hsame : addr'.id = addr.id := Option.some.inj (ha'.symm.trans hclaim)
      have ht := takesId_allocated hc hmem hx
      have ht' := takesId_allocated hc hmem' rfl
      rw [hsame] at ht'
      have heq := takesId_unique hc (World.mem_trace.mp hmem') (World.mem_trace.mp hmem) ht' ht
      exact hik (congrArg Event.tid heq)

end

variable {out : Outside}

theorem tablesOk_reach (h : Reach (system out) cond Initial c) : TablesOk c.world := by
  refine (discipline out).invariant (fun s hs => ⟨hs.wellFormed, ?_⟩) ?_ ?_ ?_ h
  · intro i x before a htr
    cases htr
  · intro w j hI _ _
    exact ⟨hI.wellFormed, hI.unclaimed⟩
  · intro w i j o ch a s hI hc hj hL he _
    refine ⟨?_, fun k x before addr htr hx => unclaimed_call hI hc hL he htr hx⟩
    rcases exec_write he with rfl | rfl
    · exact hI.wellFormed
    · exact wellFormed_write hI hc hL
  · intro w e s hI he _
    obtain ⟨-, -, hpay, -⟩ := env_rows he
    refine ⟨?_, fun i x before a htr hx p hp => ?_⟩
    · cases e with
      | tick dt =>
        cases he
        exact hI.wellFormed.tick dt
      | createWallet =>
        simp only [system, env] at he
        split at he
        · cases he
        · rename_i hnew
          cases he
          refine hI.wellFormed.createWallet fun x hx heq => hnew ?_
          exact any_eq_true.mpr ⟨x, hx, by simpa using heq⟩
    · rw [World.setDb_db, hpay] at hp
      exact hI.unclaimed i x before a htr hx p hp

theorem wellFormed_reach (h : Reach (system out) cond Initial c) : WellFormed c.world.db :=
  (tablesOk_reach h).wellFormed

theorem wellFormed_trace (h : Reach (system out) cond Initial c) {i : Nat} {x : Act}
    (hx : x ∈ c.world.trace i) : WellFormed x.pre ∧ WellFormed x.post :=
  reach_hist (fun _ hc => wellFormed_reach hc) h _ (World.mem_trace.mp hx)

end Octo.Ingest
