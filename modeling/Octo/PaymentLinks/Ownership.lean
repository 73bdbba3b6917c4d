import Octo.PaymentLinks.OneShot

/-!
# Whose deposit settles an intent

An intent has an address of its own, and a deposit to that address settles it.  A deposit to the
shared address of a link falls back to the link's oldest pending payment, and that lookup does not
leave out intents with an address of their own: such a deposit settles another payer's intent
(`shared_deposit_settles_intent`).

As long as the fallback finds only payments without an address (`FallbackShared`), every intent is
settled by a deposit to its own address (`settled_by_own_address`).
-/

namespace Octo.PaymentLinks

open Conc Octo.Ingest List

def OldestPending (db : Db) (linkId : Uuid) (p : PaymentLinkPayment) : Prop :=
  p ∈ db.payments ∧ p.paymentLinkId = linkId ∧ p.status = .pending ∧
    ∀ q ∈ db.payments, q.paymentLinkId = linkId → q.status = .pending → p.createdAt ≤ q.createdAt

def fallbackLink : Op → Option Uuid
  | .oldestPendingPaymentLinkPayment linkId => some linkId
  | _ => none

/-- Whenever the fallback is used, the oldest pending payments of the link have no own address. -/
def FallbackShared (w : World) : Prop :=
  ∀ e ∈ w.hist, ∀ linkId, fallbackLink e.act.op = some linkId →
    ∀ p, OldestPending e.act.pre linkId p → p.addressId = none

variable {p : PaymentLinkPayment}

theorem firstByAge_oldest {n : Nat} {rows : List PaymentLinkPayment}
    (h : Db.firstByAge n rows = some p) : ∀ q ∈ rows, p.createdAt ≤ q.createdAt := by
  have hmem : p ∈ Db.oldestOf rows := by
    rcases Option.or_eq_some_iff.mp h with h | ⟨-, h⟩
    · exact mem_of_getElem? h
    · exact mem_of_head? h
  intro q hq
  have hall := all_eq_true.mp (mem_filter.mp hmem).2 q hq
  exact of_decide_eq_true hall

variable {out : Outside}

theorem exec_oldestPending_oldest {ch : Choice} {s s' : Db} {l : Uuid}
    (h : exec out (.oldestPendingPaymentLinkPayment l) ch s = some (.ok (some p), s')) :
    OldestPending s l p := by
  obtain ⟨-, hp, hl, hst⟩ := exec_oldestPending h
  refine ⟨hp, hl, hst, fun q hq hql hqst => ?_⟩
  obtain ⟨-, n, hn⟩ := storeRead_ok h
  apply firstByAge_oldest (Except.ok.inj hn)
  exact mem_filter.mpr ⟨hq, by simp [hql, hqst]⟩

theorem matched_address {w : World} (hc : w.Chained (system out) Grows) (hshared : FallbackShared w)
    {i : Nat} {g : Ingestor} {tx : Transaction} {link : PaymentLink} {pay : PaymentLinkPayment}
    {post : List Act} (hpost : post ⊆ w.trace i) (hm : Matched g tx link pay post) {a : Uuid}
    (ha : pay.addressId = some a) : tx.addressId = some a := by
  cases hm with
  | exact hta hp =>
    obtain ⟨ch, he⟩ := exec_of_trace hc (hpost hp)
    obtain ⟨-, -, hpa, -⟩ := exec_pendingPaymentByAddress he
    rw [hta, ← hpa, ha]
  | fallback _ _ hp =>
    obtain ⟨ch, he⟩ := exec_of_trace hc (hpost hp)
    have hnone := hshared _ (World.mem_trace.mp (hpost hp)) _ rfl pay (exec_oldestPending_oldest he)
    rw [ha] at hnone
    cases hnone

/-- **A payment with an address of its own** is linked to a deposit on that address. -/
theorem settled_by_own_address (out : Outside) (c : Conf Job Op Ans Db)
    (h : Reachable (system out) Initial c) (hshared : FallbackShared c.world)
    {p : PaymentLinkPayment} (hp : p ∈ c.world.db.payments) {a t : Uuid} (ha : p.addressId = some a)
    (ht : p.transactionId = some t) :
    ∃ tx ∈ c.world.db.transactions, tx.id = t ∧ tx.addressId = some a := by
  cases accounted_reach h p hp with
  | unlinked hn =>
    rw [ht] at hn
    cases hn
  | @linked t' i x ht' hx hs =>
    rw [ht] at ht'
    cases ht'
    obtain ⟨later, before, htr⟩ := List.append_of_mem hx
    obtain ⟨j, g, x0, tx, post, _, pay, hj, hg, hS, hpid, htid, -⟩ := settleOk_of_trace h htr hs
    have htr' : c.world.trace i = (later ++ [x]) ++ before := htr.trans (List.append_cons _ _ _)
    obtain ⟨htx, -, ⟨q, hq, hqs⟩, -⟩ := settleOk_rows h hj hg htr' hS
    have hsame : q = p := eq_of_pairwise_ne (wellFormed_reach h).payments hq hp (hqs.id.trans hpid)
    have hpay : pay.addressId = some a := by
      rw [← hqs.addressId, hsame]
      exact ha
    have hpost : post ⊆ c.world.trace i := by
      intro y hy
      rw [htr']
      exact List.mem_append_right _ (hS.window.subset.2 hy)
    exact ⟨tx, htx, htid, matched_address ((discipline out).chained h)
      hshared hpost hS.matched hpay⟩

/-- A poll that uses no fallback and confirms the intent. -/
theorem settled_by_own_address_of_poll :
    ∃ c, Reachable (system (onePayment (usdcPayment "2"))) Initial c ∧ FallbackShared c.world ∧
      ∃ p ∈ c.world.db.payments, p.addressId = some 4 ∧ p.status = .confirmed ∧
        ∃ tx ∈ c.world.db.transactions, p.transactionId = some tx.id ∧ tx.addressId = some 4 := by
  obtain ⟨c, hc, hnone, p, hp, ha, hst, hlinked⟩ := exists_reachable_of_runMoves
    (S := system (onePayment (usdcPayment "2"))) intentDb_initial (pollMoves 0 6) (p := fun c =>
      (∀ e ∈ c.world.hist, fallbackLink e.act.op = none) ∧
      ∃ p ∈ c.world.db.payments, p.addressId = some 4 ∧ p.status = .confirmed ∧
        p.transactionId.isSome) (by decide)
  have hshared : FallbackShared c.world := by
    intro e he linkId hlink
    rw [hnone e he] at hlink
    cases hlink
  obtain ⟨t, ht⟩ := Option.isSome_iff_exists.mp hlinked
  obtain ⟨tx, htx, rfl, hta⟩ := settled_by_own_address _ c hc hshared hp ha ht
  exact ⟨c, hc, hshared, p, hp, ha, hst, tx, htx, ht, hta⟩

theorem shared_deposit_settles_intent :
    ∃ c, Reachable (system (onePayment (usdcPayment "1"))) Initial c ∧
      ∃ p ∈ c.world.db.payments, ∃ a, p.addressId = some a ∧ p.status = .confirmed ∧
        ∃ tx ∈ c.world.db.transactions, p.transactionId = some tx.id ∧ tx.addressId ≠ some a := by
  obtain ⟨c, hc, p, hp, hsettled⟩ := exists_reachable_of_runMoves
    (S := system (onePayment (usdcPayment "1"))) intentDb_initial (pollMoves 0 7) (p := fun c =>
      ∃ p ∈ c.world.db.payments, p.addressId = some 4 ∧ p.status = .confirmed ∧
        ∃ tx ∈ c.world.db.transactions, p.transactionId = some tx.id ∧ tx.addressId ≠ some 4)
    (by decide)
  exact ⟨c, hc, p, hp, 4, hsettled⟩

end Octo.PaymentLinks
