import Octo.Store.Grows

/-!
# Well-formed tables

Primary keys and the references between the tables, and the state of a database before its
first deposit.  One lemma per statement says what it takes to keep the tables well-formed
(`WellFormed.recordDeposit` and so on).
-/

namespace Octo

open Rows List

/-- Ids are unique and fresh, and references point to rows of the same wallet. -/
structure WellFormed (db : Db) : Prop where
  wallets : db.wallets.Pairwise (fun a b => a.id ≠ b.id ∧ a.stellarAccountG ≠ b.stellarAccountG)
  wallets_fresh : ∀ w ∈ db.wallets, w.id < db.nextId
  addresses : db.addresses.Pairwise (fun a b => a.id ≠ b.id)
  addresses_fresh : ∀ a ∈ db.addresses, a.id < db.nextId
  transactions : db.transactions.Pairwise (fun a b => a.id ≠ b.id)
  transactions_fresh : ∀ t ∈ db.transactions, t.id < db.nextId
  transaction_address : ∀ t ∈ db.transactions, ∀ a, t.addressId = some a →
    ∃ r ∈ db.addresses, r.id = a ∧ r.walletId = t.walletId
  links : db.links.Pairwise (fun a b => a.id ≠ b.id)
  links_fresh : ∀ l ∈ db.links, l.id < db.nextId
  link_address : ∀ l ∈ db.links, ∃ r ∈ db.addresses, r.id = l.addressId ∧ r.walletId = l.walletId
  payments : db.payments.Pairwise (fun a b => a.id ≠ b.id)
  payments_fresh : ∀ p ∈ db.payments, p.id < db.nextId
  payment_link : ∀ p ∈ db.payments, ∃ l ∈ db.links, l.id = p.paymentLinkId
  /-- An intent's address is on the wallet of its link; -/
  payment_address : ∀ p ∈ db.payments, ∀ a, p.addressId = some a →
    ∃ r ∈ db.addresses, ∃ l ∈ db.links, r.id = a ∧ l.id = p.paymentLinkId ∧ l.walletId = r.walletId
  /-- and it is its own. -/
  own_address : db.payments.Pairwise (fun p q => p.addressId.isSome → p.addressId ≠ q.addressId)
  /-- Only a deposit that is in the table is linked, and never to a pending payment. -/
  linked : ∀ p ∈ db.payments, ∀ t, p.transactionId = some t → t < db.nextId
  pending : ∀ p ∈ db.payments, p.status = .pending → p.transactionId = none

/-- A database before its first deposit: there may be links with pending intents, with or without
an address of their own. -/
structure Initial (db : Db) : Prop where
  wellFormed : WellFormed db
  transactions : db.transactions = []
  cursors : db.cursors = []
  payments : ∀ p ∈ db.payments, p.status = .pending

theorem eq_of_pairwise_ne {α β : Type} {l : List α} {f : α → β}
    (h : l.Pairwise (fun a b => f a ≠ f b)) {a b : α} (ha : a ∈ l) (hb : b ∈ l) (hab : f a = f b) :
    a = b :=
  inj_on_of_nodup_map (pairwise_map.mpr h) ha hb hab

theorem pairwise_ne_concat {α : Type} {l : List α} {f : α → Nat} {n : Nat} {x : α}
    (h : l.Pairwise (fun a b => f a ≠ f b)) (hf : ∀ a ∈ l, f a < n) (hx : f x = n) :
    (l ++ [x]).Pairwise (fun a b => f a ≠ f b) :=
  pairwise_concat h (fun a ha => hx ▸ Nat.ne_of_lt (hf a ha))

namespace WellFormed

variable {s : Db}

section

variable (h : WellFormed s)
include h

theorem eq_of_address {p q : PaymentLinkPayment} (hp : p ∈ s.payments) (hq : q ∈ s.payments)
    {a : Uuid} (hpa : p.addressId = some a) (hqa : q.addressId = some a) : p = q := by
  have hown : (s.payments.filter (fun p => p.addressId.isSome)).Pairwise
      (fun p q => p.addressId ≠ q.addressId) := by
    refine List.Pairwise.imp_of_mem ?_ (h.own_address.filter _)
    intro p q hp _ hne
    exact hne (mem_filter.mp hp).2
  apply eq_of_pairwise_ne hown
  · exact mem_filter.mpr ⟨hp, by simp [hpa]⟩
  · exact mem_filter.mpr ⟨hq, by simp [hqa]⟩
  · rw [hpa, hqa]

theorem tick (dt : Nat) : WellFormed { s with now := s.now + dt } := { h with }

theorem setCursors (cs : List IngestCursor) : WellFormed { s with cursors := cs } := { h with }

theorem takeId : WellFormed { s with nextId := s.nextId + 1 } := { h with
    wallets_fresh := fun w hw => Nat.lt_succ_of_lt (h.wallets_fresh w hw)
    addresses_fresh := fun a ha => Nat.lt_succ_of_lt (h.addresses_fresh a ha)
    transactions_fresh := fun t ht => Nat.lt_succ_of_lt (h.transactions_fresh t ht)
    links_fresh := fun l hl => Nat.lt_succ_of_lt (h.links_fresh l hl)
    payments_fresh := fun p hp => Nat.lt_succ_of_lt (h.payments_fresh p hp)
    linked := fun p hp t ht => Nat.lt_succ_of_lt (h.linked p hp t ht) }

theorem createWallet {account : String} (hnew : ∀ w ∈ s.wallets, w.stellarAccountG ≠ account) :
    WellFormed { s with
      nextId := s.nextId + 1
      wallets := s.wallets ++ [⟨s.nextId, account, 1, none⟩] } :=
  { h.takeId with
    wallets := pairwise_concat h.wallets
      (fun a ha => ⟨Nat.ne_of_lt (h.wallets_fresh a ha), hnew a ha⟩)
    wallets_fresh := forall_mem_concat h.takeId.wallets_fresh (Nat.lt_succ_self _) }

theorem recordDeposit {d : NewDeposit}
    (ha : ∀ a, d.addressId = some a → ∃ r ∈ s.addresses, r.id = a ∧ r.walletId = d.walletId) :
    WellFormed (s.recordDeposit d).2 := by
  rcases recordDeposit_cases d s with ⟨-, he⟩ | ⟨-, he⟩ | ⟨-, -, he⟩
  · rw [he]
    exact h
  · rw [he]
    exact h
  · rw [he]
    exact { h.takeId with
      transactions := pairwise_ne_concat h.transactions h.transactions_fresh rfl
      transactions_fresh := forall_mem_concat h.takeId.transactions_fresh (Nat.lt_succ_self _)
      transaction_address := forall_mem_concat h.transaction_address ha }

theorem allocateAddress (w : Uuid) (derive : Int → Option String)
    (ref : Option String) (md : String) : WellFormed (s.allocateAddress w derive ref md).2 := by
  rcases allocateAddress_cases w derive ref md s with ⟨e, he⟩ | ⟨wal, muxed, -, -, -, he⟩
  · rw [he]
    exact h
  · rw [he]
    have hkeep : ∀ x : Wallet, (if x.id == w then { x with nextMuxedId := x.nextMuxedId + 1 }
        else x).id =
        x.id ∧ (if x.id == w then { x with nextMuxedId := x.nextMuxedId + 1 }
          else x).stellarAccountG =
        x.stellarAccountG := by
      intro x
      split <;> exact ⟨rfl, rfl⟩
    have hold : ∀ {a w' : Uuid}, (∃ r ∈ s.addresses, r.id = a ∧ r.walletId = w') →
        ∃ r ∈ s.addresses ++ [(⟨s.nextId, w, wal.nextMuxedId, muxed, ref, md, s.now⟩ : Address)],
          r.id = a ∧ r.walletId = w' := by
      intro a w' hr
      obtain ⟨r, hr, hid⟩ := hr
      exact ⟨r, mem_append_left _ hr, hid⟩
    exact { h.takeId with
      wallets := by
        refine pairwise_map.mpr (h.wallets.imp ?_)
        intro x y hne
        rw [(hkeep x).1, (hkeep x).2, (hkeep y).1, (hkeep y).2]
        exact hne
      wallets_fresh := by
        intro x' hx'
        obtain ⟨x, hx, rfl⟩ := mem_map.mp hx'
        rw [(hkeep x).1]
        exact h.takeId.wallets_fresh x hx
      addresses := pairwise_ne_concat h.addresses h.addresses_fresh rfl
      addresses_fresh := forall_mem_concat h.takeId.addresses_fresh (Nat.lt_succ_self _)
      transaction_address := fun t ht a ha => hold (h.transaction_address t ht a ha)
      link_address := fun l hl => hold (h.link_address l hl)
      payment_address := fun p hp a ha => by
        obtain ⟨r, hr, l, hl, hid⟩ := h.payment_address p hp a ha
        exact ⟨r, mem_append_left _ hr, l, hl, hid⟩ }

theorem createPaymentLink {l : NewPaymentLink}
    (ha : ∃ r ∈ s.addresses, r.id = l.addressId ∧ r.walletId = l.walletId) :
    WellFormed (s.createPaymentLink l).2 := by
  rcases createPaymentLink_cases l s with he | he
  · rw [he]
    exact h
  · rw [he]
    exact { h.takeId with
      links := pairwise_ne_concat h.links h.links_fresh rfl
      links_fresh := forall_mem_concat h.takeId.links_fresh (Nat.lt_succ_self _)
      link_address := forall_mem_concat h.link_address ha
      payment_link := fun p hp => by
        obtain ⟨k, hk, hid⟩ := h.payment_link p hp
        exact ⟨k, mem_append_left _ hk, hid⟩
      payment_address := fun p hp a ha => by
        obtain ⟨r, hr, k, hk, hid⟩ := h.payment_address p hp a ha
        exact ⟨r, hr, k, mem_append_left _ hk, hid⟩ }

theorem recordPaymentLinkIntent {l : Uuid} {n e : Option String} {amt : Int} {a : Option Uuid}
    (hl : ∃ k ∈ s.links, k.id = l)
    (ha : ∀ x, a = some x → ∃ r ∈ s.addresses, ∃ k ∈ s.links, r.id = x ∧ k.id = l ∧
      k.walletId = r.walletId) (hown : ∀ p ∈ s.payments, p.addressId.isSome → p.addressId ≠ a) :
    WellFormed (s.recordPaymentLinkIntent l n e amt a).2 :=
  { h.takeId with
    payments := pairwise_ne_concat h.payments h.payments_fresh rfl
    payments_fresh := forall_mem_concat h.takeId.payments_fresh (Nat.lt_succ_self _)
    payment_link := forall_mem_concat h.payment_link hl
    payment_address := forall_mem_concat h.payment_address ha
    own_address := pairwise_concat h.own_address hown
    linked := forall_mem_concat h.takeId.linked (fun _ ht => nomatch ht)
    pending := forall_mem_concat h.pending (fun _ => rfl) }

theorem updateLinks {guard : PaymentLink → Bool} {f : PaymentLink → PaymentLink}
    (hf : ∀ l, LinkStep l (f l)) : WellFormed (s.updateLinks guard f) := by
  have hstep : ∀ l, LinkStep l (if guard l then f l else l) := by
    intro l
    split
    · exact hf l
    · exact .refl l
  exact { h with
    links := by
      refine pairwise_map.mpr (h.links.imp ?_)
      intro l k hne
      rw [(hstep l).id, (hstep k).id]
      exact hne
    links_fresh := by
      intro l' hl'
      obtain ⟨l, hl, rfl⟩ := mem_updateLinks.mp hl'
      rw [(hstep l).id]
      exact h.links_fresh l hl
    link_address := by
      intro l' hl'
      obtain ⟨l, hl, rfl⟩ := mem_updateLinks.mp hl'
      rw [(hstep l).addressId, (hstep l).walletId]
      exact h.link_address l hl
    payment_link := by
      intro p hp
      obtain ⟨l, hl, hid⟩ := h.payment_link p hp
      exact ⟨_, mem_updateLinks.mpr ⟨l, hl, rfl⟩, (hstep l).id.trans hid⟩
    payment_address := by
      intro p hp a ha
      obtain ⟨r, hr, l, hl, hid, hlid, hw⟩ := h.payment_address p hp a ha
      exact ⟨r, hr, _, mem_updateLinks.mpr ⟨l, hl, rfl⟩, hid, (hstep l).id.trans hlid,
        (hstep l).walletId.trans hw⟩ }

theorem settlePayments {guard : PaymentLinkPayment → Bool} {status : PaymentStatus}
    {tx : Option Uuid} (hst : status ≠ .pending) (htx : ∀ t, tx = some t → t < s.nextId) :
    WellFormed (s.settlePayments guard status tx) := by
  have hstep := payStep_settled guard status tx
  have hrow : ∀ {P : PaymentLinkPayment → Prop}, (∀ p ∈ s.payments, P (settled guard status tx p)) →
      ∀ p' ∈ (s.settlePayments guard status tx).payments, P p' := by
    intro P hP p' hp'
    obtain ⟨p, hp, rfl⟩ := mem_settlePayments.mp hp'
    exact hP p hp
  exact { h with
    payments := by
      show (s.payments.map (settled guard status tx)).Pairwise _
      refine pairwise_map.mpr (h.payments.imp ?_)
      intro p q hne
      rw [(hstep p).id, (hstep q).id]
      exact hne
    payments_fresh := hrow fun p hp => by
      rw [(hstep p).id]
      exact h.payments_fresh p hp
    payment_link := hrow fun p hp => by
      rw [(hstep p).paymentLinkId]
      exact h.payment_link p hp
    payment_address := hrow fun p hp => by
      rw [(hstep p).addressId, (hstep p).paymentLinkId]
      exact h.payment_address p hp
    own_address := by
      show (s.payments.map (settled guard status tx)).Pairwise _
      refine pairwise_map.mpr (h.own_address.imp ?_)
      intro p q hne
      rw [(hstep p).addressId, (hstep q).addressId]
      exact hne
    linked := hrow fun p hp t ht => by
      unfold settled at ht
      split at ht
      · rcases Option.or_eq_some_iff.mp ht with ht | ⟨-, ht⟩
        · exact htx t ht
        · exact h.linked p hp t ht
      · exact h.linked p hp t ht
    pending := hrow fun p hp hp' => by
      unfold settled at hp' ⊢
      split at hp'
      · exact absurd hp' hst
      · rename_i hg
        rw [if_neg hg]
        exact h.pending p hp hp' }

end

end WellFormed

end Octo
