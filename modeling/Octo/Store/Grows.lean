import Octo.Store.Ingest
import Octo.Store.PaymentLinks

/-!
# The tables only grow

No modelled statement deletes a row, takes back an id or reopens what is closed.  `Grows s s'` says
what survives from `s` to any later `s'`: transactions and addresses stay as they are, wallets keep
their account, links keep their terms of settlement and stay cancelled (`LinkStep`), payments keep
what they are about and stop changing once they are not pending (`PayStep`), and a link is never
cancelled without closing its pending payments.

One lemma per statement shows that it only makes the tables grow (`grows_recordDeposit` and so on);
`Grows.trans` puts them together.
-/

namespace Octo

open List

/-- What a link keeps. -/
structure LinkStep (l l' : PaymentLink) : Prop where
  id : l'.id = l.id
  walletId : l'.walletId = l.walletId
  addressId : l'.addressId = l.addressId
  slug : l'.slug = l.slug
  expiresAt : l'.expiresAt = l.expiresAt
  cancelledAt : l.cancelledAt.isSome → l'.cancelledAt = l.cancelledAt

/-- What a payment keeps; once it has left `pending` that is everything. -/
structure PayStep (p p' : PaymentLinkPayment) : Prop where
  id : p'.id = p.id
  paymentLinkId : p'.paymentLinkId = p.paymentLinkId
  addressId : p'.addressId = p.addressId
  amount : p'.amountUsdcStroops = p.amountUsdcStroops
  final : p.status ≠ .pending → p' = p

theorem LinkStep.refl (l : PaymentLink) : LinkStep l l := ⟨rfl, rfl, rfl, rfl, rfl, fun _ => rfl⟩

theorem LinkStep.trans {a b c : PaymentLink} (h : LinkStep a b) (h' : LinkStep b c) :
    LinkStep a c where
  id := h'.id.trans h.id
  walletId := h'.walletId.trans h.walletId
  addressId := h'.addressId.trans h.addressId
  slug := h'.slug.trans h.slug
  expiresAt := h'.expiresAt.trans h.expiresAt
  cancelledAt ha := by
    have hb := h.cancelledAt ha
    rw [h'.cancelledAt (by rw [hb]; exact ha), hb]

theorem LinkStep.isClosedAt {l l' : PaymentLink} (h : LinkStep l l') {now : Time}
    (hl : l.isClosedAt now = true) : l'.isClosedAt now = true := by
  simp only [PaymentLink.isClosedAt, Bool.or_eq_true] at hl ⊢
  rcases hl with hc | he
  · left
    rw [h.cancelledAt hc]
    exact hc
  · right
    rw [h.expiresAt]
    exact he

theorem PayStep.refl (p : PaymentLinkPayment) : PayStep p p := ⟨rfl, rfl, rfl, rfl, fun _ => rfl⟩

theorem PayStep.trans {a b c : PaymentLinkPayment} (h : PayStep a b) (h' : PayStep b c) :
    PayStep a c where
  id := h'.id.trans h.id
  paymentLinkId := h'.paymentLinkId.trans h.paymentLinkId
  addressId := h'.addressId.trans h.addressId
  amount := h'.amount.trans h.amount
  final ha := by
    have hb := h.final ha
    rw [h'.final (by rw [hb]; exact ha), hb]

def Db.Cancelled (id : Uuid) (db : Db) : Prop := ∃ l ∈ db.links, l.id = id ∧ l.cancelledAt.isSome

instance (id : Uuid) (db : Db) : Decidable (db.Cancelled id) :=
  inferInstanceAs (Decidable (∃ l ∈ db.links, l.id = id ∧ l.cancelledAt.isSome))

structure Grows (s s' : Db) : Prop where
  now : s.now ≤ s'.now
  nextId : s.nextId ≤ s'.nextId
  wallets : ∀ w ∈ s.wallets, ∃ w' ∈ s'.wallets, w'.id = w.id ∧
    w'.stellarAccountG = w.stellarAccountG
  addresses : ∀ a ∈ s.addresses, a ∈ s'.addresses
  transactions : ∀ t ∈ s.transactions, t ∈ s'.transactions
  links : ∀ l ∈ s.links, ∃ l' ∈ s'.links, LinkStep l l'
  payments : ∀ p ∈ s.payments, ∃ p' ∈ s'.payments, PayStep p p'
  cancels : ∀ p ∈ s.payments, ¬ s.Cancelled p.paymentLinkId → s'.Cancelled p.paymentLinkId →
    ∃ p' ∈ s'.payments, p'.id = p.id ∧ p'.status ≠ .pending

variable (s : Db)

theorem Grows.refl : Grows s s where
  now := Nat.le_refl _
  nextId := Nat.le_refl _
  wallets w hw := ⟨w, hw, rfl, rfl⟩
  addresses _ ha := ha
  transactions _ ht := ht
  links l hl := ⟨l, hl, .refl l⟩
  payments p hp := ⟨p, hp, .refl p⟩
  cancels _ _ hn hc := absurd hc hn

theorem Grows.trans {a b c : Db} (h : Grows a b) (h' : Grows b c) : Grows a c where
  now := Nat.le_trans h.now h'.now
  nextId := Nat.le_trans h.nextId h'.nextId
  wallets w hw := by
    obtain ⟨w', hw', hi, hg⟩ := h.wallets w hw
    obtain ⟨w'', hw'', hi', hg'⟩ := h'.wallets w' hw'
    exact ⟨w'', hw'', hi'.trans hi, hg'.trans hg⟩
  addresses x hx := h'.addresses x (h.addresses x hx)
  transactions t ht := h'.transactions t (h.transactions t ht)
  links l hl := by
    obtain ⟨l', hl', hs⟩ := h.links l hl
    obtain ⟨l'', hl'', hs'⟩ := h'.links l' hl'
    exact ⟨l'', hl'', hs.trans hs'⟩
  payments p hp := by
    obtain ⟨p', hp', hs⟩ := h.payments p hp
    obtain ⟨p'', hp'', hs'⟩ := h'.payments p' hp'
    exact ⟨p'', hp'', hs.trans hs'⟩
  cancels p hp hn hc := by
    by_cases hb : b.Cancelled p.paymentLinkId
    · -- cancelled on the way to `b`: closed there, and closed for good
      obtain ⟨p', hp', hid, hst⟩ := h.cancels p hp hn hb
      obtain ⟨p'', hp'', hs⟩ := h'.payments p' hp'
      refine ⟨p'', hp'', hs.id.trans hid, ?_⟩
      rw [hs.final hst]
      exact hst
    · obtain ⟨p', hp', hs⟩ := h.payments p hp
      have hlink := hs.paymentLinkId
      obtain ⟨p'', hp'', hid, hst⟩ :=
        h'.cancels p' hp' (by rw [hlink]; exact hb) (by rw [hlink]; exact hc)
      exact ⟨p'', hp'', hid.trans hs.id, hst⟩

theorem Grows.cancelled {s s' : Db} (h : Grows s s') {id : Uuid} (hc : s.Cancelled id) :
    s'.Cancelled id := by
  obtain ⟨l, hl, hid, hs⟩ := hc
  obtain ⟨l', hl', hst⟩ := h.links l hl
  refine ⟨l', hl', hst.id.trans hid, ?_⟩
  rw [hst.cancelledAt hs]
  exact hs

/-! ### Statements that leave links and payments alone -/

theorem grows_of_links_eq {s s' : Db} (hnow : s.now ≤ s'.now) (hid : s.nextId ≤ s'.nextId)
    (hw : ∀ w ∈ s.wallets, ∃ w' ∈ s'.wallets, w'.id = w.id ∧ w'.stellarAccountG = w.stellarAccountG)
    (ha : ∀ a ∈ s.addresses, a ∈ s'.addresses) (ht : ∀ t ∈ s.transactions, t ∈ s'.transactions)
    (hl : s'.links = s.links) (hp : s'.payments = s.payments) : Grows s s' where
  now := hnow
  nextId := hid
  wallets := hw
  addresses := ha
  transactions := ht
  links l h := ⟨l, by rw [hl]; exact h, .refl l⟩
  payments p h := ⟨p, by rw [hp]; exact h, .refl p⟩
  cancels p _ hn hc := by
    refine absurd ?_ hn
    unfold Db.Cancelled at hc ⊢
    rw [hl] at hc
    exact hc

theorem grows_tick (dt : Nat) : Grows s { s with now := s.now + dt } :=
  grows_of_links_eq (Nat.le_add_right _ _) (Nat.le_refl _) (fun w h => ⟨w, h, rfl, rfl⟩)
    (fun _ h => h) (fun _ h => h) rfl rfl

theorem upsertCursor_eq (w : Uuid) (i : IngestCursor) (f : IngestCursor → IngestCursor) :
    ∃ cs, s.upsertCursor w i f = { s with cursors := cs } := by
  unfold Db.upsertCursor
  split <;> exact ⟨_, rfl⟩

theorem setCursor_eq (w : Uuid) (token : String) :
    ∃ cs, s.setCursor w token = { s with cursors := cs } := upsertCursor_eq s w _ _

theorem markPolled_eq (w : Uuid) : ∃ cs, s.markPolled w = { s with cursors := cs } :=
  upsertCursor_eq s w _ _

theorem grows_upsertCursor (w : Uuid) (i : IngestCursor) (f : IngestCursor → IngestCursor) :
    Grows s (s.upsertCursor w i f) := by
  obtain ⟨cs, h⟩ := upsertCursor_eq s w i f
  rw [h]
  exact grows_of_links_eq (Nat.le_refl _) (Nat.le_refl _) (fun w h => ⟨w, h, rfl, rfl⟩)
    (fun _ h => h) (fun _ h => h) rfl rfl

theorem recordDeposit_cases (d : NewDeposit) (s : Db) :
    (d.amountStroops ≤ 0 ∧ s.recordDeposit d = (.error .database, s)) ∨
    ((∃ t ∈ s.transactions, Db.clashes d t = true) ∧ s.recordDeposit d = (.ok none, s)) ∨
    (0 < d.amountStroops ∧ (∀ t ∈ s.transactions, Db.clashes d t = false) ∧
      s.recordDeposit d = (.ok (some (s.depositRow d)),
        { s with
          nextId := s.nextId + 1, transactions := s.transactions ++ [s.depositRow d] })) := by
  unfold Db.recordDeposit
  split
  · exact .inl ⟨‹_›, rfl⟩
  · right
    split
    · rename_i h
      obtain ⟨t, ht, hc⟩ := any_eq_true.mp h
      exact .inl ⟨⟨t, ht, hc⟩, rfl⟩
    · rename_i h
      refine .inr ⟨by omega, fun t ht => ?_, rfl⟩
      simp only [any_eq_true, not_exists, not_and, Bool.not_eq_true] at h
      exact h t ht

theorem recordDeposit_eq (d : NewDeposit) :
    ∃ n ts, (s.recordDeposit d).2 = { s with nextId := n, transactions := ts } := by
  rcases recordDeposit_cases d s with ⟨-, h⟩ | ⟨-, h⟩ | ⟨-, -, h⟩ <;> exact ⟨_, _, by rw [h]⟩

theorem grows_recordDeposit (d : NewDeposit) : Grows s (s.recordDeposit d).2 := by
  rcases recordDeposit_cases d s with ⟨-, h⟩ | ⟨-, h⟩ | ⟨-, -, h⟩
  · rw [h]; exact .refl s
  · rw [h]; exact .refl s
  · rw [h]
    exact grows_of_links_eq (Nat.le_refl _) (Nat.le_succ _) (fun w h => ⟨w, h, rfl, rfl⟩)
      (fun _ h => h) (fun _ h => mem_append_left _ h) rfl rfl

theorem allocateAddress_cases (w : Uuid) (derive : Int → Option String) (ref : Option String)
    (md : String) (s : Db) :
    (∃ e, s.allocateAddress w derive ref md = (.error e, s)) ∨
    ∃ wal muxed, wal ∈ s.wallets ∧ wal.id = w ∧
      (∀ a ∈ s.addresses, a.walletId = w → a.muxedId ≠ wal.nextMuxedId) ∧
      s.allocateAddress w derive ref md =
        (.ok ⟨s.nextId, w, wal.nextMuxedId, muxed, ref, md, s.now⟩, { s with
            nextId := s.nextId + 1
            wallets := s.wallets.map (fun x =>
              if x.id == w then { x with nextMuxedId := x.nextMuxedId + 1 } else x)
            addresses := s.addresses ++ [⟨s.nextId, w, wal.nextMuxedId, muxed, ref, md, s.now⟩]
              }) := by
  unfold Db.allocateAddress
  split
  · exact .inl ⟨_, rfl⟩
  · rename_i wal hw
    split
    · exact .inl ⟨_, rfl⟩
    · rename_i muxed _
      split
      · exact .inl ⟨_, rfl⟩
      · rename_i hfree
        split
        · exact .inl ⟨_, rfl⟩
        · refine .inr ⟨wal, muxed, mem_of_find?_eq_some hw, by simpa using find?_some hw, ?_, rfl⟩
          intro a ha hwa hid
          refine hfree (any_eq_true.mpr ⟨a, ha, ?_⟩)
          simp [hwa, hid]

theorem allocateAddress_eq (w : Uuid) (derive : Int → Option String) (ref : Option String)
    (md : String) : ∃ n ws as, (s.allocateAddress w derive ref md).2 =
      { s with nextId := n, wallets := ws, addresses := as } := by
  rcases allocateAddress_cases w derive ref md s with ⟨e, h⟩ | ⟨wal, _, -, -, -, h⟩ <;>
    exact ⟨_, _, _, by rw [h]⟩

theorem grows_allocateAddress (w : Uuid) (derive : Int → Option String) (ref : Option String)
    (md : String) : Grows s (s.allocateAddress w derive ref md).2 := by
  rcases allocateAddress_cases w derive ref md s with ⟨e, h⟩ | ⟨wal, _, -, -, -, h⟩
  · rw [h]; exact .refl s
  · rw [h]
    refine grows_of_links_eq (Nat.le_refl _) (Nat.le_succ _) (fun x hx => ?_)
      (fun _ h => mem_append_left _ h) (fun _ h => h) rfl rfl
    refine ⟨_, mem_map.mpr ⟨x, hx, rfl⟩, ?_⟩
    split <;> exact ⟨rfl, rfl⟩

/-! ### Links and payments -/

theorem createPaymentLink_cases (l : NewPaymentLink) (s : Db) :
    s.createPaymentLink l = (.error .conflict, s) ∨ s.createPaymentLink l = (.ok (s.linkRow l),
      { s with nextId := s.nextId + 1, links := s.links ++ [s.linkRow l] }) := by
  unfold Db.createPaymentLink
  split
  · exact .inl rfl
  · exact .inr rfl

theorem createPaymentLink_eq (l : NewPaymentLink) :
    ∃ n ls, (s.createPaymentLink l).2 = { s with nextId := n, links := ls } := by
  rcases createPaymentLink_cases l s with h | h <;> exact ⟨_, _, by rw [h]⟩

theorem grows_createPaymentLink (l : NewPaymentLink) : Grows s (s.createPaymentLink l).2 := by
  rcases createPaymentLink_cases l s with h | h
  · rw [h]; exact .refl s
  · rw [h]
    refine { Grows.refl s with
      nextId := Nat.le_succ _
      links := fun k hk => ⟨k, mem_append_left _ hk, .refl k⟩
      cancels := ?_ }
    rintro p - hn ⟨k, hk, hid, hc⟩
    rcases Rows.mem_concat.mp hk with hk | rfl
    · exact absurd ⟨k, hk, hid, hc⟩ hn
    · cases hc

theorem grows_recordPaymentLinkIntent (l : Uuid) (n e : Option String) (amt : Int)
    (a : Option Uuid) : Grows s (s.recordPaymentLinkIntent l n e amt a).2 :=
  { Grows.refl s with
    nextId := Nat.le_succ _
    payments := fun p hp => ⟨p, mem_append_left _ hp, .refl p⟩
    cancels := fun _ _ hn hc => absurd hc hn }

theorem mem_updateLinks {s : Db} {guard : PaymentLink → Bool} {f : PaymentLink → PaymentLink}
    {l' : PaymentLink} :
    l' ∈ (s.updateLinks guard f).links ↔ ∃ l ∈ s.links, l' = if guard l then f l else l := by
  simp only [Db.updateLinks, mem_map]
  constructor
  · rintro ⟨l, hl, rfl⟩; exact ⟨l, hl, rfl⟩
  · rintro ⟨l, hl, rfl⟩; exact ⟨l, hl, rfl⟩

theorem grows_updateLinks (guard : PaymentLink → Bool) (f : PaymentLink → PaymentLink)
    (hf : ∀ l, LinkStep l (f l)) (hc : ∀ l, (f l).cancelledAt = l.cancelledAt) :
    Grows s (s.updateLinks guard f) := by
  have hstep : ∀ l, LinkStep l (if guard l then f l else l) := by
    intro l
    split
    · exact hf l
    · exact .refl l
  refine { Grows.refl s with
    links := fun l hl => ⟨_, mem_updateLinks.mpr ⟨l, hl, rfl⟩, hstep l⟩
    cancels := ?_ }
  rintro p - hn ⟨l', hl', hid, hs⟩
  obtain ⟨l, hl, rfl⟩ := mem_updateLinks.mp hl'
  refine absurd ⟨l, hl, (hstep l).id ▸ hid, ?_⟩ hn
  split at hs
  · rw [← hc l]; exact hs
  · exact hs

theorem grows_setPaymentLinkActive (w id : Uuid) (active : Bool) :
    Grows s (s.setPaymentLinkActive w id active).2 :=
  grows_updateLinks s _ _ (fun _ => ⟨rfl, rfl, rfl, rfl, rfl, fun _ => rfl⟩) (fun _ => rfl)

theorem grows_updateUnpaidPaymentLink (w id : Uuid) (u : PaymentLinkUpdate) :
    Grows s (s.updateUnpaidPaymentLink w id u).2 :=
  grows_updateLinks s _ _ (fun _ => ⟨rfl, rfl, rfl, rfl, rfl, fun _ => rfl⟩) (fun _ => rfl)

/-- The guarded update of every payment statement: only a pending row changes. -/
def settled (guard : PaymentLinkPayment → Bool) (status : PaymentStatus) (tx : Option Uuid)
    (p : PaymentLinkPayment) : PaymentLinkPayment :=
  if p.status == .pending && guard p then
    { p with status := status, transactionId := tx.or p.transactionId }
  else p

theorem payStep_settled (guard : PaymentLinkPayment → Bool) (status : PaymentStatus)
    (tx : Option Uuid) (p : PaymentLinkPayment) : PayStep p (settled guard status tx p) := by
  unfold settled
  split
  · rename_i h
    simp only [Bool.and_eq_true, beq_iff_eq] at h
    exact ⟨rfl, rfl, rfl, rfl, fun hn => absurd h.1 hn⟩
  · exact .refl p

theorem mem_settlePayments {s : Db} {guard : PaymentLinkPayment → Bool} {status : PaymentStatus}
    {tx : Option Uuid} {p' : PaymentLinkPayment} :
    p' ∈ (s.settlePayments guard status tx).payments ↔
    ∃ p ∈ s.payments, p' = settled guard status tx p := by
  simp only [Db.settlePayments, mem_map]
  constructor
  · rintro ⟨p, hp, rfl⟩; exact ⟨p, hp, rfl⟩
  · rintro ⟨p, hp, rfl⟩; exact ⟨p, hp, rfl⟩

theorem grows_settlePayments (guard : PaymentLinkPayment → Bool) (status : PaymentStatus)
    (tx : Option Uuid) : Grows s (s.settlePayments guard status tx) :=
  { Grows.refl s with
    payments := fun p hp => ⟨_, mem_settlePayments.mpr ⟨p, hp, rfl⟩, payStep_settled _ _ _ p⟩
    cancels := fun _ _ hn hc => absurd hc hn }

def cancelledLink (now : Time) (l : PaymentLink) : PaymentLink :=
  { l with cancelledAt := l.cancelledAt.or (some now), active := false, updatedAt := now }

theorem linkStep_cancelled (now : Time) (l : PaymentLink) : LinkStep l (cancelledLink now l) := by
  refine ⟨rfl, rfl, rfl, rfl, rfl, fun hs => ?_⟩
  obtain ⟨t, ht⟩ := Option.isSome_iff_exists.mp hs
  simp [cancelledLink, ht]

theorem cancelPaymentLink_cases (w id : Uuid) (s : Db) :
    s.cancelPaymentLink w id = (.error .notFound, s) ∨
    ∃ l ∈ s.links, l.id = id ∧ l.walletId = w ∧ ∃ rows, s.cancelPaymentLink w id =
      (.ok (cancelledLink s.now l, rows),
        (s.updateLinks (fun l => l.id == id && l.walletId == w)
          (cancelledLink s.now)).settlePayments
          (fun p => p.paymentLinkId == id) .cancelled none) := by
  cases hl : s.links.find? (fun l => l.id == id && l.walletId == w) with
  | none =>
    left
    simp only [Db.cancelPaymentLink, hl]
  | some l =>
    have hg := find?_some hl
    simp only [Bool.and_eq_true, beq_iff_eq] at hg
    obtain ⟨rfl, rfl⟩ := hg
    refine .inr ⟨l, mem_of_find?_eq_some hl, rfl, rfl,
      (s.payments.filter (fun p => p.status == .pending && p.paymentLinkId == l.id)).map
        (fun p => { p with status := .cancelled }), ?_⟩
    simp only [Db.cancelPaymentLink, hl]
    rfl

theorem cancelPaymentLink_eq (w id : Uuid) :
    ∃ ls ps, (s.cancelPaymentLink w id).2 = { s with links := ls, payments := ps } := by
  rcases cancelPaymentLink_cases w id s with h | ⟨l, -, -, -, _, h⟩
  · exact ⟨s.links, s.payments, by rw [h]⟩
  · exact ⟨_, _, by rw [h]; rfl⟩

theorem grows_cancelPaymentLink (w id : Uuid) : Grows s (s.cancelPaymentLink w id).2 := by
  rcases cancelPaymentLink_cases w id s with h | ⟨l, -, -, -, _, h⟩
  · rw [h]; exact .refl s
  · rw [h]
    have hstep : ∀ l, LinkStep l (if l.id == id && l.walletId == w then cancelledLink s.now l
        else l) := by
      intro l
      split
      · exact linkStep_cancelled s.now l
      · exact .refl l
    refine { Grows.refl s with
      links := fun l hl => ⟨_, mem_updateLinks.mpr ⟨l, hl, rfl⟩, hstep l⟩
      payments := fun p hp => ⟨_, mem_settlePayments.mpr ⟨p, hp, rfl⟩, payStep_settled _ _ _ p⟩
      cancels := ?_ }
    rintro p hp hn ⟨k', hk', hid, hs⟩
    obtain ⟨k, hk, rfl⟩ := mem_updateLinks.mp hk'
    refine ⟨_, mem_settlePayments.mpr ⟨p, hp, rfl⟩, (payStep_settled _ _ _ p).id, ?_⟩
    split at hs
    · -- the link closed by this statement is the payment's own
      rename_i hg
      simp only [Bool.and_eq_true, beq_iff_eq] at hg
      have hlink : p.paymentLinkId = id := by rw [← hid, (hstep k).id, hg.1]
      unfold settled
      split
      · exact nofun
      · rename_i hnp
        simp only [hlink, beq_self_eq_true, Bool.and_true, beq_iff_eq] at hnp
        exact hnp
    · exact absurd ⟨k, hk, (hstep k).id ▸ hid, hs⟩ hn

end Octo
