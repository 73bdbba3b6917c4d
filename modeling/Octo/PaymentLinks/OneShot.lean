import Octo.Ingest.Tables
import Octo.Ingest.ExactlyOnce

/-!
# Payments are one-shot

However intents, deposits, sweeps, cancellations and edits interleave, a payment leaves `pending` at
most once, no deposit is linked to two payments, and a confirmed payment is backed by a USDC deposit
of its amount that was recorded while its link was open (`payments_one_shot`).
-/

namespace Octo.PaymentLinks

open Conc Octo.Ingest List

/-! ### Every link has its call -/

inductive Accounted (w : World) (p : PaymentLinkPayment) : Prop
  | unlinked : p.transactionId = none → p.status = .pending ∨ p.status = .expired ∨
      p.status = .cancelled → Accounted w p
  | linked {t : Uuid} {i : Nat} {x : Act} : p.transactionId = some t → x ∈ w.trace i →
      settles x.op = some (p.id, t, p.status) → Accounted w p

variable {w : World}

theorem Accounted.record {p : PaymentLinkPayment} (h : Accounted w p) (i : Nat) (o : Op)
    (a : Ans o) (s : Db) : Accounted (w.record i o a s) p := by
  cases h with
  | unlinked ht hst => exact .unlinked ht hst
  | linked ht hx hs =>
    exact .linked ht (World.mem_trace.mpr (mem_cons_of_mem _ (World.mem_trace.mp hx))) hs

theorem settles_ne_pending {o : Op} {p t : Uuid} {st : PaymentStatus}
    (h : settles o = some (p, t, st)) : st ≠ .pending := by
  cases o with
  | confirmPaymentLinkPayment =>
    cases h
    exact nofun
  | markPaymentLinkPaymentMismatched q u m =>
    cases h
    cases m <;> exact nofun
  | _ => cases h

theorem Accounted.of_pending {p : PaymentLinkPayment} (h : Accounted w p)
    (hp : p.status = .pending) : p.transactionId = none := by
  cases h with
  | unlinked ht => exact ht
  | linked _ _ hs => exact absurd hp (settles_ne_pending hs)

theorem accounted_reach {out : Outside} {cond : World → Label Job Op Ans → Prop}
    {c : Conf Job Op Ans Db} (h : Reach (system out) cond Initial c) :
    ∀ p ∈ c.world.db.payments, Accounted c.world p := by
  refine (discipline out).invariant (I := fun w => ∀ p ∈ w.db.payments, Accounted w p)
    (fun s hs p hp => ?_) ?_ ?_ ?_ h
  · exact .unlinked (hs.wellFormed.pending p hp (hs.payments p hp)) (.inl (hs.payments p hp))
  · intro w j hI _ _ p hp
    cases hI p hp with
    | unlinked ht hst => exact .unlinked ht hst
    | linked ht hx hs => exact .linked ht hx hs
  · intro w i j o ch a s hI _ _ _ he _ p' hp'
    cases payMove_call he hp' with
    | kept hp => exact (hI p' hp).record i o a s
    | intent => exact .unlinked rfl (.inl rfl)
    | settle hp hst hs =>
      refine .linked (i := i) (x := ⟨o, a, w.db, s⟩) rfl ?_ hs
      rw [World.trace_record_self]
      exact mem_cons_self
    | close hp hst hcl =>
      exact .unlinked ((hI _ hp).of_pending hst) (.inr hcl)
  · intro w e s hI he _ p hp
    obtain ⟨-, -, hpay, -⟩ := env_rows he
    rw [World.setDb_db, hpay] at hp
    cases hI p hp with
    | unlinked ht hst => exact .unlinked ht hst
    | linked ht hx hs => exact .linked ht hx hs

/-! ### What the code had checked -/

section

variable {out : Outside} {cond : World → Label Job Op Ans → Prop} {c : Conf Job Op Ans Db} {i : Nat}

variable {j : Job} {p t : Uuid} {st : PaymentStatus} {x : Act} {before later post : List Act}
  {g : Ingestor} {tx : Transaction} {link : PaymentLink} {pay : PaymentLinkPayment}
  {r : Uuid × Uuid × PaymentStatus} {st' : PaymentStatus} {x0 y : Act}

theorem settleOk_of_allowed {tr : List Act} {o : Op} (hL : Allowed out j tr o)
    (hs : settles o = some (p, t, st)) :
    ∃ g x0 tx post link pay, j.ingestor = some g ∧ SettleOk g tr x0 tx post link pay ∧ pay.id = p ∧
      tx.id = t ∧ (st = .confirmed ↔ tx.amountStroops = pay.amountUsdcStroops) := by
  cases o with
  | confirmPaymentLinkPayment =>
    cases hs
    obtain ⟨g, x0, tx, post, link, pay, hg, hS, hp, ht, hamt⟩ := hL
    exact ⟨g, x0, tx, post, link, pay, hg, hS, hp, ht, fun _ => hamt, fun _ => rfl⟩
  | markPaymentLinkPaymentMismatched q u m =>
    cases hs
    obtain ⟨g, x0, tx, post, link, pay, hg, hS, hp, ht, hne⟩ := hL
    refine ⟨g, x0, tx, post, link, pay, hg, hS, hp, ht, fun h => ?_, fun h => absurd h hne⟩
    cases m <;> cases h
  | _ => cases hs

theorem settleOk_of_trace (h : Reach (system out) cond Initial c)
    (hx : c.world.trace i = later ++ x :: before) (hs : settles x.op = some (p, t, st)) :
    ∃ j g x0 tx post link pay, c.world.jobs[i]? = some j ∧ j.ingestor = some g ∧
      SettleOk g before x0 tx post link pay ∧ pay.id = p ∧ tx.id = t ∧
      (st = .confirmed ↔ tx.amountStroops = pay.amountUsdcStroops) := by
  have hmem : x ∈ c.world.trace i := mem_of_split hx
  obtain ⟨j, hj⟩ := reach_job_of_trace h hmem
  obtain ⟨g, x0, tx, post, link, pay, hrest⟩ :=
    settleOk_of_allowed ((discipline out).allowed h hj hx) hs
  exact ⟨j, g, x0, tx, post, link, pay, hj, hrest⟩

theorem inserted_wallet (h : Reach (system out) cond Initial c)
    (hj : c.world.jobs[i]? = some j) (hg : j.ingestor = some g) {t : Transaction}
    (hx : x ∈ c.world.trace i) (ht : inserted x = some t) : t.walletId = g.walletId := by
  obtain ⟨d, heq⟩ := inserted_eq ht
  rw [heq] at hx
  obtain ⟨_, -, g', hg', hd⟩ := (discipline out).allowed_before h hj hx
  obtain ⟨ch, he⟩ := exec_of_trace ((discipline out).chained h) hx
  obtain ⟨rfl, -⟩ := exec_inserted he
  rw [hg] at hg'
  cases hg'
  exact hd.walletId

/-! ### A deposit settles one payment -/

theorem settles_isSettle (h : settles x.op = some r) : isSettle x = true := by
  obtain ⟨o, a, s, s'⟩ := x
  cases o with
  | confirmPaymentLinkPayment => rfl
  | markPaymentLinkPaymentMismatched => rfl
  | _ => cases h

theorem settles_not_inserted (h : settles x.op = some r) : inserted x = none := by
  obtain ⟨o, a, s, s'⟩ := x
  cases o with
  | confirmPaymentLinkPayment => rfl
  | markPaymentLinkPaymentMismatched => rfl
  | _ => cases h

theorem settles_later (h : Reach (system out) cond Initial c)
    (hy : c.world.trace i = later ++ y :: before) (hx : x ∈ before) {q u : Uuid}
    (hsx : settles x.op = some (p, t, st)) (hsy : settles y.op = some (q, u, st')) : t ≠ u := by
  have hc := (discipline out).chained h
  obtain ⟨_, _, y0, ty, post, _, _, _, _, hSy, _, rfl, _⟩ := settleOk_of_trace h hy hsy
  obtain ⟨b, rfl, hiy, -⟩ := hSy.window
  -- `x` came before the deposit that `y` settles with: that window has one settling call
  have hxb : x ∈ b := by
    rcases mem_append.mp hx with hx | hx
    · have := hSy.once x hx
      rw [settles_isSettle hsx] at this
      cases this
    · rcases mem_cons.mp hx with rfl | hx
      · rw [settles_not_inserted hsx] at hiy
        cases hiy
      · exact hx
  obtain ⟨mid, b', rfl⟩ := append_of_mem hxb
  have htrx : c.world.trace i = (later ++ y :: (post ++ y0 :: mid)) ++ x :: b' := by
    rw [hy]
    simp
  obtain ⟨_, _, x0, tx, post', _, _, _, _, hSx, _, rfl, _⟩ := settleOk_of_trace h htrx hsx
  obtain ⟨b'', rfl, hix, -⟩ := hSx.window
  have htry : c.world.trace i = (later ++ y :: post) ++ y0 ::
      (mid ++ x :: (post' ++ x0 :: b'')) := by
    rw [hy]
    simp
  have hx0 : x0 ∈ mid ++ x :: (post' ++ x0 :: b'') := by simp
  have hlt := (hc.between htry hx0).nextId
  have htx := takesId_inserted hc (by rw [htry]; simp) hix
  have hty := takesId_inserted hc (by rw [htry]; simp) hiy
  have hid := Nat.lt_of_lt_of_le htx.2 hlt
  rw [hty.1] at hid
  exact Nat.ne_of_lt hid

theorem settles_inserted (h : Reach (system out) cond Initial c) (hx : x ∈ c.world.trace i)
    (hs : settles x.op = some (p, t, st)) :
    ∃ x0 ∈ c.world.trace i, ∃ tx, inserted x0 = some tx ∧ tx.id = t := by
  obtain ⟨_, _, htr⟩ := append_of_mem hx
  obtain ⟨_, _, x0, tx, _, _, _, _, _, hS, _, hid, _⟩ := settleOk_of_trace h htr hs
  obtain ⟨b, rfl, hins, -⟩ := hS.window
  refine ⟨x0, ?_, tx, hins, hid⟩
  rw [htr]
  simp

theorem settles_unique (h : Reach (system out) cond Initial c) {k : Nat}
    (hx : x ∈ c.world.trace i) (hy : y ∈ c.world.trace k) {q : Uuid}
    (hsx : settles x.op = some (p, t, st)) (hsy : settles y.op = some (q, t, st')) : p = q := by
  have hc := (discipline out).chained h
  have hik : i = k := by
    obtain ⟨x0, hmx, tx, hix, rfl⟩ := settles_inserted h hx hsx
    obtain ⟨y0, hmy, ty, hiy, hid⟩ := settles_inserted h hy hsy
    have hnx := takesId_inserted hc hmx hix
    have hny := takesId_inserted hc hmy hiy
    rw [hid] at hny
    exact congrArg Event.tid (takesId_unique hc (World.mem_trace.mp hmx) (World.mem_trace.mp hmy)
      hnx hny)
  subst hik
  obtain ⟨_, before, htr⟩ := append_of_mem hx
  rw [htr] at hy
  rcases mem_append.mp hy with hy | hy
  · obtain ⟨l, l', rfl⟩ := append_of_mem hy
    have htr' : c.world.trace i = l ++ y :: (l' ++ x :: before) := by
      rw [htr]
      simp
    exact absurd rfl (settles_later h htr' (by simp) hsx hsy)
  · rcases mem_cons.mp hy with rfl | hy
    · rw [hsx] at hsy
      cases hsy
      rfl
    · exact absurd rfl (settles_later h htr hy hsy hsx)

/-! ### What backs a settled payment -/

/-- A USDC deposit on the link's wallet, recorded while the link was open. -/
structure Backing (w : World) (p : PaymentLinkPayment) (t : Transaction) : Prop where
  deposit : t ∈ w.db.transactions
  direction : t.direction = .deposit
  usdc : IsUsdc t
  wallet : ∃ l ∈ w.db.links, l.id = p.paymentLinkId ∧ l.walletId = t.walletId
  recorded : ∃ i x, x ∈ w.trace i ∧ inserted x = some t ∧ x.pre.now = t.createdAt ∧
    ∀ l ∈ x.pre.links, l.id = p.paymentLinkId → l.isClosedAt t.createdAt = false

theorem matched_rows (hc : w.Chained (system out) Grows) (hpost : post ⊆ w.trace i)
    (hm : Matched g tx link pay post) :
    (∃ y ∈ post, link ∈ y.pre.links) ∧ (∃ z ∈ post, pay ∈ z.pre.payments) ∧
      pay.paymentLinkId = link.id ∧
      (link.walletId = g.walletId ∨ tx.addressId = some link.addressId) := by
  cases hm with
  | exact ha hp hl =>
    obtain ⟨ch, he⟩ := exec_of_trace hc (hpost hp)
    obtain ⟨ch', he'⟩ := exec_of_trace hc (hpost hl)
    obtain ⟨-, hpm, -⟩ := exec_pendingPaymentByAddress he
    obtain ⟨-, hlm, hid, hw⟩ := exec_getPaymentLink he'
    exact ⟨⟨_, hl, hlm⟩, ⟨_, hp, hpm⟩, hid.symm, .inl hw⟩
  | fallback ha hl hp =>
    obtain ⟨ch, he⟩ := exec_of_trace hc (hpost hp)
    obtain ⟨ch', he'⟩ := exec_of_trace hc (hpost hl)
    obtain ⟨-, hpm, hid, -⟩ := exec_oldestPending he
    obtain ⟨-, hlm, hla⟩ := exec_getPaymentLinkByAddress he'
    exact ⟨⟨_, hl, hlm⟩, ⟨_, hp, hpm⟩, hid, .inr (by rw [ha, hla])⟩

theorem settleOk_rows (h : Reach (system out) cond Initial c) (hj : c.world.jobs[i]? = some j)
    (hg : j.ingestor = some g) (htr : c.world.trace i = later ++ before)
    (hS : SettleOk g before x0 tx post link pay) :
    tx ∈ c.world.db.transactions ∧
      (∃ l ∈ c.world.db.links, LinkStep link l ∧ l.walletId = tx.walletId) ∧
      (∃ q ∈ c.world.db.payments, PayStep pay q) ∧ pay.paymentLinkId = link.id := by
  have hc := (discipline out).chained h
  have hwf := wellFormed_reach h
  obtain ⟨b, rfl, hins, -⟩ := hS.window
  have hpost : post ⊆ c.world.trace i := fun y hy => by
    rw [htr]
    simp [hy]
  have hx0 : x0 ∈ c.world.trace i := by
    rw [htr]
    simp
  obtain ⟨⟨y, hy, hlink⟩, ⟨z, hz, hpay⟩, hpl, hwal⟩ := matched_rows hc hpost hS.matched
  obtain ⟨l, hl, hls⟩ := (grows_of_trace hc (hpost hy)).links link hlink
  have htx : tx ∈ c.world.db.transactions := inserted_mem hc hx0 hins
  refine ⟨htx, ⟨l, hl, hls, ?_⟩, (grows_of_trace hc (hpost hz)).payments pay hpay, hpl⟩
  rcases hwal with hwal | hwal
  · rw [hls.walletId, hwal, inserted_wallet h hj hg hx0 hins]
  · -- the shared address of the link is an address of the deposit's wallet
    obtain ⟨r, hr, hrid, hrw⟩ := hwf.transaction_address tx htx _ hwal
    obtain ⟨r', hr', hrid', hrw'⟩ := hwf.link_address l hl
    have hsame : r' = r := eq_of_pairwise_ne hwf.addresses hr' hr
      (by rw [hrid, hrid', hls.addressId])
    rw [← hrw, ← hrw', hsame]

theorem settleOk_open (h : Reach (system out) cond Initial c)
    (htr : c.world.trace i = later ++ before) (hS : SettleOk g before x0 tx post link pay)
    {l : PaymentLink} (hl : l ∈ x0.pre.links) (hid : l.id = link.id) :
    l.isClosedAt tx.createdAt = false := by
  have hc := (discipline out).chained h
  have hpost : post ⊆ c.world.trace i := fun y hy => by
    obtain ⟨b, rfl, -⟩ := hS.window
    rw [htr]
    simp [hy]
  obtain ⟨⟨y, hy, hlink⟩, -⟩ := matched_rows hc hpost hS.matched
  obtain ⟨l', hl', hls⟩ := (hS.window.grows hc htr hy).links l hl
  have hsame : l' = link := eq_of_pairwise_ne (wellFormed_trace h (hpost hy)).1.links hl' hlink
    (hls.id.trans hid)
  rw [hsame] at hls
  cases hcl : l.isClosedAt tx.createdAt with
  | false => rfl
  | true =>
    have hlinkCl := hls.isClosedAt hcl
    rw [hS.isOpen] at hlinkCl
    cases hlinkCl

theorem backed_of_settle (h : Reach (system out) cond Initial c) {p : PaymentLinkPayment}
    (hp : p ∈ c.world.db.payments) (hx : x ∈ c.world.trace i)
    (hs : settles x.op = some (p.id, t, p.status)) :
    ∃ tx, tx.id = t ∧ Backing c.world p tx ∧
    (p.status = .confirmed → tx.amountStroops = p.amountUsdcStroops) := by
  have hc := (discipline out).chained h
  have hwf := wellFormed_reach h
  obtain ⟨later, before, htr⟩ := append_of_mem hx
  obtain ⟨j, g, x0, tx, _, link, pay, hj, hg, hS, hpid, htid, hamt⟩ := settleOk_of_trace h htr hs
  have htr' : c.world.trace i = (later ++ [x]) ++ before := htr.trans (append_cons _ _ _)
  have hx0 : x0 ∈ c.world.trace i := by
    obtain ⟨b, rfl, -⟩ := hS.window
    rw [htr]
    simp
  have hins := hS.window.inserted
  obtain ⟨htx, ⟨l, hl, hls, hw⟩, ⟨q, hq, hqs⟩, hpl⟩ := settleOk_rows h hj hg htr' hS
  have hsame : q = p := eq_of_pairwise_ne hwf.payments hq hp (hqs.id.trans hpid)
  rw [hsame] at hqs
  have hlid : p.paymentLinkId = link.id := hqs.paymentLinkId.trans hpl
  obtain ⟨d, hrow⟩ := inserted_row hc hx0 hins
  refine ⟨tx, htid, ⟨htx, by rw [hrow]; rfl, hS.usdc, ⟨l, hl, hls.id.trans hlid.symm, hw⟩, ?_⟩, ?_⟩
  · refine ⟨i, x0, hx0, hins, by rw [hrow]; rfl, fun k hk hkid => ?_⟩
    exact settleOk_open h htr' hS hk (hkid.trans hlid)
  · intro hcf
    rw [hamt.mp hcf, hqs.amount]

end

/-! ### The state machine -/

/-- **Payments are one-shot.**  Once a payment is not pending its row never changes again, no
deposit is linked to two payments, and a confirmed payment is linked to a USDC deposit of its amount
on the link's wallet, recorded while the link was neither cancelled nor expired. -/
theorem payments_one_shot (out : Outside) (c : Conf Job Op Ans Db)
    (h : Reachable (system out) Initial c) :
    (∀ c', Leads (system out) c c' → ∀ p ∈ c.world.db.payments, p.status ≠ .pending →
      p ∈ c'.world.db.payments ∧ ∀ p' ∈ c'.world.db.payments, p'.id = p.id → p' = p) ∧
    (∀ p ∈ c.world.db.payments, ∀ q ∈ c.world.db.payments, ∀ t, p.transactionId = some t →
      q.transactionId = some t → p = q) ∧
    ∀ p ∈ c.world.db.payments, p.status = .confirmed →
      ∃ t, p.transactionId = some t.id ∧ t.amountStroops = p.amountUsdcStroops ∧
      Backing c.world p t := by
  refine ⟨?_, ?_, ?_⟩
  · intro c' hlead p hp hst
    obtain ⟨p', hp', hstep⟩ := ((discipline out).leads hlead).payments p hp
    rw [hstep.final hst] at hp'
    refine ⟨hp', fun q hq hid => ?_⟩
    exact eq_of_pairwise_ne (wellFormed_reach (h.leads hlead)).payments hq hp' hid
  · intro p hp q hq t hpt hqt
    cases accounted_reach h p hp with
    | unlinked hn =>
      rw [hpt] at hn
      cases hn
    | linked ht hx hs =>
      cases accounted_reach h q hq with
      | unlinked hn =>
        rw [hqt] at hn
        cases hn
      | linked ht' hy hs' =>
        rw [hpt] at ht
        rw [hqt] at ht'
        cases ht
        cases ht'
        exact eq_of_pairwise_ne (wellFormed_reach h).payments hp hq (settles_unique h hx hy hs hs')
  · intro p hp hst
    cases accounted_reach h p hp with
    | unlinked _ hn =>
      rw [hst] at hn
      rcases hn with hn | hn | hn <;> cases hn
    | linked ht hx hs =>
      obtain ⟨tx, rfl, hb, hamt⟩ := backed_of_settle h hp hx hs
      exact ⟨tx, ht, hamt hst, hb⟩

/-! ### A link with one intent -/

/-- Ten USDC to the account, with a memo that names one of its addresses. -/
def usdcPayment (memo : String) : PaymentRecord :=
  { examplePayment with
    assetType := some "credit_alphanum4"
    assetCode := some "USDC"
    assetIssuer := some usdcTestnetIssuer
    transaction := some { memoType := some "id", memo := some memo, ledger := some 3 } }

def exampleAddress (id : Uuid) (muxedId : Nat) (metadata : String) : Address :=
  ⟨id, 1, muxedId, (sep23.encodeMuxed exampleAccount muxedId).getD "", none, metadata, 0⟩

def exampleLink : PaymentLink where
  id := 3
  walletId := 1
  addressId := 2
  slug := "coffee"
  name := "Coffee"
  description := none
  imageUrl := none
  redirectUrl := none
  amountUsdcStroops := some 100000000
  active := true
  createdAt := 0
  updatedAt := 0
  expiresAt := none
  cancelledAt := none

def exampleIntent : PaymentLinkPayment where
  id := 5
  paymentLinkId := 3
  transactionId := none
  addressId := some 4
  payerName := none
  payerEmail := none
  amountUsdcStroops := 100000000
  status := .pending
  createdAt := 0

/-- A link with shared address 1 and one intent, which has address 2 for itself. -/
def intentDb : Db where
  now := 0
  nextId := 6
  wallets := [⟨1, exampleAccount, 3, none⟩]
  addresses := [exampleAddress 2 1 "{}", exampleAddress 4 2 "coffee"]
  transactions := []
  cursors := []
  links := [exampleLink]
  payments := [exampleIntent]

theorem intentDb_initial : Initial intentDb := by
  refine ⟨?_, rfl, rfl, ?_⟩
  · constructor <;> simp [intentDb, exampleAddress, exampleLink, exampleIntent]
  · intro p hp
    rw [mem_singleton.mp hp]
    rfl

/-- A poll that confirms the intent. -/
theorem payments_one_shot_of_poll :
    ∃ c, Reachable (system (onePayment (usdcPayment "2"))) Initial c ∧
    ∃ p ∈ c.world.db.payments, p.status = .confirmed ∧
      ∃ t, p.transactionId = some t.id ∧ t.amountStroops = p.amountUsdcStroops ∧
        Backing c.world p t := by
  obtain ⟨c, hc, p, hp, hst⟩ := exists_reachable_of_runMoves
    (S := system (onePayment (usdcPayment "2"))) intentDb_initial (pollMoves 0 6)
    (p := fun c => ∃ p ∈ c.world.db.payments, p.status = .confirmed) (by decide)
  exact ⟨c, hc, p, hp, hst, (payments_one_shot _ c hc).2.2 p hp hst⟩

end Octo.PaymentLinks
