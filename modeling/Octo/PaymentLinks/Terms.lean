import Octo.Ingest.Tables

/-!
# Terms and cancellation under concurrent intents

`create_payment_intent` reads the link in one call and inserts the intent in a later one.  An edit
or a cancellation in between finds no intent that would stop it or that it could close, so the
intent that is inserted afterwards carries old terms (`old_terms_on_edited_link`) or is pending on a
cancelled link (`pending_on_cancelled_link`).
-/

namespace Octo.PaymentLinks

open Conc Octo.Ingest List

variable {out : Outside}

/-! ### Link rows -/

/-- Where a link row after the call `o` from `s` to `s'` comes from. -/
inductive LinkMove (o : Op) (s s' : Db) : PaymentLink → Prop
  | kept {l l' : PaymentLink} : l ∈ s.links → l'.id = l.id →
      l'.amountUsdcStroops = l.amountUsdcStroops →
      l'.cancelledAt = l.cancelledAt → LinkMove o s s' l'
  | created {n : NewPaymentLink} : o = .createPaymentLink n → s'.nextId = s.nextId + 1 →
      LinkMove o s s' (s.linkRow n)
  | edited {l l' : PaymentLink} {w id : Uuid} {u : PaymentLinkUpdate} :
      o = .updateUnpaidPaymentLink w id u →
      l ∈ s.links → l'.id = l.id → l'.cancelledAt = l.cancelledAt →
      (∀ p ∈ s.payments, p.paymentLinkId = l.id → Db.locksTerms p.status = false) →
      LinkMove o s s' l'
  | cancelled {l : PaymentLink} : l ∈ s.links →
      (∀ p ∈ s'.payments, p.paymentLinkId = l.id → p.status ≠ .pending) →
      LinkMove o s s' (cancelledLink s.now l)

variable {o : Op} {s s' : Db} {l l' : PaymentLink} {ch : Choice} {w : World} {i : Nat} {amt : Int}
  {p' : PaymentLinkPayment}

theorem LinkMove.same (h : l ∈ s.links) : LinkMove o s s' l := .kept h rfl rfl rfl

theorem linkMove_updateLinks {guard : PaymentLink → Bool} {f : PaymentLink → PaymentLink}
    (hl' : l' ∈ (s.updateLinks guard f).links)
    (h : ∀ l ∈ s.links, guard l = true → LinkMove o s s' (f l)) : LinkMove o s s' l' := by
  obtain ⟨l, hl, rfl⟩ := mem_updateLinks.mp hl'
  by_cases hg : guard l = true
  · rw [if_pos hg]
    exact h l hl hg
  · rw [if_neg hg]
    exact .same hl

theorem linkMove_write (h : l' ∈ (write out o s).links) : LinkMove o s (write out o s) l' := by
  cases o with
  | setCursor w token =>
    obtain ⟨cs, hs⟩ := setCursor_eq s w token
    simp only [write, hs] at h
    exact .same h
  | markPolled w =>
    obtain ⟨cs, hs⟩ := markPolled_eq s w
    simp only [write, hs] at h
    exact .same h
  | recordDeposit d =>
    obtain ⟨n, ts, hs⟩ := recordDeposit_eq s d
    simp only [write, hs] at h
    exact .same h
  | allocateAddress w base ref md =>
    obtain ⟨n, ws, as, hs⟩ := allocateAddress_eq s w (out.deriveMuxed base) ref md
    simp only [write, hs] at h
    exact .same h
  | createPaymentLink n =>
    rcases createPaymentLink_cases n s with hs | hs
    · simp only [write, hs] at h
      exact .same h
    · simp only [write, hs] at h
      rcases Rows.mem_concat.mp h with h | rfl
      · exact .same h
      · exact .created rfl (by simp only [write, hs])
  | setPaymentLinkActive =>
    refine linkMove_updateLinks h ?_
    intro l hl _
    exact .kept hl rfl rfl rfl
  | updateUnpaidPaymentLink =>
    refine linkMove_updateLinks h ?_
    intro l hl hg
    simp only [Bool.and_eq_true, Bool.not_eq_true'] at hg
    refine .edited rfl hl rfl rfl ?_
    intro p hp hid
    have hnot := any_eq_false.mp hg.2 p hp
    simpa [hid] using hnot
  | cancelPaymentLink w id =>
    rcases cancelPaymentLink_cases w id s with hs | ⟨l, -, -, -, _, hs⟩
    · simp only [write, hs] at h
      exact .same h
    · simp only [write, hs] at h ⊢
      refine linkMove_updateLinks h ?_
      intro k hk hg
      simp only [Bool.and_eq_true, beq_iff_eq] at hg
      refine .cancelled hk ?_
      -- the same transaction closes the link's pending payments
      intro p' hp' hid
      obtain ⟨p, -, rfl⟩ := mem_settlePayments.mp hp'
      rw [hg.1] at hid
      unfold settled at hid ⊢
      split
      · intro h
        cases h
      · rename_i hkept
        rw [if_neg hkept] at hid
        simpa [hid] using hkept
  | _ => exact .same h

variable {a : Ans o} {n e : Option String} {linkId : Uuid} {fixed : Int} {j : Job}

theorem linkMove_call (he : exec out o ch s = some (a, s')) (h : l' ∈ s'.links) :
    LinkMove o s s' l' := by
  rcases exec_write he with rfl | rfl
  · exact .same h
  · exact linkMove_write h

/-! ### Fixed amounts -/

/-- Every payment that locks the terms carries the fixed amount of its link, if the link has one. -/
def TermsLocked (db : Db) : Prop :=
  ∀ l ∈ db.links, ∀ fixed, l.amountUsdcStroops = some fixed →
    ∀ p ∈ db.payments, p.paymentLinkId = l.id →
    Db.locksTerms p.status = true → p.amountUsdcStroops = fixed

structure LockedDb (db : Db) : Prop where
  links_fresh : ∀ l ∈ db.links, l.id < db.nextId
  payments_fresh : ∀ p ∈ db.payments, p.paymentLinkId < db.nextId
  locked : TermsLocked db

def linkRead (x : Act) : Option PaymentLink :=
  match x with
  | ⟨.getPaymentLinkBySlug _, .ok l, _, _⟩ => some l
  | _ => none

/-- When an intent is inserted, a fixed amount of the link is still the one that the request has
read. -/
def termsUnchanged (w : World) : Label Job Op Ans → Bool
  | .call i (.recordPaymentLinkIntent ..) _ =>
    (w.trace i).all (fun x => (linkRead x).all (fun l0 => w.db.links.all (fun l =>
      l.id != l0.id || l.amountUsdcStroops.isNone || l.amountUsdcStroops == l0.amountUsdcStroops)))
  | _ => true

theorem fixed_of_termsUnchanged {adr : Option Uuid}
    {a : Ans (.recordPaymentLinkIntent linkId n e amt adr)}
    (h : termsUnchanged w (.call i (.recordPaymentLinkIntent linkId n e amt adr) a) = true)
    {slug : String} {l0 : PaymentLink}
    (hread : ⟨.getPaymentLinkBySlug slug, .ok l0, s, s'⟩ ∈ w.trace i) (hl : l ∈ w.db.links)
    (hid : l.id = l0.id) (hfixed : l.amountUsdcStroops = some fixed) :
    l0.amountUsdcStroops = some fixed := by
  have hx := all_eq_true.mp (all_eq_true.mp h _ hread) l hl
  simp only [hid, hfixed, bne_self_eq_false, Bool.false_or, Option.isNone_some, beq_iff_eq] at hx
  exact hx.symm

theorem intentAmount_fixed {req : CreatePaymentIntentRequest} (h : intentAmount l req = .ok amt)
    (hfixed : l.amountUsdcStroops = some fixed) : amt = fixed := by
  unfold intentAmount at h
  rw [hfixed] at h
  exact (Except.ok.inj h).symm

theorem locking_before (h : PayMove o s p') (hlock : Db.locksTerms p'.status = true) :
    (∃ p ∈ s.payments, p'.paymentLinkId = p.paymentLinkId ∧
      p'.amountUsdcStroops = p.amountUsdcStroops ∧ Db.locksTerms p.status = true) ∨
    ∃ l n e amt a, o = .recordPaymentLinkIntent l n e amt a ∧ p' = s.paymentRow l n e amt a := by
  cases h with
  | kept hp => exact .inl ⟨p', hp, rfl, rfl, hlock⟩
  | intent ho => exact .inr ⟨_, _, _, _, _, ho, rfl⟩
  | settle hp hst | close hp hst => exact .inl ⟨_, hp, rfl, rfl, by rw [hst]; rfl⟩

theorem paymentLinkId_before (h : PayMove o s p') :
    (∃ p ∈ s.payments, p'.paymentLinkId = p.paymentLinkId) ∨
      ∃ n e amt a, o = .recordPaymentLinkIntent p'.paymentLinkId n e amt a := by
  cases h with
  | kept hp => exact .inl ⟨p', hp, rfl⟩
  | intent ho => exact .inr ⟨_, _, _, _, ho⟩
  | settle hp | close hp => exact .inl ⟨_, hp, rfl⟩

theorem intent_read (hc : w.Chained (system out) Grows) {a : Option Uuid}
    (hL : Allowed out j (w.trace i) (.recordPaymentLinkIntent linkId n e amt a)) :
    ∃ slug l0 req s s', ⟨.getPaymentLinkBySlug slug, .ok l0, s, s'⟩ ∈ w.trace i ∧ l0.id = linkId ∧
      intentAmount l0 req = .ok amt ∧ ∃ l ∈ w.db.links, l.id = linkId := by
  obtain ⟨l0, _, slug, _, s, s', s1, s1', _, htr, -, rfl, hslug, req, hamt⟩ := hL
  have hread : (⟨.getPaymentLinkBySlug slug, .ok l0, s1, s1'⟩ : Act) ∈ w.trace i := by
    rw [htr]
    exact mem_cons_of_mem _ hslug
  obtain ⟨ch, he⟩ := exec_of_trace hc hread
  obtain ⟨rfl, hl0⟩ := exec_getPaymentLinkBySlug he
  obtain ⟨l, hl, hst⟩ := (hc.below_of_mem hread).links l0 hl0
  exact ⟨slug, l0, req, s1', s1', hread, rfl, hamt, l, hl, hst.id⟩

theorem LockedDb.call (h : LockedDb w.db) (hc : w.Chained (system out) Grows)
    (hL : Allowed out j (w.trace i) o) (he : exec out o ch w.db = some (a, s))
    (hok : termsUnchanged w (.call i o a) = true) : LockedDb s := by
  have hnext : w.db.nextId ≤ s.nextId := (exec_grows he).nextId
  refine ⟨?_, ?_, ?_⟩
  · intro l hl
    cases linkMove_call he hl with
    | kept hl0 hid | edited _ hl0 hid =>
      rw [hid]
      exact Nat.lt_of_lt_of_le (h.links_fresh _ hl0) hnext
    | created _ hn =>
      rw [hn]
      exact Nat.lt_succ_self _
    | @cancelled l0 hl0 _ => exact Nat.lt_of_lt_of_le (h.links_fresh l0 hl0) hnext
  · intro p hp
    rcases paymentLinkId_before (payMove_call he hp) with ⟨p0, hp0, hid⟩ | ⟨n, e, amt, adr, rfl⟩
    · rw [hid]
      exact Nat.lt_of_lt_of_le (h.payments_fresh p0 hp0) hnext
    · obtain ⟨_, l0, req, s1, s1', -, -, -, l, hl, hid⟩ := intent_read hc hL
      rw [← hid]
      exact Nat.lt_of_lt_of_le (h.links_fresh l hl) hnext
  · intro l hl fixed hfixed p hp hid hlock
    rcases locking_before (payMove_call he hp) hlock with ⟨p0, hp0, hlink, hamt, hlock0⟩
      | ⟨linkId, n, e, amt, adr, rfl, rfl⟩
    · rw [hamt]
      rw [hlink] at hid
      cases linkMove_call he hl with
      | kept hl0 hid0 hterms =>
        exact h.locked _ hl0 fixed (hterms ▸ hfixed) p0 hp0 (hid.trans hid0) hlock0
      | created =>
        have hlt := h.payments_fresh p0 hp0
        rw [hid] at hlt
        exact absurd hlt (Nat.lt_irrefl _)
      | edited _ hl0 hid0 _ hfree =>
        rw [hfree p0 hp0 (hid.trans hid0)] at hlock0
        cases hlock0
      | @cancelled l0 hl0 _ => exact h.locked l0 hl0 fixed hfixed p0 hp0 hid hlock0
    · obtain ⟨_, l0, req, s1, s1', hread, hid0, hamt, -⟩ := intent_read hc hL
      have hlw : ∃ l1 ∈ w.db.links, l1.id = l.id ∧ l1.amountUsdcStroops = some fixed := by
        cases linkMove_call he hl with
        | kept hl1 hid1 hterms => exact ⟨_, hl1, hid1.symm, hterms ▸ hfixed⟩
        | created ho => cases ho
        | edited ho => cases ho
        | @cancelled l1 hl1 _ => exact ⟨l1, hl1, rfl, hfixed⟩
      obtain ⟨l1, hl1, hid1, hfixed1⟩ := hlw
      have hfixed0 := fixed_of_termsUnchanged hok hread hl1 (by rw [hid1, ← hid, hid0]; rfl) hfixed1
      exact intentAmount_fixed hamt hfixed0

/-- **The terms of a fixed-amount link are locked**, in every run in which no intent is inserted
after the fixed amount has changed since the request read it: every payment that is pending,
confirmed, underpaid or overpaid carries the link's present fixed amount. -/
theorem terms_locked_reach {c : Conf Job Op Ans Db}
    (h : Reach (system out) (fun w l => termsUnchanged w l = true) LockedDb c) :
    TermsLocked c.world.db := by
  suffices hI : LockedDb c.world.db from hI.locked
  refine (discipline out).invariant (I := fun w => LockedDb w.db) (fun s hs => hs)
    (fun w j hI _ _ => hI) ?_ ?_ h
  · intro w i j o ch a s hI hc _ hL he hok
    exact hI.call hc hL he hok
  · intro w e s hI he _
    obtain ⟨-, hlinks, hpay, -⟩ := env_rows he
    have hnext := (env_grows he).nextId
    refine ⟨?_, ?_, ?_⟩
    · intro l hl
      rw [World.setDb_db, hlinks] at hl
      exact Nat.lt_of_lt_of_le (hI.links_fresh l hl) hnext
    · intro p hp
      rw [World.setDb_db, hpay] at hp
      exact Nat.lt_of_lt_of_le (hI.payments_fresh p hp) hnext
    · intro l hl fixed hfixed p hp
      rw [World.setDb_db, hlinks] at hl
      rw [World.setDb_db, hpay] at hp
      exact hI.locked l hl fixed hfixed p hp

/-! ### Cancelled links -/

def CancelledClosed (db : Db) : Prop :=
  ∀ id, db.Cancelled id → ∀ p ∈ db.payments, p.paymentLinkId = id → p.status ≠ .pending

def linkNotCancelled (w : World) : Label Job Op Ans → Bool
  | .call _ (.recordPaymentLinkIntent linkId ..) _ =>
    w.db.links.all (fun l => l.id != linkId || l.cancelledAt.isNone)
  | _ => true

theorem pending_before (h : PayMove o s p') (hst : p'.status = .pending) :
    p' ∈ s.payments ∨ ∃ n e amt a, o = .recordPaymentLinkIntent p'.paymentLinkId n e amt a := by
  cases h with
  | kept hp => exact .inl hp
  | intent ho => exact .inr ⟨_, _, _, _, ho⟩
  | settle _ _ hs =>
    cases o with
    | confirmPaymentLinkPayment =>
      cases hs
      cases hst
    | markPaymentLinkPaymentMismatched q u m =>
      cases hs
      cases m <;> cases hst
    | _ => cases hs
  | close _ _ hcl =>
    rcases hcl with hcl | hcl
    · rw [hcl] at hst
      cases hst
    · rw [hcl] at hst
      cases hst

theorem CancelledClosed.call (h : CancelledClosed w.db) (he : exec out o ch w.db = some (a, s))
    (hok : linkNotCancelled w (.call i o a) = true) : CancelledClosed s := by
  intro id hcan p hp hid hst
  obtain ⟨l', hl', hid', hc'⟩ := hcan
  -- the link was cancelled before, unless this call is the cancellation
  have hbefore : w.db.Cancelled id ∨ ∀ p ∈ s.payments, p.paymentLinkId = id →
      p.status ≠ .pending := by
    cases linkMove_call he hl' with
    | @kept l _ hl hl_id _ hcl | @edited l _ _ _ _ _ hl hl_id hcl _ =>
      rw [hcl] at hc'
      exact .inl ⟨l, hl, by rw [← hl_id, hid'], hc'⟩
    | created => cases hc'
    | cancelled hl hclosed =>
      rw [← hid']
      exact .inr hclosed
  rcases hbefore with hcan | hclosed
  · rcases pending_before (payMove_call he hp) hst with hp0 | ⟨n, e, amt, adr, rfl⟩
    · exact h id hcan p hp0 hid hst
    · obtain ⟨l, hl, hl_id, hcl⟩ := hcan
      have hopen := all_eq_true.mp hok l hl
      rw [hl_id, ← hid] at hopen
      simp only [bne_self_eq_false] at hopen
      rw [Option.isNone_iff_eq_none.mp hopen] at hcl
      cases hcl
  · exact hclosed p hp hid hst

theorem cancelled_of_trace (hc : w.Chained (system out) Grows) {walletId id : Uuid}
    {r : PaymentLink × List PaymentLinkPayment}
    (hx : ⟨.cancelPaymentLink walletId id, .ok r, s, s'⟩ ∈ w.trace i) : w.db.Cancelled id := by
  refine (hc.below_of_mem hx).cancelled ?_
  obtain ⟨ch, he⟩ := exec_of_trace hc hx
  obtain ⟨-, hstmt⟩ := store_ok he
  rcases cancelPaymentLink_cases walletId id s with hs | ⟨l, hl, hid, hw, _, hs⟩
  · rw [hs] at hstmt
    cases hstmt
  · rw [hs] at hstmt
    obtain ⟨-, rfl⟩ := Prod.mk.inj hstmt
    refine ⟨cancelledLink s.now l, mem_updateLinks.mpr ⟨l, hl, ?_⟩, hid, ?_⟩
    · simp [hid, hw]
    · cases hcl : l.cancelledAt with
      | none | some => simp [cancelledLink, hcl]

/-- **Cancelling a link closes it for good**, in every run in which no intent is inserted on a link
that is cancelled by then: a link whose cancellation was answered stays cancelled, and a cancelled
link has no pending payment. -/
theorem cancelled_closed_reach {c : Conf Job Op Ans Db}
    (h : Reach (system out) (fun w l => linkNotCancelled w l = true) CancelledClosed c) :
    (∀ i walletId id r s s', ⟨.cancelPaymentLink walletId id, .ok r, s, s'⟩ ∈ c.world.trace i →
      c.world.db.Cancelled id) ∧
    ∀ id, c.world.db.Cancelled id → ∀ p ∈ c.world.db.payments, p.paymentLinkId = id →
    p.status ≠ .pending := by
  refine ⟨fun i walletId id r s s' hx => cancelled_of_trace ((discipline out).chained h) hx, ?_⟩
  refine (discipline out).invariant (I := fun w => CancelledClosed w.db) (fun s hs => hs)
    (fun w j hI _ _ => hI) ?_ ?_ h
  · intro w i j o ch a s hI _ _ _ he hok
    exact hI.call he hok
  · intro w e s hI he _ id hcan p hp
    obtain ⟨-, hlinks, hpay, -⟩ := env_rows he
    obtain ⟨l, hl, hrest⟩ := hcan
    rw [World.setDb_db, hlinks] at hl
    rw [World.setDb_db, hpay] at hp
    exact hI id ⟨l, hl, hrest⟩ p hp

/-! ### Examples -/

def exampleTerms : Outside where
  horizon := ⟨fun _ => [], fun _ => [], fun _ => []⟩
  strkey := ⟨fun _ => "GOWNER", fun _ => some [], fun _ _ => "MINTENT", fun _ => none⟩
  urlScheme _ := none
  clockFloor := 0

def coffeeLink : PaymentLink where
  id := 3
  walletId := 1
  addressId := 2
  slug := "coffee"
  name := "Coffee"
  description := none
  imageUrl := none
  redirectUrl := none
  amountUsdcStroops := some 100000000
  active := true
  createdAt := 0
  updatedAt := 0
  expiresAt := none
  cancelledAt := none

def coffeeDb : Db where
  now := 0
  nextId := 4
  wallets := [⟨1, "GOWNER", 2, none⟩]
  addresses := [⟨2, 1, 1, "MLINK", none, "{}", 0⟩]
  transactions := []
  cursors := []
  links := [coffeeLink]
  payments := []

theorem coffeeDb_locked : LockedDb coffeeDb := by
  refine ⟨?_, fun p hp => (nomatch hp), fun l _ fixed _ p hp => (nomatch hp)⟩
  intro l hl
  rw [mem_singleton.mp hl]
  decide

theorem coffeeDb_closed : CancelledClosed coffeeDb := fun _ _ _ hp => nomatch hp

/-- The calls of an intent request before it inserts the intent, and the insertion. -/
def intentReads (i : Nat) : List (Move Job Choice Env) :=
  [.start (.createIntent "coffee" {}), .call i (.served 0), .call i (.served 0),
    .call i (.served 0), .call i (.served 0)]

def intentInsert (i : Nat) : List (Move Job Choice Env) := [.call i (.served 0)]

def editMoves (i : Nat) : List (Move Job Choice Env) :=
  [.start (.updateLink 1 3 ⟨none, none, some (some 250000000)⟩), .call i (.served 0)]

def cancelMoves (i : Nat) : List (Move Job Choice Env) :=
  [.start (.cancelLink 1 3), .call i (.served 0)]

/-- The edit comes first, and the intent carries the new amount. -/
theorem new_terms_on_edited_link : ∃ c : Conf Job Op Ans Db,
    Reach (system exampleTerms) (fun w l => termsUnchanged w l = true) LockedDb c ∧
      ∃ l ∈ c.world.db.links, ∃ p ∈ c.world.db.payments, p.paymentLinkId = l.id ∧
        p.status = .pending ∧
        l.amountUsdcStroops = some 250000000 ∧ p.amountUsdcStroops = 250000000 := by
  obtain ⟨c, hc, l, hl, p, hp, hid, hst, hamt⟩ := exists_reach_of_runMovesIf
    (S := system exampleTerms) termsUnchanged coffeeDb_locked
    (editMoves 0 ++ intentReads 1 ++ intentInsert 1) (p := fun c =>
      ∃ l ∈ c.world.db.links, ∃ p ∈ c.world.db.payments, p.paymentLinkId = l.id ∧
        p.status = .pending ∧ l.amountUsdcStroops = some 250000000) (by decide +kernel)
  exact ⟨c, hc, l, hl, p, hp, hid, hst, hamt,
    terms_locked_reach hc l hl _ hamt p hp hid (by rw [hst]; rfl)⟩

theorem old_terms_on_edited_link :
    ∃ c : Conf Job Op Ans Db, Reachable (system exampleTerms) LockedDb c ∧
    ¬ TermsLocked c.world.db ∧ ∃ l ∈ c.world.db.links, ∃ p ∈ c.world.db.payments,
      p.paymentLinkId = l.id ∧
      p.status = .pending ∧ l.amountUsdcStroops = some 250000000 ∧
      p.amountUsdcStroops = 100000000 := by
  obtain ⟨c, hc, l, hl, p, hp, hid, hst, hamt, hpaid⟩ := exists_reachable_of_runMoves
    (S := system exampleTerms) coffeeDb_locked (intentReads 0 ++ editMoves 1 ++ intentInsert 0)
    (p := fun c => ∃ l ∈ c.world.db.links, ∃ p ∈ c.world.db.payments, p.paymentLinkId = l.id ∧
      p.status = .pending ∧ l.amountUsdcStroops = some 250000000 ∧
      p.amountUsdcStroops = 100000000) (by decide +kernel)
  refine ⟨c, hc, ?_, l, hl, p, hp, hid, hst, hamt, hpaid⟩
  intro hlocked
  have heq := hlocked l hl _ hamt p hp hid (by rw [hst]; rfl)
  rw [hpaid] at heq
  cases heq

/-- The intent is inserted first, and the cancellation closes it. -/
theorem cancelled_link_closed : ∃ c : Conf Job Op Ans Db,
    Reach (system exampleTerms) (fun w l => linkNotCancelled w l = true) CancelledClosed c ∧
      c.world.db.Cancelled 3 ∧
      ∃ p ∈ c.world.db.payments, p.paymentLinkId = 3 ∧ p.status ≠ .pending := by
  obtain ⟨c, hc, hcancelled, p, hp, hlink⟩ := exists_reach_of_runMovesIf
    (S := system exampleTerms) linkNotCancelled coffeeDb_closed
    (intentReads 0 ++ intentInsert 0 ++ cancelMoves 1)
    (p := fun c => c.world.db.Cancelled 3 ∧ ∃ p ∈ c.world.db.payments, p.paymentLinkId = 3)
    (by decide +kernel)
  exact ⟨c, hc, hcancelled, p, hp, hlink, (cancelled_closed_reach hc).2 3 hcancelled p hp hlink⟩

theorem pending_on_cancelled_link :
    ∃ c : Conf Job Op Ans Db, Reachable (system exampleTerms) CancelledClosed c ∧
    c.world.db.Cancelled 3 ∧ ∃ p ∈ c.world.db.payments, p.paymentLinkId = 3 ∧
    p.status = .pending := by
  exact exists_reachable_of_runMoves coffeeDb_closed
    (intentReads 0 ++ cancelMoves 1 ++ intentInsert 0) (by decide +kernel)

end Octo.PaymentLinks
