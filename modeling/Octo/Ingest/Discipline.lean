import Octo.Ingest.System

/-!
# What the code does, call by call

`Allowed out j tr o` says when a task of job `j` that has made the calls `tr` may make the call `o`.
For most calls there is nothing to say.  A deposit is recorded for an operation of the wallet's
account; the cursor is saved only behind operations that were all processed; a payment is settled
only with the deposit just inserted and after the two lookups that match them; a link or an intent
is created with the address just allocated.  `discipline` shows that all code keeps to it; what
follows for the tables is proved from `Allowed` alone.

The *window* of a deposit is the time from its insert to the next save of the cursor by the same
task (`Window`); all settling happens in it.
-/

namespace Octo.Ingest

open Conc Octo.PaymentLinks List

abbrev Act := Conc.Act Op Ans Db
abbrev World := Conc.World Job Op Ans Db

theorem exec_of_trace {out : Outside} {w : World} {i : Nat} {o : Op} {a : Ans o} {s s' : Db}
    (hc : w.Chained (system out) Grows) (hm : (⟨o, a, s, s'⟩ : Act) ∈ w.trace i) :
    ∃ ch, exec out o ch s = some (a, s') := hc.exec_of_mem hm

/-! ### Windows -/

def inserted : Act → Option Transaction
  | ⟨.recordDeposit _, .ok (some tx), _, _⟩ => some tx
  | _ => none

def isCursorSave : Act → Bool
  | ⟨.setCursor _ _, _, _, _⟩ => true
  | _ => false

def isSettle : Act → Bool
  | ⟨.confirmPaymentLinkPayment _ _, _, _, _⟩ => true
  | ⟨.markPaymentLinkPaymentMismatched _ _ _, _, _, _⟩ => true
  | _ => false

def isBoundary (x : Act) : Bool := isCursorSave x || (inserted x).isSome

/-- The task inserted `tx` by `x0`, has made the calls `post` since, and has not saved the cursor.
-/
def Window (tr : List Act) (x0 : Act) (tx : Transaction) (post : List Act) : Prop :=
  ∃ before, tr = post ++ x0 :: before ∧ inserted x0 = some tx ∧ ∀ x ∈ post, isBoundary x = false

def NoWindow (tr : List Act) : Prop := ∀ x0 tx post, ¬ Window tr x0 tx post

variable {post tr : List Act} {x x0 : Act} {tx : Transaction}

theorem Window.cons (h : Window tr x0 tx post) (hx : isBoundary x = false) :
    Window (x :: tr) x0 tx (x :: post) := by
  obtain ⟨before, rfl, hi, hp⟩ := h
  exact ⟨before, rfl, hi, forall_mem_cons.mpr ⟨hx, hp⟩⟩

theorem window_insert (h : inserted x0 = some tx) : Window (x0 :: tr) x0 tx [] :=
  ⟨tr, rfl, h, forall_mem_nil _⟩

theorem Window.inserted (h : Window tr x0 tx post) : Octo.Ingest.inserted x0 = some tx := by
  obtain ⟨-, -, hi, -⟩ := h
  exact hi

theorem Window.subset (h : Window tr x0 tx post) : x0 ∈ tr ∧ post ⊆ tr := by
  obtain ⟨b, rfl, -⟩ := h
  exact ⟨mem_append_right _ mem_cons_self, subset_append_left _ _⟩

theorem window_cons_cases (h : Window (x :: tr) x0 tx post) :
    (x = x0 ∧ post = [] ∧ inserted x = some tx) ∨
      isBoundary x = false ∧ ∃ post', post = x :: post' ∧ Window tr x0 tx post' := by
  obtain ⟨before, heq, hi, hp⟩ := h
  cases post with
  | nil =>
    cases heq
    exact .inl ⟨rfl, rfl, hi⟩
  | cons y post' =>
    cases heq
    exact .inr ⟨hp x mem_cons_self, post', rfl, before, rfl, hi, (forall_mem_cons.mp hp).2⟩

theorem isBoundary_of_inserted (h : inserted x = some tx) : isBoundary x = true := by
  simp [isBoundary, h]

/-- **A trace has at most one window.** -/
theorem Window.unique {x1 : Act} {tx' : Transaction} {post' : List Act} (h : Window tr x0 tx post)
    (h' : Window tr x1 tx' post') : x0 = x1 ∧ tx = tx' ∧ post = post' := by
  induction tr generalizing post post' with
  | nil =>
    obtain ⟨_, heq, -⟩ := h
    cases post <;> cases heq
  | cons x tr ih =>
    rcases window_cons_cases h with ⟨rfl, rfl, hi⟩ | ⟨hb, p, rfl, hw⟩
    · rcases window_cons_cases h' with ⟨rfl, rfl, hi'⟩ | ⟨hb', -⟩
      · exact ⟨rfl, Option.some.inj (hi.symm.trans hi'), rfl⟩
      · rw [isBoundary_of_inserted hi] at hb'
        cases hb'
    · rcases window_cons_cases h' with ⟨rfl, rfl, hi'⟩ | ⟨-, p', rfl, hw'⟩
      · rw [isBoundary_of_inserted hi'] at hb
        cases hb
      · obtain ⟨h1, h2, h3⟩ := ih hw hw'
        exact ⟨h1, h2, by rw [h3]⟩

theorem noWindow_nil : NoWindow [] := by
  rintro x0 tx post ⟨_, heq, -⟩
  cases post <;> cases heq

theorem NoWindow.cons (h : NoWindow tr) (hx : inserted x = none) : NoWindow (x :: tr) := by
  intro x0 tx post hw
  rcases window_cons_cases hw with ⟨rfl, -, hi⟩ | ⟨-, p, -, hw⟩
  · rw [hx] at hi
    cases hi
  · exact h _ _ _ hw

theorem noWindow_cursorSave (hx : isCursorSave x = true) (hi : inserted x = none) :
    NoWindow (x :: tr) := by
  intro x0 tx post hw
  rcases window_cons_cases hw with ⟨rfl, -, hi'⟩ | ⟨hb, -⟩
  · rw [hi] at hi'
    cases hi'
  · simp [isBoundary, hx] at hb

/-! ### Crediting records -/

def creditAccount (rec : PaymentRecord) : Option String :=
  if rec.kind == claimKind then rec.claimant else rec.dst

def claimCreditOn (hz : Horizon) (g : Ingestor) (rec : PaymentRecord) : Option Credit :=
  if rec.claimant != some g.accountG then none
  else
    match rec.balanceId.filter isBalanceId with
    | none => none
    | some balanceId =>
      match claimCreditOf (hz.effects rec.id) g.accountG with
      | none => none
      | some credited =>
        claimedCredit g rec credited (claimableBalanceOriginOf (hz.balanceOperations balanceId))

def creditOn (out : Outside) (g : Ingestor) (rec : PaymentRecord) : Option Credit :=
  if rec.kind == claimKind then claimCreditOn out.horizon g rec else directCredit out.strkey g rec

/-- A crediting record: one that `process` turns into a deposit, whatever the host clock says. -/
def Credits (out : Outside) (g : Ingestor) (rec : PaymentRecord) : Prop :=
  isFromSuccessfulTx rec = true ∧
  (plausibleToid rec (plausibleMaxLedger out.clockFloor)).isSome ∧
  ∃ credit stroops, creditOn out g rec = some credit ∧ toStroops credit.amount = some stroops ∧
    0 < stroops

def worth (out : Outside) (g : Ingestor) (now : Nat) (rec : PaymentRecord) :
    Option (Toid × Credit × Int) :=
  if !isFromSuccessfulTx rec then none
  else do
    let toid ← plausibleToid rec (plausibleMaxLedger now)
    let credit ← creditOn out g rec
    let stroops ← toStroops credit.amount
    if stroops ≤ 0 then none else some (toid, credit, stroops)

theorem worth_eq_some {out : Outside} {g : Ingestor} {now : Nat} {rec : PaymentRecord} {toid : Toid}
    {credit : Credit} {stroops : Int} : worth out g now rec = some (toid, credit, stroops) ↔
      isFromSuccessfulTx rec = true ∧ plausibleToid rec (plausibleMaxLedger now) = some toid ∧
        creditOn out g rec = some credit ∧ toStroops credit.amount = some stroops ∧
        0 < stroops := by
  unfold worth
  cases hs : isFromSuccessfulTx rec with
  | false => simp
  | true =>
    simp only [Bool.not_true, Bool.false_eq_true, if_false, Option.bind_eq_bind,
      Option.bind_eq_some_iff, Option.ite_none_left_eq_some, Option.some.injEq, Prod.mk.injEq,
      true_and]
    constructor
    · rintro ⟨t, ht, c, hc, n, hn, hpos, rfl, rfl, rfl⟩
      exact ⟨ht, hc, hn, by omega⟩
    · rintro ⟨ht, hc, hn, hpos⟩
      exact ⟨toid, ht, credit, hc, stroops, hn, by omega, rfl, rfl, rfl⟩

/-! ### The discipline -/

/-- The task was told that the operation of record `r` is in the table. -/
def Deposited (g : Ingestor) (tr : List Act) (r : PaymentRecord) : Prop :=
  ∃ d ans s s', (⟨.recordDeposit d, .ok ans, s, s'⟩ : Act) ∈ tr ∧ d.walletId = g.walletId ∧
    d.horizonOpId = r.id

/-- Every crediting record up to `cursor` was behind the saved cursor the task started from, or the
task was told that it is in the table. -/
def CoveredIn (out : Outside) (g : Ingestor) (tr : List Act) (cursor : Option String) : Prop :=
  ∃ c s s', (⟨.getCursor g.walletId, .ok c, s, s'⟩ : Act) ∈ tr ∧
    ∀ r ∈ out.horizon.operations g.accountG, Credits out g r → Horizon.upTo cursor r →
      Horizon.upTo c r ∨ Deposited g tr r

structure DepositOk (out : Outside) (g : Ingestor) (tr : List Act) (d : NewDeposit) : Prop where
  walletId : d.walletId = g.walletId
  record : ∃ rec ∈ out.horizon.operations g.accountG, d.horizonOpId = rec.id ∧
    d.stellarTxHash = rec.transactionHash.getD "" ∧ creditAccount rec = some g.accountG ∧
    ∃ m toid, decodeToid rec.id m = some toid ∧ d.operationIndex = toid.operationIndex
  address : ∀ a, d.addressId = some a → ∃ muxedId addr s s',
    (⟨.addressByMuxedId g.walletId muxedId, .ok (some addr), s, s'⟩ : Act) ∈ tr ∧ addr.id = a
  noWindow : NoWindow tr

def IsUsdc (tx : Transaction) : Prop :=
  tx.assetCode = "USDC" ∧ tx.assetIssuer = some usdcTestnetIssuer

inductive Matched (g : Ingestor) (tx : Transaction) (link : PaymentLink) (pay : PaymentLinkPayment)
    (post : List Act) : Prop
  | exact {a : Uuid} {s1 s1' s2 s2' : Db} : tx.addressId = some a →
      (⟨.pendingPaymentByAddress a, .ok (some pay), s1, s1'⟩ : Act) ∈ post →
      (⟨.getPaymentLink g.walletId pay.paymentLinkId, .ok link, s2, s2'⟩ : Act) ∈ post →
      Matched g tx link pay post
  | fallback {a : Uuid} {s1 s1' s2 s2' : Db} : tx.addressId = some a →
      (⟨.getPaymentLinkByAddress a, .ok (some link), s1, s1'⟩ : Act) ∈ post →
      (⟨.oldestPendingPaymentLinkPayment link.id, .ok (some pay), s2, s2'⟩ : Act) ∈ post →
      Matched g tx link pay post

/-- A payment is settled with the deposit of the open window, once, on an open link. -/
structure SettleOk (g : Ingestor) (tr : List Act) (x0 : Act) (tx : Transaction) (post : List Act)
    (link : PaymentLink) (pay : PaymentLinkPayment) : Prop where
  window : Window tr x0 tx post
  once : ∀ x ∈ post, isSettle x = false
  usdc : IsUsdc tx
  matched : Matched g tx link pay post
  isOpen : link.isClosedAt tx.createdAt = false

/-- What `confirm_payment_link` did with a deposit to address `a`, by the time it returned. -/
def Attempted (g : Ingestor) (tx : Transaction) (post : List Act) : Prop :=
  ∀ a, IsUsdc tx → tx.addressId = some a →
    (∃ e s s', (⟨.pendingPaymentByAddress a, .error e, s, s'⟩ : Act) ∈ post) ∨
    (∃ s s', (⟨.pendingPaymentByAddress a, .ok none, s, s'⟩ : Act) ∈ post) ∨
    ∃ pay s s', (⟨.pendingPaymentByAddress a, .ok (some pay), s, s'⟩ : Act) ∈ post ∧
      ((∃ e s s', (⟨.getPaymentLink g.walletId pay.paymentLinkId, .error e, s, s'⟩ : Act) ∈ post) ∨
        ∃ link s s', (⟨.getPaymentLink g.walletId pay.paymentLinkId, .ok link, s, s'⟩ : Act) ∈
          post ∧ (link.isClosedAt tx.createdAt = true ∨ tx.amountStroops ≠ pay.amountUsdcStroops ∨
            ∃ ans s s', (⟨.confirmPaymentLinkPayment pay.id tx.id, ans, s, s'⟩ : Act) ∈ post))

def Allowed (out : Outside) (j : Job) (tr : List Act) : Op → Prop
  | .recordDeposit d => ∃ g, j.ingestor = some g ∧ DepositOk out g tr d
  | .setCursor w token => ∃ g, j.ingestor = some g ∧ w = g.walletId ∧
      (out.horizon.Lawful → CoveredIn out g tr (some token)) ∧
      ∀ x0 tx post, Window tr x0 tx post → Attempted g tx post
  | .confirmPaymentLinkPayment p t => ∃ g x0 tx post link pay, j.ingestor = some g ∧
      SettleOk g tr x0 tx post link pay ∧ pay.id = p ∧ tx.id = t ∧
      tx.amountStroops = pay.amountUsdcStroops
  | .markPaymentLinkPaymentMismatched p t _ => ∃ g x0 tx post link pay, j.ingestor = some g ∧
      SettleOk g tr x0 tx post link pay ∧ pay.id = p ∧ tx.id = t ∧
      tx.amountStroops ≠ pay.amountUsdcStroops
  | .createPaymentLink l => ∃ base addr s s' before,
      tr = ⟨.allocateAddress l.walletId base none "{}", .ok addr, s, s'⟩ :: before ∧
      l.addressId = addr.id
  | .recordPaymentLinkIntent l _ _ amt a => ∃ link base slug addr s s' s1 s1' before,
      tr = ⟨.allocateAddress link.walletId base none slug, .ok addr, s, s'⟩ :: before ∧
      a = some addr.id ∧ l = link.id ∧
      (⟨.getPaymentLinkBySlug slug, .ok link, s1, s1'⟩ : Act) ∈ before ∧
      ∃ req, intentAmount link req = .ok amt
  | _ => True

end Octo.Ingest
