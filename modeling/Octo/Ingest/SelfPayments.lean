import Octo.Ingest.Served

/-!
# Deposits and the wallet's own value

`process` tells the wallet's own value from deposits in two places: a path payment whose `from` is
the account, and a claimed balance whose creator is the account.  A plain payment is not tested, and
both tests compare the text of the address.
-/

namespace Octo.Ingest

open Conc Octo.PaymentLinks

/-- In some run of `process`, whatever happens between its calls and whichever of them fail, a row
is added. -/
def Deposits (out : Outside) (g : Ingestor) (rec : PaymentRecord) : Prop :=
  Makes (system out) (process out.strkey g rec).run
    (fun x => x.post.transactions ≠ x.pre.transactions)

section

variable {out : Outside} {g : Ingestor} {rec : PaymentRecord}

theorem deposits_of_worth {now : Nat} (hnow : out.clockFloor ≤ now)
    (hw : (worth out g now rec).isSome) : Deposits out g rec := by
  obtain ⟨w, hw⟩ := Option.isSome_iff_exists.mp hw
  let db : Db := ⟨0, 0, [], [], [], [], [], []⟩
  obtain ⟨r, s', ⟨tr, hr⟩, p, -, hp⟩ := (alone_process hnow rec db).exists_runs
  have hsystem : Runs (system out) (process out.strkey g rec).run db tr (.ret r) s' :=
    hr.mono (fun o ch s r h => by
      exact (served_exec h).2) (fun e s s' h => by cases h)
  refine hsystem.makes_change (fun e s s' he => (env_rows he).1) ?_
  cases hp with
  | failed hn | skipped hn => rw [hw] at hn; cases hn
  | duplicate _ hclash => cases hclash
  | recorded _ _ hrows =>
    rw [hrows]
    simp

theorem not_deposits (h : ∀ now, out.clockFloor ≤ now → worth out g now rec = none) :
    ¬ Deposits out g rec := by
  have hcalls : Calls (system out) (fun _ _ => True) (fun _ o => o.inserts = false)
      (process out.strkey g rec).run (fun _ _ => True) [] := by
    refine calls_process_of (fun _ _ => Op.inserts_of_quiet) (fun _ _ _ _ => trivial) ?_
    intro now toid credit stroops tr' hnow hw
    rw [h now hnow] at hw
    cases hw
  refine hcalls.not_makes (fun _ _ => trivial) ?_
  intro tr o ch a s s' ho he hne
  have hnot : ∀ d, o ≠ .recordDeposit d := by
    rintro d rfl
    cases ho
  rcases exec_write (show exec out o ch s = some (a, s') from he) with rfl | rfl
  · exact hne rfl
  · exact hne ((write_frames out o s).1 hnot)

theorem deposits_iff :
    Deposits out g rec ↔ ∃ now, out.clockFloor ≤ now ∧ (worth out g now rec).isSome := by
  constructor
  · intro h
    by_contra hno
    refine not_deposits (fun now hnow => ?_) h
    by_contra hw
    exact hno ⟨now, hnow, Option.isSome_iff_ne_none.mpr hw⟩
  · rintro ⟨now, hnow, hw⟩
    exact deposits_of_worth hnow hw

end

/-! ### Whose value it is -/

/-- The account an address stands for: a muxed address is reduced to its base account. -/
def accountOf (sk : Strkey) (address : String) : String := (sk.toBaseAccount address).getD address

/-- Who created a claimable balance, by the operations Horizon lists for it. -/
def balanceCreator (hz : Horizon) (balanceId : String) : Option String :=
  ((hz.balanceOperations balanceId).find? (fun op => op.kind == "create_claimable_balance")).bind
    (·.sourceAccount)

def payer (out : Outside) (rec : PaymentRecord) : Option String :=
  (if rec.kind == claimKind then rec.balanceId.bind (balanceCreator out.horizon) else rec.src).map
    (accountOf out.strkey)

def PaysItself (out : Outside) (g : Ingestor) (rec : PaymentRecord) : Prop :=
  payer out rec = some g.accountG

/-- The amount that a record brings to the account, whoever it is from. -/
def broughtTo (out : Outside) (g : Ingestor) (rec : PaymentRecord) : Option String :=
  if rec.kind == claimKind then
    if rec.claimant == some g.accountG && (rec.balanceId.filter isBalanceId).isSome then
      (claimCreditOf (out.horizon.effects rec.id) g.accountG).map (·.amount)
    else none
  else if isCreditKind rec.kind && rec.dst == some g.accountG
    then some ((creditedAmount rec).getD "") else none

/-- A successful operation with a plausible id that brings a positive amount to the account. -/
def BringsValue (out : Outside) (g : Ingestor) (rec : PaymentRecord) : Prop :=
  isFromSuccessfulTx rec = true ∧
  (∃ now, out.clockFloor ≤ now ∧ (plausibleToid rec (plausibleMaxLedger now)).isSome) ∧
  ∃ amount stroops, broughtTo out g rec = some amount ∧ toStroops amount = some stroops ∧
    0 < stroops

/-- The creator of the claimed balance as `claimable_balance_origin` reports it. -/
def reportedCreator (out : Outside) (rec : PaymentRecord) : Option String :=
  ((rec.balanceId.filter isBalanceId).bind (fun id =>
    claimableBalanceOriginOf (out.horizon.balanceOperations id))).bind (·.sourceAccount)

/-- No test names the account as the payer: a payment or an account creation is not tested, a path
payment and a claim are when the address is the account's own text. -/
def Untested (out : Outside) (g : Ingestor) (rec : PaymentRecord) : Prop :=
  rec.kind = "payment" ∨ rec.kind = "create_account" ∨
  (isPathPayment rec.kind = true ∧ rec.src ≠ some g.accountG) ∨
  (rec.kind = claimKind ∧ reportedCreator out rec ≠ some g.accountG)

section

variable {out : Outside} {g : Ingestor} {rec : PaymentRecord}

theorem claimCreditOn_amount (hk : rec.kind = claimKind) (amount : String) :
    (∃ credit, claimCreditOn out.horizon g rec = some credit ∧ credit.amount = amount) ↔
      broughtTo out g rec = some amount ∧ reportedCreator out rec ≠ some g.accountG := by
  unfold claimCreditOn broughtTo reportedCreator claimedCredit
  cases hb : rec.balanceId.filter isBalanceId with
  | none => simp [hk]
  | some id =>
    cases hc : claimCreditOf (out.horizon.effects rec.id) g.accountG with
    | none => simp [hk]
    | some =>
      by_cases hclaimant : rec.claimant = some g.accountG
      · simp [hk, hclaimant, and_comm]
      · simp [hk, hclaimant]

theorem directCredit_amount (hk : rec.kind ≠ claimKind) (amount : String) :
    (∃ credit, directCredit out.strkey g rec = some credit ∧ credit.amount = amount) ↔
      broughtTo out g rec = some amount ∧
      ¬ (isPathPayment rec.kind = true ∧ rec.src = some g.accountG) := by
  unfold directCredit broughtTo
  by_cases hc : isCreditKind rec.kind = true
  · by_cases hd : rec.dst = some g.accountG
    · by_cases hp : isPathPayment rec.kind = true ∧ rec.src = some g.accountG
      · simp [hc, hd, hp]
      · simp [hk, hd, hp]
    · simp [hk, hd]
  · simp [hk, hc]

theorem isCreditKind_of_broughtTo (hk : rec.kind ≠ claimKind) {amount : String}
    (h : broughtTo out g rec = some amount) : isCreditKind rec.kind = true := by
  by_contra hc
  simp [broughtTo, hk, hc] at h

theorem creditOn_amount (amount : String) :
    (∃ credit, creditOn out g rec = some credit ∧ credit.amount = amount) ↔
      broughtTo out g rec = some amount ∧ Untested out g rec := by
  unfold creditOn
  by_cases hk : rec.kind = claimKind
  · rw [if_pos (beq_iff_eq.mpr hk), claimCreditOn_amount hk]
    refine and_congr_right fun _ => ⟨fun h => .inr (.inr (.inr ⟨hk, h⟩)), ?_⟩
    rintro (h | h | ⟨h, -⟩ | ⟨-, h⟩)
    · exact absurd (hk.symm.trans h) (by decide)
    · exact absurd (hk.symm.trans h) (by decide)
    · rw [hk] at h
      cases h
    · exact h
  · rw [if_neg (by simpa using hk), directCredit_amount hk]
    refine and_congr_right fun hb => ?_
    have hkind := isCreditKind_of_broughtTo hk hb
    simp only [isCreditKind, Bool.or_eq_true, beq_iff_eq] at hkind
    constructor
    · intro h
      rcases hkind with (hkind | hkind) | hkind
      · exact .inl hkind
      · exact .inr (.inl hkind)
      · exact .inr (.inr (.inl ⟨hkind, fun hs => h ⟨hkind, hs⟩⟩))
    · rintro (h | h | ⟨-, h⟩ | ⟨h, -⟩) ⟨hp, hs⟩
      · rw [h] at hp
        cases hp
      · rw [h] at hp
        cases hp
      · exact h hs
      · exact hk h

/-- **A record can become a deposit if it brings value and no test stops it.** -/
theorem deposits_iff_untested :
    Deposits out g rec ↔ BringsValue out g rec ∧ Untested out g rec := by
  rw [deposits_iff]
  constructor
  · rintro ⟨now, hnow, hw⟩
    obtain ⟨⟨_, credit, stroops⟩, hw⟩ := Option.isSome_iff_exists.mp hw
    obtain ⟨hs, ht, hcr, hn, hpos⟩ := worth_eq_some.mp hw
    obtain ⟨hb, hu⟩ := (creditOn_amount credit.amount).mp ⟨credit, hcr, rfl⟩
    exact ⟨⟨hs, ⟨now, hnow, by rw [ht]; rfl⟩, credit.amount, stroops, hb, hn, hpos⟩, hu⟩
  · rintro ⟨⟨hs, ⟨now, hnow, ht⟩, amount, _, hb, hn, hpos⟩, hu⟩
    obtain ⟨_, ht⟩ := Option.isSome_iff_exists.mp ht
    obtain ⟨_, hcr, rfl⟩ := (creditOn_amount amount).mpr ⟨hb, hu⟩
    exact ⟨now, hnow, Option.isSome_iff_exists.mpr ⟨_, worth_eq_some.mpr ⟨hs, ht, hcr, hn, hpos⟩⟩⟩

/-- **Exactly which records make a deposit of the wallet's own value**: those that bring value to
the account, are paid by it, and pass untested. -/
theorem deposits_from_others_iff (out : Outside) (g : Ingestor) (rec : PaymentRecord) :
    (Deposits out g rec → ¬ PaysItself out g rec) ↔
      ¬ (BringsValue out g rec ∧ PaysItself out g rec ∧ Untested out g rec) := by
  rw [deposits_iff_untested]
  constructor
  · rintro h ⟨hb, hp, hu⟩
    exact h ⟨hb, hu⟩ hp
  · rintro h ⟨hb, hu⟩ hp
    exact h ⟨hb, hp, hu⟩

end

def selfPayment : PaymentRecord := { examplePayment with src := some exampleAccount }

/-- A poll records the account's own ten lumens as a deposit. -/
theorem self_payment_deposited :
    PaysItself (onePayment selfPayment) ⟨1, exampleAccount, false⟩ selfPayment ∧
    ∃ c, Reachable (system (onePayment selfPayment)) Initial c ∧ ∃ t ∈ c.world.db.transactions,
      t.direction = .deposit ∧ t.walletId = 1 ∧ t.sourceAccount = some exampleAccount ∧
      t.destinationAccount = some exampleAccount ∧ t.amountStroops = 100000000 := by
  refine ⟨show payer _ _ = some exampleAccount by decide +kernel, ?_⟩
  exact exists_reachable_of_runMoves exampleDb_initial (pollMoves 0 2) (by decide +kernel)

end Octo.Ingest
