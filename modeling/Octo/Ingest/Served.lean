import Octo.Conc.Alone
import Octo.Ingest.ExactlyOnce

/-!
# One record, every call answered

What `process` comes to when nobody else is at the tables, the store and Horizon answer and the host
clock reads `now` (`served`).  A record that is worth something (`worth`) becomes one new row, or is
found to be a duplicate of a row with one of its two keys; any other record changes nothing
(`Outcome`).
-/

namespace Octo.Ingest

open Conc Octo.PaymentLinks

/-- The choices by which a call is answered, with `now` on the host clock. -/
def answered (now : Nat) : Op → Choice → Bool
  | .systemTime, .served n => n == now
  | _, .served _ => true
  | _, _ => false

/-- The system with every call answered and nothing happening on its own. -/
def served (out : Outside) (now : Nat) : Sys Job Op Ans Choice Env Db where
  code := code out
  canStart := canStart
  exec o ch db := if answered now o ch then exec out o ch db else none
  env _ _ := none

section

variable {out : Outside} {now : Nat} {g : Ingestor} {ch : Choice} {s s' : Db} {o : Op} {a : Ans o}

theorem served_exec (h : (served out now).exec o ch s = some (a, s')) :
    answered now o ch = true ∧ exec out o ch s = some (a, s') := by
  simp only [served, Option.ite_none_right_eq_some] at h
  exact h

theorem served_go (hnow : out.clockFloor ≤ now) (o : Op) (s : Db) :
    ∃ ch r, (served out now).exec o ch s = some r := by
  by_cases ho : o = .systemTime
  · subst ho
    refine ⟨.served now, (now, s), ?_⟩
    simp [served, answered, exec, hnow]
  · refine ⟨.served 0, ?_⟩
    cases o with
    | systemTime => exact absurd rfl ho
    | _ => exact ⟨_, rfl⟩

theorem served_systemTime {t : Nat} (h : (served out now).exec .systemTime ch s = some (t, s')) :
    t = now ∧ s' = s := by
  obtain ⟨ha, he⟩ := served_exec h
  cases ch with
  | served n =>
    simp only [exec, Option.ite_none_right_eq_some, Option.some.injEq, Prod.mk.injEq] at he
    have hn : n = now := by simpa [answered] using ha
    exact ⟨he.2.1.symm.trans hn, he.2.2.symm⟩
  | failed => cases he
  | lost => cases he

theorem served_call {r : Ans o × Db} (hr : ∀ n, exec out o (.served n) s = some r)
    (h : (served out now).exec o ch s = some (a, s')) : (a, s') = r := by
  obtain ⟨ha, he⟩ := served_exec h
  cases ch with
  | served n => exact Option.some.inj (he.symm.trans (hr n))
  | failed | lost => simp [answered] at ha

theorem served_claimCredit {opId acct : String} {a : Except HorizonError (Option ClaimCredit)}
    (h : (served out now).exec (.claimCredit opId acct) ch s = some (a, s')) :
    a = .ok (claimCreditOf (out.horizon.effects opId) acct) ∧ s' = s :=
  Prod.mk.inj (served_call (fun _ => rfl) h)

theorem served_claimableBalanceOrigin {id : String} {a : Except HorizonError (Option ClaimOrigin)}
    (h : (served out now).exec (.claimableBalanceOrigin id) ch s = some (a, s')) :
    a = .ok (claimableBalanceOriginOf (out.horizon.balanceOperations id)) ∧ s' = s :=
  Prod.mk.inj (served_call (fun _ => rfl) h)

theorem served_addressByMuxedId {w : Uuid} {id : Int} {a : Except StoreError (Option Address)}
    (h : (served out now).exec (.addressByMuxedId w id) ch s = some (a, s')) :
    a = .ok (s.addressByMuxedId w id) ∧ s' = s :=
  Prod.mk.inj (served_call (fun _ => rfl) h)

theorem served_recordDeposit {d : NewDeposit} {a : Except StoreError (Option Transaction)}
    (h : (served out now).exec (.recordDeposit d) ch s = some (a, s')) :
    (a, s') = s.recordDeposit d :=
  served_call (fun _ => rfl) h

/-! ### What follows the insert leaves the rows alone -/

def Op.inserts : Op → Bool
  | .recordDeposit _ => true
  | _ => false

theorem settlePayment_uses (g : Ingestor) (tx : Transaction) (link : PaymentLink)
    (payment : PaymentLinkPayment) :
    (settlePayment g tx link payment).Uses (fun o => o.inserts = false) := by
  have hdispatch : ∀ (b : Bool) (e : WebhookEvent), (if b then ask (.dispatch g.walletId e) else
      (pure () : Prog Op Ans Unit)).Uses (fun o => o.inserts = false) := by
    intro b e
    cases b with
    | true => exact ⟨rfl, fun _ => trivial⟩
    | false => exact trivial
  unfold settlePayment
  split
  · exact trivial
  split
  all_goals
    refine ⟨rfl, ?_⟩
    rintro (e | _ | _)
    · exact trivial
    · exact trivial
    · exact hdispatch _ _

theorem confirmPaymentLink_uses (g : Ingestor) (tx : Transaction) :
    (confirmPaymentLink g tx).Uses (fun o => o.inserts = false) := by
  unfold confirmPaymentLink
  split
  · exact trivial
  split
  · exact trivial
  refine ⟨rfl, ?_⟩
  rintro (e | _ | payment)
  case ok.some =>
    refine ⟨rfl, ?_⟩
    rintro (e | link)
    · exact trivial
    · exact settlePayment_uses g tx link payment
  -- without a payment that names the memo, the link of the address
  all_goals
    refine ⟨rfl, ?_⟩
    rintro (e | _ | link)
    · exact trivial
    · exact trivial
    · refine ⟨rfl, ?_⟩
      rintro (e | _ | payment)
      · exact trivial
      · exact trivial
      · exact settlePayment_uses g tx link payment

theorem Op.inserts_of_quiet (h : o.quiet = true) : o.inserts = false := by
  cases o with
  | recordDeposit => cases h
  | _ => rfl

theorem alone_keeps (hnow : out.clockFloor ≤ now) {α : Type} {p : Prog Op Ans α}
    (hp : p.Uses (fun o => o.inserts = false)) {rows : List Transaction}
    (hs : s.transactions = rows) :
    Alone (served out now) p (fun _ s' => s'.transactions = rows) s := by
  refine alone_of_uses (fun o s _ => served_go hnow o s) ?_ hp hs
  intro o ch a s s' ho he hs
  have hne : ∀ d, o ≠ .recordDeposit d := by
    rintro d rfl
    cases ho
  rcases exec_write (served_exec he).2 with rfl | rfl
  · exact hs
  · rw [(write_frames out _ _).1 hne, hs]

/-! ### Processing -/

/-- The address that the customer id of the credit names. -/
def addressFor (db : Db) (g : Ingestor) (credit : Credit) : Option Uuid :=
  (credit.customerId.bind (fun id => db.addressByMuxedId g.walletId id)).map (·.id)

def depositFor (db : Db) (g : Ingestor) (rec : PaymentRecord) (w : Toid × Credit × Int) :
    NewDeposit :=
  newDeposit g rec w.1 w.2.1 w.2.2 (addressFor db g w.2.1)

/-- All that processing a record can come to. -/
inductive Outcome (out : Outside) (g : Ingestor) (now : Nat) (rec : PaymentRecord) (db : Db) :
    Processed → Db → Prop
  | failed : worth out g now rec = none → Outcome out g now rec db .failedTransaction db
  | skipped : worth out g now rec = none → Outcome out g now rec db .skipped db
  | duplicate {w : Toid × Credit × Int} : worth out g now rec = some w →
      db.transactions.any (Db.clashes (depositFor db g rec w)) = true →
      Outcome out g now rec db .duplicate db
  | recorded {w : Toid × Credit × Int} {db' : Db} : worth out g now rec = some w →
      db.transactions.any (Db.clashes (depositFor db g rec w)) = false →
      db'.transactions = db.transactions ++ [db.depositRow (depositFor db g rec w)] →
      Outcome out g now rec db (.recorded (depositFor db g rec w).addressId.isSome) db'

section

variable (hnow : out.clockFloor ≤ now)
include hnow

theorem alone_claimCredit (rec : PaymentRecord) (s : Db) :
    Alone (served out now) (claimCredit g rec).run
      (fun r s' => ∃ c, r = .ok c ∧ c = claimCreditOn out.horizon g rec ∧ s' = s) s := by
  unfold claimCredit claimCreditOn
  split
  · exact ⟨none, rfl, rfl, rfl⟩
  cases hb : rec.balanceId.filter isBalanceId with
  | none => exact ⟨none, rfl, rfl, rfl⟩
  | some =>
    refine alone_tryCall (served_go hnow _ s) ?_
    intro ch a s1 he
    obtain ⟨rfl, rfl⟩ := served_claimCredit he
    refine ⟨_, rfl, ?_⟩
    cases hc : claimCreditOf (out.horizon.effects rec.id) g.accountG with
    | none => exact ⟨none, rfl, rfl, rfl⟩
    | some =>
      refine alone_tryCall (served_go hnow _ s1) ?_
      intro ch2 a2 s2 he2
      obtain ⟨rfl, rfl⟩ := served_claimableBalanceOrigin he2
      exact ⟨_, rfl, _, rfl, rfl, rfl⟩

theorem alone_creditFor (rec : PaymentRecord) (s : Db) :
    Alone (served out now) (creditFor out.strkey g rec).run
      (fun r s' => ∃ c, r = .ok c ∧ c = creditOn out g rec ∧ s' = s) s := by
  unfold creditFor creditOn
  split
  · exact alone_claimCredit hnow rec s
  · exact ⟨_, rfl, rfl, rfl⟩

theorem alone_attributed (credit : Credit) (s : Db) :
    Alone (served out now) (attributed g credit.customerId).run
      (fun r s' => ∃ a, r = .ok a ∧ a = addressFor s g credit ∧ s' = s) s := by
  unfold addressFor
  cases credit.customerId with
  | none => exact ⟨none, rfl, rfl, rfl⟩
  | some =>
    refine alone_tryCall (served_go hnow _ s) ?_
    intro ch a s1 he
    obtain ⟨rfl, rfl⟩ := served_addressByMuxedId he
    exact ⟨_, rfl, _, rfl, rfl, rfl⟩

theorem alone_recordCredit {rec : PaymentRecord} {toid : Toid} {credit : Credit}
    {stroops : Int} (hw : worth out g now rec = some (toid, credit, stroops)) (s : Db) :
    Alone (served out now) (recordCredit g rec toid credit stroops).run
      (fun r s' => ∃ p, r = .ok p ∧ Outcome out g now rec s p s') s := by
  have hpos : 0 < stroops := (worth_eq_some.mp hw).2.2.2.2
  refine Alone.bindE (alone_attributed hnow credit s) ?_
  rintro - s ⟨rfl, rfl⟩
  refine alone_tryCall (served_go hnow _ s) ?_
  intro ch a s1 he
  have hd := served_recordDeposit he
  unfold Db.recordDeposit at hd
  rw [if_neg (by exact not_le.mpr hpos)] at hd
  split at hd
  · rename_i hclash
    cases hd
    exact ⟨none, rfl, .duplicate, rfl, .duplicate hw hclash⟩
  · rename_i hfree
    cases hd
    refine ⟨some _, rfl, ?_⟩
    have hfire := (fireDepositWebhook_uses g (s.depositRow (newDeposit g rec toid credit stroops
      (addressFor s g credit)))).imp (fun _ => Op.inserts_of_quiet)
    refine alone_lift (alone_keeps hnow hfire rfl) ?_
    rintro _ s2 hs2
    refine alone_lift (alone_keeps hnow (confirmPaymentLink_uses g _) hs2) ?_
    rintro _ s3 hs3
    exact ⟨_, rfl, .recorded hw (Bool.eq_false_iff.mpr hfree) hs3⟩

theorem alone_process (rec : PaymentRecord) (s : Db) :
    Alone (served out now) (process out.strkey g rec).run
      (fun r s' => ∃ p, r = .ok p ∧ Outcome out g now rec s p s') s := by
  unfold process
  split
  · rename_i hs
    exact ⟨_, rfl, .failed (by simp [worth, hs])⟩
  rename_i hs
  refine alone_tryCall (served_go hnow _ s) ?_
  intro ch t s1 he
  obtain ⟨rfl, rfl⟩ := served_systemTime he
  refine ⟨t, rfl, ?_⟩
  cases ht : plausibleToid rec (plausibleMaxLedger t) with
  | none => exact ⟨_, rfl, .skipped (by simp [worth, ht])⟩
  | some =>
    refine Alone.bindE (alone_creditFor hnow rec s1) ?_
    rintro credit? - ⟨hcr, rfl⟩
    have hcr := hcr.symm
    cases credit? with
    | none => exact ⟨_, rfl, .skipped (by simp [worth, hcr])⟩
    | some credit =>
      dsimp only
      cases hn : toStroops credit.amount with
      | none => exact ⟨_, rfl, .skipped (by simp [worth, hcr, hn])⟩
      | some stroops =>
        show Alone _ (ExceptT.run (if stroops ≤ 0 then _ else _)) _ _
        split
        · rename_i hle
          exact ⟨_, rfl, .skipped (by simp [worth, hcr, hn, hle])⟩
        · exact alone_recordCredit hnow
            (worth_eq_some.mpr ⟨by simpa using hs, ht, hcr, hn, by omega⟩) _

end

end

end Octo.Ingest
