import Octo.Ingest.Served
import Octo.Ingest.Shapes

/-!
# Which deliveries are recorded

A `Delivery` to the wallet's account, in the document Horizon writes for it, is decoded and
processed with every call answered.  Payments, path payments and claims become a deposit of that
asset and amount.  The document of an account creation has no `to`, so `directCredit` finds no
destination and the record is skipped.
-/

namespace Octo.Ingest

open Codec Conc Octo.PaymentLinks Delivery List

/-- What Horizon lists about a claimed balance: a 72-digit id, the effect by which the claim credits
the claimant, and the operation that created the balance. -/
structure ClaimListed (out : Outside) (d : Delivery) (balanceId : String) : Prop where
  length : balanceId.toList.length = 72
  hex : balanceId.toList.all isHexDigit = true
  effect : ∃ before e after fields, out.horizon.effects d.id.text = before ++ e :: after ∧
    HasFields d.effectFields fields ∧ readEffect (.obj fields) = some e ∧
    ∀ x ∈ before, ¬ (x.kind = "account_credited" ∧ x.account = some d.destination)
  creator : ∃ origin rest, out.horizon.balanceOperations balanceId = origin :: rest ∧
    origin.kind = "create_claimable_balance" ∧ origin.sourceAccount = some d.source

/-- The operation brings its amount to the wallet's account from another one, by host clock `now`.
-/
structure DeliveredTo (out : Outside) (g : Ingestor) (now : Nat) (d : Delivery) : Prop where
  destination : d.destination = g.accountG
  source : d.source ≠ g.accountG
  ledger : d.id.ledger ≤ plausibleMaxLedger now
  claim : ∀ balanceId, d.kind = .claimClaimableBalance balanceId → ClaimListed out d balanceId

structure DepositOf (g : Ingestor) (d : Delivery) (t : Transaction) : Prop where
  walletId : t.walletId = g.walletId
  direction : t.direction = .deposit
  asset : (t.assetCode, t.assetIssuer) = d.asset.stored
  amount : t.amountStroops = d.stroops
  opId : t.horizonOpId = some d.id.text

/-- The document is decoded, and processing the record adds the deposit of the operation. -/
def IsRecorded (out : Outside) (g : Ingestor) (now : Nat) (d : Delivery)
    (fields : List (String × Json)) (db : Db) : Prop :=
  ∃ rec, readPayment (.obj fields) = some rec ∧
    Alone (served out now) (process out.strkey g rec).run (fun r db' => ∃ attributed t,
      r = .ok (.recorded attributed) ∧ db'.transactions = db.transactions ++ [t] ∧ DepositOf g d t)
        db

def KeysFree (d : Delivery) (db : Db) : Prop :=
  ∀ t ∈ db.transactions, t.horizonOpId ≠ some d.id.text ∧
    ¬ (t.stellarTxHash = some (d.hash.getD "") ∧ t.operationIndex = some ((d.id.opOrder : Int) - 1))

section

variable {out : Outside} {g : Ingestor} {now : Nat} {d : Delivery} {db : Db}

/-! ### What a record is worth -/

theorem plausibleToid_common {rec : PaymentRecord} (hid : rec.id = d.id.text)
    (htx : rec.transaction = d.joined.map d.transactionRecord)
    (hle : d.id.ledger ≤ plausibleMaxLedger now) :
    plausibleToid rec (plausibleMaxLedger now) = some d.id.toid := by
  unfold plausibleToid
  rw [hid, htx, d.id.decodeToid_text hle]
  cases d.joined with
  | none => rfl
  | some => simp [transactionRecord, OperationId.toid]

variable {credit : Credit} {balanceId : String}

theorem assetOf_delivery (htype : credit.assetType = some d.asset.typeText)
    (hcode : credit.assetCode = d.asset.code) (hissuer : credit.assetIssuer = d.asset.issuer) :
    assetOf credit = d.asset.stored := by
  unfold assetOf
  rw [htype, hcode, hissuer]
  cases d.asset <;> rfl

structure CreditOf (d : Delivery) (credit : Credit) : Prop where
  amount : credit.amount = d.amount
  assetType : credit.assetType = some d.asset.typeText
  assetCode : credit.assetCode = d.asset.code
  assetIssuer : credit.assetIssuer = d.asset.issuer

theorem creditOn_paid (hto : DeliveredTo out g now d) (hcreate : d.kind ≠ .createAccount)
    (hclaim : ∀ b, d.kind ≠ .claimClaimableBalance b) :
    ∃ credit, creditOn out g d.paidRecord = some credit ∧ CreditOf d credit := by
  have hkind : (d.kind.text == claimKind) = false ∧ isCreditKind d.kind.text = true ∧
      (d.kind.text == "create_account") = false := by
    cases hk : d.kind with
    | createAccount => exact absurd hk hcreate
    | claimClaimableBalance b => exact absurd hk (hclaim b)
    | _ => exact ⟨rfl, rfl, rfl⟩
  obtain ⟨hnotClaim, hcredit, hnotCreate⟩ := hkind
  have hdst : (d.paidRecord.dst != some g.accountG) = false := by simp [paidRecord, hto.destination]
  have hsrc : (d.paidRecord.src == some g.accountG) = false := by simp [paidRecord, hto.source]
  have hamount : creditedAmount d.paidRecord = some d.amount := by
    show (if d.kind.text == "create_account" then _ else _) = _
    rw [hnotCreate]
    rfl
  have hk : d.paidRecord.kind = d.kind.text := rfl
  unfold creditOn directCredit
  rw [hk, hnotClaim, hcredit, hdst, hsrc, Bool.and_false, hamount]
  exact ⟨_, rfl, rfl, rfl, rfl, rfl⟩

theorem claimCreditOf_listed (h : ClaimListed out d balanceId) :
    claimCreditOf (out.horizon.effects d.id.text) d.destination =
      some ⟨d.amount, some d.asset.typeText, d.asset.code, d.asset.issuer⟩ := by
  obtain ⟨before, e, _, _, heffects, hfields, he, hbefore⟩ := h.effect
  rw [d.readEffect_documented hfields] at he
  cases he
  have hnone : before.find? (fun e => e.kind == "account_credited" &&
      e.account == some d.destination) = none := by
    rw [find?_eq_none]
    intro x hx hp
    simp only [Bool.and_eq_true, beq_iff_eq] at hp
    exact hbefore x hx hp
  have hfirst : (d.effect.kind == "account_credited" && d.effect.account == some d.destination) =
      true := by
    simp [effect]
  rw [claimCreditOf, heffects, find?_append, hnone, find?_cons, hfirst]
  rfl

theorem creditOn_claimed (hto : DeliveredTo out g now d)
    (hk : d.kind = .claimClaimableBalance balanceId) :
    ∃ credit, creditOn out g (d.claimedRecord balanceId) = some credit ∧ CreditOf d credit := by
  have hlisted := hto.claim balanceId hk
  obtain ⟨origin, _, hops, hcreate, hsource⟩ := hlisted.creator
  have hkind : (d.claimedRecord balanceId).kind = claimKind := by
    show d.kind.text = _
    rw [hk]
    rfl
  have hvalid : isBalanceId balanceId = true := by
    have hlen := hlisted.length
    have hne : balanceId.toList ≠ [] := ne_nil_of_length_pos (by omega)
    simp only [isBalanceId, Bool.and_eq_true, Bool.not_eq_true', isEmpty_eq_false_iff,
      decide_eq_true_eq]
    exact ⟨⟨hne, by omega⟩, hlisted.hex⟩
  have horigin : claimableBalanceOriginOf (out.horizon.balanceOperations balanceId) =
      some origin := by
    rw [hops]
    simp [claimableBalanceOriginOf, hcreate]
  have hcredited := claimCreditOf_listed hlisted
  rw [hto.destination] at hcredited
  have hclaimant : (d.claimedRecord balanceId).claimant = some g.accountG :=
    congrArg some hto.destination
  have hbalance : (d.claimedRecord balanceId).balanceId = some balanceId := rfl
  have hid : (d.claimedRecord balanceId).id = d.id.text := rfl
  have hon : creditOn out g (d.claimedRecord balanceId) = claimedCredit g
      (d.claimedRecord balanceId)
      ⟨d.amount, some d.asset.typeText, d.asset.code, d.asset.issuer⟩ (some origin) := by
    simp [creditOn, claimCreditOn, hkind, hclaimant, hbalance, hid, Option.filter_some, hvalid,
      hcredited, horigin]
  have hother : ((some origin).bind (·.sourceAccount) == some g.accountG) = false := by
    simp [hsource, hto.source]
  rw [hon, claimedCredit, hother]
  exact ⟨_, rfl, rfl, rfl, rfl, rfl⟩

theorem creditOn_delivery (hto : DeliveredTo out g now d) (hcreate : d.kind ≠ .createAccount) :
    ∃ credit, creditOn out g d.record = some credit ∧ CreditOf d credit := by
  unfold record
  split
  · rename_i hk
    exact absurd hk hcreate
  · rename_i hk
    exact creditOn_claimed hto hk
  · rename_i hclaim
    exact creditOn_paid hto hcreate hclaim

theorem worth_delivery (hto : DeliveredTo out g now d) (hcreate : d.kind ≠ .createAccount) :
    ∃ credit, worth out g now d.record = some (d.id.toid, credit, (d.stroops : Int)) ∧
    CreditOf d credit := by
  obtain ⟨credit, hcr, hof⟩ := creditOn_delivery hto hcreate
  have hcommon : isFromSuccessfulTx d.record = true ∧ d.record.id = d.id.text ∧
      d.record.transaction = d.joined.map d.transactionRecord := by
    unfold record
    split <;> exact ⟨rfl, rfl, rfl⟩
  obtain ⟨hsuccess, hid, htx⟩ := hcommon
  have hstroops : toStroops credit.amount = some (d.stroops : Int) := by
    rw [hof.amount]
    exact toStroops_amountText d.stroops_le
  have hpos : (0 : Int) < d.stroops := Int.natCast_pos.mpr d.stroops_pos
  exact ⟨credit, worth_eq_some.mpr ⟨hsuccess, plausibleToid_common hid htx hto.ledger, hcr,
    hstroops, hpos⟩, hof⟩

theorem worth_created (hk : d.kind = .createAccount) : worth out g now d.record = none := by
  have hdst : d.record.dst = none := by simp [record, hk, createdRecord, commonRecord]
  have hkind : d.record.kind = "create_account" := by
    simp [record, hk, createdRecord, commonRecord, DeliveryKind.text]
  have hcredit : creditOn out g d.record = none := by
    simp [creditOn, hkind, claimKind, directCredit, hdst]
  simp [worth, hcredit]

/-! ### What is recorded -/

theorem depositOf_row (hof : CreditOf d credit) :
    DepositOf g d (db.depositRow (depositFor db g d.record (d.id.toid, credit, (d.stroops : Int))))
      where
  walletId := rfl
  direction := rfl
  asset := assetOf_delivery hof.assetType hof.assetCode hof.assetIssuer
  amount := rfl
  opId := by
    unfold record
    split <;> rfl

theorem keysFree_iff :
    db.transactions.any (Db.clashes
      (depositFor db g d.record (d.id.toid, credit, (d.stroops : Int)))) = false ↔
      KeysFree d db := by
  have hcommon : d.record.id = d.id.text ∧ d.record.transactionHash = d.hash := by
    unfold record
    split <;> exact ⟨rfl, rfl⟩
  obtain ⟨hid, hhash⟩ := hcommon
  simp only [any_eq_false, KeysFree, Db.clashes, depositFor, newDeposit, hid, hhash,
    OperationId.toid, Bool.or_eq_true, Bool.and_eq_true, beq_iff_eq]
  refine forall₂_congr fun t _ => ?_
  constructor
  · intro h
    exact ⟨fun hop => h (.inr hop), fun hkey => h (.inl hkey)⟩
  · rintro ⟨hop, hkey⟩ (h | h)
    · exact hkey h
    · exact hop h

theorem not_recorded_of_worthless (hnow : out.clockFloor ≤ now) {fields : List (String × Json)}
    (hdoc : d.Document fields) (hw : worth out g now d.record = none) :
    ¬ IsRecorded out g now d fields db := by
  rintro ⟨rec, hrec, halone⟩
  obtain rfl := Option.some.inj ((readPayment_documented hdoc).symm.trans hrec)
  obtain ⟨r, db', hret, p, rfl, hout⟩ := (alone_process hnow d.record db).exists_runs
  obtain ⟨_, t, hp, -, -⟩ := halone.of_returns (fun _ _ => rfl) hret
  cases hp
  cases hout with
  | recorded hw' =>
    rw [hw] at hw'
    cases hw'

/-- Exactly the deliveries other than account creations are recorded, once. -/
theorem delivery_recorded_iff (out : Outside) (g : Ingestor) (now : Nat) (d : Delivery)
    (fields : List (String × Json)) (db : Db) (hnow : out.clockFloor ≤ now)
    (hdoc : d.Document fields) (hto : DeliveredTo out g now d) :
    IsRecorded out g now d fields db ↔ d.kind ≠ .createAccount ∧ KeysFree d db := by
  have hread := Delivery.readPayment_documented hdoc
  constructor
  · intro hrecorded
    have hcreate : d.kind ≠ .createAccount := fun hk =>
      not_recorded_of_worthless hnow hdoc (worth_created hk) hrecorded
    refine ⟨hcreate, ?_⟩
    obtain ⟨_, hw, -⟩ := worth_delivery hto hcreate
    obtain ⟨rec, hrec, halone⟩ := hrecorded
    obtain rfl := Option.some.inj (hread.symm.trans hrec)
    -- the run that is there has an outcome, and it is a new row
    obtain ⟨r, db', hret, p, rfl, hout⟩ := (alone_process hnow d.record db).exists_runs
    obtain ⟨_, t, hp, -, -⟩ := halone.of_returns (fun _ _ => rfl) hret
    cases hp
    cases hout with
    | recorded hw' hfree =>
      obtain rfl := Option.some.inj (hw'.symm.trans hw)
      exact keysFree_iff.mp hfree
  · rintro ⟨hcreate, hfree⟩
    obtain ⟨_, hw, hof⟩ := worth_delivery hto hcreate
    refine ⟨d.record, hread, (alone_process hnow d.record db).imp ?_⟩
    rintro r db' ⟨p, rfl, hout⟩
    cases hout with
    | failed hn => rw [hw] at hn; cases hn
    | skipped hn => rw [hw] at hn; cases hn
    | duplicate hw' hclash =>
      obtain rfl := Option.some.inj (hw.symm.trans hw')
      rw [keysFree_iff.mpr hfree] at hclash
      cases hclash
    | recorded hw' _ hrows =>
      obtain rfl := Option.some.inj (hw.symm.trans hw')
      exact ⟨_, _, rfl, hrows, depositOf_row hof⟩

end

/-! ### Ten lumens, paid and by creating the account -/

/-- Operation 1 of transaction 1 of ledger 3 brings ten lumens to the example account. -/
def tenLumens (kind : DeliveryKind) : Delivery where
  kind := kind
  id := ⟨3, 1, 1, by decide, by decide, Nat.one_pos, by decide, Nat.one_pos, by decide⟩
  pagingToken := "12884905985"
  hash := some "3389e9f0f1a65f19736cacf544c2e825313e8447f569233bb8db39aa607c8889"
  joined := none
  source := usdcTestnetIssuer
  destination := exampleAccount
  muxed := none
  asset := .native
  stroops := 100000000
  stroops_pos := by decide
  stroops_le := by decide

theorem tenLumens_texts (kind : DeliveryKind) :
    (tenLumens kind).id.text = "12884905985" ∧ (tenLumens kind).amount = "10.0000000" := by
  constructor
  · show OperationId.text ⟨3, 1, 1, _, _, _, _, _, _⟩ = _
    decide +kernel
  · show amountText 100000000 = _
    decide +kernel

theorem tenLumens_delivered {kind : DeliveryKind} (h : kind.text ≠ claimKind) (g : Ingestor)
    (hg : g.accountG = exampleAccount) : DeliveredTo exampleOutside g 0 (tenLumens kind) where
  destination := hg.symm
  source := by
    rw [hg]
    show usdcTestnetIssuer ≠ exampleAccount
    decide
  ledger := by
    show 3 ≤ plausibleMaxLedger 0
    decide
  claim b hb := by
    have hkind : kind = .claimClaimableBalance b := hb
    exact absurd (by rw [hkind]; rfl) h

def paymentDocument : List (String × Json) :=
  [("id", .str "12884905985"), ("paging_token", .str "12884905985"),
    ("transaction_successful", .bool true), ("source_account", .str usdcTestnetIssuer),
    ("type", .str "payment"), ("type_i", .int 1),
    ("transaction_hash", .str "3389e9f0f1a65f19736cacf544c2e825313e8447f569233bb8db39aa607c8889"),
    ("asset_type", .str "native"), ("from", .str usdcTestnetIssuer), ("to", .str exampleAccount),
    ("amount", .str "10.0000000")]

def creationDocument : List (String × Json) :=
  [("id", .str "12884905985"), ("paging_token", .str "12884905985"),
    ("transaction_successful", .bool true), ("source_account", .str usdcTestnetIssuer),
    ("type", .str "create_account"), ("type_i", .int 0),
    ("transaction_hash", .str "3389e9f0f1a65f19736cacf544c2e825313e8447f569233bb8db39aa607c8889"),
    ("starting_balance", .str "10.0000000"), ("funder", .str usdcTestnetIssuer),
    ("account", .str exampleAccount)]

def creationRecord : PaymentRecord where
  id := "12884905985"
  pagingToken := "12884905985"
  kind := "create_account"
  transactionHash := some "3389e9f0f1a65f19736cacf544c2e825313e8447f569233bb8db39aa607c8889"
  transactionSuccessful := true
  startingBalance := some "10.0000000"

theorem paymentDocument_documents : (tenLumens .payment).Document paymentDocument where
  nodup := by decide
  lookup := by
    obtain ⟨hid, hamount⟩ := tenLumens_texts .payment
    simp only [documented, hid, forall_mem_append, forall_mem_cons, not_mem_nil,
      false_implies, implies_true, and_true]
    refine ⟨⟨rfl, rfl, rfl, rfl, rfl⟩, ?_⟩
    show ∀ f ∈ (tenLumens .payment).paidFields, _
    simp only [paidFields, assetFields, absent, hamount, map_cons, map_nil,
      forall_mem_append, forall_mem_cons, not_mem_nil, false_implies, implies_true, and_true]
    exact ⟨⟨⟨⟨rfl, rfl, rfl, rfl⟩, rfl, rfl, rfl⟩, rfl⟩, rfl, rfl, rfl⟩
  joined := rfl

theorem creationDocument_documents : (tenLumens .createAccount).Document creationDocument where
  nodup := by decide
  lookup := by
    obtain ⟨hid, hamount⟩ := tenLumens_texts .createAccount
    simp only [documented, hid, forall_mem_append, forall_mem_cons, not_mem_nil,
      false_implies, implies_true, and_true]
    refine ⟨⟨rfl, rfl, rfl, rfl, rfl⟩, ?_⟩
    show ∀ f ∈ (tenLumens .createAccount).createdFields, _
    simp only [createdFields, absent, hamount, map_cons, map_nil, forall_mem_append,
      forall_mem_cons, not_mem_nil, false_implies, implies_true, and_true]
    exact ⟨⟨rfl, rfl, rfl⟩, rfl, rfl, rfl, rfl, rfl, rfl, rfl, rfl, rfl, rfl⟩
  joined := rfl

/-- Ten lumens paid to the account are recorded. -/
theorem payment_recorded :
    IsRecorded exampleOutside ⟨1, exampleAccount, false⟩ 0 (tenLumens .payment) paymentDocument
      exampleDb :=
  (delivery_recorded_iff exampleOutside ⟨1, exampleAccount, false⟩ 0 (tenLumens .payment)
    paymentDocument exampleDb
    (Nat.le_refl 0) paymentDocument_documents (tenLumens_delivered (by decide) _ rfl)).mpr
    ⟨fun h => (nomatch h), fun _ ht => (nomatch ht)⟩

/-- Ten lumens that come with the creation of the account are not: the poll saves its cursor behind
them and the table stays empty. -/
theorem account_creation_missed :
    (tenLumens .createAccount).Document creationDocument ∧
    DeliveredTo exampleOutside ⟨1, exampleAccount, false⟩ 0 (tenLumens .createAccount) ∧
    KeysFree (tenLumens .createAccount) exampleDb ∧
    ¬ IsRecorded exampleOutside ⟨1, exampleAccount, false⟩ 0 (tenLumens .createAccount)
      creationDocument exampleDb ∧
    ∃ rec, readPayment (.obj creationDocument) = some rec ∧
      ∃ c, Reachable (system (onePayment rec)) Initial c ∧
      c.world.db.getCursor 1 = some "12884905985" ∧ c.world.db.transactions = [] := by
  have hdoc := creationDocument_documents
  refine ⟨hdoc, tenLumens_delivered (by decide) _ rfl, fun _ ht => (nomatch ht),
    not_recorded_of_worthless (Nat.le_refl 0) hdoc (worth_created rfl), ?_⟩
  exact ⟨creationRecord, by decide +kernel,
    exists_reachable_of_runMoves exampleDb_initial (pollMoves 0 2) (by decide +kernel)⟩

end Octo.Ingest
