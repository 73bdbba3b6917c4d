import Octo.Codec.Json
import Octo.Ingest.Horizon
import Octo.Ingest.Printed

/-!
# Horizon's JSON

The decoders of `crates/ingest/src/horizon.rs` (`PaymentRecord`, `TransactionRecord` and
`EffectRecord` with their derived `Deserialize`), and the documents Horizon writes.  A `Delivery` is
an operation that brings an amount of an asset to an account; `Delivery.documented` are the fields
of its document, by kind: a payment or a path payment has `from`, `to` and `amount`, an account
creation has `funder`, `account` and `starting_balance`, a claim has the balance and the claimant,
and its amount is in an effect.  Other fields may stand beside these, and the order of fields is
open.
-/

namespace Octo.Ingest

open Codec Json List

/-! ### Decoders -/

def textField (fs : List (String × Json)) (name : String) : Option (Option String) :=
  Json.fieldOr fs name none (Json.asOption Json.asString)

def readTransaction (j : Json) : Option TransactionRecord := do
  let fs ← j.structFields ["memo_type", "memo", "ledger"]
  let memoType ← textField fs "memo_type"
  let memo ← textField fs "memo"
  let ledger ← Json.fieldOr fs "ledger" none (Json.asOption Json.asI64)
  return ⟨memoType, memo, ledger⟩

def paymentFields : List String :=
  ["id", "paging_token", "type", "transaction_hash", "transaction_successful", "from", "to",
    "to_muxed", "to_muxed_id", "asset_type", "asset_code", "asset_issuer", "amount",
    "starting_balance", "transaction", "balance_id", "claimant"]

/-- `PaymentRecord` from its fields; `to_muxed_id` must be a string but is not used. -/
def paymentOf (fs : List (String × Json)) : Option PaymentRecord := do
  let id ← Json.field fs "id" Json.asString
  let pagingToken ← Json.field fs "paging_token" Json.asString
  let kind ← Json.field fs "type" Json.asString
  let transactionHash ← textField fs "transaction_hash"
  let transactionSuccessful ← Json.fieldOr fs "transaction_successful" false Json.asBool
  let src ← textField fs "from"
  let dst ← textField fs "to"
  let dstMuxed ← textField fs "to_muxed"
  let _ ← textField fs "to_muxed_id"
  let assetType ← textField fs "asset_type"
  let assetCode ← textField fs "asset_code"
  let assetIssuer ← textField fs "asset_issuer"
  let amount ← textField fs "amount"
  let startingBalance ← textField fs "starting_balance"
  let transaction ← Json.fieldOr fs "transaction" none (Json.asOption readTransaction)
  let balanceId ← textField fs "balance_id"
  let claimant ← textField fs "claimant"
  return { id, pagingToken, kind, transactionHash, transactionSuccessful, src, dst, dstMuxed,
           assetType, assetCode, assetIssuer, amount, startingBalance, transaction, balanceId,
           claimant }

def readPayment (j : Json) : Option PaymentRecord := (j.structFields paymentFields).bind paymentOf

def readEffect (j : Json) : Option EffectRecord := do
  let fs ← j.structFields ["type", "account", "amount", "asset_type", "asset_code", "asset_issuer"]
  let kind ← Json.field fs "type" Json.asString
  let account ← textField fs "account"
  let amount ← textField fs "amount"
  let assetType ← textField fs "asset_type"
  let assetCode ← textField fs "asset_code"
  let assetIssuer ← textField fs "asset_issuer"
  return { kind, account, amount, assetType, assetCode, assetIssuer }

/-! ### Documents -/

inductive Asset
  | native
  | alphanum4 (code issuer : String)
  | alphanum12 (code issuer : String)
  deriving DecidableEq

namespace Asset

def typeText : Asset → String
  | .native => "native"
  | .alphanum4 _ _ => "credit_alphanum4"
  | .alphanum12 _ _ => "credit_alphanum12"

def code : Asset → Option String
  | .native => none
  | .alphanum4 c _ | .alphanum12 c _ => some c

def issuer : Asset → Option String
  | .native => none
  | .alphanum4 _ i | .alphanum12 _ i => some i

def stored (a : Asset) : String × Option String := (a.code.getD "native", a.issuer)

end Asset

inductive DeliveryKind
  | payment
  | pathPaymentStrictSend
  | pathPaymentStrictReceive
  | createAccount
  | claimClaimableBalance (balanceId : String)
  deriving DecidableEq

def DeliveryKind.text : DeliveryKind → String
  | .payment => "payment"
  | .pathPaymentStrictSend => "path_payment_strict_send"
  | .pathPaymentStrictReceive => "path_payment_strict_receive"
  | .createAccount => "create_account"
  | .claimClaimableBalance _ => "claim_claimable_balance"

structure JoinedTransaction where
  memoType : Option String
  memo : Option String

/-- A successful operation that brings a positive amount of an asset from one account to another. -/
structure Delivery where
  kind : DeliveryKind
  id : OperationId
  pagingToken : String
  hash : Option String
  joined : Option JoinedTransaction
  source : String
  destination : String
  muxed : Option (String × String)
  asset : Asset
  stroops : Nat
  stroops_pos : 0 < stroops
  stroops_le : (stroops : Int) ≤ i64Max

/-- An object with these fields, in any order and among others. -/
structure HasFields (expected : List (String × Option Json)) (fields : List (String × Json)) :
    Prop where
  nodup : (fields.map (·.1)).Nodup
  lookup : ∀ f ∈ expected, fields.lookup f.1 = f.2

theorem HasFields.read {expected : List (String × Option Json)} {fields : List (String × Json)}
    (h : HasFields expected fields) (names : List String) :
    ∃ known, structFields names (.obj fields) = some known ∧
      (∀ f ∈ expected, f.1 ∈ names → known.lookup f.1 = f.2) ∧
      ∀ n ∈ names, known.lookup n = fields.lookup n := by
  obtain ⟨known, hk, hl⟩ := structFields_obj names h.nodup
  exact ⟨known, hk, fun f hf hn => (hl _ hn).trans (h.lookup f hf), hl⟩

namespace Delivery

variable (d : Delivery)

def amount : String := amountText d.stroops

def joinedFields (t : JoinedTransaction) : List (String × Option Json) :=
  [("memo_type", t.memoType.map .str), ("memo", t.memo.map .str),
    ("ledger", some (.int d.id.ledger))]

def assetFields : List (String × Option Json) :=
  [("asset_type", some (.str d.asset.typeText)), ("asset_code", d.asset.code.map .str),
    ("asset_issuer", d.asset.issuer.map .str)]

def absent (names : List String) : List (String × Option Json) := names.map (fun n => (n, none))

def paidFields : List (String × Option Json) :=
  [("from", some (.str d.source)), ("to", some (.str d.destination)),
    ("to_muxed", d.muxed.map (fun m => .str m.1)),
    ("to_muxed_id", d.muxed.map (fun m => .str m.2))] ++
    d.assetFields ++ [("amount", some (.str d.amount))] ++ absent ["starting_balance", "balance_id",
      "claimant"]

def createdFields : List (String × Option Json) :=
  [("funder", some (.str d.source)), ("account", some (.str d.destination)),
    ("starting_balance", some (.str d.amount))] ++
    absent ["from", "to", "to_muxed", "to_muxed_id", "asset_type", "asset_code", "asset_issuer",
      "amount", "balance_id", "claimant"]

def claimedFields (balanceId : String) : List (String × Option Json) :=
  [("balance_id", some (.str balanceId)), ("claimant", some (.str d.destination))] ++
    absent ["from", "to", "to_muxed", "to_muxed_id", "asset_type", "asset_code", "asset_issuer",
      "amount", "starting_balance"]

def ownFields : List (String × Option Json) :=
  match d.kind with
  | .createAccount => d.createdFields
  | .claimClaimableBalance balanceId => d.claimedFields balanceId
  | _ => d.paidFields

/-- The fields of the operation's document, but for the joined transaction. -/
def documented : List (String × Option Json) :=
  [("id", some (.str d.id.text)), ("paging_token", some (.str d.pagingToken)),
    ("type", some (.str d.kind.text)), ("transaction_hash", d.hash.map .str),
    ("transaction_successful", some (.bool true))] ++ d.ownFields

/-- A Horizon document of the delivery. -/
structure Document (fields : List (String × Json)) :
    Prop extends HasFields d.documented fields where
  joined : match d.joined with
    | none => fields.lookup "transaction" = none
    | some t => ∃ sub, fields.lookup "transaction" = some (.obj sub) ∧
        HasFields (d.joinedFields t) sub

def effectFields : List (String × Option Json) :=
  [("type", some (.str "account_credited")), ("account", some (.str d.destination)),
    ("amount", some (.str d.amount))] ++ d.assetFields

/-! ### What is decoded -/

def transactionRecord (t : JoinedTransaction) : TransactionRecord :=
  ⟨t.memoType, t.memo, some d.id.ledger⟩

def commonRecord : PaymentRecord where
  id := d.id.text
  pagingToken := d.pagingToken
  kind := d.kind.text
  transactionHash := d.hash
  transactionSuccessful := true
  transaction := d.joined.map d.transactionRecord

def paidRecord : PaymentRecord :=
  { d.commonRecord with
    src := some d.source, dst := some d.destination, dstMuxed := d.muxed.map (·.1),
    amount := some d.amount
    assetType := some d.asset.typeText, assetCode := d.asset.code, assetIssuer := d.asset.issuer }

def createdRecord : PaymentRecord := { d.commonRecord with startingBalance := some d.amount }

def claimedRecord (balanceId : String) : PaymentRecord :=
  { d.commonRecord with balanceId := some balanceId, claimant := some d.destination }

def record : PaymentRecord :=
  match d.kind with
  | .createAccount => d.createdRecord
  | .claimClaimableBalance balanceId => d.claimedRecord balanceId
  | _ => d.paidRecord

def effect : EffectRecord where
  kind := "account_credited"
  account := some d.destination
  amount := some d.amount
  assetType := some d.asset.typeText
  assetCode := d.asset.code
  assetIssuer := d.asset.issuer

variable {fs : List (String × Json)}

theorem textField_eq {name : String} {v : Option String}
    (h : fs.lookup name = v.map .str) : textField fs name = some v := by
  unfold textField fieldOr
  rw [h]
  cases v <;> rfl

theorem field_text {name v : String} (h : fs.lookup name = some (.str v)) :
    field fs name asString = some v := by
  rw [field, h]
  rfl

theorem readTransaction_documented {t : JoinedTransaction} {sub : List (String × Json)}
    (h : HasFields (d.joinedFields t) sub) :
    readTransaction (.obj sub) = some (d.transactionRecord t) := by
  obtain ⟨_, hk, hl, -⟩ := h.read ["memo_type", "memo", "ledger"]
  simp only [joinedFields, forall_mem_cons, not_mem_nil] at hl
  obtain ⟨hmemoType, hmemo, hledger⟩ := hl
  have hi64 : -9223372036854775808 ≤ (d.id.ledger : Int) ∧
      (d.id.ledger : Int) ≤ 9223372036854775807 := by
    have := d.id.ledger_lt
    omega
  unfold readTransaction
  rw [hk]
  simp only [Option.bind_eq_bind, Option.bind_some]
  rw [textField_eq (hmemoType (by simp)), textField_eq (hmemo (by simp))]
  simp [fieldOr, hledger, asOption, asI64, hi64, transactionRecord]

theorem readEffect_documented {fields : List (String × Json)}
    (h : HasFields d.effectFields fields) : readEffect (.obj fields) = some d.effect := by
  obtain ⟨_, hk, hl, -⟩ :=
    h.read ["type", "account", "amount", "asset_type", "asset_code", "asset_issuer"]
  simp only [effectFields, assetFields, cons_append, nil_append, forall_mem_cons, not_mem_nil,
    false_implies, implies_true, and_true] at hl
  obtain ⟨htype, haccount, hamount, hassetType, hcode, hissuer⟩ := hl
  unfold readEffect
  rw [hk]
  simp only [Option.bind_eq_bind, Option.bind_some]
  rw [field_text (htype (by simp)), textField_eq (v := some d.destination) (haccount (by simp)),
    textField_eq (v := some d.amount) (hamount (by simp)),
    textField_eq (v := some d.asset.typeText) (hassetType (by simp)),
    textField_eq (hcode (by simp)), textField_eq (hissuer (by simp))]
  rfl

/-- The fields that the record is read from. -/
structure Spells (fs : List (String × Json)) (r : PaymentRecord) : Prop where
  id : fs.lookup "id" = some (.str r.id)
  pagingToken : fs.lookup "paging_token" = some (.str r.pagingToken)
  kind : fs.lookup "type" = some (.str r.kind)
  transactionHash : fs.lookup "transaction_hash" = r.transactionHash.map .str
  transactionSuccessful : fs.lookup "transaction_successful" = some (.bool r.transactionSuccessful)
  src : fs.lookup "from" = r.src.map .str
  dst : fs.lookup "to" = r.dst.map .str
  dstMuxed : fs.lookup "to_muxed" = r.dstMuxed.map .str
  dstMuxedId : ∃ v : Option String, fs.lookup "to_muxed_id" = v.map .str
  assetType : fs.lookup "asset_type" = r.assetType.map .str
  assetCode : fs.lookup "asset_code" = r.assetCode.map .str
  assetIssuer : fs.lookup "asset_issuer" = r.assetIssuer.map .str
  amount : fs.lookup "amount" = r.amount.map .str
  startingBalance : fs.lookup "starting_balance" = r.startingBalance.map .str
  transaction : Json.fieldOr fs "transaction" none (Json.asOption readTransaction) =
    some r.transaction
  balanceId : fs.lookup "balance_id" = r.balanceId.map .str
  claimant : fs.lookup "claimant" = r.claimant.map .str

theorem Spells.read {r : PaymentRecord} (h : Spells fs r) : paymentOf fs = some r := by
  obtain ⟨_, hm⟩ := h.dstMuxedId
  have hsuccess : fieldOr fs "transaction_successful" false asBool =
      some r.transactionSuccessful := by
    rw [fieldOr, h.transactionSuccessful]
    rfl
  unfold paymentOf
  rw [field_text h.id, field_text h.pagingToken, field_text h.kind, textField_eq h.transactionHash,
    hsuccess, textField_eq h.src, textField_eq h.dst, textField_eq h.dstMuxed, textField_eq hm,
    textField_eq h.assetType, textField_eq h.assetCode, textField_eq h.assetIssuer,
    textField_eq h.amount, textField_eq h.startingBalance, h.transaction, textField_eq h.balanceId,
    textField_eq h.claimant]
  rfl

theorem joined_documented {fields fs : List (String × Json)} (h : d.Document fields)
    (hfs : fs.lookup "transaction" = fields.lookup "transaction") :
    fieldOr fs "transaction" none (asOption readTransaction) =
      some (d.joined.map d.transactionRecord) := by
  have hj := h.joined
  unfold fieldOr
  rw [hfs]
  cases ht : d.joined with
  | none =>
    rw [ht] at hj
    rw [hj]
    rfl
  | some =>
    rw [ht] at hj
    obtain ⟨sub, hsub, hsubFields⟩ := hj
    rw [hsub]
    show (readTransaction (.obj sub)).map some = _
    rw [readTransaction_documented d hsubFields]
    rfl

section

variable {fields fs : List (String × Json)}

def Finds (own : List (String × Option Json)) (fs : List (String × Json)) : Prop :=
  (∀ n v, (n, v) ∈ own → n ∈ paymentFields → fs.lookup n = v) ∧
  fs.lookup "id" = some (.str d.id.text) ∧ fs.lookup "paging_token" = some (.str d.pagingToken) ∧
  fs.lookup "type" = some (.str d.kind.text) ∧ fs.lookup "transaction_hash" = d.hash.map .str ∧
  fs.lookup "transaction_successful" = some (.bool true) ∧
  Json.fieldOr fs "transaction" none (Json.asOption readTransaction) =
    some (d.joined.map d.transactionRecord)

variable {d}

theorem spells_paid (h : d.Finds d.paidFields fs) : Spells fs d.paidRecord := by
  obtain ⟨hown, hid, htoken, htype, hhash, hsuccess, htx⟩ := h
  have hmuxed := hown "to_muxed" (d.paidRecord.dstMuxed.map .str)
    (by simp [paidFields, paidRecord, Function.comp_def]) (by decide)
  have hmuxedId := hown "to_muxed_id" ((d.muxed.map (·.2)).map .str)
    (by simp [paidFields, Function.comp_def]) (by decide)
  refine ⟨hid, htoken, htype, hhash, hsuccess, ?_, ?_, hmuxed, ⟨_, hmuxedId⟩, ?_, ?_, ?_, ?_, ?_,
    htx, ?_, ?_⟩
  all_goals
    refine hown _ _ ?_ (by decide)
    simp [paidFields, paidRecord, commonRecord, assetFields, absent]

theorem spells_created (h : d.Finds d.createdFields fs) : Spells fs d.createdRecord := by
  obtain ⟨hown, hid, htoken, htype, hhash, hsuccess, htx⟩ := h
  have hmuxedId := hown "to_muxed_id" ((none : Option String).map .str)
    (by simp [createdFields, absent]) (by decide)
  refine ⟨hid, htoken, htype, hhash, hsuccess, ?_, ?_, ?_, ⟨_, hmuxedId⟩, ?_, ?_, ?_, ?_, ?_,
    htx, ?_, ?_⟩
  all_goals
    refine hown _ _ ?_ (by decide)
    simp [createdFields, createdRecord, commonRecord, absent]

theorem spells_claimed {balanceId : String} (h : d.Finds (d.claimedFields balanceId) fs) :
    Spells fs (d.claimedRecord balanceId) := by
  obtain ⟨hown, hid, htoken, htype, hhash, hsuccess, htx⟩ := h
  have hmuxedId := hown "to_muxed_id" ((none : Option String).map .str)
    (by simp [claimedFields, absent]) (by decide)
  refine ⟨hid, htoken, htype, hhash, hsuccess, ?_, ?_, ?_, ⟨_, hmuxedId⟩, ?_, ?_, ?_, ?_, ?_,
    htx, ?_, ?_⟩
  all_goals
    refine hown _ _ ?_ (by decide)
    simp [claimedFields, claimedRecord, commonRecord, absent]

theorem finds_documented (h : d.Document fields) :
    ∃ fs, structFields paymentFields (.obj fields) = some fs ∧ d.Finds d.ownFields fs := by
  obtain ⟨fs, hfs, hl, hall⟩ := h.toHasFields.read paymentFields
  have hfield : ∀ n v, (n, v) ∈ d.documented → n ∈ paymentFields → fs.lookup n = v :=
    fun n v => hl (n, v)
  refine ⟨fs, hfs, fun n v hm => hfield n v (mem_append_right _ hm), ?_⟩
  refine ⟨?_, ?_, ?_, ?_, ?_, joined_documented d h (hall "transaction" (by decide))⟩
  all_goals
    refine hfield _ _ (mem_append_left _ ?_) (by decide)
    simp

theorem readPayment_documented (h : d.Document fields) :
    readPayment (.obj fields) = some d.record := by
  obtain ⟨fs, hfs, hfinds⟩ := finds_documented h
  rw [readPayment, hfs]
  refine Spells.read ?_
  unfold ownFields at hfinds
  unfold record
  split at hfinds
  · exact spells_created hfinds
  · exact spells_claimed hfinds
  · exact spells_paid hfinds

end

end Delivery

end Octo.Ingest
