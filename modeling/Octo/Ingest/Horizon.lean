import Octo.Ingest.Text

/-!
# Horizon as the ingest worker sees it

The record types of `crates/ingest/src/horizon.rs` and Horizon itself, which is outside the
repository: `Horizon` is one immutable list of operations per account, the effects of every
operation and the operations of every claimable balance.  `Horizon.Lawful` is what the code
relies on.  Paging tokens are operation ids, and a page (or a stream) goes on right after the
requested cursor (`Horizon.after`).
-/

namespace Octo

open List

structure TransactionRecord where
  memoType : Option String := none
  memo : Option String := none
  ledger : Option Int := none
  deriving DecidableEq

structure PaymentRecord where
  id : String
  pagingToken : String
  kind : String
  transactionHash : Option String := none
  transactionSuccessful : Bool := false
  src : Option String := none
  dst : Option String := none
  dstMuxed : Option String := none
  assetType : Option String := none
  assetCode : Option String := none
  assetIssuer : Option String := none
  amount : Option String := none
  startingBalance : Option String := none
  transaction : Option TransactionRecord := none
  balanceId : Option String := none
  claimant : Option String := none
  deriving DecidableEq

/-- The fields of an operation effect used to read what a claim credited. -/
structure EffectRecord where
  kind : String
  account : Option String := none
  amount : Option String := none
  assetType : Option String := none
  assetCode : Option String := none
  assetIssuer : Option String := none
  deriving DecidableEq

structure ClaimCredit where
  amount : String
  assetType : Option String
  assetCode : Option String
  assetIssuer : Option String
  deriving DecidableEq

/-- Who created a claimable balance, and the transaction that created it. -/
structure ClaimOrigin where
  kind : String
  sourceAccount : Option String := none
  transaction : Option TransactionRecord := none
  deriving DecidableEq

structure Horizon where
  operations : String → List PaymentRecord
  effects : String → List EffectRecord
  balanceOperations : String → List ClaimOrigin

/-- Horizon's operation lists are ordered by id, an operation is the same record in every
account's list, and its hash names its transaction: operations with one hash agree in ledger and
transaction order, the bits of the id above the low twelve. -/
structure Horizon.Lawful (hz : Horizon) : Prop where
  ordered : ∀ acct, (hz.operations acct).Pairwise (fun r r' => tokenValue r.id < tokenValue r'.id)
  token : ∀ acct, ∀ r ∈ hz.operations acct, r.pagingToken = r.id
  same : ∀ a b, ∀ r ∈ hz.operations a, ∀ r' ∈ hz.operations b, tokenValue r.id = tokenValue r'.id →
    r = r'
  hash : ∀ acct, ∀ r ∈ hz.operations acct, r.transactionHash.isSome
  hash_tx : ∀ a b, ∀ r ∈ hz.operations a, ∀ r' ∈ hz.operations b,
    r.transactionHash = r'.transactionHash → tokenValue r.id / 2 ^ 12 = tokenValue r'.id / 2 ^ 12

def Horizon.after (hz : Horizon) (acct : String) (cursor : Option String) : List PaymentRecord :=
  (hz.operations acct).filter (fun r =>
    cursor.all (fun c => tokenValue c < tokenValue r.pagingToken))

/-- `HorizonPayments::claim_credit`, on the effects Horizon lists for the operation. -/
def claimCreditOf (effects : List EffectRecord) (accountG : String) : Option ClaimCredit :=
  (effects.find? (fun e => e.kind == "account_credited" && e.account == some accountG)).bind
    (fun e => e.amount.map (fun amount => ⟨amount, e.assetType, e.assetCode, e.assetIssuer⟩))

/-- `HorizonPayments::claimable_balance_origin`, on the operations of the balance. -/
def claimableBalanceOriginOf (ops : List ClaimOrigin) : Option ClaimOrigin :=
  ops.head?.filter (fun op => op.kind == "create_claimable_balance")

namespace Horizon

variable {hz : Horizon} {cursor : Option String} {r : PaymentRecord} {acct : String}

def upTo (cursor : Option String) (r : PaymentRecord) : Prop :=
  ∃ c, cursor = some c ∧ tokenValue r.pagingToken ≤ tokenValue c

theorem mem_after : r ∈ hz.after acct cursor ↔ r ∈ hz.operations acct ∧ ¬ upTo cursor r := by
  simp only [after, upTo]
  cases cursor with
  | none => simp
  | some => simp

theorem after_pairwise (h : hz.Lawful) (acct : String) (cursor : Option String) :
    (hz.after acct cursor).Pairwise
      (fun r r' => tokenValue r.pagingToken < tokenValue r'.pagingToken) := by
  refine List.Pairwise.imp_of_mem ?_ ((h.ordered acct).filter _)
  intro r r' hr hr' hlt
  rw [h.token acct r (mem_of_mem_filter hr), h.token acct r' (mem_of_mem_filter hr')]
  exact hlt

/-- **Walking a page**: an operation up to the record reached is up to the cursor the page was
requested with, or is in the part of the page already walked. -/
theorem after_step (h : hz.Lawful) {done rest : List PaymentRecord} {rec : PaymentRecord}
    (hp : done ++ rec :: rest <+: hz.after acct cursor) (hr : r ∈ hz.operations acct)
    (hle : upTo (some rec.pagingToken) r) : upTo cursor r ∨ r ∈ done ∨ r = rec := by
  by_cases hc : upTo cursor r
  · exact .inl hc
  · right
    obtain ⟨c, hc', hle⟩ := hle
    rw [← Option.some.inj hc'] at hle
    obtain ⟨_, ht⟩ := hp
    have hmem : r ∈ hz.after acct cursor := mem_after.mpr ⟨hr, hc⟩
    have hpw := after_pairwise h acct cursor
    rw [← ht, append_assoc, mem_append] at hmem
    rw [← ht, append_assoc, pairwise_append] at hpw
    rcases hmem with hd | hd
    · exact .inl hd
    · right
      rw [cons_append, mem_cons] at hd
      rcases hd with rfl | hd
      · rfl
      · -- a later record of the page would have a larger token
        have := (pairwise_cons.mp hpw.2.1).1 r hd
        omega

end Horizon

end Octo
