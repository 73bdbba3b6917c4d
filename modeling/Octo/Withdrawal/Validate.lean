import Octo.Api.Error
import Octo.Wallet.KnownEnvelope

/-!
# Validating a client-signed transaction

`crates/api/src/submit_validation.rs`.  The validator goes through the operations once, checks each
one's source and type, and keeps a summary of the first Payment.
-/

namespace Octo.Withdrawal

open Octo.Api List

structure PaymentSummary where
  destination : String
  amountStroops : Int
  assetCode : String
  assetIssuer : Option String
  maxTime : Option Int
  deriving DecidableEq

def allowedOpTypes : List String :=
  ["Payment", "PathPaymentStrictSend", "PathPaymentStrictReceive", "ChangeTrust"]

/-- The upper time bound on the wire: 0 means none, and a value beyond `i64` is dropped. -/
def upperBound (bounds : TimeBounds) : Option Int :=
  if bounds.maxTime.toNat = 0 then none
  else if (bounds.maxTime.toNat : Int) ≤ i64Max then some bounds.maxTime.toNat
  else none

def txMaxTime : Preconditions → Option Int
  | .none => none
  | .time tb => upperBound tb
  | .v2 timeBounds => timeBounds.bind upperBound

section

variable (sk : Strkey) (x : Xdr)

def sourceMatches (source : MuxedAccount) (accountG : String) : Bool :=
  match sk.publicKeyFromString accountG with
  | none => false
  | some pk => source.key.bytes == pk

def muxedToString : MuxedAccount → String
  | .ed25519 k => sk.publicKeyToString k.bytes
  | .muxedEd25519 id k => sk.muxedToString k.bytes id.toNat

def trimmedCode (bytes : List UInt8) : String :=
  String.ofList ((x.fromUtf8Lossy bytes).reverse.dropWhile (· == '\x00')).reverse

def assetParts : Asset → String × Option String
  | .native => ("native", none)
  | .creditAlphanum4 code issuer => (trimmedCode x code, some (sk.publicKeyToString issuer.bytes))
  | .creditAlphanum12 code issuer => (trimmedCode x code, some (sk.publicKeyToString issuer.bytes))

def summarise (maxTime : Option Int) (destination : MuxedAccount) (asset : Asset) (amount : Int) :
    PaymentSummary where
  destination := muxedToString sk destination
  amountStroops := amount
  assetCode := (assetParts sk x asset).1
  assetIssuer := (assetParts sk x asset).2
  maxTime := maxTime

def validateOps (walletAccountG : String) (maxTime : Option Int) :
    List Operation → Option PaymentSummary → Except ApiError (Option PaymentSummary)
  | [], summary => .ok summary
  | op :: ops, summary =>
    if op.sourceAccount.any (fun src => !sourceMatches sk src walletAccountG) then
      .error (.badRequest "operation source must be this wallet's account")
    else
      match op.body with
      | .payment destination asset amount =>
        validateOps walletAccountG maxTime ops
          (if summary.isNone then some (summarise sk x maxTime destination asset amount)
            else summary)
      | .pathPaymentStrictSend _ | .pathPaymentStrictReceive _ | .changeTrust =>
        validateOps walletAccountG maxTime ops summary
      | .other o =>
        .error (.badRequest ("op_not_allowed: operation type '" ++ opTypeName (.other o)
          ++ "' is not allowed in a client submission; allowed types: "
          ++ ", ".intercalate allowedOpTypes))

def validateSignedXdr (signedXdr walletAccountG : String) :
    Except ApiError (Option PaymentSummary) :=
  match x.fromXdrBase64 signedXdr with
  | none => .error (.badRequest "transaction_xdr is not valid base64 XDR")
  | some (.tx v1) =>
    if v1.signatures.isEmpty then
      .error (.badRequest "transaction_xdr carries no signatures; sign it client-side first")
    else if !sourceMatches sk v1.tx.sourceAccount walletAccountG then
      .error (.badRequest "transaction source must be this wallet's account")
    else validateOps sk x walletAccountG (txMaxTime v1.tx.cond) v1.tx.operations none
  | some _ => .error (.badRequest "transaction_xdr must be a v1 TransactionEnvelope")

end

/-! ### The summary is that of the first Payment -/

def firstPayment (tx : TransactionV1) : Option (MuxedAccount × Asset × Int) :=
  tx.operations.findSome? (fun op => op.body.payment?)

/-- The destinations of all payments of a transaction, of whichever kind. -/
def destinations (tx : TransactionV1) : List MuxedAccount :=
  tx.operations.filterMap (fun op => op.body.destination?)

variable {sk : Strkey} {x : Xdr}

variable {acct xdr : String} {maxTime : Option Int} {ops : List Operation}
  {result : Option PaymentSummary} {op : Operation} {summary : Option PaymentSummary}

theorem validateOps_ok (h : validateOps sk x acct maxTime ops summary = .ok result) :
    result = summary.or ((ops.findSome? (fun op => op.body.payment?)).map
      (fun p => summarise sk x maxTime p.1 p.2.1 p.2.2)) := by
  induction ops generalizing summary with
  | nil =>
    rw [← Except.ok.inj h]
    simp
  | cons op ops ih =>
    unfold validateOps at h
    split at h
    · cases h
    · split at h
      · rename_i hb
        rw [ih h, findSome?_cons, hb]
        cases summary <;> rfl
      · rename_i hb
        rw [ih h, findSome?_cons, hb]
        rfl
      · rename_i hb
        rw [ih h, findSome?_cons, hb]
        rfl
      · rename_i hb
        rw [ih h, findSome?_cons, hb]
        rfl
      · cases h

/-- What an accepted envelope looks like, and that the summary is that of its first Payment and of
nothing else. -/
theorem validateSignedXdr_ok (h : validateSignedXdr sk x xdr acct = .ok result) :
    ∃ v1, x.fromXdrBase64 xdr = some (.tx v1) ∧ result = (firstPayment v1.tx).map (fun p =>
        summarise sk x (txMaxTime v1.tx.cond) p.1 p.2.1 p.2.2) := by
  unfold validateSignedXdr at h
  split at h
  · cases h
  · rename_i v1 hx
    split at h
    · cases h
    · split at h
      · cases h
      · refine ⟨v1, hx, ?_⟩
        rw [validateOps_ok h]
        rfl
  · cases h

def OpAllowed (sk : Strkey) (acct : String) (op : Operation) : Prop :=
  (∀ src, op.sourceAccount = some src → sourceMatches sk src acct = true) ∧ ∀ o, op.body ≠ .other o

theorem validateOps_accepts (h : ∀ op ∈ ops, OpAllowed sk acct op)
    (summary : Option PaymentSummary) :
    ∃ result, validateOps sk x acct maxTime ops summary = .ok result := by
  induction ops generalizing summary with
  | nil => exact ⟨summary, rfl⟩
  | cons op ops ih =>
    obtain ⟨hsrc, hbody⟩ := h op mem_cons_self
    have hrest := ih (forall_mem_cons.mp h).2
    have hs : op.sourceAccount.any (fun src => !sourceMatches sk src acct) = false := by
      cases ho : op.sourceAccount with
      | none => rfl
      | some src => simp [hsrc src ho]
    unfold validateOps
    rw [hs]
    simp only [Bool.false_eq_true, if_false]
    split
    · exact hrest _
    · exact hrest _
    · exact hrest _
    · exact hrest _
    · rename_i o hb
      exact absurd hb (hbody o)

theorem validateSignedXdr_accepts {v1 : TransactionV1Envelope}
    (hx : x.fromXdrBase64 xdr = some (.tx v1)) (hsig : v1.signatures ≠ [])
    (hsrc : sourceMatches sk v1.tx.sourceAccount acct = true)
    (hops : ∀ op ∈ v1.tx.operations, OpAllowed sk acct op) :
    ∃ result, validateSignedXdr sk x xdr acct = .ok result := by
  unfold validateSignedXdr
  rw [hx]
  simp only [List.isEmpty_iff, hsig, if_false, hsrc, Bool.not_true]
  exact validateOps_accepts hops none

/-! ### Acceptance, exactly -/

/-- The account `accountG` is the one under `source`, which may be written plain or muxed. -/
def BaseAccount (sk : Strkey) (source : MuxedAccount) (accountG : String) : Prop :=
  sk.publicKeyFromString accountG = some source.key.bytes

theorem sourceMatches_iff {source : MuxedAccount} :
    sourceMatches sk source acct = true ↔ BaseAccount sk source acct := by
  unfold sourceMatches BaseAccount
  cases sk.publicKeyFromString acct with
  | none => simp
  | some =>
    rw [Option.some.injEq]
    exact beq_iff_eq.trans eq_comm

/-- The operations a client may have relayed: a Payment, a path payment, a ChangeTrust. -/
inductive Relayable : OperationBody → Prop
  | payment (destination : MuxedAccount) (asset : Asset) (amount : Int) :
      Relayable (.payment destination asset amount)
  | pathPaymentStrictReceive (destination : MuxedAccount) :
      Relayable (.pathPaymentStrictReceive destination)
  | pathPaymentStrictSend (destination : MuxedAccount) :
      Relayable (.pathPaymentStrictSend destination)
  | changeTrust : Relayable .changeTrust

theorem relayable_iff {body : OperationBody} : Relayable body ↔ ∀ o, body ≠ .other o := by
  constructor
  · rintro h o rfl
    cases h
  · intro h
    cases body with
    | payment d a n => exact .payment d a n
    | pathPaymentStrictReceive d => exact .pathPaymentStrictReceive d
    | pathPaymentStrictSend d => exact .pathPaymentStrictSend d
    | changeTrust => exact .changeTrust
    | other o => exact absurd rfl (h o)

/-- A signed v1 envelope that spends from the wallet only, by operations of the four kinds. -/
structure Acceptable (sk : Strkey) (acct : String) (v1 : TransactionV1Envelope) : Prop where
  signed : v1.signatures ≠ []
  source : BaseAccount sk v1.tx.sourceAccount acct
  sources : ∀ op ∈ v1.tx.operations, ∀ src, op.sourceAccount = some src → BaseAccount sk src acct
  kinds : ∀ op ∈ v1.tx.operations, Relayable op.body

def IsPayment (op : Operation) : Prop :=
  ∃ destination asset amount, op.body = .payment destination asset amount

/-- The summary is that of the first Payment, and there is none if there is no Payment. -/
def DescribesFirst (sk : Strkey) (x : Xdr) (tx : TransactionV1) : Option PaymentSummary → Prop
  | none => ∀ op ∈ tx.operations, ¬ IsPayment op
  | some s => ∃ before op after destination asset amount,
      tx.operations = before ++ op :: after ∧ (∀ o ∈ before, ¬ IsPayment o) ∧
      op.body = .payment destination asset amount ∧
      s.destination = muxedToString sk destination ∧ s.amountStroops = amount ∧
      (s.assetCode, s.assetIssuer) = assetParts sk x asset ∧ s.maxTime = txMaxTime tx.cond

theorem payment?_eq_some {p : MuxedAccount × Asset × Int} :
    op.body.payment? = some p ↔ op.body = .payment p.1 p.2.1 p.2.2 := by
  obtain ⟨src, body⟩ := op
  cases body <;> simp [OperationBody.payment?, Prod.ext_iff]

theorem payment?_eq_none : op.body.payment? = none ↔ ¬ IsPayment op := by
  obtain ⟨src, body⟩ := op
  cases body <;> simp [OperationBody.payment?, IsPayment]

theorem describesFirst_firstPayment (tx : TransactionV1) :
    DescribesFirst sk x tx ((firstPayment tx).map (fun p =>
      summarise sk x (txMaxTime tx.cond) p.1 p.2.1 p.2.2)) := by
  cases hp : firstPayment tx with
  | none =>
    intro op hop
    exact payment?_eq_none.mp (findSome?_eq_none_iff.mp hp op hop)
  | some p =>
    obtain ⟨before, op, after, hops, hbody, hbefore⟩ := findSome?_eq_some_iff.mp hp
    exact ⟨before, op, after, p.1, p.2.1, p.2.2, hops,
      fun o ho => payment?_eq_none.mp (hbefore o ho), payment?_eq_some.mp hbody, rfl, rfl, rfl, rfl⟩

theorem validateOps_allowed (h : validateOps sk x acct maxTime ops summary = .ok result) :
    ∀ op ∈ ops, OpAllowed sk acct op := by
  induction ops generalizing summary with
  | nil =>
    intro op hop
    cases hop
  | cons op ops ih =>
    unfold validateOps at h
    split at h
    · cases h
    rename_i hsrc
    have hsources : ∀ src, op.sourceAccount = some src → sourceMatches sk src acct = true := by
      intro src hs
      simpa [hs] using hsrc
    -- every branch that goes on has an operation of one of the four kinds at its head
    have hcons : (∀ o, op.body ≠ .other o) → (∀ op' ∈ ops, OpAllowed sk acct op') →
        ∀ op' ∈ op :: ops, OpAllowed sk acct op' := by
      intro hbody hrest
      exact forall_mem_cons.mpr ⟨⟨hsources, hbody⟩, hrest⟩
    split at h
    · rename_i hb
      exact hcons (by simp [hb]) (ih h)
    · rename_i hb
      exact hcons (by simp [hb]) (ih h)
    · rename_i hb
      exact hcons (by simp [hb]) (ih h)
    · rename_i hb
      exact hcons (by simp [hb]) (ih h)
    · cases h

theorem opAllowed_iff : OpAllowed sk acct op ↔
      (∀ src, op.sourceAccount = some src → BaseAccount sk src acct) ∧ Relayable op.body := by
  simp only [OpAllowed, sourceMatches_iff, relayable_iff]

/-- **An envelope is accepted exactly if it is acceptable.** -/
theorem accepts_iff {env : TransactionEnvelope} (hx : x.fromXdrBase64 xdr = some env) :
    (∃ summary, validateSignedXdr sk x xdr acct = .ok summary) ↔ ∃ v1, env = .tx v1 ∧
    Acceptable sk acct v1 := by
  constructor
  · rintro ⟨_, h⟩
    unfold validateSignedXdr at h
    rw [hx] at h
    split at h
    · cases h
    · rename_i v1 henv
      cases henv
      split at h
      · cases h
      rename_i hsig
      split at h
      · cases h
      rename_i hsrc
      have hops := validateOps_allowed h
      exact ⟨v1, rfl, by simpa using hsig, sourceMatches_iff.mp (by simpa using hsrc),
        fun op hop => (opAllowed_iff.mp (hops op hop)).1,
        fun op hop => (opAllowed_iff.mp (hops op hop)).2⟩
    · cases h
  · rintro ⟨v1, rfl, ha⟩
    exact validateSignedXdr_accepts hx ha.signed (sourceMatches_iff.mpr ha.source)
      (fun op hop => opAllowed_iff.mpr ⟨ha.sources op hop, ha.kinds op hop⟩)

/-- **The validation is exact.**  A decoded envelope is accepted if and only if it is a signed v1
envelope that spends from the wallet only, by operations of the four kinds; and the summary
describes its first Payment. -/
theorem validateSignedXdr_exact {xdr acct : String} {env : TransactionEnvelope}
    (hx : x.fromXdrBase64 xdr = some env) :
    ((∃ summary, validateSignedXdr sk x xdr acct = .ok summary) ↔ ∃ v1, env = .tx v1 ∧
      Acceptable sk acct v1) ∧
    ∀ summary, validateSignedXdr sk x xdr acct = .ok summary →
      ∃ v1, env = .tx v1 ∧ DescribesFirst sk x v1.tx summary := by
  refine ⟨accepts_iff hx, fun summary h => ?_⟩
  obtain ⟨v1, hv1, rfl⟩ := validateSignedXdr_ok h
  exact ⟨v1, Option.some.inj (hx.symm.trans hv1), describesFirst_firstPayment v1.tx⟩

/-- The transaction of account 1 is accepted for account 1, and for no other. -/
theorem onePayment_relayed :
    onePayment.codec.fromXdrBase64 onePayment.text = some (.tx onePayment.envelope) ∧
    (∃ summary, validateSignedXdr sep23 onePayment.codec onePayment.text (exampleAccountG 1) =
      .ok summary) ∧
    ¬ ∃ summary, validateSignedXdr sep23 onePayment.codec onePayment.text (exampleAccountG 4) =
      .ok summary := by
  have hx := onePayment.fromXdrBase64
  have hkey : ∀ b, sep23.publicKeyFromString (exampleAccountG b) = some (exampleKey b).bytes :=
    fun b => sep23_lawful.publicKey_roundTrip _ (exampleKey b).length_eq
  refine ⟨hx, (validateSignedXdr_exact hx).1.mpr ⟨_, rfl, ?_⟩, fun h => ?_⟩
  · refine ⟨List.cons_ne_nil _ _, hkey 1, ?_, ?_⟩
    · intro op hop src hsrc
      obtain rfl := List.mem_singleton.mp hop
      cases hsrc
    · intro op hop
      obtain rfl := List.mem_singleton.mp hop
      exact .payment _ _ _
  · obtain ⟨v1, henv, ha⟩ := (validateSignedXdr_exact hx).1.mp h
    obtain rfl := TransactionEnvelope.tx.inj henv
    have hsame : some (exampleKey 4).bytes = some (exampleKey 1).bytes :=
      (hkey 4).symm.trans ha.source
    revert hsame
    decide

end Octo.Withdrawal
