import Octo.Sponsor.DryRun

/-!
# Whose transaction is sponsored

`validate_inner_xdr` looks at the source of the inner transaction and at the kinds of its
operations, but not at the sources the operations may name for themselves.  `preflight` then
compares the inner sequence number with that of the wallet's own account, which is never the source
of an accepted transaction.

* `validateInnerXdr_iff`: what is accepted; `accepted_sources`: what follows for the effective
  sources.
* `rejectsStale_iff`: what the preflight rejects as stale; `stale_as_source_iff`: when that is
  right.
-/

namespace Octo.Sponsor

open Conc Octo.Api Resilience List
open Octo.Withdrawal (BaseAccount sourceMatches_iff)

variable {sk : Strkey} {x : Xdr} {walletAllowlist : Option (List String)} {b b' : UInt8} {seq : Int}

/-! ### What is accepted -/

/-- The operation is of a type on the global list, and on the wallet's list if there is one. -/
def OpListed (walletAllowlist : Option (List String)) (op : Operation) : Prop :=
  opTypeName op.body ∈ allowedOpTypes ∧
    ∀ allowed, walletAllowlist = some allowed → opTypeName op.body ∈ allowed

theorem isOpAllowed_iff (body : OperationBody) :
    isOpAllowed body = true ↔ opTypeName body ∈ allowedOpTypes := by
  cases body with
  | payment => exact iff_of_true rfl (show "Payment" ∈ allowedOpTypes by decide)
  | pathPaymentStrictReceive =>
    exact iff_of_true rfl (show "PathPaymentStrictReceive" ∈ allowedOpTypes by decide)
  | pathPaymentStrictSend =>
    exact iff_of_true rfl (show "PathPaymentStrictSend" ∈ allowedOpTypes by decide)
  | changeTrust => exact iff_of_false (by decide) (by decide)
  | other o => exact iff_of_false Bool.false_ne_true (by cases o <;> decide)

theorem validateOps_iff {ops : List Operation} :
    validateOps walletAllowlist ops = .ok () ↔ ∀ op ∈ ops, OpListed walletAllowlist op := by
  induction ops with
  | nil => exact iff_of_true rfl (forall_mem_nil _)
  | cons op ops ih =>
    unfold validateOps
    rw [forall_mem_cons, ← ih, OpListed, ← isOpAllowed_iff]
    cases isOpAllowed op.body with
    | false => simp
    | true =>
      cases walletAllowlist with
      | none => simp
      | some allowed =>
        by_cases hname : opTypeName op.body ∈ allowed
        · simp [hname]
        · simp [hname]

theorem validateInnerXdr_iff {innerXdr master : String} :
    validateInnerXdr sk x innerXdr master walletAllowlist = .ok () ↔
      ∃ v1, x.fromXdrBase64 innerXdr = some (.tx v1) ∧ ¬ BaseAccount sk v1.tx.sourceAccount master ∧
        ∀ op ∈ v1.tx.operations, OpListed walletAllowlist op := by
  unfold validateInnerXdr
  split
  · rename_i hx
    simp [hx]
  · rename_i hx
    simp only [← validateOps_iff, ← sourceMatches_iff]
    split
    · rename_i hsrc
      simp [hx, hsrc]
    · rename_i hsrc
      simp [hx, hsrc]
  · rename_i hno hx
    refine iff_of_false (by simp) ?_
    rintro ⟨v1, hv1, -⟩
    exact hno v1 (Option.some.inj (hx.symm.trans hv1))

/-! ### Effective sources -/

/-- The account an operation acts for: its own source, else that of the transaction. -/
def effectiveSource (tx : TransactionV1) (op : Operation) : MuxedAccount :=
  op.sourceAccount.getD tx.sourceAccount

/-- **What acceptance says about the sources.**  The transaction is not the master account's, and
its operations are of the listed types.  An operation acts for the master account exactly if it
names that account itself. -/
theorem accepted_sources {innerXdr master : String} {walletAllowlist : Option (List String)}
    {v1 : TransactionV1Envelope} (hx : x.fromXdrBase64 innerXdr = some (.tx v1))
    (h : validateInnerXdr sk x innerXdr master walletAllowlist = .ok ()) :
    ¬ BaseAccount sk v1.tx.sourceAccount master ∧
    (∀ op ∈ v1.tx.operations, OpListed walletAllowlist op) ∧
    ∀ op ∈ v1.tx.operations, BaseAccount sk (effectiveSource v1.tx op) master ↔
      ∃ src, op.sourceAccount = some src ∧ BaseAccount sk src master := by
  obtain ⟨v1', hx', hsrc, hops⟩ := validateInnerXdr_iff.mp h
  obtain rfl : v1 = v1' := TransactionEnvelope.tx.inj (Option.some.inj (hx.symm.trans hx'))
  refine ⟨hsrc, hops, fun op _ => ?_⟩
  unfold effectiveSource
  cases hop : op.sourceAccount with
  | none => simpa using hsrc
  | some => simp

theorem example_baseAccount (b : UInt8) :
    BaseAccount sep23 (.ed25519 (exampleKey b)) (exampleAccountG b) :=
  sep23_lawful.publicKey_roundTrip _ (exampleKey b).length_eq

theorem example_baseAccount_iff :
    BaseAccount sep23 (.ed25519 (exampleKey b)) (exampleAccountG b') ↔ b = b' := by
  constructor
  · intro h
    have hbytes : some (exampleKey b).bytes = some (exampleKey b').bytes :=
      h.symm.trans (example_baseAccount b')
    have hhead := congrArg head? (Option.some.inj hbytes)
    simpa [exampleKey] using hhead
  · rintro rfl
    exact example_baseAccount b

def borrowedPayment : Known where
  raw := [0, 0, 0, 2, 0, 0, 0, 0] ++ List.replicate 32 1 ++
    [0, 0, 0, 100, 0, 0, 0, 0, 0, 0, 0, 5, 0, 0, 0, 0, 0, 0, 0, 0, 0, 0, 0, 1, 0, 0, 0, 1, 0, 0,
      0, 0] ++
    List.replicate 32 4 ++ (examplePayRaw 2).drop 4 ++ exampleSignedRaw
  envelope := ⟨⟨.ed25519 (exampleKey 1), 100, 5, .none,
    [{ examplePay 2 with sourceAccount := some (.ed25519 (exampleKey 4)) }]⟩, [List.replicate 64 9]⟩
  hash := [0xea, 0x72, 0x5c, 0x32, 0x25, 0xf1, 0x07, 0x63, 0xdf, 0xb9, 0xce, 0xec, 0xfb, 0xc4,
    0xd9, 0xa2, 0xf9, 0x5c, 0x71, 0x67, 0xa3, 0x41, 0x59, 0x3a, 0x10, 0xf7, 0x80, 0xf9, 0xf1, 0x75,
    0x31, 0xcd]

theorem borrowedPayment_accepted :
    validateInnerXdr sep23 borrowedPayment.codec borrowedPayment.text (exampleAccountG 4)
      (some ["Payment"]) = .ok () := by
  refine validateInnerXdr_iff.mpr ⟨_, borrowedPayment.fromXdrBase64, ?_, fun op hop => ?_⟩
  · exact fun h => absurd (example_baseAccount_iff.mp h) (by decide)
  · obtain rfl := mem_singleton.mp hop
    refine ⟨by decide, fun allowed h => ?_⟩
    rw [← Option.some.inj h]
    decide

/-- **An operation may act for the master account**: account 4 does not sponsor its own
transactions, but accepts a payment of account 4 in a transaction of account 1, also where the
wallet's list has payments only. -/
theorem borrowed_source_accepted :
    validateInnerXdr sep23 borrowedPayment.codec borrowedPayment.text (exampleAccountG 4)
      (some ["Payment"]) = .ok () ∧
    borrowedPayment.codec.fromXdrBase64 borrowedPayment.text = some (.tx borrowedPayment.envelope) ∧
    ∃ op ∈ borrowedPayment.envelope.tx.operations,
      BaseAccount sep23 (effectiveSource borrowedPayment.envelope.tx op) (exampleAccountG 4) :=
  ⟨borrowedPayment_accepted, borrowedPayment.fromXdrBase64, _, List.mem_cons_self,
    example_baseAccount 4⟩

/-- The facts about `borrowedPayment` that acceptance does give. -/
theorem borrowedPayment_sources :
    ¬ BaseAccount sep23 borrowedPayment.envelope.tx.sourceAccount (exampleAccountG 4) ∧
    ∀ op ∈ borrowedPayment.envelope.tx.operations, OpListed (some ["Payment"]) op :=
  have h := accepted_sources borrowedPayment.fromXdrBase64 borrowedPayment_accepted
  ⟨h.1, h.2.1⟩

/-! ### Stale sequence numbers -/

/-- A request that passes everything before the check of its sequence number. -/
structure Arrival (out : Outside) (s : State) (walletId : Uuid) (req : SponsorRequest) where
  innerXdr : String
  maxFee : Int
  wallet : SealedWallet
  config : GasSponsorshipConfig
  v1 : TransactionV1Envelope
  request : checkRequest req = .ok (innerXdr, maxFee)
  found : s.db.getWallet walletId = .ok wallet
  active : wallet.archivedAt = none
  configured : s.db.getGasSponsorshipConfig walletId = some config
  enabled : config.enabled = true
  checks : checkWallet out innerXdr maxFee wallet config = .ok ()
  inner : out.xdr.fromXdrBase64 innerXdr = some (.tx v1)
  /-- The strict decoder reads the same envelope, if it does not reject the text. -/
  strict : ∀ v, out.xdr.parseInnerV1 innerXdr = some v → v = v1

section

variable {out : Outside} {http : Request → HttpOutcome} {s : State} {walletId : Uuid}
  {req : SponsorRequest} {live : Int}

def RejectsStale (out : Outside) (http : Request → HttpOutcome) (s : State) (walletId : Uuid)
    (req : SponsorRequest) : Prop :=
  ∃ msg, ((preflight out walletId req).run.eval (serve http) s).1 = .error (.staleSequence msg)

theorem checkSequence_stale {innerXdr : String} :
    (∃ msg, checkSequence out innerXdr live = .error (.staleSequence msg)) ↔
      ∃ seq, out.xdr.innerSequenceNumber innerXdr = some seq ∧ seq ≤ live := by
  unfold checkSequence
  split
  · rename_i h
    simp [h]
  · rename_i h
    split
    · rename_i hle
      simpa [h] using hle
    · rename_i hle
      split <;> simpa [h] using hle

theorem rejectsStale_iff (a : Arrival out s walletId req)
    (hlive : (liveSequence out http s a.wallet.stellarAccountG).1 = .ok live) :
    RejectsStale out http s walletId req ↔ out.xdr.parseInnerV1 a.innerXdr = some a.v1 ∧
    a.v1.tx.seqNum ≤ live := by
  have hresult : ((preflight out walletId req).run.eval (serve http) s).1 =
      (checkSequence out a.innerXdr live).map
        (fun hash => (⟨a.wallet, a.config, a.innerXdr, a.maxFee, hash⟩ : Preflight)) := by
    rw [eval_preflight a.request a.found a.active a.configured a.enabled a.checks, hlive]
    show (checkSequence out a.innerXdr live >>= _) = _
    cases checkSequence out a.innerXdr live <;> rfl
  have hstale : RejectsStale out http s walletId req ↔
      ∃ msg, checkSequence out a.innerXdr live = .error (.staleSequence msg) := by
    unfold RejectsStale
    rw [hresult]
    cases checkSequence out a.innerXdr live <;> simp [Except.map]
  rw [hstale, checkSequence_stale, Xdr.innerSequenceNumber]
  cases hp : out.xdr.parseInnerV1 a.innerXdr with
  | none => simp
  | some v =>
    obtain rfl := a.strict v hp
    simp

/-- **The preflight is right about the inner transaction's own account** exactly if the inner
sequence number, strictly read, is on the same side of the sequence number of that account and of
the wallet's. -/
theorem stale_as_source_iff (a : Arrival out s walletId req) (live : String → Int)
    (hlive : ∀ accountG ∈ [a.wallet.stellarAccountG,
        out.strkey.publicKeyToString a.v1.tx.sourceAccount.key.bytes],
      (liveSequence out http s accountG).1 = .ok (live accountG)) :
    (RejectsStale out http s walletId req ↔
      a.v1.tx.seqNum ≤ live (out.strkey.publicKeyToString a.v1.tx.sourceAccount.key.bytes)) ↔
    ((out.xdr.parseInnerV1 a.innerXdr = some a.v1 ∧
      a.v1.tx.seqNum ≤ live a.wallet.stellarAccountG) ↔
      a.v1.tx.seqNum ≤ live (out.strkey.publicKeyToString a.v1.tx.sourceAccount.key.bytes)) := by
  rw [rejectsStale_iff a (hlive _ mem_cons_self)]

end

theorem liveSequence_of_read {http : Request → HttpOutcome} {accountG : String}
    (h : readAccount (http (.getAccount accountG)) = .ok ⟨[], seq, 0, 0, 0⟩) :
    (liveSequence exampleOutside http exampleState accountG).1 = .ok seq := by
  unfold liveSequence horizon HorizonClient.accountSequence HorizonClient.accountInfo
    HorizonClient.call execute
  simp [exampleOutside, exampleState, attempts, tryOnce, fetch, Resilience.ask, Prog.embed,
    Prog.eval, serve, serveHttp, h, Breaker.check, Breaker.new, mapResult, Except.map]

def accountAt (sequence : String) : HttpOutcome :=
  .answer 200 (some (.obj [("balances", .arr []), ("sequence", .str sequence)]))

/-- A Horizon that knows account 4, the wallet's, at one sequence number and all others at another.
-/
def twoSequences (wallet others : String) : Request → HttpOutcome
  | .getAccount accountG =>
    if accountG = exampleAccountG 4 then accountAt wallet else accountAt others
  | _ => .transport

theorem exampleAccountG_inj (h : exampleAccountG b = exampleAccountG b') : b = b' :=
  example_baseAccount_iff.mp (h ▸ example_baseAccount b)

theorem liveSequence_wallet {wallet others : String}
    (h : readAccount (accountAt wallet) = .ok ⟨[], seq, 0, 0, 0⟩) :
    (liveSequence exampleOutside (twoSequences wallet others) exampleState (exampleAccountG 4)).1 =
      .ok seq :=
  liveSequence_of_read (by rw [twoSequences, if_pos rfl, h])

theorem liveSequence_others {wallet others accountG : String} (hne : accountG ≠ exampleAccountG 4)
    (h : readAccount (accountAt others) = .ok ⟨[], seq, 0, 0, 0⟩) :
    (liveSequence exampleOutside (twoSequences wallet others) exampleState accountG).1 = .ok seq :=
  liveSequence_of_read (by rw [twoSequences, if_neg hne, h])

/-- The transaction of account 1 with sequence number 5, sent to the wallet of account 4. -/
def exampleArrival : Arrival exampleOutside exampleState 1 (exampleRequest onePayment) where
  innerXdr := onePayment.text
  maxFee := 100
  wallet := exampleWallet
  config := exampleConfig
  v1 := onePayment.envelope
  request := onePayment_sponsorable.request
  found := rfl
  active := rfl
  configured := rfl
  enabled := rfl
  checks := onePayment_sponsorable.wallet
  inner := (Known.knownTo_codecOfTwo_left onePayment twoPayments).fromXdrBase64
  strict := fun _ hv =>
    Option.some.inj (hv.symm.trans
      (Known.knownTo_codecOfTwo_left onePayment twoPayments).parseInnerV1)

theorem exampleArrival_strict :
    exampleOutside.xdr.parseInnerV1 exampleArrival.innerXdr = some exampleArrival.v1 :=
  (Known.knownTo_codecOfTwo_left onePayment twoPayments).parseInnerV1

/-- **The preflight asks about another account.**  Account 1 is at 4, so its transaction with number
5 is next; but the wallet's account is at 7, and the transaction is rejected.  And account 1 is at
9, so the transaction is stale; but the wallet's account is at 0, and the transaction is not
rejected for it. -/
theorem stale_for_another :
    exampleArrival.v1.tx.seqNum = 5 ∧
    ((liveSequence exampleOutside (twoSequences "7" "4") exampleState (exampleAccountG 1)).1 =
      .ok 4 ∧
      RejectsStale exampleOutside (twoSequences "7" "4") exampleState 1
        (exampleRequest onePayment)) ∧
    (liveSequence exampleOutside (twoSequences "0" "9") exampleState (exampleAccountG 1)).1 =
      .ok 9 ∧
      ¬ RejectsStale exampleOutside (twoSequences "0" "9") exampleState 1
        (exampleRequest onePayment) := by
  have hne : exampleAccountG 1 ≠ exampleAccountG 4 :=
    fun h => absurd (exampleAccountG_inj h) (by decide)
  have hahead : (liveSequence exampleOutside (twoSequences "7" "4") exampleState
      (exampleAccountG 4)).1 = .ok 7 :=
    liveSequence_wallet rfl
  have hbehind : (liveSequence exampleOutside (twoSequences "0" "9") exampleState
      (exampleAccountG 4)).1 = .ok 0 :=
    liveSequence_wallet rfl
  refine ⟨rfl, ⟨liveSequence_others hne rfl, ?_⟩, liveSequence_others hne rfl, fun h => ?_⟩
  · exact (rejectsStale_iff exampleArrival hahead).mpr ⟨exampleArrival_strict, by decide⟩
  · exact absurd ((rejectsStale_iff exampleArrival hbehind).mp h).2 (by decide)

/-- With both accounts at 4 the preflight is right. -/
theorem right_about_both :
    RejectsStale exampleOutside (twoSequences "4" "4") exampleState 1 (exampleRequest onePayment) ↔
      exampleArrival.v1.tx.seqNum ≤ 4 := by
  refine (stale_as_source_iff exampleArrival (fun _ => 4) (fun accountG _ => ?_)).mpr ?_
  · by_cases h : accountG = exampleAccountG 4
    · rw [h]
      exact liveSequence_wallet rfl
    · exact liveSequence_others h rfl
  · exact and_iff_right exampleArrival_strict

end Octo.Sponsor
