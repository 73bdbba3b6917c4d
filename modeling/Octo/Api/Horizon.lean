import Octo.Api.Error
import Octo.Codec.Json
import Octo.Ingest.Text
import Octo.Resilience.Execute

/-!
# The API's Horizon client

`crates/api/src/horizon.rs`: submitting a transaction, looking one up, the newest close time, and
the sequence number of an account.  An answer is read in three layers: the HTTP outcome
(`HttpOutcome`), what the closure passed to `execute` makes of it (`FetchError`), and what the
caller is told (`ApiError`).
-/

namespace Octo.Api

open Conc Codec Resilience List

inductive Request
  | postTransactions (xdr : String)
  | getTransaction (hash : String)
  | getLatestLedger
  | getAccount (accountG : String)
  deriving DecidableEq

/-- What a request comes to: no answer (connection error, timeout), or a status and a body.  The
body is `none` when it cannot be read to its end or is not JSON. -/
inductive HttpOutcome
  | transport
  | answer (status : Nat) (body : Option Json)

def isSuccess (status : Nat) : Bool := 200 ≤ status && status < 300

def isServerError (status : Nat) : Bool := 500 ≤ status && status < 600

inductive FetchError
  | transport
  | notFound
  | permanent
  | txRejected
  deriving DecidableEq

def FetchError.isRetriable : FetchError → Bool
  | .transport => true
  | _ => false

structure ResultCodes where
  transaction : Option String
  operations : List String
  deriving DecidableEq

/-- `SubmitResponse`, with `extras` reduced to its `result_codes`. -/
structure SubmitResponse where
  hash : String
  successful : Bool
  ledger : Option Int
  resultCodes : Option ResultCodes
  deriving DecidableEq

def readResultCodes (j : Json) : Option ResultCodes := do
  let fs ← j.structFields ["transaction", "operations"]
  let transaction ← Json.fieldOr fs "transaction" none (Json.asOption Json.asString)
  let operations ← Json.fieldOr fs "operations" [] (Json.asVec Json.asString)
  return ⟨transaction, operations⟩

def readSubmitExtras (j : Json) : Option (Option ResultCodes) := do
  let fs ← j.structFields ["result_codes"]
  Json.fieldOr fs "result_codes" none (Json.asOption readResultCodes)

def readSubmitResponse (j : Json) : Option SubmitResponse := do
  let fs ← j.structFields ["hash", "successful", "ledger", "extras"]
  let hash ← Json.fieldOr fs "hash" "" Json.asString
  let successful ← Json.fieldOr fs "successful" false Json.asBool
  let ledger ← Json.fieldOr fs "ledger" none (Json.asOption Json.asI64)
  let extras ← Json.fieldOr fs "extras" none (Json.asOption readSubmitExtras)
  return ⟨hash, successful, ledger, extras.join⟩

structure SubmitResult where
  hash : String
  successful : Bool
  ledger : Option Int
  transactionCode : Option String
  operationCodes : List String
  deriving DecidableEq

def SubmitResult.ofResponse (body : SubmitResponse) : SubmitResult where
  hash := body.hash
  successful := body.successful
  ledger := body.ledger
  transactionCode := body.resultCodes.bind (·.transaction)
  operationCodes := body.resultCodes.elim [] (·.operations)

/-- The closure of `submit_transaction`.  A problem document is read like a result, whatever its
status. -/
def readSubmit : HttpOutcome → Except FetchError SubmitResult
  | .transport => .error .transport
  | .answer status body =>
    match body.bind readSubmitResponse with
    | some b => .ok (.ofResponse b)
    | none => if isSuccess status then .error .transport else .error .txRejected

inductive TxLookup
  | found (successful : Bool) (ledger : Option Int)
  | notFound
  deriving DecidableEq

structure TxRecord where
  successful : Bool
  ledger : Option Int
  deriving DecidableEq

def readTxRecord (j : Json) : Option TxRecord := do
  let fs ← j.structFields ["successful", "ledger"]
  let successful ← Json.fieldOr fs "successful" false Json.asBool
  let ledger ← Json.fieldOr fs "ledger" none (Json.asOption Json.asI64)
  return ⟨successful, ledger⟩

def readLookup : HttpOutcome → Except FetchError TxRecord
  | .transport => .error .transport
  | .answer status body =>
    if status = 404 then .error .notFound
    else if isServerError status then .error .transport
    else if !isSuccess status then .error .permanent
    else
      match body.bind readTxRecord with
      | some r => .ok r
      | none => .error .permanent

def readLedgerPage (j : Json) : Option (List String) := do
  let fs ← j.structFields ["_embedded"]
  Json.field fs "_embedded" (fun e => do
    let fs ← e.structFields ["records"]
    Json.field fs "records" (Json.asVec (fun r => do
      let fs ← r.structFields ["closed_at"]
      Json.field fs "closed_at" Json.asString)))

structure Balance where
  balance : String
  assetType : String
  assetCode : Option String
  assetIssuer : Option String
  deriving DecidableEq

def readBalance (j : Json) : Option Balance := do
  let fs ← j.structFields ["balance", "asset_type", "asset_code", "asset_issuer"]
  let balance ← Json.field fs "balance" Json.asString
  let assetType ← Json.field fs "asset_type" Json.asString
  let assetCode ← Json.fieldOr fs "asset_code" none (Json.asOption Json.asString)
  let assetIssuer ← Json.fieldOr fs "asset_issuer" none (Json.asOption Json.asString)
  return ⟨balance, assetType, assetCode, assetIssuer⟩

structure AccountInfo where
  balances : List Balance
  sequence : Int
  subentryCount : Int
  numSponsoring : Int
  numSponsored : Int
  deriving DecidableEq

def readAccountInfo (j : Json) : Option AccountInfo := do
  let fs ← j.structFields ["balances", "sequence", "subentry_count", "num_sponsoring",
    "num_sponsored"]
  let balances ← Json.field fs "balances" (Json.asVec readBalance)
  let sequence ← Json.fieldOr fs "sequence" "" Json.asString
  let subentryCount ← Json.fieldOr fs "subentry_count" 0 Json.asI64
  let numSponsoring ← Json.fieldOr fs "num_sponsoring" 0 Json.asI64
  let numSponsored ← Json.fieldOr fs "num_sponsored" 0 Json.asI64
  let sequence ← parseI64 sequence.toList
  return ⟨balances, sequence, subentryCount, numSponsoring, numSponsored⟩

def readAccount : HttpOutcome → Except FetchError AccountInfo
  | .transport => .error .transport
  | .answer status body =>
    if status = 404 then .error .notFound
    else if isServerError status then .error .transport
    else if !isSuccess status then .error .permanent
    else
      match body.bind readAccountInfo with
      | some info => .ok info
      | none => .error .permanent

/-- The configuration of the client, and the RFC 3339 parser of `chrono` (in unix seconds). -/
structure HorizonClient where
  maxAttempts : Nat
  parseRfc3339 : String → Option Int

def HorizonClient.readCloseTime (hz : HorizonClient) : HttpOutcome → Except FetchError Int
  | .transport => .error .transport
  | .answer status body =>
    if isServerError status then .error .transport
    else if !isSuccess status then .error .permanent
    else
      match (body.bind readLedgerPage).bind (·.head?) |>.bind hz.parseRfc3339 with
      | some t => .ok t
      | none => .error .permanent

abbrev HttpCall := Resilience.Op Request
abbrev HttpCall.Ans : HttpCall → Type := Resilience.Ans (fun _ : Request => HttpOutcome)
abbrev HttpM (α : Type) := Prog HttpCall HttpCall.Ans α

def HorizonClient.call {T : Type} (hz : HorizonClient) (kind : CallKind) (r : Request)
    (read : HttpOutcome → Except FetchError T) : HttpM (Except (ResilienceError FetchError) T) :=
  execute FetchError.isRetriable hz.maxAttempts kind (fetch r read)

def submitError : ResilienceError FetchError → ApiError
  | .circuit => .internal
  | .exhausted .txRejected => .badRequest "transaction rejected by network"
  | .exhausted _ => .internal

def HorizonClient.submitTransaction (hz : HorizonClient) (envelopeXdr : String) :
    HttpM (Except ApiError SubmitResult) := do
  let result ← hz.call .submit (.postTransactions envelopeXdr) readSubmit
  return result.mapError submitError

def isAsciiHexdigit (c : Char) : Bool :=
  ('0' ≤ c && c ≤ '9') || ('a' ≤ c && c ≤ 'f') || ('A' ≤ c && c ≤ 'F')

def HorizonClient.transactionByHash (hz : HorizonClient) (hash : String) :
    HttpM (Except ApiError TxLookup) :=
  if hash.toList.length ≠ 64 || !hash.toList.all isAsciiHexdigit then
    return .error (.badRequest "transaction hash is malformed")
  else do
    match ← hz.call .readOnly (.getTransaction hash) readLookup with
    | .ok r => return .ok (.found r.successful r.ledger)
    | .error (.exhausted .notFound) => return .ok .notFound
    | .error _ => return .error .internal

def mapResult {T : Type} : Except (ResilienceError FetchError) T → Except ApiError T
  | .ok v => .ok v
  | .error .circuit => .error .internal
  | .error (.exhausted .notFound) => .error .notFound
  | .error (.exhausted _) => .error .internal

def HorizonClient.latestLedgerCloseTime (hz : HorizonClient) : HttpM (Except ApiError Int) := do
  let result ← hz.call .readOnly .getLatestLedger hz.readCloseTime
  return mapResult result

def HorizonClient.accountInfo (hz : HorizonClient) (accountG : String) :
    HttpM (Except ApiError AccountInfo) := do
  let result ← hz.call .readOnly (.getAccount accountG) readAccount
  return mapResult result

def HorizonClient.accountSequence (hz : HorizonClient) (accountG : String) :
    HttpM (Except ApiError Int) := do
  return (← hz.accountInfo accountG).map (·.sequence)

/-! ### What the caller is told -/

/-- The verdict of `submit_transaction` on an outcome of its one request. -/
def submitVerdict (o : HttpOutcome) : Except ApiError SubmitResult :=
  (readSubmit o).mapError (fun e => submitError (.exhausted e))

variable (hz : HorizonClient)

/-- The transaction is sent at most once; unless it is not sent at all, the caller is told
`submitVerdict` of the one outcome. -/
theorem submitTransaction_ends (xdr : String) :
    (hz.submitTransaction xdr).Ends (Polite .submit (.postTransactions xdr) readSubmit)
      (fun res as =>
      (res = .error .internal ∧ requests as = []) ∨
        ∃ o, requests as = [⟨.postTransactions xdr, o⟩] ∧ res = submitVerdict o) [] := by
  refine ends_bind ((execute_ends hz.maxAttempts).imp ?_)
  rintro res as (⟨rfl, hreq⟩ | ⟨o, _, hreq, -, hrep, hrest⟩)
  · exact .inl ⟨rfl, hreq⟩
  · rw [hrest rfl] at hreq
    refine .inr ⟨o, hreq, ?_⟩
    unfold submitVerdict
    rcases hrep with rfl | ⟨e, he, hr, rfl⟩
    · cases readSubmit o <;> rfl
    · rw [he]
      cases e <;> first | rfl | cases hr

/-- What a lookup tells its caller is read from the answer to its last request. -/
theorem transactionByHash_ends (hash : String) :
    (hz.transactionByHash hash).Ends (Polite .readOnly (.getTransaction hash) readLookup)
      (fun res as =>
      (requests as = [] ∧ ∃ e, res = .error e) ∨
      ∃ o rest, requests as = ⟨.getTransaction hash, o⟩ :: rest ∧ match res with
        | .ok (.found successful ledger) => readLookup o = .ok ⟨successful, ledger⟩
        | .ok .notFound => readLookup o = .error .notFound
        | .error _ => ∃ e, readLookup o = .error e) [] := by
  unfold HorizonClient.transactionByHash
  split
  · exact .inl ⟨rfl, _, rfl⟩
  · refine ends_bind ((execute_ends hz.maxAttempts).imp ?_)
    rintro res as (⟨rfl, hreq⟩ | ⟨o, rest, hreq, -, hrep, -⟩)
    · exact .inl ⟨hreq, _, rfl⟩
    · rcases hrep with rfl | ⟨e, he, -, rfl⟩
      · cases hd : readLookup o with
        | ok => exact .inr ⟨o, rest, hreq, hd⟩
        | error e =>
          cases e with
          | notFound => exact .inr ⟨o, rest, hreq, hd⟩
          | transport | permanent | txRejected => exact .inr ⟨o, rest, hreq, _, hd⟩
      · exact .inr ⟨o, rest, hreq, e, he⟩

theorem latestLedgerCloseTime_ends :
    hz.latestLedgerCloseTime.Ends (Polite .readOnly .getLatestLedger hz.readCloseTime)
      (fun res as =>
      (∀ y ∈ requests as, y.1 = .getLatestLedger) ∧
      ∀ t, res = .ok t → ∃ o rest, requests as = ⟨.getLatestLedger, o⟩ :: rest ∧
      hz.readCloseTime o = .ok t) [] := by
  refine ends_bind ((execute_ends hz.maxAttempts).imp ?_)
  rintro res as (⟨rfl, hreq⟩ | ⟨o, rest, hreq, hall, hrep, -⟩)
  · refine ⟨?_, fun t ht => (nomatch ht)⟩
    rw [hreq]
    exact forall_mem_nil _
  · refine ⟨?_, ?_⟩
    · rw [hreq]
      intro y hy
      rcases mem_cons.mp hy with rfl | hy
      · rfl
      · exact (hall y hy).request_eq
    · intro t ht
      refine ⟨o, rest, hreq, ?_⟩
      rcases hrep with rfl | ⟨e, -, -, rfl⟩
      · cases hd : hz.readCloseTime o with
        | ok =>
          rw [hd] at ht
          cases ht
          rfl
        | error e =>
          rw [hd] at ht
          cases e <;> cases ht
      · cases ht

theorem accountSequence_ends (accountG : String) :
    (hz.accountSequence accountG).Ends (Polite .readOnly (.getAccount accountG) readAccount)
      (fun _ as => ∀ y ∈ requests as, y.1 = .getAccount accountG) [] := by
  refine ends_bind (ends_bind ((execute_ends hz.maxAttempts).imp ?_))
  rintro res as (⟨-, hreq⟩ | ⟨o, _, hreq, hall, -, -⟩)
  · show ∀ y ∈ requests as, _
    rw [hreq]
    exact forall_mem_nil _
  · show ∀ y ∈ requests as, _
    rw [hreq]
    intro y hy
    rcases mem_cons.mp hy with rfl | hy
    · rfl
    · exact (hall y hy).request_eq

end Octo.Api
