import Octo.EvmRpc.Client

/-!
# What a JSON-RPC body says

A body has an `error` that is not `null`, or a `result`, which may be `null`, or neither
(`classify`).  `call_once` reads `result` as an `Option`, so a `null` result is to it no result: a
transport error, which is retried.  The wrappers that answer `Ok(None)` for `null` never see one.
-/

namespace Octo.EvmRpc

open Codec Codec.Json Octo.Crypto Option

/-! ### The typed wrappers -/

structure Log where
  address : String
  topics : List String
  data : String
  blockNumber : String
  transactionHash : String
  logIndex : String
  removed : Bool

structure Block where
  number : String
  hash : String
  parentHash : String
  timestamp : String

structure TransactionReceipt where
  transactionHash : String
  blockNumber : Option String
  status : Option String
  logs : List Log

def readLog (j : Json) : Option Log := do
  let fs ← j.structFields
    ["address", "topics", "data", "blockNumber", "transactionHash", "logIndex", "removed"]
  return ⟨← field fs "address" asString, ← field fs "topics" (asVec asString),
    ← field fs "data" asString, ← field fs "blockNumber" asString,
    ← field fs "transactionHash" asString, ← field fs "logIndex" asString,
    ← fieldOr fs "removed" false asBool⟩

def readBlock (j : Json) : Option Block := do
  let fs ← j.structFields ["number", "hash", "parentHash", "timestamp"]
  return ⟨← field fs "number" asString, ← field fs "hash" asString,
    ← field fs "parentHash" asString, ← field fs "timestamp" asString⟩

def readReceipt (j : Json) : Option TransactionReceipt := do
  let fs ← j.structFields ["transactionHash", "blockNumber", "status", "logs"]
  return ⟨← field fs "transactionHash" asString,
    ← fieldOr fs "blockNumber" none (asOption asString),
    ← fieldOr fs "status" none (asOption asString), ← fieldOr fs "logs" [] (asVec readLog)⟩

/-- A typed wrapper around a read: `decode` is what it does with the result. -/
def Run.typed {V W : Type} (decode : V → Except EvmRpcError W) (r : Run V) : Run W :=
  ⟨r.events, r.result.map (·.bind decode)⟩

/-- `null` is `None`; anything else is to be a `T`. -/
def nullable {T : Type} (crates : Crates) (invalid : String) (read : Json → Option T) :
    Json → Except EvmRpcError (Option T)
  | .null => .ok none
  | v => match read v with
    | some t => .ok (some t)
    | none => .error (.transport (invalid ++ crates.valueError v))

def getBlockByNumber (crates : Crates) (read : Run Json) : Run (Option Block) :=
  read.typed (nullable crates "invalid block: " readBlock)

def getTransactionReceipt (crates : Crates) (read : Run Json) : Run (Option TransactionReceipt) :=
  read.typed (nullable crates "invalid receipt: " readReceipt)

/-! ### Bodies -/

/-- The body of a response is within the cap, as is what it says of its length. -/
def Readable (contentLength : Option Nat) (chunks : List Bytes) : Prop :=
  ¬contentLength.any (maxResponseBodyBytes < ·) ∧ chunks.flatten.length ≤ maxResponseBodyBytes

def errorOf (fields : List (String × Json)) : Option RpcErrorObject :=
  match fields.lookup "error" with
  | none | some .null => none
  | some e => readRpcErrorObject e

/-- A well-formed JSON-RPC body, sent with status 200: an object whose keys are distinct, and whose
error, if there is one, has a code and a message. -/
structure Body (crates : Crates) where
  retryAfter : Option String
  contentLength : Option Nat
  chunks : List Bytes
  fields : List (String × Json)
  parsed : crates.fromSlice chunks.flatten = some (.obj fields)
  nodup : (fields.map (·.1)).Nodup
  error_read : ∀ e, fields.lookup "error" = some e → e = .null ∨ (readRpcErrorObject e).isSome

namespace Body

variable {crates : Crates}

def outcome (b : Body crates) : Outcome := .response 200 b.retryAfter b.contentLength b.chunks none

def classify (b : Body crates) : Except EvmRpcError Json :=
  match errorOf b.fields, b.fields.lookup "result" with
  | some err, _ => .error (mapRpcError crates err)
  | none, some v => .ok v
  | none, none => .error (.transport "json-rpc response missing result")

def Decides (b : Body crates) : Prop :=
  (errorOf b.fields).isSome ∨ (b.fields.lookup "result").isSome

def NullResult (b : Body crates) : Prop :=
  errorOf b.fields = none ∧ b.fields.lookup "result" = some .null

def Fits (b : Body crates) : Prop := Readable b.contentLength b.chunks

end Body

/-- An error object is answered with a typed error. -/
theorem mapRpcError_typed (crates : Crates) (err : RpcErrorObject) :
    (∃ data, mapRpcError crates err = .revert data) ∨
      mapRpcError crates err = .rangeTooLarge err.message ∨
      mapRpcError crates err = .jsonRpc err.code err.message := by
  unfold mapRpcError
  split
  · exact .inl ⟨_, rfl⟩
  · split
    · exact .inr (.inl rfl)
    · exact .inr (.inr rfl)

theorem mapRpcError_final (crates : Crates) (err : RpcErrorObject) :
    (mapRpcError crates err).isRetryable = false ∧
    ∀ limit, mapRpcError crates err ≠ .responseTooLarge limit := by
  rcases mapRpcError_typed crates err with ⟨_, h⟩ | h | h <;> rw [h] <;>
    exact ⟨rfl, fun _ he => by cases he⟩

/-- The chunks are put together up to the cap. -/
theorem readChunks_eq (limit : Nat) (failure : Option EvmRpcError) (body : Bytes)
    (chunks : List Bytes) (hbody : body.length ≤ limit) : readChunks limit failure body chunks =
      if body.length + chunks.flatten.length ≤ limit
        then failure.elim (.ok (body ++ chunks.flatten)) .error
      else .error (.responseTooLarge limit) := by
  induction chunks generalizing body with
  | nil => simp [readChunks, hbody]
  | cons chunk rest ih =>
    rw [readChunks]
    by_cases h : body.length + chunk.length > limit
    · rw [if_pos h, if_neg (by simp only [List.flatten_cons, List.length_append]; omega)]
    · rw [if_neg h, ih _ (by rw [List.length_append]; omega)]
      simp only [List.length_append, List.flatten_cons, List.append_assoc, Nat.add_assoc]

variable {chunks : List Bytes} {len : Option Nat}

theorem readBodyCapped_of_readable (h : Readable len chunks) (failure : Option EvmRpcError) :
    readBodyCapped maxResponseBodyBytes len chunks failure = failure.elim (.ok chunks.flatten)
      .error := by
  rw [readBodyCapped, if_neg h.1, readChunks_eq _ _ _ _ (Nat.zero_le _),
    if_pos (by simpa using h.2)]
  rfl

theorem readBodyCapped_of_not_readable (h : ¬Readable len chunks) (failure : Option EvmRpcError) :
    readBodyCapped maxResponseBodyBytes len chunks failure =
      .error (.responseTooLarge maxResponseBodyBytes) := by
  rw [readBodyCapped, readChunks_eq _ _ _ _ (Nat.zero_le _)]
  by_cases hlen : len.any (maxResponseBodyBytes < ·)
  · rw [if_pos hlen]
  · rw [if_neg hlen, if_neg (fun hle => h ⟨hlen, by simpa using hle⟩)]

section

variable {crates : Crates} (b : Body crates)

/-- A `null` member is read as if it were not there. -/
theorem fieldOr_option {T : Type} (fields : List (String × Json)) (name : String)
    (read : Json → Option T) :
    fieldOr fields name none (asOption read) = match fields.lookup name with
      | none | some .null => some none
      | some j => (read j).map some := by
  unfold fieldOr
  cases fields.lookup name with
  | none => rfl
  | some j => cases j <;> rfl

theorem readRpcResponse_body : readRpcResponse (.obj b.fields) = some
      ⟨match b.fields.lookup "result" with | none | some .null => none | some v => some v,
        errorOf b.fields⟩ := by
  obtain ⟨known, hknown, hlook⟩ := structFields_obj ["result", "error"] b.nodup
  have herr : fieldOr known "error" none (asOption readRpcErrorObject) =
      some (errorOf b.fields) := by
    rw [fieldOr_option, hlook _ (by simp), errorOf]
    match he : b.fields.lookup "error" with
    | none | some .null => rfl
    | some (.bool _) | some (.int _) | some (.float _) | some (.str _) | some (.arr _)
        | some (.obj _) =>
      rcases b.error_read _ he with h | h
      · cases h
      · obtain ⟨err, herr⟩ := isSome_iff_exists.mp h
        simp only [herr]
        rfl
  have hres : fieldOr known "result" none (asOption some) =
      some (match b.fields.lookup "result" with
        | none | some .null => none
        | some v => some v) := by
    rw [fieldOr_option, hlook _ (by simp)]
    cases b.fields.lookup "result" with
    | none => rfl
    | some j => cases j <;> rfl
  simp only [readRpcResponse, hknown, hres, herr, bind_eq_bind, bind_some, pure_def]

theorem callOnce_body (url : String) :
    (b.Fits → ¬b.NullResult → callOnce crates url b.outcome = b.classify) ∧
    (b.Fits → b.NullResult → callOnce crates url b.outcome =
      .error (.transport "json-rpc response missing result")) ∧
    (¬b.Fits → callOnce crates url b.outcome =
      .error (.responseTooLarge maxResponseBodyBytes)) := by
  have hcall : callOnce crates url b.outcome =
      (readBodyCapped maxResponseBodyBytes b.contentLength b.chunks none).bind
        (answer crates 200) := rfl
  have hanswer : b.Fits → callOnce crates url b.outcome = answer crates 200 b.chunks.flatten := by
    intro hfits
    rw [hcall, readBodyCapped_of_readable hfits]
    rfl
  refine ⟨fun hfits hnull => ?_, fun hfits hnull => ?_, fun hfits => ?_⟩
  · rw [hanswer hfits, answer, b.parsed, bind_some, readRpcResponse_body, Body.classify]
    cases herr : errorOf b.fields with
    | some => rfl
    | none =>
      match hres : b.fields.lookup "result" with
      | none => rfl
      | some .null => exact absurd ⟨herr, hres⟩ hnull
      | some (.bool _) | some (.int _) | some (.float _) | some (.str _) | some (.arr _)
          | some (.obj _) => rfl
  · rw [hanswer hfits, answer, b.parsed, bind_some, readRpcResponse_body, hnull.1, hnull.2]
    rfl
  · rw [hcall, readBodyCapped_of_not_readable hfits]
    rfl

theorem classify_retries : retries b.classify = true ↔ ¬b.Decides := by
  unfold Body.classify Body.Decides
  cases errorOf b.fields with
  | some err => simp [retries, (mapRpcError_final crates err).1]
  | none => cases b.fields.lookup "result" <;> simp [retries, EvmRpcError.isRetryable]

end

/-! ### Whole reads -/

section

variable {crates : Crates} {W : Type} {m : UInt32} {bodies : Nat → Body crates}
  {decode : Json → Except EvmRpcError W} {k : Nat}

/-- At the first body that is read wrongly the run differs from what it should be. -/
theorem typed_ne (url : String) (hk : k ≤ m.toNat)
    (hbefore : ∀ i < k, callOnce crates url (bodies i).outcome = (bodies i).classify ∧
      ¬(bodies i).Decides) (hbad : ¬((bodies k).Fits ∧ ¬(bodies k).NullResult)) :
    (callRead true m (fun i => callOnce crates url (bodies i).outcome)).typed decode ≠
      (callRead true m (fun i => (bodies i).classify)).typed decode := by
  have hretry : ∀ i < k, retries (bodies i).classify :=
    fun i hi => (classify_retries _).mpr (hbefore i hi).2
  rw [callRead, callRead, if_neg (by decide), readLoop_skip hk hretry,
    readLoop_skip hk (fun i hi => (hbefore i hi).1 ▸ hretry i hi)]
  intro heq
  have hevents := congrArg Run.events heq
  have hresult := congrArg Run.result heq
  simp only [Run.typed] at hevents hresult
  have hsecond := congrArg (·[1]?) (List.append_cancel_left hevents)
  simp only [readLoop_second] at hsecond
  obtain ⟨-, hnull, hlarge⟩ := callOnce_body (bodies k) url
  by_cases hfits : (bodies k).Fits
  · -- a `null` result is taken for a failure
    have hn : (bodies k).NullResult := by
      by_contra hn
      exact hbad ⟨hfits, hn⟩
    have hok : (bodies k).classify = .ok .null := by rw [Body.classify, hn.1, hn.2]
    rw [hnull hfits hn, hok] at hsecond
    simp [EvmRpcError.isRetryable] at hsecond
  · rw [hlarge hfits] at hsecond
    match hc : (bodies k).classify with
    | .ok v => simp [hc, EvmRpcError.isRetryable] at hsecond
    | .error e =>
      have he : e.isRetryable = false := by
        cases he : e.isRetryable with
        | false => rfl
        | true =>
          simp only [hc, he] at hsecond
          cases hsecond
      rw [readLoop_stop (by rw [hlarge hfits]; rfl), readLoop_stop (by rw [hc]; exact he),
        hlarge hfits, hc] at hresult
      have herr : EvmRpcError.responseTooLarge maxResponseBodyBytes = e := by
        simpa [Except.bind] using hresult
      -- the only errors of a body are the typed ones and the missing result
      unfold Body.classify at hc
      split at hc
      · rename_i err _
        exact (mapRpcError_final crates err).2 _ ((Except.error.inj hc).trans herr.symm)
      · cases hc
      · rw [← herr] at hc
        cases hc

theorem typed_eq_iff (url : String) (allowed : Bool) :
    (callRead allowed m (fun i => callOnce crates url (bodies i).outcome)).typed decode =
        (callRead allowed m (fun i => (bodies i).classify)).typed decode ↔
      allowed = false ∨ ∀ k ≤ m.toNat, (∀ i < k, ¬(bodies i).Decides) → (bodies k).Fits ∧
      ¬(bodies k).NullResult := by
  constructor
  · intro h
    cases allowed with
    | false => exact .inl rfl
    | true =>
      refine .inr (fun k => ?_)
      induction k using Nat.strongRecOn with
      | ind k ih =>
        intro hk hbefore
        by_contra hbad
        refine typed_ne url hk (fun i hi => ⟨?_, hbefore i hi⟩) hbad h
        obtain ⟨hf, hn⟩ := ih i hi (by omega) (fun j hj => hbefore j (by omega))
        exact (callOnce_body (bodies i) url).1 hf hn
  · rintro (rfl | h)
    · rw [callRead_refused, callRead_refused]
    · refine congrArg (Run.typed decode) (callRead_congr (fun k hk hbefore => ?_))
      obtain ⟨hf, hn⟩ := h k hk (fun i hi => (classify_retries _).mp (hbefore i hi))
      exact (callOnce_body (bodies k) url).1 hf hn

end

theorem classify_of_error {crates : Crates} {b : Body crates} {err : RpcErrorObject}
    (h : errorOf b.fields = some err) : ∃ e, b.classify = .error e ∧
      ((∃ data, e = .revert data) ∨ e = .rangeTooLarge err.message ∨
        e = .jsonRpc err.code err.message) :=
  ⟨mapRpcError crates err, by rw [Body.classify, h], mapRpcError_typed crates err⟩

/-- **Answers are classified correctly exactly if the body that decides is no `null` result**, where
no body up to it is over the cap: then both wrappers return what the bodies say, after the requests
that takes, and tell the breaker so.  What a body with an error says is a typed error. -/
theorem answers_classified_iff (crates : Crates) (url : String) (allowed : Bool) (m : UInt32)
    (bodies : Nat → Body crates) :
    ((getTransactionReceipt crates
          (callRead allowed m (fun i => callOnce crates url (bodies i).outcome)) =
        getTransactionReceipt crates (callRead allowed m (fun i => (bodies i).classify)) ∧
      getBlockByNumber crates
          (callRead allowed m (fun i => callOnce crates url (bodies i).outcome)) =
        getBlockByNumber crates (callRead allowed m (fun i => (bodies i).classify))) ↔
      allowed = false ∨
        ∀ k ≤ m.toNat, (∀ i < k, ¬(bodies i).Decides) → (bodies k).Fits ∧ ¬(bodies k).NullResult) ∧
    ∀ i err, errorOf (bodies i).fields = some err →
      ∃ e, (bodies i).classify = .error e ∧
        ((∃ data, e = .revert data) ∨ e = .rangeTooLarge err.message ∨
          e = .jsonRpc err.code err.message) := by
  refine ⟨⟨fun h => ?_, fun h => ⟨?_, ?_⟩⟩, fun i err herr => classify_of_error herr⟩
  · exact (typed_eq_iff url allowed).mp h.1
  · exact (typed_eq_iff url allowed).mpr h
  · exact (typed_eq_iff url allowed).mpr h

/-- A `serde_json` as far as one text goes. -/
def cratesReading (text : Bytes) (fields : List (String × Json)) : Crates where
  fromSlice bytes := if bytes = text then some (.obj fields) else none
  parseError _ := ""
  valueError _ := ""
  toText _ := ""
  reqwestError reason url := reason ++ " for url (" ++ url ++ ")"
  statusText _ := ""

/-- What a node answers about a transaction that it does not know yet. -/
def nullText : Bytes := utf8 "\x7b\"jsonrpc\":\"2.0\",\"id\":1,\"result\":null\x7d"

def nullFields : List (String × Json) :=
  [("jsonrpc", .str "2.0"), ("id", .int 1), ("result", .null)]

def nullCrates : Crates := cratesReading nullText nullFields

def nullBody : Body nullCrates where
  retryAfter := none
  contentLength := none
  chunks := [nullText]
  fields := nullFields
  parsed := by simp [nullCrates, cratesReading]
  nodup := by decide
  error_read e he := by simp [nullFields, List.lookup_cons] at he

/-- **The receipt of a transaction that is not known yet** is to be `Ok(None)`.  It is a transport
error, after two requests and two failures on the breaker. -/
theorem unknown_receipt_fails :
    getTransactionReceipt nullCrates (callRead true 1 (fun _ => nullBody.classify)) =
        ⟨[.request, .recordSuccess], some (.ok none)⟩ ∧
      getTransactionReceipt nullCrates
          (callRead true 1 (fun _ => callOnce nullCrates "" nullBody.outcome)) =
        ⟨[.request, .recordFailure, .sleep 1, .request, .recordFailure],
          some (.error (.transport "json-rpc response missing result"))⟩ := by
  have hok : nullBody.classify = .ok .null := rfl
  have hmissing := (callOnce_body nullBody "").2.1 ⟨by simp [nullBody], by decide⟩ ⟨rfl, rfl⟩
  constructor
  · rw [callRead_stopped (Nat.zero_le _) (fun i hi => absurd hi (Nat.not_lt_zero i))
      (by rw [hok]; rfl), hok]
    rfl
  · rw [callRead_exhausted (fun _ _ => by rw [hmissing]; rfl)]
    rfl

end Octo.EvmRpc
