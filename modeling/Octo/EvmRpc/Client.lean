import Mathlib.Data.List.Infix
import Mathlib.Data.Nat.Find
import Octo.Codec.Json
import Octo.Crypto.Seal
import Octo.Ingest.Text

/-!
# The JSON-RPC client for EVM chains

`crates/evm-rpc/src/client.rs`.  A request has an `Outcome` on the network, and `call_once` makes a
result of it. `call_read` repeats `call_once` while it fails in a way that may pass; `Event`s are
what it does meanwhile.  Whether the breaker lets a read through is an input.

The id of a request is left out: nothing reads it back.
-/

namespace Octo.EvmRpc

open Codec Codec.Json Octo.Crypto List

/-! ### Errors and answers -/

inductive EvmRpcError
  | transport (text : String)
  | jsonRpc (code : Int) (message : String)
  | revert (data : String)
  | rangeTooLarge (message : String)
  | rateLimited (retryAfter : Option Nat)
  | circuitOpen
  | responseTooLarge (limit : Nat)
  | invalidHex (text : String)
  | chainIdMismatch (expected actual : String)
  deriving DecidableEq

namespace EvmRpcError

def isRetryable : EvmRpcError → Bool
  | .transport _ | .rateLimited _ => true
  | _ => false

def display : EvmRpcError → String
  | .transport text => "transport error: " ++ text
  | .jsonRpc code message => "json-rpc error " ++ toString code ++ ": " ++ message
  | .revert data => "execution revert: " ++ data
  | .rangeTooLarge message => "block range too large: " ++ message
  | .rateLimited none => "rate limited (retry_after=None)"
  | .rateLimited (some n) => "rate limited (retry_after=Some(" ++ toString n ++ "s))"
  | .circuitOpen => "circuit open"
  | .responseTooLarge limit => "response body exceeded " ++ toString limit ++ " bytes"
  | .invalidHex text => "invalid hex quantity: " ++ text
  | .chainIdMismatch expected actual =>
    "chain id mismatch: expected " ++ expected ++ ", got " ++ actual

end EvmRpcError

structure RpcErrorObject where
  code : Int
  message : String
  data : Option Json

structure RpcResponse where
  result : Option Json
  error : Option RpcErrorObject

def readRpcErrorObject (j : Json) : Option RpcErrorObject := do
  let fs ← j.structFields ["code", "message", "data"]
  return ⟨← field fs "code" asI64, ← field fs "message" asString,
    ← fieldOr fs "data" none (asOption some)⟩

def readRpcResponse (j : Json) : Option RpcResponse := do
  let fs ← j.structFields ["result", "error"]
  return ⟨← fieldOr fs "result" none (asOption some),
    ← fieldOr fs "error" none (asOption readRpcErrorObject)⟩

/-- What the crates are asked for: `serde_json` to read a text and to write a document or its own
error, `reqwest` to write the error of a request from its reason and URL, and `http` to write a
status. -/
structure Crates where
  fromSlice : Bytes → Option Json
  parseError : Bytes → String
  valueError : Json → String
  toText : Json → String
  reqwestError : String → String → String
  statusText : Nat → String

def isRangeTooLargeMessage (msg : String) : Bool :=
  let contains (needle : String) : Bool := decide (needle.toList <:+: msg.toList.map Char.toLower)
  contains "range" && (contains "too large" || contains "exceed") || contains "block range"
    || contains "query returned more than" || contains "limit exceeded"

def mapRpcError (crates : Crates) (err : RpcErrorObject) : EvmRpcError :=
  if err.code = 3 then
    .revert (match err.data with
      | none => ""
      | some (.str s) => s
      | some other => crates.toText other)
  else if err.code = -32005 || isRangeTooLargeMessage err.message then .rangeTooLarge err.message
  else .jsonRpc err.code err.message

/-! ### One request -/

/-- What becomes of a request: it fails before there is a response, or there is one, whose body
comes in chunks and may end with an error. -/
inductive Outcome
  | sendFailed (reason : String)
  | response (status : Nat) (retryAfter : Option String) (contentLength : Option Nat)
      (chunks : List Bytes) (failure : Option String)

def maxResponseBodyBytes : Nat := 16 * 1024 * 1024

def parseRetryAfter (header : Option String) : Option Nat := do
  let s ← headerToStr (← header)
  parseUnsigned (2 ^ 64 - 1) (trim s)

def readChunks (limit : Nat) (failure : Option EvmRpcError) :
    Bytes → List Bytes → Except EvmRpcError Bytes
  | body, [] => failure.elim (.ok body) .error
  | body, chunk :: rest =>
    if body.length + chunk.length > limit then .error (.responseTooLarge limit)
    else readChunks limit failure (body ++ chunk) rest

def readBodyCapped (limit : Nat) (contentLength : Option Nat) (chunks : List Bytes)
    (failure : Option EvmRpcError) : Except EvmRpcError Bytes :=
  if contentLength.any (limit < ·) then .error (.responseTooLarge limit)
    else readChunks limit failure [] chunks

def answer (crates : Crates) (status : Nat) (body : Bytes) : Except EvmRpcError Json :=
  match (crates.fromSlice body).bind readRpcResponse with
  | some ⟨_, some err⟩ => .error (mapRpcError crates err)
  | parsed =>
    if ¬(200 ≤ status ∧ status < 300)
      then .error (.transport ("http status " ++ crates.statusText status))
    else match parsed with
      | none => .error (.transport ("invalid json-rpc response: " ++ crates.parseError body))
      | some ⟨some value, _⟩ => .ok value
      | some ⟨none, _⟩ => .error (.transport "json-rpc response missing result")

def callOnce (crates : Crates) (url : String) : Outcome → Except EvmRpcError Json
  | .sendFailed reason => .error (.transport (crates.reqwestError reason url))
  | .response status retryAfter contentLength chunks failure =>
    if status = 429 then .error (.rateLimited (parseRetryAfter retryAfter))
    else
      (readBodyCapped maxResponseBodyBytes contentLength chunks
        (failure.map (fun reason => .transport (crates.reqwestError reason url)))).bind
          (answer crates status)

/-! ### The retry loop -/

inductive Event
  | request
  | recordSuccess
  | recordFailure
  | sleep (attempt : Nat)
  deriving DecidableEq

/-- The events of a call and what it returns; nothing is returned by a call that panics. -/
structure Run (V : Type) where
  events : List Event
  result : Option (Except EvmRpcError V)

def Run.requests {V : Type} (r : Run V) : Nat := r.events.count .request

variable {V : Type}

def retries : Except EvmRpcError V → Bool
  | .ok _ => false
  | .error e => e.isRetryable

/-- The loop of `call_read`.  `attempt` counts the failures, so it is also the number of the
request; it is a `u32`, and counting beyond that panics. -/
def readLoop (maxAttempts : Nat) (call : Nat → Except EvmRpcError V) (attempt : Nat) : Run V :=
  match call attempt with
  | .ok v => ⟨[.request, .recordSuccess], some (.ok v)⟩
  | .error e =>
    if !e.isRetryable then ⟨[.request], some (.error e)⟩
    else if 2 ^ 32 ≤ attempt + 1 then ⟨[.request, .recordFailure], none⟩
    else if attempt + 1 > maxAttempts then ⟨[.request, .recordFailure], some (.error e)⟩
    else
      let rest := readLoop maxAttempts call (attempt + 1)
      ⟨[.request, .recordFailure, .sleep (attempt + 1)] ++ rest.events, rest.result⟩
  termination_by 2 ^ 32 - attempt

def callRead (allowed : Bool) (maxAttempts : UInt32) (call : Nat → Except EvmRpcError V) : Run V :=
  if !allowed then ⟨[], some (.error .circuitOpen)⟩ else readLoop maxAttempts.toNat call 0

def sendRawTransaction (call : Except EvmRpcError Json) : Run String where
  events := [.request]
  result := some (call.bind (fun v => match v with
    | .str s => .ok s
    | _ => .error (.transport "sendRawTransaction result not a string")))

/-- The events of the first requests of a read, all of which are retried. -/
def retried (k : Nat) : List Event :=
  (List.range k).flatMap (fun i => [.request, .recordFailure, .sleep (i + 1)])

def stopEvents : Except EvmRpcError V → List Event
  | .ok _ => [.request, .recordSuccess]
  | .error _ => [.request]

variable {m : UInt32} {call : Nat → Except EvmRpcError V} {k : Nat}

@[simp] theorem callRead_refused : callRead false m call = ⟨[], some (.error .circuitOpen)⟩ := by
  rw [callRead, if_pos (by decide)]

theorem readLoop_retry {attempt m : Nat} (h : retries (call attempt)) (hm : attempt < m)
    (hm' : m < 2 ^ 32) :
    readLoop m call attempt =
      ⟨[.request, .recordFailure, .sleep (attempt + 1)] ++ (readLoop m call (attempt + 1)).events,
        (readLoop m call (attempt + 1)).result⟩ := by
  rw [readLoop]
  match hc : call attempt with
  | .ok v => simp [hc, retries] at h
  | .error e =>
    have he : e.isRetryable = true := by simpa [hc, retries] using h
    have hover : ¬2 ^ 32 ≤ attempt + 1 := by omega
    have hmax : ¬attempt + 1 > m := by omega
    simp only [he, Bool.not_true, Bool.false_eq_true, if_false, hover, hmax]

theorem readLoop_stop {attempt m : Nat} (h : retries (call attempt) = false) :
    readLoop m call attempt = ⟨stopEvents (call attempt), some (call attempt)⟩ := by
  rw [readLoop]
  match hc : call attempt with
  | .ok v => rfl
  | .error e =>
    have he : e.isRetryable = false := by simpa [hc, retries] using h
    simp [he, stopEvents]

/-- The requests that are retried come first. -/
theorem readLoop_skip (hk : k ≤ m.toNat) (h : ∀ i < k, retries (call i)) : readLoop m.toNat call 0 =
      ⟨retried k ++ (readLoop m.toNat call k).events, (readLoop m.toNat call k).result⟩ := by
  induction k with
  | zero => rfl
  | succ k ih =>
    have hstep := readLoop_retry (h k (Nat.lt_succ_self k)) hk m.toNat_lt
    rw [ih (Nat.le_of_succ_le hk) (fun i hi => h i (Nat.lt_succ_of_lt hi)), hstep]
    simp [retried, range_succ]

/-- What a read does, by the first outcome that is not retried. -/
theorem callRead_stopped (hk : k ≤ m.toNat) (h : ∀ i < k, retries (call i))
    (hstop : retries (call k) = false) :
    callRead true m call = ⟨retried k ++ stopEvents (call k), some (call k)⟩ := by
  rw [callRead, if_neg (by decide), readLoop_skip hk h, readLoop_stop hstop]

theorem callRead_exhausted (h : ∀ i ≤ m.toNat, retries (call i)) : callRead true m call =
      ⟨retried m.toNat ++ [.request, .recordFailure], if m.toNat + 1 = 2 ^ 32 then none
        else some (call m.toNat)⟩ := by
  rw [callRead, readLoop_skip (le_refl _) (fun i hi => h i (Nat.le_of_lt hi)), readLoop]
  have hm := m.toNat_lt
  match hc : call m.toNat with
  | .ok v => simpa [hc, retries] using h _ (le_refl _)
  | .error e =>
    have he : e.isRetryable = true := by simpa [hc, retries] using h _ (le_refl _)
    simp only [he, Bool.not_true, Bool.false_eq_true, if_false]
    by_cases hover : m.toNat + 1 = 2 ^ 32
    · rw [if_pos (le_of_eq hover.symm), if_pos hover]
    · have hlt : ¬2 ^ 32 ≤ m.toNat + 1 := by omega
      rw [if_neg hlt, if_pos (Nat.lt_succ_self _), if_neg hover]

/-- A read stops within its requests, or is retried at each of them. -/
theorem stopped_or_exhausted (m : UInt32) (call : Nat → Except EvmRpcError V) :
    (∃ k ≤ m.toNat, (∀ i < k, retries (call i)) ∧ retries (call k) = false) ∨
    ∀ i ≤ m.toNat, retries (call i) := by
  by_cases h : ∃ k, retries (call k) = false
  · have hmin : ∀ i < Nat.find h, retries (call i) := fun i hi => by simpa using Nat.find_min h hi
    by_cases hk : Nat.find h ≤ m.toNat
    · exact .inl ⟨Nat.find h, hk, hmin, Nat.find_spec h⟩
    · exact .inr (fun i hi => hmin i (by omega))
  · exact .inr (fun i _ => by simpa using not_exists.mp h i)

/-- The second event of a loop tells how its first request ended. -/
theorem readLoop_second (m attempt : Nat) (call : Nat → Except EvmRpcError V) :
    (readLoop m call attempt).events[1]? =
      match call attempt with
      | .ok _ => some .recordSuccess
      | .error e => if e.isRetryable then some .recordFailure else none := by
  rw [readLoop]
  match call attempt with
  | .ok v => rfl
  | .error e =>
    cases he : e.isRetryable with
    | false =>
      simp only [he, Bool.not_false, if_true, Bool.false_eq_true, if_false, getElem?_cons_succ,
        getElem?_nil]
    | true =>
      simp only [he, Bool.not_true, Bool.false_eq_true, if_false, if_true]
      by_cases hover : 2 ^ 32 ≤ attempt + 1
      · simp only [if_pos hover, getElem?_cons_succ, getElem?_cons_zero]
      · by_cases hmax : attempt + 1 > m
        · simp only [if_neg hover, if_pos hmax, getElem?_cons_succ, getElem?_cons_zero]
        · simp only [if_neg hover, if_neg hmax, cons_append, getElem?_cons_succ, getElem?_cons_zero]

/-- Reads whose outcomes are the same up to the first that is not retried are the same. -/
theorem callRead_congr {allowed : Bool} {call' : Nat → Except EvmRpcError V}
    (h : ∀ k ≤ m.toNat, (∀ i < k, retries (call' i)) → call k = call' k) :
    callRead allowed m call = callRead allowed m call' := by
  cases allowed with
  | false => rw [callRead_refused, callRead_refused]
  | true =>
    rcases stopped_or_exhausted m call' with ⟨k, hk, hbefore, hstop⟩ | hall
    · have heq : ∀ i ≤ k, call i = call' i := fun i hi =>
        h i (hi.trans hk) (fun j hj => hbefore j (by omega))
      rw [callRead_stopped hk hbefore hstop,
        callRead_stopped hk (fun i hi => heq i (Nat.le_of_lt hi) ▸ hbefore i hi)
        (heq k (le_refl k) ▸ hstop), heq k (le_refl k)]
    · have heq : ∀ i ≤ m.toNat, call i = call' i :=
        fun i hi => h i hi (fun j hj => hall j (by omega))
      rw [callRead_exhausted hall, callRead_exhausted (fun i hi => heq i hi ▸ hall i hi),
        heq _ (le_refl _)]

/-! ### The policy -/

theorem count_retried {e : Event}
    (he : ∀ i, [.request, .recordFailure, .sleep (i + 1)].count e = 1) :
    (retried k).count e = k := by
  induction k with
  | zero => rfl
  | succ k ih =>
    rw [retried] at ih
    simp only [retried, range_succ, flatMap_append, count_append, ih, flatMap_singleton, he]

/-- What the policy asks of a read, where `max_attempts` counts the first attempt: the number of
requests, that it stops at the first outcome that is no transient failure, what it returns, and what
it tells the breaker. -/
structure Respects (allowed : Bool) (m : UInt32) (call : Nat → Except EvmRpcError V) (r : Run V) :
    Prop where
  bounded : r.requests ≤ max 1 m.toNat
  sent : r.requests = 0 ↔ allowed = false
  refused : allowed = false → r.result = some (.error .circuitOpen)
  first : ∀ i < r.requests, retries (call i) = false → r.requests = i + 1 ∧ r.result = some (call i)
  last : 0 < r.requests → (∀ i < r.requests, retries (call i)) →
    r.result = some (call (r.requests - 1))
  failures : r.events.count .recordFailure = (List.range r.requests).countP
    (fun i => retries (call i))

theorem countP_range_of_all (h : ∀ i < k, retries (call i)) :
    (range k).countP (fun i => retries (call i)) = k := by
  rw [countP_eq_length.mpr (fun i hi => h i (mem_range.mp hi)), length_range]

theorem respects_refused : Respects false m call (callRead false m call) where
  bounded := Nat.zero_le _
  sent := by simp [callRead, Run.requests]
  refused _ := rfl
  first i hi := absurd hi (Nat.not_lt_zero i)
  last h := absurd h (Nat.lt_irrefl 0)
  failures := rfl

theorem requests_stopped (hk : k ≤ m.toNat) (h : ∀ i < k, retries (call i))
    (hstop : retries (call k) = false) : (callRead true m call).requests = k + 1 := by
  rw [callRead_stopped hk h hstop, Run.requests, count_append, count_retried fun _ => rfl]
  cases call k <;> rfl

theorem respects_stopped (hk : k + 1 ≤ max 1 m.toNat) (hkm : k ≤ m.toNat)
    (h : ∀ i < k, retries (call i)) (hstop : retries (call k) = false) :
    Respects true m call (callRead true m call) := by
  have hreq := requests_stopped hkm h hstop
  have hrun := callRead_stopped hkm h hstop
  refine ⟨hreq ▸ hk, by simp [hreq], fun hf => absurd hf (by decide), fun i hi hs => ?_,
    fun _ hall => ?_, ?_⟩
  · rw [hreq] at hi ⊢
    have hik : i = k := by
      by_contra hne
      rw [h i (by omega)] at hs
      cases hs
    rw [hik, hrun]
    exact ⟨rfl, rfl⟩
  · rw [hall k (by omega)] at hstop
    cases hstop
  · have hfail : (stopEvents (call k)).count .recordFailure = 0 := by cases call k <;> rfl
    rw [hreq, hrun, count_append, count_retried fun _ => rfl, hfail, range_succ, countP_append,
      countP_range_of_all h]
    simp [hstop]

theorem requests_exhausted (h : ∀ i ≤ m.toNat, retries (call i)) :
    (callRead true m call).requests = m.toNat + 1 := by
  rw [callRead_exhausted h, Run.requests, count_append, count_retried fun _ => rfl]
  rfl

theorem respects_exhausted (hm : m = 0) (h : ∀ i ≤ m.toNat, retries (call i)) :
    Respects true m call (callRead true m call) := by
  have hreq := requests_exhausted h
  have hrun := callRead_exhausted h
  subst hm
  refine ⟨by rw [hreq]; decide, by simp [hreq], fun hf => absurd hf (by decide), fun i hi hs => ?_,
    fun _ _ => ?_, ?_⟩
  · rw [h i (by omega)] at hs
    cases hs
  · rw [hrun]
    rfl
  · rw [hreq, hrun, countP_range_of_all (fun i hi => h i (by omega))]
    rfl

/-- **A read keeps to its policy exactly if it does not use the attempts up**: the loop allows
`max_attempts` retries, one more request than the policy counts.  A submission is one request,
whatever becomes of it. -/
theorem reads_within_policy_iff (allowed : Bool) (m : UInt32) (call : Nat → Except EvmRpcError V)
    (submitted : Except EvmRpcError Json) :
    (Respects allowed m call (callRead allowed m call) ∧
      (sendRawTransaction submitted).requests = 1) ↔
      allowed = false ∨ m = 0 ∨ ∃ i < m.toNat, retries (call i) = false := by
  refine ⟨fun ⟨h, _⟩ => ?_, fun h => ⟨?_, rfl⟩⟩
  · cases allowed with
    | false => exact .inl rfl
    | true =>
      rcases stopped_or_exhausted m call with ⟨k, hk, hbefore, hstop⟩ | hall
      · have hreq := h.bounded
        rw [requests_stopped hk hbefore hstop] at hreq
        by_cases hm : m.toNat = 0
        · exact .inr (.inl (UInt32.toNat_inj.mp hm))
        · exact .inr (.inr ⟨k, by omega, hstop⟩)
      · have hreq := h.bounded
        rw [requests_exhausted hall] at hreq
        exact .inr (.inl (UInt32.toNat_inj.mp (show m.toNat = 0 by omega)))
  · cases allowed with
    | false => exact respects_refused
    | true =>
      rcases stopped_or_exhausted m call with ⟨k, hk, hbefore, hstop⟩ | hall
      · refine respects_stopped ?_ hk hbefore hstop
        rcases h with h | rfl | ⟨i, hi, hs⟩
        · cases h
        · exact Nat.succ_le_succ hk
        · have hki : k ≤ i := by
            by_contra hlt
            rw [hbefore i (by omega)] at hs
            cases hs
          omega
      · rcases h with h | hm | ⟨i, hi, hs⟩
        · cases h
        · exact respects_exhausted hm hall
        · rw [hall i (by omega)] at hs
          cases hs

/-- With a policy of one attempt a read that fails is sent twice. -/
theorem one_request_too_many :
    (callRead true 1 (fun _ => (.error (.transport "") : Except EvmRpcError Json))).requests = 2 :=
  requests_exhausted (fun _ _ => rfl)

end Octo.EvmRpc
