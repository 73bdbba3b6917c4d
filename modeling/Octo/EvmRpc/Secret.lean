import Octo.EvmRpc.Answers

/-!
# The endpoint's URL

The URL of an RPC endpoint has an API key in it.  Two clients that differ in their URL alone are
given the same outcomes of the network, and what is observable of them is compared: what they do,
the results and errors of their calls, the texts of the errors, and the `Debug` text of the clients.

The URL is in the text of a `reqwest` error, and `call_once` passes this text on.
-/

namespace Octo.EvmRpc

open Codec Codec.Json Octo.Crypto List

structure EvmRpcClient where
  url : String
  maxAttempts : UInt32

def EvmRpcClient.fmt (_ : EvmRpcClient) : String := "EvmRpcClient \x7b url: \"<redacted>\" \x7d"

/-- A call of a client, with what the breaker and the network have for it.  Every typed wrapper is a
read that decodes the result in its own way, or the submission. -/
inductive Call (V : Type)
  | read (allowed : Bool) (decode : Json → Except EvmRpcError V) (outcomes : Nat → Outcome)
  | submit (outcome : Outcome)

variable {V : Type}

def Run.rendered (r : Run V) : Option (Except String V) :=
  r.result.map (Except.mapError EvmRpcError.display)

def observe (crates : Crates) (client : EvmRpcClient) :
    Call V → (Run V × Option (Except String V)) ⊕ (Run String × Option (Except String String))
  | .read allowed decode outcomes =>
    let run := (callRead allowed client.maxAttempts
      (fun i => callOnce crates client.url (outcomes i))).typed decode
    .inl (run, run.rendered)
  | .submit outcome =>
    let run := sendRawTransaction (callOnce crates client.url outcome)
    .inr (run, run.rendered)

/-! ### Outcomes -/

def Outcome.ShowsUrl : Outcome → Prop
  | .sendFailed _ => True
  | .response status _ contentLength chunks failure =>
    status ≠ 429 ∧ Readable contentLength chunks ∧ failure.isSome

/-- The body is no JSON-RPC response, or has neither an error nor a result that counts. -/
def Unanswered (crates : Crates) (status : Nat) (body : Bytes) : Prop :=
  ∀ r, (crates.fromSlice body).bind readRpcResponse = some r →
    r.error = none ∧ (r.result = none ∨ ¬(200 ≤ status ∧ status < 300))

def Outcome.Retried (crates : Crates) : Outcome → Prop
  | .sendFailed _ => True
  | .response status _ contentLength chunks failure =>
    status = 429 ∨ Readable contentLength chunks ∧
      (failure.isSome ∨ Unanswered crates status chunks.flatten)

def Call.Leaks (crates : Crates) (m : UInt32) : Call V → Prop
  | .read allowed _ outcomes =>
    allowed = true ∧ m.toNat + 1 < 2 ^ 32 ∧ (∀ i ≤ m.toNat, (outcomes i).Retried crates) ∧
      (outcomes m.toNat).ShowsUrl
  | .submit outcome => outcome.ShowsUrl

variable {crates : Crates} {o : Outcome}

theorem Outcome.ShowsUrl.retried (h : o.ShowsUrl) : o.Retried crates := by
  cases o with
  | sendFailed => trivial
  | response => exact .inr ⟨h.2.1, .inl h.2.2⟩

theorem answer_retries (crates : Crates) (status : Nat) (body : Bytes) :
    retries (answer crates status body) = true ↔ Unanswered crates status body := by
  unfold answer Unanswered
  cases (crates.fromSlice body).bind readRpcResponse with
  | none =>
    by_cases hs : 200 ≤ status ∧ status < 300 <;> simp [hs, retries, EvmRpcError.isRetryable]
  | some r =>
    obtain ⟨result, error⟩ := r
    cases error with
    | some err => simp [retries, (mapRpcError_final crates err).1]
    | none =>
      by_cases hs : 200 ≤ status ∧ status < 300 <;> cases result <;>
        simp [hs, retries, EvmRpcError.isRetryable]

/-- The response to a request that was not turned away for its rate. -/
theorem callOnce_response (crates : Crates) (url : String) {status : Nat} (hs : status ≠ 429)
    (retryAfter : Option String) (len : Option Nat) (chunks : List Bytes)
    (failure : Option String) :
    (Readable len chunks → callOnce crates url (.response status retryAfter len chunks failure) =
      failure.elim (answer crates status chunks.flatten)
        (fun reason => .error (.transport (crates.reqwestError reason url)))) ∧
    (¬Readable len chunks → callOnce crates url (.response status retryAfter len chunks failure) =
      .error (.responseTooLarge maxResponseBodyBytes)) := by
  rw [callOnce, if_neg hs]
  refine ⟨fun h => ?_, fun h => ?_⟩
  · rw [readBodyCapped_of_readable h]
    cases failure <;> rfl
  · rw [readBodyCapped_of_not_readable h]
    rfl

theorem callOnce_retries (url : String) :
    retries (callOnce crates url o) = true ↔ o.Retried crates := by
  cases o with
  | sendFailed => exact ⟨fun _ => trivial, fun _ => rfl⟩
  | response status retryAfter len chunks failure =>
    by_cases hs : status = 429
    · rw [callOnce, if_pos hs]
      exact ⟨fun _ => .inl hs, fun _ => rfl⟩
    · obtain ⟨hread, hlarge⟩ := callOnce_response crates url hs retryAfter len chunks failure
      by_cases h : Readable len chunks
      · rw [hread h]
        cases failure with
        | none => simp [Outcome.Retried, hs, h, answer_retries]
        | some => exact ⟨fun _ => .inr ⟨h, .inl rfl⟩, fun _ => rfl⟩
      · rw [hlarge h]
        simp [Outcome.Retried, hs, h, retries, EvmRpcError.isRetryable]

theorem callOnce_shown (crates : Crates) (h : o.ShowsUrl) :
    ∃ reason, ∀ url, callOnce crates url o =
      .error (.transport (crates.reqwestError reason url)) := by
  cases o with
  | sendFailed reason => exact ⟨reason, fun _ => rfl⟩
  | response status retryAfter len chunks =>
    obtain ⟨hs, hread, hfail⟩ := h
    obtain ⟨reason, rfl⟩ := Option.isSome_iff_exists.mp hfail
    exact ⟨reason, fun url => (callOnce_response crates url hs retryAfter len chunks _).1 hread⟩

theorem callOnce_hidden (crates : Crates) (url url' : String) (h : ¬o.ShowsUrl) :
    callOnce crates url o = callOnce crates url' o := by
  cases o with
  | sendFailed => exact absurd trivial h
  | response status retryAfter len chunks failure =>
    by_cases hs : status = 429
    · rw [callOnce, callOnce, if_pos hs, if_pos hs]
    · obtain ⟨hread, hlarge⟩ := callOnce_response crates url hs retryAfter len chunks failure
      obtain ⟨hread', hlarge'⟩ := callOnce_response crates url' hs retryAfter len chunks failure
      by_cases hr : Readable len chunks
      · cases failure with
        | none => rw [hread hr, hread' hr]; rfl
        | some => exact absurd ⟨hs, hr, rfl⟩ h
      · rw [hlarge hr, hlarge' hr]

/-! ### Calls -/

def Crates.ErrorsShowUrl (crates : Crates) : Prop :=
  ∀ reason, ∃ before after : String, ∀ url, crates.reqwestError reason url = before ++ url ++ after

theorem Crates.ErrorsShowUrl.ne (hcrates : crates.ErrorsShowUrl) {url url' : String}
    (hne : url ≠ url') (reason : String) :
    crates.reqwestError reason url ≠ crates.reqwestError reason url' := by
  obtain ⟨_, _, h⟩ := hcrates reason
  rw [h, h]
  intro heq
  have hchars := congrArg String.toList heq
  simp only [String.toList_append] at hchars
  exact hne (String.toList_inj.mp (append_cancel_left (append_cancel_right hchars)))

variable {url url' : String} {m : UInt32}

theorem read_eq_iff (hcrates : crates.ErrorsShowUrl) (hne : url ≠ url') (allowed : Bool)
    (decode : Json → Except EvmRpcError V) (outcomes : Nat → Outcome) :
    (callRead allowed m (fun i => callOnce crates url (outcomes i))).typed decode =
        (callRead allowed m (fun i => callOnce crates url' (outcomes i))).typed decode ↔
      ¬(Call.read allowed decode outcomes).Leaks crates m := by
  cases allowed with
  | false =>
    rw [callRead_refused]
    exact ⟨fun _ h => absurd h.1 (by decide), fun _ => rfl⟩
  | true =>
    rcases stopped_or_exhausted m (fun i => callOnce crates url (outcomes i)) with ⟨k, hk, hbefore,
      hstop⟩ | hall
    · -- what a read stops at does not show the URL
      have hret : ¬(outcomes k).Retried crates := fun h => by
        rw [(callOnce_retries url).mpr h] at hstop
        cases hstop
      have heq := callOnce_hidden crates url url' (fun h => hret h.retried)
      have hbefore' : ∀ i < k, retries (callOnce crates url' (outcomes i)) := fun i hi =>
        (callOnce_retries url').mpr ((callOnce_retries url).mp (hbefore i hi))
      rw [callRead_stopped hk hbefore hstop, callRead_stopped hk hbefore' (heq ▸ hstop), heq]
      exact ⟨fun _ h => hret (h.2.2.1 k hk), fun _ => rfl⟩
    · have hret : ∀ i ≤ m.toNat, (outcomes i).Retried crates :=
        fun i hi => (callOnce_retries url).mp (hall i hi)
      rw [callRead_exhausted hall,
        callRead_exhausted (fun i hi => (callOnce_retries url').mpr (hret i hi))]
      by_cases hover : m.toNat + 1 = 2 ^ 32
      · rw [if_pos hover, if_pos hover]
        exact ⟨fun _ h => by have := h.2.1; omega, fun _ => rfl⟩
      · have hm : m.toNat + 1 < 2 ^ 32 := by have := m.toNat_lt; omega
        rw [if_neg hover, if_neg hover]
        constructor
        · rintro heq ⟨-, -, -, hshows⟩
          obtain ⟨reason, hshown⟩ := callOnce_shown crates hshows
          have hres := congrArg Run.result heq
          simp only [Run.typed, hshown, Option.map_some, Option.some.injEq] at hres
          exact hcrates.ne hne reason (EvmRpcError.transport.inj (Except.error.inj hres))
        · intro h
          rw [callOnce_hidden crates url url' (fun hshows => h ⟨rfl, hm, hret, hshows⟩)]

theorem observe_eq_iff (hcrates : crates.ErrorsShowUrl) (hne : url ≠ url') (c : Call V) :
    observe crates ⟨url, m⟩ c = observe crates ⟨url', m⟩ c ↔ ¬c.Leaks crates m := by
  cases c with
  | read allowed decode outcomes =>
    rw [← read_eq_iff hcrates hne allowed decode outcomes]
    refine ⟨fun h => congrArg Prod.fst (Sum.inl.inj h), fun h => ?_⟩
    simp only [observe, h]
  | submit =>
    refine ⟨fun h hshows => ?_, fun h => ?_⟩
    · obtain ⟨reason, hshown⟩ := callOnce_shown crates hshows
      have hres := congrArg (Run.result ∘ Prod.fst) (Sum.inr.inj h)
      simp only [Function.comp, sendRawTransaction, hshown, Option.some.injEq] at hres
      exact hcrates.ne hne reason (EvmRpcError.transport.inj (Except.error.inj hres))
    · rw [observe, observe, callOnce_hidden crates url url' h]

/-- **The URL stays secret exactly if no call ends with a request that failed in the network**: a
connection or a body that broke off.  Then two clients that differ in their URL alone cannot be told
apart, over any calls. -/
theorem endpoint_hidden_iff (crates : Crates) (hcrates : crates.ErrorsShowUrl) (url url' : String)
    (hne : url ≠ url') (m : UInt32) (calls : List (Call V)) :
    ((⟨url, m⟩ : EvmRpcClient).fmt = (⟨url', m⟩ : EvmRpcClient).fmt ∧
      calls.map (observe crates ⟨url, m⟩) = calls.map (observe crates ⟨url', m⟩)) ↔
      ∀ c ∈ calls, ¬c.Leaks crates m := by
  rw [List.map_inj_left]
  refine ⟨fun h c hc => (observe_eq_iff hcrates hne c).mp (h.2 c hc),
    fun h => ⟨rfl, fun c hc => ?_⟩⟩
  exact (observe_eq_iff hcrates hne c).mpr (h c hc)

theorem cratesReading_errorsShowUrl (text : Bytes) (fields : List (String × Json)) :
    (cratesReading text fields).ErrorsShowUrl :=
  fun reason => ⟨reason ++ " for url (", ")", fun _ => rfl⟩

def heightText : Bytes := utf8 "\x7b\"jsonrpc\":\"2.0\",\"id\":1,\"result\":\"0x7\"\x7d"

def heightCrates : Crates :=
  cratesReading heightText [("jsonrpc", .str "2.0"), ("id", .int 1), ("result", .str "0x7")]

/-- A connection that is refused, a request too many, and then the height of the chain. -/
def heightRead : Call Json := .read true .ok fun
  | 0 => .sendFailed "error sending request"
  | 1 => .response 429 (some "5") none [] none
  | _ => .response 200 none none [heightText] none

theorem late_answer_hides_url :
    observe heightCrates ⟨"https://rpc/k1", 3⟩ heightRead =
      observe heightCrates ⟨"https://rpc/k2", 3⟩ heightRead := by
  have hanswer : (heightCrates.fromSlice [heightText].flatten).bind readRpcResponse =
      some ⟨some (.str "0x7"), none⟩ := by
    rfl
  have h := (endpoint_hidden_iff heightCrates (cratesReading_errorsShowUrl _ _) "https://rpc/k1"
    "https://rpc/k2" (by decide) 3 [heightRead]).mpr (by
      intro c hc hleak
      rw [List.mem_singleton.mp hc] at hleak
      -- the third request is not repeated
      rcases hleak.2.2.1 2 (by decide) with hs | ⟨-, hf | hu⟩
      · cases hs
      · cases hf
      · rcases (hu _ hanswer).2 with hr | hr
        · cases hr
        · exact hr (by decide))
  simpa using h.2

/-- A submission to a host that refuses the connection is enough. -/
theorem refused_connection_shows_key :
    (sendRawTransaction (callOnce nullCrates "https://rpc/k1"
      (.sendFailed "error sending request"))).rendered =
      some (.error "transport error: error sending request for url (https://rpc/k1)") ∧
    observe (V := Unit) nullCrates ⟨"https://rpc/k1", 3⟩
      (.submit (.sendFailed "error sending request")) ≠
      observe nullCrates ⟨"https://rpc/k2", 3⟩ (.submit (.sendFailed "error sending request")) := by
  refine ⟨by decide, fun h => ?_⟩
  exact (observe_eq_iff (cratesReading_errorsShowUrl _ _) (by decide) _).mp h trivial

end Octo.EvmRpc
