import Octo.Conc.Embed

/-!
# Retry and circuit breaker

`crates/resilience/src/lib.rs`.  `Breaker` is the state the clones of a `CircuitBreaker` share;
`now` is the monotone clock.  `execute` is code: it calls the breaker, sleeps, and makes the wrapped
request `f`, and other callers may come in between any two of these.

The delay between two attempts is not modelled, only that the caller sleeps.
-/

namespace Octo.Resilience

open Conc

inductive CbState
  | closed
  | opened (openedAt : Nat)
  | halfOpen (probeStarted : Nat)
  deriving DecidableEq

structure Breaker where
  state : CbState
  consecutiveFailures : Nat
  failureThreshold : Nat
  resetTimeout : Nat
  deriving DecidableEq

namespace Breaker

def new (failureThreshold resetTimeout : Nat) : Breaker :=
  ⟨.closed, 0, failureThreshold, resetTimeout⟩

/-- The cool-down since `since`: the caller claims the probe, or is refused. -/
def cooldown (b : Breaker) (since now : Nat) : Bool × Breaker :=
  if b.resetTimeout ≤ now - since then (true, { b with state := .halfOpen now }) else (false, b)

/-- `CircuitBreaker::check`: `true` when the call may proceed. -/
def check (b : Breaker) (now : Nat) : Bool × Breaker :=
  match b.state with
  | .closed => (true, b)
  | .opened openedAt => b.cooldown openedAt now
  | .halfOpen probeStarted => b.cooldown probeStarted now

def onSuccess (b : Breaker) : Breaker := { b with state := .closed, consecutiveFailures := 0 }

def onFailure (b : Breaker) (now : Nat) : Breaker :=
  let failures := b.consecutiveFailures + 1
  { b with
    consecutiveFailures := failures
    state := if b.failureThreshold ≤ failures then .opened now else b.state }

end Breaker

/-- What `execute` does outside its own memory: the breaker, the timer, and a request `f`. -/
inductive Op (F : Type)
  | check
  | onSuccess
  | onFailure
  | sleep (attempt : Nat)
  | request (f : F)
  deriving DecidableEq

abbrev Ans {F : Type} (A : F → Type) : Op F → Type
  | .check => Bool
  | .request f => A f
  | _ => Unit

inductive CallKind
  | readOnly
  | submit
  deriving DecidableEq

inductive ResilienceError (E : Type)
  | circuit
  | exhausted (e : E)
  deriving DecidableEq

section

variable {F E T : Type} {A : F → Type}

abbrev Code (A : F → Type) (α : Type) := Prog (Op F) (Ans A) α

abbrev ask (o : Op F) : Code A (Ans A o) := .perform o

/-- One round of the loop of `execute`; `next` is what follows a transient failure that leaves the
circuit closed. -/
def tryOnce (isRetriable : E → Bool) (f : Code A (Except E T))
    (next : E → Code A (Except (ResilienceError E) T)) : Code A (Except (ResilienceError E) T) := do
  match ← f with
  | .ok v =>
    let _ ← ask .onSuccess
    return .ok v
  | .error e =>
    if !isRetriable e then return .error (.exhausted e)
    else
      let _ ← ask .onFailure
      if !(← ask .check) then return .error .circuit
      else next e

def attempts (isRetriable : E → Bool) (f : Code A (Except E T)) (attempt : Nat) :
    Nat → Code A (Except (ResilienceError E) T)
  | 0 => tryOnce isRetriable f (fun e => return .error (.exhausted e))
  | left + 1 => tryOnce isRetriable f (fun _ => do
      let _ ← ask (.sleep attempt)
      attempts isRetriable f (attempt + 1) left)

def execute (isRetriable : E → Bool) (maxAttempts : Nat) (kind : CallKind)
    (f : Code A (Except E T)) : Code A (Except (ResilienceError E) T) := do
  if !(← ask .check) then return .error .circuit
  else
    let maxAttempts := if kind = .submit then 1 else max maxAttempts 1
    attempts isRetriable f 0 (maxAttempts - 1)

/-! ### What `execute` reports -/

def fetch (f : F) (decode : A f → Except E T) : Code A (Except E T) := do
  let a ← ask (.request f)
  return decode a

def requests : List (Sigma (Ans A)) → List (Sigma A)
  | [] => []
  | ⟨.request f, a⟩ :: as => ⟨f, a⟩ :: requests as
  | _ :: as => requests as

/-- The result is the decoded answer, or `circuit` in place of a transient failure. -/
def Reports (isRetriable : E → Bool) (d : Except E T) (res : Except (ResilienceError E) T) : Prop :=
  res = d.mapError .exhausted ∨ ∃ e, d = .error e ∧ isRetriable e = true ∧ res = .error .circuit

def Refused (f : F) (decode : A f → Except E T) (y : Sigma A) : Prop :=
  ∃ a e, y = ⟨f, a⟩ ∧ decode a = .error e

/-- Only `f` is requested, again only after errors, and by a submission only once. -/
def Polite (kind : CallKind) (f : F) (decode : A f → Except E T) (as : List (Sigma (Ans A)))
    (o : Op F) : Prop :=
  ∀ q, o = .request q → q = f ∧ (kind = .submit → requests as = []) ∧
    ∀ y ∈ requests as, Refused f decode y

variable {isRetriable : E → Bool} {kind : CallKind} {f : F} {decode : A f → Except E T}
  {as : List (Sigma (Ans A))}

theorem Refused.request_eq {y : Sigma A} (h : Refused f decode y) : y.1 = f := by
  obtain ⟨a, e, rfl, -⟩ := h
  rfl

theorem tryOnce_ends {next : E → Code A (Except (ResilienceError E) T)}
    {Q : Except (ResilienceError E) T → List (Sigma (Ans A)) → Prop}
    (hkind : kind = .submit → requests as = []) (has : ∀ y ∈ requests as, Refused f decode y)
    (hQ : ∀ a as' res, requests as' = ⟨f, a⟩ :: requests as → Reports isRetriable (decode a) res →
      Q res as')
    (hnext : ∀ a as' e, requests as' = ⟨f, a⟩ :: requests as → decode a = .error e →
      isRetriable e = true → (next e).Ends (Polite kind f decode) Q as') :
    (tryOnce isRetriable (fetch f decode) next).Ends (Polite kind f decode) Q as := by
  refine ⟨fun q hq => ⟨(Op.request.inj hq).symm, hkind, has⟩, fun a => ?_⟩
  apply ends_bind
  show Prog.Ends _ _ Q _
  cases hd : decode a with
  | ok => exact ⟨fun q hq => (nomatch hq), fun _ => hQ a _ _ rfl (.inl (by rw [hd]; rfl))⟩
  | error e =>
    by_cases hr : isRetriable e = true
    · simp only [hr, Bool.not_true]
      refine ⟨fun q hq => (nomatch hq), fun _ => ⟨fun q hq => (nomatch hq), fun admitted => ?_⟩⟩
      cases admitted with
      | true => exact hnext a _ e rfl hd hr
      | false => exact hQ a _ _ rfl (.inr ⟨e, hd, hr, rfl⟩)
    · simp only [hr]
      exact hQ a _ _ rfl (.inl (by rw [hd]; rfl))

theorem attempts_ends (attempt left : Nat) (has : ∀ y ∈ requests as, Refused f decode y)
    (hkind : kind = .submit → left = 0 ∧ requests as = []) :
    (attempts isRetriable (fetch f decode) attempt left).Ends (Polite kind f decode) (fun res as' =>
      ∃ a rest, requests as' = ⟨f, a⟩ :: rest ∧ (∀ y ∈ rest, Refused f decode y) ∧
        Reports isRetriable (decode a) res ∧ (kind = .submit → rest = [])) as := by
  induction left generalizing attempt as with
  | zero =>
    refine tryOnce_ends (fun hk => (hkind hk).2) has ?_ ?_
    · intro a as' res hreq hrep
      exact ⟨a, _, hreq, has, hrep, fun hk => (hkind hk).2⟩
    · intro a as' e hreq hd hr
      exact ⟨a, _, hreq, has, .inl (by rw [hd]; rfl), fun hk => (hkind hk).2⟩
  | succ left ih =>
    have hread : kind ≠ .submit := by
      intro hk
      have := (hkind hk).1
      omega
    refine tryOnce_ends (fun hk => absurd hk hread) has ?_ ?_
    · intro a as' res hreq hrep
      exact ⟨a, _, hreq, has, hrep, fun hk => absurd hk hread⟩
    · intro a as' e hreq hd hr
      have has' : ∀ y ∈ requests as', Refused f decode y := by
        intro y hy
        rw [hreq] at hy
        rcases List.mem_cons.mp hy with rfl | hy
        · exact ⟨a, e, rfl, hd⟩
        · exact has y hy
      exact ⟨fun q hq => (nomatch hq), fun _ => ih (attempt + 1) has' (fun hk => absurd hk hread)⟩

/-- **What `execute` reports is the answer to its last request**, all before it were answered with
errors, and a submission is sent at most once. -/
theorem execute_ends (maxAttempts : Nat) :
    (execute isRetriable maxAttempts kind (fetch f decode)).Ends (Polite kind f decode)
      (fun res as =>
      (res = .error .circuit ∧ requests as = []) ∨ ∃ a rest, requests as = ⟨f, a⟩ :: rest ∧
        (∀ y ∈ rest, Refused f decode y) ∧ Reports isRetriable (decode a) res ∧
        (kind = .submit → rest = [])) [] := by
  refine ⟨fun q hq => (nomatch hq), fun admitted => ?_⟩
  cases admitted with
  | false => exact .inl ⟨rfl, rfl⟩
  | true =>
    refine (attempts_ends 0 _ (fun y hy => absurd hy List.not_mem_nil) ?_).imp
      (fun res as h => .inr h)
    intro hk
    exact ⟨by rw [if_pos hk], rfl⟩

end

end Octo.Resilience
