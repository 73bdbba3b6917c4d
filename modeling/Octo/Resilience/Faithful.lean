import Octo.Resilience.Execute

/-!
# What `execute` reports against what was invoked

One call of `execute` among others.  A `Script` is everything the call does not decide itself: what
the other callers do to the breaker and how much time goes by before each of its own calls, and what
each invocation of the wrapped closure `f` answers.  `executed` runs the code along a script, so it
is total in all of these.
-/

namespace Octo.Resilience

open Conc

structure Shared where
  breaker : Breaker
  now : Nat

namespace Shared

def check (s : Shared) : Bool × Shared :=
  ((s.breaker.check s.now).1, { s with breaker := (s.breaker.check s.now).2 })

def onSuccess (s : Shared) : Shared := { s with breaker := s.breaker.onSuccess }

def onFailure (s : Shared) : Shared := { s with breaker := s.breaker.onFailure s.now }

def Admits (s : Shared) : Prop :=
  match s.breaker.state with
  | .closed => True
  | .opened since => s.breaker.resetTimeout ≤ s.now - since
  | .halfOpen since => s.breaker.resetTimeout ≤ s.now - since

theorem admits_of_closed {s : Shared} (h : s.breaker.state = .closed) : s.Admits := by
  rw [Admits, h]
  trivial

theorem check_cases (s : Shared) :
    (¬ s.Admits ∧ s.check = (false, s)) ∨ (s.breaker.state = .closed ∧ s.check = (true, s)) ∨
      (s.breaker.state ≠ .closed ∧ s.Admits ∧
        s.check = (true, { s with breaker := { s.breaker with state := .halfOpen s.now } })) := by
  cases hst : s.breaker.state with
  | closed => exact .inr (.inl ⟨rfl, by simp [check, Breaker.check, hst]⟩)
  | opened since | halfOpen since =>
    by_cases h : s.breaker.resetTimeout ≤ s.now - since
    · exact .inr (.inr ⟨by simp, by simp [Admits, hst, h], by simp [check, Breaker.check, hst,
        Breaker.cooldown, h]⟩)
    · exact .inl ⟨by simp [Admits, hst, h], by simp [check, Breaker.check, hst,
        Breaker.cooldown, h]⟩

theorem check_eq_true_iff {s : Shared} : s.check.1 = true ↔ s.Admits := by
  rcases s.check_cases with ⟨hadmits, hc⟩ | ⟨hst, hc⟩ | ⟨-, hadmits, hc⟩
  · simp [hc, hadmits]
  · simp [hc, admits_of_closed hst]
  · simp [hc, hadmits]

end Shared

/-- What happens between two calls of one caller: time goes by, other callers use the breaker. -/
inductive Other
  | tick (dt : Nat)
  | check
  | onSuccess
  | onFailure

def Shared.after (s : Shared) : Other → Shared
  | .tick dt => { s with now := s.now + dt }
  | .check => s.check.2
  | .onSuccess => s.onSuccess
  | .onFailure => s.onFailure

/-- What the others do before the caller's call number `n`, and what the `k`-th invocation of `f`
answers. -/
structure Script (E T : Type) where
  others : Nat → List Other
  outcomes : Nat → Except E T

/-- The shared state, and how often `f` was invoked. -/
structure Caller where
  shared : Shared
  invoked : Nat

section

variable {E T : Type}

namespace Script

variable (sc : Script E T)

/-- The state the caller's call number `n` finds. -/
def found (n : Nat) (s : Shared) : Shared := (sc.others n).foldl Shared.after s

def step (o : Op Unit) (n : Nat) (c : Caller) : Ans (fun _ => Except E T) o × Caller :=
  let s := sc.found n c.shared
  match o with
  | .check => (s.check.1, { c with shared := s.check.2 })
  | .onSuccess => ((), { c with shared := s.onSuccess })
  | .onFailure => ((), { c with shared := s.onFailure })
  | .sleep _ => ((), { c with shared := s })
  | .request _ => (sc.outcomes c.invoked, ⟨s, c.invoked + 1⟩)

/-- From the `k`-th invocation, which fails transiently, to the re-check that follows it: these are
the calls `4 k + 1` to `4 k + 3`. -/
def failing (k : Nat) (s : Shared) : Shared :=
  sc.found (4 * k + 3) (sc.found (4 * k + 2) (sc.found (4 * k + 1) s)).onFailure

/-- The state before the `k`-th invocation, after as many transient failures. -/
def atRequest (s : Shared) : Nat → Shared
  | 0 => (sc.found 0 s).check.2
  | k + 1 => sc.found (4 * k + 4) (sc.failing k (atRequest s k)).check.2

/-- The state in which the breaker is asked again, after the transient failure of the `k`-th
invocation. -/
def atRecheck (s : Shared) (k : Nat) : Shared := sc.failing k (sc.atRequest s k)

end Script

/-- `execute` along a script: what it returns, and how often it invoked `f`. -/
def executed (sc : Script E T) (isRetriable : E → Bool) (maxAttempts : Nat) (kind : CallKind)
    (s : Shared) : Except (ResilienceError E) T × Nat :=
  let r := (execute isRetriable maxAttempts kind (fetch () id)).runWith sc.step 0 ⟨s, 0⟩
  (r.1, r.2.2.invoked)

def limit (kind : CallKind) (maxAttempts : Nat) : Nat :=
  if kind = .submit then 1 else max 1 maxAttempts

def Transient (isRetriable : E → Bool) (d : Except E T) : Prop :=
  ∃ e, d = .error e ∧ isRetriable e = true

/-- The result `res`, after so many invocations with these outcomes, says what happened. -/
structure Faithful (isRetriable : E → Bool) (bound : Nat) (outcomes : Nat → Except E T)
    (res : Except (ResilienceError E) T) (invoked : Nat) : Prop where
  bounded : invoked ≤ bound
  again : ∀ k, k + 1 < invoked → Transient isRetriable (outcomes k)
  circuit : res = .error .circuit → invoked = 0
  ok : ∀ v, res = .ok v → 0 < invoked ∧ outcomes (invoked - 1) = .ok v
  exhausted : ∀ e, res = .error (.exhausted e) → 0 < invoked ∧ outcomes (invoked - 1) = .error e

variable {sc : Script E T} {isRetriable : E → Bool} {s : Shared}

variable {k : Nat} {next : E → Code (fun _ => Except E T) (Except (ResilienceError E) T)}
  {s0 : Shared} {e : E}

theorem tryOnce_ok {n : Nat} {v : T} (hd : sc.outcomes k = .ok v) :
    (tryOnce isRetriable (fetch () id) next).runWith sc.step n ⟨s0, k⟩ =
      (.ok v, n + 2, ⟨(sc.found (n + 1) (sc.found n s0)).onSuccess, k + 1⟩) := by
  simp [tryOnce, fetch, Prog.runWith, Script.step, hd]

theorem tryOnce_permanent {n : Nat} (hd : sc.outcomes k = .error e) (he : isRetriable e = false) :
    (tryOnce isRetriable (fetch () id) next).runWith sc.step n ⟨s0, k⟩ =
      (.error (.exhausted e), n + 1, ⟨sc.found n s0, k + 1⟩) := by
  simp [tryOnce, fetch, Prog.runWith, Script.step, hd, he]

theorem tryOnce_refused (hd : sc.outcomes k = .error e) (he : isRetriable e = true)
    (hc : (sc.failing k s0).check.1 = false) :
    (tryOnce isRetriable (fetch () id) next).runWith sc.step (4 * k + 1) ⟨s0, k⟩ =
      (.error .circuit, 4 * k + 4, ⟨(sc.failing k s0).check.2, k + 1⟩) := by
  simp only [Script.failing] at hc
  simp [tryOnce, fetch, Prog.runWith, Script.step, Script.failing, hd, he, hc]

theorem tryOnce_admitted (hd : sc.outcomes k = .error e) (he : isRetriable e = true)
    (hc : (sc.failing k s0).check.1 = true) :
    (tryOnce isRetriable (fetch () id) next).runWith sc.step (4 * k + 1) ⟨s0, k⟩ =
      (next e).runWith sc.step (4 * k + 4) ⟨(sc.failing k s0).check.2, k + 1⟩ := by
  simp only [Script.failing] at hc
  simp [tryOnce, fetch, Prog.runWith, Script.step, Script.failing, hd, he, hc]

/-- Why the loop may stop at its `m`-th invocation with the result `res`. -/
inductive Stops (sc : Script E T) (isRetriable : E → Bool) (s : Shared) (bound m : Nat)
    (res : Except (ResilienceError E) T) : Prop
  | final : ¬ Transient isRetriable (sc.outcomes m) → res = (sc.outcomes m).mapError .exhausted →
      Stops sc isRetriable s bound m res
  | refused : Transient isRetriable (sc.outcomes m) → ¬ (sc.atRecheck s m).Admits →
      res = .error .circuit → Stops sc isRetriable s bound m res
  | last : (sc.atRecheck s m).Admits → m + 1 = bound → res = (sc.outcomes m).mapError .exhausted →
      Stops sc isRetriable s bound m res

variable (sc isRetriable s)

theorem tryOnce_cases (k : Nat)
    (next : E → Code (fun _ => Except E T) (Except (ResilienceError E) T)) :
    let r := (tryOnce isRetriable (fetch () id) next).runWith sc.step (4 * k + 1)
      ⟨sc.atRequest s k, k⟩
    (r.2.2.invoked = k + 1 ∧ ∀ bound, Stops sc isRetriable s bound k r.1) ∨
    ∃ e, sc.outcomes k = .error e ∧ isRetriable e = true ∧ (sc.atRecheck s k).Admits ∧
      r = (next e).runWith sc.step (4 * k + 4) ⟨(sc.atRecheck s k).check.2, k + 1⟩ := by
  intro r
  cases hd : sc.outcomes k with
  | ok =>
    left
    have hr : r = _ := tryOnce_ok hd
    have hfinal : ¬ Transient isRetriable (sc.outcomes k) := by
      rw [hd]
      exact fun ⟨e, he, _⟩ => nomatch he
    rw [hr]
    exact ⟨rfl, fun bound => .final hfinal (by rw [hd]; rfl)⟩
  | error e =>
    by_cases he : isRetriable e = true
    · by_cases hc : (sc.atRecheck s k).Admits
      · exact .inr ⟨e, rfl, he, hc, tryOnce_admitted hd he (Shared.check_eq_true_iff.mpr hc)⟩
      · left
        have hr : r = _ := tryOnce_refused hd he
          (Bool.eq_false_iff.mpr (mt Shared.check_eq_true_iff.mp hc))
        rw [hr]
        exact ⟨rfl, fun bound => .refused ⟨e, hd, he⟩ hc rfl⟩
    · left
      have hr : r = _ := tryOnce_permanent hd (Bool.eq_false_iff.mpr he)
      have hfinal : ¬ Transient isRetriable (sc.outcomes k) := by
        rw [hd]
        exact fun ⟨e', he', hr'⟩ => he (Except.error.inj he' ▸ hr')
      rw [hr]
      exact ⟨rfl, fun bound => .final hfinal (by rw [hd]; rfl)⟩

/-- **Where the loop stops**: at some invocation `m`, after transient failures that were all
followed by a re-check that admitted. -/
theorem attempts_stops (left k : Nat) :
    let r := (attempts isRetriable (fetch () id) k left).runWith sc.step (4 * k + 1)
      ⟨sc.atRequest s k, k⟩
    ∃ m, m ≤ k + left ∧ r.2.2.invoked = m + 1 ∧ Stops sc isRetriable s (k + left + 1) m r.1 ∧
      ∀ j, k ≤ j → j < m → Transient isRetriable (sc.outcomes j) ∧ (sc.atRecheck s j).Admits := by
  induction left generalizing k with
  | zero =>
    intro r
    refine ⟨k, Nat.le_refl k, ?_⟩
    have hnone : ∀ j, k ≤ j → j < k → Transient isRetriable (sc.outcomes j) ∧
        (sc.atRecheck s j).Admits :=
      fun j hkj hjk => absurd hjk (Nat.not_lt.mpr hkj)
    rcases tryOnce_cases sc isRetriable s k (fun e => return .error (.exhausted e)) with ⟨hi, hs⟩
      | ⟨e, hd, -, hc, hr⟩
    · exact ⟨hi, hs _, hnone⟩
    · have hr : r = _ := hr
      rw [hr]
      exact ⟨rfl, .last hc rfl (by rw [hd]; rfl), hnone⟩
  | succ left ih =>
    intro r
    rcases tryOnce_cases sc isRetriable s k (fun _ => do
      let _ ← ask (.sleep k)
      attempts isRetriable (fetch () id) (k + 1) left) with ⟨hi, hs⟩ | ⟨e, hd, he, hc, hr⟩
    · exact ⟨k, by omega, hi, hs _, fun j hkj hjk => absurd hjk (Nat.not_lt.mpr hkj)⟩
    · -- after the sleep the loop goes on with the invocation `k + 1`
      have hr : r = (attempts isRetriable (fetch () id) (k + 1) left).runWith sc.step
          (4 * (k + 1) + 1) ⟨sc.atRequest s (k + 1), k + 1⟩ := hr
      obtain ⟨m, hm, hi, hs, hall⟩ := ih (k + 1)
      rw [← hr] at hi hs
      have hbound : k + 1 + left + 1 = k + (left + 1) + 1 := by omega
      rw [hbound] at hs
      refine ⟨m, by omega, hi, hs, ?_⟩
      intro j hkj hjm
      by_cases hj : j = k
      · subst hj
        exact ⟨⟨e, hd, he⟩, hc⟩
      · exact hall j (by omega) hjm

theorem executed_cases (maxAttempts : Nat) (kind : CallKind) :
    let r := executed sc isRetriable maxAttempts kind s
    (¬ (sc.found 0 s).Admits ∧ r = (.error .circuit, 0)) ∨
    (sc.found 0 s).Admits ∧ ∃ m, m < limit kind maxAttempts ∧ r.2 = m + 1 ∧
      Stops sc isRetriable s (limit kind maxAttempts) m r.1 ∧
      ∀ j < m, Transient isRetriable (sc.outcomes j) ∧ (sc.atRecheck s j).Admits := by
  intro r
  by_cases hadmits : (sc.found 0 s).Admits
  · right
    have hlimit : limit kind maxAttempts = (if kind = .submit then 1 else max maxAttempts 1) - 1 +
        1 := by
      unfold limit
      split <;> omega
    obtain ⟨m, hm, hi, hs, hall⟩ :=
      attempts_stops sc isRetriable s ((if kind = .submit then 1 else max maxAttempts 1) - 1) 0
    have hr : r = (fun q : _ × _ × Caller => (q.1, q.2.2.invoked))
        ((attempts isRetriable (fetch () id) 0
        ((if kind = .submit then 1 else max maxAttempts 1) - 1)).runWith sc.step 1
          ⟨sc.atRequest s 0, 0⟩) := by
      have hc : (sc.found 0 s).check.1 = true := Shared.check_eq_true_iff.mpr hadmits
      show executed sc isRetriable maxAttempts kind s = _
      simp [executed, execute, Prog.runWith, Script.step, Script.atRequest, hc]
    rw [hr, hlimit]
    rw [Nat.zero_add] at hs
    exact ⟨hadmits, m, by omega, hi, hs, fun j hj => hall j (Nat.zero_le j) hj⟩
  · left
    have hc : (sc.found 0 s).check.1 = false :=
      Bool.eq_false_iff.mpr (mt Shared.check_eq_true_iff.mp hadmits)
    refine ⟨hadmits, ?_⟩
    show executed sc isRetriable maxAttempts kind s = _
    simp [executed, execute, Prog.runWith, Script.step, hc]

theorem faithful_of_outcome {bound m : Nat} {outcomes : Nat → Except E T} (hm : m < bound)
    (hall : ∀ j < m, Transient isRetriable (outcomes j)) :
    Faithful isRetriable bound outcomes ((outcomes m).mapError .exhausted) (m + 1) where
  bounded := hm
  again k hk := hall k (by omega)
  circuit h := by
    cases hd : outcomes m with
    | ok | error => exact nomatch hd ▸ h
  ok v h := by
    refine ⟨Nat.succ_pos m, ?_⟩
    show outcomes m = _
    cases hd : outcomes m with
    | ok =>
      rw [hd] at h
      cases h
      rfl
    | error => exact nomatch hd ▸ h
  exhausted e h := by
    refine ⟨Nat.succ_pos m, ?_⟩
    show outcomes m = _
    cases hd : outcomes m with
    | ok => exact nomatch hd ▸ h
    | error =>
      rw [hd] at h
      cases h
      rfl

variable {sc isRetriable s}

/-- **What `execute` reports**, for every breaker, policy, kind of call, sequence of outcomes and
behaviour of the other callers: it is faithful exactly if every re-check after a transient failure
finds the circuit closed or its cool-down elapsed. -/
theorem execute_faithful_iff (sc : Script E T) (isRetriable : E → Bool) (maxAttempts : Nat)
    (kind : CallKind) (s : Shared) :
    Faithful isRetriable (limit kind maxAttempts) sc.outcomes
      (executed sc isRetriable maxAttempts kind s).1
        (executed sc isRetriable maxAttempts kind s).2 ↔
      ((sc.found 0 s).Admits → ∀ k < limit kind maxAttempts,
        (∀ j ≤ k, Transient isRetriable (sc.outcomes j)) → (sc.atRecheck s k).Admits) := by
  rcases executed_cases sc isRetriable s maxAttempts kind with ⟨hrefused, hr⟩
    | ⟨hadmits, m, hm, hi, hs, hall⟩
  · -- refused at once: nothing was invoked
    rw [hr]
    refine ⟨fun _ h => absurd h hrefused, fun _ => ?_⟩
    exact ⟨Nat.zero_le _, fun k hk => absurd hk (Nat.not_lt_zero _), fun _ => rfl,
      fun v h => (nomatch h), fun e h => (nomatch h)⟩
  · rw [hi]
    constructor
    · intro hf _ k hk htransient
      cases hs with
      | refused _ _ hres => exact absurd (hf.circuit hres) (Nat.succ_ne_zero m)
      | final hfinal =>
        have hkm : k < m := by
          by_contra hkm
          exact hfinal (htransient m (Nat.not_lt.mp hkm))
        exact (hall k hkm).2
      | last hlast =>
        by_cases hkm : k = m
        · rw [hkm]
          exact hlast
        · exact (hall k (by omega)).2
    · intro hcond
      have hbefore : ∀ j < m, Transient isRetriable (sc.outcomes j) := fun j hj => (hall j hj).1
      cases hs with
      | refused ht hc =>
        have hle : ∀ j ≤ m, Transient isRetriable (sc.outcomes j) := by
          intro j hj
          rcases Nat.lt_or_eq_of_le hj with hj | rfl
          · exact hbefore j hj
          · exact ht
        exact absurd (hcond hadmits m hm hle) hc
      | final _ hres => exact hres ▸ faithful_of_outcome isRetriable hm hbefore
      | last _ _ hres => exact hres ▸ faithful_of_outcome isRetriable hm hbefore

/-- A breaker that opens at the first failure, and a submission that fails transiently. -/
def openingFailure : Script Unit Unit := ⟨fun _ => [], fun _ => .error ()⟩

/-- The one failure opens the circuit, and the submission that was sent is reported as not
attempted. -/
theorem opening_failure_unfaithful :
    executed openingFailure (fun _ => true) 3 .submit ⟨.new 1 30, 0⟩ = (.error .circuit, 1) ∧
      ¬ Faithful (fun _ => true) (limit .submit 3) openingFailure.outcomes
        (executed openingFailure (fun _ => true) 3 .submit ⟨.new 1 30, 0⟩).1
        (executed openingFailure (fun _ => true) 3 .submit ⟨.new 1 30, 0⟩).2 :=
  ⟨rfl, fun h => absurd (h.circuit rfl) (by decide)⟩

end

end Octo.Resilience
