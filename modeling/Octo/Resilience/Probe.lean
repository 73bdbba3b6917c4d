import Octo.Resilience.Faithful

/-!
# The probe slot of the circuit breaker

Any number of callers share a breaker over a monotone clock.  A caller is any code over the
operations of the breaker: `execute`, the one check and one report of the event stream in
`ingest/src/horizon.rs`, or a call that is dropped before it reports.

`check` promises that after a caller has claimed the probe slot every other caller is refused until
that probe reports, or until `reset_timeout` has elapsed.  Reports carry no identity, so this needs
a condition:

A late failure does no harm: it leaves the breaker as it is or restarts the cool-down
(`Held.onFailure`).
-/

namespace Octo.Resilience.Probe

open Conc List

section

variable (E T : Type)

abbrev Job := Code (fun _ : Unit => Except E T) Unit

abbrev Act := Conc.Act (Op Unit) (Ans (fun _ => Except E T)) Shared

abbrev Event := Conc.Event (Op Unit) (Ans (fun _ => Except E T)) Shared

abbrev World := Conc.World (Job E T) (Op Unit) (Ans (fun _ => Except E T)) Shared

variable {E T}

/-- One call on the shared breaker; `d` is what a request is answered. -/
def exec : (o : Op Unit) → Except E T → Shared → Option (Ans (fun _ => Except E T) o × Shared)
  | .check, _, s => some s.check
  | .onSuccess, _, s => some ((), s.onSuccess)
  | .onFailure, _, s => some ((), s.onFailure)
  | .sleep _, _, s => some ((), s)
  | .request _, d, s => some (d, s)

variable (E T) in
/-- Callers of every kind on one breaker; on its own only time goes by. -/
def callers : Sys (Job E T) (Op Unit) (Ans (fun _ => Except E T)) (Except E T) Nat Shared where
  code p := p
  canStart _ _ := true
  exec := exec
  env dt s := some (s.after (.tick dt))

def admitted : Act E T → Bool
  | ⟨.check, ok, _, _⟩ => ok
  | _ => false

/-- A check that was answered with `Ok` by a breaker that is not closed. -/
def claims (x : Act E T) : Bool := admitted x && x.pre.breaker.state != .closed

def reports (x : Act E T) : Bool := x.op == .onSuccess || x.op == .onFailure

/-- The probes whose callers have not reported since, with the times they were claimed. -/
def probes : List (Event E T) → List (Nat × Nat)
  | [] => []
  | e :: hist =>
    if claims e.act then (e.tid, e.act.pre.now) :: probes hist
    else if reports e.act then (probes hist).filter (fun p => p.1 != e.tid)
    else probes hist

/-- A success is reported only while every probe of another caller has timed out. -/
def noStaleSuccess (w : World E T) : Label (Job E T) (Op Unit) (Ans (fun _ => Except E T)) → Bool
  | .call i .onSuccess _ =>
    (probes w.hist).all (fun p => p.1 == i || decide (p.2 + w.db.breaker.resetTimeout ≤ w.db.now))
  | _ => true

/-- After `e`, and before the caller of `e` has reported, the call `x` is made. -/
def During (hist : List (Event E T)) (e x : Event E T) : Prop :=
  ∃ later between earlier, hist = later ++ x :: (between ++ e :: earlier) ∧
    ∀ y ∈ between, reports y.act = true → y.tid ≠ e.tid

end

/-! ### A probe in flight holds the breaker -/

def since : CbState → Option Nat
  | .closed => none
  | .opened openedAt => some openedAt
  | .halfOpen probeStarted => some probeStarted

/-- A probe claimed at `t` that has not timed out holds the breaker: it is not closed, and its
cool-down started no earlier. -/
def Held (t : Nat) (s : Shared) : Prop :=
  t ≤ s.now ∧ (s.now < t + s.breaker.resetTimeout → ∃ u, since s.breaker.state = some u ∧ t ≤ u)

namespace Held

variable {t : Nat} {s : Shared}

/-- **A held breaker admits nobody.** -/
theorem timed_out (h : Held t s) (hadmits : s.Admits) : t + s.breaker.resetTimeout ≤ s.now := by
  by_contra hlt
  obtain ⟨u, hu, htu⟩ := h.2 (Nat.not_le.mp hlt)
  have hle := h.1
  have hcool : s.breaker.resetTimeout ≤ s.now - u := by
    unfold Shared.Admits at hadmits
    cases hst : s.breaker.state with
    | closed =>
      rw [hst] at hu
      exact nomatch hu
    | opened | halfOpen =>
      rw [hst] at hu hadmits
      cases hu
      exact hadmits
  omega

theorem of_timed_out (hle : t ≤ s.now) (h : t + s.breaker.resetTimeout ≤ s.now) : Held t s :=
  ⟨hle, fun hlt => absurd h (Nat.not_le.mpr hlt)⟩

theorem onFailure (h : Held t s) : Held t s.onFailure := by
  refine ⟨h.1, fun hlt => ?_⟩
  by_cases hth : s.breaker.failureThreshold ≤ s.breaker.consecutiveFailures + 1
  · exact ⟨s.now, by simp [Shared.onFailure, Breaker.onFailure, hth, since], h.1⟩
  · obtain ⟨u, hu, htu⟩ := h.2 hlt
    exact ⟨u, by simpa [Shared.onFailure, Breaker.onFailure, hth] using hu, htu⟩

theorem tick (h : Held t s) (dt : Nat) : Held t (s.after (.tick dt)) := by
  refine ⟨Nat.le_add_right_of_le h.1, fun hlt => h.2 ?_⟩
  exact Nat.lt_of_le_of_lt (Nat.le_add_right _ dt) hlt

end Held

section

variable {E T : Type} {w : World E T}

/-- Every probe in flight holds the breaker, and no check was admitted while one did. -/
structure Guarded (reset : Nat) (w : World E T) : Prop where
  timeout : w.db.breaker.resetTimeout = reset
  held : ∀ p ∈ probes w.hist, Held p.2 w.db
  single : ∀ later x rest, w.hist = later ++ x :: rest → admitted x.act = true →
    ∀ p ∈ probes rest, p.2 + reset ≤ x.act.pre.now

variable {o : Op Unit} {d : Except E T} {a : Ans (fun _ => Except E T) o} {e : Event E T}
  {reset i : Nat} {s' : Shared}

theorem exec_resetTimeout {s s' : Shared}
    (h : exec o d s = some (a, s')) : s'.breaker.resetTimeout = s.breaker.resetTimeout := by
  cases o with
  | check =>
    rcases s.check_cases with ⟨-, hc⟩ | ⟨-, hc⟩ | ⟨-, -, hc⟩ <;>
    · rw [exec, hc] at h
      cases h
      rfl
  | onSuccess | onFailure | sleep | request =>
    cases h
    rfl

theorem not_reports_of_claims {x : Act E T} (h : claims x = true) : reports x = false := by
  obtain ⟨o, a, s, s'⟩ := x
  cases o with
  | check => rfl
  | onSuccess | onFailure | sleep | request => exact nomatch h

theorem mem_probes_cons {hist : List (Event E T)} {p : Nat × Nat} (hp : p ∈ probes (e :: hist)) :
    (claims e.act = true ∧ p = (e.tid, e.act.pre.now)) ∨ p ∈ probes hist ∧
    (reports e.act = true → p.1 ≠ e.tid) := by
  by_cases hc : claims e.act = true
  · have hr : reports e.act = false := not_reports_of_claims hc
    simp only [probes, hc, if_true, mem_cons] at hp
    rcases hp with hp | hp
    · exact .inl ⟨hc, hp⟩
    · exact .inr ⟨hp, fun h => absurd h (by simp [hr])⟩
  · by_cases hr : reports e.act = true
    · simp only [probes, hc, hr, if_true, Bool.false_eq_true, if_false, mem_filter,
        bne_iff_ne] at hp
      exact .inr ⟨hp.1, fun _ => hp.2⟩
    · simp only [probes, hc, hr] at hp
      exact .inr ⟨hp, fun h => absurd h hr⟩

/-- **One call keeps every probe in flight.** -/
theorem Guarded.held_record (hw : Guarded reset w) (he : exec o d w.db = some (a, s'))
    (hcond : noStaleSuccess w (.call i o a) = true) :
    ∀ p ∈ probes (w.record i o a s').hist, Held p.2 s' := by
  intro p hp
  rcases mem_probes_cons hp with ⟨hclaim, rfl⟩ | ⟨hold, hother⟩
  · -- the probe that was claimed by this call
    cases o with
    | check =>
      rcases w.db.check_cases with ⟨-, hc⟩ | ⟨hst, hc⟩ | ⟨-, -, hc⟩
      · rw [exec, hc] at he
        cases he
        exact nomatch hclaim
      · cases he
        simp [claims, hst] at hclaim
      · rw [exec, hc] at he
        cases he
        exact ⟨Nat.le_refl _, fun _ => ⟨w.db.now, rfl, Nat.le_refl _⟩⟩
    | onSuccess | onFailure | sleep | request => exact nomatch hclaim
  · -- a probe that was in flight before
    have hheld := hw.held p hold
    cases o with
    | check =>
      rcases w.db.check_cases with ⟨-, hc⟩ | ⟨-, hc⟩ | ⟨-, hadmits, hc⟩
      · rw [exec, hc] at he
        cases he
        exact hheld
      · rw [exec, hc] at he
        cases he
        exact hheld
      · rw [exec, hc] at he
        cases he
        exact .of_timed_out hheld.1 (hheld.timed_out hadmits)
    | onSuccess =>
      cases he
      have htimeout : p.1 = i ∨ p.2 + w.db.breaker.resetTimeout ≤ w.db.now := by
        simpa using all_eq_true.mp hcond p hold
      exact .of_timed_out hheld.1 (htimeout.resolve_left (hother rfl))
    | onFailure =>
      cases he
      exact hheld.onFailure
    | sleep | request =>
      cases he
      exact hheld

theorem Guarded.call (hw : Guarded reset w) (he : exec o d w.db = some (a, s'))
    (hcond : noStaleSuccess w (.call i o a) = true) : Guarded reset (w.record i o a s') where
  timeout := (exec_resetTimeout he).trans hw.timeout
  held := hw.held_record he hcond
  single later x rest hsplit hx p hp := by
    cases later with
    | cons y later => exact hw.single later x rest (cons.inj hsplit).2 hx p hp
    | nil =>
      -- the check just made: whoever held the breaker has timed out
      cases hsplit
      have hadmits : w.db.Admits := by
        cases o with
        | check =>
          cases he
          exact Shared.check_eq_true_iff.mp hx
        | onSuccess | onFailure | sleep | request => exact nomatch hx
      rw [← hw.timeout]
      exact (hw.held p hp).timed_out hadmits

theorem guarded {reset : Nat} {c : Conf (Job E T) (Op Unit) (Ans (fun _ => Except E T)) Shared}
    (hc : Reach (callers E T) (fun w l => noStaleSuccess w l = true)
      (fun s => s.breaker.resetTimeout = reset) c) : Guarded reset c.world := by
  induction hc with
  | init hs => exact ⟨hs, forall_mem_nil _, fun later x rest h => absurd h (by simp [Conf.fresh])⟩
  | step _ hstep hcond ih =>
    cases hstep with
    | start => exact ⟨ih.timeout, ih.held, ih.single⟩
    | call i o k d a s' _ he => exact ih.call he hcond
    | crash => exact ih
    | env dt s' he =>
      cases he
      exact ⟨ih.timeout, fun p hp => (ih.held p hp).tick dt, ih.single⟩

theorem mem_probes_of_silent {between earlier : List (Event E T)}
    (he : claims e.act = true) (hsilent : ∀ y ∈ between, reports y.act = true → y.tid ≠ e.tid) :
    (e.tid, e.act.pre.now) ∈ probes (between ++ e :: earlier) := by
  induction between with
  | nil => simp [probes, he]
  | cons y between ih =>
    have hmem := ih (forall_mem_cons.mp hsilent).2
    simp only [cons_append, probes]
    split
    · exact mem_cons_of_mem _ hmem
    · split
      · rename_i hr
        exact mem_filter.mpr ⟨hmem, by simpa using (hsilent y mem_cons_self hr).symm⟩
      · exact hmem

/-- **One probe at a time**: in every run in which no success is reported while another caller's
probe is in flight, no check succeeds between the claim of a probe and its report, until `reset` has
elapsed since the claim. -/
theorem single_probe {reset : Nat} {c : Conf (Job E T) (Op Unit) (Ans (fun _ => Except E T)) Shared}
    {e x : Event E T}
    (hc : Reach (callers E T) (fun w l => noStaleSuccess w l = true)
      (fun s => s.breaker.resetTimeout = reset) c) (hduring : During c.world.hist e x)
    (he : claims e.act = true) (hx : admitted x.act = true) :
    e.act.pre.now + reset ≤ x.act.pre.now := by
  obtain ⟨later, _, _, hhist, hsilent⟩ := hduring
  exact (guarded hc).single later x _ hhist hx _ (mem_probes_of_silent he hsilent)

def oneCall (ok : Bool) : Code (fun _ : Unit => Except E T) Unit := do
  if ← ask .check then
    if ok then ask .onSuccess else ask .onFailure
  else return ()

/-- A caller fails and opens the circuit, after the cool-down another claims the probe and is not
heard of again, and after one more cool-down a third one claims it. -/
def lostProbe : List (Move (Job Unit Unit) (Except Unit Unit) Nat) :=
  [.start (oneCall false), .start (oneCall true), .start (oneCall true), .call 0 (.ok ()),
    .call 0 (.ok ()), .env 30, .call 1 (.ok ()), .crash 1, .env 30, .call 2 (.ok ())]

theorem lost_probe_times_out :
    ∃ c e x, Reach (callers Unit Unit) (fun w l => noStaleSuccess w l = true)
      (fun s => s.breaker.resetTimeout = 30) c ∧
      During c.world.hist e x ∧ claims e.act = true ∧ admitted x.act = true ∧
      e.act.pre.now + 30 ≤ x.act.pre.now := by
  have hc : Reach (callers Unit Unit) (fun w l => noStaleSuccess w l = true)
      (fun s => s.breaker.resetTimeout = 30) _ :=
    reach_runMovesIf (fun _ _ h => h) lostProbe (.init (s := ⟨.new 1 30, 0⟩) rfl) rfl
  refine ⟨_, _, _, hc, ⟨[], [], _, rfl, ?_⟩, rfl, rfl, single_probe hc ⟨[], [], _, rfl, ?_⟩ rfl rfl⟩
  · exact List.forall_mem_nil _
  · exact List.forall_mem_nil _

/-! ### A success that comes late -/

/-- Two calls are admitted while the circuit is closed.  The second fails and opens it, after the
cool-down a third call claims the probe, the first one reports its success, and a fourth one is
admitted. -/
def lateSuccess : List (Move (Job Unit Unit) (Except Unit Unit) Nat) :=
  [.start (oneCall true), .start (oneCall false), .start (oneCall true), .start (oneCall true),
    .call 0 (.ok ()), .call 1 (.ok ()), .call 1 (.ok ()), .env 30, .call 2 (.ok ()),
    .call 0 (.ok ()), .call 3 (.ok ())]

/-- A success of a call that was admitted before the circuit opened closes it under the probe, and
the next check is admitted. -/
theorem stale_success_frees_probe :
    ∃ c e x, Reachable (callers Unit Unit) (fun s => s = ⟨.new 1 30, 0⟩) c ∧
      During c.world.hist e x ∧
      claims e.act = true ∧ admitted x.act = true ∧ x.tid ≠ e.tid ∧
      x.act.pre.now < e.act.pre.now + 30 := by
  refine ⟨_, _, _, reach_runMoves lateSuccess (.init rfl) rfl, ⟨[], [_], _, rfl, ?_⟩, rfl,
    rfl, by decide, by decide⟩
  intro y hy _
  rw [List.mem_singleton.mp hy]
  decide

end

end Octo.Resilience.Probe
