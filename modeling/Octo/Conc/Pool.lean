import Mathlib.Logic.Relation
import Octo.Conc.Prog

/-!
# Pools of programs on a shared state

A `Sys` gives every kind of job its program and every call its atomic effect on
the shared state.  A configuration holds the shared state, the threads started so
far and the history of the calls made.  Four things can happen, in any order: a job
is started, a thread makes its next call, a thread dies, or the outside world moves
on its own (`env`).

The nondeterminism of a call (a failure, how much a remote party returns) is an
explicit `Choice`, so a schedule can be executed: `runMoves` is the step relation
as a function, and `reach_runMoves` says that what it computes is reached.

`Reach S cond init c` is reachability by steps that all satisfy `cond`, which sees the
world before the step and the label.  `Reachable` is the same with no condition, and `Leads` is what
may follow a configuration.
-/

namespace Conc

open List

theorem call_inj {α σ : Type} {a a' : α} {s s' : σ} (h : some (a, s) = some (a', s')) :
    a = a' ∧ s = s' :=
  Prod.mk.inj (Option.some.inj h)

variable {α : Type} {l later before : List α}

theorem mem_of_split {x : α} (h : l = later ++ x :: before) : x ∈ l :=
  h ▸ mem_append_right _ mem_cons_self

theorem mem_of_before {x y : α} (h : l = later ++ x :: before) (hy : y ∈ before) : y ∈ l :=
  h ▸ mem_append_right _ (mem_cons_of_mem _ hy)

/-- A call that was made, with its answer and the states before and after it. -/
structure Act (Op : Type) (Ans : Op → Type) (σ : Type) where
  op : Op
  ans : Ans op
  pre : σ
  post : σ

structure Event (Op : Type) (Ans : Op → Type) (σ : Type) where
  tid : Nat
  act : Act Op Ans σ

/-- The shared state, the jobs started so far (thread `i` runs job `i`) and the history,
newest call first. -/
structure World (J Op : Type) (Ans : Op → Type) (σ : Type) where
  db : σ
  jobs : List J
  hist : List (Event Op Ans σ)

structure Conf (J Op : Type) (Ans : Op → Type) (σ : Type) where
  world : World J Op Ans σ
  threads : List (Prog Op Ans Unit)

/-- A system of jobs: their code, the effect of the calls, and the moves of the outside
world. -/
structure Sys (J Op : Type) (Ans : Op → Type) (Choice Env σ : Type) where
  code : J → Prog Op Ans Unit
  canStart : J → σ → Bool
  exec : (o : Op) → Choice → σ → Option (Ans o × σ)
  env : Env → σ → Option σ

inductive Label (J Op : Type) (Ans : Op → Type) : Type
  | start (j : J)
  | call (i : Nat) (o : Op) (a : Ans o)
  | crash (i : Nat)
  | env

section

variable {J Op : Type} {Ans : Op → Type} {Choice Env σ : Type}

def World.record (w : World J Op Ans σ) (i : Nat) (o : Op) (a : Ans o) (s : σ) : World J Op Ans σ :=
  { w with db := s, hist := ⟨i, o, a, w.db, s⟩ :: w.hist }

def World.addJob (w : World J Op Ans σ) (j : J) : World J Op Ans σ :=
  { w with jobs := w.jobs ++ [j] }

def World.setDb (w : World J Op Ans σ) (s : σ) : World J Op Ans σ := { w with db := s }

def World.trace (w : World J Op Ans σ) (i : Nat) : List (Act Op Ans σ) :=
  (w.hist.filter (fun e => e.tid == i)).map (·.act)

section

variable (w : World J Op Ans σ) (i : Nat) (o : Op) (a : Ans o) (s : σ) (j : J)

@[simp] theorem World.record_db : (w.record i o a s).db = s := rfl
@[simp] theorem World.record_jobs : (w.record i o a s).jobs = w.jobs := rfl
@[simp] theorem World.record_hist : (w.record i o a s).hist = ⟨i, o, a, w.db, s⟩ :: w.hist := rfl
@[simp] theorem World.trace_record_self :
    (w.record i o a s).trace i = ⟨o, a, w.db, s⟩ :: w.trace i := by
  simp [World.trace]
@[simp] theorem World.trace_record_of_ne {k : Nat} (h : i ≠ k) :
    (w.record i o a s).trace k = w.trace k := by
  simp [World.trace, h]
@[simp] theorem World.addJob_db : (w.addJob j).db = w.db := rfl
@[simp] theorem World.addJob_jobs : (w.addJob j).jobs = w.jobs ++ [j] := rfl
@[simp] theorem World.addJob_hist : (w.addJob j).hist = w.hist := rfl
@[simp] theorem World.setDb_db : (w.setDb s).db = s := rfl
@[simp] theorem World.setDb_jobs : (w.setDb s).jobs = w.jobs := rfl
@[simp] theorem World.setDb_hist : (w.setDb s).hist = w.hist := rfl
@[simp] theorem World.trace_addJob {k : Nat} : (w.addJob j).trace k = w.trace k := rfl
@[simp] theorem World.trace_setDb {k : Nat} : (w.setDb s).trace k = w.trace k := rfl

variable {i k : Nat} {w : World J Op Ans σ} {x : Act Op Ans σ}

theorem World.mem_trace {i : Nat} : x ∈ w.trace i ↔ ⟨i, x⟩ ∈ w.hist := by
  simp only [World.trace, mem_map, mem_filter, beq_iff_eq]
  constructor
  · rintro ⟨⟨k, y⟩, ⟨hm, rfl⟩, rfl⟩
    exact hm
  · intro h
    exact ⟨⟨i, x⟩, ⟨h, rfl⟩, rfl⟩

theorem World.trace_subset_record {o : Op} {a : Ans o} {s : σ} :
    w.trace k ⊆ (w.record i o a s).trace k := by
  intro x hx
  by_cases hik : i = k
  · subst hik
    rw [World.trace_record_self]
    exact mem_cons_of_mem _ hx
  · rw [World.trace_record_of_ne _ _ _ _ _ hik]
    exact hx

theorem World.mem_trace_record {o : Op} {a : Ans o} {s : σ} (hx : x ∈ (w.record i o a s).trace k) :
    x ∈ w.trace k ∨ i = k ∧ x = ⟨o, a, w.db, s⟩ := by
  by_cases hik : i = k
  · subst hik
    rw [World.trace_record_self] at hx
    rcases mem_cons.mp hx with hx | hx
    · exact .inr ⟨rfl, hx⟩
    · exact .inl hx
  · rw [World.trace_record_of_ne _ _ _ _ _ hik] at hx
    exact .inl hx

theorem World.exists_mem_trace_record {o : Op} {a : Ans o} {s : σ}
    {P : Act Op Ans σ → Prop} : (∃ x ∈ (w.record i o a s).trace k, P x) ↔
      (∃ x ∈ w.trace k, P x) ∨ i = k ∧ P ⟨o, a, w.db, s⟩ := by
  constructor
  · intro h
    obtain ⟨x, hx, hP⟩ := h
    rcases World.mem_trace_record hx with hx | ⟨hik, rfl⟩
    · exact .inl ⟨x, hx, hP⟩
    · exact .inr ⟨hik, hP⟩
  · intro h
    rcases h with ⟨x, hx, hP⟩ | ⟨rfl, hP⟩
    · exact ⟨x, World.trace_subset_record hx, hP⟩
    · exact ⟨_, by rw [World.trace_record_self]; exact mem_cons_self, hP⟩

end

inductive Step (S : Sys J Op Ans Choice Env σ) :
    Conf J Op Ans σ → Label J Op Ans → Conf J Op Ans σ → Prop
  | start {c : Conf J Op Ans σ} (j : J) : S.canStart j c.world.db = true →
      Step S c (.start j) ⟨c.world.addJob j, c.threads ++ [S.code j]⟩
  | call {c : Conf J Op Ans σ} (i : Nat) (o : Op) (k : Ans o → Prog Op Ans Unit) (ch : Choice)
      (a : Ans o) (s : σ) : c.threads[i]? = some (.call o k) →
      S.exec o ch c.world.db = some (a, s) →
      Step S c (.call i o a) ⟨c.world.record i o a s, c.threads.set i (k a)⟩
  | crash {c : Conf J Op Ans σ} (i : Nat) :
      Step S c (.crash i) ⟨c.world, c.threads.set i (.ret ())⟩
  | env {c : Conf J Op Ans σ} (e : Env) (s : σ) : S.env e c.world.db = some s →
      Step S c .env ⟨c.world.setDb s, c.threads⟩

def Conf.fresh (s : σ) : Conf J Op Ans σ := ⟨⟨s, [], []⟩, []⟩

/-- Reached from an initial state by steps that all satisfy `cond`. -/
inductive Reach (S : Sys J Op Ans Choice Env σ) (cond : World J Op Ans σ → Label J Op Ans → Prop)
    (init : σ → Prop) : Conf J Op Ans σ → Prop
  | init {s : σ} : init s → Reach S cond init (.fresh s)
  | step {c c' : Conf J Op Ans σ} {l : Label J Op Ans} : Reach S cond init c → Step S c l c' →
      cond c.world l → Reach S cond init c'

def Reachable (S : Sys J Op Ans Choice Env σ) (init : σ → Prop) (c : Conf J Op Ans σ) : Prop :=
  Reach S (fun _ _ => True) init c

variable {S : Sys J Op Ans Choice Env σ} {cond : World J Op Ans σ → Label J Op Ans → Prop}
  {init : σ → Prop} {c c' : Conf J Op Ans σ} {ok : World J Op Ans σ → Label J Op Ans → Bool}

theorem Reach.imp_init {init' : σ → Prop}
    (hi : ∀ s, init s → init' s) (h : Reach S cond init c) : Reach S cond init' c := by
  induction h with
  | init hs => exact .init (hi _ hs)
  | step _ hs hl ih => exact .step ih hs hl

/-- **A known invariant may be assumed of every world a step starts from.** -/
theorem Reach.strengthen {K : World J Op Ans σ → Prop} (hK : ∀ c, Reach S cond init c → K c.world)
    (h : Reach S cond init c) : Reach S (fun w l => cond w l ∧ K w) init c := by
  induction h with
  | init hi => exact .init hi
  | step hr hs hl ih => exact .step ih hs ⟨hl, hK _ hr⟩

theorem Reach.from_state (h : Reach S cond init c) : ∃ s, init s ∧ Reach S cond (· = s) c := by
  induction h with
  | @init s hi => exact ⟨s, hi, .init rfl⟩
  | step _ hs hl ih =>
    obtain ⟨s, hi, hr⟩ := ih
    exact ⟨s, hi, .step hr hs hl⟩

def Leads (S : Sys J Op Ans Choice Env σ) : Conf J Op Ans σ → Conf J Op Ans σ → Prop :=
  Relation.ReflTransGen (fun c c' => ∃ l, Step S c l c')

theorem Reachable.leads (hc : Reachable S init c) (h : Leads S c c') : Reachable S init c' := by
  induction h with
  | refl => exact hc
  | tail _ hstep ih =>
    obtain ⟨l, hs⟩ := hstep
    exact .step ih hs trivial

/-! ### Schedules -/

inductive Move (J Choice Env : Type) : Type
  | start (j : J)
  | call (i : Nat) (ch : Choice)
  | crash (i : Nat)
  | env (e : Env)

def runMove (S : Sys J Op Ans Choice Env σ) (c : Conf J Op Ans σ) :
    Move J Choice Env → Option (Label J Op Ans × Conf J Op Ans σ)
  | .start j =>
    if S.canStart j c.world.db then
      some (.start j, ⟨c.world.addJob j, c.threads ++ [S.code j]⟩)
    else none
  | .call i ch =>
    match c.threads[i]? with
    | some (.call o k) =>
      match S.exec o ch c.world.db with
      | some (a, s) => some (.call i o a, ⟨c.world.record i o a s, c.threads.set i (k a)⟩)
      | none => none
    | _ => none
  | .crash i => some (.crash i, ⟨c.world, c.threads.set i (.ret ())⟩)
  | .env e => (S.env e c.world.db).map (fun s => (.env, ⟨c.world.setDb s, c.threads⟩))

/-- The moves in a row, as long as each of them is `ok`. -/
def runMovesIf (S : Sys J Op Ans Choice Env σ) (ok : World J Op Ans σ → Label J Op Ans → Bool) :
    List (Move J Choice Env) → Conf J Op Ans σ → Option (Conf J Op Ans σ)
  | [], c => some c
  | m :: ms, c =>
    match runMove S c m with
    | some (l, c') => if ok c.world l then runMovesIf S ok ms c' else none
    | none => none

abbrev runMoves (S : Sys J Op Ans Choice Env σ) := runMovesIf S (fun _ _ => true)

theorem step_of_runMove {m : Move J Choice Env} {l : Label J Op Ans}
    (h : runMove S c m = some (l, c')) : Step S c l c' := by
  cases m with
  | start j =>
    simp only [runMove] at h
    split at h
    · cases h
      exact .start j ‹_›
    · cases h
  | call i ch =>
    simp only [runMove] at h
    split at h
    · rename_i o k hk
      split at h
      · rename_i a s hs
        cases h
        exact .call i o k ch a s hk hs
      · cases h
    · cases h
  | crash i =>
    cases h
    exact .crash i
  | env e =>
    simp only [runMove, Option.map_eq_some_iff] at h
    obtain ⟨s, hs, he⟩ := h
    cases he
    exact .env e s hs

theorem reach_runMovesIf (hok : ∀ w l, ok w l = true → cond w l) (ms : List (Move J Choice Env))
    (hc : Reach S cond init c) (h : runMovesIf S ok ms c = some c') : Reach S cond init c' := by
  induction ms generalizing c with
  | nil => rw [← Option.some.inj h]; exact hc
  | cons m ms ih =>
    simp only [runMovesIf] at h
    split at h
    · rename_i hm
      split at h
      · exact ih (.step hc (step_of_runMove hm) (hok _ _ ‹_›)) h
      · cases h
    · cases h

theorem reach_runMoves (ms : List (Move J Choice Env)) (hc : Reachable S init c)
    (h : runMoves S ms c = some c') : Reachable S init c' :=
  reach_runMovesIf (fun _ _ _ => trivial) ms hc h

variable {p : Conf J Op Ans σ → Prop} {s : σ}

/-- What a schedule ends in is reached; the schedule itself is evaluated. -/
theorem exists_reach_of_runMovesIf (ok : World J Op Ans σ → Label J Op Ans → Bool) (hs : init s)
    (ms : List (Move J Choice Env))
    (h : ∃ c ∈ runMovesIf S ok ms (.fresh s), p c) :
    ∃ c, Reach S (fun w l => ok w l = true) init c ∧ p c := by
  obtain ⟨c, hr, hp⟩ := h
  exact ⟨c, reach_runMovesIf (fun _ _ h => h) ms (.init hs) hr, hp⟩

theorem exists_reachable_of_runMoves (hs : init s) (ms : List (Move J Choice Env))
    (h : ∃ c ∈ runMoves S ms (.fresh s), p c) : ∃ c, Reachable S init c ∧ p c := by
  obtain ⟨c, hr, hp⟩ := h
  exact ⟨c, reach_runMoves ms (.init hs) hr, hp⟩

end

end Conc
