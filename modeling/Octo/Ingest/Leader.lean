import Octo.Conc.Trace
import Octo.Store.Call

/-!
# The ingest leader

`Supervisor::run_until_cancelled` on any number of replicas: the one whose session holds the
advisory lock of the network ticks, the others stand by.  A session may end at any time and frees
the lock, so another replica can take over while the old leader is in a tick, or about to start one.
-/

namespace Octo.Ingest.Leader

open Conc List

/-- The number of sessions that have won the lock so far, and the one that holds it. -/
structure Locks where
  sessions : Nat
  holder : Option Nat

inductive Op
  | isCancelled
  | tryAcquireIngestLeader
  | stillHeld (lock : Nat)
  | tick
  | release (lock : Nat)

abbrev Ans : Op → Type
  | .isCancelled => Bool
  | .tryAcquireIngestLeader => Except StoreError (Option Nat)
  | .stillHeld _ => Bool
  | .tick => Unit
  | .release _ => Unit

abbrev ask (o : Op) : Prog Op Ans (Ans o) := .perform o

/-- `Supervisor::wait_for_leadership`, for a number of tries. -/
def waitForLeadership : Nat → Prog Op Ans (Option Nat)
  | 0 => return none
  | n + 1 => do
    if ← ask .isCancelled then return none
    match ← ask .tryAcquireIngestLeader with
    | .ok (some lock) => return some lock
    | _ => waitForLeadership n

def lead (lock : Nat) : Nat → Prog Op Ans Unit
  | 0 => return
  | n + 1 => do
    if ← ask .isCancelled then return
    if !(← ask (.stillHeld lock)) then return
    ask .tick
    lead lock n

def runUntilCancelled : Nat → Prog Op Ans Unit
  | 0 => return
  | n + 1 => do
    let some lock ← waitForLeadership n | return
    lead lock n
    ask (.release lock)
    runUntilCancelled n

def pgTryAdvisoryLock (s : Locks) : Except StoreError (Option Nat) × Locks :=
  match s.holder with
  | none => (.ok (some s.sessions), ⟨s.sessions + 1, some s.sessions⟩)
  | some _ => (.ok none, s)

/-- A call may fail; `still_held` then answers `false`. -/
def exec : (o : Op) → Choice → Locks → Option (Ans o × Locks)
  -- a shutdown may be asked for at any time
  | .isCancelled, ch, s => some (ch == .served 1, s)
  | .tryAcquireIngestLeader, ch, s => store (fun _ => pgTryAdvisoryLock) ch s
  | .stillHeld lock, ch, s => some (ch == .served 0 && s.holder == some lock, s)
  | .tick, _, s => some ((), s)
  | .release lock, ch, s =>
    some ((), if ch == .failed || s.holder != some lock then s else { s with holder := none })

/-- A replica, by the length of its loops; the outside world ends sessions. -/
def system : Sys Nat Op Ans Choice Unit Locks where
  code := runUntilCancelled
  canStart _ _ := true
  exec := exec
  env _ s := some { s with holder := none }

abbrev Act := Conc.Act Op Ans Locks

variable {lock : Nat} {tr : List Act} {s s' : Locks}

def Won (lock : Nat) (tr : List Act) : Prop :=
  ∃ s s', ⟨.tryAcquireIngestLeader, .ok (some lock), s, s'⟩ ∈ tr

theorem Won.cons {x : Act} (h : Won lock tr) : Won lock (x :: tr) :=
  h.imp (fun _ => Exists.imp (fun _ => mem_cons_of_mem _))

/-- A tick comes right after a lock that the replica has won was found to be held. -/
def Allowed (tr : List Act) : Op → Prop
  | .tick => ∃ lock s s' before, tr = ⟨.stillHeld lock, true, s, s'⟩ :: before ∧ Won lock before
  | _ => True

/-- A session that has lost the lock never has it again. -/
def Grows (s s' : Locks) : Prop :=
  s.sessions ≤ s'.sessions ∧ ∀ l, s'.holder = some l → s.holder = some l ∨ s.sessions ≤ l

theorem calls_waitForLeadership (n : Nat) (tr : List Act) :
    Calls system Grows Allowed (waitForLeadership n) (fun r tr' => ∀ lock, r = some lock →
      Won lock tr') tr := by
  induction n generalizing tr with
  | zero => exact fun _ h => nomatch h
  | succ n ih =>
    refine ⟨trivial, fun s ch a s' _ _ => ?_⟩
    cases a with
    | true => exact fun _ h => nomatch h
    | false =>
      refine ⟨trivial, fun t ch b t' _ _ => ?_⟩
      match b with
      | .ok (some lock) => exact fun l h => by cases h; exact ⟨t, t', mem_cons_self⟩
      | .ok none | .error e => exact ih _

theorem calls_lead (n : Nat) (hw : Won lock tr) :
    Calls system Grows Allowed (lead lock n) (fun _ _ => True) tr := by
  induction n generalizing tr with
  | zero => exact trivial
  | succ n ih =>
    refine ⟨trivial, fun s ch a s' _ _ => ?_⟩
    cases a with
    | true => exact trivial
    | false =>
      refine ⟨trivial, fun t ch b t' _ _ => ?_⟩
      cases b with
      | false => exact trivial
      | true => exact ⟨⟨lock, t, t', _, rfl, hw.cons⟩, fun _ _ _ _ _ _ => ih hw.cons.cons.cons⟩

theorem calls_runUntilCancelled (n : Nat) (tr : List Act) :
    Calls system Grows Allowed (runUntilCancelled n) (fun _ _ => True) tr := by
  induction n generalizing tr with
  | zero => exact trivial
  | succ n ih =>
    refine calls_bind ((calls_waitForLeadership n tr).imp (fun r tr' hr => ?_))
    cases r with
    | none => exact trivial
    | some lock =>
      exact calls_bind ((calls_lead n (hr lock rfl)).imp
        (fun _ _ _ => ⟨trivial, fun _ _ _ _ _ _ => ih _⟩))

theorem Grows.refl (s : Locks) : Grows s s := ⟨Nat.le_refl _, fun _ => .inl⟩

theorem grows_freed (s : Locks) : Grows s { s with holder := none } :=
  ⟨Nat.le_refl _, fun _ h => nomatch h⟩

theorem grows_pgTryAdvisoryLock (s : Locks) : Grows s (pgTryAdvisoryLock s).2 := by
  unfold pgTryAdvisoryLock
  split
  · exact ⟨Nat.le_succ _, fun l h => .inr (Option.some.inj h).le⟩
  · exact .refl s

theorem exec_grows {o : Op} {ch : Choice} {a : Ans o} (h : exec o ch s = some (a, s')) :
    Grows s s' := by
  cases o with
  | isCancelled | stillHeld | tick => cases h; exact .refl s
  | tryAcquireIngestLeader =>
    have hg := grows_pgTryAdvisoryLock s
    rcases store_cases h with ⟨n, hn⟩ | ⟨-, rfl | rfl⟩
    · rw [← hn] at hg; exact hg
    · exact .refl _
    · exact hg
  | release =>
    cases h
    split
    · exact .refl s
    · exact grows_freed s

theorem discipline : Discipline system Grows (fun _ => Allowed) where
  refl := .refl
  trans h h' := ⟨h.1.trans h'.1,
    fun l hl => (h'.2 l hl).elim (h.2 l) (fun hle => .inr (h.1.trans hle))⟩
  exec := exec_grows
  env h := by cases h; exact grows_freed _
  code n := calls_runUntilCancelled n []

variable {c : Conf Nat Op Ans Locks} {i k : Nat}

end Octo.Ingest.Leader
