import Mathlib.Data.List.Basic

/-!
# Programs over atomic calls

A `Prog Op Ans α` is straight-line code whose only effects are calls: it stops
with a value, or makes a call `o : Op` and goes on with the answer in `Ans o`.
What a call does is not part of the program.  `Conc/Pool.lean` runs many
programs against one shared state, one call at a time, so the points between
two calls are exactly the points where another program, or a crash, may come in.

A fallible program is an `ExceptT ε (Prog Op Ans) α`; `tryCall` makes a call whose
answer is itself an `Except` and stops the program on an error.

`eval` and `runWith` run a program alone, `Yields` with its rules says what it returns, and
`Succeeds` that a fallible one succeeds and what holds then.
-/

namespace Conc

inductive Prog (Op : Type) (Ans : Op → Type) (α : Type) : Type
  | ret (a : α)
  | call (o : Op) (k : Ans o → Prog Op Ans α)

namespace Prog

variable {Op : Type} {Ans : Op → Type} {α β : Type} {b : β}

def bind : Prog Op Ans α → (α → Prog Op Ans β) → Prog Op Ans β
  | .ret a, f => f a
  | .call o k, f => .call o (fun x => (k x).bind f)

instance : Monad (Prog Op Ans) where
  pure := .ret
  bind := bind

def perform (o : Op) : Prog Op Ans (Ans o) := .call o .ret

def tryCall {ε : Type} (o : Op) (f : Ans o → Except ε α) : ExceptT ε (Prog Op Ans) α :=
  ExceptT.mk (.call o (fun x => .ret (f x)))

/-- Run a program alone, its `n`-th call by `step o n`. -/
def runWith {σ : Type} (step : (o : Op) → Nat → σ → Ans o × σ) :
    Prog Op Ans α → Nat → σ → α × Nat × σ
  | .ret a, n, s => (a, n, s)
  | .call o k, n, s => runWith step (k (step o n s).1) (n + 1) (step o n s).2

@[simp] theorem pure_def (a : α) : (pure a : Prog Op Ans α) = .ret a := rfl

@[simp] theorem bind_def (p : Prog Op Ans α) (f : α → Prog Op Ans β) : (p >>= f) = p.bind f := rfl

@[simp] theorem ret_bind (a : α) (f : α → Prog Op Ans β) : (Prog.ret a).bind f = f a := rfl

@[simp] theorem call_bind (o : Op) (k : Ans o → Prog Op Ans α) (f : α → Prog Op Ans β) :
    (Prog.call o k).bind f = .call o (fun x => (k x).bind f) := rfl

@[simp] theorem perform_bind (o : Op) (f : Ans o → Prog Op Ans β) :
    (perform o).bind f = .call o f :=
  rfl

theorem runWith_bind {σ : Type} {step : (o : Op) → Nat → σ → Ans o × σ} (p : Prog Op Ans α)
    (f : α → Prog Op Ans β) (n : Nat) (s : σ) : runWith step (p.bind f) n s =
      runWith step (f (runWith step p n s).1) (runWith step p n s).2.1
        (runWith step p n s).2.2 := by
  induction p generalizing n s with
  | ret => rfl
  | call o k ih => exact ih _ _ _

/-! ### Evaluation -/

section

variable {ε σ : Type} (step : (o : Op) → σ → Ans o × σ)

/-- What a program alone returns and leaves, if every call is answered by the state it finds. -/
def eval : Prog Op Ans α → σ → α × σ
  | .ret a, s => (a, s)
  | .call o k, s => eval (k (step o s).1) (step o s).2

variable {step}

theorem eval_bind (p : Prog Op Ans α) (f : α → Prog Op Ans β) (s : σ) :
    eval step (p.bind f) s = eval step (f (eval step p s).1) (eval step p s).2 := by
  induction p generalizing s with
  | ret => rfl
  | call o k ih => exact ih _ _

variable {s s' : σ} {p : ExceptT ε (Prog Op Ans) α}

theorem eval_bindE_ok {a : α} (h : eval step p.run s = (.ok a, s'))
    (f : α → ExceptT ε (Prog Op Ans) β) : eval step (p >>= f).run s = eval step (f a).run s' := by
  show eval step (p.run.bind (ExceptT.bindCont f)) s = _
  rw [eval_bind, h]
  rfl

theorem eval_bindE_error {e : ε} (h : eval step p.run s = (.error e, s'))
    (f : α → ExceptT ε (Prog Op Ans) β) : eval step (p >>= f).run s = (.error e, s') := by
  show eval step (p.run.bind (ExceptT.bindCont f)) s = _
  rw [eval_bind, h]
  rfl

theorem of_eval_bindE_ok {f : α → ExceptT ε (Prog Op Ans) β}
    (h : eval step (p >>= f).run s = (.ok b, s')) :
    ∃ a s1, eval step p.run s = (.ok a, s1) ∧ eval step (f a).run s1 = (.ok b, s') := by
  cases hp : eval step p.run s with
  | mk r s1 =>
    cases r with
    | ok a => exact ⟨a, s1, rfl, (eval_bindE_ok hp f).symm.trans h⟩
    | error => exact nomatch (eval_bindE_error hp f).symm.trans h

end

/-! ### Programs that return -/

variable {ε σ : Type} {step : (o : Op) → Nat → σ → Ans o × σ} {s : σ}

variable (step) in
/-- Run alone from `s`, whatever its first call is numbered, the program returns `a` in state `s'`.
-/
def Yields (p : Prog Op Ans α) (s : σ) (a : α) (s' : σ) : Prop :=
  ∀ n, ∃ n', p.runWith step n s = (a, n', s')

theorem yields_ret (a : α) (s : σ) : Yields step (.ret a) s a s := fun n => ⟨n, rfl⟩

variable {a : α} {Q : α → σ → Prop} {o : Op}

theorem yields_call {k : Ans o → Prog Op Ans α} {x : Ans o} {s1 s' : σ}
    (ho : ∀ n, step o n s = (x, s1)) (hk : Yields step (k x) s1 a s') :
    Yields step (.call o k) s a s' := by
  intro n
  obtain ⟨n', hn⟩ := hk (n + 1)
  refine ⟨n', ?_⟩
  rw [runWith, ho n]
  exact hn

theorem Yields.bind {p : Prog Op Ans α} {f : α → Prog Op Ans β} {s1 s' : σ}
    (h : Yields step p s a s1) (hf : Yields step (f a) s1 b s') :
    Yields step (p.bind f) s b s' := by
  intro n
  obtain ⟨n1, h1⟩ := h n
  obtain ⟨n', h'⟩ := hf n1
  refine ⟨n', ?_⟩
  rw [runWith_bind, h1]
  exact h'

/-! ### Programs that succeed -/

variable (step) in
/-- Run alone from `s`, whatever its first call is numbered, the fallible program returns, and `Q`
holds then. -/
def Succeeds (p : ExceptT ε (Prog Op Ans) α) (Q : α → σ → Prop) (s : σ) : Prop :=
  ∀ n, ∃ a n' s', p.run.runWith step n s = (.ok a, n', s') ∧ Q a s'

theorem Succeeds.bind {p : ExceptT ε (Prog Op Ans) α} {f : α → ExceptT ε (Prog Op Ans) β}
    {P : α → σ → Prop} {Q : β → σ → Prop} (h : Succeeds step p P s)
    (hf : ∀ a s', P a s' → Succeeds step (f a) Q s') : Succeeds step (p >>= f) Q s := by
  intro n
  obtain ⟨a, n', s', hrun, hP⟩ := h n
  obtain ⟨b, n'', s'', hrun', hQ⟩ := hf a s' hP n'
  refine ⟨b, n'', s'', ?_, hQ⟩
  show runWith step (p.run.bind (ExceptT.bindCont f)) n s = _
  rw [runWith_bind, hrun]
  exact hrun'

theorem Succeeds.imp {p : ExceptT ε (Prog Op Ans) α} {P Q : α → σ → Prop} (h : Succeeds step p P s)
    (himp : ∀ a s', P a s' → Q a s') : Succeeds step p Q s := by
  intro n
  obtain ⟨a, n', s', hrun, hP⟩ := h n
  exact ⟨a, n', s', hrun, himp a s' hP⟩

theorem succeeds_pure (h : Q a s) : Succeeds step (pure a : ExceptT ε (Prog Op Ans) α) Q s :=
  fun n => ⟨a, n, s, rfl, h⟩

theorem succeeds_result {r : Except ε α} (hr : r = .ok a) (h : Q a s) :
    Succeeds step (ExceptT.mk (.ret r) : ExceptT ε (Prog Op Ans) α) Q s :=
  fun n => ⟨a, n, s, by rw [hr]; rfl, h⟩

theorem succeeds_tryCall {f : Ans o → Except ε α}
    (h : ∀ n, ∃ a, f (step o n s).1 = .ok a ∧ Q a (step o n s).2) :
    Succeeds step (tryCall o f) Q s := by
  intro n
  obtain ⟨a, ha, hQ⟩ := h n
  exact ⟨a, n + 1, (step o n s).2, by rw [← ha]; rfl, hQ⟩

end Prog

end Conc
