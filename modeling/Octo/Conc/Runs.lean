import Octo.Conc.Trace

/-!
# Running one program alone

`Runs S p s tr p' s'`: started in state `s` with nobody around but the outside world, the program
`p` may make the calls `tr` (newest first) and then be left with `p'` to do, in state `s'`.  It is
how an execution is shown to exist; `start_runs` makes it an execution of the pool.
-/

namespace Conc

open List

section

variable {J Op : Type} {Ans : Op → Type} {Choice Env σ α β : Type}
  (S : Sys J Op Ans Choice Env σ)

inductive Runs : Prog Op Ans α → σ → List (Act Op Ans σ) → Prog Op Ans α → σ → Prop
  | stop {p : Prog Op Ans α} {s : σ} : Runs p s [] p s
  | call {o : Op} {k : Ans o → Prog Op Ans α} {s s1 s' : σ} {tr : List (Act Op Ans σ)}
      {p' : Prog Op Ans α} (ch : Choice) (a : Ans o) : S.exec o ch s = some (a, s1) →
      Runs (k a) s1 tr p' s' → Runs (.call o k) s (tr ++ [⟨o, a, s, s1⟩]) p' s'
  | env {p p' : Prog Op Ans α} {s s1 s' : σ} {tr : List (Act Op Ans σ)} (e : Env) :
      S.env e s = some s1 → Runs p s1 tr p' s' → Runs p s tr p' s'

/-- The program may return `v` if its calls are made in the states `ss`, one after the other. -/
def MayReturn : Prog Op Ans α → List σ → α → Prop
  | .ret a, [], v => a = v
  | .call o k, s :: ss, v => ∃ ch a s', S.exec o ch s = some (a, s') ∧ MayReturn (k a) ss v
  | _, _, _ => False

/-- The outside world may move on from `s` to `s'`. -/
def Drifts : σ → σ → Prop := Relation.ReflTransGen (fun s s' => ∃ e, S.env e s = some s')

variable {S}

variable {p p' : Prog Op Ans α} {s s' s1 : σ} {tr tr' : List (Act Op Ans σ)}
  {f : α → Prog Op Ans β} {ε : Type} {ch : Choice} {o : Op} {a : Ans o}

variable {cond : World J Op Ans σ → Label J Op Ans → Prop} {init : σ → Prop} {c : Conf J Op Ans σ}
  {j : J} {i : Nat} {L : J → List (Act Op Ans σ) → Op → Prop} {R : σ → σ → Prop}

theorem Runs.after (hd : Drifts S s s1) (h : Runs S p s1 tr p' s') : Runs S p s tr p' s' := by
  induction hd using Relation.ReflTransGen.head_induction_on with
  | refl => exact h
  | head hstep _ ih =>
    obtain ⟨e, he⟩ := hstep
    exact .env e he ih

theorem Runs.bind_left (h : Runs S p s tr p' s') : Runs S (p.bind f) s tr (p'.bind f) s' := by
  induction h with
  | stop => exact .stop
  | call ch a he _ ih => exact .call ch a he ih
  | env e he _ ih => exact .env e he ih

theorem Runs.trans {p1 : Prog Op Ans α}
    (h : Runs S p s tr p1 s1) (h' : Runs S p1 s1 tr' p' s') : Runs S p s (tr' ++ tr) p' s' := by
  induction h with
  | stop => simpa using h'
  | call ch a he _ ih =>
    rw [← append_assoc]
    exact .call ch a he (ih h')
  | env e he _ ih => exact .env e he (ih h')

/-- **Sequencing.** -/
theorem Runs.bind {a : α} {p' : Prog Op Ans β} (h : Runs S p s tr (.ret a) s1)
    (hf : Runs S (f a) s1 tr' p' s') : Runs S (p.bind f) s (tr' ++ tr) p' s' := by
  generalize hq : (Prog.ret a : Prog Op Ans α) = q at h
  induction h with
  | stop =>
    subst hq
    simpa using hf
  | call ch b he _ ih =>
    rw [← append_assoc]
    exact .call ch b he (ih hf hq)
  | env e he _ ih => exact .env e he (ih hf hq)

theorem Runs.bindE {p : ExceptT ε (Prog Op Ans) α} {f : α → ExceptT ε (Prog Op Ans) β} {a : α}
    {p' : Prog Op Ans (Except ε β)} (h : Runs S p.run s tr (.ret (.ok a)) s1)
    (hf : Runs S (f a).run s1 tr' p' s') : Runs S (p >>= f).run s (tr' ++ tr) p' s' :=
  Runs.bind h hf

theorem runs_perform {k : Ans o → Prog Op Ans β} {p' : Prog Op Ans β}
    (he : S.exec o ch s = some (a, s1)) (hk : Runs S (k a) s1 tr p' s') :
    Runs S (Prog.perform o >>= k) s (tr ++ [⟨o, a, s, s1⟩]) p' s' :=
  .call ch a he hk

theorem runs_tryCall {f : Ans o → Except ε α} {k : α → ExceptT ε (Prog Op Ans) β}
    {p' : Prog Op Ans (Except ε β)} {v : α} (he : S.exec o ch s = some (a, s1)) (hf : f a = .ok v)
    (hk : Runs S (k v).run s1 tr p' s') :
    Runs S (Prog.tryCall o f >>= k).run s (tr ++ [⟨o, a, s, s1⟩]) p' s' := by
  refine .call ch a he ?_
  show Runs S (ExceptT.bindCont k (f a)) s1 tr p' s'
  rw [hf]
  exact hk

theorem runs_runWith {step : (o : Op) → Nat → σ → Ans o × σ}
    (hstep : ∀ o n s, ∃ ch, S.exec o ch s = some (step o n s)) (p : Prog Op Ans α) (n : Nat)
    (s : σ) : ∃ tr, Runs S p s tr (.ret (p.runWith step n s).1) (p.runWith step n s).2.2 := by
  induction p generalizing n s with
  | ret => exact ⟨[], .stop⟩
  | call o k ih =>
    obtain ⟨ch, he⟩ := hstep o n s
    obtain ⟨tr, hr⟩ := ih (step o n s).1 (n + 1) (step o n s).2
    exact ⟨_, .call ch _ he hr⟩

/-! ### Evaluated and run -/

/-- Alone from `s`, the program returns `a` in state `s'`: with the calls answered by `step`, and in
some run. -/
structure Serves (S : Sys J Op Ans Choice Env σ) (step : (o : Op) → σ → Ans o × σ)
    (p : Prog Op Ans α) (s : σ) (a : α) (s' : σ) : Prop where
  eval : p.eval step s = (a, s')
  runs : ∃ tr, Runs S p s tr (.ret a) s'

section

variable {step : (o : Op) → σ → Ans o × σ} {b : α} {b' : β}

theorem serves_ret (b : α) (s : σ) : Serves S step (.ret b) s b s := ⟨rfl, [], .stop⟩

theorem Serves.bind (h : Serves S step p s b s1) (hf : Serves S step (f b) s1 b' s') :
    Serves S step (p.bind f) s b' s' := by
  obtain ⟨tr, hr⟩ := h.runs
  obtain ⟨tr', hr'⟩ := hf.runs
  refine ⟨?_, tr' ++ tr, hr.bind hr'⟩
  rw [Prog.eval_bind, h.eval]
  exact hf.eval

variable {p : ExceptT ε (Prog Op Ans) α} {f : α → ExceptT ε (Prog Op Ans) β} {r : Except ε β}

theorem Serves.bindE (h : Serves S step p.run s (.ok b) s1) (hf : Serves S step (f b).run s1 r s') :
    Serves S step (p >>= f).run s r s' := Serves.bind h hf

theorem Serves.bindE_error {e : ε} (h : Serves S step p.run s (.error e) s') :
    Serves S step (p >>= f).run s (.error e) s' := Serves.bind h (serves_ret _ _)

end

theorem Discipline.runs (D : Discipline S R L) (h : Runs S p s tr p' s') : R s s' := by
  induction h with
  | stop => exact D.refl _
  | call ch a he _ ih => exact D.trans (D.exec he) ih
  | env e he _ ih => exact D.trans (D.env he) ih

theorem Discipline.calls_runs (D : Discipline S R L) {L' : List (Act Op Ans σ) → Op → Prop}
    {Q : α → List (Act Op Ans σ) → Prop} {before : List (Act Op Ans σ)} (h : Runs S p s tr p' s')
    (hp : Calls S R L' p Q before) (hbefore : ∀ x ∈ before, R x.post s) :
    Calls S R L' p' Q (tr ++ before) := by
  induction h generalizing before with
  | stop => exact hp
  | call ch a he _ ih =>
    rw [append_assoc]
    refine ih (hp.2 _ ch a _ hbefore he) ?_
    intro x hx
    rcases mem_cons.mp hx with rfl | hx
    · exact D.refl _
    · exact D.trans (hbefore x hx) (D.exec he)
  | env e he _ ih => exact ih hp (fun x hx => D.trans (hbefore x hx) (D.env he))

/-- From `c` to `c'` thread `i` alone has made calls: `tr`, which leaves it with `p'` to do in state
`s'`. -/
structure Ran (i : Nat) (tr : List (Act Op Ans σ)) (p' : Prog Op Ans Unit) (s' : σ)
    (c c' : Conf J Op Ans σ) : Prop where
  jobs : c'.world.jobs = c.world.jobs
  db : c'.world.db = s'
  thread : c'.threads[i]? = some p'
  threads : ∀ k, k ≠ i → c'.threads[k]? = c.threads[k]?
  trace : c'.world.trace i = tr ++ c.world.trace i
  traces : ∀ k, k ≠ i → c'.world.trace k = c.world.trace k

theorem reach_of_runs {p p' : Prog Op Ans Unit}
    (hc : Reach S cond init c) (hi : c.threads[i]? = some p) (h : Runs S p c.world.db tr p' s')
    (hcall : ∀ x ∈ tr, ∀ w, w.db = x.pre → cond w (.call i x.op x.ans)) (henv : ∀ w, cond w .env) :
    ∃ c', Reach S cond init c' ∧ Ran i tr p' s' c c' := by
  generalize hs : c.world.db = s at h
  induction h generalizing c with
  | stop => exact ⟨c, hc, rfl, hs, hi, fun _ _ => rfl, rfl, fun _ _ => rfl⟩
  | call ch a he _ ih =>
    subst hs
    have hok := hcall _ mem_concat_self c.world rfl
    have hstep := Step.call i _ _ ch a _ hi he
    have hlt := (List.getElem?_eq_some_iff.mp hi).1
    obtain ⟨c', hr, hran⟩ := ih (.step hc hstep hok) (getElem?_set_self hlt)
      (fun x hx => hcall x (mem_append_left _ hx)) rfl
    refine ⟨c', hr, hran.jobs, hran.db, hran.thread, fun k hk => ?_, ?_, fun k hk => ?_⟩
    · rw [hran.threads k hk, getElem?_set_ne (Ne.symm hk)]
    · rw [hran.trace, World.trace_record_self, append_assoc]
      rfl
    · rw [hran.traces k hk, World.trace_record_of_ne _ _ _ _ _ (Ne.symm hk)]
  | @env _ _ _ s1 _ _ e he _ ih =>
    subst hs
    have hreach : Reach S cond init ⟨c.world.setDb s1, c.threads⟩ :=
      .step hc (.env e s1 he) (henv _)
    obtain ⟨c', hr, hran⟩ := ih hreach hi hcall rfl
    exact ⟨c', hr, { hran with }⟩

variable {p' : Prog Op Ans Unit}

theorem reach_start_runs (hc : Reach S cond init c) (hj : S.canStart j c.world.db = true)
    (hstart : cond c.world (.start j)) (h : Runs S (S.code j) c.world.db tr p' s')
    (hcall : ∀ x ∈ tr, ∀ w, w.db = x.pre → cond w (.call c.world.jobs.length x.op x.ans))
    (henv : ∀ w, cond w .env) :
    ∃ c', Reach S cond init c' ∧
    Ran c.world.jobs.length tr p' s' ⟨c.world.addJob j, c.threads ++ [S.code j]⟩ c' := by
  have hthread : (c.threads ++ [S.code j])[c.world.jobs.length]? = some (S.code j) := by
    rw [← reach_threads_length hc, getElem?_concat_length]
  exact reach_of_runs (.step hc (.start j hj) hstart) hthread h hcall henv

theorem Ran.thread_of_start {c' : Conf J Op Ans σ} {p' q : Prog Op Ans Unit}
    (h : Ran c.world.jobs.length tr p' s' ⟨c.world.addJob j, c.threads ++ [S.code j]⟩ c')
    (hc : Reach S cond init c) (hi : c.threads[i]? = some q) : c'.threads[i]? = some q := by
  have hlt := (List.getElem?_eq_some_iff.mp hi).1
  rw [reach_threads_length hc] at hlt
  rw [h.threads i (Nat.ne_of_lt hlt)]
  exact getElem?_append_left (by rwa [reach_threads_length hc]) |>.trans hi

theorem start_runs (hc : Reachable S init c) (hj : S.canStart j c.world.db = true)
    (h : Runs S (S.code j) c.world.db tr p' s') :
    ∃ c', Reachable S init c' ∧ c'.world.jobs = c.world.jobs ++ [j] ∧ c'.world.db = s' ∧
      c'.world.trace c.world.jobs.length = tr ∧
      ∀ k, k ≠ c.world.jobs.length → c'.world.trace k = c.world.trace k := by
  obtain ⟨c', hr, hran⟩ := reach_start_runs hc hj trivial h (fun _ _ _ _ => trivial)
    (fun _ => trivial)
  refine ⟨c', hr, hran.jobs, hran.db, ?_, fun k hk => hran.traces k hk⟩
  rw [hran.trace, World.trace_addJob, reach_trace_nil hc (Nat.le_refl _)]
  exact append_nil tr

theorem exists_reachable_of_runs (hs : init s) (hj : S.canStart j s = true)
    (h : Runs S (S.code j) s tr p' s') :
    ∃ c, Reachable S init c ∧ c.world.jobs = [j] ∧ c.world.db = s' ∧ c.world.trace 0 = tr := by
  obtain ⟨c, hr, hjobs, hdb, htr, -⟩ := start_runs (.init hs) hj h
  exact ⟨c, hr, hjobs, hdb, htr⟩

end

end Conc
