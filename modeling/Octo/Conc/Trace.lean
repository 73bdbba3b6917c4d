import Octo.Conc.Pool

/-!
# From code to invariants

What every program of a pool does is said once, and invariants of the pool are then proved from
that, call by call, without looking at a program again.

A *discipline* has two parts.  `R` is a preorder on states in which every call and every move of the
outside world goes up.  `L j tr o` says when a thread of job `j` that has made the calls `tr`
(newest first) may make the call `o`.  `Calls p Q tr` is the proof obligation for code: every call
of `p` is one that `L` allows, where each answer is a possible one in a state above all the states
seen before; and `Q` holds at the end.

* `calls_bind`, `calls_bindE`, `calls_perform`, `calls_tryCall`, `Calls.imp`: the rules for
  sequencing.
-/

namespace Conc

open World List

section

variable {J Op : Type} {Ans : Op → Type} {Choice Env σ : Type}
  (S : Sys J Op Ans Choice Env σ) (R : σ → σ → Prop) (L : List (Act Op Ans σ) → Op → Prop)

/-- Every call of `p`, made after the calls `tr`, is allowed, and `Q` holds at the end. -/
def Calls {α : Type} : Prog Op Ans α → (α → List (Act Op Ans σ) → Prop) → List (Act Op Ans σ) → Prop
  | .ret a, Q, tr => Q a tr
  | .call o k, Q, tr => L tr o ∧ ∀ s ch a s', (∀ x ∈ tr, R x.post s) →
      S.exec o ch s = some (a, s') → Calls (k a) Q (⟨o, a, s, s'⟩ :: tr)

variable {S R L}

variable {ε α β : Type} {tr : List (Act Op Ans σ)} {o : Op} {p : Prog Op Ans α} {P P' : Op → Prop}
  {f k : α → ExceptT ε (Prog Op Ans) β} {r : Except ε α}

theorem Calls.imp {Q Q' : α → List (Act Op Ans σ) → Prop} (h : Calls S R L p Q tr)
    (hQ : ∀ a tr', Q a tr' → Q' a tr') : Calls S R L p Q' tr := by
  induction p generalizing tr with
  | ret a => exact hQ a tr h
  | call o k ih =>
    refine ⟨h.1, fun s ch a s' hR he => ?_⟩
    exact ih a (h.2 s ch a s' hR he)

theorem calls_bind {f : α → Prog Op Ans β} {Q : β → List (Act Op Ans σ) → Prop}
    (h : Calls S R L p (fun a tr' => Calls S R L (f a) Q tr') tr) :
    Calls S R L (p.bind f) Q tr := by
  induction p generalizing tr with
  | ret => exact h
  | call o k ih =>
    refine ⟨h.1, fun s ch a s' hR he => ?_⟩
    exact ih a (h.2 s ch a s' hR he)

section

variable {Q : Except ε β → List (Act Op Ans σ) → Prop}

theorem calls_bindE {p : ExceptT ε (Prog Op Ans) α}
    (h : Calls S R L p.run (fun r tr' => match r with
      | .ok a => Calls S R L (f a).run Q tr'
      | .error e => Q (.error e) tr') tr) : Calls S R L (p >>= f).run Q tr := by
  refine calls_bind (Calls.imp h ?_)
  intro r tr' hr
  cases r with
  | ok => exact hr
  | error => exact hr

theorem calls_tryCall {f : Ans o → Except ε α} (hL : L tr o)
    (h : ∀ s ch a s', (∀ x ∈ tr, R x.post s) → S.exec o ch s = some (a, s') → match f a with
      | .ok v => Calls S R L (k v).run Q (⟨o, a, s, s'⟩ :: tr)
      | .error e => Q (.error e) (⟨o, a, s, s'⟩ :: tr)) :
    Calls S R L (Prog.tryCall o f >>= k).run Q tr := by
  refine calls_bindE ⟨hL, fun s ch a s' hR he => ?_⟩
  have := h s ch a s' hR he
  cases hf : f a with
  | ok | error => rw [hf] at this; simp only [Calls, hf]; exact this

theorem calls_result
    (hok : ∀ a, r = .ok a → Calls S R L (k a).run Q tr)
    (herr : ∀ e, r = .error e → Q (.error e) tr) :
    Calls S R L (ExceptT.mk (.ret r) >>= k).run Q tr := by
  cases r with
  | ok a => exact hok a rfl
  | error e => exact herr e rfl

theorem calls_lift (h : Calls S R L p (fun a tr' => Calls S R L (k a).run Q tr') tr) :
    Calls S R L ((liftM p : ExceptT ε (Prog Op Ans) α) >>= k).run Q tr :=
  calls_bindE (calls_bind h)

end

theorem calls_perform {k : Ans o → Prog Op Ans β} {Q : β → List (Act Op Ans σ) → Prop} (hL : L tr o)
    (h : ∀ s ch a s', (∀ x ∈ tr, R x.post s) → S.exec o ch s = some (a, s') →
      Calls S R L (k a) Q (⟨o, a, s, s'⟩ :: tr)) :
    Calls S R L (Prog.perform o >>= k) Q tr := ⟨hL, h⟩

theorem calls_of_always (hL : ∀ tr o, L tr o) (p : Prog Op Ans α) (tr : List (Act Op Ans σ)) :
    Calls S R L p (fun _ _ => True) tr := by
  induction p generalizing tr with
  | ret => exact trivial
  | call o k ih => exact ⟨hL tr o, fun s ch a s' _ _ => ih a _⟩

theorem Calls.and {L' : List (Act Op Ans σ) → Op → Prop} {Q Q' : α → List (Act Op Ans σ) → Prop}
    (h : Calls S R L p Q tr) (h' : Calls S R L' p Q' tr) :
    Calls S R (fun tr o => L tr o ∧ L' tr o) p (fun a tr' => Q a tr' ∧ Q' a tr') tr := by
  induction p generalizing tr with
  | ret => exact ⟨h, h'⟩
  | call o k ih =>
    refine ⟨⟨h.1, h'.1⟩, fun s ch a s' hR he => ?_⟩
    exact ih a (h.2 s ch a s' hR he) (h'.2 s ch a s' hR he)

variable (S R L) in
/-- The obligation of fallible code: its calls are allowed, and `P` holds of what it returns. -/
def Does {ε α : Type} (p : ExceptT ε (Prog Op Ans) α) (P : α → List (Act Op Ans σ) → Prop)
    (tr : List (Act Op Ans σ)) : Prop :=
  Calls S R L p.run (fun r tr' => ∀ v, r = .ok v → P v tr') tr

section

variable {P : α → List (Act Op Ans σ) → Prop} {Q : β → List (Act Op Ans σ) → Prop}

theorem Does.bind {p : ExceptT ε (Prog Op Ans) α} (h : Does S R L p P tr)
    (hf : ∀ v tr', P v tr' → Does S R L (f v) Q tr') : Does S R L (p >>= f) Q tr := by
  refine calls_bindE (Calls.imp h ?_)
  intro r tr' hr
  cases r with
  | ok v => exact hf v tr' (hr v rfl)
  | error => exact fun v hv => nomatch hv

theorem does_pure {v : α} (h : P v tr) : Does S R L (pure v : ExceptT ε (Prog Op Ans) α) P tr := by
  intro w hw
  cases hw
  exact h

theorem does_throw {e : ε} : Does S R L (throw e : ExceptT ε (Prog Op Ans) α) P tr :=
  fun _ hv => nomatch hv

theorem does_result (h : ∀ v, r = .ok v → P v tr) : Does S R L (ExceptT.mk (.ret r)) P tr := h

theorem does_tryCall {f : Ans o → Except ε α} (hL : L tr o)
    (h : ∀ s ch a s' v, (∀ x ∈ tr, R x.post s) → S.exec o ch s = some (a, s') → f a = .ok v →
      P v (⟨o, a, s, s'⟩ :: tr)) : Does S R L (Prog.tryCall o f) P tr := by
  refine ⟨hL, ?_⟩
  intro s ch a s' hR he v hv
  exact h s ch a s' v hR he hv

end

def Prog.Uses {Op : Type} {Ans : Op → Type} {α : Type} (P : Op → Prop) : Prog Op Ans α → Prop
  | .ret _ => True
  | .call o k => P o ∧ ∀ a, (k a).Uses P

theorem Prog.Uses.imp (hp : p.Uses P) (h : ∀ o, P o → P' o) : p.Uses P' := by
  induction p with
  | ret => exact trivial
  | call o k ih => exact ⟨h o hp.1, fun a => ih a (hp.2 a)⟩

theorem Prog.Uses.bind {f : α → Prog Op Ans β} (hp : p.Uses P) (hf : ∀ a, (f a).Uses P) :
    (p.bind f).Uses P := by
  induction p with
  | ret a => exact hf a
  | call o k ih => exact ⟨hp.1, fun a => ih a (hp.2 a)⟩

theorem Prog.Uses.bindE {p : ExceptT ε (Prog Op Ans) α} (hp : p.run.Uses P)
    (hf : ∀ a, (f a).run.Uses P) : (p >>= f).run.Uses P := by
  refine Prog.Uses.bind hp ?_
  rintro (e | a)
  · exact trivial
  · exact hf a

theorem Prog.uses_tryCall {f : Ans o → Except ε α} (ho : P o) : (Prog.tryCall o f).run.Uses P :=
  ⟨ho, fun _ => trivial⟩

theorem Prog.uses_perform (ho : P o) : (Prog.perform o : Prog Op Ans (Ans o)).Uses P :=
  ⟨ho, fun _ => trivial⟩

theorem Prog.uses_lift (hp : p.Uses P) : (liftM p : ExceptT ε (Prog Op Ans) α).run.Uses P :=
  Prog.Uses.bind hp (fun _ => trivial)

/-- Code all of whose calls are always allowed (`Prog.Uses`). -/
theorem calls_of_uses (hL : ∀ tr o, P o → L tr o) (hp : p.Uses P) (tr : List (Act Op Ans σ)) :
    Calls S R L p (fun _ tr' => ∃ more, tr' = more ++ tr ∧ ∀ x ∈ more, P x.op) tr := by
  induction p generalizing tr with
  | ret => exact ⟨[], rfl, forall_mem_nil _⟩
  | call o k ih =>
    refine ⟨hL tr o hp.1, fun s ch a s' _ _ => (ih a (hp.2 a) _).imp ?_⟩
    rintro - tr' ⟨more, rfl, hmore⟩
    refine ⟨more ++ [⟨o, a, s, s'⟩], by simp, fun x hx => ?_⟩
    rcases mem_append.mp hx with hx | hx
    · exact hmore x hx
    · rw [mem_singleton.mp hx]; exact hp.1

end

/-! ### Reachable pools -/

section

variable {J Op : Type} {Ans : Op → Type} {Choice Env σ : Type}

/-- The calls of the history are what the system executed, and their states form a chain below
the present one. -/
structure World.Chained (S : Sys J Op Ans Choice Env σ) (R : σ → σ → Prop) (w : World J Op Ans σ) :
    Prop where
  executed : ∀ e ∈ w.hist, ∃ ch, S.exec e.act.op ch e.act.pre = some (e.act.ans, e.act.post)
  below : ∀ e ∈ w.hist, R e.act.post w.db
  chain : w.hist.Pairwise (fun e' e => R e.act.post e'.act.pre)

variable {w : World J Op Ans σ} {i : Nat} {x : Act Op Ans σ}

variable {R : σ → σ → Prop} {S : Sys J Op Ans Choice Env σ} {later before : List (Act Op Ans σ)}

theorem World.Chained.exec_of_mem (h : w.Chained S R) {o : Op} {a : Ans o} {s s' : σ}
    (hm : ⟨o, a, s, s'⟩ ∈ w.trace i) : ∃ ch, S.exec o ch s = some (a, s') :=
  h.executed _ (mem_trace.mp hm)

theorem World.Chained.below_of_mem (h : w.Chained S R) (hm : x ∈ w.trace i) :
    R x.post w.db := h.below _ (mem_trace.mp hm)

theorem World.Chained.between (h : w.Chained S R) {y : Act Op Ans σ}
    (hx : w.trace i = later ++ x :: before) (hy : y ∈ before) : R y.post x.pre := by
  have hord : (w.trace i).Pairwise (fun x' x => R x.post x'.pre) :=
    pairwise_map.mpr (h.chain.filter _)
  rw [hx] at hord
  exact (pairwise_cons.mp (pairwise_append.mp hord).2.1).1 y hy

theorem World.Chained.comparable (h : w.Chained S R) {e e' : Event Op Ans σ} (he : e ∈ w.hist)
    (he' : e' ∈ w.hist) : e = e' ∨ R e.act.post e'.act.pre ∨ R e'.act.post e.act.pre := by
  obtain ⟨m, hm, rfl⟩ := getElem_of_mem he
  obtain ⟨n, hn, rfl⟩ := getElem_of_mem he'
  have hord := pairwise_iff_getElem.mp h.chain
  rcases Nat.lt_trichotomy m n with hlt | rfl | hlt
  · exact .inr (.inr (hord m n hm hn hlt))
  · exact .inl rfl
  · exact .inr (.inl (hord n m hn hm hlt))

/-- All code of a system keeps to `L`, and nothing ever goes down in `R`. -/
structure Discipline (S : Sys J Op Ans Choice Env σ) (R : σ → σ → Prop)
    (L : J → List (Act Op Ans σ) → Op → Prop) : Prop where
  refl : ∀ s, R s s
  trans : ∀ {s1 s2 s3}, R s1 s2 → R s2 s3 → R s1 s3
  exec : ∀ {o ch s a s'}, S.exec o ch s = some (a, s') → R s s'
  env : ∀ {e s s'}, S.env e s = some s' → R s s'
  code : ∀ j, Calls S R (L j) (S.code j) (fun _ _ => True) []

variable {S : Sys J Op Ans Choice Env σ} {R : σ → σ → Prop}
  {L : J → List (Act Op Ans σ) → Op → Prop} {cond : World J Op Ans σ → Label J Op Ans → Prop}
  {init : σ → Prop} {c : Conf J Op Ans σ} {j : J}

/-- Two disciplines at once. -/
theorem Discipline.and {L' : J → List (Act Op Ans σ) → Op → Prop} (D : Discipline S R L)
    (D' : Discipline S R L') : Discipline S R (fun j tr o => L j tr o ∧ L' j tr o) where
  refl := D.refl
  trans := D.trans
  exec := D.exec
  env := D.env
  code := fun j => ((D.code j).and (D'.code j)).imp (fun _ _ _ => trivial)

theorem reach_threads_length (h : Reach S cond init c) :
    c.threads.length = c.world.jobs.length := by
  induction h with
  | init => rfl
  | step _ hs _ ih =>
    cases hs with
    | start | call | crash | env => simp [ih]

theorem reach_trace_nil (h : Reach S cond init c) (hi : c.world.jobs.length ≤ i) :
    c.world.trace i = [] := by
  induction h with
  | init => rfl
  | step hr hs _ ih =>
    cases hs with
    | start =>
      simp only [addJob_jobs, length_append] at hi
      exact ih (by omega)
    | call k o f ch a s hk =>
      have hlt : k < _ := (List.getElem?_eq_some_iff.mp hk).1
      rw [reach_threads_length hr] at hlt
      simp only [record_jobs] at hi
      rw [trace_record_of_ne _ _ _ _ _ (by omega)]
      exact ih hi
    | crash => exact ih hi
    | env => exact ih hi

theorem reach_job_of_trace (h : Reach S cond init c) (hx : x ∈ c.world.trace i) :
    ∃ j, c.world.jobs[i]? = some j := by
  by_cases hi : i < c.world.jobs.length
  · exact ⟨_, getElem?_eq_getElem hi⟩
  · rw [reach_trace_nil h (by omega)] at hx
    exact absurd hx not_mem_nil

theorem Discipline.chained (D : Discipline S R L) (h : Reach S cond init c) :
    c.world.Chained S R := by
  induction h with
  | init => exact ⟨fun e he => (nomatch he), fun e he => (nomatch he), List.Pairwise.nil⟩
  | step _ hs _ ih =>
    cases hs with
    | start => exact ⟨ih.executed, ih.below, ih.chain⟩
    | call i o k ch a s _ he =>
      refine ⟨fun e hm => ?_, fun e hm => ?_,
        pairwise_cons.mpr ⟨fun e hm => ih.below e hm, ih.chain⟩⟩
      · rcases mem_cons.mp hm with rfl | hm
        · exact ⟨ch, he⟩
        · exact ih.executed e hm
      · rcases mem_cons.mp hm with rfl | hm
        · exact D.refl s
        · exact D.trans (ih.below e hm) (D.exec he)
    | crash => exact ih
    | env e s he => exact ⟨ih.executed, fun e' hm => D.trans (ih.below e' hm) (D.env he), ih.chain⟩

/-- In every reachable pool each thread still satisfies its obligation, and the states of the
history form a chain. -/
theorem Discipline.reach (D : Discipline S R L) (h : Reach S cond init c) :
    ∀ i p, c.threads[i]? = some p → ∃ j, c.world.jobs[i]? = some j ∧
      Calls S R (L j) p (fun _ _ => True) (c.world.trace i) := by
  induction h with
  | init => intro i p hp; simp [Conf.fresh] at hp
  | @step c c' l hr hs hl ih =>
    intro i p hp
    cases hs with
    | start j =>
      rcases Nat.lt_trichotomy i c.threads.length with hlt | heq | hgt
      · rw [getElem?_append_left hlt] at hp
        obtain ⟨j', hj', hc⟩ := ih i p hp
        refine ⟨j', ?_, hc⟩
        rw [addJob_jobs, getElem?_append_left (by rw [← reach_threads_length hr]; exact hlt)]
        exact hj'
      · subst heq
        rw [getElem?_concat_length] at hp
        refine ⟨j, ?_, ?_⟩
        · rw [addJob_jobs, reach_threads_length hr, getElem?_concat_length]
        · rw [← Option.some.inj hp, trace_addJob,
            reach_trace_nil hr (Nat.le_of_eq (reach_threads_length hr).symm)]
          exact D.code j
      · rw [List.getElem?_eq_none (by simp only [length_append, length_singleton]; omega)] at hp
        cases hp
    | call k o f ch a s hk he =>
      by_cases hik : k = i
      · subst hik
        obtain ⟨j, hj, hc⟩ := ih k _ hk
        refine ⟨j, hj, ?_⟩
        rw [getElem?_set_self (List.getElem?_eq_some_iff.mp hk).1] at hp
        rw [← Option.some.inj hp, trace_record_self]
        refine hc.2 c.world.db ch a s (fun x hx => ?_) he
        exact (D.chained hr).below _ (mem_trace.mp hx)
      · rw [getElem?_set_ne hik] at hp
        obtain ⟨j, hj, hc⟩ := ih i p hp
        exact ⟨j, hj, by rw [trace_record_of_ne _ _ _ _ _ hik]; exact hc⟩
    | crash k =>
      by_cases hik : k = i
      · subst hik
        rw [getElem?_set] at hp
        split at hp
        · split at hp
          · rename_i hlt
            obtain ⟨j, hj, -⟩ := ih k _ (getElem?_eq_getElem hlt)
            rw [← Option.some.inj hp]
            exact ⟨j, hj, trivial⟩
          · cases hp
        · exact ih k p hp
      · rw [getElem?_set_ne hik] at hp
        exact ih i p hp
    | env => exact ih i p hp

/-- The rule for invariants. -/
theorem Discipline.invariant (D : Discipline S R L) {I : World J Op Ans σ → Prop}
    (hinit : ∀ s, init s → I ⟨s, [], []⟩)
    (hstart : ∀ w j, I w → S.canStart j w.db = true → cond w (.start j) → I (w.addJob j))
    (hcall : ∀ w i j o ch a s, I w → w.Chained S R → w.jobs[i]? = some j → L j (w.trace i) o →
      S.exec o ch w.db = some (a, s) → cond w (.call i o a) → I (w.record i o a s))
    (henv : ∀ w e s, I w → S.env e w.db = some s → cond w .env → I (w.setDb s))
    (h : Reach S cond init c) : I c.world := by
  induction h with
  | init hi => exact hinit _ hi
  | @step c c' l hr hs hl ih =>
    cases hs with
    | start j hj => exact hstart _ j ih hj hl
    | call i o k ch a s hk he =>
      obtain ⟨j, hj, hc⟩ := D.reach hr i _ hk
      exact hcall _ i j o ch a s ih (D.chained hr) hj hc.1 he hl
    | crash => exact ih
    | env e s he => exact henv _ e s ih he hl

theorem reach_hist {P : σ → Prop} (hP : ∀ c, Reach S cond init c → P c.world.db)
    (h : Reach S cond init c) : ∀ e ∈ c.world.hist, P e.act.pre ∧ P e.act.post := by
  induction h with
  | init => exact fun e he => nomatch he
  | step hr hs hl ih =>
    have hnew := hP _ (.step hr hs hl)
    cases hs with
    | start => exact ih
    | call =>
      exact forall_mem_cons.mpr ⟨⟨hP _ hr, hnew⟩, ih⟩
    | crash => exact ih
    | env => exact ih

theorem Discipline.leads (D : Discipline S R L) {c' : Conf J Op Ans σ} (h : Leads S c c') :
    R c.world.db c'.world.db := by
  induction h with
  | refl => exact D.refl _
  | tail _ hstep ih =>
    obtain ⟨l, hs⟩ := hstep
    cases hs with
    | start => exact ih
    | call i o k ch a s _ he => exact D.trans ih (D.exec he)
    | crash => exact ih
    | env e s he => exact D.trans ih (D.env he)

theorem Discipline.above_init (D : Discipline S R L) (h : Reach S cond init c) :
    ∃ s, init s ∧ R s c.world.db := by
  induction h with
  | init hi => exact ⟨_, hi, D.refl _⟩
  | step _ hs _ ih =>
    obtain ⟨s, hi, hR⟩ := ih
    cases hs with
    | start => exact ⟨s, hi, hR⟩
    | call i o k ch a s' _ he => exact ⟨s, hi, D.trans hR (D.exec he)⟩
    | crash => exact ⟨s, hi, hR⟩
    | env e s' he => exact ⟨s, hi, D.trans hR (D.env he)⟩

/-- Every call of the history was allowed when it was made. -/
theorem Discipline.allowed (D : Discipline S R L) (h : Reach S cond init c)
    (hj : c.world.jobs[i]? = some j) (hx : c.world.trace i = later ++ x :: before) :
    L j before x.op := by
  induction h generalizing later x before with
  | init => cases hj
  | @step c c' l hr hs _ ih =>
    cases hs with
    | start =>
      by_cases hlt : i < c.world.jobs.length
      · rw [addJob_jobs, getElem?_append_left hlt] at hj
        exact ih hj hx
      · rw [trace_addJob, reach_trace_nil hr (by omega)] at hx
        cases later <;> cases hx
    | call k o f ch a s hk =>
      by_cases hik : k = i
      · subst hik
        rw [trace_record_self] at hx
        cases later with
        | nil =>
          cases hx
          obtain ⟨j', hj', hc⟩ := D.reach hr k _ hk
          rw [record_jobs, hj'] at hj
          rw [← Option.some.inj hj]
          exact hc.1
        | cons => exact ih hj (cons.inj hx).2
      · rw [trace_record_of_ne _ _ _ _ _ hik] at hx
        exact ih hj hx
    | crash => exact ih hj hx
    | env => exact ih hj hx

theorem Discipline.allowed_before (D : Discipline S R L) (h : Reach S cond init c)
    (hj : c.world.jobs[i]? = some j) (hx : x ∈ c.world.trace i) :
    ∃ before ⊆ c.world.trace i, L j before x.op := by
  obtain ⟨_, before, htr⟩ := append_of_mem hx
  exact ⟨before, fun _ => mem_of_before htr, D.allowed h hj htr⟩

theorem Discipline.allowed_of_mem (D : Discipline S R L) (h : Reach S cond init c)
    (hx : x ∈ c.world.trace i) :
    ∃ j before, c.world.jobs[i]? = some j ∧ before ⊆ c.world.trace i ∧ L j before x.op := by
  obtain ⟨j, hj⟩ := reach_job_of_trace h hx
  obtain ⟨before, hbefore⟩ := D.allowed_before h hj hx
  exact ⟨j, before, hj, hbefore⟩

end

end Conc
