import Octo.Conc.Runs

/-!
# A program on its own, and what it may do in company

`Alone S p Q s`: run from `s` with nobody around, `p` never gets stuck, and whatever its calls
answer, `Q` holds of the result and the last state.  `Makes S p P`: in some run of `p`, other
programs may come in between any two of its calls, `p` makes a call with property `P`.

* `Alone.bind`, `Alone.bindE`, `alone_tryCall`, `alone_lift`, `alone_of_uses`: the rules, one per
  shape of code.
-/

namespace Conc

section

variable {J Op : Type} {Ans : Op → Type} {Choice Env σ α β : Type}
  (S : Sys J Op Ans Choice Env σ)

/-- Run by itself, the program gets an answer to every call and ends in `Q`. -/
def Alone : Prog Op Ans α → (α → σ → Prop) → σ → Prop
  | .ret a, Q, s => Q a s
  | .call o k, Q, s => (∃ ch r, S.exec o ch s = some r) ∧
      ∀ ch a s', S.exec o ch s = some (a, s') → Alone (k a) Q s'

def Returns (p : Prog Op Ans α) (s : σ) (a : α) (s' : σ) : Prop :=
  ∃ tr, Runs S p s tr (.ret a) s'

/-- Some run of the program makes a call with `P`. -/
def Makes : Prog Op Ans α → (Act Op Ans σ → Prop) → Prop
  | .ret _, _ => False
  | .call o k, P => ∃ s ch a s', S.exec o ch s = some (a, s') ∧ (P ⟨o, a, s, s'⟩ ∨ Makes (k a) P)

variable {S}

variable {p : Prog Op Ans α} {P Q : α → σ → Prop} {s s' : σ} {ε : Type} {tr : List (Act Op Ans σ)}
  {k : α → ExceptT ε (Prog Op Ans) β} {p' : Prog Op Ans α}

theorem Alone.imp {Q' : α → σ → Prop} (h : Alone S p Q s) (hQ : ∀ a s', Q a s' → Q' a s') :
    Alone S p Q' s := by
  induction p generalizing s with
  | ret a => exact hQ a s h
  | call o k ih => exact ⟨h.1, fun ch a s' he => ih a (h.2 ch a s' he)⟩

theorem Alone.bind {f : α → Prog Op Ans β} {Q : β → σ → Prop}
    (h : Alone S p P s) (hf : ∀ a s', P a s' → Alone S (f a) Q s') : Alone S (p.bind f) Q s := by
  induction p generalizing s with
  | ret a => exact hf a s h
  | call o k ih => exact ⟨h.1, fun ch a s' he => ih a (h.2 ch a s' he)⟩

theorem Alone.bindE {p : ExceptT ε (Prog Op Ans) α} {f : α → ExceptT ε (Prog Op Ans) β}
    {Q : Except ε β → σ → Prop} (h : Alone S p.run (fun r s' => ∃ a, r = .ok a ∧ P a s') s)
    (hf : ∀ a s', P a s' → Alone S (f a).run Q s') : Alone S (p >>= f).run Q s := by
  refine Alone.bind h ?_
  rintro r s' ⟨a, rfl, ha⟩
  exact hf a s' ha

theorem alone_tryCall {o : Op} {f : Ans o → Except ε α}
    {Q : Except ε β → σ → Prop} (hgo : ∃ ch r, S.exec o ch s = some r)
    (h : ∀ ch a s', S.exec o ch s = some (a, s') → ∃ v, f a = .ok v ∧ Alone S (k v).run Q s') :
    Alone S (Prog.tryCall o f >>= k).run Q s := by
  refine ⟨hgo, fun ch a s' he => ?_⟩
  obtain ⟨v, hv, hk⟩ := h ch a s' he
  show Alone S (ExceptT.bindCont k (f a)) Q s'
  rw [hv]
  exact hk

theorem alone_lift {Q : Except ε β → σ → Prop} (h : Alone S p P s)
    (hk : ∀ a s', P a s' → Alone S (k a).run Q s') :
    Alone S ((liftM p : ExceptT ε (Prog Op Ans) α) >>= k).run Q s := by
  refine Alone.bindE (Alone.bind h ?_) hk
  exact fun a s' ha => ⟨a, rfl, ha⟩

theorem alone_of_uses {U : Op → Prop} {I : σ → Prop}
    (hgo : ∀ o s, U o → ∃ ch r, S.exec o ch s = some r)
    (hI : ∀ o ch a s s', U o → S.exec o ch s = some (a, s') → I s → I s') (hp : p.Uses U)
    (hs : I s) : Alone S p (fun _ s' => I s') s := by
  induction p generalizing s with
  | ret => exact hs
  | call o k ih => exact ⟨hgo o s hp.1, fun ch a s' he => ih a (hp.2 a) (hI o ch a s s' hp.1 he hs)⟩

/-- What runs alone has a run in the sense of `Conc/Runs.lean`. -/
theorem Alone.exists_runs (h : Alone S p Q s) : ∃ a s', Returns S p s a s' ∧ Q a s' := by
  induction p generalizing s with
  | ret a => exact ⟨a, s, ⟨[], .stop⟩, h⟩
  | call o k ih =>
    obtain ⟨ch, ⟨x, s1⟩, he⟩ := h.1
    obtain ⟨a, s', ⟨tr, hr⟩, hQ⟩ := ih x (h.2 ch x s1 he)
    exact ⟨a, s', ⟨_, .call ch x he hr⟩, hQ⟩

theorem Alone.of_returns (henv : ∀ e s, S.env e s = none) {a : α}
    (h : Alone S p Q s) (hr : Returns S p s a s') : Q a s' := by
  obtain ⟨tr, hr⟩ := hr
  generalize hq : (Prog.ret a : Prog Op Ans α) = q at hr
  induction hr with
  | stop =>
    subst hq
    exact h
  | call ch x he _ ih => exact ih (h.2 ch x _ he) hq
  | env e he =>
    rw [henv] at he
    cases he

/-- How to refute `Makes`. -/
theorem Calls.not_makes {R : σ → σ → Prop} {L : List (Act Op Ans σ) → Op → Prop}
    {Q : α → List (Act Op Ans σ) → Prop} (h : Calls S R L p Q tr) (hR : ∀ s s', R s s')
    {P : Act Op Ans σ → Prop}
    (hP : ∀ tr o ch a s s', L tr o → S.exec o ch s = some (a, s') → ¬ P ⟨o, a, s, s'⟩) :
    ¬ Makes S p P := by
  induction p generalizing tr with
  | ret => exact id
  | call o k ih =>
    rintro ⟨s, ch, a, s', he, hp | hm⟩
    · exact hP tr o ch a s s' h.1 he hp
    · exact ih a (h.2 s ch a s' (fun x _ => hR x.post s) he) hm

theorem Runs.makes_change {γ : Type} {f : σ → γ} (henv : ∀ e s s', S.env e s = some s' → f s' = f s)
    (h : Runs S p s tr p' s') (hne : f s' ≠ f s) : Makes S p (fun x => f x.post ≠ f x.pre) := by
  induction h with
  | stop => exact absurd rfl hne
  | @call o k s s1 _ _ _ ch a he _ ih =>
    refine ⟨s, ch, a, s1, he, ?_⟩
    by_cases h1 : f s1 = f s
    · exact .inr (ih (by rwa [h1]))
    · exact .inl h1
  | env e he _ ih => exact ih (by rwa [henv _ _ _ he])

theorem Runs.mono {S' : Sys J Op Ans Choice Env σ}
    (hexec : ∀ o ch s r, S.exec o ch s = some r → S'.exec o ch s = some r)
    (henv : ∀ e s s', S.env e s = some s' → S'.env e s = some s') (h : Runs S p s tr p' s') :
    Runs S' p s tr p' s' := by
  induction h with
  | stop => exact .stop
  | call ch a he _ ih => exact .call ch a (hexec _ _ _ _ he) ih
  | env e he _ ih => exact .env e (henv _ _ _ he) ih

end

end Conc
