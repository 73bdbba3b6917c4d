import Octo.Conc.Trace

/-!
# Client code inside a larger system

A client library makes calls of its own kind and knows nothing of the system it is used in.
`Prog.embed` runs such a program with the calls of the system.  `Prog.Ends L p Q` is what the client
promises whatever it is answered, with no state, only its calls and their answers: it makes a call
only when `L` says so, and ends with `Q`.
-/

namespace Conc

section

variable {Op : Type} {Ans : Op → Type} {α β : Type}

variable (L : List (Sigma Ans) → Op → Prop)

/-- Whatever the answers are, every call is one that `L` allows after the calls made (newest first,
with their answers), and `Q` holds at the end. -/
def Prog.Ends : Prog Op Ans α → (α → List (Sigma Ans) → Prop) → List (Sigma Ans) → Prop
  | .ret a, Q, as => Q a as
  | .call o k, Q, as => L as o ∧ ∀ x, (k x).Ends Q (⟨o, x⟩ :: as)

variable {L}

variable {p : Prog Op Ans α} {Q : α → List (Sigma Ans) → Prop} {as : List (Sigma Ans)}

theorem Prog.Ends.imp {Q' : α → List (Sigma Ans) → Prop}
    (h : p.Ends L Q as) (hQ : ∀ a as', Q a as' → Q' a as') : p.Ends L Q' as := by
  induction p generalizing as with
  | ret a => exact hQ a as h
  | call o k ih => exact ⟨h.1, fun x => ih x (h.2 x)⟩

/-- The rule for sequencing. -/
theorem ends_bind {f : α → Prog Op Ans β} {Q : β → List (Sigma Ans) → Prop}
    (h : p.Ends L (fun a as' => (f a).Ends L Q as') as) : (p.bind f).Ends L Q as := by
  induction p generalizing as with
  | ret => exact h
  | call o k ih => exact ⟨h.1, fun x => ih x (h.2 x)⟩

theorem ends_then {f : α → Prog Op Ans β} {Q : β → List (Sigma Ans) → Prop}
    (h : p.Ends L (fun _ _ => True) as) (hf : ∀ a as', (f a).Ends L Q as') :
    (p.bind f).Ends L Q as :=
  ends_bind (h.imp (fun a as' _ => hf a as'))

theorem ends_bindE {ε : Type} {p : ExceptT ε (Prog Op Ans) α} {f : α → ExceptT ε (Prog Op Ans) β}
    (h : p.run.Ends L (fun _ _ => True) as)
    (hf : ∀ a as', (f a).run.Ends L (fun _ _ => True) as') :
    (p >>= f).run.Ends L (fun _ _ => True) as := by
  refine ends_then h ?_
  intro r as'
  cases r with
  | ok a => exact hf a as'
  | error => trivial

variable {Op' : Type} {Ans' : Op' → Type} (emb : Op → Op') (back : ∀ o, Ans' (emb o) → Ans o)

def Prog.embed : Prog Op Ans α → Prog Op' Ans' α
  | .ret a => .ret a
  | .call o k => .call (emb o) (fun x => (k (back o x)).embed)

theorem Prog.embed_bind (p : Prog Op Ans α) (f : α → Prog Op Ans β) :
    (p.bind f).embed emb back = (p.embed emb back).bind (fun a => (f a).embed emb back) := by
  induction p with
  | ret => rfl
  | call o k ih => exact congrArg _ (funext (fun a => ih _))

theorem Prog.Ends.embed {L' : Op' → Prop} (h : p.Ends L Q as) (hL : ∀ as o, L as o → L' (emb o))
    (as' : List (Sigma Ans')) : (p.embed emb back).Ends (fun _ => L') (fun _ _ => True) as' := by
  induction p generalizing as as' with
  | ret => trivial
  | call o k ih => exact ⟨hL as o h.1, fun x => ih _ (h.2 _) _⟩

theorem Prog.Yields.embed {σ : Type} {step : (o : Op') → Nat → σ → Ans' o × σ} {s s' : σ} {a : α}
    (h : p.Yields (fun o n s => (back o (step (emb o) n s).1, (step (emb o) n s).2)) s a s') :
    (p.embed emb back).Yields step s a s' := by
  have hrun : ∀ n s, (p.embed emb back).runWith step n s =
      p.runWith (fun o n s => (back o (step (emb o) n s).1, (step (emb o) n s).2)) n s := by
    clear h
    induction p with
    | ret => exact fun n s => rfl
    | call o k ih => exact fun n s => ih _ _ _
  intro n
  rw [hrun]
  exact h n

/-- The call `x` of the system is the client's call `y` with its answer. -/
def Sees {σ : Type} (x : Act Op' Ans' σ) (y : Sigma Ans) : Prop :=
  ∃ a s s', x = ⟨emb y.1, a, s, s'⟩ ∧ back y.1 a = y.2

variable {emb back} {J Choice Env σ : Type} {S : Sys J Op' Ans' Choice Env σ} {R : σ → σ → Prop}
  {L' : List (Act Op' Ans' σ) → Op' → Prop} {tr : List (Act Op' Ans' σ)}

theorem calls_embed_from
    (hL : ∀ more as, List.Forall₂ (Sees emb back) more as → ∀ o, L as o → L' (more ++ tr) (emb o))
    {more : List (Act Op' Ans' σ)} (hs : List.Forall₂ (Sees emb back) more as)
    (he : p.Ends L Q as) :
    Calls S R L' (p.embed emb back) (fun a tr' => ∃ more as, tr' = more ++ tr ∧
      List.Forall₂ (Sees emb back) more as ∧ Q a as) (more ++ tr) := by
  induction p generalizing more as with
  | ret => exact ⟨more, as, rfl, hs, he⟩
  | call o k ih =>
    refine ⟨hL more as hs o he.1, fun s ch x s' _ _ => ?_⟩
    have hs' : List.Forall₂ (Sees emb back) (⟨emb o, x, s, s'⟩ :: more) (⟨o, back o x⟩ :: as) :=
      .cons ⟨x, s, s', rfl, rfl⟩ hs
    exact ih (back o x) hs' (he.2 _)

/-- What holds of every call the client can make holds of the calls it made. -/
theorem forall_of_sees {more : List (Act Op' Ans' σ)} {P : Act Op' Ans' σ → Prop}
    (hP : ∀ o a s s', P ⟨emb o, a, s, s'⟩) (h : List.Forall₂ (Sees emb back) more as) :
    ∀ x ∈ more, P x := by
  induction h with
  | nil => exact List.forall_mem_nil _
  | cons hx _ ih =>
    obtain ⟨a, s, s', rfl, -⟩ := hx
    exact List.forall_mem_cons.mpr ⟨hP _ a s s', ih⟩

/-- What the client promises holds in every system that allows its calls. -/
theorem calls_embed
    (hL : ∀ more as, List.Forall₂ (Sees emb back) more as → ∀ o, L as o → L' (more ++ tr) (emb o))
    (he : p.Ends L Q []) :
    Calls S R L' (p.embed emb back) (fun a tr' => ∃ more as, tr' = more ++ tr ∧
      List.Forall₂ (Sees emb back) more as ∧ Q a as) tr :=
  calls_embed_from hL .nil he

end

end Conc
