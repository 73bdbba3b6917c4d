import Octo.Api.Horizon
import Octo.Conc.Runs

/-!
# The Horizon client inside a system

A system that runs the client carries out its calls with calls of its own.
`Hosted S emb back p s as r s'` says that the client's program `p`, alone in state `s`, may be given
the answers `as` (newest first) and then return `r` in state `s'`.  A `Host` answers for the circuit
breaker: it lets a caller through when it is closed, and none of its calls changes anything else
(`Same`).
-/

namespace Octo.Api

open Conc Resilience FetchError List

section

variable {J Op : Type} {Ans : Op → Type} {Choice Env σ α β : Type}
  (S : Sys J Op Ans Choice Env σ) (emb : HttpCall → Op) (back : ∀ c, Ans (emb c) → HttpCall.Ans c)

def Hosted (p : HttpM α) (s : σ) (as : List (Sigma HttpCall.Ans)) (r : α) (s' : σ) : Prop :=
  ∃ tr, Runs S (p.embed emb back) s tr (.ret r) s' ∧ List.Forall₂ (Sees emb back) tr as

/-- The breaker of the system: `closed` is when it lets callers through, `Same` when all else is
equal. -/
structure Host (closed : σ → Prop) (Same : σ → σ → Prop) : Prop where
  refl : ∀ s, Same s s
  trans : ∀ {s1 s2 s3}, Same s1 s2 → Same s2 s3 → Same s1 s3
  check : ∀ s, closed s → ∃ ch a, S.exec (emb .check) ch s = some (a, s) ∧ back .check a = true
  recheck : ∀ s, ∃ ch a s', S.exec (emb .check) ch s = some (a, s') ∧ Same s s'
  onSuccess : ∀ s, ∃ ch a s', S.exec (emb .onSuccess) ch s = some (a, s') ∧ Same s s' ∧ closed s'
  onFailure : ∀ s, ∃ ch a s', S.exec (emb .onFailure) ch s = some (a, s') ∧ Same s s'

/-- The request may be answered with `o`, and nothing else happens. -/
def Answers (s : σ) (r : Request) (o : HttpOutcome) : Prop :=
  ∃ ch a, S.exec (emb (.request r)) ch s = some (a, s) ∧ back (.request r) a = o

variable {S emb back} {l : List (Sigma HttpCall.Ans)} {s s1 s' : σ} {r : α}

theorem requests_append (as as' : List (Sigma HttpCall.Ans)) :
    requests (as ++ as') = requests as ++ requests as' := by
  induction as with
  | nil => rfl
  | cons y as ih =>
    obtain ⟨c, a⟩ := y
    cases c with
    | request => exact congrArg _ ih
    | _ => exact ih

theorem hosted_ret (s : σ) (r : α) : Hosted S emb back (.ret r) s [] r s := ⟨[], .stop, .nil⟩

theorem hosted_call {c : HttpCall} {k : HttpCall.Ans c → HttpM α} {ch : Choice} {a : Ans (emb c)}
    (he : S.exec (emb c) ch s = some (a, s1)) (h : Hosted S emb back (k (back c a)) s1 l r s') :
    Hosted S emb back (.call c k) s (l ++ [⟨c, back c a⟩]) r s' := by
  obtain ⟨tr, hr, hs⟩ := h
  have hlast : List.Forall₂ (Sees emb back) [⟨emb c, a, s, s1⟩] [⟨c, back c a⟩] :=
    .cons ⟨a, s, s1, rfl, rfl⟩ .nil
  exact ⟨_, .call ch a he hr, rel_append hs hlast⟩

theorem Hosted.bind {p : HttpM α} {f : α → HttpM β} {as as' : List (Sigma HttpCall.Ans)}
    {a : α} {r : β} (h : Hosted S emb back p s as a s1) (hf : Hosted S emb back (f a) s1 as' r s') :
    Hosted S emb back (p.bind f) s (as' ++ as) r s' := by
  obtain ⟨tr, hr, hs⟩ := h
  obtain ⟨tr', hr', hs'⟩ := hf
  refine ⟨tr' ++ tr, ?_, rel_append hs' hs⟩
  rw [Prog.embed_bind]
  exact hr.bind hr'

variable {closed : σ → Prop} {Same : σ → σ → Prop} {o : HttpOutcome} {T : Type}

theorem Host.tryOnce_last (H : Host S emb back closed Same) (d : Except FetchError T) (s : σ) :
    ∃ as s' res, Hosted S emb back (tryOnce isRetriable (.ret d)
        (fun e => .ret (.error (.exhausted e)))) s as res s' ∧ requests as = [] ∧ Same s s' ∧
      Reports isRetriable d res ∧ ∀ v, d = .ok v → closed s' := by
  cases d with
  | ok =>
    obtain ⟨ch, a, s', he, hsame, hclosed⟩ := H.onSuccess s
    exact ⟨_, s', _, hosted_call he (hosted_ret s' _), rfl, hsame, .inl rfl, fun _ _ => hclosed⟩
  | error e =>
    by_cases hr : e.isRetriable = true
    · obtain ⟨ch, a, s1, he, hsame⟩ := H.onFailure s
      obtain ⟨ch', a', s', he', hsame'⟩ := H.recheck s1
      cases e with
      | transport =>
        cases hb : back .check a' with
        | true =>
          refine ⟨_, s', .error (.exhausted .transport),
            hosted_call he (hosted_call he' (l := []) ?_), rfl, H.trans hsame hsame', .inl rfl,
            fun _ h => nomatch h⟩
          rw [hb]
          exact hosted_ret s' _
        | false =>
          refine ⟨_, s', .error .circuit, hosted_call he (hosted_call he' (l := []) ?_), rfl,
            H.trans hsame hsame', .inr ⟨_, rfl, rfl, rfl⟩, fun _ h => nomatch h⟩
          rw [hb]
          exact hosted_ret s' _
      | _ => cases hr
    · refine ⟨[], s, .error (.exhausted e), ?_, rfl, H.refl s, .inl rfl, fun _ h => nomatch h⟩
      cases e with
      | transport => exact absurd rfl hr
      | _ => exact hosted_ret s _

theorem Host.admit (H : Host S emb back closed Same) {s s' : σ} (hc : closed s) {p q : HttpM α}
    (h : Hosted S emb back p s l r s') :
    ∃ l', Hosted S emb back (.call .check (fun admitted => if !admitted then q else p)) s l' r s' ∧
      requests l' = requests l := by
  obtain ⟨ch, a, he, hadmits⟩ := H.check s hc
  refine ⟨l ++ [⟨.check, back .check a⟩], hosted_call he ?_, ?_⟩
  · rw [hadmits]
    exact h
  · rw [requests_append]
    exact append_nil _

theorem Host.submit (H : Host S emb back closed Same) (hz : HorizonClient) {xdr : String}
    {s : σ} (hc : closed s) (ha : Answers S emb back s (.postTransactions xdr) o) :
    ∃ as s', Hosted S emb back (hz.submitTransaction xdr) s as (submitVerdict o) s' ∧
      requests as = [⟨.postTransactions xdr, o⟩] ∧ Same s s' ∧ ∀ r, readSubmit o = .ok r →
      closed s' := by
  obtain ⟨ch', a', he', rfl⟩ := ha
  obtain ⟨as, s', res, hrun, hreq, hsame, hrep, hclosed⟩ :=
    H.tryOnce_last (readSubmit (back (.request (.postTransactions xdr)) a')) s
  have hattempt : Hosted S emb back (attempts isRetriable
      (fetch (.postTransactions xdr) readSubmit) 0 0) s (as ++ _) res s' := hosted_call he' hrun
  have hcall : ∃ l, Hosted S emb back (hz.call .submit (.postTransactions xdr) readSubmit)
      s l res s' ∧ requests l = requests (as ++ _) := H.admit hc hattempt
  obtain ⟨l, hcall, hl⟩ := hcall
  have hverdict : res.mapError submitError = submitVerdict
      (back (.request (.postTransactions xdr)) a') := by
    unfold submitVerdict
    rcases hrep with rfl | ⟨e, he, hr, rfl⟩
    · cases readSubmit (back (.request (.postTransactions xdr)) a') <;> rfl
    · rw [he]
      cases e <;> first | rfl | cases hr
  rw [← hverdict]
  refine ⟨_, s', hcall.bind (hosted_ret s' _), ?_, hsame, hclosed⟩
  rw [nil_append, hl, requests_append, hreq]
  rfl

theorem Host.read (H : Host S emb back closed Same) (hz : HorizonClient) {r : Request}
    {read : HttpOutcome → Except FetchError T} {v : T} {s : σ} (hc : closed s)
    (ha : Answers S emb back s r o) (hv : read o = .ok v) :
    ∃ as s', Hosted S emb back (hz.call .readOnly r read) s as (.ok v) s' ∧ requests as = [⟨r, o⟩] ∧
      Same s s' ∧ closed s' := by
  obtain ⟨ch', a', he', rfl⟩ := ha
  obtain ⟨_, a'', s', he'', hsame, hclosed⟩ := H.onSuccess s
  have hdone : ∀ next, ∃ l, Hosted S emb back (tryOnce isRetriable
      (.ret (read (back (.request r) a'))) next) s l (.ok v) s' ∧ requests l = [] := by
    intro next
    rw [hv]
    exact ⟨_, hosted_call he'' (hosted_ret s' _), rfl⟩
  have hattempt : ∀ n, ∃ as, Hosted S emb back (attempts isRetriable (fetch r read) 0 n) s as
      (.ok v) s' ∧ requests as = [⟨r, back (.request r) a'⟩] := by
    intro n
    cases n with
    | zero =>
      obtain ⟨l, hrun, hl⟩ := hdone (fun e => .ret (.error (.exhausted e)))
      exact ⟨_, hosted_call he' hrun, by rw [requests_append, hl]; rfl⟩
    | succ n =>
      obtain ⟨l, hrun, hl⟩ := hdone (fun _ => (ask (.sleep 0)).bind (fun _ =>
        attempts isRetriable (fetch r read) 1 n))
      exact ⟨_, hosted_call he' hrun, by rw [requests_append, hl]; rfl⟩
  obtain ⟨as, hrun, hreq⟩ := hattempt (max hz.maxAttempts 1 - 1)
  have hcall : ∃ l, Hosted S emb back (hz.call .readOnly r read) s l (.ok v) s' ∧
      requests l = requests as := H.admit hc hrun
  obtain ⟨l, hcall, hl⟩ := hcall
  exact ⟨l, s', hcall, hl.trans hreq, hsame, hclosed⟩

end

end Octo.Api
