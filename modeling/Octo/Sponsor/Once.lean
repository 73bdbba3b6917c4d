import Octo.Sponsor.Release

/-!
# A transaction is sponsored once

`inner_tx_hash` is unique in `sponsored_transactions`, and a row is never deleted.  An insert finds
the hash neither in the table nor in a session that has yet to commit, so of two reservations of one
hash the second one fails, whichever replicas they come from (`submitted_once`).
-/

namespace Octo.Sponsor

open Conc Octo.Api SponsorDb List

variable {db db' : SponsorDb} {tx tx' : Nat} {w w' : Uuid} {hash : String} {fee fee' : Int}
  {row row' : SponsoredTransaction}

theorem hashes_updateSponsored {p : SponsoredTransaction → Bool}
    {f : SponsoredTransaction → SponsoredTransaction}
    (hf : ∀ r, (f r).innerTxHash = r.innerTxHash) :
    db.hashes ⊆ (db.updateSponsored p f).hashes := by
  intro hash hm
  obtain ⟨r, hr, rfl⟩ := mem_map.mp hm
  refine mem_map.mpr ⟨_, mem_map.mpr ⟨r, hr, rfl⟩, ?_⟩
  split
  · exact hf r
  · rfl

theorem hashes_statement {o : Op} {a : Ans o} (h : statement o db = some (a, db')) :
    db.hashes ⊆ db'.hashes := by
  cases statement_change h with
  | committed => exact map_subset _ (subset_append_left _ _)
  | finalized | swept => exact hashes_updateSponsored (fun _ => rfl)
  | _ => exact List.Subset.refl _

/-! ### Whole runs -/

/-- Nothing that a session or the table has is lost, the hashes included. -/
def Kept (s s' : State) : Prop := Grows s s' ∧ s.db.hashes ⊆ s'.db.hashes

theorem kept_discipline (out : Outside) : Discipline (system out) Kept (fun _ _ _ => True) where
  refl s := ⟨(discipline out).refl s, List.Subset.refl _⟩
  trans h h' := ⟨(discipline out).trans h.1 h'.1, List.Subset.trans h.2 h'.2⟩
  exec := by
    intro o ch s a s' h
    refine ⟨exec_grows h, ?_⟩
    rcases exec_state h with ⟨b, rfl⟩ | ⟨b, db', hst, rfl⟩
    · exact List.Subset.refl _
    · exact hashes_statement hst
  env := by
    intro e s s' h
    refine ⟨env_grows h, ?_⟩
    cases e <;> cases h <;> exact List.Subset.refl _
  code j := calls_of_always (fun _ _ => trivial) _ _

variable {out : Outside} {cond : World → Label Job Op Ans → Prop} {c : Conf Job Op Ans State}
  {i k : Nat}

/-- No insert of a hash comes after another one that is, or will be, committed. -/
theorem not_before (hc : Reach (system out) cond Idle c) {b b' : Option Int}
    {s s' t t' v v' : State} {later before : List Act}
    (htr : c.world.trace i = later ++ ⟨.commit tx, .ok (), t, t'⟩ :: before)
    (hm : ⟨.reserveInsert tx w hash fee b, .ok (some row), s, s'⟩ ∈ before)
    (hm' : ⟨.reserveInsert tx' w' hash fee' b', .ok (some row'), v, v'⟩ ∈ c.world.trace k) :
    ¬ Kept s' v := by
  intro hlt
  have hchain := (kept_discipline out).chained hc
  have hcommit : ⟨.commit tx, .ok (), t, t'⟩ ∈ c.world.trace i := mem_of_split htr
  obtain ⟨ch, he⟩ := hchain.exec_of_mem (mem_of_before htr hm)
  obtain ⟨q, -, rfl, -, hq, -⟩ := insert_of_exec he
  obtain ⟨ch', he'⟩ := hchain.exec_of_mem hm'
  obtain ⟨q', hq', -, -, -, ⟨_, hsum⟩, hfree, hother⟩ := insert_of_exec he'
  have hok := reach_hist (P := fun s => SessionsOk 0 s.db)
    (fun _ => sessionsOk_of_idle (fun s hs => ⟨hs, by simp⟩))
      hc _ (World.mem_trace.mp (mem_of_before htr hm))
  have htx := hok.2.opened tx _ hq
  obtain ⟨ch1, he1⟩ := hchain.exec_of_mem hcommit
  obtain ⟨q1, hq1, -, hmem⟩ := row_of_commit (hchain.between htr hm).1 hq rfl htx he1
  rcases hchain.comparable (World.mem_trace.mp hcommit) (World.mem_trace.mp hm') with heq
    | hle | hle
  · cases congrArg (fun e => e.act.op) heq
  · exact hfree (hle.2 (mem_map_of_mem hmem))
  · -- the first session is still open: it has inserted the hash
    have hlt' := Nat.lt_of_lt_of_le htx hlt.1.nextSession
    obtain ⟨q2, hq2, -⟩ := (((kept_discipline out).exec he').1.trans hle.1).sessions tx q1 hq1 hlt'
    obtain ⟨q3, hq3, hsess⟩ := hlt.1.sessions tx q2 hq2 htx
    obtain rfl := Option.some.inj (hq.symm.trans hq3)
    have hins := hsess.inserted _ rfl
    by_cases hne : tx = tx'
    · subst hne
      obtain rfl := Option.some.inj (hq2.symm.trans hq')
      rw [hsum] at hins
      cases hins
    · refine Bool.noConfusion (hother.symm.trans (any_eq_true.mpr ⟨tx, mem_range.mpr hlt', ?_⟩))
      simp [hne, hq2, Session.hasInserted, hins, reservation]

theorem reserved_once (hc : Reach (system out) cond Idle c)
    (h : Reserved w hash fee row (c.world.trace i))
    (h' : Reserved w' hash fee' row' (c.world.trace k)) : i = k := by
  obtain ⟨tx, b, _, t, t', _, s, s', htr, hm⟩ := h
  obtain ⟨tx', b', _, u, u', _, v, v', htr', hm'⟩ := h'
  have hin := mem_of_before htr hm
  have hin' := mem_of_before htr' hm'
  rcases ((kept_discipline out).chained hc).comparable (World.mem_trace.mp hin)
    (World.mem_trace.mp hin') with heq | hlt | hlt
  · exact congrArg Event.tid heq
  · exact absurd hlt (not_before hc htr hm hin')
  · exact absurd hlt (not_before hc htr' hm' hin)

/-- **A transaction is sponsored once**, in every run of requests and sweeps on any number of
replicas, with any crashes and lost answers: a request submits at most once, a fee-bump of its own
transaction, for which it has committed a reservation, and no other request ever commits a
reservation under the hash of this transaction. -/
theorem submitted_once (hc : Reach (system out) cond Idle c) {req : SponsorRequest} {xdr : String}
    {a : HttpOutcome} (hj : c.world.jobs[i]? = some (.sponsor w req))
    (hm : (xdr, a) ∈ posted (c.world.trace i)) :
    posted (c.world.trace i) = [(xdr, a)] ∧
      ∃ (p : Preflight) (row : SponsoredTransaction) (hash : List UInt8),
        req.transactionXdr = some p.innerXdr ∧ out.xdr.computeInnerTxHash p.innerXdr = some hash ∧
        p.innerHashHex = hexEncode hash ∧
        Reserved w p.innerHashHex p.maxFee row (c.world.trace i) ∧
        signWith out p.wallet p.innerXdr p.maxFee = .signed xdr ∧
        ∀ k w' fee' row', Reserved w' (hexEncode hash) fee' row' (c.world.trace k) → k = i := by
  obtain ⟨hone, p, row, ⟨hxdr, hash, hhash, hhex⟩, hres, hsign⟩ := posted_eq hc hj hm
  refine ⟨hone, p, row, hash, hxdr, hhash, hhex, hres, hsign, ?_⟩
  intro k w' fee' row' h
  rw [hhex] at hres
  exact reserved_once hc h hres

/-- One request that submits. -/
theorem submitted_once_one : ∃ c, Reachable (system exampleOutside) Idle c ∧
    ∃ xdr, posted (c.world.trace 0) = [(xdr, applied)] ∧
    ∃ (p : Preflight) (row : SponsoredTransaction), p.innerXdr = onePayment.text ∧
      Reserved 1 p.innerHashHex p.maxFee row (c.world.trace 0) ∧
      ∀ k w' fee' row', Reserved w' p.innerHashHex fee' row' (c.world.trace k) → k = 0 := by
  obtain ⟨c, hc, hj, hposted, -⟩ := example_finalized applied
  have hidle : Reachable (system exampleOutside) Idle c :=
    hc.imp_init (fun s hs tx => by rw [hs]; rfl)
  obtain ⟨-, p, row, _, hxdr, -, hhex, hres, -, hone⟩ :=
    submitted_once hidle hj (by rw [hposted]; exact mem_cons_self)
  exact ⟨c, hidle, _, hposted, p, row, (Option.some.inj hxdr).symm, hres, hhex ▸ hone⟩

end Octo.Sponsor
