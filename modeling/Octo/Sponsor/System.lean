import Octo.Sponsor.Handler

/-!
# The system of sponsor requests and sweeps

Any number of sponsor requests and stale-pending sweeps run on one database, one call at a time, and
each may die between two calls.  Outside of them time passes, other callers use the circuit breaker,
and a database session may be lost, with what it has not committed.

* `statement_grows`, `exec_grows`, `env_grows`: whatever happens, no row is lost or changes its fee,
  and a session keeps its locks and its insert until it ends.
-/

namespace Octo.Sponsor

open Conc Octo.Api Resilience SponsorDb Option

inductive Job
  | sponsor (walletId : Uuid) (req : SponsorRequest)
  | reconcile (olderThan : Nat)

def code (out : Outside) : Job → Prog Op Ans Unit
  | .sponsor walletId req => (sponsor out walletId req).run.bind (fun _ => .ret ())
  | .reconcile olderThan => reconcileStalePending olderThan

inductive Env
  | tick (dt : Nat)
  | abort (tx : Nat)
  | otherCheck
  | otherSuccess
  | otherFailure

def env (e : Env) (s : State) : Option State :=
  match e with
  | .tick dt => some { s with db := { s.db with now := s.db.now + dt } }
  | .abort tx => some { s with db := s.db.endSession tx }
  | .otherCheck => some { s with breaker := (s.breaker.check s.db.now).2 }
  | .otherSuccess => some { s with breaker := s.breaker.onSuccess }
  | .otherFailure => some { s with breaker := s.breaker.onFailure s.db.now }

def system (out : Outside) : Sys Job Op Ans Choice Env State where
  code := code out
  canStart := fun _ _ => true
  exec := exec
  env := env

/-! ### What never goes back -/

/-- What no update of a reservation changes. -/
def SameReservation (r r' : SponsoredTransaction) : Prop :=
  r'.id = r.id ∧ r'.walletId = r.walletId ∧ r'.feeStroops = r.feeStroops ∧
    r'.createdAt = r.createdAt

/-- An open session keeps its locks, and the row it has inserted. -/
structure Session.Grows (q q' : Session) : Prop where
  startedAt : q'.startedAt = q.startedAt
  locks : q.locks ⊆ q'.locks
  inserted : ∀ row, q.phase = .inserted row → q'.phase = .inserted row

structure DbGrows (db db' : SponsorDb) : Prop where
  configs : db'.configs = db.configs
  now : db.now ≤ db'.now
  nextId : db.nextId ≤ db'.nextId
  nextSession : db.nextSession ≤ db'.nextSession
  sessions : ∀ tx q', db'.sessions tx = some q' → tx < db.nextSession →
    ∃ q, db.sessions tx = some q ∧ Session.Grows q q'
  rows : ∀ r ∈ db.sponsored, ∃ r' ∈ db'.sponsored, SameReservation r r'

theorem Session.Grows.refl (q : Session) : Session.Grows q q :=
  ⟨rfl, List.Subset.refl _, fun _ h => h⟩

theorem SameReservation.refl (r : SponsoredTransaction) : SameReservation r r :=
  ⟨rfl, rfl, rfl, rfl⟩

theorem SameReservation.trans {r1 r2 r3 : SponsoredTransaction} (h1 : SameReservation r1 r2)
    (h2 : SameReservation r2 r3) : SameReservation r1 r3 :=
  ⟨h2.1.trans h1.1, h2.2.1.trans h1.2.1, h2.2.2.1.trans h1.2.2.1, h2.2.2.2.trans h1.2.2.2⟩

theorem DbGrows.refl (db : SponsorDb) : DbGrows db db :=
  ⟨rfl, Nat.le_refl _, Nat.le_refl _, Nat.le_refl _, fun _ q' h _ => ⟨q', h, .refl q'⟩,
    fun r hr => ⟨r, hr, .refl r⟩⟩

theorem DbGrows.trans {db1 db2 db3 : SponsorDb} (h1 : DbGrows db1 db2) (h2 : DbGrows db2 db3) :
    DbGrows db1 db3 where
  configs := h2.configs.trans h1.configs
  now := Nat.le_trans h1.now h2.now
  nextId := Nat.le_trans h1.nextId h2.nextId
  nextSession := Nat.le_trans h1.nextSession h2.nextSession
  sessions := by
    intro tx q3 hq3 hlt
    obtain ⟨q2, hq2, hg2⟩ := h2.sessions tx q3 hq3 (Nat.lt_of_lt_of_le hlt h1.nextSession)
    obtain ⟨q1, hq1, hg1⟩ := h1.sessions tx q2 hq2 hlt
    refine ⟨q1, hq1, hg2.startedAt.trans hg1.startedAt, List.Subset.trans hg1.locks hg2.locks, ?_⟩
    intro row hrow
    exact hg2.inserted row (hg1.inserted row hrow)
  rows := by
    intro r hr
    obtain ⟨r2, hr2, hs2⟩ := h1.rows r hr
    obtain ⟨r3, hr3, hs3⟩ := h2.rows r2 hr2
    exact ⟨r3, hr3, hs2.trans hs3⟩

variable {db db' : SponsorDb}

theorem grows_setSession {tx : Nat} {q q' : Session} (hq : db.sessions tx = some q)
    (hg : Session.Grows q q') : DbGrows db (db.setSession tx q') := by
  refine { DbGrows.refl db with sessions := ?_ }
  intro tx' q1 hq1 _
  rcases sessions_of_setSession hq1 with ⟨rfl, rfl⟩ | ⟨-, hq1⟩
  · exact ⟨q, hq, hg⟩
  · exact ⟨q1, hq1, .refl q1⟩

theorem grows_endSession (db : SponsorDb) (tx : Nat) : DbGrows db (db.endSession tx) := by
  refine { DbGrows.refl db with sessions := ?_ }
  intro tx' q1 hq1 _
  exact ⟨q1, (sessions_of_endSession hq1).2, .refl q1⟩

theorem grows_begin (db : SponsorDb) : DbGrows db db.begin.2 := by
  refine { DbGrows.refl db with nextSession := Nat.le_succ _, sessions := ?_ }
  intro tx q1 hq1 hlt
  have htx : tx ≠ db.nextSession := Nat.ne_of_lt hlt
  have hsame : db.begin.2.sessions tx = db.sessions tx := Function.update_of_ne htx _ _
  rw [hsame] at hq1
  exact ⟨q1, hq1, .refl q1⟩

theorem grows_updateSponsored {p : SponsoredTransaction → Bool}
    {f : SponsoredTransaction → SponsoredTransaction} (hf : ∀ r, SameReservation r (f r))
    (db : SponsorDb) : DbGrows db (db.updateSponsored p f) := by
  refine { DbGrows.refl db with rows := ?_ }
  intro r hr
  refine ⟨if p r then f r else r, List.mem_map.mpr ⟨r, hr, rfl⟩, ?_⟩
  split
  · exact hf r
  · exact .refl r

/-- All that a statement can do. -/
inductive Change (db : SponsorDb) : Op → SponsorDb → Prop
  | unchanged {o : Op} : Change db o db
  | begun : Change db .begin db.begin.2
  | locked {tx key : Nat} {q : Session} : db.sessions tx = some q →
      db.otherSession tx (fun q => q.locks.contains key) = false →
      Change db (.advisoryXactLock tx key) (db.setSession tx { q with locks := key :: q.locks })
  | summed {tx : Nat} {w : Uuid} {q : Session} : db.sessions tx = some q → q.phase = .idle →
      Change db (.reserveSnapshot tx w) (db.setSession tx
        { q with phase := .summed w (feesSince db.sponsored w (dayStart q.startedAt)) })
  | refused {tx : Nat} {w : Uuid} {hash : String} {fee total : Int} {budget : Option Int}
      {q : Session} : db.sessions tx = some q → q.phase = .summed w total →
      Change db (.reserveInsert tx w hash fee budget) (db.setSession tx { q with phase := .idle })
  | inserted {tx : Nat} {w : Uuid} {hash : String} {fee total : Int} {budget : Option Int}
      {q : Session} :
      db.sessions tx = some q → q.phase = .summed w total →
      (∀ b, budget = some b → total + fee ≤ b) → Change db (.reserveInsert tx w hash fee budget)
        { db.setSession tx { q with
          phase := .inserted (db.reservation q.startedAt w hash fee) } with
          nextId := db.nextId + 1 }
  | committed {tx : Nat} {q : Session} {row : SponsoredTransaction} : db.sessions tx = some q →
      q.phase = .inserted row →
      Change db (.commit tx) { db.endSession tx with sponsored := db.sponsored ++ [row] }
  | ended {o : Op} {tx : Nat} : Change db o (db.endSession tx)
  | finalized {id : Uuid} {status : TxStatus} {hash error : Option String} :
      Change db (.finalize id status hash error) (db.finalize id status hash error)
  | swept {olderThan : Nat} : Change db (.reconcileStale olderThan) (db.reconcileStale olderThan).2

variable {o : Op} {a : Ans o}

theorem statement_change (h : statement o db = some (a, db')) : Change db o db' := by
  cases o with
  | horizon => cases h
  | advisoryXactLock =>
    rcases advisoryXactLock_cases h with ⟨-, rfl⟩ | ⟨q, hq, hother, -, rfl⟩
    · exact .unchanged
    · exact .locked hq hother
  | reserveSnapshot =>
    rcases reserveSnapshot_cases (some.inj h) with ⟨-, rfl⟩ | ⟨q, hq, hidle, -, rfl⟩
    · exact .unchanged
    · exact .summed hq hidle
  | reserveInsert =>
    rcases reserveInsert_cases h with ⟨-, rfl⟩ | ⟨q, _, hq, hsum, ⟨-, rfl⟩ | ⟨-, hb, -, rfl⟩⟩
    · exact .unchanged
    · exact .refused hq hsum
    · exact .inserted hq hsum hb
  | commit =>
    rcases commit_cases (some.inj h) with ⟨-, rfl⟩ | ⟨q, hq, -, ⟨row, hrow, rfl⟩ | ⟨-, rfl⟩⟩
    · exact .unchanged
    · exact .committed hq hrow
    · exact .ended
  | _ =>
    rw [← (call_inj h).2]
    constructor

theorem statement_grows (h : statement o db = some (a, db')) : DbGrows db db' := by
  have hphase : ∀ {tx : Nat} {q : Session} (phase : Phase), db.sessions tx = some q →
      (∀ row, q.phase ≠ .inserted row) →
      DbGrows db (db.setSession tx { q with phase := phase }) := fun phase hq hne =>
    grows_setSession hq ⟨rfl, List.Subset.refl _, fun row hrow => absurd hrow (hne row)⟩
  cases statement_change h with
  | unchanged => exact .refl db
  | begun => exact grows_begin db
  | locked hq => exact grows_setSession hq ⟨rfl, List.subset_cons_self _ _, fun _ h => h⟩
  | summed hq hidle => exact hphase _ hq (fun row => by rw [hidle]; exact Phase.noConfusion)
  | refused hq hsum => exact hphase _ hq (fun row => by rw [hsum]; exact Phase.noConfusion)
  | @inserted _ w hash fee _ _ q hq hsum =>
    have hg := hphase (.inserted (db.reservation q.startedAt w hash fee)) hq
      (fun row => by rw [hsum]; exact Phase.noConfusion)
    exact { hg with nextId := Nat.le_succ _ }
  | committed =>
    refine { grows_endSession db _ with rows := fun r hr => ?_ }
    exact ⟨r, List.mem_append_left _ hr, .refl r⟩
  | ended => exact grows_endSession db _
  | finalized | swept =>
    apply grows_updateSponsored
    exact fun _ => ⟨rfl, rfl, rfl, rfl⟩

/-! ### What a call can do -/

variable {s s' : State} {ch : Choice} {α : Type}
  {stmt : SponsorDb → Option (Except StoreError α × SponsorDb)}

theorem execHttp_state {c : HttpCall} {a : HttpCall.Ans c} (h : execHttp c ch s = some (a, s')) :
    ∃ b, s' = { s with breaker := b } := by
  cases c with
  | request =>
    cases ch with
    | http => exact ⟨s.breaker, (call_inj h).2.symm⟩
    | store => cases h
  | sleep => exact ⟨s.breaker, (call_inj h).2.symm⟩
  | _ => exact ⟨_, (call_inj h).2.symm⟩

theorem execStore_cases {a : Except StoreError α} (h : execStore stmt ch s = some (a, s')) :
    a = .error .database ∧ s' = s ∨ ∃ b db', stmt s.db = some (b, db') ∧ s' = { s with db := db' } ∧
      (a = b ∨ a = .error .database) := by
  cases ch with
  | http => cases h
  | store =>
    rcases storeWait_cases h with hc | ⟨b, hs, ha⟩
    · exact .inl hc
    · obtain ⟨⟨b', db'⟩, hst, he⟩ := map_eq_some_iff.mp hs
      cases he
      exact .inr ⟨b', db', hst, rfl, ha⟩

theorem execStore_ok {v : α} (h : execStore stmt ch s = some (.ok v, s')) :
    ∃ db', stmt s.db = some (.ok v, db') ∧ s' = { s with db := db' } := by
  rcases execStore_cases h with ⟨ha, -⟩ | ⟨b, db', hst, hs, hb | hb⟩
  · cases ha
  · rw [← hb] at hst
    exact ⟨db', hst, hs⟩
  · cases hb

/-- **What a call can change**: the breaker, or what its statement writes. -/
theorem exec_state (h : exec o ch s = some (a, s')) : (∃ b, s' = { s with breaker := b }) ∨
      ∃ b db', statement o s.db = some (b, db') ∧ s' = { s with db := db' } := by
  have hstore : ∀ {α : Type} {stmt : SponsorDb → Option (Except StoreError α × SponsorDb)}
      {a : Except StoreError α}, execStore stmt ch s = some (a, s') →
      (∃ b, s' = { s with breaker := b }) ∨ ∃ b db', stmt s.db = some (b, db') ∧
      s' = { s with db := db' } := by
    intro α stmt a h
    rcases execStore_cases h with ⟨-, hs⟩ | ⟨b, db', hst, hs, -⟩
    · exact .inl ⟨s.breaker, hs⟩
    · exact .inr ⟨b, db', hst, hs⟩
  cases o with
  | horizon => exact .inl (execHttp_state h)
  | _ => exact hstore h

def Grows (s s' : State) : Prop := DbGrows s.db s'.db

theorem exec_grows (h : exec o ch s = some (a, s')) : Grows s s' := by
  rcases exec_state h with ⟨b, rfl⟩ | ⟨b, db', hst, rfl⟩
  · exact .refl _
  · exact statement_grows hst

theorem env_grows {e : Env} (h : env e s = some s') : Grows s s' := by
  cases e with
  | tick =>
    rw [← some.inj h]
    exact { DbGrows.refl s.db with now := Nat.le_add_right _ _ }
  | abort tx =>
    rw [← some.inj h]
    exact grows_endSession s.db tx
  | _ =>
    rw [← some.inj h]
    exact .refl _

end Octo.Sponsor
