import Octo.Addresses.Allocate

/-!
# The lock of a wallet's row

While a transaction holds the lock of a wallet's row, the committed counter is still the id its
batch starts at, and nobody else adds a row of the wallet (`Reserved`).  The lock is held by one
session at most (`Exclusive`), so that a commit disturbs no other allocation (`Undisturbed`).
-/

namespace Octo.Addresses

open Conc AllocDb World List

def consecutive (first : Int) (n : Nat) : List Int := (List.range n).map (fun k : Nat => first + k)

/-- The session of a job whose `UPDATE` returned `first`, with the rows inserted so far. -/
structure Reserved (j : Job) (first : Int) (rows : List Address) (q : AllocSession) (db : Db) :
    Prop where
  bumped : q.bumped = some (j.walletId, first + j.new.length)
  inserted : q.inserted = rows
  counter : AllocDb.counter db j.walletId = some first
  ids : rows.map (·.muxedId) = consecutive first rows.length
  wallet : ∀ r ∈ rows, r.walletId = j.walletId
  free : ∀ r ∈ rows, usesId db.addresses j.walletId r.muxedId = false

/-- The session of an allocation is as its status says, unless it is gone. -/
def Fits (j : Job) (s : AllocDb) : Status → Prop
  | .opened tx => ∀ q, s.sessions tx = some q → q.bumped = none ∧ q.inserted = []
  | .bumped tx first rows => ∀ q, s.sessions tx = some q → Reserved j first rows q s.db
  | _ => True

structure Exclusive (s : AllocDb) : Prop where
  fresh : ∀ {tx q}, s.sessions tx = some q → tx < s.nextSession
  one : ∀ {tx tx' q q' walletId}, s.sessions tx = some q → s.sessions tx' = some q' →
    q.locks walletId = true → q'.locks walletId = true → tx = tx'

structure Locked (w : World) : Prop where
  silent : ∀ i, w.jobs.length ≤ i → w.trace i = []
  exclusive : Exclusive w.db
  known : ∀ {i tx}, (status (w.trace i)).tx? = some tx → tx < w.db.nextSession
  owner : ∀ {i k tx}, (status (w.trace i)).tx? = some tx → (status (w.trace k)).tx? = some tx →
    i = k
  fits : ∀ {i j}, w.jobs[i]? = some j → Fits j w.db (status (w.trace i))

/-! ### The calls -/

variable {a : Except StoreError Unit} {muxedAddress : String} {item : NewAddress}
  {muxedId count : Int}

section

variable {s s' : AllocDb} {ch : Choice} {tx : Nat} {walletId : Uuid}

theorem exec_begin {a : Except StoreError Nat} (h : exec .begin ch s = some (a, s')) :
    s' = s ∧ (∃ e, a = .error e) ∨ s' = s.begin.2 ∧
    (a = .ok s.nextSession ∨ ∃ e, a = .error e) := by
  rw [exec] at h
  rcases storeWait_cases h with ⟨rfl, rfl⟩ | ⟨b, hb, ha⟩
  · exact .inl ⟨rfl, _, rfl⟩
  · cases hb
    rcases ha with rfl | rfl
    · exact .inr ⟨rfl, .inl rfl⟩
    · exact .inr ⟨rfl, .inr ⟨_, rfl⟩⟩

theorem exec_bumpCounter {a : Except StoreError (Option Int)}
    (h : exec (.bumpCounter tx walletId count) ch s = some (a, s')) :
    s' = s ∧ ((∃ e, a = .error e) ∨ a = .ok none) ∨
    ∃ q first, s.sessions tx = some q ∧ q.bumped = none ∧
      s.otherSession tx (fun q => q.locks walletId) = false ∧
      counter s.db walletId = some first ∧
      s' = s.setSession tx { q with bumped := some (walletId, first + count) } ∧
      (a = .ok (some first) ∨ ∃ e, a = .error e) := by
  rw [exec] at h
  rcases storeWait_cases h with ⟨rfl, rfl⟩ | ⟨b, hb, ha⟩
  · exact .inl ⟨rfl, .inl ⟨_, rfl⟩⟩
  · rcases bumpCounter_cases hb with ⟨hnothing, rfl⟩
      | ⟨q, first, hq, hnone, hfree, hfirst, rfl, rfl⟩
    · refine .inl ⟨rfl, ?_⟩
      rcases ha with rfl | rfl
      · exact hnothing
      · exact .inl ⟨_, rfl⟩
    · refine .inr ⟨q, first, hq, hnone, hfree, hfirst, rfl, ?_⟩
      exact ha.imp_right (fun h => ⟨_, h⟩)

theorem exec_insertAddress {a : Except StoreError Address}
    (h : exec (.insertAddress tx walletId muxedId muxedAddress item) ch s = some (a, s')) :
    s' = s ∧ (∃ e, a = .error e) ∨
    ∃ q row, s.sessions tx = some q ∧
      usesId (s.db.addresses ++ q.inserted) walletId muxedId = false ∧
      row.walletId = walletId ∧ row.muxedId = muxedId ∧
      s' = { s.setSession tx { q with inserted := q.inserted ++ [row] } with
        db := { s.db with nextId := s.db.nextId + 1 } } ∧
      (a = .ok row ∨ ∃ e, a = .error e) := by
  rw [exec] at h
  rcases storeWait_cases h with ⟨rfl, rfl⟩ | ⟨b, hb, ha⟩
  · exact .inl ⟨rfl, _, rfl⟩
  · rcases insertAddress_cases hb with ⟨⟨e, rfl⟩, rfl⟩ | ⟨q, row, hq, hfree, rfl, hw, hid, rfl⟩
    · exact .inl ⟨rfl, by rcases ha with rfl | rfl <;> exact ⟨_, rfl⟩⟩
    · exact .inr ⟨q, row, hq, hfree, hw, hid, rfl, ha.imp_right (fun h => ⟨_, h⟩)⟩

theorem exec_commit (h : exec (.commit tx) ch s = some (a, s')) : s' = s ∧ (∃ e, a = .error e) ∨
    ∃ q, s.sessions tx = some q ∧ s' = { s.endSession tx with db := written q s.db } := by
  rw [exec] at h
  rcases storeWait_cases h with ⟨rfl, rfl⟩ | ⟨b, hb, ha⟩
  · exact .inl ⟨rfl, _, rfl⟩
  · have hb := Option.some.inj hb
    unfold commit at hb
    cases hq : s.sessions tx with
    | none =>
      rw [hq] at hb
      cases hb
      exact .inl ⟨rfl, by rcases ha with rfl | rfl <;> exact ⟨_, rfl⟩⟩
    | some q =>
      rw [hq] at hb
      exact .inr ⟨q, rfl, (Prod.mk.inj hb).2.symm⟩

theorem exec_rollback (h : exec (.rollback tx) ch s = some (a, s')) :
    s' = s ∨ s' = s.endSession tx := by
  rw [exec] at h
  rcases storeWait_cases h with ⟨-, rfl⟩ | ⟨b, hb, -⟩
  · exact .inl rfl
  · cases hb
    exact .inr rfl

end

/-! ### What a commit writes -/

variable {rows : List Address} {first : Int}

section

variable {db : Db} {q : AllocSession}

theorem counter_written {walletId : Uuid} {next : Int} (hq : q.bumped = some (walletId, next))
    (hfirst : counter db walletId = some first) (w : Uuid) :
    counter (written q db) w = if w = walletId then some next else counter db w := by
  have hfind : counter (written q db) w = (db.wallets.find? (fun x => x.id == w)).map
      (fun x => if x.id == walletId then next else x.nextMuxedId) := by
    rw [counter, written, hq, find?_map, Option.map_map]
    have hid : (fun x : Wallet => x.id == w) ∘
        (fun x => if x.id == walletId then { x with nextMuxedId := next } else x) =
        fun x => x.id == w := by
      funext x
      simp only [Function.comp]
      split <;> rfl
    rw [hid]
    congr 1
    funext x
    simp only [Function.comp]
    split <;> rfl
  rw [hfind]
  cases hw : db.wallets.find? (fun x => x.id == w) with
  | none =>
    rw [if_neg]
    · simp [counter, hw]
    · rintro rfl
      simp [counter, hw] at hfirst
  | some x =>
    have hx : x.id = w := by simpa using find?_some hw
    by_cases hww : w = walletId
    · simp [hx, hww]
    · simp [hx, hww, counter, hw]

theorem usesId_append (rows rows' : List Address) (w : Uuid) (id : Int) :
    usesId (rows ++ rows') w id = (usesId rows w id || usesId rows' w id) := any_append

theorem usesId_of_other {walletId w : Uuid} (hrows : ∀ r ∈ rows, r.walletId = walletId)
    (hne : w ≠ walletId) (id : Int) : usesId rows w id = false := by
  refine any_eq_false.mpr (fun r hr => ?_)
  simp [hrows r hr, Ne.symm hne]

end

/-! ### Sessions and their locks -/

section

variable {s : AllocDb} {tx : Nat} {q q' : AllocSession} {tx' : Nat}

theorem of_otherSession_eq_false {p : AllocSession → Bool} (h : s.otherSession tx p = false)
    (hs : Exclusive s) (hne : tx' ≠ tx) (hq' : s.sessions tx' = some q') : p q' = false := by
  have hall := any_eq_false.mp h tx' (mem_range.mpr (hs.fresh hq'))
  simpa [hne, hq'] using hall

theorem Exclusive.setSession (hs : Exclusive s) (hq : s.sessions tx = some q)
    (hlocks : ∀ walletId, q'.locks walletId = true → q.locks walletId = true ∨
      s.otherSession tx (fun q => q.locks walletId) = false) : Exclusive (s.setSession tx q') := by
  have hother : ∀ {tx' q'' walletId}, tx' ≠ tx → s.sessions tx' = some q'' →
      q''.locks walletId = true → q'.locks walletId = true → False := by
    intro tx' q'' walletId hne h hl hl'
    rcases hlocks walletId hl' with hold | hfree
    · exact hne (hs.one h hq hl hold)
    · rw [of_otherSession_eq_false hfree hs hne h] at hl
      cases hl
  constructor
  · intro tx' q'' h
    rcases sessions_of_setSession s h with ⟨rfl, -⟩ | ⟨-, h⟩
    · exact hs.fresh hq
    · exact hs.fresh h
  · intro tx1 tx2 q1 q2 walletId h1 h2 hl1 hl2
    rcases sessions_of_setSession s h1 with ⟨rfl, rfl⟩ | ⟨hne1, hold1⟩
    · rcases sessions_of_setSession s h2 with ⟨rfl, -⟩ | ⟨hne2, hold2⟩
      · rfl
      · exact (hother hne2 hold2 hl2 hl1).elim
    · rcases sessions_of_setSession s h2 with ⟨rfl, rfl⟩ | ⟨-, hold2⟩
      · exact (hother hne1 hold1 hl1 hl2).elim
      · exact hs.one hold1 hold2 hl1 hl2

theorem Exclusive.endSession (hs : Exclusive s) (tx : Nat) : Exclusive (s.endSession tx) where
  fresh h := hs.fresh (sessions_of_endSession s h).2
  one h1 h2 := hs.one (sessions_of_endSession s h1).2 (sessions_of_endSession s h2).2

theorem sessions_of_begin (h : s.begin.2.sessions tx' = some q) :
    tx' = s.nextSession ∧ q = ⟨s.db.now, none, []⟩ ∨ s.sessions tx' = some q :=
  (sessions_of_setSession s h).imp_right And.right

theorem Exclusive.begin (hs : Exclusive s) : Exclusive s.begin.2 where
  fresh h := by
    rcases sessions_of_begin h with ⟨rfl, -⟩ | h
    · exact Nat.lt_succ_self _
    · exact Nat.lt_succ_of_lt (hs.fresh h)
  one h1 h2 hl1 hl2 := by
    rcases sessions_of_begin h1 with ⟨-, rfl⟩ | h1
    · cases hl1
    · rcases sessions_of_begin h2 with ⟨-, rfl⟩ | h2
      · cases hl2
      · exact hs.one h1 h2 hl1 hl2

end

/-- What an allocation relies on: its session is as it was or gone, and so are the counter and the
ids of the wallet it has locked. -/
def Undisturbed (s s' : AllocDb) (st : Status) : Prop :=
  ∀ tx q, st.tx? = some tx → s'.sessions tx = some q → s.sessions tx = some q ∧
    ∀ walletId, q.locks walletId = true → counter s'.db walletId = counter s.db walletId ∧
      ∀ id, usesId s'.db.addresses walletId id = usesId s.db.addresses walletId id

variable {st : Status}

theorem Undisturbed.of_sessions {s s' : AllocDb} (hw : s'.db.wallets = s.db.wallets)
    (ha : s'.db.addresses = s.db.addresses)
    (h : ∀ tx q, st.tx? = some tx → s'.sessions tx = some q → s.sessions tx = some q) :
    Undisturbed s s' st := by
  intro tx q htx hq
  refine ⟨h tx q htx hq, fun walletId _ => ⟨by rw [counter, hw, counter], fun id => by rw [ha]⟩⟩

theorem Fits.undisturbed {j : Job} {s s' : AllocDb} (h : Fits j s st) (hu : Undisturbed s s' st) :
    Fits j s' st := by
  cases st with
  | idle => trivial
  | ended => trivial
  | opened tx =>
    intro q hq
    exact h q (hu tx q rfl hq).1
  | bumped tx =>
    intro q hq
    obtain ⟨hold, hsame⟩ := hu tx q rfl hq
    have hr := h q hold
    obtain ⟨hcounter, hids⟩ := hsame j.walletId (by simp [AllocSession.locks, hr.bumped])
    exact { hr with
      counter := hcounter.trans hr.counter
      free := fun r hin => (hids _).trans (hr.free r hin) }

section

variable {w : World} {i : Nat} {j : Job} {ch : Choice} {s' : AllocDb} {tx : Nat} {o : Op}

/-- **A call of one allocation**, with what it has to keep of its own session and of the others'. -/
theorem Locked.record (hw : Locked w) {a : Ans o} (hj : w.jobs[i]? = some j) (hs : Exclusive s')
    (hnext : w.db.nextSession ≤ s'.nextSession)
    (htx : ∀ tx, ((status (w.trace i)).next ⟨o, a, w.db, s'⟩).tx? = some tx →
      (status (w.trace i)).tx? = some tx ∨ tx = w.db.nextSession ∧ tx < s'.nextSession)
    (hself : Fits j s' ((status (w.trace i)).next ⟨o, a, w.db, s'⟩))
    (hothers : ∀ k, k ≠ i → Undisturbed w.db s' (status (w.trace k))) :
    Locked (w.record i o a s') := by
  have hlt : i < w.jobs.length := (List.getElem?_eq_some_iff.mp hj).1
  -- the transactions after the call: those of the others, and the one of the caller
  have hcase : ∀ {k tx}, (status ((w.record i o a s').trace k)).tx? = some tx →
      (status (w.trace k)).tx? = some tx ∨ k = i ∧ tx = w.db.nextSession ∧ tx < s'.nextSession := by
    intro k tx h
    by_cases hk : i = k
    · subst hk
      rw [trace_record_self] at h
      exact (htx tx h).imp_right (fun h => ⟨rfl, h⟩)
    · rw [trace_record_of_ne _ _ _ _ _ hk] at h
      exact .inl h
  constructor
  · intro k hk
    rw [trace_record_of_ne _ _ _ _ _ (by simp only [record_jobs] at hk; omega)]
    exact hw.silent k hk
  · exact hs
  · intro k tx h
    rcases hcase h with h | ⟨-, -, h⟩
    · exact Nat.lt_of_lt_of_le (hw.known h) hnext
    · exact h
  · intro k k' tx h h'
    rcases hcase h with hold | ⟨rfl, rfl, -⟩
    · rcases hcase h' with hold' | ⟨rfl, rfl, -⟩
      · exact hw.owner hold hold'
      · exact absurd (hw.known hold) (Nat.lt_irrefl _)
    · rcases hcase h' with hold' | ⟨rfl, -, -⟩
      · exact absurd (hw.known hold') (Nat.lt_irrefl _)
      · rfl
  · intro k j' hj'
    by_cases hk : i = k
    · subst hk
      rw [trace_record_self]
      rw [record_jobs, hj] at hj'
      cases hj'
      exact hself
    · rw [trace_record_of_ne _ _ _ _ _ hk]
      exact (hw.fits hj').undisturbed (hothers k (Ne.symm hk))

theorem Locked.record_ended (hw : Locked w) {a : Ans o} (hj : w.jobs[i]? = some j)
    (hs : Exclusive s') (hnext : w.db.nextSession ≤ s'.nextSession)
    (hended : (status (w.trace i)).next ⟨o, a, w.db, s'⟩ = .ended)
    (hothers : ∀ k, k ≠ i → Undisturbed w.db s' (status (w.trace k))) :
    Locked (w.record i o a s') := by
  refine hw.record hj hs hnext ?_ ?_ hothers
  · rw [hended]
    exact fun tx h => nomatch h
  · rw [hended]
    trivial

theorem Undisturbed.refl (s : AllocDb) (st : Status) : Undisturbed s s st :=
  .of_sessions rfl rfl (fun _ _ _ h => h)

theorem Locked.unchanged (hw : Locked w) {a : Ans o} (hj : w.jobs[i]? = some j)
    (hended : (status (w.trace i)).next ⟨o, a, w.db, w.db⟩ = .ended) :
    Locked (w.record i o a w.db) :=
  hw.record_ended hj hw.exclusive (Nat.le_refl _) hended (fun _ _ => .refl _ _)

theorem Locked.begin (hw : Locked w) (hj : w.jobs[i]? = some j) (hL : Allowed j (w.trace i) .begin)
    {a : Except StoreError Nat} (he : exec .begin ch w.db = some (a, s')) :
    Locked (w.record i .begin a s') := by
  rcases exec_begin he with ⟨rfl, e, rfl⟩ | ⟨rfl, ha⟩
  · exact hw.unchanged hj (by rw [hL]; rfl)
  · have hothers : ∀ k, k ≠ i → Undisturbed w.db w.db.begin.2 (status (w.trace k)) := by
      intro k _
      refine .of_sessions rfl rfl (fun tx q htx hq => ?_)
      rcases sessions_of_begin hq with ⟨rfl, -⟩ | hq
      · exact absurd (hw.known htx) (Nat.lt_irrefl _)
      · exact hq
    rcases ha with rfl | ⟨e, rfl⟩
    · refine hw.record hj hw.exclusive.begin (Nat.le_succ _) ?_ ?_ hothers
      · rw [hL]
        intro tx htx
        exact .inr ⟨(Option.some.inj htx).symm, Option.some.inj htx ▸ Nat.lt_succ_self _⟩
      · rw [hL]
        intro q hq
        rcases sessions_of_begin hq with ⟨-, rfl⟩ | hq
        · exact ⟨rfl, rfl⟩
        · exact absurd (hw.exclusive.fresh hq) (Nat.lt_irrefl _)
    · exact hw.record_ended hj hw.exclusive.begin (Nat.le_succ _) (by rw [hL]; rfl) hothers

theorem Locked.undisturbed_setSession (hw : Locked w) (hi : (status (w.trace i)).tx? = some tx)
    (q : AllocSession) (hs : s'.sessions = (w.db.setSession tx q).sessions)
    (hwallets : s'.db.wallets = w.db.db.wallets)
    (haddresses : s'.db.addresses = w.db.db.addresses) :
    ∀ k, k ≠ i → Undisturbed w.db s' (status (w.trace k)) := by
  intro k hk
  refine .of_sessions hwallets haddresses (fun tx' q' htx' hq' => ?_)
  have hne : tx' ≠ tx := by
    rintro rfl
    exact hk (hw.owner htx' hi)
  rw [hs, setSession_of_ne _ hne] at hq'
  exact hq'

theorem Locked.bumpCounter (hw : Locked w) (hj : w.jobs[i]? = some j) {walletId : Uuid}
    (hL : Allowed j (w.trace i) (.bumpCounter tx walletId count))
    {a : Except StoreError (Option Int)}
    (he : exec (.bumpCounter tx walletId count) ch w.db = some (a, s')) :
    Locked (w.record i (.bumpCounter tx walletId count) a s') := by
  obtain ⟨hst, rfl, rfl⟩ := hL
  rcases exec_bumpCounter he with ⟨rfl, ⟨e, rfl⟩ | rfl⟩
    | ⟨q, first, hq, hnone, hfree, hfirst, rfl, ha⟩
  · exact hw.unchanged hj (by rw [hst]; rfl)
  · exact hw.unchanged hj (by rw [hst]; rfl)
  · have hs : Exclusive (w.db.setSession tx
        { q with bumped := some (j.walletId, first + j.new.length) }) := by
      refine hw.exclusive.setSession hq (fun walletId hl => .inr ?_)
      have heq : j.walletId = walletId := by simpa [AllocSession.locks] using hl
      rw [← heq]
      exact hfree
    have hothers := hw.undisturbed_setSession (by rw [hst]; rfl)
      { q with bumped := some (j.walletId, first + j.new.length) }
      rfl rfl rfl
    rcases ha with rfl | ⟨e, rfl⟩
    · refine hw.record hj hs (Nat.le_refl _) ?_ ?_ hothers
      · rw [hst]
        exact fun tx' h => .inl h
      · rw [hst]
        intro q' hq'
        rw [setSession_self] at hq'
        cases hq'
        have hempty : q.inserted = [] := by
          have hfits := hw.fits hj
          rw [hst] at hfits
          exact (hfits q hq).2
        exact ⟨rfl, hempty, hfirst, rfl, forall_mem_nil _, forall_mem_nil _⟩
    · exact hw.record_ended hj hs (Nat.le_refl _) (by rw [hst]; rfl) hothers

theorem consecutive_succ (first : Int) (n : Nat) :
    consecutive first (n + 1) = consecutive first n ++ [first + n] := by
  rw [consecutive, range_succ, map_append]
  rfl

/-- **An insert goes on where the one before has stopped.** -/
theorem Reserved.insert {q : AllocSession} {db : Db} (h : Reserved j first rows q db)
    {row : Address}
    (hfree : usesId (db.addresses ++ q.inserted) j.walletId (first + rows.length) = false)
    (hwallet : row.walletId = j.walletId) (hid : row.muxedId = first + rows.length) (n : Uuid) :
    Reserved j first (rows ++ [row]) { q with inserted := q.inserted ++ [row] }
      { db with nextId := n } where
  bumped := h.bumped
  inserted := by rw [h.inserted]
  counter := h.counter
  ids := by rw [map_append, h.ids, length_append, length_singleton, consecutive_succ,
    map_singleton, hid]
  wallet := Rows.forall_mem_concat h.wallet hwallet
  free := by
    refine Rows.forall_mem_concat h.free ?_
    rw [usesId_append, Bool.or_eq_false_iff] at hfree
    rw [hid]
    exact hfree.1

theorem Locked.insertAddress (hw : Locked w) (hj : w.jobs[i]? = some j) {walletId : Uuid}
    (hL : Allowed j (w.trace i) (.insertAddress tx walletId muxedId muxedAddress item))
    {a : Except StoreError Address}
    (he : exec (.insertAddress tx walletId muxedId muxedAddress item) ch w.db = some (a, s')) :
    Locked (w.record i (.insertAddress tx walletId muxedId muxedAddress item) a s') := by
  obtain ⟨_, _, hst, rfl, rfl⟩ := hL
  rcases exec_insertAddress he with ⟨rfl, e, rfl⟩ | ⟨q, row, hq, hfree, hwallet, hid, rfl, ha⟩
  · exact hw.unchanged hj (by rw [hst]; rfl)
  · have hset : Exclusive (w.db.setSession tx { q with inserted := q.inserted ++ [row] }) :=
      hw.exclusive.setSession hq (fun _ hl => .inl hl)
    have hothers : ∀ k, k ≠ i →
        Undisturbed w.db { w.db.setSession tx { q with inserted := q.inserted ++ [row] } with
        db := { w.db.db with nextId := w.db.db.nextId + 1 } } (status (w.trace k)) :=
      hw.undisturbed_setSession (by rw [hst]; rfl) { q with inserted := q.inserted ++ [row] }
        rfl rfl rfl
    rcases ha with rfl | ⟨e, rfl⟩
    · refine hw.record hj ⟨hset.fresh, hset.one⟩ (Nat.le_refl _) ?_ ?_ hothers
      · rw [hst]
        exact fun tx' h => .inl h
      · rw [hst]
        intro q' hq'
        rw [setSession_self] at hq'
        cases hq'
        have hfits := hw.fits hj
        rw [hst] at hfits
        exact (hfits q hq).insert hfree hwallet hid _
    · exact hw.record_ended hj ⟨hset.fresh, hset.one⟩ (Nat.le_refl _) (by rw [hst]; rfl) hothers

theorem Locked.commit (hw : Locked w) (hj : w.jobs[i]? = some j)
    (hL : Allowed j (w.trace i) (.commit tx)) (he : exec (.commit tx) ch w.db = some (a, s')) :
    Locked (w.record i (.commit tx) a s') := by
  obtain ⟨_, _, hst, -⟩ := hL
  rcases exec_commit he with ⟨rfl, -⟩ | ⟨q, hq, rfl⟩
  · exact hw.unchanged hj (by rw [hst]; rfl)
  · have hend := hw.exclusive.endSession tx
    refine hw.record_ended hj ⟨hend.fresh, hend.one⟩ (Nat.le_refl _) (by rw [hst]; rfl) ?_
    have hfits := hw.fits hj
    rw [hst] at hfits
    have hr := hfits q hq
    intro k hk tx' q' htx' hq'
    obtain ⟨hne, hold⟩ := sessions_of_endSession w.db hq'
    refine ⟨hold, fun walletId hl => ?_⟩
    -- the other session has locked another wallet
    have hother : walletId ≠ j.walletId := by
      rintro rfl
      exact hne (hw.exclusive.one hold hq hl (by simp [AllocSession.locks, hr.bumped]))
    refine ⟨?_, fun id => ?_⟩
    · rw [counter_written hr.bumped hr.counter, if_neg hother]
    · show usesId (w.db.db.addresses ++ q.inserted) walletId id = _
      rw [usesId_append, hr.inserted, usesId_of_other hr.wallet hother, Bool.or_false]

theorem undisturbed_endSession (s : AllocDb) (tx : Nat) (st : Status) :
    Undisturbed s (s.endSession tx) st :=
  .of_sessions rfl rfl (fun _ _ _ hq => (sessions_of_endSession s hq).2)

theorem Locked.rollback (hw : Locked w) (hj : w.jobs[i]? = some j)
    (he : exec (.rollback tx) ch w.db = some (a, s')) :
    Locked (w.record i (.rollback tx) a s') := by
  have hended : (status (w.trace i)).next ⟨.rollback tx, a, w.db, s'⟩ = .ended := by
    cases status (w.trace i) <;> rfl
  rcases exec_rollback he with rfl | rfl
  · exact hw.unchanged hj hended
  · exact hw.record_ended hj (hw.exclusive.endSession tx) (Nat.le_refl _) hended
      (fun k _ => undisturbed_endSession _ _ _)

/-- **Every allowed call keeps sessions and allocations together.** -/
theorem Locked.call (hw : Locked w) (hj : w.jobs[i]? = some j) (hL : Allowed j (w.trace i) o)
    {a : Ans o} (he : exec o ch w.db = some (a, s')) : Locked (w.record i o a s') := by
  cases o with
  | begin => exact hw.begin hj hL he
  | bumpCounter => exact hw.bumpCounter hj hL he
  | insertAddress => exact hw.insertAddress hj hL he
  | commit => exact hw.commit hj hL he
  | rollback => exact hw.rollback hj he

end

/-! ### Runs -/

variable {w : World} {s : AllocDb}

theorem locked_fresh (hs : ∀ tx, s.sessions tx = none) : Locked ⟨s, [], []⟩ where
  silent _ _ := rfl
  exclusive := ⟨fun h => absurd ((hs _).symm.trans h) nofun,
    fun h => absurd ((hs _).symm.trans h) nofun⟩
  known h := nomatch h
  owner h := nomatch h
  fits hj := nomatch hj

theorem Locked.addJob (hw : Locked w) (j : Job) : Locked (w.addJob j) where
  silent i hi := hw.silent i (by rw [addJob_jobs, length_append] at hi; omega)
  exclusive := hw.exclusive
  known := hw.known
  owner := hw.owner
  fits := by
    intro i j' hj'
    by_cases hi : i < w.jobs.length
    · rw [addJob_jobs, getElem?_append_left hi] at hj'
      exact hw.fits hj'
    · rw [trace_addJob, hw.silent i (by omega)]
      trivial

theorem Locked.setDb (hw : Locked w) (hs : Exclusive s) (hnext : s.nextSession = w.db.nextSession)
    (hu : ∀ st, Undisturbed w.db s st) : Locked (w.setDb s) where
  silent := hw.silent
  exclusive := hs
  known h := hnext ▸ hw.known h
  owner := hw.owner
  fits hj := (hw.fits hj).undisturbed (hu _)

theorem Locked.env (hw : Locked w) {e : Env} (he : env e w.db = some s) : Locked (w.setDb s) := by
  cases e with
  | tick =>
    cases he
    exact hw.setDb ⟨hw.exclusive.fresh, hw.exclusive.one⟩ rfl
      (fun st => .of_sessions rfl rfl (fun _ _ _ h => h))
  | abort tx =>
    cases he
    exact hw.setDb (hw.exclusive.endSession tx) rfl (fun st => undisturbed_endSession _ _ _)

/-- In every run the session of an allocation is as the calls it has made left it, or it is gone. -/
theorem locked {s0 : AllocDb} (hs : ∀ tx, s0.sessions tx = none) {c : Conf Job Op Ans AllocDb}
    (hc : Reachable system (· = s0) c) : Locked c.world := by
  refine discipline.invariant ?_ ?_ ?_ ?_ hc
  · rintro s rfl
    exact locked_fresh hs
  · intro w j hw _ _
    exact hw.addJob j
  · intro w i j o ch a s hw _ hj hL he _
    exact hw.call hj hL he
  · intro w e s hw he _
    exact hw.env he

end Octo.Addresses
