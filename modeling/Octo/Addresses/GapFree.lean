import Octo.Addresses.Locks

/-!
# Allocation is gap-free and unique

The counter of a wallet and its rows are in different tables, and a batch writes both in a
transaction of many statements that may fail at any of them.
-/

namespace Octo.Addresses

open Conc AllocDb List

def rowsOf (db : Db) (walletId : Uuid) : List Address :=
  db.addresses.filter (fun a => a.walletId == walletId)

def Leaves (s s' : AllocDb) : Prop :=
  s'.db.wallets = s.db.wallets ∧ s'.db.addresses = s.db.addresses

/-- The whole batch of `j` was added, under the ids from the wallet's counter on, and the counter
was raised by as many. -/
def Adds (j : Job) (s s' : AllocDb) : Prop :=
  ∃ first rows, counter s.db j.walletId = some first ∧ s'.db.addresses = s.db.addresses ++ rows ∧
    rows.length = j.new.length ∧ rows.map (·.muxedId) = consecutive first j.new.length ∧
    (∀ r ∈ rows, r.walletId = j.walletId) ∧
    (∀ r ∈ rows, usesId s.db.addresses j.walletId r.muxedId = false) ∧
    ∀ walletId, counter s'.db walletId = if walletId = j.walletId then some (first + j.new.length)
      else counter s.db walletId

/-- The ids of every wallet are distinct: `UNIQUE (wallet_id, muxed_id)`. -/
def Distinct (s : AllocDb) : Prop := ∀ walletId, ((rowsOf s.db walletId).map (·.muxedId)).Nodup

/-- No transaction is open, and the rows there are obey the unique key. -/
structure Ready (s : AllocDb) : Prop where
  sessions : ∀ tx, s.sessions tx = none
  distinct : Distinct s

variable {rows : List Address}

/-- **The commit of a complete session adds its batch.** -/
theorem Reserved.adds {q : AllocSession} {j : Job} {first : Int} {s : AllocDb} {tx : Nat}
    (h : Reserved j first rows q s.db) (hlen : rows.length = j.new.length) :
    Adds j s { s.endSession tx with db := written q s.db } := by
  refine ⟨first, rows, h.counter, ?_, hlen, hlen ▸ h.ids, h.wallet, h.free,
    counter_written h.bumped h.counter⟩
  rw [written, h.inserted]

variable {ch : Choice} {w : World} {i : Nat} {o : Op} {a : Ans o}

/-- A call leaves the tables as they are, or it is the commit that adds its whole batch. -/
theorem call_tables (hw : Locked w) {j : Job} {s' : AllocDb}
    (hj : w.jobs[i]? = some j) (hL : Allowed j (w.trace i) o) (he : exec o ch w.db = some (a, s')) :
    Leaves w.db s' ∧ (∀ k tx, (Label.call i o a : Label Job Op Ans) ≠ .call k (.commit tx)
      (.ok ())) ∨
    (∃ tx, o = .commit tx) ∧ Adds j w.db s' := by
  cases o with
  | begin =>
    refine .inl ⟨?_, fun k tx h => nomatch h⟩
    rcases exec_begin he with ⟨rfl, -⟩ | ⟨rfl, -⟩
    · exact ⟨rfl, rfl⟩
    · exact ⟨rfl, rfl⟩
  | bumpCounter tx =>
    refine .inl ⟨?_, fun k tx h => nomatch h⟩
    rcases exec_bumpCounter he with ⟨rfl, -⟩ | ⟨q, _, -, -, -, -, rfl, -⟩
    · exact ⟨rfl, rfl⟩
    · exact ⟨rfl, rfl⟩
  | insertAddress tx =>
    refine .inl ⟨?_, fun k tx h => nomatch h⟩
    rcases exec_insertAddress he with ⟨rfl, -⟩ | ⟨q, row, -, -, -, -, rfl, -⟩
    · exact ⟨rfl, rfl⟩
    · exact ⟨rfl, rfl⟩
  | commit tx =>
    rcases exec_commit he with ⟨rfl, e, rfl⟩ | ⟨q, hq, rfl⟩
    · exact .inl ⟨⟨rfl, rfl⟩, fun k tx h => nomatch h⟩
    · obtain ⟨_, _, hst, hlen⟩ := hL
      have hfits := hw.fits hj
      rw [hst] at hfits
      exact .inr ⟨⟨tx, rfl⟩, (hfits q hq).adds hlen⟩
  | rollback tx =>
    refine .inl ⟨?_, fun k tx h => nomatch h⟩
    rcases exec_rollback he with rfl | rfl
    · exact ⟨rfl, rfl⟩
    · exact ⟨rfl, rfl⟩

/-! ### What a batch does to the tables -/

theorem consecutive_nodup (first : Int) (n : Nat) : (consecutive first n).Nodup :=
  nodup_range.map (fun k k' (h : first + (k : Int) = first + k') => by omega)

theorem rowsOf_append {db db' : Db} (h : db'.addresses = db.addresses ++ rows) (walletId : Uuid) :
    rowsOf db' walletId = rowsOf db walletId ++ rows.filter (fun a => a.walletId == walletId) := by
  rw [rowsOf, h, filter_append, rowsOf]

def Counted (s0 s : AllocDb) : Prop :=
  ∀ walletId, counter s.db walletId = (counter s0.db walletId).map
    (· + (((rowsOf s.db walletId).length : Int) - (rowsOf s0.db walletId).length))

section

variable {s0 s s' : AllocDb} {j : Job}

theorem Leaves.rowsOf_eq (h : Leaves s s') (walletId : Uuid) :
    rowsOf s'.db walletId = rowsOf s.db walletId := by
  rw [rowsOf, h.2, rowsOf]

theorem Leaves.counter_eq (h : Leaves s s') (walletId : Uuid) :
    counter s'.db walletId = counter s.db walletId := by
  rw [counter, h.1, counter]

theorem Leaves.distinct (h : Leaves s s') (hs : Distinct s) : Distinct s' := by
  intro walletId
  rw [h.rowsOf_eq]
  exact hs walletId

theorem Leaves.counted (h : Leaves s s') (hs : Counted s0 s) : Counted s0 s' := by
  intro walletId
  rw [h.rowsOf_eq, h.counter_eq]
  exact hs walletId

theorem Adds.rowsOf_eq (ha : s'.db.addresses = s.db.addresses ++ rows)
    (hwallet : ∀ r ∈ rows, r.walletId = j.walletId) (walletId : Uuid) :
    rowsOf s'.db walletId = rowsOf s.db walletId ++ if walletId = j.walletId then rows else [] := by
  rw [rowsOf_append ha]
  congr 1
  split
  · rename_i heq
    exact filter_eq_self.mpr (fun r hr => by simp [hwallet r hr, heq])
  · rename_i hne
    exact filter_eq_nil_iff.mpr (fun r hr => by simp [hwallet r hr, Ne.symm hne])

theorem Adds.distinct (h : Adds j s s') (hs : Distinct s) : Distinct s' := by
  obtain ⟨_, _, -, ha, -, hids, hwallet, hfree, -⟩ := h
  intro walletId
  rw [rowsOf_eq ha hwallet, map_append]
  split
  · rename_i heq
    refine (hs walletId).append (hids ▸ consecutive_nodup _ _) ?_
    -- an id of the batch is not in use
    intro id hold hnew
    obtain ⟨r, hr, rfl⟩ := mem_map.mp hnew
    obtain ⟨r', hr', hsame⟩ := mem_map.mp hold
    obtain ⟨hin, hw⟩ := mem_filter.mp hr'
    have huses := any_eq_false.mp (hfree r hr) r' hin
    simp [hsame, beq_iff_eq.mp hw, heq] at huses
  · rw [map_nil, append_nil]
    exact hs walletId

theorem Adds.counted (h : Adds j s s') (hs : Counted s0 s) : Counted s0 s' := by
  obtain ⟨first, rows, hfirst, ha, hlen, -, hwallet, -, hcounter⟩ := h
  intro walletId
  rw [hcounter, rowsOf_eq ha hwallet]
  by_cases heq : walletId = j.walletId
  · subst heq
    have hold := hs j.walletId
    rw [hfirst] at hold
    rw [if_pos rfl, if_pos rfl, length_append]
    obtain ⟨n, hn, hsum⟩ := Option.map_eq_some_iff.mp hold.symm
    rw [hn, Option.map_some]
    congr 1
    omega
  · rw [if_neg heq, if_neg heq, append_nil]
    exact hs walletId

end

/-! ### Runs -/

/-- The step changed nothing, and it is not a commit that was acknowledged; or it is the commit of a
batch, and added the whole of it. -/
def Atomic (c : Conf Job Op Ans AllocDb) (l : Label Job Op Ans) (c' : Conf Job Op Ans AllocDb) :
    Prop :=
  Leaves c.world.db c'.world.db ∧ (∀ i tx, l ≠ .call i (.commit tx) (.ok ())) ∨
  ∃ i j tx a, l = .call i (.commit tx) a ∧ c.world.jobs[i]? = some j ∧ Adds j c.world.db c'.world.db

def Once (w : World) : Prop :=
  ∀ i, (w.trace i).Pairwise (fun y x => Leaves y.pre y.post ∨ Leaves x.pre x.post)

section

variable {s0 : AllocDb} {c c' : Conf Job Op Ans AllocDb} {l : Label Job Op Ans}

theorem env_leaves {e : Env} {s s' : AllocDb} (h : env e s = some s') : Leaves s s' := by
  cases e <;> cases h <;> exact ⟨rfl, rfl⟩

theorem step_atomic (hs : ∀ tx, s0.sessions tx = none) (hc : Reachable system (· = s0) c)
    (h : Step system c l c') : Atomic c l c' := by
  cases h with
  | start | crash i => exact .inl ⟨⟨rfl, rfl⟩, fun i tx h => nomatch h⟩
  | env e s he => exact .inl ⟨env_leaves he, fun i tx h => nomatch h⟩
  | call i o k ch a s hk he =>
    obtain ⟨j, hj, hcalls⟩ := discipline.reach hc i _ hk
    rcases call_tables (locked hs hc) hj hcalls.1 he with hleaves | ⟨⟨tx, rfl⟩, hadds⟩
    · exact .inl hleaves
    · exact .inr ⟨i, j, tx, a, rfl, hj, hadds⟩

theorem tables (h0 : Ready s0) (hc : Reachable system (· = s0) c) :
    Distinct c.world.db ∧ Counted s0 c.world.db := by
  induction hc with
  | init hs =>
    cases hs
    refine ⟨h0.distinct, fun walletId => ?_⟩
    show counter s0.db walletId = _
    cases counter s0.db walletId with
    | none => rfl
    | some => simp [Conf.fresh]
  | step hr h _ ih =>
    rcases step_atomic h0.sessions hr h with ⟨hleaves, -⟩ | ⟨i, j, tx, a, -, -, hadds⟩
    · exact ⟨hleaves.distinct ih.1, hleaves.counted ih.2⟩
    · exact ⟨hadds.distinct ih.1, hadds.counted ih.2⟩

end

/-- Before its commit an allocation has changed nothing, and after it it has ended. -/
def Pending (w : World) : Prop :=
  ∀ i, status (w.trace i) ≠ .ended → ∀ x ∈ w.trace i, Leaves x.pre x.post

theorem next_ended (x : Act) : Status.ended.next x = .ended := rfl

theorem commit_ended (st : Status) (tx : Nat) (a : Except StoreError Unit) (s s' : AllocDb) :
    st.next ⟨.commit tx, a, s, s'⟩ = .ended := by
  cases st <;> rfl

/-- **The step of `Once`.** -/
theorem once_call (hw : Locked w) (hp : Pending w) (ho : Once w) {j : Job} {s' : AllocDb}
    (hj : w.jobs[i]? = some j) (hL : Allowed j (w.trace i) o) (he : exec o ch w.db = some (a, s')) :
    Pending (w.record i o a s') ∧ Once (w.record i o a s') := by
  have htables := call_tables hw hj hL he
  refine ⟨fun k hk => ?_, fun k => ?_⟩
  · by_cases hik : i = k
    · subst hik
      rw [World.trace_record_self] at hk ⊢
      rw [status_cons] at hk
      rcases htables with ⟨hleaves, -⟩ | ⟨⟨tx, rfl⟩, -⟩
      · have hold : status (w.trace i) ≠ .ended := by
          intro hended
          rw [hended] at hk
          exact hk (next_ended _)
        exact forall_mem_cons.mpr ⟨hleaves, hp i hold⟩
      · exact absurd (commit_ended _ _ _ _ _) hk
    · rw [World.trace_record_of_ne _ _ _ _ _ hik] at hk ⊢
      exact hp k hk
  · by_cases hik : i = k
    · subst hik
      rw [World.trace_record_self]
      refine pairwise_cons.mpr ⟨fun x hx => ?_, ho i⟩
      rcases htables with ⟨hleaves, -⟩ | ⟨⟨tx, rfl⟩, -⟩
      · exact .inl hleaves
      · obtain ⟨_, _, hst, -⟩ := hL
        exact .inr (hp i (by rw [hst]; exact fun h => nomatch h) x hx)
    · rw [World.trace_record_of_ne _ _ _ _ _ hik]
      exact ho k

theorem once {s0 : AllocDb} (hs : ∀ tx, s0.sessions tx = none) {c : Conf Job Op Ans AllocDb}
    (hc : Reachable system (· = s0) c) : Once c.world := by
  have hall : Locked c.world ∧ Pending c.world ∧ Once c.world := by
    refine discipline.invariant (I := fun w => Locked w ∧ Pending w ∧ Once w) ?_ ?_ ?_ ?_ hc
    · rintro s rfl
      exact ⟨locked_fresh hs, fun i _ => forall_mem_nil _, fun i => List.Pairwise.nil⟩
    · intro w j hw _ _
      exact ⟨hw.1.addJob j, hw.2⟩
    · intro w i j o ch a s hw _ hj hL he _
      exact ⟨hw.1.call hj hL he, once_call hw.1 hw.2.1 hw.2.2 hj hL he⟩
    · intro w e s hw he _
      exact ⟨hw.1.env he, hw.2⟩
  exact hall.2.2

/-- **Allocation is gap-free and unique.**  From any tables in which no transaction is open, in
every run of any number of allocations: the ids of a wallet's rows are distinct; its counter is the
initial one plus the number of rows added since; every step leaves counters and rows as they are or
is the commit that adds one batch, whole and under consecutive ids from the counter on; and no batch
is added twice. -/
theorem allocation_gap_free {s0 : AllocDb} (h0 : Ready s0) {c : Conf Job Op Ans AllocDb}
    (hc : Reachable system (· = s0) c) :
    Distinct c.world.db ∧ Counted s0 c.world.db ∧ (∀ l c', Step system c l c' → Atomic c l c') ∧
    Once c.world :=
  ⟨(tables h0 hc).1, (tables h0 hc).2, fun _ _ h => step_atomic h0.sessions hc h,
    once h0.sessions hc⟩

def newWallet : AllocDb := ⟨⟨0, 0, [⟨1, "G", 1, none⟩], [], [], [], [], []⟩, 0, fun _ => none⟩

/-- Two batches of two overlap, and the second fails at its last insert because both its addresses
have one reference. Then a single address is allocated. -/
def failedBatch : List (Move Job Choice Env) :=
  [.start (.batch 1 (fun _ => some "M") [⟨none, ""⟩, ⟨none, ""⟩]),
    .start (.batch 1 (fun _ => some "M") [⟨some "alice", ""⟩, ⟨some "alice", ""⟩]),
    .call 0 (.served 0), .call 1 (.served 0), .call 0 (.served 0), .call 0 (.served 0),
    .call 0 (.served 0), .call 0 (.served 0), .call 1 (.served 0), .call 1 (.served 0),
    .call 1 (.served 0), .call 1 (.served 0),
    .start (.single 1 (fun _ => some "M") ⟨some "alice", ""⟩), .call 2 (.served 0),
    .call 2 (.served 0), .call 2 (.served 0), .call 2 (.served 0)]

theorem failed_batch_leaves_no_gap :
    Ready newWallet ∧ ∃ c, Reachable system (· = newWallet) c ∧
      (rowsOf c.world.db.db 1).map (·.muxedId) = [1, 2, 3] ∧ counter c.world.db.db 1 = some 4 ∧
      Distinct c.world.db ∧ Counted newWallet c.world.db ∧
      (∀ l c', Step system c l c' → Atomic c l c') ∧ Once c.world := by
  have hready : Ready newWallet := ⟨fun _ => rfl, fun _ => List.nodup_nil⟩
  have hc : Reachable system (· = newWallet) _ := reach_runMoves failedBatch (.init rfl) rfl
  exact ⟨hready, _, hc, by decide, by decide, allocation_gap_free hready hc⟩

end Octo.Addresses
