import Octo.Audit.Honest

/-!
# Verification while events are recorded

The queries of one verification each see the tables of their own moment.  While the user's events
are recorded, the rows that a query finds continue those that the queries before it have found, so
that the walk never fails.  But the count of the unchained rows and the head come from other moments
than the rows.
-/

namespace Octo.Audit

open AuditDb List

variable {key : AuditChainKey} {userId : Uuid128} {db db' : AuditDb}

/-- What happens to the rows and the head of a user that only `record_audit` writes: an event of any
user is recorded, or something else leaves them alone. -/
def Recording (key : AuditChainKey) (userId : Uuid128) (db db' : AuditDb) : Prop :=
  (∃ e, db.recordAudit key e = .ok db') ∨ db'.view userId = db.view userId

namespace AuditDb

theorem chain_prefix_of_appendLink {e : Entry} (hi : Honest key e.userId db)
    (h : db.appendLink key e = .ok db') : db.chain e.userId <+: db'.chain e.userId := by
  obtain ⟨tip, db1, seq, db2, htip, hseq, hinsert, rfl⟩ := appendLink_ok h
  obtain ⟨c, hw, rfl, -, -⟩ := hi.chainTip htip
  rcases chainTip_ok htip with ⟨_, _, _, rfl⟩ | ⟨_, hchain, _⟩
  · exact ⟨_, (chain_of_append hw hseq hinsert).symm⟩
  · rw [hchain]
    exact nil_prefix

end AuditDb

theorem honest_of_recording (h : Recording key userId db db') (hi : Honest key userId db) :
    Honest key userId db' ∧ db.chain userId <+: db'.chain userId := by
  have hframe : db'.view userId = db.view userId → Honest key userId db' ∧
      db.chain userId <+: db'.chain userId := by
    intro hview
    refine ⟨honest_of_view hview hi, ?_⟩
    have hchain : db'.chain userId = db.chain userId := (View.mk.inj hview).1
    exact hchain ▸ prefix_refl _
  rcases h with ⟨e, h⟩ | hview
  · by_cases hu : userId = e.userId
    · subst hu
      exact ⟨honest_of_appendLink hi h, chain_prefix_of_appendLink hi h⟩
    · exact hframe ((within_appendLink h).frame userId hu)
  · exact hframe hview

theorem honest_of_recordings (h : Relation.ReflTransGen (Recording key userId) db db')
    (hi : Honest key userId db) : Honest key userId db' ∧ db.chain userId <+: db'.chain userId := by
  induction h with
  | refl => exact ⟨hi, prefix_refl _⟩
  | tail _ hstep ih =>
    obtain ⟨hi', hbegins⟩ := honest_of_recording hstep ih.1
    exact ⟨hi', ih.2.trans hbegins⟩

/-- What the queries of one run see: events are recorded between any two of them, and before the
first. -/
structure Snapshots (key : AuditChainKey) (userId : Uuid128) (snap : Nat → AuditDb) : Prop where
  first : ∃ db0 : AuditDb, db0.headOf userId = none ∧ (∀ r ∈ db0.rowsOf userId, r.seq = none) ∧
    Relation.ReflTransGen (Recording key userId) db0 (snap 0)
  next : ∀ i, Relation.ReflTransGen (Recording key userId) (snap i) (snap (i + 1))

section

variable {snap : Nat → AuditDb}

theorem Snapshots.honest (h : Snapshots key userId snap) (i : Nat) :
    Honest key userId (snap i) := by
  induction i with
  | zero =>
    obtain ⟨db0, hhead, hlegacy, hrun⟩ := h.first
    exact (honest_of_recordings hrun (.inl ⟨hhead, chain_eq_nil_iff.mpr hlegacy⟩)).1
  | succ i ih => exact (honest_of_recordings (h.next i) ih).1

theorem Snapshots.chain_prefix (h : Snapshots key userId snap) (i : Nat) :
    (snap i).chain userId <+: (snap (i + 1)).chain userId :=
  (honest_of_recordings (h.next i) (h.honest i)).2

theorem Honest.walk (h : Honest key userId db) :
    ∃ c, walk key .start (db.chain userId) = .ok c := by
  rcases h with ⟨-, hchain⟩ | ⟨-, c, hw, -⟩
  · exact ⟨.start, by rw [hchain]; rfl⟩
  · exact ⟨c, hw⟩

theorem verifyRows_recording (h : Snapshots key userId snap) {fuel i q : Nat} {c : Cursor}
    {done : List ChainRow} {res : Except Failure Cursor} (hdone : done <+: (snap i).chain userId)
    (hw : walk key .start done = .ok c)
    (hrun : verifyRows key userId snap fuel i c = some (res, q)) :
    ∃ c', res = .ok c' ∧ i < q ∧ walk key .start ((snap (q - 1)).chain userId) = .ok c' := by
  induction fuel generalizing i c done with
  | zero => cases hrun
  | succ fuel ih =>
    obtain ⟨todo, htodo⟩ := hdone
    obtain ⟨-, hafter⟩ := chainAfter_of_walk (c := .start) (Int.le_refl 0) htodo.symm hw
    obtain ⟨ce, hend⟩ := Honest.walk (h.honest i)
    rw [← htodo] at hend
    obtain ⟨c1, hw1, hrest⟩ := walk_append_ok hend
    obtain rfl := Except.ok.inj (hw1.symm.trans hw)
    unfold verifyRows at hrun
    simp only [chainBatch, hafter] at hrun
    split at hrun
    · rename_i hempty
      rw [List.isEmpty_iff, take_eq_nil_iff] at hempty
      cases hrun
      rw [hempty.resolve_left (by decide), append_nil] at htodo
      refine ⟨c1, rfl, Nat.lt_succ_self i, ?_⟩
      rw [Nat.add_sub_cancel, ← htodo]
      exact hw
    · -- the batch passes, because the whole chain of this moment does
      rw [← take_append_drop verifyBatch todo] at hrest
      obtain ⟨c2, hbatch, -⟩ := walk_append_ok hrest
      rw [hbatch] at hrun
      have hdone' : done ++ todo.take verifyBatch <+: (snap (i + 1)).chain userId := by
        refine List.IsPrefix.trans ?_ (h.chain_prefix i)
        rw [← htodo]
        exact prefix_append_right_inj _ |>.mpr ( take_prefix _ _)
      have hw' : walk key .start (done ++ todo.take verifyBatch) = .ok c2 := by
        rw [walk_append, hw]
        exact hbatch
      obtain ⟨c', hres, hlt, hc'⟩ := ih hdone' hw' hrun
      exact ⟨c', hres, by omega, hc'⟩

theorem Snapshots.chain_prefix_pred (h : Snapshots key userId snap) {q : Nat} (hq : 0 < q) :
    (snap (q - 1)).chain userId <+: (snap q).chain userId := by
  have := h.chain_prefix (q - 1)
  rwa [Nat.sub_add_cancel hq] at this

/-- **When an honest chain is reported broken**: an event of the user was recorded between the last
query for rows and the query for the head, or rows that were counted as unchained had been adopted
by then. -/
theorem alarm_iff (key : AuditChainKey) (userId : Uuid128) (snap : Nat → AuditDb)
    (h : Snapshots key userId snap) {fuel q : Nat} {report : AuditChainReport}
    (hrun : verifyAuditChain key userId snap fuel = some (report, q)) :
    report.status.IsBroken ↔
      ((snap (q - 1)).chain userId).length < ((snap q).chain userId).length ∨
        0 < ((snap 0).unchained userId).length ∧ 0 < ((snap q).chain userId).length := by
  unfold verifyAuditChain at hrun
  split at hrun
  · cases hrun
  · rename_i hrows
    obtain ⟨c, hres, -⟩ := verifyRows_recording h List.nil_prefix rfl hrows
    cases hres
  · rename_i c q' hrows
    obtain ⟨c', hres, hlt, hw⟩ := verifyRows_recording h List.nil_prefix rfl hrows
    obtain ⟨rfl, rfl⟩ := Prod.mk.inj (Option.some.inj hrun)
    cases hres
    obtain ⟨hlast, -, -⟩ := walk_ok hw
    simp only [Cursor.start] at hlast
    have hbegins := h.chain_prefix_pred (show 0 < q' by omega)
    rcases h.honest q' with ⟨hhead, hchain⟩ | ⟨-, ce, hwe, seq, hseq, hhead⟩
    · -- not started: there were no rows before it either
      rw [hchain, List.prefix_nil] at hbegins
      rw [hbegins, List.length_nil] at hlast
      rw [hhead, hchain]
      refine iff_of_false ?_ (by simp)
      rintro ⟨seq, reason, hb⟩
      rw [judgeHead, if_pos (show c.lastSeq = 0 by omega)] at hb
      split at hb <;> cases hb
    · obtain ⟨hlast', -, -⟩ := walk_ok hwe
      simp only [Cursor.start] at hlast'
      rw [hhead]
      by_cases hgrown : ((snap (q' - 1)).chain userId).length < ((snap q').chain userId).length
      · -- the head is ahead of the rows
        refine iff_of_true (by_contra fun hnot => ?_) (.inl hgrown)
        have hmatch := (judgeHead_some hnot).2.1
        dsimp only at hmatch
        omega
      · have hsame := hbegins.eq_of_length_le (by omega)
        rw [hsame] at hw
        obtain rfl := Except.ok.inj (hwe.symm.trans hw)
        by_cases hcount : 0 < ((snap 0).unchained userId).length
        · refine iff_of_true (by_contra fun hnot => ?_) (.inr ⟨hcount, by omega⟩)
          have hzero := (judgeHead_some hnot).2.2.2.1
          omega
        · have hzero : ((snap 0).unchained userId).length = 0 := by omega
          rw [hzero, judgeHead_signed hseq.symm]
          refine iff_of_false ?_ (by omega)
          rintro ⟨seq', reason, hb⟩
          cases hb

end

/-! ### Alarms -/

def newDb : AuditDb where
  users := [⟨7, none⟩]
  wallets := []
  logs := []
  heads := []
  ids_nodup := List.nodup_nil
  positions := .nil
  heads_nodup := List.nodup_nil

def recordedDb (db : AuditDb) : AuditDb :=
  match db.recordAudit exampleKey laterEntry with
  | .ok db' => db'
  | .error _ => db

theorem recordedDb_eq (h : (db.recordAudit exampleKey laterEntry).toBool = true) :
    db.recordAudit exampleKey laterEntry = .ok (recordedDb db) := by
  unfold recordedDb
  cases hrec : db.recordAudit exampleKey laterEntry with
  | error =>
    rw [hrec] at h
    cases h
  | ok => rfl

def recordedBefore (db : AuditDb) (n i : Nat) : AuditDb := if i < n then db else recordedDb db

theorem snapshots_recordedBefore {n : Nat}
    (hrec : (db.recordAudit exampleKey laterEntry).toBool = true) (hhead : db.headOf 7 = none)
    (hlegacy : ∀ r ∈ db.rowsOf 7, r.seq = none) : Snapshots exampleKey 7 (recordedBefore db n) := by
  have hstep : Relation.ReflTransGen (Recording exampleKey 7) db (recordedDb db) :=
    .single (.inl ⟨laterEntry, recordedDb_eq hrec⟩)
  constructor
  · refine ⟨db, hhead, hlegacy, ?_⟩
    unfold recordedBefore
    split
    · exact .refl
    · exact hstep
  · intro i
    unfold recordedBefore
    by_cases hi : i + 1 < n
    · rw [if_pos (show i < n by omega), if_pos hi]
    · split
      · exact hstep
      · exact .refl

/-- **Two false alarms**: the first event of an account is recorded between the last query for rows
and the query for the head, or right after the legacy rows have been counted. -/
theorem honest_chain_alarm :
    Snapshots exampleKey 7 (recordedBefore newDb 2) ∧
    verifyAuditChain exampleKey 7 (recordedBefore newDb 2) 2 =
      some (⟨7, 0, 0, .broken (some 1) "rows deleted from the end of the chain"⟩, 2) ∧
    Snapshots exampleKey 7 (recordedBefore legacyDb 1) ∧
    verifyAuditChain exampleKey 7 (recordedBefore legacyDb 1) 2 =
      some (⟨7, 2, 1, .broken none "unchained rows present after the chain started"⟩, 3) := by
  refine ⟨snapshots_recordedBefore (by decide +kernel) rfl (by decide), by decide +kernel,
    snapshots_recordedBefore (by decide +kernel) rfl (by decide), by decide +kernel⟩

/-- No alarm, if the event is recorded before the query for rows. -/
theorem early_event_intact : ∃ report, verifyAuditChain exampleKey 7 (recordedBefore newDb 1) 2 =
    some (report, 3) ∧ ¬ report.status.IsBroken := by
  have hrun : verifyAuditChain exampleKey 7 (recordedBefore newDb 1) 2 =
      some (⟨7, 1, 0, .intact⟩, 3) := by
    decide +kernel
  refine ⟨_, hrun, ?_⟩
  rw [alarm_iff exampleKey 7 (recordedBefore newDb 1)
    (snapshots_recordedBefore (by decide +kernel) rfl (by decide)) hrun]
  decide

end Octo.Audit
