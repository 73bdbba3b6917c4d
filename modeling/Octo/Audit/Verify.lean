import Octo.Codec.HashChain
import Octo.Store.AuditChain

/-!
# Verification of an audit chain

`verify_audit_chain` makes its queries outside any transaction: a count of the unchained rows, the
chained rows in batches, and the head.  `verifyAuditChain key user snap fuel` is its run when the
`i`-th query finds the tables `snap i`; it is `none` while there are still rows to read after `fuel`
batches.
-/

namespace Octo.Audit

open Codec List

inductive AuditChainStatus
  | intact
  | unchained
  | broken (seq : Option Int) (reason : String)
  deriving DecidableEq

def AuditChainStatus.IsBroken (s : AuditChainStatus) : Prop := ∃ seq reason, s = .broken seq reason

structure AuditChainReport where
  userId : Uuid128
  rowsVerified : Nat
  unchainedRows : Nat
  status : AuditChainStatus
  deriving DecidableEq

structure Cursor where
  lastSeq : Int
  prev : Hash
  rowsVerified : Nat
  deriving DecidableEq

def Cursor.start : Cursor := ⟨0, genesisPrevHash, 0⟩

structure Failure where
  seq : Option Int
  reason : String
  rowsVerified : Nat
  deriving DecidableEq

section

variable (key : AuditChainKey)

def checkRow (c : Cursor) (row : ChainRow) : Except Failure Cursor :=
  if row.seq.val ≠ c.lastSeq + 1 then
    .error ⟨some (c.lastSeq + 1), "row missing (sequence gap)", c.rowsVerified⟩
  else if row.prevHash ≠ some c.prev then
    .error ⟨some row.seq.val, "prev_hash does not link to prior row", c.rowsVerified⟩
  else if row.rowHash ≠ some (rowHash key c.prev row.fields) then
    .error ⟨some row.seq.val, "row hash mismatch (row was edited)", c.rowsVerified⟩
  else .ok ⟨row.seq.val, rowHash key c.prev row.fields, c.rowsVerified + 1⟩

def walk (c : Cursor) (rows : List ChainRow) : Except Failure Cursor := rows.foldlM (checkRow key) c

variable (userId : Uuid128) (snap : Nat → AuditDb)

/-- The loop over the batches, from query `i` on; also the number of the query after it. -/
def verifyRows : Nat → Nat → Cursor → Option (Except Failure Cursor × Nat)
  | 0, _, _ => none
  | fuel + 1, i, c =>
    let rows := (snap i).chainBatch userId c.lastSeq
    if rows.isEmpty then some (.ok c, i + 1)
    else
      match walk key c rows with
      | .error f => some (.error f, i + 1)
      | .ok c => verifyRows fuel (i + 1) c

def judgeHead (unchainedRows : Nat) (c : Cursor) : Option ChainHead → AuditChainStatus
  | none =>
    if c.lastSeq = 0 then if 0 < unchainedRows then .unchained else .intact
    else .broken none "chain head missing"
  | some head =>
    match head.verified key userId with
    | none => .broken none "chain head MAC invalid"
    | some (seq, hash) =>
      if c.lastSeq < seq then .broken (some (c.lastSeq + 1))
        "rows deleted from the end of the chain"
      else if seq < c.lastSeq ∨ hash ≠ c.prev then
        .broken (some seq) "chain head does not match the last row"
      else if 0 < unchainedRows then .broken none "unchained rows present after the chain started"
      else .intact

/-- `verify_audit_chain`: the report, and the number of the query that read the head. -/
def verifyAuditChain (fuel : Nat) : Option (AuditChainReport × Nat) :=
  let unchainedRows := ((snap 0).unchained userId).length
  match verifyRows key userId snap fuel 1 .start with
  | none => none
  | some (.error f, q) => some (⟨userId, f.rowsVerified, unchainedRows, .broken f.seq f.reason⟩, q)
  | some (.ok c, q) =>
    some (⟨userId, c.rowsVerified, unchainedRows,
      judgeHead key userId unchainedRows c ((snap q).headOf userId)⟩, q)

end

/-! ### The chained rows of a user -/

namespace AuditDb

variable (db : AuditDb) (userId : Uuid128)

def chain : List ChainRow := db.chainAfter userId 0

variable {db userId}

theorem samePosition_false_iff {r r' : AuditRow} : samePosition r r' = false ↔
    ∀ n, r.userId = r'.userId → r.seq = some n → r'.seq ≠ some n := by
  unfold samePosition
  cases r.seq with
  | none => simp
  | some n =>
    by_cases h : r.userId = r'.userId
    · have hcomm : (some n = r'.seq) = (r'.seq = some n) := propext eq_comm
      simp [hcomm]
    · simp [h]

variable {r : ChainRow} {rows : List ChainRow} {n : Int}

theorem mem_filterMap_chainRow? {logs : List AuditRow} :
    r ∈ logs.filterMap AuditRow.chainRow? ↔ r.row ∈ logs := by
  rw [mem_filterMap]
  constructor
  · rintro ⟨⟨e, seq, _, _⟩, hm, hr⟩
    obtain ⟨n, rfl, rfl⟩ := Option.map_eq_some_iff.mp hr
    exact hm
  · intro h
    exact ⟨_, h, rfl⟩

theorem mem_chainAfter :
    r ∈ db.chainAfter userId n ↔ r.row ∈ db.logs ∧ r.userId = userId ∧ n < r.seq.val := by
  rw [chainAfter, mem_insertionSort, mem_filter, mem_filterMap_chainRow?]
  simp

theorem mem_chain : r ∈ db.chain userId ↔ r.row ∈ db.logs ∧ r.userId = userId := by
  have hpos : 0 < r.seq.val := r.seq.property.1
  simp [chain, mem_chainAfter, hpos]

theorem pairwise_seq_ne (n : Int) : ((db.logs.filterMap AuditRow.chainRow?).filter
    (fun r => r.userId == userId && decide (n < r.seq.val))).Pairwise
      (fun r r' => r.seq.val ≠ r'.seq.val) := by
  have hpos : (db.logs.filterMap AuditRow.chainRow?).Pairwise
      (fun r r' => r.userId = r'.userId → r.seq.val ≠ r'.seq.val) := by
    refine List.Pairwise.filterMap _ ?_ db.positions
    intro r r' hrr' c hc c' hc'
    obtain ⟨l, hl, rfl⟩ := Option.map_eq_some_iff.mp hc
    obtain ⟨l', hl', rfl⟩ := Option.map_eq_some_iff.mp hc'
    intro hu hseq
    refine samePosition_false_iff.mp hrr' l hu hl ?_
    rw [hl', Option.some.injEq]
    exact Subtype.ext hseq.symm
  refine (hpos.filter _).imp_of_mem ?_
  intro r r' hr hr' h
  have hu := (mem_filter.mp hr).2
  have hu' := (mem_filter.mp hr').2
  simp only [Bool.and_eq_true, beq_iff_eq] at hu hu'
  exact h (hu.1.trans hu'.1.symm)

instance : Std.Total seqBefore := ⟨fun _ _ => Int.le_total _ _⟩

instance : IsTrans ChainRow seqBefore := ⟨fun _ _ _ => Int.le_trans⟩

theorem chainAfter_pairwise (n : Int) :
    (db.chainAfter userId n).Pairwise (fun r r' => r.seq.val < r'.seq.val) := by
  have hle : (db.chainAfter userId n).Pairwise seqBefore := pairwise_insertionSort _ _
  have hne : (db.chainAfter userId n).Pairwise (fun r r' => r.seq.val ≠ r'.seq.val) :=
    (perm_insertionSort _ _).symm.pairwise (pairwise_seq_ne n) (fun h => Ne.symm h)
  exact (hle.and hne).imp (fun h => Int.lt_iff_le_and_ne.mpr h)

/-- **The order decides**: rows in strict order are the chain of the user, if they are its rows. -/
theorem chainAfter_eq (hsorted : rows.Pairwise (fun r r' => r.seq.val < r'.seq.val))
    (hperm : rows.Perm ((db.logs.filterMap AuditRow.chainRow?).filter
      (fun r => r.userId == userId && decide (n < r.seq.val)))) :
    db.chainAfter userId n = rows := by
  have hperm' : (db.chainAfter userId n).Perm rows := (perm_insertionSort _ _).trans hperm.symm
  refine hperm'.eq_of_pairwise (fun a b _ _ hab hba => ?_) (chainAfter_pairwise n) hsorted
  omega

theorem chain_pairwise : (db.chain userId).Pairwise (fun r r' => r.seq.val < r'.seq.val) :=
  chainAfter_pairwise 0

theorem nodup_of_pairwise (h : rows.Pairwise (fun r r' => r.seq.val < r'.seq.val)) : rows.Nodup :=
  h.imp (fun hlt heq => by rw [heq] at hlt; omega)

theorem chain_eq (hsorted : rows.Pairwise (fun r r' => r.seq.val < r'.seq.val))
    (hmem : ∀ r : ChainRow, r ∈ rows ↔ r.row ∈ db.logs ∧ r.userId = userId) :
    db.chain userId = rows := by
  have hperm : (db.chain userId).Perm rows :=
    (perm_ext_iff_of_nodup (nodup_of_pairwise chain_pairwise) (nodup_of_pairwise hsorted)).mpr
      (fun r => mem_chain.trans (hmem r).symm)
  refine hperm.eq_of_pairwise (fun a b _ _ hab hba => ?_) chain_pairwise hsorted
  omega

theorem chainAfter_eq_filter (hn : 0 ≤ n) :
    db.chainAfter userId n = (db.chain userId).filter (fun r => decide (n < r.seq.val)) := by
  refine chainAfter_eq ((chainAfter_pairwise 0).filter _) ?_
  refine ((perm_insertionSort _ _).filter _).trans (List.Perm.of_eq ?_)
  rw [filter_filter]
  refine filter_congr (fun r _ => ?_)
  by_cases h : n < r.seq.val
  · have hpos : 0 < r.seq.val := by omega
    simp [h, hpos]
  · simp [h]

theorem chainAfter_drop {m n : Int} {rows rest : List ChainRow} (hm : 0 ≤ m) (hmn : m ≤ n)
    (hsplit : db.chainAfter userId m = rows ++ rest) (hle : ∀ r ∈ rows, r.seq.val ≤ n)
    (hlast : ∃ r ∈ rows, r.seq.val = n) : db.chainAfter userId n = rest := by
  have hfilter : db.chainAfter userId n = (db.chainAfter userId m).filter
      (fun r => decide (n < r.seq.val)) := by
    rw [chainAfter_eq_filter (Int.le_trans hm hmn), chainAfter_eq_filter hm, filter_filter]
    refine filter_congr (fun r _ => ?_)
    by_cases h : n < r.seq.val
    · have hmr : m < r.seq.val := by omega
      simp [hmr]
    · simp [h]
  have hsorted : (db.chainAfter userId m).Pairwise _ := chainAfter_pairwise m
  rw [hsplit] at hsorted hfilter
  obtain ⟨r0, hr0, hseq⟩ := hlast
  have hfirst : rows.filter (fun r => decide (n < r.seq.val)) = [] := by
    refine filter_eq_nil_iff.mpr (fun r hr => ?_)
    have := hle r hr
    simp only [decide_eq_true_eq]
    omega
  have hrest : rest.filter (fun r => decide (n < r.seq.val)) = rest := by
    refine filter_eq_self.mpr (fun r hr => ?_)
    have := (pairwise_append.mp hsorted).2.2 r0 hr0 r hr
    simp only [decide_eq_true_eq]
    omega
  rw [hfilter, filter_append, hfirst, hrest, nil_append]

end AuditDb

/-! ### Walking along the rows -/

section

variable {key : AuditChainKey} {c c' : Cursor} {row : ChainRow} {rows rows' : List ChainRow}

theorem checkRow_ok (h : checkRow key c row = .ok c') : row.seq.val = c.lastSeq + 1 ∧
    row.prevHash = some c.prev ∧ row.rowHash = some (rowHash key c.prev row.fields) ∧
    c' = ⟨c.lastSeq + 1, rowHash key c.prev row.fields, c.rowsVerified + 1⟩ := by
  unfold checkRow at h
  split at h
  · cases h
  · rename_i hseq
    split at h
    · cases h
    · rename_i hprev
      split at h
      · cases h
      · rename_i hhash
        rw [not_not] at hseq hprev hhash
        refine ⟨hseq, hprev, hhash, ?_⟩
        rw [← Except.ok.inj h, hseq]

theorem checkRow_eq_ok (hseq : row.seq.val = c.lastSeq + 1) (hprev : row.prevHash = some c.prev)
    (hhash : row.rowHash = some (rowHash key c.prev row.fields)) :
    checkRow key c row = .ok ⟨c.lastSeq + 1, rowHash key c.prev row.fields,
      c.rowsVerified + 1⟩ := by
  unfold checkRow
  rw [if_neg (not_not.mpr hseq), if_neg (not_not.mpr hprev), if_neg (not_not.mpr hhash), hseq]

theorem walk_append (c : Cursor) (rows rows' : List ChainRow) :
    walk key c (rows ++ rows') = walk key c rows >>= fun c => walk key c rows' := foldlM_append

theorem walk_singleton (c : Cursor) (row : ChainRow) : walk key c [row] = checkRow key c row := by
  simp [walk]

theorem walk_cons_ok (h : walk key c (row :: rows) = .ok c') :
    ∃ c1, checkRow key c row = .ok c1 ∧ walk key c1 rows = .ok c' := by
  unfold walk at h
  rw [foldlM_cons] at h
  cases hrow : checkRow key c row with
  | error =>
    rw [hrow] at h
    cases h
  | ok c1 =>
    rw [hrow] at h
    exact ⟨c1, rfl, h⟩

/-- Rows that pass are numbered without a gap and their last hash is that of the whole chain. -/
theorem walk_ok (h : walk key c rows = .ok c') : c'.lastSeq = c.lastSeq + rows.length ∧
    c'.rowsVerified = c.rowsVerified + rows.length ∧
    c'.prev = chainHash (rowHash key) c.prev (rows.map (·.fields)) := by
  induction rows generalizing c with
  | nil =>
    rw [← Except.ok.inj h]
    simp [chainHash]
  | cons row rows ih =>
    obtain ⟨c1, hrow, hrest⟩ := walk_cons_ok h
    obtain ⟨-, -, -, rfl⟩ := checkRow_ok hrow
    obtain ⟨hlast, hcount, hprev⟩ := ih hrest
    refine ⟨?_, ?_, ?_⟩
    · simp only [length_cons] at hlast ⊢
      omega
    · simp only [length_cons] at hcount ⊢
      omega
    · rw [hprev]
      rfl

theorem walk_seq (h : walk key c rows = .ok c') :
    (∀ r ∈ rows, c.lastSeq < r.seq.val ∧ r.seq.val ≤ c'.lastSeq) ∧
      (rows ≠ [] → ∃ r ∈ rows, r.seq.val = c'.lastSeq) := by
  induction rows generalizing c with
  | nil => exact ⟨forall_mem_nil _, fun h => absurd rfl h⟩
  | cons row rows ih =>
    obtain ⟨c1, hrow, hrest⟩ := walk_cons_ok h
    obtain ⟨hseq, -, -, rfl⟩ := checkRow_ok hrow
    obtain ⟨hbounds, hlast⟩ := ih hrest
    have hlen := (walk_ok hrest).1
    dsimp only at hlen hbounds
    refine ⟨fun r hr => ?_, fun _ => ?_⟩
    · rcases mem_cons.mp hr with rfl | hr
      · omega
      · have := hbounds r hr
        omega
    · by_cases hnil : rows = []
      · subst hnil
        refine ⟨row, mem_cons_self, ?_⟩
        simp only [length_nil] at hlen
        omega
      · obtain ⟨r, hr, hr'⟩ := hlast hnil
        exact ⟨r, mem_cons_of_mem _ hr, hr'⟩

end

/-! ### Without a concurrent writer -/

section

variable {key : AuditChainKey} {userId : Uuid128} {db : AuditDb} {c c' : Cursor}

theorem chainAfter_of_walk {rows rest : List ChainRow} (hn : 0 ≤ c.lastSeq)
    (hsplit : db.chainAfter userId c.lastSeq = rows ++ rest) (hw : walk key c rows = .ok c') :
    0 ≤ c'.lastSeq ∧ db.chainAfter userId c'.lastSeq = rest := by
  have hle := (walk_ok hw).1
  refine ⟨by omega, ?_⟩
  by_cases hnil : rows = []
  · subst hnil
    rw [← Except.ok.inj hw, hsplit, nil_append]
  · obtain ⟨hbounds, hlast⟩ := walk_seq hw
    exact AuditDb.chainAfter_drop hn (by omega) hsplit (fun r hr => (hbounds r hr).2) (hlast hnil)

theorem verifyRows_some {fuel i q : Nat} {res : Except Failure Cursor} (hn : 0 ≤ c.lastSeq)
    (h : verifyRows key userId (fun _ => db) fuel i c = some (res, q)) :
    res = walk key c (db.chainAfter userId c.lastSeq) := by
  induction fuel generalizing i c with
  | zero => cases h
  | succ fuel ih =>
    unfold verifyRows at h
    dsimp only [AuditDb.chainBatch] at h
    split at h
    · rename_i hempty
      rw [List.isEmpty_iff, take_eq_nil_iff] at hempty
      rw [hempty.resolve_left (by decide), ← (Prod.mk.inj (Option.some.inj h)).1]
      rfl
    · rw [← take_append_drop AuditDb.verifyBatch (db.chainAfter userId c.lastSeq), walk_append]
      split at h
      · rename_i hw
        rw [hw, ← (Prod.mk.inj (Option.some.inj h)).1]
        rfl
      · rename_i hw
        obtain ⟨hn1, hrest⟩ := chainAfter_of_walk hn (take_append_drop _ _).symm hw
        rw [ih hn1 h, hw, hrest]
        rfl

theorem verifyRows_isSome {fuel i : Nat} (hn : 0 ≤ c.lastSeq)
    (hf : (db.chainAfter userId c.lastSeq).length < fuel) :
    (verifyRows key userId (fun _ => db) fuel i c).isSome = true := by
  induction fuel generalizing i c with
  | zero => omega
  | succ fuel ih =>
    unfold verifyRows
    dsimp only [AuditDb.chainBatch]
    split
    · rfl
    · rename_i hempty
      have hne : db.chainAfter userId c.lastSeq ≠ [] := by
        intro hnil
        rw [hnil] at hempty
        exact hempty rfl
      split
      · rfl
      · rename_i hw
        obtain ⟨hn1, hrest⟩ := chainAfter_of_walk hn (take_append_drop _ _).symm hw
        refine ih hn1 ?_
        have hpos := length_pos_iff.mpr hne
        rw [hrest, length_drop]
        have : 0 < AuditDb.verifyBatch := by decide
        omega

variable (key userId db)

def Verifies (report : AuditChainReport) : Prop :=
  ∃ fuel q, verifyAuditChain key userId (fun _ => db) fuel = some (report, q)

def verifyNow : AuditChainReport :=
  match walk key .start (db.chain userId) with
  | .error f => ⟨userId, f.rowsVerified, (db.unchained userId).length, .broken f.seq f.reason⟩
  | .ok c => ⟨userId, c.rowsVerified, (db.unchained userId).length,
      judgeHead key userId (db.unchained userId).length c (db.headOf userId)⟩

variable {key userId db} {head : ChainHead} {n : Nat}

theorem verifies_iff {report : AuditChainReport} :
    Verifies key userId db report ↔ report = verifyNow key userId db := by
  have hsome : ∀ {fuel report q}, verifyAuditChain key userId (fun _ => db) fuel =
      some (report, q) → report = verifyNow key userId db := by
    intro fuel report q h
    unfold verifyAuditChain at h
    unfold verifyNow
    split at h
    · cases h
    · rename_i f q' hrows
      have hwalk : .error f = walk key .start (db.chain userId) :=
        verifyRows_some (Int.le_refl 0) hrows
      rw [← hwalk]
      exact (Prod.mk.inj (Option.some.inj h)).1.symm
    · rename_i c q' hrows
      have hwalk : .ok c = walk key .start (db.chain userId) :=
        verifyRows_some (Int.le_refl 0) hrows
      rw [← hwalk]
      exact (Prod.mk.inj (Option.some.inj h)).1.symm
  constructor
  · rintro ⟨_, q, h⟩
    exact hsome h
  · rintro rfl
    have hend : (verifyRows key userId (fun _ => db) ((db.chainAfter userId 0).length + 1) 1
        .start).isSome = true := verifyRows_isSome (Int.le_refl 0) (Nat.lt_succ_self _)
    obtain ⟨⟨res, q⟩, hrows⟩ := Option.isSome_iff_exists.mp hend
    have hrun : ∃ report, verifyAuditChain key userId (fun _ => db)
        ((db.chainAfter userId 0).length + 1) = some (report, q) := by
      unfold verifyAuditChain
      rw [hrows]
      cases res with
      | error | ok => exact ⟨_, rfl⟩
    obtain ⟨_, hrun⟩ := hrun
    rw [← hsome hrun]
    exact ⟨_, q, hrun⟩

/-! ### Verdicts -/
theorem verifyNow_not_broken (h : ¬ (verifyNow key userId db).status.IsBroken) :
    ∃ c, walk key .start (db.chain userId) = .ok c ∧
      verifyNow key userId db = ⟨userId, c.rowsVerified, (db.unchained userId).length,
        judgeHead key userId (db.unchained userId).length c (db.headOf userId)⟩ := by
  unfold verifyNow at h ⊢
  cases hw : walk key .start (db.chain userId) with
  | error =>
    rw [hw] at h
    exact absurd ⟨_, _, rfl⟩ h
  | ok c => exact ⟨c, rfl, rfl⟩

theorem judgeHead_none (h : ¬ (judgeHead key userId n c none).IsBroken) :
    c.lastSeq = 0 ∧ judgeHead key userId n c none = if 0 < n then .unchained else .intact := by
  unfold judgeHead at h ⊢
  by_cases hzero : c.lastSeq = 0
  · exact ⟨hzero, if_pos hzero⟩
  · rw [if_neg hzero] at h
    exact absurd ⟨_, _, rfl⟩ h

theorem judgeHead_some (h : ¬ (judgeHead key userId n c (some head)).IsBroken) :
    head.verified key userId = some (head.seq.val, head.rowHash) ∧ c.lastSeq = head.seq.val ∧
      c.prev = head.rowHash ∧ n = 0 ∧ judgeHead key userId n c (some head) = .intact := by
  have hver : head.verified key userId = some (head.seq.val, head.rowHash) := by
    by_contra hne
    have hnone : head.verified key userId = none := by
      unfold ChainHead.verified at hne ⊢
      split
      · rename_i hmac
        exact absurd (if_pos hmac) hne
      · rfl
    simp only [judgeHead, hnone] at h
    exact h ⟨_, _, rfl⟩
  simp only [judgeHead, hver] at h ⊢
  split at h
  · exact absurd ⟨_, _, rfl⟩ h
  · split at h
    · exact absurd ⟨_, _, rfl⟩ h
    · split at h
      · exact absurd ⟨_, _, rfl⟩ h
      · rename_i hlt hmatch hpos
        rw [not_or, not_not] at hmatch
        have hn : n = 0 := by omega
        refine ⟨trivial, by omega, hmatch.2.symm, hn, ?_⟩
        rw [if_neg hlt, if_neg (not_or.mpr ⟨hmatch.1, not_not.mpr hmatch.2⟩), if_neg hpos]

theorem judgeHead_verified (h : head.verified key userId = some (c.lastSeq, c.prev)) :
    judgeHead key userId 0 c (some head) = .intact := by
  simp [judgeHead, h]

theorem judgeHead_signed {seq : Seq} (hseq : c.lastSeq = seq.val) : judgeHead key userId 0 c
    (some ⟨userId, seq, c.prev, headMac key userId seq c.prev⟩) = .intact := by
  refine judgeHead_verified ?_
  rw [hseq]
  exact if_pos rfl

/-- **An intact chain** has all rows of the user, linked from the first to the one that the head
pins. -/
theorem verifyNow_intact (h : (verifyNow key userId db).status = .intact) :
    ∃ c, walk key .start (db.chain userId) = .ok c ∧ db.unchained userId = [] ∧
      (db.headOf userId).elim (c.lastSeq = 0) (fun head => head.seq.val = c.lastSeq ∧
        head.rowHash = c.prev) := by
  have hnot : ¬ (verifyNow key userId db).status.IsBroken := by
    rintro ⟨seq, _, hbroken⟩
    rw [h] at hbroken
    cases hbroken
  obtain ⟨c, hw, heq⟩ := verifyNow_not_broken hnot
  rw [heq] at h hnot
  refine ⟨c, hw, ?_⟩
  cases hhead : db.headOf userId with
  | none =>
    rw [hhead] at h hnot
    obtain ⟨hzero, hjudge⟩ := judgeHead_none hnot
    rw [hjudge] at h
    refine ⟨length_eq_zero_iff.mp ?_, hzero⟩
    by_contra hne
    rw [if_pos (Nat.pos_of_ne_zero hne)] at h
    cases h
  | some =>
    rw [hhead] at hnot
    obtain ⟨-, hlast, hprev, hcount, -⟩ := judgeHead_some hnot
    exact ⟨length_eq_zero_iff.mp hcount, hlast.symm, hprev.symm⟩

end

end Octo.Audit
