import Octo.Audit.Writes

/-!
# What the operations on a chain do

Each operation is inverted once: what it has checked, and what it leaves of the user's rows, if it
succeeds.
-/

namespace Octo.Audit

open List

theorem bind_ok {ε α β : Type} {x : Except ε α} {f : α → Except ε β} {b : β} (h : x >>= f = .ok b) :
    ∃ a, x = .ok a ∧ f a = .ok b := by
  cases x with
  | error => cases h
  | ok a => exact ⟨a, rfl, h⟩

namespace AuditDb

variable {key : AuditChainKey} {db db' db1 db2 : AuditDb} {userId : Uuid128} {c c' : Cursor}
  {f : AuditRow → AuditRow}

/-! ### A transaction of one user -/

structure Within (userId : Uuid128) (db db' : AuditDb) : Prop where
  kept : Kept db db'
  frame : ∀ v, v ≠ userId → db'.view v = db.view v

theorem Within.refl (userId : Uuid128) (db : AuditDb) : Within userId db db :=
  ⟨.refl db, fun _ _ => rfl⟩

theorem Within.trans (h : Within userId db db1) (h' : Within userId db1 db2) :
    Within userId db db2 :=
  ⟨h.kept.trans h'.kept, fun v hv => (h'.frame v hv).trans (h.frame v hv)⟩

theorem within_updateLogs {p : AuditRow → Bool} (h : db.updateLogs p f = .ok db')
    (hp : ∀ r ∈ db.logs, p r = true → r.userId = userId) : Within userId db db' := by
  refine ⟨kept_updateLogs h, fun v hv => view_updateLogs h (fun r hr hpr heq => ?_)⟩
  exact hv (heq.symm.trans (hp r hr hpr))

theorem within_update_one {r0 : AuditRow} (hr0 : r0 ∈ db.logs) (hu : r0.userId = userId)
    (h : db.updateLogs (fun r => r.id == r0.id) f = .ok db') : Within userId db db' := by
  refine within_updateLogs h (fun r hr hid => ?_)
  rw [eq_of_id_eq hr hr0 (beq_iff_eq.mp hid), hu]

theorem within_insertLog {row : AuditRow} (h : db.insertLog row = .ok db')
    (hu : row.userId = userId) : Within userId db db' :=
  ⟨kept_insertLog h, fun _ hv => view_insertLog h (fun heq => hv (heq.symm.trans hu))⟩

variable {seq : Seq} {rows : List ChainRow} {row : ChainRow} {tip : Int × Hash} {e : Entry}
  {st : Relink} {n : Nat} {st' : Relink}

theorem within_writeHead {hash : Hash} : Within userId db (db.writeHead key userId seq hash) :=
  ⟨.refl db, fun _ hv => view_writeHead (Ne.symm hv)⟩

/-! ### Adopting legacy rows -/

theorem seq_of?_eq_some {n : Int} : Seq.of? n = some seq ↔ seq.val = n := by
  unfold Seq.of?
  split
  · simp [Subtype.ext_iff, eq_comm]
  · rename_i hn
    constructor
    · intro h
      cases h
    · intro h
      exact absurd (h ▸ seq.property) hn

theorem walk_concat (hw : walk key c rows = .ok c')
    (hseq : row.seq.val = c'.lastSeq + 1) (hprev : row.prevHash = some c'.prev)
    (hhash : row.rowHash = some (rowHash key c'.prev row.fields)) :
    walk key c (rows ++ [row]) = .ok ⟨c'.lastSeq + 1, rowHash key c'.prev row.fields,
      c'.rowsVerified + 1⟩ := by
  rw [walk_append, hw]
  exact (walk_singleton c' row).trans (checkRow_eq_ok hseq hprev hhash)

theorem adoptRows_ok {rows : List AuditRow}
    (h : adoptRows key db c.lastSeq c.prev rows = .ok (tip, db'))
    (hw : walk key .start (db.chain userId) = .ok c) (hmem : ∀ r ∈ rows, r ∈ db.unchained userId)
    (hnodup : (rows.map (·.id)).Nodup) :
    ∃ c', walk key .start (db'.chain userId) = .ok c' ∧ tip = (c'.lastSeq, c'.prev) ∧
      (∀ r, r ∈ db'.unchained userId ↔ r ∈ db.unchained userId ∧ r.id ∉ rows.map (·.id)) ∧
      db'.heads = db.heads ∧ Within userId db db' := by
  -- along the rows: each is put after the ones before it
  induction rows generalizing db c with
  | nil =>
    obtain ⟨rfl, rfl⟩ := Prod.mk.inj (Except.ok.inj h)
    exact ⟨c, hw, rfl, fun r => by simp, rfl, .refl _ _⟩
  | cons row rows ih =>
    unfold adoptRows at h
    split at h
    · cases h
    · rename_i n hn
      rw [seq_of?_eq_some] at hn
      obtain ⟨db1, hupdate, hrest⟩ := bind_ok h
      have hrow := hmem row mem_cons_self
      obtain ⟨hlogs, huser, -⟩ := mem_unchained.mp hrow
      have hlast : ∀ r ∈ db.chain userId, r.seq.val < n.val := by
        intro r hr
        have := ((walk_seq hw).1 r hr).2
        omega
      obtain ⟨hchain, hunchained⟩ : db1.chain userId = db.chain userId ++
          [⟨row.toEntry, n, some c.prev, some (rowHash key c.prev ⟨row.toEntry, n⟩)⟩] ∧ _ :=
        chain_adopt hrow hlast rfl hupdate
      have hw1 : walk key .start (db1.chain userId) =
          .ok ⟨n.val, rowHash key c.prev ⟨row.toEntry, n⟩, c.rowsVerified + 1⟩ := by
        rw [hchain, hn]
        exact walk_concat hw hn rfl rfl
      obtain ⟨hfresh, hnodup⟩ := nodup_cons.mp hnodup
      have hmem1 : ∀ r ∈ rows, r ∈ db1.unchained userId := by
        intro r hr
        refine (hunchained r).mpr ⟨hmem r (mem_cons_of_mem _ hr), fun hid => hfresh ?_⟩
        exact mem_map.mpr ⟨r, hr, hid⟩
      obtain ⟨c', hw', htip, hiff, hheads, hwithin⟩ := ih hrest hw1 hmem1 hnodup
      refine ⟨c', hw', htip, fun r => ?_, hheads.trans (updateLogs_ok hupdate).2.1,
        (within_update_one hlogs huser hupdate).trans hwithin⟩
      rw [hiff, hunchained, map_cons, mem_cons, not_or, and_assoc]

theorem unchained_ids_nodup : ((db.unchained userId).map (·.id)).Nodup :=
  db.ids_nodup.sublist (filter_sublist.map _)

theorem adoptLegacyRows_ok (h : db.adoptLegacyRows key userId = .ok (tip, db'))
    (hchain : db.chain userId = []) :
    ∃ c, walk key .start (db'.chain userId) = .ok c ∧ tip = (c.lastSeq, c.prev) ∧
      db'.unchained userId = [] ∧ db'.heads = db.heads ∧ Within userId db db' := by
  have hperm := perm_insertionSort legacyBefore (db.unchained userId)
  have hw : walk key .start (db.chain userId) = .ok .start := by
    rw [hchain]
    rfl
  obtain ⟨c, hw', htip, hiff, hheads, hwithin⟩ := adoptRows_ok (c := .start) h hw
    (fun r hr => hperm.mem_iff.mp hr) ((hperm.map _).nodup_iff.mpr unchained_ids_nodup)
  refine ⟨c, hw', htip, eq_nil_iff_forall_not_mem.mpr (fun r hr => ?_), hheads, hwithin⟩
  obtain ⟨hr', hid⟩ := (hiff r).mp hr
  exact hid (mem_map_of_mem (hperm.mem_iff.mpr hr'))

/-- An append goes after the head, or after the adopted legacy rows. -/
theorem chainTip_ok (h : db.chainTip key userId = .ok (tip, db')) :
    (∃ head, db.headOf userId = some head ∧ head.verified key userId = some tip ∧ db' = db) ∨
      (db.headOf userId = none ∧ db.chain userId = [] ∧
        db.adoptLegacyRows key userId = .ok (tip, db')) := by
  unfold chainTip at h
  split at h
  · rename_i head hhead
    split at h
    · rename_i hver
      obtain ⟨rfl, rfl⟩ := Prod.mk.inj (Except.ok.inj h)
      exact .inl ⟨head, hhead, hver, rfl⟩
    · cases h
  · rename_i hhead
    split at h
    · cases h
    · rename_i hany
      refine .inr ⟨hhead, eq_nil_iff_forall_not_mem.mpr (fun r hr => hany ?_), h⟩
      obtain ⟨hlogs, hu⟩ := mem_chain.mp hr
      exact any_eq_true.mpr ⟨_, hlogs, by simp [hu]⟩

theorem within_chainTip (h : db.chainTip key userId = .ok (tip, db')) : Within userId db db' := by
  rcases chainTip_ok h with ⟨_, _, _, rfl⟩ | ⟨_, hchain, hadopt⟩
  · exact .refl _ _
  · obtain ⟨_, _, _, _, _, hwithin⟩ := adoptLegacyRows_ok hadopt hchain
    exact hwithin

def appendedRow (key : AuditChainKey) (tip : Int × Hash) (e : Entry) (seq : Seq) : ChainRow :=
  ⟨e, seq, some tip.2, some (rowHash key tip.2 ⟨e, seq⟩)⟩

theorem appendLink_ok (h : db.appendLink key e = .ok db') :
    ∃ tip db1 seq db2, db.chainTip key e.userId = .ok (tip, db1) ∧ seq.val = tip.1 + 1 ∧
      db1.insertLog (appendedRow key tip e seq).row = .ok db2 ∧
      db' = db2.writeHead key e.userId seq (rowHash key tip.2 ⟨e, seq⟩) := by
  obtain ⟨⟨tip, db1⟩, htip, h⟩ := bind_ok h
  dsimp only at h
  split at h
  · cases h
  · rename_i seq hseq
    obtain ⟨db2, hinsert, h⟩ := bind_ok h
    exact ⟨tip, db1, seq, db2, htip, seq_of?_eq_some.mp hseq, hinsert, (Except.ok.inj h).symm⟩

theorem insertLog_commits (hid : ∀ r ∈ db.logs, r.id ≠ row.id)
    (hpos : ∀ r ∈ db.chain row.userId, r.seq ≠ row.seq) :
    ∃ db', db.insertLog row.row = .ok db' := by
  have hnodup : ((db.logs ++ [row.row]).map (·.id)).Nodup := Rows.nodup_concat db.ids_nodup hid
  have hpositions : (db.logs ++ [row.row]).Pairwise (fun r r' => samePosition r r' = false) := by
    refine Rows.pairwise_concat db.positions (fun r hr => ?_)
    refine samePosition_false_iff.mpr (fun n hu hseq heq => ?_)
    have hmem : (⟨r.toEntry, n, r.prevHash, r.rowHash⟩ : ChainRow) ∈ db.chain row.userId :=
      mem_chain.mpr ⟨by rw [ChainRow.row, ← hseq]; exact hr, hu⟩
    exact hpos _ hmem (Option.some.inj heq).symm
  exact ⟨_, dif_pos ⟨hnodup, hpositions⟩⟩

theorem appendLink_eq_ok (htip : db.chainTip key e.userId = .ok (tip, db1))
    (hseq : seq.val = tip.1 + 1)
    (hinsert : db1.insertLog (appendedRow key tip e seq).row = .ok db2) :
    db.appendLink key e = .ok (db2.writeHead key e.userId seq (rowHash key tip.2 ⟨e, seq⟩)) := by
  unfold appendLink
  rw [htip]
  simp only [bind, Except.bind, seq_of?_eq_some.mpr hseq]
  have hrow : db1.insertLog ⟨e, some seq, some tip.2, some (rowHash key tip.2 ⟨e, seq⟩)⟩ =
      .ok db2 := hinsert
  rw [hrow]

theorem within_appendLink (h : db.appendLink key e = .ok db') : Within e.userId db db' := by
  obtain ⟨tip, db1, seq, db2, htip, -, hinsert, rfl⟩ := appendLink_ok h
  exact (within_chainTip htip).trans ((within_insertLog hinsert rfl).trans within_writeHead)

/-! ### Linking anew -/

/-- The row without its personal data, linked to the new hash before it. -/
def relinkedRow (key : AuditChainKey) (newPrev : Hash) (row : ChainRow) : ChainRow :=
  ⟨scrubbed row.toEntry, row.seq, some newPrev,
    some (rowHash key newPrev ⟨scrubbed row.toEntry, row.seq⟩)⟩

/-- **One row**: it has passed, and passes again without its personal data. -/
theorem relinkRow_ok {rest : List ChainRow}
    (h : relinkRow key st row = .ok st') (hchain : st.db.chain userId = rows ++ row :: rest) :
    ∃ row', st'.db.chain userId = rows ++ row' :: rest ∧ row'.toEntry = scrubbed row.toEntry ∧
      st'.db.unchained userId = st.db.unchained userId ∧ st'.db.heads = st.db.heads ∧
      Within userId st.db st'.db ∧
      ∀ n, checkRow key ⟨st.lastSeq, st.oldPrev, n⟩ row = .ok ⟨st'.lastSeq, st'.oldPrev, n + 1⟩ ∧
        checkRow key ⟨st.lastSeq, st.newPrev, n⟩ row' = .ok ⟨st'.lastSeq, st'.newPrev, n + 1⟩ := by
  unfold relinkRow at h
  split at h
  · cases h
  · rename_i hpos
    rw [not_or, not_not, not_not] at hpos
    dsimp only at h
    split at h
    · cases h
    · rename_i hhash
      rw [not_not] at hhash
      obtain ⟨db1, hupdate, h⟩ := bind_ok h
      cases h
      have hmem : row ∈ st.db.chain userId := by
        rw [hchain]
        simp
      obtain ⟨hlogs, hu⟩ := mem_chain.mp hmem
      obtain ⟨hchain', hunchained⟩ : db1.chain userId = rows ++ relinkedRow key st.newPrev row ::
        rest ∧ _ :=
        chain_relink hchain rfl rfl hupdate
      refine ⟨_, hchain', rfl, hunchained, (updateLogs_ok hupdate).2.1,
        within_update_one hlogs hu hupdate, fun n => ⟨?_, ?_⟩⟩
      · rw [checkRow_eq_ok hpos.1 hpos.2 hhash, hpos.1]
      · have hcheck : checkRow key ⟨st.lastSeq, st.newPrev, n⟩ (relinkedRow key st.newPrev row) =
            _ :=
          checkRow_eq_ok hpos.1 rfl rfl
        rw [hcheck, hpos.1]
        rfl

/-- **Row after row.** -/
theorem relink_ok {done rest : List ChainRow} (h : rows.foldlM (relinkRow key) st = .ok st')
    (hchain : st.db.chain userId = done ++ (rows ++ rest)) :
    ∃ rows', st'.db.chain userId = done ++ (rows' ++ rest) ∧
      rows'.map (·.toEntry) = rows.map (fun r => scrubbed r.toEntry) ∧
      st'.db.unchained userId = st.db.unchained userId ∧ st'.db.heads = st.db.heads ∧
      Within userId st.db st'.db ∧
      ∀ n, walk key ⟨st.lastSeq, st.oldPrev, n⟩ rows = .ok ⟨st'.lastSeq, st'.oldPrev,
        n + rows.length⟩ ∧
        walk key ⟨st.lastSeq, st.newPrev, n⟩ rows' = .ok ⟨st'.lastSeq, st'.newPrev,
          n + rows.length⟩ := by
  induction rows generalizing st done with
  | nil =>
    cases h
    exact ⟨[], hchain, rfl, rfl, rfl, .refl _ _, fun n => ⟨rfl, rfl⟩⟩
  | cons row rows ih =>
    obtain ⟨st1, hrow, hrest⟩ := bind_ok h
    obtain ⟨row', hchain1, hentry, hun1, hheads1, hwithin1, hcheck⟩ := relinkRow_ok hrow hchain
    have hnext : st1.db.chain userId = (done ++ [row']) ++ (rows ++ rest) := by
      rw [hchain1, append_assoc]
      rfl
    obtain ⟨rows', hchain2, hentries, hun2, hheads2, hwithin2, hwalk⟩ := ih hrest hnext
    refine ⟨row' :: rows', by rw [hchain2, append_assoc]; rfl, ?_, hun2.trans hun1,
      hheads2.trans hheads1, hwithin1.trans hwithin2, fun n => ?_⟩
    · rw [map_cons, map_cons, hentry, hentries]
    · obtain ⟨hold, hnew⟩ := hcheck n
      obtain ⟨hold', hnew'⟩ := hwalk (n + 1)
      have hcount : n + 1 + rows.length = n + (row :: rows).length := by
        rw [length_cons]
        omega
      rw [hcount] at hold' hnew'
      unfold walk at hold' hnew' ⊢
      rw [foldlM_cons, foldlM_cons, hold, hnew]
      exact ⟨hold', hnew'⟩

theorem chain_length_le : (db.chain userId).length ≤ db.logs.length := by
  rw [chain, chainAfter, (perm_insertionSort _ _).length_eq]
  exact Nat.le_trans (length_filter_le _ _) (length_filterMap_le _ _)

/-- The loop of `anonymise_chain` relinks the chain row after row, whatever the batches. -/
theorem relinkBatches_eq {fuel : Nat} {done todo : List ChainRow}
    (hchain : st.db.chain userId = done ++ todo)
    (hw : walk key .start done = .ok ⟨st.lastSeq, st.newPrev, n⟩) (hf : todo.length < fuel) :
    relinkBatches key userId fuel st = todo.foldlM (relinkRow key) st := by
  induction fuel generalizing st done todo n with
  | zero => omega
  | succ fuel ih =>
    obtain ⟨-, htodo⟩ := chainAfter_of_walk (c := .start) (Int.le_refl 0) hchain hw
    unfold relinkBatches
    simp only [chainBatch, htodo]
    split
    · rename_i hempty
      rw [List.isEmpty_iff, take_eq_nil_iff] at hempty
      rw [hempty.resolve_left (by decide)]
      rfl
    · rename_i hempty
      have hne : todo ≠ [] := by
        intro hnil
        rw [hnil] at hempty
        exact hempty rfl
      conv_rhs => rw [← take_append_drop verifyBatch todo, foldlM_append]
      cases hbatch : (todo.take verifyBatch).foldlM (relinkRow key) st with
      | error => rfl
      | ok st' =>
        have hsplit : st.db.chain userId = done ++
            (todo.take verifyBatch ++ todo.drop verifyBatch) := by
          rw [hchain, take_append_drop]
        obtain ⟨rows', hchain', -, -, -, -, hwalk⟩ := relink_ok hbatch hsplit
        have hpos := length_pos_iff.mpr hne
        have hw' : walk key .start (done ++ rows') =
            .ok ⟨st'.lastSeq, st'.newPrev, n + (todo.take verifyBatch).length⟩ := by
          rw [walk_append, hw]
          exact (hwalk n).2
        refine ih (by rw [hchain', append_assoc]) hw' ?_
        have : 0 < verifyBatch := by decide
        rw [length_drop]
        omega

/-! ### Anonymising -/

def SignedAt (key : AuditChainKey) (userId : Uuid128) (db : AuditDb) (c : Cursor) : Prop :=
  ∃ seq : Seq, seq.val = c.lastSeq ∧
    db.headOf userId = some ⟨userId, seq, c.prev, headMac key userId seq c.prev⟩

theorem chain_congr
    (h : db'.logs.filter (fun r => r.seq.isSome) = db.logs.filter (fun r => r.seq.isSome)) :
    db'.chain userId = db.chain userId := by
  refine chain_eq chain_pairwise (fun r => ?_)
  have hmem := congrArg (r.row ∈ ·) h
  simp only [mem_filter, ChainRow.row_seq, Option.isSome_some, and_true] at hmem
  rw [mem_chain, hmem]

theorem scrub_strays
    (h : db.updateLogs (isStray userId)
      (fun r => ⟨scrubbed r.toEntry, r.seq, r.prevHash, r.rowHash⟩) = .ok db') :
    db'.chain userId = db.chain userId ∧
      (db'.unchained userId).length = (db.unchained userId).length ∧
      db'.headOf userId = db.headOf userId ∧ Within userId db db' ∧
      ∀ r ∈ db'.logs, r.userId = userId → r.seq = none → r.target = none ∧ r.ipAddress = none := by
  obtain ⟨hlogs, hheads, -, -⟩ := updateLogs_ok h
  have hstray : ∀ {r : AuditRow}, isStray userId r = true → r.userId = userId ∧ r.seq = none := by
    intro r hr
    simp only [isStray, Bool.and_eq_true, beq_iff_eq, Option.isNone_iff_eq_none] at hr
    exact hr.1
  refine ⟨chain_congr (filter_updateLogs h (fun r _ hr _ => ?_)), ?_, headOf_of_heads hheads,
    within_updateLogs h (fun r _ hr => (hstray hr).1), fun r hr hu hl => ?_⟩
  · simp [(hstray hr).2]
  · rw [unchained, hlogs, filter_map, length_map]
    refine congrArg length (filter_congr (fun r _ => ?_))
    rw [Function.comp_apply]
    split <;> rfl
  · rw [hlogs] at hr
    obtain ⟨r0, -, rfl⟩ := mem_map.mp hr
    by_cases hs : isStray userId r0 = true
    · rw [if_pos hs]
      exact ⟨rfl, rfl⟩
    · rw [if_neg hs] at hu hl ⊢
      simp only [isStray, Bool.and_eq_true, beq_iff_eq, Option.isNone_iff_eq_none, Bool.or_eq_true,
        not_and, not_or, Bool.not_eq_true, Option.isSome_eq_false_iff] at hs
      exact hs ⟨hu, hl⟩

theorem seq_of?_walk (hw : walk key .start rows = .ok c) :
    c.lastSeq = 0 ∨ ∃ seq, Seq.of? c.lastSeq = some seq := by
  by_cases hnil : rows = []
  · subst hnil
    rw [← Except.ok.inj hw]
    exact .inl rfl
  · obtain ⟨r, -, hr⟩ := (walk_seq hw).2 hnil
    exact .inr ⟨r.seq, seq_of?_eq_some.mpr hr⟩

theorem writeHead_ok (hw : walk key .start rows = .ok ⟨st.lastSeq, st.newPrev, n⟩) :
    (st.writeHead key userId).logs = st.db.logs ∧
      (st.lastSeq = 0 ∧ (st.writeHead key userId).headOf userId = st.db.headOf userId ∨
        SignedAt key userId (st.writeHead key userId) ⟨st.lastSeq, st.newPrev, n⟩) ∧
      Within userId st.db (st.writeHead key userId) := by
  unfold Relink.writeHead
  cases hof : Seq.of? st.lastSeq with
  | none =>
    refine ⟨rfl, .inl ⟨?_, rfl⟩, .refl _ _⟩
    rcases seq_of?_walk hw with hzero | ⟨seq, hseq⟩
    · exact hzero
    · cases hof.symm.trans hseq
  | some seq =>
    exact ⟨rfl, .inr ⟨seq, seq_of?_eq_some.mp hof, headOf_writeHead⟩, within_writeHead⟩

theorem anonymiseChain_ok (h : db.anonymiseChain key userId = .ok (n, db')) :
    ∃ tip db1 c c', db.chainTip key userId = .ok (tip, db1) ∧
      walk key .start (db1.chain userId) = .ok c ∧ tip = (c.lastSeq, c.prev) ∧
      walk key .start (db'.chain userId) = .ok c' ∧ c'.lastSeq = c.lastSeq ∧
      (db'.unchained userId).length = (db1.unchained userId).length ∧
      (c'.lastSeq = 0 ∧ db'.headOf userId = db1.headOf userId ∨ SignedAt key userId db' c') ∧
      Within userId db1 db' ∧
      ∀ r ∈ db'.logs, r.userId = userId → r.target = none ∧ r.ipAddress = none := by
  obtain ⟨⟨tip, db1⟩, htip, h⟩ := bind_ok h
  obtain ⟨st, hloop, h⟩ := bind_ok h
  split at h
  · cases h
  · rename_i hend
    rw [not_or, not_not, not_not] at hend
    obtain ⟨db2, hscrub, h⟩ := bind_ok h
    obtain ⟨-, rfl⟩ := Prod.mk.inj (Except.ok.inj h)
    have hlen : (db1.chain userId).length < db1.logs.length + 1 := Nat.lt_succ_of_le chain_length_le
    have hstart : db1.chain userId = [] ++ (db1.chain userId ++ []) := by simp
    rw [relinkBatches_eq (nil_append _).symm rfl hlen] at hloop
    obtain ⟨rows', hchain, hentries, hun, hheads, hwithin, hwalk⟩ := relink_ok hloop hstart
    rw [nil_append, append_nil] at hchain
    obtain ⟨hold, hnew⟩ := hwalk 0
    rw [← hchain] at hnew
    obtain ⟨hchain', hun', hhead', hwithin', hclean⟩ := scrub_strays hscrub
    obtain ⟨hlogs, hsigned, hwithinw⟩ := writeHead_ok hnew
    have hchainw : (st.writeHead key userId).chain userId = st.db.chain userId :=
      chain_congr (by rw [hlogs])
    have hunw : (st.writeHead key userId).unchained userId = st.db.unchained userId := by
      rw [unchained, unchained, hlogs]
    rw [hchainw] at hchain'
    refine ⟨tip, db1, _, ⟨st.lastSeq, st.newPrev, _⟩, htip, hold, Prod.ext hend.1.symm hend.2.symm,
      by rw [hchain']; exact hnew, rfl, by rw [hun', hunw, hun], ?_,
      hwithin.trans (hwithinw.trans hwithin'), fun r hr hu => ?_⟩
    · rcases hsigned with ⟨hzero, hsame⟩ | ⟨seq, hseq, hhead⟩
      · exact .inl ⟨hzero, by rw [hhead', hsame, headOf_of_heads hheads]⟩
      · exact .inr ⟨seq, hseq, hhead'.trans hhead⟩
    · cases hl : r.seq with
      | none => exact hclean r hr hu hl
      | some n =>
        have hmem : (⟨r.toEntry, n, r.prevHash, r.rowHash⟩ : ChainRow) ∈ rows' := by
          rw [← hchain, ← hchain', mem_chain, ChainRow.row, ← hl]
          exact ⟨hr, hu⟩
        obtain ⟨r0, -, hr0⟩ := mem_map.mp (hentries ▸ mem_map_of_mem hmem)
        exact ⟨(congrArg Entry.target hr0).symm, (congrArg Entry.ipAddress hr0).symm⟩

/-! ### Deleting an account -/

theorem deleteAccount_ok {d : Deletion} (h : db.deleteAccount key d = .ok (n, db')) :
    ∃ users db1, ({ db with users := users } : AuditDb).anonymiseChain key d.userId = .ok (n, db1) ∧
      db1.appendLink key d.entry = .ok db' := by
  unfold deleteAccount at h
  split at h
  · cases h
  · split at h
    · cases h
    · obtain ⟨⟨m, db1⟩, hanon, h⟩ := bind_ok h
      obtain ⟨db2, happend, h⟩ := bind_ok h
      obtain ⟨rfl, rfl⟩ := Prod.mk.inj (Except.ok.inj h)
      exact ⟨_, db1, hanon, happend⟩

end AuditDb

end Octo.Audit
