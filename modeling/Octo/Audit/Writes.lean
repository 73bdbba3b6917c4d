import Octo.Audit.Verify

/-!
# What the writes do to the rows of a user

A write of `audit_logs` or of the heads, seen from one user: its chain in order, its unchained rows,
its head. An `UPDATE` that the trigger lets pass keeps who owns a row, and a chained row keeps its
position.
-/

namespace Octo.Audit

open List

namespace AuditDb

variable {db db' : AuditDb} {userId : Uuid128} {p : AuditRow → Bool} {f : AuditRow → AuditRow}

/-- All that verification reads of a user. -/
structure View where
  chain : List ChainRow
  unchained : List AuditRow
  head : Option ChainHead

def view (db : AuditDb) (userId : Uuid128) : View :=
  ⟨db.chain userId, db.unchained userId, db.headOf userId⟩

variable {key : AuditChainKey} {row : ChainRow} {r r' : AuditRow} {rows rest : List ChainRow}
  {q : AuditRow → Bool} {logs : List AuditRow} {r0 : AuditRow} {hash : Hash} {seq : Seq}

theorem verifyNow_of_view (h : db'.view userId = db.view userId) :
    verifyNow key userId db' = verifyNow key userId db := by
  obtain ⟨hchain, hunchained, hhead⟩ := View.mk.inj h
  rw [verifyNow, verifyNow, hchain, hunchained, hhead]

/-! ### Writes that succeed -/

theorem setLogs_ok (h : db.setLogs logs = .ok db') :
    db'.logs = logs ∧ db'.heads = db.heads ∧ db'.users = db.users := by
  unfold setLogs at h
  split at h
  · rw [← Except.ok.inj h]
    exact ⟨rfl, rfl, rfl⟩
  · cases h

theorem insertLog_ok {row : AuditRow} (h : db.insertLog row = .ok db') :
    db'.logs = db.logs ++ [row] ∧ db'.heads = db.heads ∧ db'.users = db.users := setLogs_ok h

theorem updateLogs_ok (h : db.updateLogs p f = .ok db') :
    db'.logs = db.logs.map (fun r => if p r then f r else r) ∧ db'.heads = db.heads ∧
      db'.users = db.users ∧ ∀ r ∈ db.logs, p r = true → db.mutationAllowed r (f r) = true := by
  unfold updateLogs at h
  split at h
  · rename_i hall
    obtain ⟨hlogs, hheads, husers⟩ := setLogs_ok h
    refine ⟨hlogs, hheads, husers, fun r hr hp => ?_⟩
    exact all_eq_true.mp hall r (mem_filter.mpr ⟨hr, hp⟩)
  · cases h

theorem headOf_of_heads (h : db'.heads = db.heads) : db'.headOf userId = db.headOf userId := by
  rw [headOf, headOf, h]

theorem headOf_writeHead : (db.writeHead key userId seq hash).headOf userId =
      some ⟨userId, seq, hash, headMac key userId seq hash⟩ := by
  simp [headOf, writeHead]

/-! ### What the trigger keeps -/

/-- What the trigger protects in a row: all but what may be scrubbed, and its position. -/
def Keeps (r r' : AuditRow) : Prop :=
  scrubbed r'.toEntry = scrubbed r.toEntry ∧ ∀ n, r.seq = some n → r'.seq = some n

theorem Keeps.refl (r : AuditRow) : Keeps r r := ⟨rfl, fun _ h => h⟩

theorem Keeps.trans {r1 r2 r3 : AuditRow} (h : Keeps r1 r2) (h' : Keeps r2 r3) : Keeps r1 r3 :=
  ⟨h'.1.trans h.1, fun n hn => h'.2 n (h.2 n hn)⟩

theorem Keeps.userId_eq (h : Keeps r r') : r'.userId = r.userId := by
  have := congrArg Entry.userId h.1
  exact this

theorem keeps_of_mutationAllowed (h : db.mutationAllowed r r' = true) : Keeps r r' := by
  unfold mutationAllowed at h
  simp only [Bool.or_eq_true, Bool.and_eq_true, beq_iff_eq] at h
  rcases h with ⟨⟨⟨⟨hnone, -⟩, -⟩, -⟩, hentry⟩ | ⟨⟨-, hretained⟩, -⟩
  · refine ⟨by rw [hentry], fun n hn => ?_⟩
    rw [hn] at hnone
    cases hnone
  · obtain ⟨hentry, hseq⟩ := Prod.mk.inj hretained
    exact ⟨hentry.symm, fun n hn => hseq ▸ hn⟩

def Kept (db db' : AuditDb) : Prop := ∀ r ∈ db.logs, ∃ r' ∈ db'.logs, Keeps r r'

theorem Kept.refl (db : AuditDb) : Kept db db := fun r hr => ⟨r, hr, .refl r⟩

theorem Kept.trans {db1 db2 db3 : AuditDb} (h : Kept db1 db2) (h' : Kept db2 db3) :
    Kept db1 db3 := by
  intro r hr
  obtain ⟨r2, hr2, hk⟩ := h r hr
  obtain ⟨r3, hr3, hk'⟩ := h' r2 hr2
  exact ⟨r3, hr3, hk.trans hk'⟩

theorem kept_updateLogs (h : db.updateLogs p f = .ok db') : Kept db db' := by
  obtain ⟨hlogs, -, -, hallowed⟩ := updateLogs_ok h
  intro r hr
  refine ⟨_, by rw [hlogs]; exact mem_map_of_mem hr, ?_⟩
  by_cases hp : p r = true
  · rw [if_pos hp]
    exact keeps_of_mutationAllowed (hallowed r hr hp)
  · rw [if_neg hp]
    exact .refl r

theorem kept_insertLog {row : AuditRow} (h : db.insertLog row = .ok db') : Kept db db' := by
  intro r hr
  refine ⟨r, ?_, .refl r⟩
  rw [(insertLog_ok h).1]
  exact mem_append_left _ hr

/-! ### Frames -/

theorem filter_map_frame {g : AuditRow → AuditRow}
    (h : ∀ r ∈ logs, g r = r ∨ q r = false ∧ q (g r) = false) :
    (logs.map g).filter q = logs.filter q := by
  induction logs with
  | nil => rfl
  | cons r logs ih =>
    have ih' := ih (forall_mem_cons.mp h).2
    rcases h r mem_cons_self with heq | ⟨hq, hq'⟩
    · rw [map_cons, heq, filter_cons, filter_cons, ih']
    · rw [map_cons, filter_cons, filter_cons, ih', hq, hq']
      rfl

/-- An update outside a selection leaves the selection alone. -/
theorem filter_updateLogs (h : db.updateLogs p f = .ok db')
    (hq : ∀ r ∈ db.logs, p r = true → Keeps r (f r) → q r = false ∧ q (f r) = false) :
    db'.logs.filter q = db.logs.filter q := by
  obtain ⟨hlogs, -, -, hallowed⟩ := updateLogs_ok h
  rw [hlogs]
  refine filter_map_frame (fun r hr => ?_)
  by_cases hp : p r = true
  · rw [if_pos hp]
    exact .inr (hq r hr hp (keeps_of_mutationAllowed (hallowed r hr hp)))
  · rw [if_neg hp]
    exact .inl rfl

/-- The view of a user depends on its own rows and head only. -/
theorem view_eq (hlogs : db'.logs.filter (fun r => r.userId == userId) =
    db.logs.filter (fun r => r.userId == userId)) (hhead : db'.headOf userId = db.headOf userId) :
    db'.view userId = db.view userId := by
  have hmem : ∀ r : AuditRow, r ∈ db'.logs ∧ r.userId = userId ↔ r ∈ db.logs ∧
      r.userId = userId := by
    intro r
    have := congrArg (r ∈ ·) hlogs
    simpa using this
  have hchain : db'.chain userId = db.chain userId :=
    chain_eq chain_pairwise (fun r => mem_chain.trans (hmem r.row).symm)
  have hunchained : db'.unchained userId = db.unchained userId := by
    have := congrArg (filter (fun r : AuditRow => r.seq.isNone)) hlogs
    simp only [filter_filter, Bool.and_comm] at this
    exact this
  rw [view, view, hchain, hunchained, hhead]

theorem view_updateLogs (h : db.updateLogs p f = .ok db')
    (hp : ∀ r ∈ db.logs, p r = true → r.userId ≠ userId) : db'.view userId = db.view userId := by
  refine view_eq (filter_updateLogs h (fun r hr hpr hkeeps => ?_))
    (headOf_of_heads (updateLogs_ok h).2.1)
  have hne := hp r hr hpr
  simp [hkeeps.userId_eq, hne]

theorem view_insertLog {row : AuditRow} (h : db.insertLog row = .ok db')
    (hu : row.userId ≠ userId) : db'.view userId = db.view userId := by
  obtain ⟨hlogs, hheads, -⟩ := insertLog_ok h
  refine view_eq ?_ (headOf_of_heads hheads)
  rw [hlogs]
  simp [hu]

theorem view_writeHead {u : Uuid128} (hu : u ≠ userId) :
    (db.writeHead key u seq hash).view userId = db.view userId := by
  have hhead : (db.writeHead key u seq hash).headOf userId = db.headOf userId := by
    rw [headOf, writeHead, find?_cons_of_neg (by simpa using hu), find?_filter]
    congr 1
    funext h
    by_cases heq : h.userId = userId
    · simp [heq, Ne.symm hu]
    · simp [heq]
  exact view_eq rfl hhead

/-! ### Writes of one row -/

theorem eq_of_id_eq (hr : r ∈ db.logs) (hr' : r' ∈ db.logs) (h : r.id = r'.id) : r = r' :=
  inj_on_of_nodup_map db.ids_nodup hr hr' h

theorem mem_update_one (hr0 : r0 ∈ db.logs)
    (h : db.updateLogs (fun r => r.id == r0.id) f = .ok db') :
    r ∈ db'.logs ↔ r = f r0 ∨ r ∈ db.logs ∧ r.id ≠ r0.id := by
  rw [(updateLogs_ok h).1, mem_map]
  constructor
  · rintro ⟨x, hx, rfl⟩
    by_cases hid : x.id = r0.id
    · left
      rw [if_pos (beq_iff_eq.mpr hid), eq_of_id_eq hx hr0 hid]
    · right
      rw [if_neg (by simpa using hid)]
      exact ⟨hx, hid⟩
  · rintro (rfl | ⟨hr, hid⟩)
    · exact ⟨r0, hr0, if_pos (beq_iff_eq.mpr rfl)⟩
    · exact ⟨r, hr, if_neg (by simpa using hid)⟩

theorem chainRow_ext {r r' : ChainRow} (h : r.row = r'.row) : r = r' := by
  injection h with hentry hseq hprev hhash
  rw [ChainRow.mk.injEq]
  exact ⟨hentry, Option.some.inj hseq, hprev, hhash⟩

theorem chain_id_ne {r : ChainRow}
    (hchain : db.chain userId = rows ++ row :: rest) (hr : r ∈ rows ++ rest) : r.id ≠ row.id := by
  intro hid
  have hmem : ∀ r ∈ rows ++ row :: rest, r.row ∈ db.logs := by
    intro r hr
    rw [← hchain] at hr
    exact (mem_chain.mp hr).1
  have hr' : r ∈ rows ++ row :: rest := by
    simp only [mem_append] at hr ⊢
    tauto
  have heq : r = row := chainRow_ext (eq_of_id_eq (hmem r hr') (hmem row (by simp)) hid)
  have hnodup : (rows ++ row :: rest).Nodup := hchain ▸ nodup_of_pairwise chain_pairwise
  rw [heq] at hr
  exact (nodup_cons.mp (nodup_middle.mp hnodup)).1 hr

/-- Rewriting one chained row in its place. -/
theorem chain_relink {row' : ChainRow} (hchain : db.chain userId = rows ++ row :: rest)
    (hseq : row'.seq = row.seq) (hf : f row.row = row'.row)
    (h : db.updateLogs (fun r => r.id == row.id) f = .ok db') :
    db'.chain userId = rows ++ row' :: rest ∧ db'.unchained userId = db.unchained userId := by
  have hin : ∀ r : ChainRow, r ∈ rows ++ row :: rest ↔ r.row ∈ db.logs ∧ r.userId = userId :=
    fun r => hchain ▸ mem_chain
  have hrow := (hin row).mp (by simp)
  have hsorted : (rows ++ row :: rest).Pairwise _ := hchain ▸ chain_pairwise
  have huser : row'.userId = userId := by
    have hkeeps := keeps_of_mutationAllowed ((updateLogs_ok h).2.2.2 _ hrow.1 (beq_iff_eq.mpr rfl))
    rw [hf] at hkeeps
    exact hkeeps.userId_eq.trans hrow.2
  constructor
  · refine chain_eq ?_ (fun r => ?_)
    · simp only [pairwise_append, pairwise_cons, mem_cons, forall_eq_or_imp] at hsorted ⊢
      rw [hseq]
      exact hsorted
    · rw [mem_update_one hrow.1 h, hf]
      constructor
      · intro hr
        have hcases : r = row' ∨ r ∈ rows ++ rest := by
          simp only [mem_append, mem_cons] at hr ⊢
          tauto
        rcases hcases with rfl | hr'
        · exact ⟨.inl rfl, huser⟩
        · have hold := (hin r).mp (by simp only [mem_append, mem_cons] at hr' ⊢; tauto)
          exact ⟨.inr ⟨hold.1, chain_id_ne hchain hr'⟩, hold.2⟩
      · rintro ⟨hr | ⟨hr, hid⟩, hu⟩
        · rw [chainRow_ext hr]
          simp
        · have hold := (hin r).mpr ⟨hr, hu⟩
          simp only [mem_append, mem_cons] at hold ⊢
          tauto
  · refine filter_updateLogs h (fun r hr hid _ => ?_)
    rw [eq_of_id_eq hr hrow.1 (beq_iff_eq.mp hid), hf]
    simp

theorem mem_unchained :
    r ∈ db.unchained userId ↔ r ∈ db.logs ∧ r.userId = userId ∧ r.seq = none := by
  simp [unchained]

/-- Adopting an unchained row puts it at the end of the chain. -/
theorem chain_adopt (hr0 : r0 ∈ db.unchained userId)
    (hlast : ∀ r ∈ db.chain userId, r.seq.val < row.seq.val) (hf : f r0 = row.row)
    (h : db.updateLogs (fun r => r.id == r0.id) f = .ok db') :
    db'.chain userId = db.chain userId ++ [row] ∧
      ∀ r, r ∈ db'.unchained userId ↔ r ∈ db.unchained userId ∧ r.id ≠ r0.id := by
  obtain ⟨hmem, huser, hnone⟩ := mem_unchained.mp hr0
  have hrow : row.userId = userId := by
    have hkeeps := keeps_of_mutationAllowed ((updateLogs_ok h).2.2.2 r0 hmem (beq_iff_eq.mpr rfl))
    rw [hf] at hkeeps
    exact hkeeps.userId_eq.trans huser
  have hid : ∀ r : ChainRow, r.row ∈ db.logs → r.id ≠ r0.id := by
    intro r hr hid
    rw [← eq_of_id_eq hr hmem hid] at hnone
    cases hnone
  constructor
  · refine chain_eq ?_ (fun r => ?_)
    · exact Rows.pairwise_concat chain_pairwise hlast
    · rw [mem_update_one hmem h, hf, mem_append, mem_chain, mem_singleton]
      constructor
      · rintro (⟨hr, hu⟩ | rfl)
        · exact ⟨.inr ⟨hr, hid r hr⟩, hu⟩
        · exact ⟨.inl rfl, hrow⟩
      · rintro ⟨hr | ⟨hr, -⟩, hu⟩
        · exact .inr (chainRow_ext hr)
        · exact .inl ⟨hr, hu⟩
  · intro r
    rw [mem_unchained, mem_unchained, mem_update_one hmem h, hf]
    constructor
    · rintro ⟨rfl | ⟨hr, hne⟩, hu, hl⟩
      · cases hl
      · exact ⟨⟨hr, hu, hl⟩, hne⟩
    · rintro ⟨⟨hr, hu, hl⟩, hne⟩
      exact ⟨.inr ⟨hr, hne⟩, hu, hl⟩

theorem mem_chain_insert {r : ChainRow} (h : db.insertLog row.row = .ok db') :
    r ∈ db'.chain row.userId ↔ r ∈ db.chain row.userId ∨ r = row := by
  rw [mem_chain, mem_chain, (insertLog_ok h).1, mem_append, mem_singleton]
  constructor
  · rintro ⟨hr | hr, hu⟩
    · exact .inl ⟨hr, hu⟩
    · exact .inr (chainRow_ext hr)
  · rintro (⟨hr, hu⟩ | rfl)
    · exact ⟨.inl hr, hu⟩
    · exact ⟨.inr rfl, rfl⟩

theorem chain_insert (h : db.insertLog row.row = .ok db')
    (hlast : ∀ r ∈ db.chain row.userId, r.seq.val < row.seq.val) :
    db'.chain row.userId = db.chain row.userId ++ [row] := by
  refine chain_eq ?_ (fun r => ?_)
  · exact Rows.pairwise_concat chain_pairwise hlast
  · rw [← mem_chain, mem_chain_insert h, mem_append, mem_singleton]

theorem unchained_insert (h : db.insertLog row.row = .ok db') :
    db'.unchained userId = db.unchained userId := by
  rw [unchained, unchained, (insertLog_ok h).1]
  simp

end AuditDb

end Octo.Audit
