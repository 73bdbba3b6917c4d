import Octo.Audit.NoLaundering

/-!
# Honest operation keeps the chain verifiable

From a user with legacy rows only, whatever the server does for whichever users: the chain has not
been started, or it has all rows of the user and its head is signed.  An append, an adoption of
legacy rows and an anonymisation each take such a state to such a state.
-/

namespace Octo.Audit

open List

namespace AuditDb

variable {key : AuditChainKey} {db db' db1 db2 : AuditDb} {userId : Uuid128} {c c' : Cursor}
  {tip : Int × Hash}

def Started (key : AuditChainKey) (userId : Uuid128) (db : AuditDb) : Prop :=
  db.unchained userId = [] ∧ ∃ c, walk key .start (db.chain userId) = .ok c ∧
    SignedAt key userId db c

def Honest (key : AuditChainKey) (userId : Uuid128) (db : AuditDb) : Prop :=
  db.headOf userId = none ∧ db.chain userId = [] ∨ Started key userId db

theorem honest_of_view (hview : db'.view userId = db.view userId) (h : Honest key userId db) :
    Honest key userId db' := by
  obtain ⟨hchain, hunchained, hhead⟩ := View.mk.inj hview
  unfold Honest Started SignedAt at h ⊢
  rw [hchain, hunchained, hhead]
  exact h

/-! ### One call -/

theorem Honest.chainTip (hi : Honest key userId db) (h : db.chainTip key userId = .ok (tip, db1)) :
    ∃ c, walk key .start (db1.chain userId) = .ok c ∧ tip = (c.lastSeq, c.prev) ∧
      db1.unchained userId = [] ∧ (c.lastSeq = 0 → db1.headOf userId = none) := by
  rcases chainTip_ok h with ⟨_, hhead, hver, rfl⟩ | ⟨hhead, hchain, hadopt⟩
  · rcases hi with ⟨hnone, -⟩ | ⟨hnil, c, hw, seq, hseq, hsigned⟩
    · cases hhead.symm.trans hnone
    · refine ⟨c, hw, ?_, hnil, fun hzero => by omega⟩
      have hhead' := Option.some.inj (hhead.symm.trans hsigned)
      have htip : ChainHead.verified key ⟨userId, seq, c.prev, headMac key userId seq c.prev⟩
          userId = some (seq.val, c.prev) := if_pos rfl
      rw [hhead', htip] at hver
      rw [← Option.some.inj hver, hseq]
  · obtain ⟨c, hw, htip, hnil, hheads, -⟩ := adoptLegacyRows_ok hadopt hchain
    exact ⟨c, hw, htip, hnil, fun _ => (headOf_of_heads hheads).trans hhead⟩

variable {e : Entry} {n : Nat} {d : Deletion}

theorem chain_of_append {seq : Seq} (hw : walk key .start (db1.chain e.userId) = .ok c)
    (hseq : seq.val = c.lastSeq + 1)
    (hinsert : db1.insertLog (appendedRow key (c.lastSeq, c.prev) e seq).row = .ok db2) :
    db2.chain e.userId = db1.chain e.userId ++ [appendedRow key (c.lastSeq, c.prev) e seq] := by
  refine chain_insert hinsert (fun r hr => ?_)
  have hle := ((walk_seq hw).1 r hr).2
  show r.seq.val < seq.val
  omega

/-- **An append** starts the chain, or continues it. -/
theorem started_of_appendLink (hi : Honest key e.userId db)
    (h : db.appendLink key e = .ok db') : Started key e.userId db' := by
  obtain ⟨tip, db1, seq, db2, htip, hseq, hinsert, rfl⟩ := appendLink_ok h
  obtain ⟨c, hw, rfl, hnil, -⟩ := hi.chainTip htip
  have hw' : walk key .start (db1.chain e.userId ++ [appendedRow key (c.lastSeq, c.prev) e seq]) =
      _ :=
    walk_concat hw hseq rfl rfl
  rw [← chain_of_append hw hseq hinsert] at hw'
  refine ⟨(unchained_insert hinsert).trans hnil, _, hw', seq, hseq, ?_⟩
  exact headOf_writeHead

theorem honest_of_appendLink (hi : Honest key userId db) (h : db.appendLink key e = .ok db') :
    Honest key userId db' := by
  by_cases hu : userId = e.userId
  · subst hu
    exact .inr (started_of_appendLink hi h)
  · exact honest_of_view ((within_appendLink h).frame userId hu) hi

/-- **An anonymisation** leaves a chain that has been started, unless there were no rows. -/
theorem honest_of_anonymiseChain (hi : Honest key userId db)
    (h : db.anonymiseChain key userId = .ok (n, db')) : Honest key userId db' := by
  obtain ⟨tip, db1, c, c', htip, hw, rfl, hw', hlast, hcount, hsigned, -⟩ := anonymiseChain_ok h
  obtain ⟨c1, hw1, -, hnil, hhead⟩ := hi.chainTip htip
  obtain rfl := Except.ok.inj (hw1.symm.trans hw)
  rw [hnil] at hcount
  rcases hsigned with ⟨hzero, hsame⟩ | hsigned
  · have hlen := (walk_ok hw').1
    have hchain : (db'.chain userId).length = 0 := by
      simp only [Cursor.start] at hlen
      omega
    rw [hlast] at hzero
    exact .inl ⟨hsame.trans (hhead hzero), length_eq_zero_iff.mp hchain⟩
  · exact .inr ⟨length_eq_zero_iff.mp hcount, c', hw', hsigned⟩

theorem honest_of_call (hi : Honest key userId db) (h : Call key db db') :
    Honest key userId db' := by
  cases h with
  | recorded h => exact honest_of_appendLink hi h
  | deleted h =>
    rename_i d n
    obtain ⟨users, db1, hanon, happend⟩ := deleteAccount_ok h
    refine honest_of_appendLink ?_ happend
    have hi0 : Honest key userId { db with users := users } := hi
    by_cases hu : userId = d.userId
    · subst hu
      exact honest_of_anonymiseChain hi0 hanon
    · exact honest_of_view ((within_anonymiseChain hanon).frame userId hu) hi
  | failed => exact hi

/-! ### What a deletion keeps -/

theorem kept_deleteAccount (h : db.deleteAccount key d = .ok (n, db')) : Kept db db' := by
  obtain ⟨_, db1, hanon, happend⟩ := deleteAccount_ok h
  have hkept : Kept db db1 := (within_anonymiseChain hanon).kept
  exact hkept.trans (within_appendLink happend).kept

def Clean (userId : Uuid128) (db : AuditDb) : Prop :=
  ∀ r ∈ db.logs, r.userId = userId → r.target = none ∧ r.ipAddress = none

theorem clean_updateLogs {p : AuditRow → Bool} {f : AuditRow → AuditRow}
    (h : db.updateLogs p f = .ok db') (hclean : Clean userId db) : Clean userId db' := by
  obtain ⟨hlogs, -, -, hallowed⟩ := updateLogs_ok h
  intro r' hr' hu
  rw [hlogs] at hr'
  obtain ⟨r, hr, rfl⟩ := mem_map.mp hr'
  by_cases hp : p r = true
  · rw [if_pos hp] at hu ⊢
    have hmut := hallowed r hr hp
    simp only [mutationAllowed, Bool.or_eq_true, Bool.and_eq_true, beq_iff_eq,
      Option.isNone_iff_eq_none] at hmut
    rcases hmut with ⟨-, hentry⟩ | ⟨⟨⟨htarget, hip⟩, -⟩, -⟩
    · rw [← hentry] at hu ⊢
      exact hclean r hr hu
    · exact ⟨htarget, hip⟩
  · rw [if_neg hp] at hu ⊢
    exact hclean r hr hu

theorem clean_adoptRows {rows : List AuditRow} {seq : Int} {prev : Hash}
    (h : adoptRows key db seq prev rows = .ok (tip, db')) (hclean : Clean userId db) :
    Clean userId db' := by
  induction rows generalizing db seq prev with
  | nil =>
    obtain ⟨-, rfl⟩ := Prod.mk.inj (Except.ok.inj h)
    exact hclean
  | cons row rows ih =>
    unfold adoptRows at h
    split at h
    · cases h
    · obtain ⟨db1, hupdate, hrest⟩ := bind_ok h
      exact ih hrest (clean_updateLogs hupdate hclean)

theorem clean_appendLink (h : db.appendLink key e = .ok db')
    (he : e.target = none ∧ e.ipAddress = none) (hclean : Clean userId db) : Clean userId db' := by
  obtain ⟨tip, db1, seq, db2, htip, -, hinsert, rfl⟩ := appendLink_ok h
  have hclean1 : Clean userId db1 := by
    rcases chainTip_ok htip with ⟨_, _, _, rfl⟩ | ⟨_, _, hadopt⟩
    · exact hclean
    · exact clean_adoptRows hadopt hclean
  intro r hr hu
  change r ∈ db2.logs at hr
  rw [(insertLog_ok hinsert).1, mem_append, mem_singleton] at hr
  rcases hr with hr | rfl
  · exact hclean1 r hr hu
  · exact he

theorem clean_of_deleteAccount (h : db.deleteAccount key d = .ok (n, db')) :
    Clean d.userId db' := by
  obtain ⟨_, db1, hanon, happend⟩ := deleteAccount_ok h
  obtain ⟨tip, db1, c, c', -, -, -, -, -, -, -, -, hclean⟩ := anonymiseChain_ok hanon
  exact clean_appendLink happend ⟨rfl, rfl⟩ hclean

/-! ### Whole runs -/

def rowsOf (db : AuditDb) (userId : Uuid128) : List AuditRow :=
  db.logs.filter (fun r => r.userId == userId)

theorem chain_perm :
    ((db.chain userId).map ChainRow.row).Perm
      ((db.rowsOf userId).filter (fun r => r.seq.isSome)) := by
  have hlogs : db.logs.Nodup := List.Nodup.of_map _ db.ids_nodup
  have hchain : ((db.chain userId).map ChainRow.row).Nodup :=
    (nodup_of_pairwise chain_pairwise).map (fun _ _ => chainRow_ext)
  refine (perm_ext_iff_of_nodup hchain ((hlogs.filter _).filter _)).mpr (fun r => ?_)
  simp only [mem_map, mem_chain, mem_filter, beq_iff_eq]
  constructor
  · rintro ⟨row, ⟨hlogs, hu⟩, rfl⟩
    exact ⟨⟨hlogs, hu⟩, rfl⟩
  · rintro ⟨⟨hlogs, hu⟩, hsome⟩
    obtain ⟨n, hn⟩ := Option.isSome_iff_exists.mp hsome
    have hrow : ChainRow.row ⟨r.toEntry, n, r.prevHash, r.rowHash⟩ = r := by rw [ChainRow.row, ← hn]
    exact ⟨_, ⟨by rw [hrow]; exact hlogs, hu⟩, hrow⟩

theorem rowsOf_length :
    (db.rowsOf userId).length = (db.chain userId).length + (db.unchained userId).length := by
  have hchain : ((db.chain userId).map ChainRow.row).length = _ := chain_perm.length_eq
  have hunchained : db.unchained userId = (db.rowsOf userId).filter (fun r => !r.seq.isSome) := by
    rw [rowsOf, filter_filter]
    refine filter_congr (fun r _ => ?_)
    cases r.seq <;> simp
  rw [length_map] at hchain
  rw [hchain, hunchained]
  exact length_eq_length_filter_add _

def OnlyLegacy (db : AuditDb) (userId : Uuid128) : Prop :=
  db.rowsOf userId ≠ [] ∧ ∀ r ∈ db.rowsOf userId, r.seq = none

instance : Decidable (OnlyLegacy db userId) := inferInstanceAs (Decidable (_ ∧ _))

theorem chain_eq_nil_iff : db.chain userId = [] ↔ ∀ r ∈ db.rowsOf userId, r.seq = none := by
  have hperm : ((db.chain userId).map ChainRow.row).Perm _ := chain_perm
  constructor
  · intro h
    rw [h, map_nil] at hperm
    simpa using hperm
  · intro h
    have hnone : (db.rowsOf userId).filter (fun r => r.seq.isSome) = [] := by simpa using h
    rw [hnone, perm_nil, map_eq_nil_iff] at hperm
    exact hperm

/-- **The report on an honest chain.** -/
theorem verifyNow_of_honest (h : Honest key userId db) : verifyNow key userId db =
    if OnlyLegacy db userId then ⟨userId, 0, (db.rowsOf userId).length, .unchained⟩
    else ⟨userId, (db.rowsOf userId).length, 0, .intact⟩ := by
  have hlen : (db.rowsOf userId).length = _ := rowsOf_length
  rcases h with ⟨hhead, hchain⟩ | ⟨hnil, c, hw, seq, hseq, hhead⟩
  · rw [verifyNow_unstarted hhead hchain]
    rw [hchain, length_nil, Nat.zero_add] at hlen
    by_cases hrows : db.rowsOf userId = []
    · have hlegacy : ¬ OnlyLegacy db userId := fun h => h.1 hrows
      rw [if_neg hlegacy, ← hlen, hrows]
      rfl
    · have hlegacy : OnlyLegacy db userId := ⟨hrows, chain_eq_nil_iff.mp hchain⟩
      rw [if_pos hlegacy, ← hlen, if_pos (length_pos_iff.mpr hrows)]
  · obtain ⟨hlast, hcount, -⟩ := walk_ok hw
    simp only [Cursor.start, Nat.zero_add] at hlast hcount
    have hlegacy : ¬ OnlyLegacy db userId := by
      intro h
      rw [chain_eq_nil_iff.mpr h.2, length_nil] at hlast
      omega
    rw [hnil, length_nil, Nat.add_zero, ← hcount] at hlen
    rw [if_neg hlegacy, verifyNow, hw, hhead, hnil, hlen]
    simp only [length_nil, judgeHead_signed hseq.symm]

end AuditDb

open AuditDb

/-- **Honest operations keep the chain verifiable**: after any calls for any users, verification
finds the legacy rows alone, or a chain that has all rows of the user.  A deletion that commits
keeps every row and removes the personal data of the account. -/
theorem honest_chain_verifies (key : AuditChainKey) (userId : Uuid128) {db0 db : AuditDb}
    (hhead : db0.headOf userId = none) (hlegacy : ∀ r ∈ db0.rowsOf userId, r.seq = none)
    (hrun : Relation.ReflTransGen (Call key) db0 db) :
    (∀ report, Verifies key userId db report ↔ report =
      if OnlyLegacy db userId then ⟨userId, 0, (db.rowsOf userId).length, .unchained⟩
      else ⟨userId, (db.rowsOf userId).length, 0, .intact⟩) ∧
    (∀ d n db', db.deleteAccount key d = .ok (n, db') →
      Kept db db' ∧ Clean d.userId db') := by
  have hhonest : Honest key userId db := by
    induction hrun with
    | refl => exact .inl ⟨hhead, chain_eq_nil_iff.mpr hlegacy⟩
    | tail _ hcall ih => exact honest_of_call ih hcall
  constructor
  · intro report
    rw [verifies_iff, verifyNow_of_honest hhonest]
  · intro d n db' h
    exact ⟨kept_deleteAccount h, clean_of_deleteAccount h⟩

def legacyDb : AuditDb where
  users := [⟨7, none⟩]
  wallets := []
  logs := [⟨{ exampleEntry 1 created with ipAddress := some ⟨"::1", by decide⟩ }, none, none, none⟩]
  heads := []
  ids_nodup := List.nodup_singleton _
  positions := List.pairwise_singleton _ _
  heads_nodup := List.nodup_nil

def exampleDeletion : Deletion := ⟨7, [], 1, 4, ⟨1, by decide⟩⟩

theorem legacyDb_run : ∃ db1 n db2, legacyDb.recordAudit exampleKey laterEntry = .ok db1 ∧
    db1.deleteAccount exampleKey exampleDeletion = .ok (n, db2) ∧ ¬ OnlyLegacy db2 7 ∧
    (db2.rowsOf 7).length = 3 := by
  have hrun : (match legacyDb.recordAudit exampleKey laterEntry with
      | .error _ => false
      | .ok db1 => match db1.deleteAccount exampleKey exampleDeletion with
        | .error _ => false
        | .ok (_, db2) => decide (¬ OnlyLegacy db2 7 ∧ (db2.rowsOf 7).length = 3)) = true := by
    decide +kernel
  split at hrun
  · cases hrun
  · rename_i db1 hrecord
    split at hrun
    · cases hrun
    · rename_i n db2 hdelete
      exact ⟨db1, n, db2, hrecord, hdelete, of_decide_eq_true hrun⟩

theorem legacy_account_deleted : ∃ db1 n db2, legacyDb.recordAudit exampleKey laterEntry = .ok db1 ∧
    db1.deleteAccount exampleKey exampleDeletion = .ok (n, db2) ∧
    Verifies exampleKey 7 db2 ⟨7, 3, 0, .intact⟩ ∧ Kept db1 db2 ∧ Clean 7 db2 := by
  obtain ⟨db1, n, db2, hrecord, hdelete, hlegacy, hlen⟩ := legacyDb_run
  have hstart : ∀ r ∈ legacyDb.rowsOf 7, r.seq = none := by decide
  have hrun1 : Relation.ReflTransGen (Call exampleKey) legacyDb db1 := .single (.recorded hrecord)
  have hfinal := (honest_chain_verifies exampleKey 7 rfl hstart (hrun1.tail (.deleted hdelete))).1
  have hkept := (honest_chain_verifies exampleKey 7 rfl hstart hrun1).2 _ _ _ hdelete
  refine ⟨db1, n, db2, hrecord, hdelete, (hfinal _).mpr ?_, hkept⟩
  rw [if_neg hlegacy, hlen]

end Octo.Audit
