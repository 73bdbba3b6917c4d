import Octo.Audit.Binding
import Octo.Audit.Operations

/-!
# The server does not repair a broken chain

From any state of the tables, however it came about: a chain that does not verify will not verify
after any calls of the server.  An append trusts the head alone, but it puts its row where the head
points, so that what verifies afterwards has verified before.  Anonymisation checks every row before
it links it anew.
-/

namespace Octo.Audit

namespace AuditDb

variable {key : AuditChainKey} {db db' : AuditDb} {userId : Uuid128} {c c' : Cursor}
  {head : ChainHead}

/-- The calls of the API that write the chain. -/
inductive Call (key : AuditChainKey) (db : AuditDb) : AuditDb → Prop
  | recorded {e : Entry} {db' : AuditDb} (h : db.recordAudit key e = .ok db') : Call key db db'
  | deleted {d : Deletion} {n : Nat} {db' : AuditDb} (h : db.deleteAccount key d = .ok (n, db')) :
    Call key db db'
  | failed : Call key db db

theorem verifyNow_unstarted (hhead : db.headOf userId = none) (hchain : db.chain userId = []) :
    verifyNow key userId db = ⟨userId, 0, (db.unchained userId).length,
      if 0 < (db.unchained userId).length then .unchained else .intact⟩ := by
  rw [verifyNow, hchain, hhead]
  rfl

theorem not_broken_of_unstarted (hhead : db.headOf userId = none) (hchain : db.chain userId = []) :
    ¬ (verifyNow key userId db).status.IsBroken := by
  rintro ⟨seq, _, h⟩
  rw [verifyNow_unstarted hhead hchain] at h
  split at h <;> cases h

theorem not_broken_of_verified (hw : walk key .start (db.chain userId) = .ok c)
    (hhead : db.headOf userId = some head)
    (hver : head.verified key userId = some (c.lastSeq, c.prev))
    (hnil : (db.unchained userId).length = 0) : ¬ (verifyNow key userId db).status.IsBroken := by
  rintro ⟨seq, _, h⟩
  simp only [verifyNow, hw, hhead, hnil, judgeHead_verified hver] at h
  cases h

theorem broken_of_unchained (hhead : db.headOf userId = some head)
    (hn : (db.unchained userId).length ≠ 0) : (verifyNow key userId db).status.IsBroken := by
  by_contra hnot
  obtain ⟨c, -, heq⟩ := verifyNow_not_broken hnot
  rw [heq, hhead] at hnot
  exact hn (judgeHead_some hnot).2.2.2.1

theorem walk_append_ok {rows rows' : List ChainRow} (h : walk key c (rows ++ rows') = .ok c') :
    ∃ c1, walk key c rows = .ok c1 ∧ walk key c1 rows' = .ok c' := by
  rw [walk_append] at h
  exact bind_ok h

theorem seq_ne_of_insertLog {row r : ChainRow} (h : db.insertLog row.row = .ok db')
    (hr : r ∈ db.chain row.userId) : r.seq ≠ row.seq := by
  have hpositions := db'.positions
  rw [(insertLog_ok h).1] at hpositions
  obtain ⟨hlogs, hu⟩ := mem_chain.mp hr
  have := (List.pairwise_append.mp hpositions).2.2 r.row hlogs row.row (List.mem_singleton_self _)
  intro hseq
  exact samePosition_false_iff.mp this r.seq hu rfl (congrArg some hseq.symm)

theorem broken_of_appendLink {e : Entry} (h : db.appendLink key e = .ok db')
    (hb : (verifyNow key userId db).status.IsBroken) :
    (verifyNow key userId db').status.IsBroken := by
  by_cases hu : userId = e.userId
  · subst hu
    obtain ⟨tip, db1, seq, db2, htip, hseq, hinsert, rfl⟩ := appendLink_ok h
    rcases chainTip_ok htip with ⟨head, hhead, hver, rfl⟩ | ⟨hhead, hchain, -⟩
    · by_contra hnot
      -- the new row is the one that the new head pins, so it is the last
      obtain ⟨c', hw', heq⟩ := verifyNow_not_broken hnot
      rw [heq, headOf_writeHead] at hnot
      obtain ⟨-, hlast, -, hnil, -⟩ := judgeHead_some hnot
      have hchain : db2.chain e.userId = db1.chain e.userId ++ [appendedRow key tip e seq] := by
        refine chain_insert hinsert (fun r hr => ?_)
        have hle := ((walk_seq hw').1 r ((mem_chain_insert hinsert).mpr (.inl hr))).2
        have hne := seq_ne_of_insertLog hinsert hr
        rw [ne_eq, Subtype.ext_iff] at hne
        rw [hlast] at hle
        exact Int.lt_iff_le_and_ne.mpr ⟨hle, hne⟩
      -- so the rows before it pass, and end at the old head
      change walk key .start (db2.chain e.userId) = _ at hw'
      rw [hchain] at hw'
      obtain ⟨c, hw, hrow⟩ := walk_append_ok hw'
      rw [walk_singleton] at hrow
      obtain ⟨hpos, hprev, -, -⟩ := checkRow_ok hrow
      have hend : tip = (c.lastSeq, c.prev) := by
        refine Prod.ext ?_ (Option.some.inj hprev)
        change seq.val = _ at hpos
        omega
      rw [hend] at hver
      refine not_broken_of_verified hw hhead hver ?_ hb
      rw [← unchained_insert hinsert]
      exact hnil
    · exact absurd hb (not_broken_of_unstarted hhead hchain)
  · rw [verifyNow_of_view ((within_appendLink h).frame userId hu)]
    exact hb

variable {n : Nat}

theorem walk_of_anonymiseChain (h : db.anonymiseChain key userId = .ok (n, db')) :
    ∃ c, walk key .start (db.chain userId) = .ok c ∧
      ∀ head, db.headOf userId = some head →
      head.verified key userId = some (c.lastSeq, c.prev) := by
  obtain ⟨tip, db1, c, c', htip, hw, rfl, -⟩ := anonymiseChain_ok h
  rcases chainTip_ok htip with ⟨_, hhead, hver, rfl⟩ | ⟨hhead, hchain, -⟩
  · refine ⟨c, hw, fun head' hhead' => ?_⟩
    rw [hhead] at hhead'
    rw [← Option.some.inj hhead', hver]
  · refine ⟨.start, by rw [hchain]; rfl, fun head' hhead' => ?_⟩
    rw [hhead] at hhead'
    cases hhead'

/-- **Anonymisation does not repair the chain**: what is broken when it succeeds are rows beside the
chain, and they stay there. -/
theorem broken_of_anonymiseChain (h : db.anonymiseChain key userId = .ok (n, db'))
    (hb : (verifyNow key userId db).status.IsBroken) :
    (verifyNow key userId db').status.IsBroken := by
  obtain ⟨tip, db1, c, c', htip, hw, rfl, -, -, hcount, hsigned, -⟩ := anonymiseChain_ok h
  rcases chainTip_ok htip with ⟨_, hhead, hver, rfl⟩ | ⟨hhead, hchain, -⟩
  · have hne : (db'.unchained userId).length ≠ 0 := by
      rw [hcount]
      intro hnil
      exact not_broken_of_verified hw hhead hver hnil hb
    rcases hsigned with ⟨-, hsame⟩ | ⟨seq, -, hhead'⟩
    · exact broken_of_unchained (hsame.trans hhead) hne
    · exact broken_of_unchained hhead' hne
  · exact absurd hb (not_broken_of_unstarted hhead hchain)

theorem within_anonymiseChain (h : db.anonymiseChain key userId = .ok (n, db')) :
    Within userId db db' := by
  obtain ⟨tip, db1, c, c', htip, -, -, -, -, -, -, hwithin, -⟩ := anonymiseChain_ok h
  exact (within_chainTip htip).trans hwithin

theorem broken_of_deleteAccount {d : Deletion} (h : db.deleteAccount key d = .ok (n, db'))
    (hb : (verifyNow key userId db).status.IsBroken) :
    (verifyNow key userId db').status.IsBroken := by
  obtain ⟨_, db1, hanon, happend⟩ := deleteAccount_ok h
  refine broken_of_appendLink happend ?_
  by_cases hu : userId = d.userId
  · subst hu
    exact broken_of_anonymiseChain hanon hb
  · rw [verifyNow_of_view ((within_anonymiseChain hanon).frame userId hu)]
    exact hb

theorem broken_of_call (h : Call key db db') (hb : (verifyNow key userId db).status.IsBroken) :
    (verifyNow key userId db').status.IsBroken := by
  cases h with
  | recorded h => exact broken_of_appendLink h hb
  | deleted h => exact broken_of_deleteAccount h hb
  | failed => exact hb

end AuditDb

open AuditDb List

/-- **A broken chain stays broken**, and only a chain that verifies is rewritten by a deletion. -/
theorem broken_stays_broken (key : AuditChainKey) (userId : Uuid128) :
    (∀ db db' r, Relation.ReflTransGen (Call key) db db' → Verifies key userId db r →
      r.status.IsBroken → ∃ r', Verifies key userId db' r' ∧ r'.status.IsBroken) ∧
    (∀ db n db', AuditDb.anonymiseChain db key userId = .ok (n, db') →
      ∃ c, walk key .start (db.chain userId) = .ok c ∧
        ∀ head, db.headOf userId = some head →
        head.verified key userId = some (c.lastSeq, c.prev)) := by
  constructor
  · intro db db' r hrun hv hb
    rw [verifies_iff.mp hv] at hb
    refine ⟨_, verifies_iff.mpr rfl, ?_⟩
    -- along the calls
    induction hrun with
    | refl => exact hb
    | tail _ hcall ih => exact broken_of_call hcall ih
  · intro db n db' h
    exact walk_of_anonymiseChain h

theorem edited_broken : (verifyNow exampleKey 7 (editedDb exampleKey deleted)).status.IsBroken := by
  by_contra hnot
  obtain ⟨c, hw, -⟩ := verifyNow_not_broken hnot
  obtain ⟨c1, hfirst, -⟩ := walk_cons_ok hw
  have hhash : firstHash exampleKey = rowHash exampleKey genesisPrevHash
      (firstRow exampleKey deleted).fields :=
    Option.some.inj (checkRow_ok hfirst).2.2.1
  exact absurd hhash (by decide +kernel)

def laterEntry : Entry := exampleEntry 3 created

theorem edited_record :
    ∃ db', (editedDb exampleKey deleted).recordAudit exampleKey laterEntry = .ok db' := by
  have htip : (editedDb exampleKey deleted).chainTip exampleKey 7 =
      .ok ((2, secondHash exampleKey), editedDb exampleKey deleted) := by
    have hver : ∀ key : AuditChainKey, ∀ hash : Hash, ChainHead.verified key
        ⟨7, ⟨2, by decide⟩, hash, headMac key 7 ⟨2, by decide⟩ hash⟩ 7 = some (2, hash) :=
      fun _ _ => if_pos rfl
    have hhead : (editedDb exampleKey deleted).headOf 7 = some ⟨7, _, _, _⟩ := rfl
    simp only [chainTip, hhead, hver]
  obtain ⟨db2, hinsert⟩ : ∃ db2, (editedDb exampleKey deleted).insertLog (appendedRow exampleKey
      (2, secondHash exampleKey) laterEntry ⟨3, by decide⟩).row = .ok db2 := by
    refine insertLog_commits (fun r hr => ?_) (fun r hr => ?_)
    · rcases mem_pair.mp hr with rfl | rfl <;> decide
    · have hchain := editedDb_chain exampleKey deleted
      rcases mem_pair.mp hr with rfl | rfl <;> decide
  exact ⟨_, appendLink_eq_ok htip rfl hinsert⟩

theorem edit_not_laundered : ∃ db' r,
    (editedDb exampleKey deleted).recordAudit exampleKey laterEntry = .ok db' ∧
      Verifies exampleKey 7 db' r ∧ r.status.IsBroken := by
  obtain ⟨db', hrecord⟩ := edited_record
  obtain ⟨r, hv, hb⟩ := (broken_stays_broken exampleKey 7).1 (editedDb exampleKey deleted) db' _
    (.single (.recorded hrecord)) (verifies_iff.mpr rfl) edited_broken
  exact ⟨db', r, hrecord, hv, hb⟩

end Octo.Audit
