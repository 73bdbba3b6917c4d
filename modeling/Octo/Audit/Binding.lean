import Octo.Audit.Verify

/-!
# The head of a chain commits to its rows

The bytes that are hashed of a row can be read apart again, and each hash goes into the next row's.
So two states that both verify and hold the same head have the same rows, if the MACs of the
messages that occur in them do not collide.
-/

namespace Octo.Audit

open Codec Crypto List

/-! ### The bytes of a row -/

theorem delimited_putStr : Delimited putStr := by
  intro x y s t hxy
  simp only [putStr, append_assoc] at hxy
  obtain ⟨hcount, hrest⟩ := append_inj hxy (by rw [beBytes_length, beBytes_length])
  have hlen : (utf8 x.val).length = (utf8 y.val).length := beBytes_inj (by omega) (by omega) hcount
  obtain ⟨htext, hst⟩ := append_inj hrest hlen
  exact ⟨Subtype.ext (utf8_injective htext), hst⟩

theorem delimited_putOpt : Delimited putOpt := by
  intro x y s t hxy
  cases x with
  | none =>
    cases y with
    | none => exact ⟨rfl, (cons.inj hxy).2⟩
    | some => exact absurd (cons.inj hxy).1 (by decide)
  | some =>
    cases y with
    | none => exact absurd (cons.inj hxy).1 (by decide)
    | some =>
      obtain ⟨rfl, hst⟩ := delimited_putStr (cons.inj hxy).2
      exact ⟨rfl, hst⟩

theorem delimited_uuid : Delimited (fun x : Uuid128 => beBytes 16 x) :=
  delimited_beBytes (by decide)

theorem delimited_seqBytes : Delimited seqBytes := by
  intro m n s t h
  obtain ⟨hval, hst⟩ := delimited_i64Bytes h
  exact ⟨Subtype.ext (Subtype.mk.inj hval), hst⟩

theorem delimited_hash : Delimited (fun h : Hash => h.val) :=
  delimited_of_length (fun h => h.property) Subtype.val_injective

theorem rowMessage_injective {p p' : Hash} {f f' : LinkFields}
    (h : rowMessage p f = rowMessage p' f') : p = p' ∧ f = f' := by
  obtain ⟨⟨id, _, _, _, _, ip, _⟩, seq⟩ := f
  unfold rowMessage at h
  rw [append_cancel_left_eq] at h
  -- field after field, in the order of `row_hash`
  obtain ⟨hprev, h⟩ := delimited_hash h
  obtain ⟨hid, h⟩ := delimited_uuid h
  obtain ⟨huser, h⟩ := delimited_uuid h
  obtain ⟨hseq, h⟩ := delimited_seqBytes h
  obtain ⟨hcreated, h⟩ := delimited_i64Bytes h
  obtain ⟨haction, h⟩ := delimited_putStr h
  obtain ⟨hcategory, h⟩ := delimited_putStr h
  obtain ⟨htarget, h⟩ := delimited_putOpt h
  have hip := delimited_putOpt.injective h
  dsimp only at hid huser hseq hcreated haction hcategory htarget hip
  rw [hid, huser, hseq, hcreated, haction, hcategory, htarget, hip]
  exact ⟨hprev, rfl⟩

/-! ### The rows of a user -/

section

variable {key : AuditChainKey} {userId : Uuid128} {db db' : AuditDb} {c c' : Cursor}

/-- All audit rows of the user, in every field that is hashed: the chain, then what is not chained.
-/
def AuditDb.trail (db : AuditDb) (userId : Uuid128) : List (Entry × Option Seq) :=
  (db.chain userId).map (fun r => (r.toEntry, some r.seq)) ++
    ((db.unchained userId).insertionSort AuditDb.legacyBefore).map (fun r => (r.toEntry, none))

def messagesOf (rows : List ChainRow) : Set Bytes :=
  {m | ∃ r ∈ rows, ∃ prev, r.prevHash = some prev ∧ m = rowMessage prev r.fields}

def AuditDb.rowMessages (db : AuditDb) (userId : Uuid128) : Set Bytes :=
  messagesOf (db.chain userId)

def ChainHead.tip (h : ChainHead) : Seq × Hash := (h.seq, h.rowHash)

theorem rowMessage_mem_of_walk {rows : List ChainRow} (h : walk key c rows = .ok c')
    {p : Hash × LinkFields} (hp : p ∈ chainLinks (rowHash key) c.prev (rows.map (·.fields))) :
    rowMessage p.1 p.2 ∈ messagesOf rows := by
  induction rows generalizing c with
  | nil => cases hp
  | cons row rows ih =>
    obtain ⟨c1, hrow, hrest⟩ := walk_cons_ok h
    obtain ⟨-, hprev, -, rfl⟩ := checkRow_ok hrow
    rcases mem_cons.mp hp with rfl | hp
    · exact ⟨row, mem_cons_self, c.prev, hprev, rfl⟩
    · obtain ⟨r, hr, hmessage⟩ := ih hrest hp
      exact ⟨r, mem_cons_of_mem _ hr, hmessage⟩

theorem trail_of_unchained (h : db.unchained userId = []) :
    db.trail userId = ((db.chain userId).map (·.fields)).map (fun f => (f.entry, some f.seq)) := by
  rw [AuditDb.trail, h, map_map]
  exact append_nil _

theorem fields_eq_of_walk {rows rows' : List ChainRow}
    (hmac : Set.InjOn key.mac (messagesOf rows ∪ messagesOf rows'))
    (hw : walk key .start rows = .ok c) (hw' : walk key .start rows' = .ok c')
    (hlast : c.lastSeq = c'.lastSeq) (hprev : c.prev = c'.prev) :
    rows.map (·.fields) = rows'.map (·.fields) := by
  obtain ⟨hlen, -, hhash⟩ := walk_ok hw
  obtain ⟨hlen', -, hhash'⟩ := walk_ok hw'
  refine chainHash_binding ?_ ?_ (hhash.symm.trans (hprev.trans hhash'))
  · intro p hp p' hp' heq
    have hmem : ∀ {p : Hash × LinkFields}, p ∈ chainLinks (rowHash key) genesisPrevHash
        (rows.map (·.fields)) ∨
        p ∈ chainLinks (rowHash key) genesisPrevHash (rows'.map (·.fields)) →
          rowMessage p.1 p.2 ∈ messagesOf rows ∪ messagesOf rows' := by
      rintro p (hp | hp)
      · exact .inl (rowMessage_mem_of_walk hw hp)
      · exact .inr (rowMessage_mem_of_walk hw' hp)
    obtain ⟨hfst, hsnd⟩ := rowMessage_injective (hmac (hmem hp) (hmem hp') heq)
    exact Prod.ext hfst hsnd
  · rw [length_map, length_map]
    omega

theorem trail_eq_of_intact
    (hmac : Set.InjOn key.mac (db.rowMessages userId ∪ db'.rowMessages userId))
    (hhead : (db.headOf userId).map ChainHead.tip = (db'.headOf userId).map ChainHead.tip)
    (h : (verifyNow key userId db).status = .intact)
    (h' : (verifyNow key userId db').status = .intact) : db.trail userId = db'.trail userId := by
  obtain ⟨c, hw, hnil, hend⟩ := verifyNow_intact h
  obtain ⟨c', hw', hnil', hend'⟩ := verifyNow_intact h'
  rw [trail_of_unchained hnil, trail_of_unchained hnil']
  cases hh : db.headOf userId with
  | none =>
    rw [hh] at hhead hend
    rw [Option.map_eq_none_iff.mp hhead.symm] at hend'
    have hlen := (walk_ok hw).1
    have hlen' := (walk_ok hw').1
    simp only [Option.elim_none, Cursor.start] at hend hend' hlen hlen'
    rw [length_eq_zero_iff.mp (show (db.chain userId).length = 0 by omega),
      length_eq_zero_iff.mp (show (db'.chain userId).length = 0 by omega)]
  | some =>
    rw [hh] at hhead hend
    obtain ⟨head', hh', htip⟩ := Option.map_eq_some_iff.mp hhead.symm
    rw [hh'] at hend'
    obtain ⟨hseq, hhash⟩ := Prod.mk.inj htip
    rw [fields_eq_of_walk hmac hw hw' ?_ ?_]
    · rw [← hend.1, ← hend'.1, hseq]
    · rw [← hend.2, ← hend'.2, hhash]

/-- **The head commits to the rows**: states that verify with the same head have the same rows, and
with the head of an intact state no other rows verify. -/
theorem head_binds_rows (key : AuditChainKey) (userId : Uuid128) (db db' : AuditDb)
    (hmac : Set.InjOn key.mac (db.rowMessages userId ∪ db'.rowMessages userId))
    (hhead : (db.headOf userId).map ChainHead.tip = (db'.headOf userId).map ChainHead.tip) :
    (∀ r r', Verifies key userId db r → Verifies key userId db' r' →
      r.status = .intact → r'.status = .intact → db.trail userId = db'.trail userId) ∧
    (∀ r, Verifies key userId db r → r.status = .intact → (db.headOf userId).isSome →
      db.trail userId ≠ db'.trail userId →
        ∃ r', Verifies key userId db' r' ∧ r'.status.IsBroken) := by
  constructor
  · intro r r' hr hr' hi hi'
    rw [verifies_iff.mp hr] at hi
    rw [verifies_iff.mp hr'] at hi'
    exact trail_eq_of_intact hmac hhead hi hi'
  · intro r hr hi hsome hne
    rw [verifies_iff.mp hr] at hi
    refine ⟨_, verifies_iff.mpr rfl, ?_⟩
    by_contra hnot
    obtain ⟨c, hw, heq⟩ := verifyNow_not_broken hnot
    obtain ⟨head, hh⟩ := Option.isSome_iff_exists.mp hsome
    rw [hh] at hhead
    obtain ⟨head', hh', -⟩ := Option.map_eq_some_iff.mp hhead.symm
    rw [heq, hh'] at hnot
    have hi' := (judgeHead_some hnot).2.2.2.2
    refine hne (trail_eq_of_intact hmac (by rw [hh]; exact hhead) hi ?_)
    rw [heq, hh', hi']

end

/-! ### An edited row -/

def exampleKey : AuditChainKey :=
  ⟨fun m => ⟨beBytes 32 (m.map UInt8.toNat).sum, beBytes_length 32 _⟩⟩

def created : Text := ⟨"created", by decide⟩
def deleted : Text := ⟨"deleted", by decide⟩

def exampleEntry (id : Uuid128) (action : Text) : Entry :=
  ⟨id, 7, action, ⟨"wallet", by decide⟩, none, none, ⟨0, by decide⟩⟩

/-- The row that is appended to a chain with the hash `prev` at its end. -/
def linkedRow (key : AuditChainKey) (prev : Hash) (e : Entry) (seq : Seq) : ChainRow :=
  ⟨e, seq, some prev, some (rowHash key prev ⟨e, seq⟩)⟩

variable (key : AuditChainKey)

def firstHash : Hash := rowHash key genesisPrevHash ⟨exampleEntry 1 created, ⟨1, by decide⟩⟩

def secondHash : Hash := rowHash key (firstHash key) ⟨exampleEntry 2 deleted, ⟨2, by decide⟩⟩

/-- A first row that says `action`; it was hashed as a creation. -/
def firstRow (action : Text) : ChainRow :=
  { linkedRow key genesisPrevHash (exampleEntry 1 created) ⟨1, by decide⟩ with action := action }

def secondRow : ChainRow := linkedRow key (firstHash key) (exampleEntry 2 deleted) ⟨2, by decide⟩

/-- A chain with two rows, the text of the first of which has been replaced by `action` afterwards.
-/
def editedDb (action : Text) : AuditDb where
  users := []
  wallets := []
  logs := [(firstRow key action).row, (secondRow key).row]
  heads := [⟨7, ⟨2, by decide⟩, secondHash key, headMac key 7 ⟨2, by decide⟩ (secondHash key)⟩]
  ids_nodup := show ([1, 2] : List Uuid128).Nodup by decide
  positions := List.pairwise_pair.mpr rfl
  heads_nodup := List.nodup_singleton _

theorem editedDb_chain (action : Text) :
    (editedDb key action).chain 7 = [firstRow key action, secondRow key] := rfl

theorem created_intact : (verifyNow key 7 (editedDb key created)).status = .intact := by
  have hfirst : checkRow key .start (firstRow key created) = .ok ⟨1, firstHash key, 1⟩ :=
    checkRow_eq_ok rfl rfl rfl
  have hsecond : checkRow key ⟨1, firstHash key, 1⟩ (secondRow key) =
      .ok ⟨2, secondHash key, 2⟩ := checkRow_eq_ok rfl rfl rfl
  have hwalk : walk key .start ((editedDb key created).chain 7) = .ok ⟨2, secondHash key, 2⟩ := by
    exact (congrArg (· >>= _) hfirst).trans ((congrArg (· >>= _) hsecond).trans rfl)
  have hhead : (editedDb key created).headOf 7 = some ⟨7, _, _, _⟩ := rfl
  simp only [verifyNow, hwalk, hhead]
  exact judgeHead_signed rfl

/-- The messages that are hashed before and after the edit. -/
def exampleMessages : List Bytes :=
  [rowMessage genesisPrevHash ⟨exampleEntry 1 created, ⟨1, by decide⟩⟩,
    rowMessage genesisPrevHash ⟨exampleEntry 1 deleted, ⟨1, by decide⟩⟩,
    rowMessage (firstHash exampleKey) ⟨exampleEntry 2 deleted, ⟨2, by decide⟩⟩]

theorem mem_exampleMessages {action : Text} (h : action = created ∨ action = deleted) {m : Bytes}
    (hm : m ∈ (editedDb exampleKey action).rowMessages 7) : m ∈ exampleMessages := by
  obtain ⟨r, hr, _, hprev, rfl⟩ := hm
  rw [editedDb_chain, mem_cons, mem_singleton] at hr
  rcases hr with rfl | rfl
  · rw [← Option.some.inj hprev]
    rcases h with rfl | rfl
    · exact mem_cons_self
    · exact mem_cons_of_mem _ mem_cons_self
  · rw [← Option.some.inj hprev]
    exact mem_cons_of_mem _ (mem_cons_of_mem _ mem_cons_self)

theorem example_mac_injOn : Set.InjOn exampleKey.mac
    ((editedDb exampleKey created).rowMessages 7 ∪
      (editedDb exampleKey deleted).rowMessages 7) := by
  have hnodup : (exampleMessages.map exampleKey.mac).Nodup := by decide +kernel
  have hmem : ∀ m ∈ (editedDb exampleKey created).rowMessages 7 ∪
      (editedDb exampleKey deleted).rowMessages 7, m ∈ exampleMessages := by
    rintro m (hm | hm)
    · exact mem_exampleMessages (.inl rfl) hm
    · exact mem_exampleMessages (.inr rfl) hm
  exact fun m hm m' hm' heq => inj_on_of_nodup_map hnodup (hmem m hm) (hmem m' hm') heq

theorem edit_found :
    ∃ r, Verifies exampleKey 7 (editedDb exampleKey deleted) r ∧ r.status.IsBroken := by
  refine (head_binds_rows exampleKey 7 (editedDb exampleKey created) (editedDb exampleKey deleted)
    example_mac_injOn rfl).2 _ (verifies_iff.mpr rfl) (created_intact exampleKey) rfl ?_
  intro h
  have hentry := (Prod.mk.inj (List.cons.inj h).1).1
  exact absurd hentry (by decide)

end Octo.Audit
