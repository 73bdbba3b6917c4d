import Octo.Idempotency.Discipline

/-!
# One link for one key

While a key lives, its row is held by the request that claimed it last: only that request creates a
link, completes the key or releases it.  `holder` reads the holder off the history.
-/

namespace Octo.Idempotency

open Conc Octo.Api KeyTable World List Option

/-! ### The row of a key -/

variable {hash : String}

section

variable {t : KeyTable} {k k' : KeyId} {now : Time} {r : KeyRow} {o : Option KeyRow}

@[simp] theorem KeyTable.set_self : t.set k o k = o := if_pos rfl

theorem KeyTable.set_of_ne (h : k' ≠ k) : t.set k o k' = t k' := if_neg h

theorem KeyTable.claim_true (h : (t.claim now k hash).1 = true) :
    (∀ r, t k = some r → r.expiresAt ≤ now) ∧
      (t.claim now k hash).2 = t.set k (some ⟨hash, none, none, now, now + keyTtl⟩) := by
  unfold claim at h ⊢
  split at h
  · rename_i hfree
    rw [if_pos hfree]
    refine ⟨?_, rfl⟩
    intro r hr
    rw [hr] at hfree
    simpa using hfree
  · cases h

theorem KeyTable.claim_false (h : (t.claim now k hash).1 = false) : (t.claim now k hash).2 = t := by
  unfold claim at h ⊢
  split at h
  · cases h
  · rename_i hheld
    rw [if_neg hheld]

theorem KeyTable.purge_of_live (h : ∀ r, t k = some r → now < r.expiresAt) :
    t.purge now k = t k := by
  unfold purge
  cases hr : t k with
  | none => rfl
  | some r => simp [h r hr]

end

theorem onKeys_cases {α : Type} {stmt : KeyTable → Time → Except StoreError α × KeyTable}
    {ch : Choice} {s s' : State} {a : Except StoreError α} (h : onKeys stmt ch s = some (a, s')) :
    (a, s'.keys) = stmt s.keys s.db.now ∨ a = .error .database ∧ s' = s := by
  cases ch with
  | served =>
    cases h
    exact .inl rfl
  | failed =>
    cases h
    exact .inr ⟨rfl, rfl⟩
  | lost => cases h

/-! ### The holder -/

variable {out : Outside} {c : Conf} {w : World} {k : KeyId}

/-- The request that claimed the key last and did not release it, with the hash of its body. -/
def holder (k : KeyId) : List (Event Op Ans State) → Option (Nat × String)
  | [] => none
  | e :: es =>
    match claimedHash k e.act with
    | some hash => some (e.tid, hash)
    | none => if releases k e.act then none else holder k es

theorem claimed_of_holder {i : Nat} (h : holder k w.hist = some (i, hash)) :
    Claimed k hash (w.trace i) := by
  suffices hev : ∀ es : List (Event Op Ans State), holder k es = some (i, hash) →
      ∃ e ∈ es, e.tid = i ∧ claimedHash k e.act = some hash by
    obtain ⟨⟨_, x⟩, he, rfl, hx⟩ := hev w.hist h
    exact ⟨x, mem_trace.mpr he, hx⟩
  intro es
  induction es with
  | nil => intro h; cases h
  | cons e es ih =>
    intro h
    unfold holder at h
    split at h
    · rename_i hc
      cases h
      exact ⟨e, mem_cons_self, rfl, hc⟩
    · split at h
      · cases h
      · obtain ⟨e', he', hmem⟩ := ih h
        exact ⟨e', mem_cons_of_mem _ he', hmem⟩

def hasKey (k : KeyId) (w : World) (i : Nat) : Bool := decide ((w.jobs[i]?).bind Job.keyId = some k)

/-- The links created by all requests with the key. -/
def linksCreated (k : KeyId) (w : World) : List PaymentLink :=
  w.hist.filterMap (fun e => if hasKey k w e.tid then createdLink e.act else none)

theorem mem_linksCreated {l : PaymentLink} :
    l ∈ linksCreated k w ↔ ∃ i, hasKey k w i = true ∧ Creates l (w.trace i) := by
  unfold linksCreated
  rw [mem_filterMap]
  constructor
  · intro h
    obtain ⟨⟨i, x⟩, he, hl⟩ := h
    by_cases hk : hasKey k w i = true
    · rw [if_pos hk] at hl
      exact ⟨i, hk, x, mem_trace.mpr he, hl⟩
    · rw [if_neg hk] at hl
      cases hl
  · intro h
    obtain ⟨i, hk, x, hx, hl⟩ := h
    exact ⟨⟨i, x⟩, mem_trace.mp hx, by rw [if_pos hk]; exact hl⟩

structure OneHolder (k : KeyId) (w : World) : Prop where
  started : ∀ e ∈ w.hist, e.tid < w.jobs.length
  /-- Without a holder there is no row. -/
  free : holder k w.hist = none → w.db.keys k = none
  /-- The row carries the holder's hash, and as response only a link of the holder. -/
  held : ∀ i hash, holder k w.hist = some (i, hash) → ∃ r, w.db.keys k = some r ∧
    r.requestHash = hash ∧ ∀ l, r.response = some l → Creates l (w.trace i)
  /-- Whoever claimed the key and did not try to release it is the holder. -/
  holds : ∀ i hash, Claimed k hash (w.trace i) → NoRelease (w.trace i) →
    ∃ hash', holder k w.hist = some (i, hash')
  single : (linksCreated k w).length ≤ 1
  /-- Only the holder has created a link. -/
  creator : ∀ l ∈ linksCreated k w, ∃ i hash, holder k w.hist = some (i, hash) ∧
    Creates l (w.trace i)
  /-- A response that was read is a link of the holder, whose body has the hash that was read. -/
  seen : ∀ i r l, Selected k r (w.trace i) → r.response = some l →
    ∃ i', holder k w.hist = some (i', r.requestHash) ∧ Creates l (w.trace i')

def Unused (k : KeyId) (s : State) : Prop := s.keys k = none

/-- The row of the key has not expired. -/
def withinTtl (k : KeyId) (w : World) (_ : Label Job Op Ans) : Bool :=
  (w.db.keys k).all (fun r => decide (w.db.db.now < r.expiresAt))

/-- A configuration reached from a state without the key, all steps taken while the key lives. -/
abbrev ReachAlive (out : Outside) (k : KeyId) : Conf → Prop :=
  Reach (system out) (fun w l => withinTtl k w l = true) (Unused k)

/-! ### One call -/

section

variable {i : Nat} {o : Op} {a : Ans o} {s : State}

variable {l : PaymentLink} {i' : Nat} {ch : Choice}

theorem creates_record : Creates l ((w.record i o a s).trace i') ↔
    Creates l (w.trace i') ∨ i = i' ∧ createdLink ⟨o, a, w.db, s⟩ = some l :=
  exists_mem_trace_record

theorem Creates.record (h : Creates l (w.trace i')) :
    Creates l ((w.record i o a s).trace i') := creates_record.mpr (.inl h)

theorem NoRelease.of_record (h : NoRelease ((w.record i o a s).trace i')) :
    NoRelease (w.trace i') :=
  fun x hx => h x (trace_subset_record hx)

theorem linksCreated_record : linksCreated k (w.record i o a s) =
    (if hasKey k w i then (createdLink ⟨o, a, w.db, s⟩).toList else []) ++ linksCreated k w := by
  show filterMap (fun e => if hasKey k w e.tid then createdLink e.act else none)
    (⟨i, o, a, w.db, s⟩ :: w.hist) = _
  rw [filterMap_cons, linksCreated]
  by_cases hk : hasKey k w i = true
  · cases createdLink ⟨o, a, w.db, s⟩ <;> simp [hk]
  · simp [hk]

theorem started_record (h : OneHolder k w) (hi : i < w.jobs.length) :
    ∀ e ∈ (w.record i o a s).hist, e.tid < w.jobs.length := by
  exact forall_mem_cons.mpr ⟨hi, h.started⟩

section

variable (h : OneHolder k w) (hi : i < w.jobs.length)
  (hclaim : claimedHash k ⟨o, a, w.db, s⟩ = none) (hrel : releases k ⟨o, a, w.db, s⟩ = false)
include h hi hclaim hrel

theorem OneHolder.stays (hfree : holder k w.hist = none → s.keys k = none)
    (hheld : ∀ i' hash, holder k w.hist = some (i', hash) → ∃ r, s.keys k = some r ∧
      r.requestHash = hash ∧ ∀ l, r.response = some l → Creates l (w.trace i'))
    (hlink : ∀ l, hasKey k w i = true → createdLink ⟨o, a, w.db, s⟩ = some l →
      linksCreated k w = [] ∧ ∃ hash, holder k w.hist = some (i, hash))
    (hsel : ∀ r l, selected k ⟨o, a, w.db, s⟩ = some r → r.response = some l →
      ∃ i', holder k w.hist = some (i', r.requestHash) ∧ Creates l (w.trace i')) :
    OneHolder k (w.record i o a s) := by
  have hholder : holder k (w.record i o a s).hist = holder k w.hist := by
    simp [holder, hclaim, hrel]
  refine ⟨started_record h hi, ?_, ?_, ?_, ?_, ?_, ?_⟩
  · rw [hholder]
    exact hfree
  · rw [hholder]
    intro i' hash hh
    obtain ⟨r, hr, hhash, hresp⟩ := hheld i' hash hh
    exact ⟨r, hr, hhash, fun l hl => (hresp l hl).record⟩
  · rw [hholder]
    intro i' hash hc hno
    rcases exists_mem_trace_record.mp hc with hc | ⟨-, hc⟩
    · exact h.holds i' hash hc hno.of_record
    · rw [hclaim] at hc
      cases hc
  · rw [linksCreated_record]
    split
    · rename_i hk
      cases hl : createdLink ⟨o, a, w.db, s⟩ with
      | none => exact h.single
      | some l =>
        rw [(hlink l hk hl).1]
        exact Nat.le_refl _
    · exact h.single
  · rw [hholder]
    intro l hl
    obtain ⟨i', hk, hc⟩ := mem_linksCreated.mp hl
    rcases creates_record.mp hc with hold | ⟨rfl, hnew⟩
    · obtain ⟨i0, hash, hh, hl0⟩ := h.creator l (mem_linksCreated.mpr ⟨i', hk, hold⟩)
      exact ⟨i0, hash, hh, hl0.record⟩
    · obtain ⟨-, hash, hh⟩ := hlink l hk hnew
      exact ⟨i, hash, hh, hc⟩
  · rw [hholder]
    intro i' r l hr hl
    rcases exists_mem_trace_record.mp hr with hr | ⟨-, hr⟩
    · obtain ⟨i0, hh, hc⟩ := h.seen i' r l hr hl
      exact ⟨i0, hh, hc.record⟩
    · obtain ⟨i0, hh, hc⟩ := hsel r l hr hl
      exact ⟨i0, hh, hc.record⟩

theorem OneHolder.plain (hlink : createdLink ⟨o, a, w.db, s⟩ = none)
    (hsel : selected k ⟨o, a, w.db, s⟩ = none) (hkeys : s.keys k = w.db.keys k) :
    OneHolder k (w.record i o a s) := by
  apply h.stays hi hclaim hrel
  · rw [hkeys]
    exact h.free
  · rw [hkeys]
    exact h.held
  · intro l _ hl
    rw [hlink] at hl
    cases hl
  · intro r l hr
    rw [hsel] at hr
    cases hr

end

theorem OneHolder.nothing (h : OneHolder k w)
    (hno : ∀ i hash l, holder k w.hist = some (i, hash) → ¬ Creates l (w.trace i)) :
    linksCreated k w = [] ∧ ∀ i r, Selected k r (w.trace i) → r.response = none := by
  constructor
  · apply eq_nil_iff_forall_not_mem.mpr
    intro l hl
    obtain ⟨i, hash, hh, hc⟩ := h.creator l hl
    exact hno i hash l hh hc
  · intro i r hr
    cases hl : r.response with
    | none => rfl
    | some l =>
      obtain ⟨i', hh, hc⟩ := h.seen i r l hr hl
      exact absurd hc (hno i' _ l hh)

section

variable (h : OneHolder k w) (hi : i < w.jobs.length)
include h hi

theorem OneHolder.moves
    (hno : ∀ i hash l, holder k w.hist = some (i, hash) → ¬ Creates l (w.trace i))
    (hlink : createdLink ⟨o, a, w.db, s⟩ = none) (hsel : selected k ⟨o, a, w.db, s⟩ = none)
    (hfree : holder k (w.record i o a s).hist = none → s.keys k = none)
    (hheld : ∀ i' hash, holder k (w.record i o a s).hist = some (i', hash) →
      ∃ r, s.keys k = some r ∧ r.requestHash = hash ∧ r.response = none)
    (hholds : ∀ i' hash, Claimed k hash ((w.record i o a s).trace i') →
      NoRelease ((w.record i o a s).trace i') → ∃ hash', holder k (w.record i o a s).hist =
        some (i', hash')) : OneHolder k (w.record i o a s) := by
  obtain ⟨hlinks, hseen⟩ := h.nothing hno
  have hlinks' : linksCreated k (w.record i o a s) = [] := by
    rw [linksCreated_record, hlink, hlinks]
    simp
  refine ⟨started_record h hi, hfree, ?_, hholds, ?_, ?_, ?_⟩
  · intro i' hash hh
    obtain ⟨r, hr, hhash, hresp⟩ := hheld i' hash hh
    refine ⟨r, hr, hhash, ?_⟩
    intro l hl
    rw [hresp] at hl
    cases hl
  · rw [hlinks']
    exact Nat.zero_le _
  · rw [hlinks']
    exact forall_mem_nil _
  · intro i' r l hr hl
    rcases exists_mem_trace_record.mp hr with hr | ⟨-, hr⟩
    · rw [hseen i' r hr] at hl
      cases hl
    · rw [hsel] at hr
      cases hr

variable {k' : KeyId}

theorem OneHolder.claim {a : Except StoreError Bool}
    (hlive : ∀ r, w.db.keys k = some r → w.db.db.now < r.expiresAt)
    (he : exec out.links (.claim k' hash) ch w.db = some (a, s)) :
    OneHolder k (w.record i (.claim k' hash) a s) := by
  simp only [exec] at he
  rcases onKeys_cases he with hstmt | ⟨rfl, rfl⟩
  · obtain ⟨rfl, hkeys⟩ := Prod.mk.inj hstmt
    cases hg : (w.db.keys.claim w.db.db.now k' hash).1 with
    | false =>
      rw [claim_false hg] at hkeys
      exact h.plain hi rfl rfl rfl rfl (by rw [hkeys])
    | true =>
      obtain ⟨hexp, hset⟩ := claim_true hg
      rw [hset] at hkeys
      by_cases hk : k' = k
      · subst hk
        -- a live row would have refused the claim
        have hnone : holder k' w.hist = none := by
          cases hh : holder k' w.hist with
          | none => rfl
          | some ih =>
            obtain ⟨r, hr, -⟩ := h.held ih.1 ih.2 hh
            exact absurd (hlive r hr) (Nat.not_lt.mpr (hexp r hr))
        have hnew : holder k' (w.record i (.claim k' hash) (.ok true) s).hist = some (i, hash) := by
          simp [holder, claimedHash]
        apply h.moves hi _ rfl rfl
        · intro hh
          rw [hnew] at hh
          cases hh
        · intro i' hash' hh
          rw [hnew] at hh
          cases hh
          exact ⟨_, by rw [hkeys]; exact set_self, rfl, rfl⟩
        · intro i' hash' hc hno
          rcases exists_mem_trace_record.mp hc with hc | ⟨rfl, -⟩
          · obtain ⟨hash'', hh⟩ := h.holds i' hash' hc hno.of_record
            rw [hnone] at hh
            cases hh
          · exact ⟨hash, hnew⟩
        · intro i' hash' l hh
          rw [hnone] at hh
          cases hh
      · refine h.plain hi ?_ rfl rfl rfl ?_
        · simp [claimedHash, hk]
        · rw [hkeys]
          exact set_of_ne (fun hk' => hk hk'.symm)
  · exact h.plain hi rfl rfl rfl rfl rfl

theorem OneHolder.release {a : Except StoreError Unit}
    (hclaim : ∃ hash, Claimed k' hash (w.trace i)) (hno : NoRelease (w.trace i))
    (hnone : ∀ l, ¬ Creates l (w.trace i))
    (he : exec out.links (.release k') ch w.db = some (a, s)) :
    OneHolder k (w.record i (.release k') a s) := by
  simp only [exec] at he
  rcases onKeys_cases he with hstmt | ⟨rfl, rfl⟩
  · obtain ⟨rfl, hkeys⟩ := Prod.mk.inj hstmt
    by_cases hk : k' = k
    · subst hk
      obtain ⟨hash, hc⟩ := hclaim
      obtain ⟨hash', hholder⟩ := h.holds i hash hc hno
      obtain ⟨r, hr, -, hresp⟩ := h.held i hash' hholder
      have hrnone : r.response = none := by
        cases hl : r.response with
        | none => rfl
        | some l => exact absurd (hresp l hl) (hnone l)
      have hnew : holder k' (w.record i (.release k') (.ok ()) s).hist = none := by
        simp [holder, claimedHash, releases]
      apply h.moves hi _ rfl rfl
      · intro _
        rw [hkeys]
        simp [release, hr, hrnone]
      · intro i' hash'' hh
        rw [hnew] at hh
        cases hh
      · intro i' hash'' hc' hno'
        rcases exists_mem_trace_record.mp hc' with hold | ⟨rfl, hnow⟩
        · obtain ⟨hash0, hh⟩ := h.holds i' hash'' hold hno'.of_record
          rw [hholder] at hh
          obtain ⟨rfl, -⟩ := call_inj hh
          exact absurd rfl (hno' _ (by rw [trace_record_self]; exact mem_cons_self) k')
        · cases hnow
      · intro i' hash'' l hh
        rw [hholder] at hh
        obtain ⟨rfl, -⟩ := call_inj hh
        exact hnone l
    · refine h.plain hi rfl ?_ rfl rfl ?_
      · simp [releases, hk]
      · rw [hkeys]
        exact set_of_ne (fun hk' => hk hk'.symm)
  · exact h.plain hi rfl rfl rfl rfl rfl

theorem OneHolder.complete {statusCode : Nat}
    {a : Except StoreError Unit} (hclaim : ∃ hash, Claimed k' hash (w.trace i))
    (hno : NoRelease (w.trace i)) (hl : Creates l (w.trace i))
    (he : exec out.links (.complete k' statusCode l) ch w.db = some (a, s)) :
    OneHolder k (w.record i (.complete k' statusCode l) a s) := by
  simp only [exec] at he
  rcases onKeys_cases he with hstmt | ⟨rfl, rfl⟩
  · obtain ⟨rfl, hkeys⟩ := Prod.mk.inj hstmt
    by_cases hk : k' = k
    · subst hk
      obtain ⟨hash, hc⟩ := hclaim
      obtain ⟨hash', hholder⟩ := h.holds i hash hc hno
      apply h.stays hi rfl rfl
      · intro hh
        rw [hholder] at hh
        cases hh
      · intro i' hash'' hh
        obtain ⟨r, hr, hhash, hresp⟩ := h.held i' hash'' hh
        rw [hholder] at hh
        cases hh
        rw [hkeys]
        simp only [complete, set_self, hr, map_some]
        by_cases hopen : r.response.isNone = true
        · rw [if_pos hopen]
          refine ⟨_, rfl, hhash, ?_⟩
          intro l' hl'
          cases hl'
          exact hl
        · rw [if_neg hopen]
          exact ⟨r, rfl, hhash, hresp⟩
      · intro l' _ hl'
        cases hl'
      · intro r l' hr
        cases hr
    · refine h.plain hi rfl rfl rfl rfl ?_
      rw [hkeys]
      exact set_of_ne (fun hk' => hk hk'.symm)
  · exact h.plain hi rfl rfl rfl rfl rfl

theorem OneHolder.select {a : Except StoreError KeyRow}
    (he : exec out.links (.select k') ch w.db = some (a, s)) :
    OneHolder k (w.record i (.select k') a s) := by
  simp only [exec] at he
  rcases onKeys_cases he with hstmt | ⟨rfl, rfl⟩
  · obtain ⟨hrow, hkeys⟩ := Prod.mk.inj hstmt
    apply h.stays hi rfl rfl
    · rw [hkeys]
      exact h.free
    · rw [hkeys]
      exact h.held
    · intro l _ hl
      cases hl
    · intro r l hr hl
      cases a with
      | error => cases hr
      | ok =>
        simp only [selected] at hr
        split at hr
        · rename_i hk
          cases hr
          subst hk
          cases hh : holder k' w.hist with
          | none =>
            rw [h.free hh] at hrow
            cases hrow
          | some ih =>
            obtain ⟨r0, hr0, hhash, hresp⟩ := h.held ih.1 ih.2 hh
            rw [hr0] at hrow
            cases hrow
            exact ⟨ih.1, by rw [hhash], hresp l hl⟩
        · cases hr
  · exact h.plain hi rfl rfl rfl rfl rfl

theorem OneHolder.create {n : NewPaymentLink} {a : Except StoreError PaymentLink}
    (hkeys : s.keys = w.db.keys)
    (hallowed : hasKey k w i = true → (∀ l, ¬ Creates l (w.trace i)) ∧
      (∃ hash, Claimed k hash (w.trace i)) ∧ NoRelease (w.trace i)) :
    OneHolder k (w.record i (.db (.createPaymentLink n)) a s) := by
  apply h.stays hi rfl rfl
  · rw [hkeys]
    exact h.free
  · rw [hkeys]
    exact h.held
  · intro l hk _
    obtain ⟨hnone, ⟨hash, hc⟩, hno⟩ := hallowed hk
    obtain ⟨hash', hholder⟩ := h.holds i hash hc hno
    refine ⟨(h.nothing ?_).1, hash', hholder⟩
    intro i' hash'' l' hh
    rw [hholder] at hh
    obtain ⟨rfl, -⟩ := call_inj hh
    exact hnone l'
  · intro r l hr
    cases hr

end

end

/-! ### Whole runs -/

theorem oneHolder_reach (hc : ReachAlive out k c) : OneHolder k c.world := by
  refine (discipline out).invariant ?_ ?_ ?_ ?_ hc
  · intro s hs
    refine ⟨fun e he => (nomatch he), fun _ => hs, fun i hash hh => (nomatch hh), ?_, Nat.zero_le _,
      fun l hl => (nomatch hl), ?_⟩
    · intro i hash hcl
      obtain ⟨x, hx, -⟩ := hcl
      cases hx
    · intro i r l hr
      obtain ⟨x, hx, -⟩ := hr
      cases hx
  · intro w j h _ _
    have hkey : ∀ e ∈ w.hist, hasKey k (w.addJob j) e.tid = hasKey k w e.tid := by
      intro e he
      simp [hasKey, getElem?_append_left (h.started e he)]
    have hlinks : linksCreated k (w.addJob j) = linksCreated k w :=
      filterMap_congr (fun e he => by rw [hkey e he])
    refine ⟨?_, h.free, h.held,
      h.holds, by rw [hlinks]; exact h.single, by rw [hlinks]; exact h.creator, h.seen⟩
    intro e he
    have hlt := h.started e he
    simp only [addJob_jobs, length_append]
    omega
  · intro w i j o ch a s h _ hj hL hex hok
    have he : exec out.links o ch w.db = some (a, s) := hex
    have hi : i < w.jobs.length := (List.getElem?_eq_some_iff.mp hj).1
    have hlive : ∀ r, w.db.keys k = some r → w.db.db.now < r.expiresAt := by
      intro r hr
      simpa [withinTtl, hr] using hok
    cases o with
    | claim => exact h.claim hi hlive he
    | select => exact h.select hi he
    | complete => exact h.complete hi hL.1 hL.2.1 hL.2.2 he
    | release => exact h.release hi hL.1 hL.2.1 hL.2.2 he
    | purge =>
      refine h.plain hi rfl rfl rfl rfl ?_
      simp only [exec] at he
      rcases onKeys_cases he with hstmt | ⟨-, rfl⟩
      · rw [(Prod.mk.inj hstmt).2]
        exact purge_of_live hlive
      · rfl
    | respond =>
      obtain ⟨-, rfl⟩ := call_inj he
      exact h.plain hi rfl rfl rfl rfl rfl
    | db o =>
      have hkeys : s.keys = w.db.keys := by
        simp only [exec] at he
        split at he
        · cases he
        · obtain ⟨r, -, hr⟩ := map_eq_some_iff.mp he
          rw [← (Prod.mk.inj hr).2]
      cases o with
      | createPaymentLink n =>
        refine h.create hi hkeys ?_
        intro hk
        obtain ⟨hnone, hown⟩ := hL n rfl
        simp only [hasKey, hj, decide_eq_true_eq] at hk
        exact ⟨hnone, hown k hk⟩
      | _ => exact h.plain hi rfl rfl rfl rfl (by rw [hkeys])
  · intro w e s h he _
    obtain ⟨db, -, rfl⟩ := map_eq_some_iff.mp he
    exact ⟨h.started, h.free, h.held, h.holds, h.single, h.creator, h.seen⟩

def Answered (r : Response) (tr : List Act) : Prop := ∃ s s', ⟨.respond r, (), s, s'⟩ ∈ tr

theorem claimed_job (hc : ReachAlive out k c) {i : Nat} (h : Claimed k hash (c.world.trace i)) :
    hasKey k c.world i = true ∧ ∃ body, (c.world.jobs[i]?).bind Job.body = some body ∧
    out.sha256 body = hash := by
  obtain ⟨⟨o, a, s, s'⟩, hx, hclaim⟩ := h
  obtain ⟨j, _, hj, -, hL⟩ := (discipline out).allowed_of_mem hc hx
  unfold claimedHash at hclaim
  split at hclaim
  · rename_i heq
    cases heq
    split at hclaim
    · rename_i hk
      subst hk
      cases hclaim
      obtain ⟨hkey, hbody⟩ := hL
      obtain ⟨body, hb, hhash⟩ := map_eq_some_iff.mp hbody
      exact ⟨by simp [hasKey, hj, hkey], body, by rw [hj]; exact hb, hhash⟩
    · cases hclaim
  · cases hclaim

theorem replayed_of_claimed (hc : ReachAlive out k c) {i code : Nat} {l : PaymentLink}
    (hk : hasKey k c.world i = true) (h : Answered (.replayed code l) (c.world.trace i)) :
    ∃ i' body body', Claimed k (out.sha256 body') (c.world.trace i') ∧
      Creates l (c.world.trace i') ∧
      (c.world.jobs[i']?).bind Job.body = some body' ∧ (c.world.jobs[i]?).bind Job.body =
        some body ∧
      out.sha256 body' = out.sha256 body := by
  obtain ⟨s, s', hx⟩ := h
  obtain ⟨j, _, hj, hsub, k', r, hk', hsel, hbody, hl⟩ := (discipline out).allowed_of_mem hc hx
  have hkk : k' = k := by
    simp only [hasKey, hj, decide_eq_true_eq] at hk
    exact some.inj (hk'.symm.trans hk)
  subst hkk
  obtain ⟨x, hxb, hr⟩ := hsel
  obtain ⟨i', hh, hcr⟩ := (oneHolder_reach hc).seen i r l ⟨x, hsub hxb, hr⟩ hl
  obtain ⟨-, body', hb', hhash'⟩ := claimed_job hc (claimed_of_holder hh)
  obtain ⟨body, hb, hhash⟩ := map_eq_some_iff.mp hbody
  refine ⟨i', body, body', ?_, hcr, hb', by rw [hj]; exact hb, hhash'.trans hhash.symm⟩
  rw [hhash']
  exact claimed_of_holder hh

/-- **Idempotent link creation.**  In whatever order requests, with this key or others or none, and
purges make their calls and die, while the key lives: the requests with the key create at most one
link; every answer `201`, first or replayed, carries that link; and a replayed answer goes only to a
request with the body of the request that claimed the key and created the link. -/
theorem link_created_once (hsha : Function.Injective out.sha256) (hc : ReachAlive out k c) :
    (linksCreated k c.world).length ≤ 1 ∧
    (∀ i l, hasKey k c.world i = true →
      (Answered (.created l) (c.world.trace i) ∨
        ∃ code, Answered (.replayed code l) (c.world.trace i)) →
      l ∈ linksCreated k c.world) ∧
    ∀ i l code, hasKey k c.world i = true → Answered (.replayed code l) (c.world.trace i) →
      ∃ i' body, Claimed k (out.sha256 body) (c.world.trace i') ∧ Creates l (c.world.trace i') ∧
        (c.world.jobs[i']?).bind Job.body = some body ∧ (c.world.jobs[i]?).bind Job.body =
          some body := by
  refine ⟨(oneHolder_reach hc).single, ?_, ?_⟩
  · intro i l hk hans
    apply mem_linksCreated.mpr
    rcases hans with ⟨s, s', hx⟩ | ⟨_, hans⟩
    · obtain ⟨j, _, -, hsub, y, hy, hl⟩ := (discipline out).allowed_of_mem hc hx
      exact ⟨i, hk, y, hsub hy, hl⟩
    · obtain ⟨i', _, _, hcl, hcr, -⟩ := replayed_of_claimed hc hk hans
      exact ⟨i', (claimed_job hc hcl).1, hcr⟩
  · intro i l code hk hans
    obtain ⟨i', _, _, hcl, hcr, hb', hb, hhash⟩ := replayed_of_claimed hc hk hans
    obtain rfl := hsha hhash
    exact ⟨i', _, hcl, hcr, hb', hb⟩

/-! ### An example -/

def exampleOut : Outside where
  links := ⟨⟨fun _ => [], fun _ => [], fun _ => []⟩,
    ⟨fun _ => "G", fun _ => some [], fun _ _ => "M", fun _ => none⟩, fun _ => none, 0⟩
  sha256 body := body
  parseOptional body := .ok { name := some body }

def exampleKey : KeyId := ⟨1, createLinkScope, "order-7"⟩

def exampleState : State where
  keys _ := none
  db := ⟨0, 2, [⟨1, "GOWNER", 1, none⟩], [], [], [], [], []⟩

def exampleJob (slug : String) : Job := .createPaymentLink 1 (some "order-7") "Coffee" slug

def retryMoves : List (Move Job Choice Ingest.Env) :=
  [.start (exampleJob "aaaa"), .call 0 (.served 0), .call 0 (.served 0), .call 0 (.served 0),
    .call 0 (.served 0), .call 0 (.served 0), .call 0 (.served 0),
    .start (exampleJob "bbbb"), .call 1 (.served 0), .call 1 (.served 0), .call 1 (.served 0)]

def replayedLink (x : Act) : Option PaymentLink :=
  match x with
  | ⟨.respond (.replayed _ l), _, _, _⟩ => some l
  | _ => none

theorem retry_gets_same_link : ∃ c : Conf, ReachAlive exampleOut exampleKey c ∧
    ∃ l, linksCreated exampleKey c.world = [l] ∧
    ∃ code, Answered (.replayed code l) (c.world.trace 1) := by
  obtain ⟨c, hc, hkey, ⟨o, a, s, s'⟩, hx, l, hr, -⟩ := exists_reach_of_runMovesIf
    (S := system exampleOut) (withinTtl exampleKey) (show Unused exampleKey exampleState from rfl)
    retryMoves (p := fun c => hasKey exampleKey c.world 1 ∧
      ∃ x ∈ c.world.trace 1, ∃ l ∈ replayedLink x, True) (by decide +kernel)
  unfold replayedLink at hr
  split at hr
  · rename_i code _ _ _ _ heq
    cases heq
    cases hr
    have hans : Answered (.replayed code l) (c.world.trace 1) := ⟨s, s', hx⟩
    obtain ⟨hone, hsame, -⟩ := link_created_once (fun _ _ h => h) hc
    have hmem := hsame 1 l hkey (.inr ⟨code, hans⟩)
    obtain ⟨l', hl'⟩ := List.length_eq_one_iff.mp
      (Nat.le_antisymm hone (List.length_pos_of_mem hmem))
    rw [hl'] at hmem
    rw [← List.mem_singleton.mp hmem] at hl'
    exact ⟨c, hc, l, hl', code, hans⟩
  · cases hr

end Octo.Idempotency
