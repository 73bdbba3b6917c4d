import Octo.Ingest.Tick

/-!
# The budget of a pass

`Budgeted` is what every state of a pass keeps: a wallet that has been paged in lies at or before
the cursor, so it is not paged in again; a wallet in flight is in flight once, so its turn tells all
that was done for it; and no request asks for more than is left of the budget.  `remaining` bounds
the steps that are left.
-/

namespace Octo.Ingest

open List

/-! ### The pages that have ended -/

def pagesOf (log : List Page) (id : Uuid) : Nat := log.countP (fun p => p.walletId == id)

def recordsOf (log : List Page) (id : Uuid) : Nat :=
  ((log.filter (fun p => p.walletId == id)).map (·.processed)).sum

def okTotal (log : List Page) : Nat := ((log.filter (·.ok)).map (·.processed)).sum

section

variable (log : List Page) (p : Page) {id : Uuid}

theorem pagesOf_concat_self : pagesOf (log ++ [p]) p.walletId = pagesOf log p.walletId + 1 := by
  simp [pagesOf]

theorem recordsOf_concat_self :
    recordsOf (log ++ [p]) p.walletId = recordsOf log p.walletId + p.processed := by
  simp [recordsOf]

theorem pagesOf_concat_of_ne (h : p.walletId ≠ id) : pagesOf (log ++ [p]) id = pagesOf log id := by
  simp [pagesOf, h]

theorem recordsOf_concat_of_ne (h : p.walletId ≠ id) :
    recordsOf (log ++ [p]) id = recordsOf log id := by
  simp [recordsOf, h]

theorem okTotal_concat : okTotal (log ++ [p]) = okTotal log + if p.ok then p.processed else 0 := by
  cases h : p.ok <;> simp [okTotal, h]

end

/-- The turn counts the pages and records that the log has of its wallet. -/
structure WalletTurn.Tells (turn : WalletTurn) (log : List Page) : Prop where
  pages_eq : turn.pages = pagesOf log turn.walletId
  records_eq : turn.records = recordsOf log turn.walletId

theorem WalletTurn.Tells.concat_of_ne {turn : WalletTurn} {log : List Page} {p : Page}
    (h : turn.Tells log) (hne : p.walletId ≠ turn.walletId) : turn.Tells (log ++ [p]) where
  pages_eq := h.pages_eq.trans (pagesOf_concat_of_ne log p hne).symm
  records_eq := h.records_eq.trans (recordsOf_concat_of_ne log p hne).symm

/-! ### The wallets in flight -/

theorem TickState.count_inFlight (st : TickState) (id : Uuid) :
    st.inFlight.count id = (st.queue.map (·.turn.walletId)).count id +
      (st.running.map (·.turn.walletId)).count id +
      (st.finished.map (·.turn.walletId)).count id := by
  rw [TickState.inFlight, count_append, count_append]

/-- The page that `poll_once` is at is fetched too. -/
def TickState.fetched (st : TickState) (id : Uuid) : Nat :=
  pagesOf st.log id + (st.running.map (·.turn.walletId)).count id

theorem count_map_middle {α : Type} (f : α → Uuid) (before after : List α) (x : α) (id : Uuid) :
    ((before ++ x :: after).map f).count id = ((before ++ after).map f).count id + if f x = id
      then 1 else 0 := by
  simp only [map_append, map_cons, count_append, count_cons, beq_iff_eq]
  omega

/-! ### The pages of wallets -/

variable {w : Wallet}

section

variable {network : String} {now : Time} {b : Backoff} {s : PollDb} {limit : Nat}
  {afterId : Option Uuid}

theorem duePage_ascending :
    ((walletsDueForPollPage network now b s (some limit) afterId).map (·.id)).Pairwise (· < ·) := by
  rw [pairwise_map]
  exact (Keyset.orderBy_sorted (s.unique.filter _)).sublist (take_sublist _ _)

theorem mem_duePage (h : w ∈ walletsDueForPollPage network now b s (some limit) afterId) :
    w ∈ s.db.wallets ∧ ∀ a, afterId = some a → a < w.id := by
  have hrow := mem_filter.mp (Keyset.mem_orderBy.mp (mem_of_mem_take h))
  refine ⟨hrow.1, fun a ha => ?_⟩
  subst ha
  simpa using (Bool.and_eq_true_iff.mp hrow.2).2

end

variable {l : List Nat} {page : List Wallet} {live : Uuid → Bool} {limit : Nat}

theorem length_add_le_of_ascending (h : l.Pairwise (· < ·)) {lo hi : Nat}
    (hlo : ∀ x ∈ l, lo ≤ x) (hhi : ∀ x ∈ l, x < hi) (hle : lo ≤ hi) : lo + l.length ≤ hi := by
  induction l generalizing lo with
  | nil => simpa using hle
  | cons x l ih =>
    have hx := hlo x (mem_cons_self ..)
    have hxhi := hhi x (mem_cons_self ..)
    have hrest := ih h.of_cons (fun y hy => rel_of_pairwise_cons h hy)
      (forall_mem_cons.mp hhi).2 hxhi
    rw [length_cons]
    omega

theorem le_getLast_of_ascending (h : l.Pairwise (· < ·)) {last : Nat}
    (hlast : l.getLast? = some last) : ∀ x ∈ l, x ≤ last := by
  obtain ⟨_, rfl⟩ := getLast?_eq_some_iff.mp hlast
  intro x hx
  obtain hx | hx := mem_append.mp hx
  · exact Nat.le_of_lt ((pairwise_append.mp h).2.2 x hx last (mem_singleton_self _))
  · exact Nat.le_of_eq (mem_singleton.mp hx)

theorem getLast?_ids (h : page ≠ []) : (page.map (·.id)).getLast? = some (page.getLast h).id := by
  rw [getLast?_map, getLast?_eq_some_getLast h]
  rfl

theorem TickState.afterId_fanOut (st : TickState) (h : page ≠ []) :
    (st.fanOut limit page live).afterId = some (page.getLast h).id := by
  show page.getLast?.map (·.id) = _
  rw [← getLast?_map, getLast?_ids h]

/-! ### The invariant -/

/-- The invariant of a tick. -/
structure Budgeted (st : TickState) : Prop where
  started_nodup : st.started.Nodup
  /-- While wallets are paged in, those that were lie at or before the cursor. -/
  started_le : st.phase = .fetching ∨ st.phase = .backpressure →
    ∀ id ∈ st.started, ∃ a, st.afterId = some a ∧ id ≤ a
  flies_once : ∀ id, st.inFlight.count id ≤ st.started.count id
  task : ∀ t ∈ st.queue ++ st.running,
    t.turn.Tells st.log ∧ t.turn.pages < maxPagesPerTick ∧
    t.turn.records + t.limit ≤ maxRecordsPerWalletPerTick
  joined : ∀ j ∈ st.finished, ∀ n, j.polled = .ok n → j.turn.Tells st.log
  pages_le : ∀ id, pagesOf st.log id ≤ maxPagesPerTick
  records_le : ∀ id, recordsOf st.log id ≤ maxRecordsPerWalletPerTick
  fresh : ∀ id, id ∉ st.started → pagesOf st.log id = 0 ∧ recordsOf st.log id = 0
  total_eq : st.total + (st.finished.map (·.polled.counted)).sum = okTotal st.log
  returned : ∀ r, st.phase = .returned r → st.tasks = 0 ∧ ∀ n, r = .ok n → n = st.total

variable {before after : List PageTask} {j : Joined} {k : Nat}

namespace Budgeted

variable {c : TickCall} {st st' : TickState}

theorem start : Budgeted .start where
  started_nodup := nodup_nil
  started_le := by simp [TickState.start]
  flies_once := by simp [TickState.start, TickState.inFlight]
  task := by simp [TickState.start]
  joined := by simp [TickState.start]
  pages_le := by simp [TickState.start, pagesOf]
  records_le := by simp [TickState.start, recordsOf]
  fresh := by simp [TickState.start, pagesOf, recordsOf]
  total_eq := by simp [TickState.start, okTotal]
  returned := by simp [TickState.start]

section

variable (h : Budgeted st)
include h

theorem count_le_one (id : Uuid) : st.inFlight.count id ≤ 1 :=
  (h.flies_once id).trans (nodup_iff_count_le_one.mp h.started_nodup id)

variable {t : PageTask}

theorem others (hr : st.running = before ++ t :: after) :
    (∀ t' ∈ st.queue ++ (before ++ after), t.turn.walletId ≠ t'.turn.walletId) ∧
      ∀ j ∈ st.finished, t.turn.walletId ≠ j.turn.walletId := by
  have hone := h.count_le_one t.turn.walletId
  rw [st.count_inFlight, hr, count_map_middle, if_pos rfl] at hone
  constructor
  · intro t' ht' heq
    have hpos : 0 < ((st.queue ++ (before ++ after)).map (·.turn.walletId)).count t.turn.walletId :=
      count_pos_iff.mpr (mem_map.mpr ⟨t', ht', heq.symm⟩)
    rw [map_append, count_append] at hpos
    omega
  · intro j hj heq
    have hpos : 0 < (st.finished.map (·.turn.walletId)).count t.turn.walletId :=
      count_pos_iff.mpr (mem_map.mpr ⟨j, hj, heq.symm⟩)
    omega

theorem of_phase {phase : Phase}
    (hle : phase = .fetching ∨ phase = .backpressure → st.phase = .fetching ∨
      st.phase = .backpressure)
    (hreturned : ∀ r, phase = .returned r → st.tasks = 0 ∧ ∀ n, r = .ok n → n = st.total) :
    Budgeted { st with phase := phase } :=
  { h with
    started_le := fun hp => h.started_le (hle hp)
    returned := hreturned }

/-! #### A page of wallets -/

theorem not_started (hphase : st.phase = .fetching)
    (hbeyond : ∀ w ∈ page, ∀ a, st.afterId = some a → a < w.id) (hw : w ∈ page) :
    w.id ∉ st.started := by
  intro hmem
  obtain ⟨a, ha, hle⟩ := h.started_le (.inl hphase) w.id hmem
  have hlt := hbeyond w hw a ha
  exact Nat.not_lt.mpr hle hlt

theorem of_fanOut (hphase : st.phase = .fetching) (hasc : (page.map (·.id)).Pairwise (· < ·))
    (hbeyond : ∀ w ∈ page, ∀ a, st.afterId = some a → a < w.id) :
    Budgeted (st.fanOut limit page live) := by
  have hnew : ∀ id ∈ (page.filter (fun w => !live w.id)).map (·.id), id ∉ st.started := by
    intro id hid
    obtain ⟨w, hw, rfl⟩ := mem_map.mp hid
    exact h.not_started hphase hbeyond (mem_of_mem_filter hw)
  have hsub : ((page.filter (fun w => !live w.id)).map (·.id)).Sublist (page.map (·.id)) :=
    filter_sublist.map _
  refine ⟨?_, fun hp id hid => ?_, fun id => ?_, fun t ht => ?_, h.joined, h.pages_le, h.records_le,
    fun id hid => ?_, h.total_eq, fun r hr => ?_⟩
  · refine nodup_append.mpr ⟨h.started_nodup, (hasc.sublist hsub).imp Nat.ne_of_lt, ?_⟩
    rintro id hid _ hid' rfl
    exact hnew id hid' hid
  · -- the last page is not short, so there is a last wallet
    have hfull : ¬ page.length < fanoutPageSize := by
      intro hshort
      have hdrain : (st.fanOut limit page live).phase = .draining none := if_pos hshort
      rw [hdrain] at hp
      simp at hp
    have hne : page ≠ [] := by
      rintro rfl
      exact hfull (by decide)
    have hle := le_getLast_of_ascending hasc (getLast?_ids hne)
    refine ⟨(page.getLast hne).id, st.afterId_fanOut hne, ?_⟩
    obtain hold | hid := mem_append.mp hid
    · obtain ⟨a, ha, hida⟩ := h.started_le (.inl hphase) id hold
      exact hida.trans (Nat.le_of_lt (hbeyond _ (getLast_mem hne) a ha))
    · exact hle id (hsub.subset hid)
  · have hold := h.flies_once id
    rw [TickState.count_inFlight] at hold ⊢
    simp only [TickState.fanOut, map_append, map_map, count_append]
    have hcomp : ((fun t : PageTask => t.turn.walletId) ∘ fun w : Wallet =>
        (⟨⟨w.id, 0, 0⟩, min limit (maxRecordsPerWalletPerTick - 0)⟩ : PageTask)) = (·.id) := rfl
    rw [hcomp]
    omega
  · rw [show (st.fanOut limit page live).queue = st.queue ++ _ from rfl, append_assoc] at ht
    obtain hold | ht := mem_append.mp ht
    · exact h.task t (mem_append_left _ hold)
    obtain hnewTask | hrun := mem_append.mp ht
    · obtain ⟨w, hw, rfl⟩ := mem_map.mp hnewTask
      obtain ⟨hpages, hrecords⟩ := h.fresh w.id (hnew w.id (mem_map_of_mem hw))
      refine ⟨⟨hpages.symm, hrecords.symm⟩, show 0 < maxPagesPerTick by decide, ?_⟩
      show 0 + min limit (maxRecordsPerWalletPerTick - 0) ≤ _
      omega
    · exact h.task t (mem_append_right _ hrun)
  · exact h.fresh id (fun hmem => hid (mem_append_left _ hmem))
  · have hne : (st.fanOut limit page live).phase ≠ .returned r := by
      show (if page.length < fanoutPageSize then Phase.draining none else .backpressure) ≠ _
      split <;> simp
    exact absurd hr hne

/-! #### The tasks -/

theorem of_acquire {rest : List PageTask} (hq : st.queue = t :: rest) :
    Budgeted { st with queue := rest, running := st.running ++ [t] } := by
  refine { h with
    flies_once := fun id => ?_, task := fun t' ht' => h.task t' ?_, returned := fun r hr => ?_ }
  · have hold := h.flies_once id
    rw [TickState.count_inFlight] at hold ⊢
    rw [hq] at hold
    simp only [map_cons, map_append, count_cons, count_append, map_nil, count_nil] at hold ⊢
    omega
  · rw [hq]
    simp only [mem_append, mem_cons] at ht' ⊢
    tauto
  · have htasks := (h.returned r hr).1
    simp [TickState.tasks, hq] at htasks

theorem of_complete {p : Polled} (hr : st.running = before ++ t :: after)
    (hp : p.processed ≤ t.limit) : Budgeted (st.complete t p (before ++ after)) := by
  obtain ⟨hothers, hjoined⟩ := h.others hr
  obtain ⟨htells, hpages, hrecords⟩ := h.task t (by simp [hr])
  set page : Page := ⟨t.turn.walletId, p.processed, p.isOk⟩ with hpage
  have hself : pagesOf (st.log ++ [page]) t.turn.walletId = t.turn.pages + 1 := by
    rw [pagesOf_concat_self, htells.pages_eq]
  have hselfRecords : recordsOf (st.log ++ [page]) t.turn.walletId = t.turn.records +
      p.processed := by
    rw [recordsOf_concat_self, htells.records_eq]
  have hstarted : t.turn.walletId ∈ st.started := by
    refine count_pos_iff.mp (Nat.lt_of_lt_of_le ?_ (h.flies_once _))
    rw [st.count_inFlight, hr, count_map_middle, if_pos rfl]
    omega
  refine ⟨h.started_nodup, h.started_le, fun id => ?_, fun t' ht' => ?_, fun j hj => ?_,
    fun id => ?_, fun id => ?_, fun id hid => ?_, ?_, fun r hret => ?_⟩
  · have hold := h.flies_once id
    rw [TickState.count_inFlight] at hold ⊢
    rw [hr, count_map_middle] at hold
    show _ + _ + ((st.finished ++ [t.done p]).map (·.turn.walletId)).count id ≤ _
    rw [map_append, count_append]
    simp only [TickState.complete, map_cons, map_nil, count_cons, count_nil, PageTask.done,
      beq_iff_eq]
    omega
  · have hmem : t' ∈ st.queue ++ st.running := by
      rw [hr]
      simp only [TickState.complete, mem_append] at ht' ⊢
      tauto
    obtain ⟨htells', hrest⟩ := h.task t' hmem
    exact ⟨htells'.concat_of_ne (hothers t' ht'), hrest⟩
  · obtain hold | hnew := mem_append.mp hj
    · exact fun n hn => (h.joined j hold n hn).concat_of_ne (hjoined j hold)
    · obtain rfl := mem_singleton.mp hnew
      refine fun n hn => ⟨hself.symm, ?_⟩
      have hcounted : p.counted = p.processed := by
        rw [show p = .ok n from hn]
        rfl
      show t.turn.records + p.counted = _
      rw [hcounted]
      exact hselfRecords.symm
  · by_cases hid : t.turn.walletId = id
    · subst hid
      show pagesOf (st.log ++ [page]) _ ≤ _
      rw [hself]
      exact hpages
    · show pagesOf (st.log ++ [page]) _ ≤ _
      rw [pagesOf_concat_of_ne _ _ hid]
      exact h.pages_le id
  · by_cases hid : t.turn.walletId = id
    · subst hid
      show recordsOf (st.log ++ [page]) _ ≤ _
      omega
    · show recordsOf (st.log ++ [page]) _ ≤ _
      rw [recordsOf_concat_of_ne _ _ hid]
      exact h.records_le id
  · have hne : page.walletId ≠ id := by
      rintro rfl
      exact hid hstarted
    show pagesOf (st.log ++ [page]) _ = 0 ∧ recordsOf (st.log ++ [page]) _ = 0
    rw [pagesOf_concat_of_ne _ _ hne, recordsOf_concat_of_ne _ _ hne]
    exact h.fresh id hid
  · show st.total + ((st.finished ++ [t.done p]).map (·.polled.counted)).sum = okTotal
      (st.log ++ [page])
    rw [okTotal_concat, ← h.total_eq, map_append]
    cases p <;> simp [PageTask.done, Polled.counted, Polled.processed, Polled.isOk, hpage,
      Nat.add_assoc]
  · have htasks := (h.returned r hret).1
    simp [TickState.tasks, hr] at htasks

/-! #### `settle` -/

theorem of_dropped {before after : List Joined} (hf : st.finished = before ++ j :: after) :
    Budgeted { st with finished := before ++ after, total := st.total + j.polled.counted } := by
  refine { h with
    flies_once := fun id => ?_, joined := fun j' hj' => h.joined j' ?_, total_eq := ?_
    returned := fun r hr => ?_ }
  · have hold := h.flies_once id
    rw [TickState.count_inFlight] at hold ⊢
    rw [hf, count_map_middle] at hold
    show (st.queue.map (·.turn.walletId)).count id + (st.running.map (·.turn.walletId)).count id +
      ((before ++ after).map (·.turn.walletId)).count id ≤ st.started.count id
    omega
  · rw [hf]
    simp only [mem_append] at hj' ⊢
    tauto
  · have hold := h.total_eq
    rw [hf] at hold
    simp only [map_append, map_cons, sum_append, sum_cons] at hold ⊢
    omega
  · have htasks := (h.returned r hr).1
    simp [TickState.tasks, hf] at htasks

end

theorem requeues_spec (h : j.requeues = true) :
    (∃ n, j.polled = .ok n) ∧ j.turn.pages < maxPagesPerTick ∧
    j.turn.records < maxRecordsPerWalletPerTick := by
  unfold Joined.requeues at h
  split at h
  case h_1 n hn =>
    simp only [Bool.and_eq_true, decide_eq_true_eq] at h
    exact ⟨⟨n, hn⟩, h.1.2, h.2⟩
  case h_2 => cases h

theorem of_settle (h : Budgeted st) {before after : List Joined}
    (hf : st.finished = before ++ j :: after) : Budgeted (st.settle limit j (before ++ after)) := by
  have hdropped := h.of_dropped hf
  rw [TickState.settle]
  split
  case isFalse => exact hdropped
  case isTrue hrequeues =>
    obtain ⟨⟨n, hn⟩, hpages, hrecords⟩ := requeues_spec hrequeues
    have htells := h.joined j (by simp [hf]) n hn
    refine { hdropped with
      flies_once := fun id => ?_, task := fun t ht => ?_, returned := fun r hr => ?_ }
    · have hold := h.flies_once id
      rw [TickState.count_inFlight] at hold ⊢
      rw [hf] at hold
      simp only [TickState.spawnPage, map_append, map_cons, map_nil, count_append, count_cons,
        count_nil, beq_iff_eq] at hold ⊢
      omega
    · simp only [TickState.spawnPage, append_assoc, mem_append, mem_singleton] at ht
      obtain hq | rfl | hr := ht
      · exact h.task t (mem_append_left _ hq)
      · refine ⟨htells, hpages, ?_⟩
        show j.turn.records + min limit (maxRecordsPerWalletPerTick - j.turn.records) ≤ _
        omega
      · exact h.task t (mem_append_right _ hr)
    · have htasks := (h.returned r hr).1
      simp [TickState.tasks, hf] at htasks

/-! #### Steps and runs -/

/-- **A step keeps the budget.** -/
theorem of_step (h : Budgeted st) (hstep : TickStep c st st') : Budgeted st' := by
  cases hstep with
  | fetch s now live hphase =>
    exact h.of_fanOut hphase duePage_ascending (fun w hw => (mem_duePage hw).2)
  | fetchError => exact h.of_phase (by simp) (by simp)
  | resume hphase => exact h.of_phase (fun _ => .inr hphase) (by simp)
  | join _ hf => exact h.of_settle hf
  | @finish e hphase htasks =>
    refine h.of_phase (by simp) (fun r hr => ⟨htasks, fun n hn => ?_⟩)
    obtain rfl := Phase.returned.inj hr
    cases e with
    | none => exact (Except.ok.inj hn).symm
    | some => cases hn
  | acquire hq => exact h.of_acquire hq
  | complete p hr hp => exact h.of_complete hr hp

/-- **So does a run.** -/
theorem of_run (h : TickRun c k st) : Budgeted st := by
  induction h with
  | start => exact start
  | step _ hstep ih => exact ih.of_step hstep

theorem inFlight_nodup (h : Budgeted st) : st.inFlight.Nodup :=
  nodup_iff_count_le_one.mpr h.count_le_one

theorem fetched_le (h : Budgeted st) (id : Uuid) : st.fetched id ≤ maxPagesPerTick := by
  rw [TickState.fetched]
  have hone := h.count_le_one id
  rw [st.count_inFlight] at hone
  by_cases hmem : id ∈ st.running.map (·.turn.walletId)
  · obtain ⟨t, ht, rfl⟩ := mem_map.mp hmem
    obtain ⟨htells, hpages, -⟩ := h.task t (mem_append_right _ ht)
    rw [htells.pages_eq] at hpages
    omega
  · rw [count_eq_zero_of_not_mem hmem]
    exact h.pages_le id

end Budgeted

/-! ### Every pass ends -/

def WalletTurn.rest (turn : WalletTurn) : Nat := maxPagesPerTick - turn.pages

def TickState.idsLeft (st : TickState) : Nat :=
  match st.phase with
  | .fetching | .backpressure => uuidBound - st.afterId.elim 0 (· + 1)
  | _ => 0

/-- The part of the measure that a change of phase takes down. -/
def Phase.weight : Phase → Nat
  | .fetching => 3
  | .backpressure => 4
  | .draining _ => 1
  | .returned _ => 0

/-- A bound on the steps that are left: three for each page that a wallet can still have, up to
forty for each id. -/
def TickState.remaining (st : TickState) : Nat :=
  40 * st.idsLeft + (st.queue.map (fun t => 3 * t.turn.rest)).sum +
    (st.running.map (fun t => 3 * t.turn.rest - 1)).sum +
    (st.finished.map (fun j => 3 * j.turn.rest + 1)).sum + st.phase.weight

section

variable {c : TickCall} {st st' : TickState} {t : PageTask}

theorem idsLeft_fanOut (hphase : st.phase = .fetching) (hasc : (page.map (·.id)).Pairwise (· < ·))
    (hbeyond : ∀ w ∈ page, ∀ a, st.afterId = some a → a < w.id)
    (hbound : ∀ w ∈ page, w.id < uuidBound) :
    (st.fanOut limit page live).idsLeft + page.length ≤ st.idsLeft := by
  have hids : st.idsLeft = uuidBound - st.afterId.elim 0 (· + 1) := by
    rw [TickState.idsLeft, hphase]
  have hlow : ∀ x ∈ page.map (·.id), st.afterId.elim 0 (· + 1) ≤ x := by
    intro x hx
    obtain ⟨w, hw, rfl⟩ := mem_map.mp hx
    cases ha : st.afterId with
    | none => exact Nat.zero_le _
    | some a => exact hbeyond w hw a ha
  by_cases hnil : page = []
  · subst hnil
    have hdrain : (st.fanOut limit [] live).idsLeft = 0 := rfl
    exact Nat.zero_le _
  have hlastBound := Nat.succ_le_of_lt (hbound _ (getLast_mem hnil))
  have hcount := length_add_le_of_ascending hasc hlow
    (fun x hx => Nat.lt_succ_of_le (le_getLast_of_ascending hasc (getLast?_ids hnil) x hx))
    (Nat.le_succ_of_le (hlow _ (mem_map_of_mem (getLast_mem hnil))))
  rw [length_map] at hcount
  have hnext : (st.fanOut limit page live).idsLeft ≤ uuidBound - ((page.getLast hnil).id + 1) := by
    rw [TickState.idsLeft, st.afterId_fanOut hnil]
    split
    · exact Nat.le_refl _
    · exact Nat.le_refl _
    · exact Nat.zero_le _
  omega

theorem sum_map_const_le : (((page.filter (fun w => !live w.id)).map (fun w =>
      (⟨⟨w.id, 0, 0⟩, min limit (maxRecordsPerWalletPerTick - 0)⟩ : PageTask))).map
        (fun t => 3 * t.turn.rest)).sum ≤
      30 * page.length := by
  have hfilter := length_filter_le (fun w : Wallet => !live w.id) page
  have hconst : ∀ l : List Wallet, ((l.map (fun w =>
      (⟨⟨w.id, 0, 0⟩, min limit (maxRecordsPerWalletPerTick - 0)⟩ : PageTask))).map
        (fun t => 3 * t.turn.rest)).sum =
      30 * l.length := by
    intro l
    induction l with
    | nil => rfl
    | cons w l ih =>
      rw [map_cons, map_cons, sum_cons, ih, length_cons]
      show 30 + 30 * l.length = _
      omega
  rw [hconst]
  omega

theorem remaining_fanOut (hphase : st.phase = .fetching) (hasc : (page.map (·.id)).Pairwise (· < ·))
    (hbeyond : ∀ w ∈ page, ∀ a, st.afterId = some a → a < w.id)
    (hbound : ∀ w ∈ page, w.id < uuidBound) :
    (st.fanOut limit page live).remaining < st.remaining := by
  have hids := @idsLeft_fanOut page live limit st hphase hasc hbeyond hbound
  have hnew := @sum_map_const_le page live limit
  have hqueue : ((st.fanOut limit page live).queue.map (fun t => 3 * t.turn.rest)).sum ≤
      (st.queue.map (fun t => 3 * t.turn.rest)).sum + 30 * page.length := by
    show ((st.queue ++ _).map _).sum ≤ _
    rw [map_append, sum_append]
    omega
  have hrunning : (st.fanOut limit page live).running = st.running := rfl
  have hfinished : (st.fanOut limit page live).finished = st.finished := rfl
  have hweight : st.phase.weight = 3 := by rw [hphase]; rfl
  have hphase' : (st.fanOut limit page live).phase.weight ≤ 2 + page.length := by
    show (if page.length < fanoutPageSize then Phase.draining none else .backpressure).weight ≤ _
    split
    case isTrue => exact Nat.le_trans (show 1 ≤ 2 by decide) (Nat.le_add_right _ _)
    case isFalse hfull =>
      have hsize : 500 ≤ page.length := Nat.not_lt.mp hfull
      show 4 ≤ _
      omega
  rw [TickState.remaining, TickState.remaining, hrunning, hfinished]
  omega

theorem remaining_settle {before after : List Joined} (hf : st.finished = before ++ j :: after) :
    (st.settle limit j (before ++ after)).remaining < st.remaining := by
  have hfinished : (st.finished.map (fun j => 3 * j.turn.rest + 1)).sum =
      ((before ++ after).map (fun j => 3 * j.turn.rest + 1)).sum + (3 * j.turn.rest + 1) := by
    rw [hf]
    simp only [map_append, map_cons, sum_append, sum_cons]
    omega
  rw [TickState.settle]
  split
  · simp only [TickState.remaining, TickState.idsLeft, TickState.spawnPage, hfinished, map_append,
      sum_append, map_cons, map_nil, sum_cons, sum_nil]
    omega
  · simp only [TickState.remaining, TickState.idsLeft]
    omega

theorem remaining_acquire (h : Budgeted st) {rest : List PageTask} (hq : st.queue = t :: rest) :
    TickState.remaining { st with queue := rest, running := st.running ++ [t] } < st.remaining := by
  have hpages := (h.task t (by simp [hq])).2.1
  have hrest : 1 ≤ t.turn.rest := Nat.le_sub_of_add_le' hpages
  simp only [TickState.remaining, TickState.idsLeft, hq, map_append, map_cons, map_nil, sum_append,
    sum_cons, sum_nil]
  omega

theorem remaining_complete (h : Budgeted st) {p : Polled} (hr : st.running = before ++ t :: after) :
    (st.complete t p (before ++ after)).remaining < st.remaining := by
  have hpages := (h.task t (by simp [hr])).2.1
  have hrest : (t.done p).turn.rest + 1 = t.turn.rest := by
    show maxPagesPerTick - (t.turn.pages + 1) + 1 = maxPagesPerTick - t.turn.pages
    omega
  simp only [TickState.remaining, TickState.idsLeft, TickState.complete, hr, map_append, map_cons,
    map_nil, sum_append, sum_cons, sum_nil]
  omega

theorem remaining_lt (h : Budgeted st) (hstep : TickStep c st st') :
    st'.remaining < st.remaining := by
  cases hstep with
  | fetch s now live hphase hids =>
    exact remaining_fanOut hphase duePage_ascending (fun w hw => (mem_duePage hw).2)
      (fun w hw => hids w (mem_duePage hw).1)
  | fetchError e hphase | resume hphase | finish hphase =>
    simp only [TickState.remaining, TickState.idsLeft, Phase.weight, hphase]
    omega
  | join _ hf => exact remaining_settle hf
  | acquire hq => exact remaining_acquire h hq
  | complete p hr => exact remaining_complete h hr

theorem run_le (h : TickRun c k st) : k + st.remaining ≤ TickState.start.remaining := by
  induction h with
  | start => exact Nat.le_of_eq (Nat.zero_add _)
  | step hrun hstep =>
    have hlt := remaining_lt (Budgeted.of_run hrun) hstep
    omega

/-! ### A pass can go on -/

def noWallets : PollDb :=
  ⟨⟨0, 0, [], [], [], [], [], []⟩, fun _ => "", fun _ => false, List.Pairwise.nil⟩

theorem task_progress (hpermits : 1 ≤ c.permits) (htasks : 0 < st.tasks)
    (hjoin : (st.phase = .backpressure ∧ fanoutPageSize < st.tasks) ∨
      (∃ e, st.phase = .draining e)) : ∃ st', TickStep c st st' := by
  cases hf : st.finished with
  | cons j after => exact ⟨_, @TickStep.join c st [] after j hjoin hf⟩
  | nil =>
    cases hr : st.running with
    | cons t after => exact ⟨_, @TickStep.complete c st [] after t (.ok 0) hr (Nat.zero_le _)⟩
    | nil =>
      cases hq : st.queue with
      | cons => exact ⟨_, .acquire hq (by rw [hr]; exact hpermits)⟩
      | nil => simp [TickState.tasks, hf, hr, hq] at htasks

theorem progress (hpermits : 1 ≤ c.permits) (st : TickState) :
    (∃ r, st.phase = .returned r) ∨ ∃ st', TickStep c st st' := by
  cases hphase : st.phase with
  | fetching => exact .inr ⟨_, .fetch noWallets 0 (fun _ => false) hphase (forall_mem_nil _)⟩
  | backpressure =>
    by_cases hroom : st.tasks ≤ fanoutPageSize
    · exact .inr ⟨_, .resume hphase hroom⟩
    · have hmany : fanoutPageSize < st.tasks := Nat.lt_of_not_le hroom
      exact .inr (task_progress hpermits (Nat.zero_lt_of_lt hmany) (.inl ⟨hphase, hmany⟩))
  | draining e =>
    by_cases htasks : st.tasks = 0
    · exact .inr ⟨_, .finish hphase htasks⟩
    · exact .inr (task_progress hpermits (Nat.pos_of_ne_zero htasks) (.inr ⟨e, hphase⟩))
  | returned r => exact .inl ⟨r, rfl⟩

end

/-- **The budget of a tick.**  The number of steps of a pass is bounded, and a pass that cannot go
on has returned; so every pass returns.  In every state of it no wallet has been started twice or is
in flight twice, no wallet has had more than ten pages fetched or five hundred records processed,
and a total that is returned is that of the pages without an error. -/
theorem tick_budget (c : TickCall) (hpermits : 1 ≤ c.permits) :
    (∃ bound, ∀ k st, TickRun c k st → k ≤ bound) ∧
      ∀ k st, TickRun c k st →
        ((∃ r, st.phase = .returned r) ∨ ∃ st', TickStep c st st') ∧
        st.started.Nodup ∧
        st.inFlight.Nodup ∧
        (∀ id, st.fetched id ≤ 10) ∧
        (∀ id, recordsOf st.log id ≤ 500) ∧
        ∀ total, st.phase = .returned (.ok total) → total = okTotal st.log := by
  refine ⟨⟨TickState.start.remaining, fun k st hrun => ?_⟩, fun k st hrun => ?_⟩
  · have hle := run_le hrun
    omega
  have h := Budgeted.of_run hrun
  refine ⟨progress hpermits st, h.started_nodup, h.inFlight_nodup, h.fetched_le, h.records_le,
    fun total htotal => ?_⟩
  obtain ⟨htasks, hr⟩ := h.returned _ htotal
  have hfinished : st.finished = [] := by
    rw [TickState.tasks] at htasks
    exact List.eq_nil_of_length_eq_zero (by omega)
  have hsum := h.total_eq
  rw [hfinished, List.map_nil, List.sum_nil] at hsum
  exact (hr total rfl).trans hsum

def exampleCall : TickCall := ⟨"testnet", 300, 20⟩

theorem exampleRun : ∃ st, TickRun exampleCall 8 st ∧ st.phase = .returned (.ok 3) ∧
    st.log = [⟨1, 3, true⟩, ⟨2, 1, false⟩] := by
  refine ⟨_, .step (.step (.step (.step (.step (.step (.step (.step .start
    (.fetch exampleStart 5 (fun _ => false) rfl (by decide)))
    (.acquire rfl (by decide)))
    (.acquire rfl (by decide)))
    (@TickStep.complete _ _ [] _ _ (.ok 3) rfl (by decide)))
    (@TickStep.complete _ _ [] _ _ (.failed 1) rfl (by decide)))
    (@TickStep.join _ _ [] _ _ (.inr ⟨none, rfl⟩) rfl))
    (@TickStep.join _ _ [] _ _ (.inr ⟨none, rfl⟩) rfl))
    (.finish rfl rfl), rfl, rfl⟩

theorem exampleCall_total :
    ∃ st, TickRun exampleCall 8 st ∧ st.phase = .returned (.ok 3) ∧ 3 = okTotal st.log := by
  obtain ⟨st, hrun, hreturned, -⟩ := exampleRun
  exact ⟨st, hrun, hreturned,
    ((tick_budget exampleCall (by decide)).2 8 st hrun).2.2.2.2.2 3 hreturned⟩

end Octo.Ingest
