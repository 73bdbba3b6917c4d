import Mathlib.Order.WellFoundedSet

/-!
# Keyset pagination

A list of rows is read page by page while the state it is in changes.  Each read is given a cursor,
the mark of the last row of the page before, and answers with a page and whether there may be more.
The rows have keys in a linear order, and the answers follow it: a page is a prefix of the rows
beyond the last key (`Serves`).
-/

namespace Keyset

open List

variable {σ α γ κ : Type*}

section

variable (mark : α → γ) (fetch : σ → Option γ → List α × Bool) (s : Nat → σ)

/-- The cursor a reader sends with its `n`-th request. -/
def cursor : Nat → Option γ
  | 0 => none
  | n + 1 => (fetch (s n) (cursor n)).1.getLast?.map mark

def page (n : Nat) : List α := (fetch (s n) (cursor mark fetch s n)).1

def more (n : Nat) : Bool := (fetch (s n) (cursor mark fetch s n)).2

def returned (n : Nat) : List α := (List.range n).flatMap (page mark fetch s)

def Reached (n : Nat) : Prop := ∀ m < n, more mark fetch s m = true

def EndsAt (n : Nat) : Prop := Reached mark fetch s n ∧ more mark fetch s n = false

end

section

variable {mark : α → γ} {fetch : σ → Option γ → List α × Bool} {s : Nat → σ} {n N : Nat}

@[simp] theorem returned_zero : returned mark fetch s 0 = [] := rfl

theorem returned_succ (n : Nat) :
    returned mark fetch s (n + 1) = returned mark fetch s n ++ page mark fetch s n := by
  simp [returned, range_succ]

theorem Reached.prev (h : Reached mark fetch s (n + 1)) : Reached mark fetch s n :=
  fun m hm => h m (Nat.lt_succ_of_lt hm)

theorem Reached.of_le {m : Nat} (h : Reached mark fetch s n) (hm : m ≤ n) :
    Reached mark fetch s m :=
  fun i hi => h i (Nat.lt_of_lt_of_le hi hm)

theorem reached_of_not_endsAt (h : ∀ n, ¬ EndsAt mark fetch s n) (n : Nat) :
    Reached mark fetch s n := by
  induction n with
  | zero => exact fun m hm => absurd hm (Nat.not_lt_zero m)
  | succ n ih =>
    intro m hm
    rcases Nat.lt_succ_iff_lt_or_eq.mp hm with hlt | rfl
    · exact ih m hlt
    · cases hmore : more mark fetch s m with
      | true => rfl
      | false => exact absurd ⟨ih, hmore⟩ (h m)

end

/-! ### Reading in the order of the keys -/

section

variable [LinearOrder κ] (key : α → κ)

def beyond (bound : Option κ) (r : α) : Bool := bound.all (fun k => decide (k < key r))

section

variable (mark : α → γ) (fetch : σ → Option γ → List α × Bool) (s : Nat → σ) (rows : σ → List α)

def bound : Nat → Option κ
  | 0 => none
  | n + 1 => (page mark fetch s n).getLast?.map key

def rest (n : Nat) : List α := (rows (s n)).filter (beyond key (bound key mark fetch s n))

/-- Pages are cut off the front of the rows that are left. -/
structure Serves : Prop where
  sorted : ∀ n, (rows (s n)).Pairwise (fun r r' => key r < key r')
  page_isPrefix : ∀ n, Reached mark fetch s n → page mark fetch s n <+: rest key mark fetch s rows n
  last : ∀ n, Reached mark fetch s n → more mark fetch s n = false →
    page mark fetch s n = rest key mark fetch s rows n
  progress : ∀ n, Reached mark fetch s n → more mark fetch s n = true → page mark fetch s n ≠ []

end

variable {key} {mark : α → γ} {fetch : σ → Option γ → List α × Bool} {s : Nat → σ}
  {rows : σ → List α} {n N : Nat}

namespace Serves

variable (h : Serves key mark fetch s rows)

include h

theorem rest_sorted (n : Nat) :
    (rest key mark fetch s rows n).Pairwise (fun r r' => key r < key r') :=
  (h.sorted n).filter _

theorem page_sorted (hn : Reached mark fetch s n) :
    (page mark fetch s n).Pairwise (fun r r' => key r < key r') :=
  (h.rest_sorted n).sublist (h.page_isPrefix n hn).sublist

variable {r : α} {k : κ}

theorem mem_rest_of_mem_page (hn : Reached mark fetch s n) (hr : r ∈ page mark fetch s n) :
    r ∈ rest key mark fetch s rows n :=
  (h.page_isPrefix n hn).subset hr

theorem bound_lt (hn : Reached mark fetch s n) (hr : r ∈ page mark fetch s n)
    (hk : bound key mark fetch s n = some k) : k < key r := by
  have hmem := h.mem_rest_of_mem_page hn hr
  simpa [rest, beyond, hk] using (mem_filter.mp hmem).2

theorem bound_succ (hn : Reached mark fetch s (n + 1)) :
    ∃ front r, page mark fetch s n = front ++ [r] ∧ bound key mark fetch s (n + 1) = some (key r) ∧
      ∀ r' ∈ page mark fetch s n, key r' ≤ key r := by
  have hne := h.progress n hn.prev (hn n (Nat.lt_succ_self n))
  obtain ⟨front, r, hpage⟩ := eq_nil_or_concat' (page mark fetch s n) |>.resolve_left hne
  refine ⟨front, r, hpage, ?_, fun r' hr' => ?_⟩
  · simp [bound, hpage]
  · have hsorted := h.page_sorted hn.prev
    rw [hpage] at hsorted hr'
    rcases mem_append.mp hr' with hr' | hr'
    · exact (pairwise_append.mp hsorted).2.2 r' hr' r mem_cons_self |>.le
    · exact (mem_singleton.mp hr') ▸ le_rfl

theorem le_bound (hn : Reached mark fetch s n) (hr : r ∈ returned mark fetch s n) :
    ∃ k, bound key mark fetch s n = some k ∧ key r ≤ k := by
  induction n with
  | zero => cases hr
  | succ n ih =>
    obtain ⟨_, last, hpage, hbound, hle⟩ := h.bound_succ hn
    refine ⟨key last, hbound, ?_⟩
    rw [returned_succ] at hr
    rcases mem_append.mp hr with hr | hr
    · obtain ⟨k, hk, hrk⟩ := ih hn.prev hr
      have hlast : last ∈ page mark fetch s n := by simp [hpage]
      exact hrk.trans (h.bound_lt hn.prev hlast hk).le
    · exact hle r hr

/-- What is returned is strictly ascending, so nothing is returned twice. -/
theorem returned_sorted (hn : Reached mark fetch s n) :
    (returned mark fetch s (n + 1)).Pairwise (fun r r' => key r < key r') := by
  induction n with
  | zero =>
    rw [returned_succ, returned_zero]
    exact h.page_sorted hn
  | succ n ih =>
    rw [returned_succ]
    refine pairwise_append.mpr ⟨ih hn.prev, h.page_sorted hn, fun r hr r' hr' => ?_⟩
    obtain ⟨k, hk, hrk⟩ := h.le_bound hn hr
    exact lt_of_le_of_lt hrk (h.bound_lt hn hr' hk)

theorem mem_rows (hN : Reached mark fetch s N) (hr : r ∈ returned mark fetch s (N + 1)) :
    ∃ n ≤ N, r ∈ page mark fetch s n ∧ r ∈ rows (s n) := by
  obtain ⟨n, hn, hr⟩ := mem_flatMap.mp hr
  have hle := Nat.lt_succ_iff.mp (mem_range.mp hn)
  exact ⟨n, hle, hr, (mem_filter.mp (h.mem_rest_of_mem_page (hN.of_le hle) hr)).1⟩

theorem mem_page_or_beyond (hn : Reached mark fetch s (n + 1))
    (hr : r ∈ rest key mark fetch s rows n) :
    r ∈ page mark fetch s n ∨ beyond key (bound key mark fetch s (n + 1)) r = true := by
  obtain ⟨_, last, hpage, hbound, -⟩ := h.bound_succ hn
  obtain ⟨_, htail⟩ := h.page_isPrefix n hn.prev
  rw [← htail] at hr
  refine (mem_append.mp hr).imp_right (fun hr => ?_)
  have hsorted := h.rest_sorted n
  rw [← htail] at hsorted
  have hlast : last ∈ page mark fetch s n := by simp [hpage]
  simpa [beyond, hbound] using (pairwise_append.mp hsorted).2.2 last hlast r hr

theorem returned_or_beyond (hk : ∀ n ≤ N, ∃ r ∈ rows (s n), key r = k) (hn : Reached mark fetch s n)
    (hle : n ≤ N) :
    (∃ r ∈ returned mark fetch s n, key r = k) ∨ ∀ b ∈ bound key mark fetch s n, b < k := by
  induction n with
  | zero => exact .inr (fun b hb => by cases hb)
  | succ n ih =>
    rcases ih hn.prev (Nat.le_of_succ_le hle) with ⟨r, hr, hrk⟩ | hbeyond
    · exact .inl ⟨r, by rw [returned_succ]; exact mem_append_left _ hr, hrk⟩
    · obtain ⟨r, hr, rfl⟩ := hk n (Nat.le_of_succ_le hle)
      have hrest : r ∈ rest key mark fetch s rows n := by
        refine mem_filter.mpr ⟨hr, ?_⟩
        cases hb : bound key mark fetch s n with
        | none => rfl
        | some b => simpa [beyond] using hbeyond b hb
      rcases h.mem_page_or_beyond hn hrest with hpage | hbeyond
      · exact .inl ⟨r, by rw [returned_succ]; exact mem_append_right _ hpage, rfl⟩
      · refine .inr (fun b hb => ?_)
        rw [Option.mem_def] at hb
        simpa [beyond, hb] using hbeyond

/-- What is there at every read is returned. -/
theorem mem_returned (hN : EndsAt mark fetch s N) (hk : ∀ n ≤ N, ∃ r ∈ rows (s n), key r = k) :
    ∃ r ∈ returned mark fetch s (N + 1), key r = k := by
  rw [returned_succ]
  rcases h.returned_or_beyond hk hN.1 le_rfl with ⟨r, hr, hrk⟩ | hbeyond
  · exact ⟨r, mem_append_left _ hr, hrk⟩
  · obtain ⟨r, hr, rfl⟩ := hk N le_rfl
    refine ⟨r, mem_append_right _ ?_, rfl⟩
    rw [h.last N hN.1 hN.2]
    refine mem_filter.mpr ⟨hr, ?_⟩
    cases hb : bound key mark fetch s N with
    | none => rfl
    | some b => simpa [beyond] using hbeyond b hb

/-- The reading ends, if there is no infinite ascent among the keys. -/
theorem exists_endsAt {S : Set κ} (hS : S.WellFoundedOn (· > ·))
    (hkeys : ∀ n, ∀ r ∈ rows (s n), key r ∈ S) : ∃ N, EndsAt mark fetch s N := by
  by_contra hno
  have hreached := reached_of_not_endsAt (fun n hn => hno ⟨n, hn⟩)
  -- the last keys of the pages would ascend for ever
  have hlast : ∀ n, ∃ k ∈ S, bound key mark fetch s (n + 1) = some k := by
    intro n
    obtain ⟨_, r, hpage, hbound, -⟩ := h.bound_succ (hreached (n + 1))
    have hr : r ∈ page mark fetch s n := by simp [hpage]
    exact ⟨key r, hkeys n r (mem_filter.mp (h.mem_rest_of_mem_page (hreached n) hr)).1, hbound⟩
  choose k hkS hk using hlast
  have hascend : ∀ n, k n < k (n + 1) := by
    intro n
    obtain ⟨_, r, hpage, hbound, -⟩ := h.bound_succ (hreached (n + 2))
    have hr : r ∈ page mark fetch s (n + 1) := by simp [hpage]
    have hkr : k (n + 1) = key r := Option.some.inj ((hk (n + 1)).symm.trans hbound)
    exact hkr ▸ h.bound_lt (hreached (n + 1)) hr (hk n)
  exact Set.wellFoundedOn_iff_no_descending_seq.mp hS (RelEmbedding.natGT k hascend) hkS

theorem rest_eq (hn : Reached mark fetch s (n + 1)) : rest key mark fetch s rows n =
      page mark fetch s n ++ (rows (s n)).filter (beyond key (bound key mark fetch s (n + 1))) := by
  obtain ⟨_, last, hpage, hbound, hle⟩ := h.bound_succ hn
  obtain ⟨tail, htail⟩ := h.page_isPrefix n hn.prev
  have hsorted := h.rest_sorted n
  rw [← htail] at hsorted
  have hlast : last ∈ page mark fetch s n := by simp [hpage]
  have htailKeys := (pairwise_append.mp hsorted).2.2 last hlast
  -- what is beyond the page is beyond the last key before it, so it is all left
  have hfilter : (rows (s n)).filter (beyond key (bound key mark fetch s (n + 1))) =
      (rest key mark fetch s rows n).filter (beyond key (bound key mark fetch s (n + 1))) := by
    rw [rest, filter_filter]
    refine filter_congr (fun r _ => ?_)
    cases hb : beyond key (bound key mark fetch s (n + 1)) r with
    | false => rfl
    | true =>
      have hlt : key last < key r := by simpa [beyond, hbound] using hb
      cases hk : bound key mark fetch s n with
      | none => rfl
      | some => simpa [beyond] using (h.bound_lt hn.prev hlast hk).trans hlt
  have hnone : (page mark fetch s n).filter (beyond key (bound key mark fetch s (n + 1))) = [] := by
    refine filter_eq_nil_iff.mpr (fun r hr => ?_)
    simpa [beyond, hbound] using hle r hr
  have hall : tail.filter (beyond key (bound key mark fetch s (n + 1))) = tail := by
    refine filter_eq_self.mpr (fun r hr => ?_)
    simpa [beyond, hbound] using htailKeys r hr
  rw [hfilter, ← htail, filter_append, hnone, hall, nil_append]

/-- If the rows beyond the last key stay as they are, what is returned is what was there at the
start. -/
theorem returned_eq (hN : EndsAt mark fetch s N)
    (hsame : ∀ n < N, (rows (s (n + 1))).filter (beyond key (bound key mark fetch s (n + 1))) =
      (rows (s n)).filter (beyond key (bound key mark fetch s (n + 1)))) :
    returned mark fetch s (N + 1) = rows (s 0) := by
  have hleft : ∀ n ≤ N, returned mark fetch s n ++ rest key mark fetch s rows n = rows (s 0) := by
    intro n
    induction n with
    | zero =>
      intro _
      exact filter_eq_self.mpr (fun r _ => rfl)
    | succ n ih =>
      intro hle
      have hrest : rest key mark fetch s rows (n + 1) =
          (rows (s n)).filter (beyond key (bound key mark fetch s (n + 1))) := hsame n hle
      rw [returned_succ, hrest, append_assoc, ← h.rest_eq (hN.1.of_le hle)]
      exact ih (Nat.le_of_succ_le hle)
  rw [returned_succ, h.last N hN.1 hN.2]
  exact hleft N le_rfl

end Serves

/-! ### Tables -/

variable (key)

/-- The rows of a table in the order of their keys. -/
def orderBy (l : List α) : List α := l.insertionSort (fun r r' => key r ≤ key r')

def Distinct (l : List α) : Prop := l.Pairwise (fun r r' => key r ≠ key r')

variable {key} {l : List α}

theorem orderBy_perm (l : List α) : (orderBy key l).Perm l := perm_insertionSort _ l

@[simp] theorem mem_orderBy {r : α} : r ∈ orderBy key l ↔ r ∈ l := (orderBy_perm l).mem_iff

theorem orderBy_sorted (h : Distinct key l) :
    (orderBy key l).Pairwise (fun r r' => key r < key r') := by
  have hle : (orderBy key l).Pairwise (fun r r' => key r ≤ key r') := pairwise_insertionSort _ l
  have hne : (orderBy key l).Pairwise (fun r r' => key r ≠ key r') :=
    (orderBy_perm l).symm.pairwise h (fun hne => Ne.symm hne)
  exact (hle.and hne).imp (fun hr => lt_of_le_of_ne hr.1 hr.2)

theorem orderBy_eq {l' : List α} (h : Distinct key l)
    (hsorted : l'.Pairwise (fun r r' => key r < key r')) (hperm : l'.Perm l) : orderBy key l = l' :=
  ((orderBy_perm l).trans hperm.symm).eq_of_pairwise
    (fun _ _ _ _ hab hba => absurd hab (lt_asymm hba)) (orderBy_sorted h) hsorted

theorem filter_orderBy (h : Distinct key l) (p : α → Bool) :
    (orderBy key l).filter p = orderBy key (l.filter p) :=
  (orderBy_eq (h.filter p) ((orderBy_sorted h).filter p) ((orderBy_perm l).filter p)).symm

end

end Keyset
