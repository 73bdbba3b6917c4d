import Mathlib.Order.Interval.Finset.Nat

/-!
# Fixed-window counters

A bucket counts hits in windows that do not overlap: a hit at or after the end of the window before
it starts the next one.  The reference machine (`next`, `answers`) keeps the last window of every
bucket for ever and counts without a bound.  A store keeps less: its counter may have a largest
value, and it may forget a window that has run out.

* `Shows`: the store has every window that has not run out.  It is kept by a hit (`Shows.hit`), by
  forgetting (`Shows.forget`) and as time goes on (`Shows.later`); `counted_eq` says what the store
  counts.
-/

namespace FixedWindow

open List

/-- A window of a bucket: how many came before it, when it ends, and the hits in it so far. -/
structure Window where
  number : Nat
  expires : Nat
  hits : Nat
  deriving DecidableEq

/-- A hit on a bucket at `now`; a window that it starts has the given length. -/
def next (now length : Nat) : Option Window → Window
  | none => ⟨0, now + length, 1⟩
  | some w => if w.expires ≤ now then ⟨w.number + 1, now + length, 1⟩
      else { w with hits := w.hits + 1 }

structure Hit (κ : Type*) where
  key : κ
  length : Nat
  time : Nat

abbrev Bucket := Nat × Nat

def live (now : Nat) (b : Option Bucket) : Option Bucket := b.filter (fun b => decide (now < b.1))

variable {x : Bucket} {b : Option Bucket}

theorem live_eq_some {now : Nat} : live now b = some x ↔ b = some x ∧ now < x.1 := by
  simp [live]

theorem live_some {now : Nat} : live now (some x) = if now < x.1 then some x else none := by
  simp only [live, Option.filter_some, decide_eq_true_eq]

theorem live_live {now later : Nat} (h : now ≤ later) (b : Option Bucket) :
    live later (live now b) = live later b := by
  cases b with
  | none => rfl
  | some x =>
    by_cases hx : now < x.1
    · rw [live_some, if_pos hx]
    · have hl : ¬later < x.1 := by omega
      rw [live_some, if_neg hx, live_some, if_neg hl]
      rfl

/-- What a counter with the largest value `cap` has of a window. -/
def Window.stored (cap : Nat) (w : Window) : Bucket := (w.expires, min w.hits cap)

def counted (cap now length : Nat) (b : Option Bucket) : Bucket :=
  match live now b with
  | none => (now + length, min 1 cap)
  | some x => (x.1, min (x.2 + 1) cap)

theorem counted_of_dead {cap now length : Nat} (h : live now b = none) :
    counted cap now length b = (now + length, min 1 cap) := by
  rw [counted, h]

theorem counted_of_live {cap now length : Nat} (h : live now b = some x) :
    counted cap now length b = (x.1, min (x.2 + 1) cap) := by
  rw [counted, h]

section

variable {κ : Type*}

def Shows (cap now : Nat) (lookup : κ → Option Bucket) (windows : κ → Option Window) : Prop :=
  ∀ k, live now (lookup k) = live now ((windows k).map (Window.stored cap))

variable {cap now : Nat} {lookup lookup' : κ → Option Bucket} {windows : κ → Option Window} {k : κ}

theorem Shows.later {later : Nat} (h : Shows cap now lookup windows) (hle : now ≤ later) :
    Shows cap later lookup windows := by
  intro k
  rw [← live_live hle, h k, live_live hle]

theorem Shows.forget (h : Shows cap now lookup windows)
    (hlive : ∀ k, live now (lookup' k) = live now (lookup k)) : Shows cap now lookup' windows :=
  fun k => (hlive k).trans (h k)

theorem counted_eq (h : Shows cap now lookup windows) (length : Nat) (k : κ) :
    counted cap now length (lookup k) = (next now length (windows k)).stored cap := by
  have hk := h k
  cases hw : windows k with
  | none =>
    rw [hw] at hk
    rw [counted_of_dead hk]
    rfl
  | some w =>
    rw [hw, Option.map_some, live_some] at hk
    by_cases hlt : now < (w.stored cap).1
    · rw [if_pos hlt] at hk
      have hle : ¬w.expires ≤ now := Nat.not_le.mpr hlt
      have hmin : min (min w.hits cap + 1) cap = min (w.hits + 1) cap := by omega
      rw [counted_of_live hk]
      simp only [next, Window.stored, if_neg hle, hmin]
    · rw [if_neg hlt] at hk
      have hle : w.expires ≤ now := Nat.not_lt.mp hlt
      rw [counted_of_dead hk]
      simp only [next, Window.stored, if_pos hle]

theorem Shows.hit [DecidableEq κ] (h : Shows cap now lookup windows) {length : Nat}
    (hself : lookup' k = some (counted cap now length (lookup k)))
    (hother : ∀ j, j ≠ k → live now (lookup' j) = live now (lookup j)) :
    Shows cap now lookup' (Function.update windows k (some (next now length (windows k)))) := by
  intro j
  by_cases hj : j = k
  · rw [hj, hself, counted_eq h, Function.update_self]
    rfl
  · rw [hother j hj, Function.update_of_ne hj]
    exact h j

/-! ### Runs -/

section

variable [DecidableEq κ] {hs : List (Hit κ)}

def answers : (κ → Option Window) → List (Hit κ) → List (κ × Window)
  | _, [] => []
  | windows, h :: hs =>
    let w := next h.time h.length (windows h.key)
    (h.key, w) :: answers (Function.update windows h.key (some w)) hs

def After (v w : Window) : Prop := v.number < w.number ∨ v.number = w.number ∧ v.hits < w.hits

theorem After.trans {u v w : Window} (h : After u v) (h' : After v w) : After u w := by
  unfold After at *
  omega

theorem after_next (now length : Nat) (w : Window) : After w (next now length (some w)) := by
  unfold next
  dsimp only
  split
  · exact .inl (Nat.lt_succ_self w.number)
  · exact .inr ⟨rfl, Nat.lt_succ_self w.hits⟩

theorem next_hits_pos (now length : Nat) (w : Option Window) : 0 < (next now length w).hits := by
  cases w with
  | none => exact Nat.one_pos
  | some w =>
    unfold next
    dsimp only
    split
    · exact Nat.one_pos
    · exact Nat.succ_pos w.hits

theorem after_of_mem_answers {windows : κ → Option Window} {v w : Window}
    (hv : windows k = some v) (hw : (k, w) ∈ answers windows hs) : After v w := by
  induction hs generalizing windows v with
  | nil => cases hw
  | cons h hs ih =>
    rcases mem_cons.mp hw with heq | hw
    · cases heq
      rw [hv]
      exact after_next _ _ _
    · by_cases hk : k = h.key
      · subst hk
        have hfirst := after_next h.time h.length v
        rw [← hv] at hfirst
        exact hfirst.trans (ih (Function.update_self ..) hw)
      · exact ih ((Function.update_of_ne hk ..).trans hv) hw

theorem answers_pairwise (windows : κ → Option Window) (hs : List (Hit κ)) :
    (answers windows hs).Pairwise (fun a b => a.1 = b.1 → After a.2 b.2) := by
  induction hs generalizing windows with
  | nil => exact List.Pairwise.nil
  | cons h hs ih =>
    refine pairwise_cons.mpr ⟨?_, ih _⟩
    rintro ⟨k, w⟩ hw heq
    have hk : h.key = k := heq
    subst hk
    exact after_of_mem_answers (Function.update_self ..) hw

theorem hits_pos_of_mem_answers {windows : κ → Option Window} {a : κ × Window}
    (ha : a ∈ answers windows hs) : 0 < a.2.hits := by
  induction hs generalizing windows with
  | nil => cases ha
  | cons h hs ih =>
    rcases mem_cons.mp ha with rfl | ha
    · exact next_hits_pos _ _ _
    · exact ih ha

theorem length_le_of_strictly_increasing {l : List Nat} {limit : Nat} (hlt : l.Pairwise (· < ·))
    (hl : ∀ n ∈ l, 0 < n ∧ n ≤ limit) : l.length ≤ limit := by
  have hsub : l.toFinset ⊆ Finset.Icc 1 limit := by
    intro n hn
    exact Finset.mem_Icc.mpr (hl n (mem_toFinset.mp hn))
  have hnd : l.Nodup := hlt.imp Nat.ne_of_lt
  calc l.length = l.toFinset.card := (toFinset_card_of_nodup hnd).symm
    _ ≤ (Finset.Icc 1 limit).card := Finset.card_le_card hsub
    _ = limit := by rw [Nat.card_Icc, Nat.add_sub_cancel]

/-- Of the hits in one window at most `limit` are counted up to `limit`. -/
theorem length_admitted_le (windows : κ → Option Window) (hs : List (Hit κ)) (k : κ)
    (number limit : Nat) :
    ((answers windows hs).filter (fun a => a.1 = k ∧ a.2.number = number ∧
      a.2.hits ≤ limit)).length ≤ limit := by
  rw [← length_map (fun a : κ × Window => a.2.hits)]
  apply length_le_of_strictly_increasing
  · rw [pairwise_map]
    refine List.Pairwise.imp_of_mem ?_ ((answers_pairwise windows hs).filter _)
    intro a b ha hb hafter
    have ha := of_decide_eq_true (mem_filter.mp ha).2
    have hb := of_decide_eq_true (mem_filter.mp hb).2
    -- in one window only the hits can differ
    rcases hafter (ha.1.trans hb.1.symm) with hlt | ⟨-, hlt⟩
    · exact absurd hlt (by rw [ha.2.1, hb.2.1]; exact Nat.lt_irrefl _)
    · exact hlt
  · intro n hn
    obtain ⟨a, ha, rfl⟩ := mem_map.mp hn
    obtain ⟨hmem, hp⟩ := mem_filter.mp ha
    exact ⟨hits_pos_of_mem_answers hmem, (of_decide_eq_true hp).2.2⟩

end

end

end FixedWindow
