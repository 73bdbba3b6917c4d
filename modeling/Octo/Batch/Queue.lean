import Mathlib.Data.List.Nodup

/-!
# A queue that is swept in batches

A sweep looks at the first `b` items of a queue and takes out those that no longer wait; the others
keep their places at its head.  Whether an item waits may depend on the number of the sweep, but an
item that does not wait never waits again.
-/

namespace Batch

open List

variable {α : Type} (b : Nat) (waits : Nat → α → Bool)

/-- What sweep number `k` leaves of the queue `l`. -/
def sweep (k : Nat) (l : List α) : List α := (l.take b).filter (waits k) ++ l.drop b

def sweeps : Nat → List α → List α
  | 0, l => l
  | k + 1, l => sweep b waits k (sweeps k l)

/-- How many items the first `k` sweeps have looked at: each goes on by the room that those leave
that were looked at and wait. -/
def scanned (l : List α) : Nat → Nat
  | 0 => 0
  | k + 1 => scanned l k + (b - (l.take (scanned l k)).countP (waits (k - 1)))

variable {b waits} {l : List α}

theorem filter_filter_of_imp {p q : α → Bool} (h : ∀ x, p x = true → q x = true) (l : List α) :
    (l.filter q).filter p = l.filter p := by
  rw [filter_filter]
  refine filter_congr (fun x _ => ?_)
  cases hp : p x with
  | false => rfl
  | true => rw [h x hp]; rfl

theorem sweep_append {k : Nat} {l held rest : List α} (hlen : held.length ≤ b)
    (hl : l = held ++ rest) :
    sweep b waits k l = (held ++ rest.take (b - held.length)).filter (waits k) ++ rest.drop
      (b - held.length) := by
  rw [sweep, hl, take_append, drop_append, take_of_length_le hlen, drop_of_length_le hlen,
    nil_append]

theorem sweep_eq_filter [DecidableEq α] (hnodup : l.Nodup) (k : Nat) :
    sweep b waits k l = l.filter (fun x => decide (x ∈ l.take b → waits k x = true)) := by
  have hsplit : (l.take b ++ l.drop b).Nodup := by rwa [take_append_drop]
  have hdisjoint := disjoint_of_nodup_append hsplit
  have hfirst : (l.take b).filter (fun x => decide (x ∈ l.take b → waits k x = true)) =
      (l.take b).filter (waits k) :=
    filter_congr (fun x hx => by simp [hx])
  have hrest : (l.drop b).filter (fun x => decide (x ∈ l.take b → waits k x = true)) =
      l.drop b := by
    rw [filter_eq_self]
    intro x hx
    exact decide_eq_true (fun h => absurd hx (hdisjoint h))
  rw [sweep, ← hfirst]
  nth_rewrite 1 [← hrest]
  rw [← filter_append, take_append_drop]

section

variable (hlast : ∀ k x, waits (k + 1) x = true → waits k x = true) {x : α}

include hlast

theorem waits_pred (k : Nat) (x : α) (h : waits k x = true) : waits (k - 1) x = true := by
  cases k with
  | zero => exact h
  | succ k => exact hlast k x h

theorem not_waits (h : waits 0 x = false) (k : Nat) : waits k x = false := by
  induction k with
  | zero => exact h
  | succ k ih =>
    by_contra hw
    rw [hlast k x (by simpa using hw)] at ih
    cases ih

/-- What is left after `k` sweeps is the items that wait among the first `scanned k`, and all behind
them. -/
theorem sweeps_eq (l : List α) (k : Nat) :
    sweeps b waits k l = (l.take (scanned b waits l k)).filter (waits (k - 1)) ++
      l.drop (scanned b waits l k) ∧ (l.take (scanned b waits l k)).countP (waits (k - 1)) ≤ b := by
  induction k with
  | zero => simp [sweeps, scanned]
  | succ k ih =>
    obtain ⟨hleft, hroom⟩ := ih
    generalize hm : scanned b waits l k = m at hleft hroom
    have hnext : scanned b waits l (k + 1) = m + (b - (l.take m).countP (waits (k - 1))) := by
      rw [scanned, hm]
    rw [countP_eq_length_filter] at hroom hnext
    generalize hheld : (l.take m).filter (waits (k - 1)) = held at hleft hroom hnext
    have hwait : held.filter (waits k) = (l.take m).filter (waits k) := by
      rw [← hheld, filter_filter_of_imp (waits_pred hlast k)]
    have htake : (held ++ (l.drop m).take (b - held.length)).filter (waits k) =
        (l.take (m + (b - held.length))).filter (waits k) := by
      rw [filter_append, hwait, ← filter_append, ← take_add]
    refine ⟨?_, ?_⟩
    · rw [sweeps, sweep_append hroom hleft, htake, drop_drop, hnext]
      rfl
    · rw [hnext, Nat.add_sub_cancel, countP_eq_length_filter, ← htake, filter_append, length_append]
      have h1 : (held.filter (waits k)).length ≤ held.length := length_filter_le _ _
      have h2 : (((l.drop m).take (b - held.length)).filter (waits k)).length ≤ b - held.length :=
        Nat.le_trans (length_filter_le _ _) (length_take_le _ _)
      omega

/-- An item is taken out when the sweeps have got to it.  Each gets on by the room that the waiting
items leave, and not at all once they are `b`. -/
theorem mem_sweeps_iff (hnodup : l.Nodup) {p : Nat} (hp : l[p]? = some x)
    (hx : waits 0 x = false) (k : Nat) : x ∈ sweeps b waits k l ↔ scanned b waits l k ≤ p := by
  obtain ⟨hlt, rfl⟩ := List.getElem?_eq_some_iff.mp hp
  rw [(sweeps_eq hlast l k).1, mem_append, mem_filter, not_waits hlast hx]
  simp only [Bool.false_eq_true, and_false, false_or]
  rw [mem_drop_iff_getElem]
  constructor
  · intro h
    obtain ⟨i, hi, he⟩ := h
    have := hnodup.getElem_inj_iff.mp he
    omega
  · intro h
    exact ⟨p - scanned b waits l k, by omega, by congr 1; omega⟩

end

end Batch
