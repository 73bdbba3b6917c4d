import Mathlib.Data.List.Nodup

/-!
# Rows with a key

A table is a list of rows; an insert puts a row at its end, under a key that no row has, and an
update leaves the keys alone.
-/

namespace Rows

open List

variable {α β : Type} {l : List α} {x a : α} {key : α → β} {f : α → α} {n : Nat}

theorem mem_concat : a ∈ l ++ [x] ↔ a ∈ l ∨ a = x := by
  rw [mem_append, mem_singleton]

theorem forall_mem_concat {P : α → Prop} (h : ∀ a ∈ l, P a) (hx : P x) : ∀ a ∈ l ++ [x], P a := by
  intro a ha
  rcases mem_concat.mp ha with ha | rfl
  · exact h a ha
  · exact hx

theorem pairwise_concat {R : α → α → Prop} (h : l.Pairwise R) (hx : ∀ a ∈ l, R a x) :
    (l ++ [x]).Pairwise R :=
  pairwise_append.mpr ⟨h, pairwise_singleton _ _, fun a ha _ hb => mem_singleton.mp hb ▸ hx a ha⟩

theorem nodup_concat (h : (l.map key).Nodup) (hx : ∀ a ∈ l, key a ≠ key x) :
    ((l ++ [x]).map key).Nodup :=
  pairwise_map.mpr (pairwise_concat (pairwise_map.mp h) hx)

/-- Keys are numbers here, and the next one is free. -/
theorem lt_concat {key : α → Nat} (h : ∀ a ∈ l, key a < n) (hx : key x = n) :
    ∀ a ∈ l ++ [x], key a < n + 1 :=
  forall_mem_concat (fun a ha => Nat.lt_succ_of_lt (h a ha)) (hx ▸ Nat.lt_succ_self _)

theorem nodup_update (hf : ∀ a, key (f a) = key a) (h : (l.map key).Nodup) :
    ((l.map f).map key).Nodup := by
  rw [map_map, show key ∘ f = key from funext hf]
  exact h

theorem lt_update {key : α → Nat} (hf : ∀ a, key (f a) = key a) (h : ∀ a ∈ l, key a < n) :
    ∀ a ∈ l.map f, key a < n := by
  intro a ha
  obtain ⟨b, hb, rfl⟩ := mem_map.mp ha
  rw [hf]
  exact h b hb

end Rows
