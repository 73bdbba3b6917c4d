import Mathlib.Data.List.Basic

/-!
# Self-delimiting encodings

An encoding is *delimited* if what follows an encoded value can never be taken for a part of it.
Such encodings can be written one after the other and read apart again.
-/

namespace Codec

section

variable {α β γ : Type}

/-- Two encodings that start the same text are of one value, and the texts go on alike. -/
def Delimited (enc : α → List γ) : Prop :=
  ∀ ⦃x y : α⦄ ⦃s t : List γ⦄, enc x ++ s = enc y ++ t → x = y ∧ s = t

variable {enc : α → List γ} {enc' : β → List γ}

theorem Delimited.injective (h : Delimited enc) : Function.Injective enc := by
  intro x y hxy
  exact (h (t := []) (by rw [hxy])).1

/-- Delimited encodings compose. -/
theorem Delimited.append (h : Delimited enc) (h' : Delimited enc') :
    Delimited (fun p : α × β => enc p.1 ++ enc' p.2) := by
  intro x y s t hxy
  simp only [List.append_assoc] at hxy
  obtain ⟨h1, hrest⟩ := h hxy
  obtain ⟨h2, hst⟩ := h' hrest
  exact ⟨Prod.ext h1 h2, hst⟩

/-- An injective encoding of constant length is delimited. -/
theorem delimited_of_length {n : Nat} (hlen : ∀ x, (enc x).length = n)
    (hinj : Function.Injective enc) : Delimited enc := by
  intro x y s t hxy
  obtain ⟨h, hst⟩ := List.append_inj hxy ((hlen x).trans (hlen y).symm)
  exact ⟨hinj h, hst⟩

/-- Byte strings after an encoding of their length are delimited. -/
theorem delimited_counted {len : Nat → List γ} (h : Delimited len) :
    Delimited (fun x : List γ => len x.length ++ x) := by
  intro x y s t hxy
  simp only [List.append_assoc] at hxy
  obtain ⟨hlen, hrest⟩ := h hxy
  exact List.append_inj hrest hlen

def unary (one zero : γ) (n : Nat) : List γ := List.replicate n one ++ [zero]

theorem delimited_unary {one zero : γ} (h : one ≠ zero) : Delimited (unary one zero) := by
  intro x y s t hxy
  induction x generalizing y with
  | zero =>
    cases y with
    | zero => exact ⟨rfl, (List.cons.inj hxy).2⟩
    | succ => exact absurd (List.cons.inj hxy).1.symm h
  | succ x ih =>
    cases y with
    | zero => exact absurd (List.cons.inj hxy).1 h
    | succ =>
      obtain ⟨rfl, hst⟩ := ih (List.cons.inj hxy).2
      exact ⟨rfl, hst⟩

end

end Codec
