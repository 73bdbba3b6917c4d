import Mathlib.Data.List.Induction
import Mathlib.Data.Set.Function

/-!
# Hash chains

The entries of a list are linked one to the next: each is hashed together with the hash of what came
before it.  If no two different links that occur have the same hash, the last hash commits to the
whole list.
-/

namespace Codec

section

variable {H E : Type} (link : H → E → H)

def chainHash (h : H) (es : List E) : H := es.foldl link h

def chainLinks : H → List E → List (H × E)
  | _, [] => []
  | h, e :: es => (h, e) :: chainLinks (link h e) es

variable {link}

theorem chainHash_concat (h : H) (es : List E) (e : E) :
    chainHash link h (es ++ [e]) = link (chainHash link h es) e := by
  simp [chainHash]

theorem chainLinks_concat (h : H) (es : List E) (e : E) :
    chainLinks link h (es ++ [e]) = chainLinks link h es ++ [(chainHash link h es, e)] := by
  induction es generalizing h with
  | nil => rfl
  | cons a es ih => exact congrArg _ (ih (link h a))

/-- Two lists of one length with the same last hash are equal. -/
theorem chainHash_binding {h : H} {es es' : List E}
    (hinj : Set.InjOn (fun p : H × E => link p.1 p.2) {p | p ∈ chainLinks link h es ∨
      p ∈ chainLinks link h es'}) (hlen : es.length = es'.length)
    (heq : chainHash link h es = chainHash link h es') : es = es' := by
  -- from the end, where the hash is known
  induction es using List.reverseRecOn generalizing es' with
  | nil => exact (List.length_eq_zero_iff.mp hlen.symm).symm
  | append_singleton es e ih =>
    obtain rfl | ⟨es', e', rfl⟩ := es'.eq_nil_or_concat
    · simp at hlen
    · rw [List.concat_eq_append] at hinj hlen heq ⊢
      rw [chainHash_concat, chainHash_concat] at heq
      rw [chainLinks_concat, chainLinks_concat] at hinj
      have hlast : (chainHash link h es, e) = (chainHash link h es', e') :=
        hinj (.inl List.mem_concat_self)
          (.inr List.mem_concat_self) heq
      obtain ⟨hprev, rfl⟩ := Prod.mk.inj hlast
      rw [ih (hinj.mono ?_) (by simpa using hlen) hprev]
      rintro p (hp | hp)
      · exact .inl (List.mem_append_left _ hp)
      · exact .inr (List.mem_append_left _ hp)

end

end Codec
