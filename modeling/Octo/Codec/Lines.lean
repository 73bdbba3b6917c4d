import Mathlib.Data.List.Basic

/-!
# Reading lines off a buffer

A reader keeps what has arrived in a buffer, takes complete lines off its front, and hands each to a
machine that may fail, or go on with or without a result.  A line ends with the delimiter `d` and
includes it.
-/

namespace Codec.Lines

variable {α σ ρ ε : Type} [DecidableEq α]

/-- The first line of a buffer and what is left. -/
def cut (d : α) : List α → Option (List α × List α)
  | [] => none
  | a :: s => if a = d then some ([a], s) else (cut d s).map (fun p => (a :: p.1, p.2))

variable {d : α}

theorem cut_eq_none {s : List α} : cut d s = none ↔ d ∉ s := by
  induction s with
  | nil => simp [cut]
  | cons a s ih =>
    by_cases ha : a = d
    · simp [cut, ha]
    · simp [cut, ha, ih, Ne.symm ha]

variable {s l r : List α}

theorem cut_append (h : cut d s = some (l, r)) (t : List α) :
    cut d (s ++ t) = some (l, r ++ t) := by
  induction s generalizing l with
  | nil => cases h
  | cons a s ih =>
    rw [cut] at h
    rw [List.cons_append, cut]
    by_cases ha : a = d
    · rw [if_pos ha] at h ⊢
      cases h
      rfl
    · rw [if_neg ha] at h ⊢
      obtain ⟨⟨l', r'⟩, hp, heq⟩ := Option.map_eq_some_iff.mp h
      cases heq
      rw [ih hp]
      rfl

theorem cut_eq_append (h : cut d s = some (l, r)) : s = l ++ r ∧ l ≠ [] := by
  induction s generalizing l with
  | nil => cases h
  | cons a s ih =>
    rw [cut] at h
    by_cases ha : a = d
    · rw [if_pos ha] at h
      cases h
      exact ⟨rfl, List.cons_ne_nil _ _⟩
    · rw [if_neg ha] at h
      obtain ⟨⟨l', r'⟩, hp, heq⟩ := Option.map_eq_some_iff.mp h
      cases heq
      exact ⟨by rw [(ih hp).1]; rfl, List.cons_ne_nil _ _⟩

theorem cut_length (h : cut d s = some (l, r)) : r.length < s.length := by
  obtain ⟨rfl, hne⟩ := cut_eq_append h
  have := List.length_pos_of_ne_nil hne
  rw [List.length_append]
  omega

section

variable (d : α) (step : σ → List α → Except ε (σ × Option ρ))

/-- Lines are taken until one gives a result. -/
def next (st : σ) (buf : List α) : Except ε (Option ρ × σ × List α) :=
  match _h : cut d buf with
  | none => .ok (none, st, buf)
  | some (line, rest) =>
    match step st line with
    | .error e => .error e
    | .ok (st', some r) => .ok (some r, st', rest)
    | .ok (st', none) => next st' rest
termination_by buf.length
decreasing_by exact cut_length ‹_›

/-- Take all lines: the results, and the state and what is left, or the error that ended it. -/
def consume (st : σ) (buf : List α) : List ρ × Except ε (σ × List α) :=
  match _h : cut d buf with
  | none => ([], .ok (st, buf))
  | some (line, rest) =>
    match step st line with
    | .error e => ([], .error e)
    | .ok (st', r) => (r.toList ++ (consume st' rest).1, (consume st' rest).2)
termination_by buf.length
decreasing_by all_goals exact cut_length ‹_›

end

variable {step : σ → List α → Except ε (σ × Option ρ)} {st st' : σ} {buf rest line : List α}

theorem next_of_none (h : cut d buf = none) : next d step st buf = .ok (none, st, buf) := by
  rw [next]
  split
  · rfl
  · rename_i h'
    rw [h] at h'
    cases h'

theorem next_of_some (h : cut d buf = some (line, rest)) :
    next d step st buf = match step st line with
      | .error e => .error e
      | .ok (st', some r) => .ok (some r, st', rest)
      | .ok (st', none) => next d step st' rest := by
  rw [next]
  split
  · rename_i h'
    rw [h] at h'
    cases h'
  · rename_i h'
    rw [h] at h'
    cases h'
    rfl

theorem consume_of_none (h : cut d buf = none) : consume d step st buf = ([], .ok (st, buf)) := by
  rw [consume]
  split
  · rfl
  · rename_i h'
    rw [h] at h'
    cases h'

theorem consume_of_some (h : cut d buf = some (line, rest)) :
    consume d step st buf = match step st line with
      | .error e => ([], .error e)
      | .ok (st', r) => (r.toList ++ (consume d step st' rest).1, (consume d step st' rest).2) := by
  rw [consume]
  split
  · rename_i h'
    rw [h] at h'
    cases h'
  · rename_i h'
    rw [h] at h'
    cases h'
    rfl

def Follows (d : α) (step : σ → List α → Except ε (σ × Option ρ)) (buf : List α)
    (all : List ρ × Except ε (σ × List α)) : Except ε (Option ρ × σ × List α) → Prop
  | .error e => all = ([], .error e)
  | .ok (none, st', rest) => all = ([], .ok (st', rest)) ∧ d ∉ rest ∧ rest <:+ buf
  | .ok (some r, st', rest) =>
    all = (r :: (consume d step st' rest).1, (consume d step st' rest).2) ∧
      rest.length < buf.length ∧ rest <:+ buf

theorem consume_of_next (st : σ) (buf : List α) :
    Follows d step buf (consume d step st buf) (next d step st buf) := by
  induction hn : buf.length using Nat.strongRecOn generalizing st buf with
  | ind n ih =>
    cases hc : cut d buf with
    | none =>
      rw [next_of_none hc, consume_of_none hc]
      exact ⟨rfl, cut_eq_none.mp hc, List.suffix_refl _⟩
    | some p =>
      obtain ⟨line, rest⟩ := p
      have hlt := cut_length hc
      have hsuffix : rest <:+ buf := ⟨line, (cut_eq_append hc).1.symm⟩
      rw [next_of_some hc, consume_of_some hc]
      cases hs : step st line with
      | error => rfl
      | ok q =>
        obtain ⟨st', r⟩ := q
        cases r with
        | some => exact ⟨rfl, hlt, hsuffix⟩
        | none =>
          have hrest := ih rest.length (hn ▸ hlt) st' rest rfl
          show Follows d step buf ([] ++ (consume d step st' rest).1, (consume d step st' rest).2)
            (next d step st' rest)
          cases hx : next d step st' rest with
          | error => rw [hx] at hrest; exact hrest
          | ok q =>
            obtain ⟨r, _, _⟩ := q
            rw [hx] at hrest
            cases r with
            | none => exact ⟨hrest.1, hrest.2.1, hrest.2.2.trans hsuffix⟩
            | some => exact ⟨hrest.1, Nat.lt_trans hrest.2.1 hlt, hrest.2.2.trans hsuffix⟩

def andThen (d : α) (step : σ → List α → Except ε (σ × Option ρ)) (t : List α) :
    List ρ × Except ε (σ × List α) → List ρ × Except ε (σ × List α)
  | (rs, .error e) => (rs, .error e)
  | (rs, .ok (st, rest)) =>
    (rs ++ (consume d step st (rest ++ t)).1, (consume d step st (rest ++ t)).2)

theorem andThen_cons (t : List α) (r : ρ) (rs : List ρ) (out : Except ε (σ × List α)) :
    andThen d step t (r :: rs, out) = (r :: (andThen d step t (rs, out)).1,
      (andThen d step t (rs, out)).2) := by
  cases out <;> rfl

/-- It does not matter whether the end of the buffer arrives before or after the lines at its front
are taken. -/
theorem consume_append (st : σ) (s t : List α) :
    consume d step st (s ++ t) = andThen d step t (consume d step st s) := by
  induction hn : s.length using Nat.strongRecOn generalizing st s with
  | ind n ih =>
    cases hc : cut d s with
    | none =>
      rw [consume_of_none hc]
      rfl
    | some p =>
      obtain ⟨line, rest⟩ := p
      have hlt := cut_length hc
      rw [consume_of_some hc, consume_of_some (cut_append hc t)]
      cases hs : step st line with
      | error => rfl
      | ok q =>
        obtain ⟨st', r⟩ := q
        have hrest := ih rest.length (hn ▸ hlt) st' rest rfl
        show (r.toList ++ (consume d step st' (rest ++ t)).1, (consume d step st' (rest ++ t)).2) =
          andThen d step t (r.toList ++ (consume d step st' rest).1, (consume d step st' rest).2)
        rw [hrest]
        obtain ⟨rs, out⟩ := consume d step st' rest
        cases out with
        | error => rfl
        | ok =>
          simp only [andThen, List.append_assoc]

end Codec.Lines
