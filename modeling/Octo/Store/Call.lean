import Octo.Store.Models

/-!
# Calling the store

One call of the store: an atomic statement or transaction on the state `σ` it lives in.  What the
caller does not control is a `Choice`:

* `served n`: the call is answered.  `n` settles what is left open, such as which of equally old
  rows Postgres returns.

`store_cases`, `storeRead_cases` and `storeWait_cases` say what a call can answer and do.
-/

namespace Octo

inductive Choice
  | served (n : Nat)
  | failed
  | lost
  deriving DecidableEq

section

variable {σ α : Type}

/-- A store call: one atomic statement or transaction, answered, refused or answered with an
error after it took effect. -/
def store (stmt : Nat → σ → Except StoreError α × σ) (ch : Choice) (db : σ) :
    Option (Except StoreError α × σ) :=
  match ch with
  | .served n => some (stmt n db)
  | .failed => some (.error .database, db)
  | .lost => some (.error .database, (stmt 0 db).2)

def storeRead (query : Nat → σ → Except StoreError α) (ch : Choice) (db : σ) :
    Option (Except StoreError α × σ) :=
  store (fun n db => (query n db, db)) ch db

def storeWait (stmt : σ → Option (Except StoreError α × σ)) (ch : Choice) (db : σ) :
    Option (Except StoreError α × σ) :=
  match ch with
  | .served _ => stmt db
  | .failed => some (.error .database, db)
  | .lost => (stmt db).map (fun r => (.error .database, r.2))

variable {stmt : Nat → σ → Except StoreError α × σ} {query : Nat → σ → Except StoreError α}
  {ch : Choice} {s s' : σ}

variable {a : Except StoreError α}

theorem store_cases (h : store stmt ch s = some (a, s')) :
    (∃ n, (a, s') = stmt n s) ∨ a = .error .database ∧ (s' = s ∨ s' = (stmt 0 s).2) := by
  cases ch with
  | served n => exact .inl ⟨n, (Option.some.inj h).symm⟩
  | failed =>
    cases h
    exact .inr ⟨rfl, .inl rfl⟩
  | lost =>
    cases h
    exact .inr ⟨rfl, .inr rfl⟩

theorem store_write {t : σ} (h : store stmt ch s = some (a, s')) (ht : ∀ n, (stmt n s).2 = t) :
    s' = s ∨ s' = t := by
  rcases store_cases h with ⟨n, hn⟩ | ⟨-, rfl | rfl⟩
  · right
    rw [← ht n, ← hn]
  · exact .inl rfl
  · exact .inr (ht 0)

theorem storeRead_cases (h : storeRead query ch s = some (a, s')) :
    s' = s ∧ ((∃ n, a = query n s) ∨ a = .error .database) := by
  rcases store_cases h with ⟨n, hn⟩ | ⟨ha, hs | hs⟩
  · cases hn
    exact ⟨rfl, .inl ⟨n, rfl⟩⟩
  · exact ⟨hs, .inr ha⟩
  · exact ⟨hs, .inr ha⟩

theorem storeWait_cases {stmt : σ → Option (Except StoreError α × σ)}
    (h : storeWait stmt ch s = some (a, s')) :
    a = .error .database ∧ s' = s ∨ ∃ b, stmt s = some (b, s') ∧
    (a = b ∨ a = .error .database) := by
  cases ch with
  | served => exact .inr ⟨a, h, .inl rfl⟩
  | failed =>
    cases h
    exact .inl ⟨rfl, rfl⟩
  | lost =>
    obtain ⟨⟨b, t⟩, hs, he⟩ := Option.map_eq_some_iff.mp h
    cases he
    exact .inr ⟨b, hs, .inr rfl⟩

theorem store_ok {v : α} (h : store stmt ch s = some (.ok v, s')) :
    ∃ n, stmt n s = (.ok v, s') := by
  rcases store_cases h with ⟨n, hn⟩ | ⟨ha, -⟩
  · exact ⟨n, hn.symm⟩
  · cases ha

theorem storeRead_ok {v : α} (h : storeRead query ch s = some (.ok v, s')) :
    s' = s ∧ ∃ n, query n s = .ok v := by
  obtain ⟨hs, ⟨n, hn⟩ | hn⟩ := storeRead_cases h
  · exact ⟨hs, n, hn.symm⟩
  · cases hn

end

end Octo
