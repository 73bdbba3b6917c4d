import Mathlib.Tactic.Linarith
import Octo.FixedWindow.Counter
import Octo.Store.Models

/-!
# Rate-limit counters

`crates/api/src/rate_limit.rs` and `crates/store/src/rate_limit.rs` with the migration 0028.  A
limiter counts hits per key and class in a `RateLimitStore`: a map in the memory of the process, or
a table that all replicas share. `now` is the clock of the store and a window is a number of
microseconds.
-/

namespace Octo.RateLimit

open FixedWindow

def sweepThreshold : Nat := 10000

def u64Max : Nat := 18446744073709551615

def bigintMax : Nat := 9223372036854775807

/-- `BucketKey`: the limited subject and the class of the endpoint. -/
abbrev BucketKey := String × String

/-! ### The map in memory -/

/-- `MemoryRateLimitStore`; a bucket is the end of its window and the hits in it. -/
structure MemoryRateLimitStore where
  buckets : Std.HashMap BucketKey Bucket

namespace MemoryRateLimitStore

def empty : MemoryRateLimitStore := ⟨∅⟩

def retain (buckets : Std.HashMap BucketKey Bucket) (now : Nat) : Std.HashMap BucketKey Bucket :=
  buckets.filter (fun _ b => decide (b.1 > now))

def swept (s : MemoryRateLimitStore) (now : Nat) : Std.HashMap BucketKey Bucket :=
  if s.buckets.size > sweepThreshold then retain s.buckets now else s.buckets

/-- The entry of `count`, if there is one, with the hit counted. -/
def entry (now window : Nat) (found : Option Bucket) : Bucket :=
  let e := found.getD (now + window, 0)
  let e := if now ≥ e.1 then (now + window, 0) else e
  -- `saturating_add`
  (e.1, min (e.2 + 1) u64Max)

def count (s : MemoryRateLimitStore) (now : Nat) (key : BucketKey) (window : Nat) :
    Nat × MemoryRateLimitStore :=
  let e := entry now window (s.swept now)[key]?
  (e.2, ⟨(s.swept now).insert key e⟩)

def pruneExpired (s : MemoryRateLimitStore) (now : Nat) : Nat × MemoryRateLimitStore :=
  (s.buckets.size - (retain s.buckets now).size, ⟨retain s.buckets now⟩)

end MemoryRateLimitStore

/-! ### The table -/

/-- `rate_limit_buckets`: under its primary key, the columns `expires_at` and `hits`. -/
structure BucketTable where
  rows : Std.HashMap BucketKey Bucket

namespace BucketTable

def empty : BucketTable := ⟨∅⟩

/-- The row that `rate_limit_hit` writes over the one it found, unless `hits + 1` is out of range.
-/
def upsert (now window : Nat) : Option Bucket → Option Bucket
  | none => some (now + window, 1)
  | some (expiresAt, hits) =>
    if expiresAt ≤ now then some (now + window, 1)
    else if hits + 1 ≤ bigintMax then some (expiresAt, hits + 1) else none

/-- `Store::rate_limit_hit`: `INSERT .. ON CONFLICT (key, class) DO UPDATE .. RETURNING hits`. -/
def rateLimitHit (t : BucketTable) (now : Nat) (key : BucketKey) (window : Nat) :
    Except StoreError Nat × BucketTable :=
  match upsert now window t.rows[key]? with
  | some row => (.ok row.2, ⟨t.rows.insert key row⟩)
  | none => (.error .database, t)

/-- `Store::prune_rate_limit_buckets`: `DELETE .. WHERE expires_at < now()`. -/
def pruneRateLimitBuckets (t : BucketTable) (now : Nat) : Nat × BucketTable :=
  let kept := t.rows.filter (fun _ row => !decide (row.1 < now))
  (t.rows.size - kept.size, ⟨kept⟩)

end BucketTable

/-! ### The limiter -/

/-- `RateLimitStore`: `MemoryRateLimitStore` or `PostgresRateLimitStore`. -/
inductive RateLimitStore
  | memory (s : MemoryRateLimitStore)
  | postgres (t : BucketTable)

namespace RateLimitStore

/-- `RateLimitStore::hit`; a count that comes from the table is not negative, so `u64::try_from`
keeps it. -/
def hit (now : Nat) (key : BucketKey) (window : Nat) :
    RateLimitStore → Except StoreError Nat × RateLimitStore
  | memory s => (.ok (s.count now key window).1, memory (s.count now key window).2)
  | postgres t => ((t.rateLimitHit now key window).1, postgres (t.rateLimitHit now key window).2)

def prune (now : Nat) : RateLimitStore → Nat × RateLimitStore
  | memory s => ((s.pruneExpired now).1, memory (s.pruneExpired now).2)
  | postgres t => ((t.pruneRateLimitBuckets now).1, postgres (t.pruneRateLimitBuckets now).2)

end RateLimitStore

structure RateLimiter where
  backend : RateLimitStore
  fallback : MemoryRateLimitStore

namespace RateLimiter

def withBackend (backend : RateLimitStore) : RateLimiter := ⟨backend, .empty⟩

def memory : RateLimiter := withBackend (.memory .empty)

/-- `RateLimiter::postgres`, on the table as the migration leaves it. -/
def postgres : RateLimiter := withBackend (.postgres .empty)

/-- `RateLimiter::check`; `up` is whether the backend can be reached. -/
def check (l : RateLimiter) (up : Bool) (now : Nat) (key : BucketKey) (limit window : Nat) :
    Bool × RateLimiter :=
  let (answer, backend) := if up then l.backend.hit now key window
    else (.error .database, l.backend)
  match answer with
  | .ok hits => (decide (hits ≤ limit), { l with backend })
  | .error _ =>
    let (hits, fallback) := l.fallback.count now key window
    (decide (hits ≤ limit), { backend, fallback })

def prune (l : RateLimiter) (now : Nat) : RateLimiter :=
  ⟨(l.backend.prune now).2, (l.fallback.pruneExpired now).2⟩

end RateLimiter

end Octo.RateLimit
