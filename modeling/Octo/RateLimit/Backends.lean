import Octo.RateLimit.Stores

/-!
# One fixed-window counter

The map in memory and the table in Postgres count the hits of a bucket as the reference machine
`FixedWindow.answers` does, whatever is pruned or swept in between: both forget a bucket only after
its window has run out, and from then on a hit finds a new window with or without it.  The counters
end, though: the map's stays at `u64Max`, and the statement on the table fails beyond `bigintMax`.
-/

namespace Octo.RateLimit

open FixedWindow RateLimitStore List

theorem counted_congr {cap now length : Nat} {b b' : Option Bucket} (h : live now b = live now b') :
    counted cap now length b = counted cap now length b' := by
  unfold counted
  rw [h]

theorem live_filter {now : Nat} {p : Bucket → Bool} (hp : ∀ b : Bucket, now < b.1 → p b = true)
    (m : Std.HashMap BucketKey Bucket) (k : BucketKey) :
    live now (m.filter (fun _ => p))[k]? = live now m[k]? := by
  rw [Std.HashMap.getElem?_filter']
  cases m[k]? with
  | none => rfl
  | some b =>
    by_cases hb : now < b.1
    · rw [Option.filter_some, if_pos (hp b hb)]
    · rw [Option.filter_some, live_some]
      split
      · rw [live_some, if_neg hb]
      · rfl

namespace MemoryRateLimitStore

theorem live_retain (buckets : Std.HashMap BucketKey Bucket) (now : Nat) (k : BucketKey) :
    live now (retain buckets now)[k]? = live now buckets[k]? :=
  live_filter (fun _ => decide_eq_true) buckets k

theorem live_swept (s : MemoryRateLimitStore) (now : Nat) (k : BucketKey) :
    live now (s.swept now)[k]? = live now s.buckets[k]? := by
  unfold swept
  split
  · exact live_retain _ _ _
  · rfl

theorem entry_eq (now window : Nat) (found : Option Bucket) :
    entry now window found = counted u64Max now window found := by
  unfold entry
  cases found with
  | none =>
    rw [counted_of_dead rfl]
    by_cases h : now ≥ now + window <;> simp [h]
  | some b =>
    by_cases hb : now ≥ b.1
    · rw [counted_of_dead (by rw [live_some, if_neg (Nat.not_lt.mpr hb)])]
      simp [hb]
    · rw [counted_of_live (by rw [live_some, if_pos (Nat.not_le.mp hb)])]
      simp [hb]

end MemoryRateLimitStore

theorem BucketTable.live_prune (t : BucketTable) (now : Nat) (k : BucketKey) :
    live now (t.pruneRateLimitBuckets now).2.rows[k]? = live now t.rows[k]? := by
  refine live_filter (fun b hb => ?_) t.rows k
  simp [Nat.not_lt.mpr (Nat.le_of_lt hb)]

/-- The statement on a row that shows the window `v`. -/
theorem BucketTable.upsert_eq {now : Nat} {found : Option Bucket} {v : Option Window}
    (h : live now found = live now (v.map (Window.stored bigintMax))) (window : Nat) :
    upsert now window found = (if (next now window v).hits ≤ bigintMax
      then some ((next now window v).stored bigintMax) else none) ∧
    (¬(next now window v).hits ≤ bigintMax →
      found = some ((next now window v).stored bigintMax)) := by
  have hfresh : ∀ w : Window, w.expires = now + window → w.hits = 1 → live now found = none →
      upsert now window found = (if w.hits ≤ bigintMax then some (w.stored bigintMax) else none) ∧
        (¬w.hits ≤ bigintMax → found = some (w.stored bigintMax)) := by
    intro w hexp hhits hdead
    have hw : w.stored bigintMax = (now + window, 1) := by rw [Window.stored, hexp, hhits]; rfl
    rw [hhits, hw]
    refine ⟨?_, fun hbig => absurd (by decide) hbig⟩
    cases found with
    | none => rfl
    | some row =>
      rw [live_some] at hdead
      have hle : row.1 ≤ now := by
        by_contra hlt
        rw [if_pos (Nat.not_le.mp hlt)] at hdead
        cases hdead
      exact if_pos hle
  cases v with
  | none => exact hfresh _ rfl rfl h
  | some v =>
    by_cases hv : v.expires ≤ now
    · have hnext : next now window (some v) = ⟨v.number + 1, now + window, 1⟩ := if_pos hv
      rw [hnext]
      refine hfresh _ rfl rfl (h.trans ?_)
      rw [Option.map_some, live_some]
      exact if_neg (Nat.not_lt.mpr hv)
    · have hnext : next now window (some v) = { v with hits := v.hits + 1 } := if_neg hv
      rw [Option.map_some, live_some,
        if_pos (show now < (v.stored bigintMax).1 from Nat.not_le.mp hv)] at h
      rw [hnext, (live_eq_some.mp h).1]
      have hups : upsert now window (some (v.stored bigintMax)) =
          if min v.hits bigintMax + 1 ≤ bigintMax then some (v.expires, min v.hits bigintMax + 1)
            else none := if_neg hv
      rw [hups]
      -- the stored count is the real one, or the largest
      by_cases hbig : v.hits + 1 ≤ bigintMax
      · have hmin : min v.hits bigintMax = v.hits := Nat.min_eq_left (Nat.le_of_succ_le hbig)
        have hmin' : min (v.hits + 1) bigintMax = v.hits + 1 := Nat.min_eq_left hbig
        simp only [Window.stored, hmin, hmin', true_and]
        exact fun hn => absurd hbig hn
      · have hmin : min v.hits bigintMax = bigintMax := by omega
        have hmin' : min (v.hits + 1) bigintMax = bigintMax := by omega
        simp only [Window.stored, hmin, hmin', if_neg hbig, if_neg (Nat.not_succ_le_self bigintMax),
          true_and]
        exact fun _ => trivial

/-! ### One operation -/

namespace RateLimitStore

def lookup : RateLimitStore → BucketKey → Option Bucket
  | memory s, k => s.buckets[k]?
  | postgres t, k => t.rows[k]?

def cap : RateLimitStore → Nat
  | memory _ => u64Max
  | postgres _ => bigintMax

def answer (w : Window) : RateLimitStore → Except StoreError Nat
  | memory _ => .ok (min w.hits u64Max)
  | postgres _ => if w.hits ≤ bigintMax then .ok w.hits else .error .database

variable {b : RateLimitStore} {now : Nat} {windows : BucketKey → Option Window}

theorem prune_spec (h : Shows b.cap now b.lookup windows) :
    Shows (b.prune now).2.cap now (b.prune now).2.lookup windows := by
  cases b with
  | memory => exact h.forget (MemoryRateLimitStore.live_retain _ _)
  | postgres t => exact h.forget (BucketTable.live_prune t now)

theorem hit_spec (h : Shows b.cap now b.lookup windows) (key : BucketKey) (window : Nat) :
    (b.hit now key window).1 = b.answer (next now window (windows key)) ∧
      Shows (b.hit now key window).2.cap now (b.hit now key window).2.lookup
        (Function.update windows key (some (next now window (windows key)))) := by
  have hcount := counted_eq h window key
  have hinsert : ∀ {m : Std.HashMap BucketKey Bucket} {row : Bucket} {j : BucketKey}, j ≠ key →
      (m.insert key row)[j]? = m[j]? := by
    intro m row j hj
    rw [Std.HashMap.getElem?_insert, if_neg (by simpa using Ne.symm hj)]
  cases b with
  | memory s =>
    have he : MemoryRateLimitStore.entry now window (s.swept now)[key]? =
        counted u64Max now window s.buckets[key]? := by
      rw [MemoryRateLimitStore.entry_eq, counted_congr (s.live_swept now key)]
    simp only [hit, MemoryRateLimitStore.count, he]
    refine ⟨congrArg (fun b : Bucket => Except.ok b.2) hcount,
      h.hit Std.HashMap.getElem?_insert_self ?_⟩
    intro j hj
    rw [lookup, hinsert hj]
    exact s.live_swept now j
  | postgres t =>
    obtain ⟨hups, hkept⟩ := BucketTable.upsert_eq (h key) window
    simp only [hit, BucketTable.rateLimitHit, answer]
    rw [show t.rows[key]? = (postgres t).lookup key from rfl, hups]
    by_cases hbig : (next now window (windows key)).hits ≤ bigintMax
    · rw [if_pos hbig, if_pos hbig]
      refine ⟨congrArg Except.ok (Nat.min_eq_left hbig), h.hit ?_ ?_⟩
      · rw [hcount]
        exact Std.HashMap.getElem?_insert_self
      · intro j hj
        rw [lookup, hinsert hj]
        rfl
    · rw [if_neg hbig, if_neg hbig]
      refine ⟨rfl, h.hit ?_ (fun _ _ => rfl)⟩
      rw [hcount]
      exact hkept hbig

end RateLimitStore

/-! ### Runs -/

inductive Event
  | hit (key : BucketKey) (window : Nat)
  | prune

structure Timed where
  time : Nat
  event : Event

def Chronological (es : List Timed) : Prop := es.Pairwise (fun a b => a.time ≤ b.time)

def hitsOf : List Timed → List (Hit BucketKey)
  | [] => []
  | ⟨time, .hit key window⟩ :: es => ⟨key, window, time⟩ :: hitsOf es
  | ⟨_, .prune⟩ :: es => hitsOf es

def RateLimitStore.counts : RateLimitStore → List Timed → List (Except StoreError Nat)
  | _, [] => []
  | b, ⟨time, .hit key window⟩ :: es =>
    (b.hit time key window).1 :: (b.hit time key window).2.counts es
  | b, ⟨time, .prune⟩ :: es => (b.prune time).2.counts es

def RateLimiter.checks (limit : Nat) : RateLimiter → List Timed → List Bool
  | _, [] => []
  | l, ⟨time, .hit key window⟩ :: es =>
    (l.check true time key limit window).1 :: (l.check true time key limit window).2.checks limit es
  | l, ⟨time, .prune⟩ :: es => (l.prune time).checks limit es

variable {b : RateLimitStore} {windows : BucketKey → Option Window} {es : List Timed} {now : Nat}
  {l : RateLimiter}

theorem RateLimitStore.answer_hit (w : Window) (time : Nat) (key : BucketKey) (window : Nat) :
    (b.hit time key window).2.answer w = b.answer w := by
  cases b <;> rfl

theorem RateLimitStore.answer_prune (w : Window) (time : Nat) :
    (b.prune time).2.answer w = b.answer w := by
  cases b <;> rfl

theorem counts_eq (h : Shows b.cap now b.lookup windows) (hes : Chronological es)
    (hnow : ∀ e ∈ es, now ≤ e.time) :
    b.counts es = (answers windows (hitsOf es)).map (fun a => b.answer a.2) := by
  induction es generalizing b windows now with
  | nil => rfl
  | cons e es ih =>
    obtain ⟨time, event⟩ := e
    obtain ⟨hlater, htail⟩ := pairwise_cons.mp hes
    replace h := h.later (show now ≤ time from hnow _ mem_cons_self)
    cases event with
    | hit key window =>
      obtain ⟨hanswer, h'⟩ := b.hit_spec h key window
      simp only [counts, hitsOf, answers, map_cons, hanswer, ih h' htail hlater,
        answer_hit]
    | prune =>
      have h' := b.prune_spec h
      simp only [counts, hitsOf, ih h' htail hlater, answer_prune]

/-- A hit that the backend answers is let through if the machine counts it up to the limit. -/
theorem checks_of_answer (h : Shows l.backend.cap now l.backend.lookup windows)
    (hes : Chronological es) (hnow : ∀ e ∈ es, now ≤ e.time) (limit : Nat) :
    List.Forall₂ (fun a d => ∀ hits, l.backend.answer a.2 = .ok hits → d = decide (hits ≤ limit))
      (answers windows (hitsOf es)) (l.checks limit es) := by
  induction es generalizing l windows now with
  | nil => exact List.Forall₂.nil
  | cons e es ih =>
    obtain ⟨time, event⟩ := e
    obtain ⟨hlater, htail⟩ := pairwise_cons.mp hes
    replace h := h.later (show now ≤ time from hnow _ mem_cons_self)
    cases event with
    | hit key window =>
      obtain ⟨hanswer, h'⟩ := l.backend.hit_spec h key window
      have hbackend : (l.check true time key limit window).2.backend =
          (l.backend.hit time key window).2 := by
        simp only [RateLimiter.check]
        split <;> rfl
      rw [← hbackend] at h'
      refine List.Forall₂.cons ?_ ?_
      · intro hits hok
        rw [← hanswer] at hok
        simp only [RateLimiter.check, if_true, hok]
      · have hrest := ih h' htail hlater
        simpa only [hbackend, answer_hit] using hrest
    | prune =>
      have hrest := ih (l := l.prune time) (l.backend.prune_spec h) htail hlater
      simp only [RateLimiter.prune, answer_prune] at hrest
      exact hrest

def noWindows : BucketKey → Option Window := fun _ => none

/-- The hits in one window that the backend answers and the limiter lets through. -/
def letThrough (l : RateLimiter) (limit : Nat) (es : List Timed) (key : BucketKey) (number : Nat) :
    List ((BucketKey × Window) × Bool) :=
  ((answers noWindows (hitsOf es)).zip (l.checks limit es)).filter (fun p =>
    decide (p.1.1 = key ∧ p.1.2.number = number) && (l.backend.answer p.1.2).isOk && p.2)

theorem length_letThrough_le {limit : Nat} (h : Shows l.backend.cap 0 l.backend.lookup noWindows)
    (hes : Chronological es)
    (hlimit : ∀ w hits, l.backend.answer w = .ok hits → hits ≤ limit → w.hits ≤ limit)
    (key : BucketKey) (number : Nat) : (letThrough l limit es key number).length ≤ limit := by
  have hchecks := checks_of_answer h hes (fun e _ => Nat.zero_le e.time) limit
  obtain ⟨hlength, hzip⟩ := forall₂_iff_zip.mp hchecks
  have himp : ∀ p ∈ (answers noWindows (hitsOf es)).zip (l.checks limit es),
      (decide (p.1.1 = key ∧ p.1.2.number = number) && (l.backend.answer p.1.2).isOk && p.2) =
        true →
        decide (p.1.1 = key ∧ p.1.2.number = number ∧ p.1.2.hits ≤ limit) = true := by
    rintro ⟨a, d⟩ hp hq
    simp only [Bool.and_eq_true, decide_eq_true_eq] at hq ⊢
    obtain ⟨⟨⟨hk, hn⟩, hok⟩, hd⟩ := hq
    refine ⟨hk, hn, ?_⟩
    cases hans : l.backend.answer a.2 with
    | error => rw [hans] at hok; cases hok
    | ok hits =>
      have hdec := hzip hp hits hans
      rw [hd] at hdec
      exact hlimit a.2 hits hans (of_decide_eq_true hdec.symm)
  calc (letThrough l limit es key number).length
      ≤ (((answers noWindows (hitsOf es)).zip (l.checks limit es)).filter (fun p =>
          decide (p.1.1 = key ∧ p.1.2.number = number ∧ p.1.2.hits ≤ limit))).length := by
        rw [letThrough, ← countP_eq_length_filter, ← countP_eq_length_filter]
        exact countP_mono_left himp
    _ = ((answers noWindows (hitsOf es)).filter (fun a =>
          decide (a.1 = key ∧ a.2.number = number ∧ a.2.hits ≤ limit))).length := by
        rw [← map_fst_zip (Nat.le_of_eq hlength), filter_map, length_map]
        rw [map_fst_zip (Nat.le_of_eq hlength)]
        rfl
    _ ≤ limit := length_admitted_le _ _ _ _ _

/-- **The two backends count the windows of one machine**, each with its own prunes and sweeps: in
memory up to `u64Max`, in the table up to `bigintMax`, beyond which the statement fails.  In one
window a limiter lets through at most `limit` of the hits that its backend answers. -/
theorem backends_agree {em ep : List Timed} (hm : Chronological em) (hp : Chronological ep)
    (hhits : hitsOf em = hitsOf ep) :
    (RateLimitStore.memory .empty).counts em =
      (answers noWindows (hitsOf em)).map (fun a => .ok (min a.2.hits u64Max)) ∧
    (RateLimitStore.postgres .empty).counts ep =
      (answers noWindows (hitsOf em)).map (fun a =>
        if a.2.hits ≤ bigintMax then .ok a.2.hits else .error .database) ∧
    ∀ (limit : UInt32) (key : BucketKey) (number : Nat),
      (letThrough .memory limit.toNat em key number).length ≤ limit.toNat ∧
      (letThrough .postgres limit.toNat ep key number).length ≤ limit.toNat := by
  have hmem : Shows u64Max 0 (RateLimitStore.memory .empty).lookup noWindows :=
    fun k => congrArg (live 0) Std.HashMap.getElem?_empty
  have htab : Shows bigintMax 0 (RateLimitStore.postgres .empty).lookup noWindows :=
    fun k => congrArg (live 0) Std.HashMap.getElem?_empty
  refine ⟨counts_eq hmem hm (fun e _ => Nat.zero_le e.time), ?_, fun limit key number => ⟨?_, ?_⟩⟩
  · rw [hhits]
    exact counts_eq htab hp (fun e _ => Nat.zero_le e.time)
  · refine length_letThrough_le (l := .memory) hmem hm (fun w hits hans hle => ?_) key number
    have hhits : min w.hits u64Max = hits := Except.ok.inj hans
    have hlimit : limit.toNat < u64Max := Nat.lt_trans limit.toNat_lt (by decide)
    omega
  · refine length_letThrough_le (l := .postgres) htab hp (fun w hits hans hle => ?_) key number
    have hans : (if w.hits ≤ bigintMax then .ok w.hits else .error .database :
        Except StoreError Nat) = .ok hits := hans
    split at hans
    · rw [Except.ok.inj hans]
      exact hle
    · cases hans

/-! ### Examples -/

def threeHits (prunes : List Timed) : List Timed :=
  [⟨0, .hit ("203.0.113.5", "auth") 60⟩, ⟨59, .hit ("203.0.113.5", "auth") 60⟩] ++ prunes ++
    [⟨60, .hit ("203.0.113.5", "auth") 60⟩]

theorem threeHits_agree :
    (RateLimitStore.memory .empty).counts (threeHits [⟨60, .prune⟩]) = [.ok 1, .ok 2, .ok 1] ∧
      (RateLimitStore.postgres .empty).counts (threeHits []) = [.ok 1, .ok 2, .ok 1] := by
  have hm : Chronological (threeHits [⟨60, .prune⟩]) := by unfold Chronological threeHits; simp
  have hp : Chronological (threeHits []) := by unfold Chronological threeHits; simp
  have h := backends_agree hm hp rfl
  exact ⟨h.1, h.2.1⟩

def flood (n : Nat) : List Timed := List.replicate n ⟨0, .hit ("203.0.113.5", "auth") 60⟩

theorem exists_answer_flood {w : Window} (hw : 0 < w.expires) (n : Nat)
    (h : windows ("203.0.113.5", "auth") = some w) :
    ∃ a ∈ answers windows (hitsOf (flood (n + 1))), a.2.hits = w.hits + n + 1 := by
  have hnext : next 0 60 (some w) = { w with hits := w.hits + 1 } := if_neg (Nat.not_le.mpr hw)
  induction n generalizing windows w with
  | zero => exact ⟨_, mem_cons_self, by rw [h, hnext]⟩
  | succ n ih =>
    have hself : Function.update windows ("203.0.113.5", "auth")
        (some { w with hits := w.hits + 1 })
        ("203.0.113.5", "auth") = some { w with hits := w.hits + 1 } := Function.update_self ..
    obtain ⟨a, ha, hits⟩ := ih (show 0 < { w with hits := w.hits + 1 }.expires from hw) hself
      (if_neg (Nat.not_le.mpr hw))
    refine ⟨a, mem_cons_of_mem _ ?_, ?_⟩
    · rw [h, hnext]
      exact ha
    · rw [hits]
      show w.hits + 1 + n + 1 = w.hits + (n + 1) + 1
      omega

/-- The table has no count for the last of `2 ^ 63` hits in one window. -/
theorem flood_refused : Chronological (flood (bigintMax + 1)) ∧
    (RateLimitStore.postgres .empty).counts (flood (bigintMax + 1)) ≠
      (answers noWindows (hitsOf (flood (bigintMax + 1)))).map (fun a => .ok a.2.hits) := by
  have hch : Chronological (flood (bigintMax + 1)) :=
    List.pairwise_replicate.mpr (.inr (Nat.le_refl _))
  have htab : Shows bigintMax 0 (RateLimitStore.postgres .empty).lookup noWindows :=
    fun k => congrArg (live 0) Std.HashMap.getElem?_empty
  refine ⟨hch, ?_⟩
  rw [counts_eq htab hch (fun e _ => Nat.zero_le e.time)]
  intro heq
  have hpoint := List.map_inj_left.mp heq
  have hself : Function.update noWindows ("203.0.113.5", "auth") (some ⟨0, 60, 1⟩)
      ("203.0.113.5", "auth") = some ⟨0, 60, 1⟩ := Function.update_self ..
  obtain ⟨a, ha, hits⟩ := exists_answer_flood (show 0 < (⟨0, 60, 1⟩ : Window).expires by decide)
    (bigintMax - 1) hself
  have hmem : a ∈ answers noWindows (hitsOf (flood (bigintMax + 1))) := List.mem_cons_of_mem _ ha
  have hbig : ¬a.2.hits ≤ bigintMax := by
    rw [hits]
    simp only [bigintMax]
    omega
  have hbad := hpoint a hmem
  simp only [RateLimitStore.answer, if_neg hbig] at hbad
  cases hbad

end Octo.RateLimit
