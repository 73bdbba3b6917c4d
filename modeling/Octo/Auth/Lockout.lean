import Octo.Auth.Consistent

/-!
# Account lockout

`record_auth_failure` keeps one row per e-mail address: a count of failures, the start of the window
they are counted in, and the lock.  A failure that comes more than fifteen minutes after the start
of the window opens a new window with the count at one.  Whether the failure locks is decided on the
count as it was before that, so the failures of a window that has run out still count towards the
lock.
-/

namespace Octo.Auth

open Conc Octo.Api List Option

/-! ### The rows -/

variable {key : String}

namespace AuthDb

variable (db : AuthDb)

def lockoutRow (key : String) : Option Lockout := db.lockouts.find? (fun l => l.email == key)

def lock (key : String) : Option Time := (db.lockoutRow key).bind (·.lockedUntil)

def lockLength (count : Nat) : Time := 60 * 2 ^ min count 6 * microsPerSec

theorem lockLength_le_succ (count : Nat) : lockLength count ≤ lockLength (count + 1) := by
  apply Nat.mul_le_mul_right
  apply Nat.mul_le_mul_left
  apply Nat.pow_le_pow_right (by decide)
  omega

variable {db}

theorem lockoutRow_eq_none :
    db.lockoutRow key = none ↔ db.lockouts.any (fun l => l.email == key) = false := by
  simp [lockoutRow]

theorem failAgain_email (l : Lockout) : (db.failAgain l).email = l.email := by
  -- on a variable the two rows would be compared field by field
  obtain ⟨_, _, _, _, _⟩ := l
  rfl

theorem find?_failAgain (key k : String) (rows : List Lockout) :
    (rows.map (fun l => if l.email == key then db.failAgain l else l)).find?
      (fun l => l.email == k) =
      (rows.find? (fun l => l.email == k)).map
        (fun l => if k = key then db.failAgain l else l) := by
  induction rows with
  | nil => rfl
  | cons l rows ih =>
    have hemail : (if l.email == key then db.failAgain l else l).email = l.email := by
      rw [apply_ite Lockout.email, failAgain_email, ite_self]
    rw [map_cons, find?_cons, find?_cons, hemail, ih]
    by_cases hk : l.email = k
    · rw [beq_iff_eq.mpr hk, hk]
      simp only [map_some, beq_iff_eq]
    · rw [beq_eq_false_iff_ne.mpr hk]

variable (email : String)

/-- The row of an address after a failure. -/
theorem lockoutRow_countFailure_self : (db.countFailure email).lockoutRow email.toLower =
      some ((db.lockoutRow email.toLower).elim ⟨email.toLower, 1, db.now, 0, none⟩
        db.failAgain) := by
  unfold countFailure
  cases hrow : db.lockoutRow email.toLower with
  | none =>
    have hany := lockoutRow_eq_none.mp hrow
    simp only [hany]
    unfold lockoutRow at hrow ⊢
    simp [hrow]
  | some l =>
    have hany : db.lockouts.any (fun l => l.email == email.toLower) = true := by
      rw [← Bool.not_eq_false]
      intro h
      rw [lockoutRow_eq_none.mpr h] at hrow
      cases hrow
    simp only [hany]
    unfold lockoutRow at hrow ⊢
    simp only [if_true]
    rw [find?_failAgain, hrow]
    simp

theorem lockoutRow_countFailure_other {email key : String} (h : email.toLower ≠ key) :
    (db.countFailure email).lockoutRow key = db.lockoutRow key := by
  unfold countFailure lockoutRow
  split
  · rw [find?_failAgain]
    simp [Ne.symm h]
  · simp [h]

theorem lockoutRow_resetAuthFailures_self :
    (db.resetAuthFailures email).lockoutRow email.toLower = none := by
  simp [resetAuthFailures, lockoutRow]

theorem lockoutRow_resetAuthFailures_other {email key : String} (h : email.toLower ≠ key) :
    (db.resetAuthFailures email).lockoutRow key = db.lockoutRow key := by
  unfold resetAuthFailures lockoutRow
  rw [find?_filter]
  congr 1
  funext l
  by_cases hl : l.email = key
  · simp [hl, Ne.symm h]
  · simp [hl]

theorem statement_lockouts {o : StoreOp} (hfail : ∀ email, o ≠ .recordAuthFailure email)
    (hreset : ∀ email, o ≠ .resetAuthFailures email) :
    (statement o db).2.lockouts = db.lockouts := by
  cases o with
  | recordAuthFailure email => exact absurd rfl (hfail email)
  | resetAuthFailures email => exact absurd rfl (hreset email)
  | createSession => simp only [statement, createSession]; split <;> rfl
  | denylistToken =>
    simp only [statement, denylistToken]; split <;> [rfl; split] <;> rfl
  | changePassword =>
    simp only [statement, changePassword, bumpEpoch]; split <;> [rfl; split] <;> rfl
  | revokeOtherSessions =>
    simp only [statement, revokeOtherSessions, bumpEpoch]; split <;> [rfl; split] <;> rfl
  | _ => rfl

theorem recordAuthFailure_eq : (db.recordAuthFailure email).2 =
      if (db.lockoutRow email.toLower).any overflows then db else db.countFailure email := by
  have hrow : db.lockouts.find? (fun l => l.email == email.toLower) = db.lockoutRow email.toLower :=
    rfl
  simp only [recordAuthFailure, hrow]
  split <;> rfl

/-- The lock of an address after a failure. -/
theorem lock_recordAuthFailure : (db.recordAuthFailure email).2.lock email.toLower =
      (db.lockoutRow email.toLower).bind
        (fun l => if overflows l then l.lockedUntil else (db.failAgain l).lockedUntil) := by
  rw [recordAuthFailure_eq]
  unfold lock
  cases hl : db.lockoutRow email.toLower with
  | none =>
    rw [if_neg (by decide), lockoutRow_countFailure_self, hl]
    rfl
  | some =>
    rw [any_some, bind_some]
    split
    · rw [hl, bind_some]
    · rw [lockoutRow_countFailure_self, hl, elim_some, bind_some]

end AuthDb

open AuthDb (fifteenMinutes lockLength lockLength_le_succ)

variable {ch : Choice} {o : Op} {a : Ans o}

theorem exec_lockoutRow {out : Outside} {s s' : State} (h : exec out o ch s = some (a, s'))
    (key : String) :
    s'.db.lockoutRow key = s.db.lockoutRow key ∨ s'.db.lockoutRow key = none ∨
      ∃ email, o = .store (.recordAuthFailure email) ∧ email.toLower = key ∧
        s'.db = s.db.countFailure email := by
  rcases exec_cases h with rfl | ⟨q, rfl, rfl⟩ | ⟨u, _, sid, _, -, -, -, rfl⟩
  · exact .inl rfl
  · by_cases hfail : ∃ email, q = .recordAuthFailure email
    · obtain ⟨email, rfl⟩ := hfail
      have heq : (s.after (.recordAuthFailure email)).db = _ := s.db.recordAuthFailure_eq email
      rw [heq]
      split
      · exact .inl rfl
      by_cases hkey : email.toLower = key
      · exact .inr (.inr ⟨email, rfl, hkey, rfl⟩)
      · exact .inl (AuthDb.lockoutRow_countFailure_other hkey)
    by_cases hreset : ∃ email, q = .resetAuthFailures email
    · obtain ⟨email, rfl⟩ := hreset
      by_cases hkey : email.toLower = key
      · subst hkey
        exact .inr (.inl (AuthDb.lockoutRow_resetAuthFailures_self email))
      · exact .inl (AuthDb.lockoutRow_resetAuthFailures_other hkey)
    · left
      have hrows : (statement q s.db).2.lockouts = s.db.lockouts :=
        AuthDb.statement_lockouts (fun e he => hfail ⟨e, he⟩) (fun e he => hreset ⟨e, he⟩)
      show (statement q s.db).2.lockouts.find? _ = s.db.lockouts.find? _
      rw [hrows]
  · exact .inl rfl

/-! ### The failed logins of the history -/

def failedAt (key : String) : Act → Option Time
  | ⟨.store (.recordAuthFailure email), _, s, _⟩ =>
    if email.toLower = key then some s.db.now else none
  | _ => none

/-- A login under the key has found the password right and cleared the failures. -/
def succeeded (key : String) : Act → Bool
  | ⟨.store (.resetAuthFailures email), .ok _, _, _⟩ => decide (email.toLower = key)
  | _ => false

/-- The times of the failed logins under a key since the last successful one, newest first.  A login
that is refused before its password is looked at, because of a lock or a rate limit, is not one of
them. -/
def failures (key : String) : List (Event Op Ans State) → List Time
  | [] => []
  | e :: rest => if succeeded key e.act then [] else (failedAt key e.act).toList ++
      failures key rest

/-- How many of them fell within the fifteen minutes that end at `now`. -/
def recent (key : String) (hist : List (Event Op Ans State)) (now : Time) : Nat :=
  (failures key hist).countP (fun t => decide (now ≤ t + fifteenMinutes))

/-! ### What a row knows of them -/

/-- The row counts no more than the failures since the start of its window, and its lock was set
before the window ran out. -/
structure RowCounted (fs : List Time) (now : Time) (l : Lockout) : Prop where
  window : l.windowStarted ≤ now
  count : l.failedAttempts ≤ fs.countP (fun t => decide (l.windowStarted ≤ t))
  lock : ∀ t, l.lockedUntil = some t → t ≤ l.windowStarted + fifteenMinutes +
    lockLength l.lockoutCount

variable {db : AuthDb} {fs : List Time} {l : Lockout}

theorem RowCounted.mono {fs fs' : List Time} {now now' : Time} (h : RowCounted fs now l)
    (hfs : fs.Sublist fs') (hnow : now ≤ now') : RowCounted fs' now' l where
  window := h.window.trans hnow
  count := Int.le_trans h.count (Int.ofNat_le.mpr hfs.countP_le)
  lock := h.lock

theorem rowCounted_fresh (fs : List Time) (now : Time) (key : String) :
    RowCounted (now :: fs) now ⟨key, 1, now, 0, none⟩ where
  window := Nat.le_refl _
  count := by
    rw [countP_cons_of_pos (by simp)]
    push_cast
    omega
  lock := fun _ h => nomatch h

theorem RowCounted.failAgain (h : RowCounted fs db.now l) :
    RowCounted (db.now :: fs) db.now (db.failAgain l) := by
  have hwindow := h.window
  -- the lock after the failure, against a window that is not over
  have hlock : ∀ start t, l.windowStarted ≤ start → db.now ≤ start + fifteenMinutes →
      (db.failAgain l).lockedUntil = some t →
      t ≤ start + fifteenMinutes + lockLength (db.failAgain l).lockoutCount := by
    intro start t hstart hopen ht
    by_cases hlocks : 5 ≤ l.failedAttempts + 1
    · simp only [AuthDb.failAgain, hlocks, decide_true, if_true, some.injEq] at ht ⊢
      rw [← ht]
      exact Nat.add_le_add hopen (lockLength_le_succ l.lockoutCount)
    · simp only [AuthDb.failAgain, hlocks] at ht ⊢
      calc t ≤ l.windowStarted + fifteenMinutes + lockLength l.lockoutCount := h.lock t ht
        _ ≤ start + fifteenMinutes + lockLength l.lockoutCount :=
          Nat.add_le_add_right (Nat.add_le_add_right hstart _) _
  by_cases hstale : l.windowStarted + fifteenMinutes < db.now
  · have hstart : (db.failAgain l).windowStarted = db.now := by simp [AuthDb.failAgain, hstale]
    have hcount : (db.failAgain l).failedAttempts = 1 := by simp [AuthDb.failAgain, hstale]
    refine ⟨Nat.le_of_eq hstart, ?_,
      fun t ht => hstart ▸ hlock _ t hwindow (Nat.le_add_right _ _) ht⟩
    rw [hstart, countP_cons_of_pos (by simp)]
    omega
  · have hstart : (db.failAgain l).windowStarted = l.windowStarted := by
      simp [AuthDb.failAgain, hstale]
    have hcount : (db.failAgain l).failedAttempts = l.failedAttempts + 1 := by
      simp [AuthDb.failAgain, hstale]
    refine ⟨hstart ▸ hwindow, ?_, fun t ht => hstart ▸ hlock _ t (Nat.le_refl _)
      (Nat.not_lt.mp hstale) ht⟩
    have := h.count
    rw [hstart, countP_cons_of_pos (by simpa using hwindow)]
    omega

/-- The count of a row is at most the number of failures since the start of its window. -/
def Counted (key : String) (w : World) : Prop :=
  ∀ l, w.db.db.lockoutRow key = some l → RowCounted (failures key w.hist) w.db.db.now l

theorem counted_record {out : Outside} {w : World} {i : Nat} {s : State} (h : Counted key w)
    (hexec : exec out o ch w.db = some (a, s)) : Counted key (w.record i o a s) := by
  intro l hl
  change s.db.lockoutRow key = some l at hl
  have hnow : w.db.db.now ≤ s.db.now := (exec_grows hexec).db.now
  show RowCounted (failures key (⟨i, o, a, w.db, s⟩ :: w.hist)) s.db.now l
  by_cases hsucc : succeeded key ⟨o, a, w.db, s⟩ = true
  · -- the answered reset has deleted the row
    unfold succeeded at hsucc
    split at hsucc
    · rename_i email v s0 s1 hx
      cases hx
      obtain ⟨-, rfl⟩ := exec_store_ok hexec
      have hkey : email.toLower = key := of_decide_eq_true hsucc
      subst hkey
      have hnone : (w.db.after (.resetAuthFailures email)).db.lockoutRow email.toLower = none :=
        AuthDb.lockoutRow_resetAuthFailures_self email
      rw [hnone] at hl
      cases hl
    · cases hsucc
  · have hfs : failures key (⟨i, o, a, w.db, s⟩ :: w.hist) =
        (failedAt key ⟨o, a, w.db, s⟩).toList ++ failures key w.hist := if_neg hsucc
    rw [hfs]
    rcases exec_lockoutRow hexec key with hsame | hnone | ⟨email, rfl, hkey, hs⟩
    · exact (h l (hsame ▸ hl)).mono (sublist_append_right _ _) hnow
    · rw [hnone] at hl
      cases hl
    · have hat : failedAt key ⟨.store (.recordAuthFailure email), a, w.db, s⟩ = some w.db.db.now :=
        if_pos hkey
      subst hkey
      rw [hs, AuthDb.lockoutRow_countFailure_self] at hl
      rw [hat, hs]
      cases hrow : w.db.db.lockoutRow email.toLower with
      | none =>
        rw [hrow] at hl
        rw [← some.inj hl]
        exact rowCounted_fresh _ _ _
      | some l0 =>
        rw [hrow] at hl
        rw [← some.inj hl]
        exact (h l0 hrow).failAgain

def NoLockouts (s : State) : Prop := s.db.lockouts = []

variable {out : Outside} {c : Conf}

theorem counted (key : String) (h : Reachable (system out) NoLockouts c) : Counted key c.world := by
  refine (discipline out).invariant ?_ ?_ ?_ ?_ h
  · intro s hs l hl
    have hrow : s.db.lockoutRow key = s.db.lockouts.find? (fun l => l.email == key) := rfl
    rw [hs] at hrow
    rw [hrow] at hl
    cases hl
  · exact fun w j hw _ _ => hw
  · exact fun w i j o ch a s hw _ _ _ hexec _ => counted_record hw hexec
  · intro w e s hw he _ l hl
    cases e with
    | tick =>
      cases he
      exact (hw l hl).mono (List.Sublist.refl _) (Nat.le_add_right _ _)

/-! ### When a failure locks -/

theorem four_of_locks (h : (db.failAgain l).lockedUntil ≠ l.lockedUntil) :
    4 ≤ l.failedAttempts := by
  by_cases hlocks : 5 ≤ l.failedAttempts + 1
  · omega
  · exact absurd (by simp [AuthDb.failAgain, hlocks]) h

theorem locks_of_stale (h : RowCounted fs db.now l)
    (hstale : l.windowStarted + fifteenMinutes < db.now) (hfour : 4 ≤ l.failedAttempts) :
    (db.failAgain l).lockedUntil ≠ l.lockedUntil := by
  have hnew : (db.failAgain l).lockedUntil = some (db.now + lockLength l.lockoutCount) := by
    have hlocks : 5 ≤ l.failedAttempts + 1 := by omega
    simp [AuthDb.failAgain, hlocks, lockLength]
  rw [hnew]
  intro hold
  have hle : db.now ≤ l.windowStarted + fifteenMinutes :=
    Nat.le_of_add_le_add_right (h.lock _ hold.symm)
  exact Nat.not_le.mpr hstale hle

theorem RowCounted.le_recent {now : Time} (h : RowCounted fs now l)
    (hfresh : ¬ l.windowStarted + fifteenMinutes < now) :
    l.failedAttempts ≤ fs.countP (fun t => decide (now ≤ t + fifteenMinutes)) := by
  refine Int.le_trans h.count (Int.ofNat_le.mpr (countP_mono_left ?_))
  intro t _ ht
  simp only [decide_eq_true_eq] at ht ⊢
  exact Nat.le_trans (Nat.not_lt.mp hfresh) (Nat.add_le_add_right ht _)

/-- **Lockout is windowed, unless the row holds four failures of a window that has run out**: in
every reachable configuration a failed login changes the lock only on the fifth failure of the last
fifteen minutes, if and only if the row either is within its window, or holds fewer than four
failures, or has four recent ones anyway, or its counters are used up. -/
theorem lockout_windowed_iff (h : Reachable (system out) NoLockouts c) (email : String) :
    ((c.world.db.db.recordAuthFailure email).2.lock email.toLower ≠
      c.world.db.db.lock email.toLower →
        5 ≤ recent email.toLower c.world.hist c.world.db.db.now + 1) ↔
      ∀ l, c.world.db.db.lockoutRow email.toLower = some l →
        l.windowStarted + fifteenMinutes < c.world.db.db.now → 4 ≤ l.failedAttempts →
          AuthDb.overflows l = false → 4 ≤ recent email.toLower c.world.hist c.world.db.db.now := by
  have hcounted := counted email.toLower h
  rw [AuthDb.lock_recordAuthFailure]
  unfold AuthDb.lock
  cases hrow : c.world.db.db.lockoutRow email.toLower with
  | none => simp
  | some l =>
    have hl := hcounted l hrow
    constructor
    · intro hwindowed l' hl' hstale hfour hfits
      cases hl'
      rw [bind_some, hfits] at hwindowed
      have := hwindowed (locks_of_stale hl hstale hfour)
      omega
    · intro hcond hchanged
      rw [bind_some] at hchanged
      have hfits : AuthDb.overflows l = false := by
        by_contra hover
        rw [if_pos (by simpa using hover)] at hchanged
        exact hchanged rfl
      rw [hfits] at hchanged
      have hfour := four_of_locks hchanged
      by_cases hstale : l.windowStarted + fifteenMinutes < c.world.db.db.now
      · have := hcond l rfl hstale hfour hfits
        omega
      · have hle := hl.le_recent hstale
        unfold recent
        omega

theorem exampleState_noLockouts (phc : String) : NoLockouts (exampleState phc) := rfl

/-- A login with a wrong password by thread `i`, up to the recording of its failure. -/
def failMoves (i : Nat) : List (Move Job Choice Env) :=
  [.start (.login ⟨some "ann@octo.dev", some "wrong-password"⟩), .call i (.answer true), served i,
    served i]

def fourFailures : List (Move Job Choice Env) :=
  [0, 1, 2, 3].flatMap (fun i => failMoves i ++ [served i])

/-- Four failures, and a fifth at once: it locks. -/
theorem fifth_failure_locks : ∃ c : Conf, Reachable (system exampleOut) NoLockouts c ∧
    c.world.db.db.lock "ann@octo.dev" = none ∧
    ((c.world.db.db.recordAuthFailure "ann@octo.dev").2.lock "ann@octo.dev" ≠ none) ∧
    5 ≤ recent "ann@octo.dev" c.world.hist c.world.db.db.now + 1 := by
  obtain ⟨c, hc, hnone, hsome, hnow⟩ := exists_reachable_of_runMoves (S := system exampleOut)
    (exampleState_noLockouts "v2:old-password") (fourFailures ++ failMoves 4) (p := fun c =>
      c.world.db.db.lock "ann@octo.dev" = none ∧
      (c.world.db.db.recordAuthFailure "ann@octo.dev").2.lock "ann@octo.dev" ≠ none ∧
      c.world.db.db.now = 0) (by decide +kernel)
  have hlower : "ann@octo.dev".toLower = "ann@octo.dev" := by decide +kernel
  have hwindowed := (lockout_windowed_iff hc "ann@octo.dev").mpr (by
    intro l hl hstale
    rw [hnow] at hstale
    exact absurd hstale (Nat.not_lt_zero _))
  rw [hlower, hnone] at hwindowed
  exact ⟨c, hc, hnone, hsome, hwindowed hsome⟩

def staleMoves : List (Move Job Choice Env) :=
  fourFailures ++ [.env (.tick (16 * 60 * microsPerSec))] ++ failMoves 4 ++ [served 4]

/-- Four failures, a pause, and a fifth that locks on its own. -/
theorem stale_failures_lock : ∃ c : Conf, Reachable (system exampleOut) NoLockouts c ∧
    ∃ e rest, c.world.hist = e :: rest ∧ e.act.op = .store (.recordAuthFailure "ann@octo.dev") ∧
      e.act.pre.db.lock "ann@octo.dev" = none ∧
      e.act.post.db.lock "ann@octo.dev" = some (e.act.pre.db.now + 60 * microsPerSec) ∧
      recent "ann@octo.dev" rest e.act.pre.db.now + 1 = 1 := by
  obtain ⟨c, hc, e, he, hop, hpre, hpost, hrecent⟩ := exists_reachable_of_runMoves
    (S := system exampleOut) (exampleState_noLockouts "v2:old-password") staleMoves (p := fun c =>
      ∃ e ∈ c.world.hist.head?, e.act.op = .store (.recordAuthFailure "ann@octo.dev") ∧
        e.act.pre.db.lock "ann@octo.dev" = none ∧
        e.act.post.db.lock "ann@octo.dev" = some (e.act.pre.db.now + 60 * microsPerSec) ∧
        recent "ann@octo.dev" c.world.hist.tail e.act.pre.db.now + 1 = 1) (by decide +kernel)
  have hhist : c.world.hist = e :: c.world.hist.tail := (List.cons_head?_tail he).symm
  exact ⟨c, hc, e, _, hhist, hop, hpre, hpost, hrecent⟩

end Octo.Auth
