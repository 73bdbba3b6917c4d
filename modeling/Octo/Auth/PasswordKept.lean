import Octo.Auth.Consistent

/-!
# A replaced password and the re-hash of a login

`login` verifies its password against the row it has read and, if the hash is outdated, later writes
a new hash of that password.  If the stored hash still verifies the password then, the hash after
the latest change verifies the new password and no other (`latest_password_stands`).  If the
password was changed in between, the write brings the old one back (`rehash_restores_old`).
-/

namespace Octo.Auth

open Conc Octo.Api List

/-- Hashing and verification are correct, and no two passwords verify against one hash. -/
structure PasswordHashing.Lawful (h : PasswordHashing) : Prop where
  verify_hash : ∀ salt password phc, h.hash salt password = some phc → h.verify password phc = true
  verify_inj : ∀ p p' phc, h.verify p phc = true → h.verify p' phc = true → p = p'

theorem tagHashing_lawful : tagHashing.Lawful where
  verify_hash := by
    intro salt password phc h
    cases h
    simp [tagHashing]
  verify_inj := by
    intro p p' phc hp hp'
    simp only [tagHashing, beq_iff_eq] at hp hp'
    exact String.toList_inj.mp (hp.symm.trans hp')

/-- The latest change of the user's password is the call `x` of thread `i`. -/
def LatestChange (u : Uuid) (w : World) (i : Nat) (x : Act) : Prop :=
  ∃ later before, w.hist = later ++ ⟨i, x⟩ :: before ∧ Changes u x ∧ ∀ e ∈ later, ¬ Changes u e.act

variable {x : Act} {s : State} {o : Op} {a : Ans o}

theorem LatestChange.record {u : Uuid} {w : World} {i k : Nat}
    (h : LatestChange u (w.record k o a s) i x) :
    k = i ∧ x = ⟨o, a, w.db, s⟩ ∧ Changes u x ∨ LatestChange u w i x ∧
    ¬ Changes u ⟨o, a, w.db, s⟩ := by
  obtain ⟨later, before, hhist, hch, hlater⟩ := h
  cases later with
  | nil =>
    obtain ⟨hnew, -⟩ := cons.inj hhist
    cases hnew
    exact .inl ⟨rfl, rfl, hch⟩
  | cons e later =>
    obtain ⟨rfl, hrest⟩ := cons.inj hhist
    refine .inr ⟨⟨later, before, hrest, hch, ?_⟩, hlater _ mem_cons_self⟩
    exact (forall_mem_cons.mp hlater).2

/-- Where a login writes a new hash, the stored one still verifies its password. -/
def stillVerifies (out : Outside) (w : World) : Label Job Op Ans → Bool
  | .call i (.store (.rehashPassword id _)) _ =>
    match w.jobs[i]?.bind Job.loginPassword with
    | some p => w.db.db.users.all (fun u => u.id != id || out.hashing.verify p u.passwordHash)
    | none => true
  | _ => true

def AnyState (_ : State) : Prop := True

def Stands (out : Outside) (u : Uuid) (w : World) : Prop :=
  ∀ i x j new, LatestChange u w i x → w.jobs[i]? = some j → j.newPassword = some new →
    ∀ row ∈ w.db.db.users, row.id = u → out.hashing.verify new row.passwordHash = true

variable {out : Outside} {w : World} {u : Uuid} {j : Job}

theorem Changes.verifies (hlaw : out.hashing.Lawful) (h : Changes u x) {tr : List Act}
    (hallowed : Allowed out j tr x.op) {new : String} (hnew : j.newPassword = some new) {row : User}
    (hrow : row ∈ x.post.db.users) (hid : row.id = u) :
    out.hashing.verify new row.passwordHash = true := by
  obtain ⟨phc, keep, _, hop, hok, hpost⟩ := h
  rw [hop] at hallowed
  obtain ⟨p, hp, salt, hhash⟩ := hallowed
  obtain rfl : p = new := Option.some.inj (hp.symm.trans hnew)
  have hphc : row.passwordHash = phc := by
    obtain ⟨n, hbump⟩ := AuthDb.changePassword_ok hok
    obtain ⟨-, -, -, -, hdb⟩ := AuthDb.bumpEpoch_ok hbump
    rw [hpost] at hrow
    change row ∈ (x.pre.db.bumpEpoch u keep
      (fun v => { v with passwordHash := phc })).2.users at hrow
    rw [hdb] at hrow
    obtain ⟨old, -, hid', ⟨hne, -⟩ | ⟨-, rfl⟩⟩ := AuthDb.mem_updateUser hrow
    · exact absurd (hid'.trans hid) hne
    · rfl
  rw [hphc]
  exact hlaw.verify_hash salt p phc hhash

theorem Stands.addJob (h : Stands out u w) (htid : ∀ e ∈ w.hist, e.tid < w.jobs.length) :
    Stands out u (w.addJob j) := by
  intro i x j' new hlatest hj
  obtain ⟨_, _, hhist, -⟩ := id hlatest
  have hlt : i < w.jobs.length := by
    apply htid ⟨i, x⟩
    rw [World.addJob_hist] at hhist
    rw [hhist]
    simp
  rw [World.addJob_jobs, getElem?_append_left hlt] at hj
  exact h i x j' new hlatest hj

theorem Stands.record (hlaw : out.hashing.Lawful) (h : Stands out u w) {k : Nat}
    (hj : w.jobs[k]? = some j) {ch : Choice}
    (hallowed : Allowed out j (w.trace k) o) (hexec : exec out o ch w.db = some (a, s))
    (hstill : stillVerifies out w (.call k o a) = true) : Stands out u (w.record k o a s) := by
  intro i x j' new hlatest hj' hnew row hrow hid
  rcases hlatest.record with ⟨rfl, rfl, hch⟩ | ⟨hlatest, hno⟩
  · -- the change itself
    obtain rfl : j = j' := Option.some.inj (hj.symm.trans hj')
    exact hch.verifies hlaw hallowed hnew hrow hid
  have hold := h i x j' new hlatest hj' hnew
  rcases exec_cases hexec with rfl | ⟨q, rfl, rfl⟩ | ⟨_, _, _, _, rfl, -, -, rfl⟩
  · exact hold row hrow hid
  · obtain ⟨old, hmem, hid', hsame | rfl | ⟨keep, epoch, rfl, hok⟩⟩ := AuthDb.mem_users_after hrow
    · rw [hsame]
      exact hold old hmem (hid'.trans hid)
    · -- a re-hash, of the password that the stored hash verifies
      obtain ⟨p, hp, salt, hhash⟩ := hallowed
      simp only [stillVerifies, hj, Option.bind_some, hp, all_eq_true] at hstill
      have hverify : out.hashing.verify p old.passwordHash = true := by
        simpa [hid'] using hstill old hmem
      have hsame := hlaw.verify_inj _ _ _ hverify (hold old hmem (hid'.trans hid))
      rw [← hsame]
      exact hlaw.verify_hash salt p _ hhash
    · -- another change would be the latest one
      refine absurd ⟨row.passwordHash, keep, epoch, ?_⟩ hno
      rw [← hid]
      exact ⟨rfl, hok, rfl⟩
  · exact hold row hrow hid

theorem stands_reach (hlaw : out.hashing.Lawful) {c : Conf}
    (h : Reach (system out) (fun w l => stillVerifies out w l = true) AnyState c) :
    Stands out u c.world := by
  have hstrong := Reach.strengthen (K := fun w => ∀ e ∈ w.hist, e.tid < w.jobs.length)
    (fun c hc e he => by
    obtain ⟨j, hj⟩ := reach_job_of_trace hc (World.mem_trace.mpr he)
    exact (List.getElem?_eq_some_iff.mp hj).1) h
  refine (discipline out).invariant ?_ ?_ ?_ ?_ hstrong
  · rintro s - i x j new ⟨later, _, hhist, -⟩
    cases later <;> cases hhist
  · intro w j hw _ hl
    exact hw.addJob hl.2
  · intro w i j o ch a s hw _ hj hallowed hexec hl
    exact hw.record hlaw hj hallowed hexec hl.1
  · intro w e s hw henv _
    cases e with
    | tick =>
      rw [← Option.some.inj henv]
      exact hw

/-- **The password that was set last stands**, and no other is right, as long as no login writes a
hash of a password that the stored hash does not verify any more. -/
theorem latest_password_stands (hlaw : out.hashing.Lawful) {c : Conf}
    (h : Reach (system out) (fun w l => stillVerifies out w l = true) AnyState c) {i : Nat}
    {x : Act} (hlatest : LatestChange u c.world i x) {j : Job} {new : String}
    (hj : c.world.jobs[i]? = some j) (hnew : j.newPassword = some new) {row : User}
    (hrow : row ∈ c.world.db.db.users) (hid : row.id = u) :
    out.hashing.verify new row.passwordHash = true ∧
      ∀ p, p ≠ new → out.hashing.verify p row.passwordHash = false := by
  have hverify := stands_reach hlaw h i x j new hlatest hj hnew row hrow hid
  refine ⟨hverify, ?_⟩
  intro p hne
  apply Bool.eq_false_iff.mpr
  intro htrue
  exact hne (hlaw.verify_inj _ _ _ htrue hverify)

/-! ### Schedules -/

def isChangeCall (u : Uuid) : Op → Bool
  | .store (.changePassword v _ _) => u == v
  | _ => false

theorem not_changes_of_op (h : isChangeCall u x.op = false) : ¬ Changes u x := by
  rintro ⟨phc, _, _, hop, -⟩
  rw [hop] at h
  simp [isChangeCall] at h

/-- Thread `i` has made the last call that may have changed the password, and was answered. -/
def changedLast (u : Uuid) (i : Nat) (w : World) : Bool :=
  match w.hist.find? (fun e => isChangeCall u e.act.op) with
  | some e => e.tid == i && isChange u e.act
  | none => false

theorem latestChange_of_changedLast (hw : w.Chained (system out) Grows) {i : Nat}
    (h : changedLast u i w = true) : ∃ x, LatestChange u w i x := by
  unfold changedLast at h
  split at h
  · rename_i e he
    obtain ⟨htid, hch⟩ := Bool.and_eq_true_iff.mp h
    obtain rfl := beq_iff_eq.mp htid
    obtain ⟨-, later, before, hhist, hlater⟩ := find?_eq_some_iff_append.mp he
    have hmem : e ∈ w.hist := mem_of_find?_eq_some he
    refine ⟨e.act, later, before, hhist, changes_of_isChange (hw.executed e hmem) hch, ?_⟩
    intro e' he'
    apply not_changes_of_op
    simpa using hlater e' he'
  · cases h

def oldCredentials : Credentials := ⟨some "ann@octo.dev", some "old-password"⟩

def loginMoves (i : Nat) : List (Move Job Choice Env) :=
  [.call i (.answer true), served i, served i, served i, .call i (.drawn 0)]

def rehashMoves (i : Nat) : List (Move Job Choice Env) :=
  [served i, computed i, served i, computed i]

/-- A login that replaces the outdated hash, and then a password change. -/
def loginThenChange : List (Move Job Choice Env) :=
  .start (.login oldCredentials) :: loginMoves 0 ++ rehashMoves 0 ++
    .start (.changePassword exampleToken exampleRequest) :: changeMoves 1

theorem changed_after_login : ∃ c : Conf,
    Reach (system exampleOut) (fun w l => stillVerifies exampleOut w l = true) AnyState c ∧
    ∃ row ∈ c.world.db.db.users, tagHashing.verify "new-password" row.passwordHash = true ∧
      tagHashing.verify "old-password" row.passwordHash = false := by
  obtain ⟨c, hc, hlast, hjob, row, hrow, hid⟩ := exists_reach_of_runMovesIf (S := system exampleOut)
    (stillVerifies exampleOut) (show AnyState (exampleState "v1:old-password") from trivial)
    loginThenChange (p := fun c =>
      changedLast 1 1 c.world ∧
        c.world.jobs[1]? = some (.changePassword exampleToken exampleRequest) ∧
      ∃ row ∈ c.world.db.db.users, row.id = 1) (by decide +kernel)
  obtain ⟨x, hlatest⟩ := latestChange_of_changedLast ((discipline exampleOut).chained hc) hlast
  have hstands := latest_password_stands tagHashing_lawful hc hlatest hjob rfl hrow hid
  exact ⟨c, hc, row, hrow, hstands.1, hstands.2 _ (by decide)⟩

/-- A login is about to write its new hash, the password is changed, and the login goes on. -/
def changeInsideLogin : List (Move Job Choice Env) :=
  .start (.login oldCredentials) :: loginMoves 0 ++
    .start (.changePassword exampleToken exampleRequest) :: changeMoves 1 ++ rehashMoves 0

theorem rehash_restores_old : tagHashing.Lawful ∧ ∃ c : Conf,
    Reachable (system exampleOut) AnyState c ∧
    c.world.jobs = [.login oldCredentials, .changePassword exampleToken exampleRequest] ∧
    (∀ p ∈ c.threads, hasReturned p = true) ∧ (∃ x ∈ c.world.trace 1, Changes 1 x) ∧
    ∃ row ∈ c.world.db.db.users, row.id = 1 ∧
      tagHashing.verify "new-password" row.passwordHash = false ∧
      tagHashing.verify "old-password" row.passwordHash = true := by
  obtain ⟨c, hc, hjobs, hret, ⟨x, hx, hisx⟩, hrow⟩ := exists_reachable_of_runMoves
    (S := system exampleOut) (show AnyState (exampleState "v1:old-password") from trivial)
    changeInsideLogin (p := fun c =>
      c.world.jobs = [.login oldCredentials, .changePassword exampleToken exampleRequest] ∧
      (∀ p ∈ c.threads, hasReturned p = true) ∧ (∃ x ∈ c.world.trace 1, isChange 1 x) ∧
      ∃ row ∈ c.world.db.db.users, row.id = 1 ∧
        tagHashing.verify "new-password" row.passwordHash = false ∧
        tagHashing.verify "old-password" row.passwordHash = true) (by decide +kernel)
  have hexec := ((discipline exampleOut).chained hc).executed _ (World.mem_trace.mp hx)
  exact ⟨tagHashing_lawful, c, hc, hjobs, hret, ⟨x, hx, changes_of_isChange hexec hisx⟩, hrow⟩

end Octo.Auth
