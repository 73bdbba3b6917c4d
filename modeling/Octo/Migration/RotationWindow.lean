import Octo.Conc.Runs
import Octo.Migration.Completeness

/-!
# Migrating what the server wrote in the rotation window

While both keys are configured the server seals new seeds under the next key, in scheme V1, so a
table holds V1 rows under either key.  The tool opens every row that is not in scheme V2 with the
old key.
-/

namespace Octo.Migration

open Conc Conc.Prog Crypto List

/-- A call that does not fail; the `n`-th call draws `rng n`. -/
def serve (rng : Nat → Draw) : (o : Op) → Nat → State → Ans o × State
  | .call c, _, s => act c s
  | .draw, n, s => (rng n, s)

def runAlone (out : Outside) (rng : Nat → Draw) (cfg : Config) (fuel : Nat) (s : State) :
    Except MigrateError Unit × State :=
  let r := (migrate out cfg fuel).run.runWith (serve rng) 0 s
  (r.1, r.2.2)

variable {out : Outside} {rng : Nat → Draw} {cfg : Config} {s s' : State}

/-! ### The run ends -/

/-- The old key opens the row, and it has an account to bind the new record to. -/
def CanReseal (out : Outside) (w : SealedWallet) : Prop :=
  (∃ m, openRow out.aead out.oldKey w = some m) ∧ accountId w ≠ ""

def AllCanReseal (out : Outside) (s : State) : Prop :=
  ∀ w ∈ s.table.rows, needs w = true → CanReseal out w

theorem AllCanReseal.grows (h : AllCanReseal out s) (hg : Grows s s') : AllCanReseal out s' := by
  intro w' hw' hneeds
  obtain ⟨w, hw, hrow⟩ := hg.back w' hw'
  rcases hrow.eq_or_scheme with rfl | h2
  · exact h _ hw hneeds
  · rw [needs_of_scheme h2] at hneeds
    cases hneeds

theorem succeeds_call {c : Call} {v : c.Val} {Q : c.Val → State → Prop} (hv : (act c s).1 = .ok v)
    (hQ : Q v (act c s).2) : Succeeds (serve rng) (call c) Q s := by
  apply succeeds_tryCall
  intro n
  refine ⟨v, ?_, hQ⟩
  show Except.mapError MigrateError.io (act c s).1 = .ok v
  rw [hv]
  rfl

variable {w : SealedWallet} {m : Bytes} {after : Option Uuid}

theorem reseal_ok (hA : out.aead.Ideal) {ciphertext nonce salt : Bytes} {scheme : Int}
    (hc : w.sealedCiphertext = some ciphertext) (hn : w.sealedNonce = some nonce)
    (hs : w.sealedSalt = some salt) (hscheme : w.sealedScheme = some scheme) (h : CanReseal out w) :
    ∃ sealed, sealedOf ciphertext nonce salt scheme = .ok sealed ∧
      ∀ d, ∃ new, resealWithAccountId out.aead d out.oldKey out.newKey sealed (context w)
        (accountId w) = .ok new := by
  obtain ⟨⟨m, hopen⟩, hacct⟩ := h
  simp only [openRow, hc, hn, hs, hscheme, Option.bind_eq_bind, Option.bind_some, Option.getD_some,
    Option.bind_eq_some_iff] at hopen
  obtain ⟨byte, hbyte, sealed, hparts, hopen⟩ := hopen
  cases hfrom : SealedSeed.fromPartsWithScheme ciphertext nonce salt byte with
  | error => rw [hfrom] at hparts; cases hparts
  | ok =>
    rw [hfrom] at hparts
    cases hparts
    refine ⟨sealed, by simp [sealedOf, hbyte, hfrom, Except.mapError], ?_⟩
    intro d
    cases ho : openWithAccountId out.aead out.oldKey sealed (context w) (accountId w) with
    | error => rw [ho] at hopen; cases hopen
    | ok plaintext =>
      have hne : (accountId w).isEmpty = false := by
        apply Bool.eq_false_iff.mpr
        exact fun he => hacct (String.isEmpty_iff.mp he)
      obtain ⟨ct, hct⟩ := Option.isSome_iff_exists.mp (hA.encrypt_isSome
        (out.aead.hkdf d.salt out.newKey (boundContext (context w) (accountId w))) d.nonce
        (boundContext (context w) (accountId w)) plaintext)
      refine ⟨⟨ct, d.nonce, d.salt, schemeV2, d.nonce_length, d.salt_length⟩, ?_⟩
      rw [resealWithAccountId, ho]
      show sealWithAccountId out.aead d out.newKey plaintext (context w) (accountId w) = _
      rw [sealWithAccountId, hne, sealSeed, hct]
      rfl

theorem migrateRow_succeeds (hA : out.aead.Ideal) (h : isSealed w = true → CanReseal out w) :
    Succeeds (serve rng) (migrateRow out cfg w) (fun _ s' => Grows s s') s := by
  unfold migrateRow
  split
  · rename_i hc hn hs hscheme
    have hcan : CanReseal out w := h (by simp [isSealed, hc, hn, hs, hscheme])
    obtain ⟨sealed, hsealed, hreseal⟩ := reseal_ok hA hc hn hs hscheme hcan
    refine Succeeds.bind (succeeds_result (Q := fun v t => sealed = v ∧ s = t) hsealed ⟨rfl, rfl⟩)
      ?_
    intro _ _ hv
    obtain ⟨rfl, rfl⟩ := hv
    refine Succeeds.bind (P := fun _ t => s = t) (succeeds_tryCall (fun n => ⟨rng n, rfl, rfl⟩)) ?_
    intro d _ ht
    subst ht
    obtain ⟨new, hnew⟩ := hreseal d
    refine Succeeds.bind (succeeds_result (Q := fun v t => new = v ∧ s = t) (by rw [hnew]; rfl)
      ⟨rfl, rfl⟩) ?_
    intro _ _ hv
    obtain ⟨rfl, rfl⟩ := hv
    split
    · exact succeeds_pure (.refl _)
    · refine Succeeds.bind (succeeds_call (Q := fun _ t => Grows s t) rfl (act_grows _ _)) ?_
      intro _ t hg
      exact succeeds_pure hg
  · exact succeeds_pure (.refl _)

theorem migrateRows_succeeds (hA : out.aead.Ideal) (ws : List SealedWallet)
    (h : ∀ w ∈ ws, isSealed w = true → CanReseal out w) :
    Succeeds (serve rng) (migrateRows out cfg ws) (fun _ s' => Grows s s') s := by
  induction ws generalizing s with
  | nil => exact succeeds_pure (.refl _)
  | cons w ws ih =>
    refine (migrateRow_succeeds hA (h w mem_cons_self)).bind ?_
    intro _ s1 hg
    refine (ih (forall_mem_cons.mp h).2).imp ?_
    exact fun _ s2 hg' => hg.trans hg'

theorem writeCheckpoint_succeeds {fingerprint : String} {x : Uuid} :
    Succeeds (serve rng) (writeCheckpoint fingerprint x) (fun _ s' => Grows s s') s := by
  have htmp : ∃ i, s.files.createTmp.2.tmp = some i := by
    unfold Files.createTmp
    split
    · rename_i i hi
      exact ⟨i, hi⟩
    · exact ⟨_, rfl⟩
  obtain ⟨i, hi⟩ := htmp
  refine Succeeds.bind (succeeds_call (Q := fun _ t => (act .createTmp s).2 = t) rfl rfl) ?_
  intro inode _ ht
  subst ht
  refine Succeeds.bind (succeeds_call (Q := fun _ t => t.files.tmp = some i ∧ Grows s t) rfl
    ⟨hi, .of_table rfl⟩) ?_
  intro _ t ht
  refine succeeds_call (v := ()) ?_ (ht.2.trans (act_grows .renameTmp t))
  simp only [act, Files.renameTmp, ht.1]

def remaining (after : Option Uuid) (s : State) : Nat :=
  ((s.table.rows.map (·.id)).filter (fun id => after.all (fun a => decide (a < id)))).length

theorem remaining_le (after : Option Uuid) (s : State) :
    remaining after s ≤ s.table.rows.length := by
  have h := length_filter_le (fun id => after.all (fun a => decide (a < id)))
    (s.table.rows.map (·.id))
  rwa [length_map] at h

theorem remaining_lt {n : Nat} {last : SealedWallet}
    (hlast : last ∈ s.table.listWalletsNeedingReseal 2 n after) (hg : Grows s s') :
    remaining (some last.id) s' < remaining after s := by
  obtain ⟨hmem, -, hafter⟩ := WalletTable.mem_list hlast
  unfold remaining
  rw [hg.ids]
  have hsub : (s.table.rows.map (·.id)).filter
      (fun id => (some last.id).all (fun a => decide (a < id))) =
      ((s.table.rows.map (·.id)).filter (fun id => after.all (fun a => decide (a < id)))).filter
        (fun id => (some last.id).all (fun a => decide (a < id))) := by
    rw [filter_filter]
    apply filter_congr
    intro id _
    cases after with
    | none => simp
    | some a =>
      have ha : a < last.id := by simpa [isAfter] using hafter
      by_cases hid : last.id < id
      · simp [Nat.lt_trans ha hid]
      · simp [hid]
  rw [hsub]
  apply length_filter_lt_length_iff_exists.mpr
  refine ⟨last.id, mem_filter.mpr ⟨mem_map_of_mem hmem, hafter⟩, ?_⟩
  simp

theorem migrateLoop_succeeds (hA : out.aead.Ideal) (fuel : Nat) (h : AllCanReseal out s)
    (hfuel : remaining after s < fuel) :
    Succeeds (serve rng) (migrateLoop out cfg fuel after) (fun _ s' => Grows s s') s := by
  induction fuel generalizing after s with
  | zero => omega
  | succ fuel ih =>
    refine Succeeds.bind (succeeds_call (Q := fun batch t =>
      s.table.listWalletsNeedingReseal 2 cfg.batchSize after = batch ∧ s = t) rfl ⟨rfl, rfl⟩) ?_
    intro batch _ ht
    obtain ⟨rfl, rfl⟩ := ht
    split
    · exact succeeds_pure (.refl _)
    · rename_i last hlast
      have hmem := mem_of_getLast? hlast
      have hrows : ∀ w ∈ s.table.listWalletsNeedingReseal 2 cfg.batchSize after,
          isSealed w = true → CanReseal out w := by
        intro w hw hsealed
        obtain ⟨hw, hother, -⟩ := WalletTable.mem_list hw
        exact h w hw (by rw [needs, hsealed, hother]; rfl)
      refine (migrateRows_succeeds hA _ hrows).bind ?_
      intro _ s1 hg
      -- whatever the state has grown to, fewer rows are left
      have hnext : ∀ s2, Grows s s2 → Succeeds (serve rng) (migrateLoop out cfg fuel (some last.id))
          (fun _ s' => Grows s s') s2 := by
        intro s2 hg2
        have hlt := remaining_lt hmem hg2
        refine (ih (h.grows hg2) (by omega)).imp ?_
        exact fun _ s3 hg3 => hg2.trans hg3
      split
      · exact hnext s1 hg
      · refine writeCheckpoint_succeeds.bind ?_
        intro _ s2 hg2
        exact hnext s2 (hg.trans hg2)

/-- There is no checkpoint, or it is a right one for this pair of keys. -/
def Ready (out : Outside) (s : State) : Prop :=
  Sound out s ∧ ∀ ls, s.files.readCheckpoint = some ls →
    ∃ x, parseCheckpoint out.fingerprint ls = .ok x

variable (rng cfg) in
/-- A run in which no call fails ends well if the old key opens every row it has to reseal. -/
theorem migrate_succeeds (hA : out.aead.Ideal) (hready : Ready out s) (h : AllCanReseal out s)
    {fuel : Nat} (hfuel : s.table.rows.length < fuel) :
    Succeeds (serve rng) (migrate out cfg fuel) (fun _ s' => Grows s s') s := by
  have hread : Succeeds (serve rng) (readCheckpoint out.fingerprint) (fun _ t => s = t) s := by
    refine Succeeds.bind (succeeds_call (Q := fun contents t => s.files.readCheckpoint = contents ∧
      s = t) rfl ⟨rfl, rfl⟩) ?_
    intro contents _ ht
    obtain ⟨rfl, rfl⟩ := ht
    cases hc : s.files.readCheckpoint with
    | none => exact succeeds_pure rfl
    | some ls =>
      obtain ⟨x, hx⟩ := hready.2 ls hc
      refine Succeeds.bind (succeeds_result (Q := fun _ t => s = t) hx rfl) ?_
      intro _ _ ht
      exact succeeds_pure ht
  refine hread.bind ?_
  intro after _ ht
  subst ht
  have hle := remaining_le after s
  refine (migrateLoop_succeeds hA fuel h (by omega)).bind ?_
  intro _ s1 hg
  split
  · exact succeeds_pure hg
  · exact succeeds_call rfl (hg.trans (act_grows .removeCheckpoint s1))

/-! ### What it leaves -/

theorem serve_exec (rng : Nat → Draw) (o : Op) (n : Nat) (s : State) :
    ∃ ch, exec o ch s = some (serve rng o n s) := by
  cases o with
  | call => exact ⟨.call (.served 0), rfl⟩
  | draw => exact ⟨.drawn (rng n), rfl⟩

variable (out rng cfg) in
theorem runAlone_reach (fuel : Nat) (s : State) :
    ∃ c : Conf, Reachable (system out) (StartIn s) c ∧
      c.world.db = (runAlone out rng cfg fuel s).2 ∧
      (cfg.dryRun = false → Sound out s → (runAlone out rng cfg fuel s).1 = .ok () →
        AllDone c.world.db) := by
  obtain ⟨tr, hruns⟩ := runs_runWith (S := system out) (serve_exec rng)
    (migrate out cfg fuel).run 0 s
  have hcode : Runs (system out) ((system out).code ⟨cfg, fuel⟩) s ([] ++ tr) (.ret ())
      (runAlone out rng cfg fuel s).2 := Runs.bind hruns .stop
  have hinit : StartIn s s := rfl
  obtain ⟨c, hc, -, hdb, htr⟩ := exists_reachable_of_runs hinit rfl hcode
  refine ⟨c, hc, hdb, ?_⟩
  intro hdry hsound hok
  have hkeeps : Keeps out ⟨cfg, fuel⟩ (migrate out cfg fuel)
      (fun _ tr' => cfg.dryRun = false → Known out tr' AllDone) [] := keeps_migrate
  have hknown := (discipline out).calls_runs hruns hkeeps (fun x hx => nomatch hx) () hok hdry
  rw [append_nil] at hknown
  rw [nil_append] at htr
  refine hknown ?_ _ ?_
  · intro x hx
    rw [← htr] at hx
    exact (sound_reach hsound hc).2 _ (World.mem_trace.mp hx)
  · intro x hx
    rw [← htr] at hx
    exact ((discipline out).chained hc).below_of_mem hx

/-- The row was written with this seed: under the old key, or by the server in the window. -/
def Written (out : Outside) (w : SealedWallet) (m : Bytes) : Prop :=
  w.sealedScheme.isSome = true ∧ openRow out.aead out.oldKey w = some m ∨
    w.sealedScheme = some 1 ∧ openRow out.aead out.newKey w = some m

/-- The row is one that the migration moves to the new key, or need not. -/
def Movable (out : Outside) (w : SealedWallet) : Prop :=
  w.sealedScheme = some 1 ∧ CanReseal out w ∨ w.sealedScheme = some 2 ∧ out.oldKey = out.newKey

theorem Written.scheme (h : Written out w m) :
    w.sealedScheme = some 1 ∨ w.sealedScheme = some 2 ∧ openRow out.aead out.oldKey w = some m := by
  rcases h with ⟨hsome, hopen⟩ | ⟨h1, -⟩
  · rcases scheme_of_openRow hopen with hs | hs | hs
    · rw [hs] at hsome
      cases hsome
    · exact .inl hs
    · exact .inr ⟨hs, hopen⟩
  · exact .inl h1

theorem Written.opens (h : Written out w m) : ∃ key, openRow out.aead key w = some m := by
  rcases h with ⟨-, hopen⟩ | ⟨-, hopen⟩
  · exact ⟨_, hopen⟩
  · exact ⟨_, hopen⟩

theorem Movable.opens (hA : out.aead.Ideal) (hw : Written out w m)
    (h : Movable out w) : openRow out.aead out.oldKey w = some m := by
  rcases h with ⟨-, ⟨m', hm'⟩, -⟩ | ⟨h2, -⟩
  · obtain ⟨key, hkey⟩ := hw.opens
    rw [← (openRow_inj hA hm' hkey).2]
    exact hm'
  · rcases hw.scheme with h1 | ⟨-, hopen⟩
    · rw [h2] at h1
      cases h1
    · exact hopen

theorem Resealed.canReseal {w' : SealedWallet} (h : Resealed out w w') : CanReseal out w := by
  obtain ⟨rng, m, new, -, -, hopen, hseal, -⟩ := h
  refine ⟨⟨m, hopen⟩, ?_⟩
  intro hempty
  rw [hempty] at hseal
  cases hseal

/-- **Migrating a mixed table.**  A run in which no call fails ends well and leaves every sealed row
open under the next key to the seed it was written with, exactly if every sealed row is a V1 row
with an account that the old key opens, or a V2 row while the two keys are the same. -/
theorem rotation_run_iff (hA : out.aead.Ideal) (hready : Ready out s) (hdry : cfg.dryRun = false)
    (hwritten : ∀ w ∈ s.table.rows, w.sealedCiphertext.isSome = true → ∃ m, Written out w m)
    {fuel : Nat} (hfuel : s.table.rows.length < fuel) :
    ((runAlone out rng cfg fuel s).1 = .ok () ∧
      ∀ w0 ∈ s.table.rows, w0.sealedCiphertext.isSome = true → ∀ m, Written out w0 m →
        ∃ w ∈ (runAlone out rng cfg fuel s).2.table.rows, w.id = w0.id ∧
          openRow out.aead out.newKey w = some m) ↔
    ∀ w ∈ s.table.rows, w.sealedCiphertext.isSome = true → Movable out w := by
  obtain ⟨c, hc, hdb, hdone⟩ := runAlone_reach out rng cfg fuel s
  rw [← hdb]
  constructor
  · intro h w0 hw0 hcipher
    obtain ⟨hok, hopens⟩ := h
    obtain ⟨m, hm⟩ := hwritten w0 hw0 hcipher
    obtain ⟨w, hw, hid, hnew⟩ := hopens w0 hw0 hcipher m hm
    have hall := hdone hdry hready.1 hok
    rcases hm.scheme with h1 | ⟨h2, hopen⟩
    · obtain ⟨key, hkey⟩ := hm.opens
      exact .inl ⟨h1, (resealed_of_allDone hc hall hw0 hw hid hkey h1).canReseal⟩
    · rcases (opens_of_allDone hA hc hall hw0 hw hid hopen).mp hnew with h1 | hkeys
      · rw [h2] at h1
        cases h1
      · exact .inr ⟨h2, hkeys⟩
  · intro h
    have hcan : AllCanReseal out s := by
      intro w hw hneeds
      have hsealed : isSealed w = true ∧ otherScheme 2 w = true := Bool.and_eq_true_iff.mp hneeds
      have hcipher : w.sealedCiphertext.isSome = true := by
        simp only [isSealed, Bool.and_eq_true] at hsealed
        exact hsealed.1.1.1.1
      rcases h w hw hcipher with ⟨-, hcan⟩ | ⟨h2, -⟩
      · exact hcan
      · rw [needs_of_scheme h2] at hneeds
        cases hneeds
    obtain ⟨u, n', s', hrun, -⟩ := migrate_succeeds rng cfg hA hready hcan hfuel 0
    have hok : (runAlone out rng cfg fuel s).1 = .ok () := by
      show ((migrate out cfg fuel).run.runWith (serve rng) 0 s).1 = .ok ()
      rw [hrun]
    refine ⟨hok, ?_⟩
    intro w0 hw0 hcipher m hm
    have hall := hdone hdry hready.1 hok
    obtain ⟨w, hw, hrow⟩ := (ids_reach hc).forth hw0
    have hmov := h w0 hw0 hcipher
    refine ⟨w, hw, hrow.id_eq, ?_⟩
    apply (opens_of_allDone hA hc hall hw0 hw hrow.id_eq (hmov.opens hA hm)).mpr
    rcases hmov with ⟨h1, -⟩ | ⟨-, hkeys⟩
    · exact .inl h1
    · exact .inr hkeys

/-! ### Examples -/

def exampleRng (_ : Nat) : Draw := exampleDraw 2

theorem ready_example (t : WalletTable) : Ready exampleOut (exampleState t) :=
  ⟨sound_example t, fun _ h => nomatch h⟩

theorem written_twoOldRows (hw : w ∈ twoOldRows.rows) : Written exampleOut w exampleSeed := by
  rcases mem_cons.mp hw with rfl | hw
  · exact .inl ⟨rfl, by decide +kernel⟩
  · rw [mem_singleton.mp hw]
    exact .inl ⟨rfl, by decide +kernel⟩

theorem two_old_rows_end_well :
    (runAlone exampleOut exampleRng (exampleJob 3).cfg 3 (exampleState twoOldRows)).1 = .ok () := by
  refine ((rotation_run_iff framed_ideal (ready_example _) rfl ?_ (by decide)).mpr ?_).1
  · exact fun w hw _ => ⟨exampleSeed, written_twoOldRows hw⟩
  · intro w hw _
    have hopen : openRow framed exampleOldKey w = some exampleSeed ∧ w.sealedScheme = some 1 ∧
        accountId w ≠ "" := by
      rcases List.mem_cons.mp hw with rfl | hw
      · decide +kernel
      · rw [List.mem_singleton.mp hw]
        decide +kernel
    exact .inl ⟨hopen.2.1, ⟨exampleSeed, hopen.1⟩, hopen.2.2⟩

def mixedRows : WalletTable where
  rows := [exampleRow 1 exampleOldKey 1, exampleRow 2 exampleNewKey 1]
  sorted := by decide

/-- The row that the server wrote makes the run abort. -/
theorem server_row_aborts :
    (∀ w ∈ mixedRows.rows, Written exampleOut w exampleSeed) ∧
    (runAlone exampleOut exampleRng (exampleJob 3).cfg 3 (exampleState mixedRows)).1 =
      .error (.reseal .decryptionFailed) := by
  refine ⟨?_, by decide +kernel⟩
  intro w hw
  rcases List.mem_cons.mp hw with rfl | hw
  · exact .inl ⟨rfl, by decide +kernel⟩
  · rw [List.mem_singleton.mp hw]
    exact .inr ⟨rfl, by decide +kernel⟩

end Octo.Migration
