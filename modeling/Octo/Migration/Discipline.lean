import Mathlib.Data.List.GetD
import Octo.Migration.System

/-!
# When a migration run makes which call

`Allowed out j tr o` says when a run `j` that has made the calls `tr` (newest first) makes the call
`o`.  A row is written only with the resealed seed of the row that was read.  A cursor is written
only when no row up to it is left to do, and the checkpoint is removed only when no row at all is;
both rest on the checkpoints that the run has read (`Known`).
-/

namespace Octo.Migration

open Conc Crypto List

/-- The second row is the first one resealed: a complete record of the same seed under the new key.
-/
def Resealed (out : Outside) (w w' : SealedWallet) : Prop :=
  ∃ rng m new, isSealed w = true ∧ otherScheme 2 w = true ∧ openRow out.aead out.oldKey w = some m ∧
    sealWithAccountId out.aead rng out.newKey m (context w) (accountId w) = .ok new ∧
    w' = withSealed w new.ciphertext new.nonce new.salt 2

/-- No row up to the cursor needs a reseal. -/
def DoneTo (afterId : Option Uuid) (s : State) : Prop :=
  ∀ w ∈ s.table.rows, isAfter afterId w = false → needs w = false

def AllDone (s : State) : Prop := ∀ w ∈ s.table.rows, needs w = false

def RowDone (id : Uuid) (s : State) : Prop := ∀ w ∈ s.table.rows, w.id = id → needs w = false

/-- A cursor in any file of this key pair is right. -/
def Sound (out : Outside) (s : State) : Prop :=
  ∀ ls ∈ s.files.inodes, ∀ x, parseCheckpoint out.fingerprint ls = .ok x → DoneTo (some x) s

/-- After the calls `tr` it is known that `P` holds from now on, if the cursors were right that the
run saw. -/
def Known (out : Outside) (tr : List Act) (P : State → Prop) : Prop :=
  (∀ x ∈ tr, Sound out x.pre) → ∀ s, (∀ x ∈ tr, Grows x.post s) → P s

/-- The row was read from the table in a page. -/
def Listed (tr : List Act) (w : SealedWallet) : Prop :=
  ∃ n after batch s s', ⟨.call (.listWalletsNeedingReseal n after), .ok batch, s, s'⟩ ∈ tr ∧
    w ∈ batch ∧ w ∈ s'.table.rows

def Allowed (out : Outside) (j : Job) (tr : List Act) : Op → Prop
  | .call (.resealWallet id ciphertext nonce salt expected) => j.cfg.dryRun = false ∧
    ∃ w, Listed tr w ∧ w.id = id ∧ w.sealedScheme = some expected ∧
      Resealed out w (withSealed w ciphertext nonce salt 2)
  | .call (.writeTmp _ ls) => j.cfg.dryRun = false ∧
    ∃ x, ls = checkpointLines out.fingerprint x ∧ Known out tr (DoneTo (some x))
  | .call .createTmp => j.cfg.dryRun = false
  | .call .renameTmp => j.cfg.dryRun = false
  | .call .removeCheckpoint => j.cfg.dryRun = false ∧ Known out tr AllDone
  | _ => True

/-! ### Rows that are done stay done -/

variable {out : Outside} {j : Job} {s s' : State} {tr tr' : List Act}

variable {w : SealedWallet} {after : Option Uuid} {x : Uuid} {ciphertext nonce salt : Bytes}
  {fingerprint : String} {P : State → Prop} {ls : List Line} {scheme : Int} {t : State} {n : Nat}

theorem isAfter_eq {w' : SealedWallet} (h : w'.id = w.id) (after : Option Uuid) :
    isAfter after w' = isAfter after w := by
  simp only [isAfter, h]

theorem DoneTo.grows (h : DoneTo after s) (hg : Grows s s') : DoneTo after s' := by
  intro w' hw' hafter
  obtain ⟨w, hw, hrow⟩ := hg.back w' hw'
  rw [isAfter_eq hrow.id_eq] at hafter
  exact hrow.needs (h w hw hafter)

theorem AllDone.grows (h : AllDone s) (hg : Grows s s') : AllDone s' := by
  intro w' hw'
  obtain ⟨w, hw, hrow⟩ := hg.back w' hw'
  exact hrow.needs (h w hw)

theorem RowDone.grows {id : Uuid} (h : RowDone id s) (hg : Grows s s') : RowDone id s' := by
  intro w' hw' hid
  obtain ⟨w, hw, hrow⟩ := hg.back w' hw'
  exact hrow.needs (h w hw (hrow.id_eq.symm.trans hid))

theorem Known.mono (h : Known out tr P) (hsub : tr ⊆ tr') : Known out tr' P := by
  intro hsound s hs
  exact h (fun x hx => hsound x (hsub hx)) s (fun x hx => hs x (hsub hx))

theorem Known.cons (h : Known out tr P) (x : Act) : Known out (x :: tr) P :=
  h.mono (subset_cons_self x tr)

theorem Listed.mono (h : Listed tr w) (hsub : tr ⊆ tr') : Listed tr' w := by
  obtain ⟨n, after, batch, t, t', hm, hw⟩ := h
  exact ⟨n, after, batch, t, t', hsub hm, hw⟩

/-! ### Rules -/

abbrev Keeps {α : Type} (out : Outside) (j : Job) (p : ToolM α) (P : α → List Act → Prop)
    (tr : List Act) : Prop :=
  Does (system out) Grows (Allowed out j) p P tr

theorem keeps_call {c : Call} (hL : Allowed out j tr (.call c)) :
    Keeps out j (call c) (fun v tr' => ∃ s, (∀ x ∈ tr, Grows x.post s) ∧ (act c s).1 = .ok v ∧
      tr' = ⟨.call c, .ok v, s, (act c s).2⟩ :: tr) tr := by
  apply does_tryCall hL
  intro s ch a s' v hR he hv
  cases a with
  | error => cases hv
  | ok =>
    cases hv
    obtain ⟨ha, rfl⟩ := exec_call_ok he
    exact ⟨s, hR, ha, rfl⟩

theorem keeps_check {α : Type} {r : Except MigrateError α} :
    Keeps out j (check r) (fun v tr' => r = .ok v ∧ tr' = tr) tr := by
  intro v hv
  exact ⟨hv, rfl⟩

/-! ### The checkpoint -/

theorem parseCheckpoint_nil : parseCheckpoint fingerprint [] ≠ .ok x := nofun

theorem parse_checkpointLines :
    parseCheckpoint fingerprint (checkpointLines fingerprint x) = .ok x := by
  simp [parseCheckpoint, checkpointLines, lastValues]

theorem readCheckpoint_mem {f : Files} (h : f.readCheckpoint = some ls) :
    ls ∈ f.inodes ∨ ls = [] := by
  obtain ⟨i, -, rfl⟩ := Option.map_eq_some_iff.mp h
  by_cases hi : i < f.inodes.length
  · left
    rw [getD_eq_getElem _ _ hi]
    exact getElem_mem hi
  · right
    exact getD_eq_default _ _ (Nat.not_lt.mp hi)

theorem Sound.doneTo (h : Sound out s) (hls : s.files.readCheckpoint = some ls)
    (hx : parseCheckpoint out.fingerprint ls = .ok x) : DoneTo (some x) s := by
  rcases readCheckpoint_mem hls with hmem | rfl
  · exact h ls hmem x hx
  · exact absurd hx parseCheckpoint_nil

theorem keeps_readCheckpoint :
    Keeps out j (readCheckpoint out.fingerprint) (fun after tr' => Known out tr' (DoneTo after))
      tr := by
  refine Does.bind (keeps_call (by trivial)) ?_
  intro contents tr1 h
  obtain ⟨s, -, ha, rfl⟩ := h
  cases contents with
  | none =>
    apply does_pure
    intro _ s _ w _ hafter
    cases hafter
  | some =>
    refine keeps_check.bind ?_
    intro x tr2 h
    obtain ⟨hx, rfl⟩ := h
    apply does_pure
    intro hsound s' hs'
    have hdone : DoneTo (some x) s := (hsound _ mem_cons_self).doneTo (Except.ok.inj ha) hx
    exact hdone.grows (hs' _ mem_cons_self)

theorem keeps_writeCheckpoint (hdry : j.cfg.dryRun = false) (h : Known out tr (DoneTo (some x))) :
    Keeps out j (writeCheckpoint out.fingerprint x) (fun _ tr' => tr ⊆ tr') tr := by
  refine Does.bind (keeps_call (by exact hdry)) ?_
  intro inode tr1 h1
  obtain ⟨s1, -, -, rfl⟩ := h1
  refine Does.bind (keeps_call (by exact ⟨hdry, x, rfl, h.cons _⟩)) ?_
  intro _ tr2 h2
  obtain ⟨s2, -, -, rfl⟩ := h2
  refine Calls.imp (keeps_call (by exact hdry)) ?_
  intro r tr3 h3 v hv
  obtain ⟨s3, -, -, rfl⟩ := h3 v hv
  exact fun y hy => mem_cons_of_mem _ (mem_cons_of_mem _ (mem_cons_of_mem _ hy))

/-! ### Rows -/

theorem otherScheme_of_scheme (h : w.sealedScheme = some 2) : otherScheme 2 w = false := by
  simp [otherScheme, h]

theorem needs_of_scheme (h : w.sealedScheme = some 2) : needs w = false := by
  rw [needs, otherScheme_of_scheme h, Bool.and_false]

theorem needs_of_not_sealed (h : isSealed w = false) : needs w = false := by
  rw [needs, h, Bool.false_and]

theorem known_of_not_sealed (hl : Listed tr w) (hw : isSealed w = false) :
    Known out tr (RowDone w.id) := by
  intro _ s hs v hv hid
  obtain ⟨n, _, _, t, t', hm, -, hrow⟩ := hl
  exact ((hs _ hm).row hrow hv hid).needs (needs_of_not_sealed hw)

/-- After the guarded update the row is done, whoever resealed it. -/
theorem rowDone_reseal (hrow : w ∈ t.table.rows) (hg : Grows t s)
    (hscheme : w.sealedScheme = some scheme) :
    RowDone w.id (act (.resealWallet w.id ciphertext nonce salt scheme) s).2 := by
  intro v' hv' hid
  obtain ⟨v, hv, -, ⟨-, -, rfl⟩ | ⟨hguard, rfl⟩⟩ := mem_resealWallet hv'
  · exact needs_of_scheme rfl
  · rcases (hg.row hrow hv hid).eq_or_scheme with rfl | h2
    · exact absurd ⟨rfl, hscheme⟩ hguard
    · exact needs_of_scheme h2

theorem resealed_of_reseal {sealed new : SealedSeed} (rng : Draw)
    (hc : w.sealedCiphertext = some ciphertext) (hn : w.sealedNonce = some nonce)
    (hs : w.sealedSalt = some salt) (hscheme : w.sealedScheme = some scheme)
    (hother : otherScheme 2 w = true) (hsealed : sealedOf ciphertext nonce salt scheme = .ok sealed)
    (hnew : resealWithAccountId out.aead rng out.oldKey out.newKey sealed (context w)
      (accountId w) = .ok new) :
    Resealed out w (withSealed w new.ciphertext new.nonce new.salt 2) := by
  unfold resealWithAccountId at hnew
  cases hopen : openWithAccountId out.aead out.oldKey sealed (context w) (accountId w) with
  | error => rw [hopen] at hnew; cases hnew
  | ok m =>
    rw [hopen] at hnew
    refine ⟨rng, m, new, by simp [isSealed, hc, hn, hs, hscheme], hother, ?_, hnew, rfl⟩
    unfold sealedOf at hsealed
    cases hbyte : toU8 scheme with
    | none => rw [hbyte] at hsealed; cases hsealed
    | some byte =>
      rw [hbyte] at hsealed
      cases hparts : SealedSeed.fromPartsWithScheme ciphertext nonce salt byte with
      | error => simp only [hparts] at hsealed; cases hsealed
      | ok =>
        simp only [hparts] at hsealed
        cases hsealed
        simp [openRow, hc, hn, hs, hscheme, hbyte, hparts, hopen, Except.toOption]

theorem keeps_migrateRow (hl : Listed tr w) (hother : otherScheme 2 w = true) :
    Keeps out j (migrateRow out j.cfg w) (fun _ tr' => tr ⊆ tr' ∧
      (j.cfg.dryRun = false → Known out tr' (RowDone w.id))) tr := by
  unfold migrateRow
  split
  · rename_i ciphertext nonce salt scheme hc hn hs hscheme
    refine keeps_check.bind ?_
    intro sealed tr1 h1
    obtain ⟨hsealed, rfl⟩ := h1
    refine Does.bind (P := fun _ tr' => ∃ x, tr' = x :: tr1) (does_tryCall (by trivial) ?_) ?_
    · intro s ch a s' v _ _ _
      exact ⟨_, rfl⟩
    intro rng tr2 h2
    obtain ⟨x2, rfl⟩ := h2
    refine keeps_check.bind ?_
    intro new tr3 h3
    obtain ⟨hnew, rfl⟩ := h3
    split
    · rename_i hdry
      apply does_pure
      refine ⟨subset_cons_self _ _, ?_⟩
      intro hwet
      rw [hdry] at hwet
      cases hwet
    · rename_i hdry
      have hreseal : Resealed out w (withSealed w new.ciphertext new.nonce new.salt 2) := by
        refine resealed_of_reseal rng hc hn hs hscheme hother hsealed ?_
        revert hnew
        cases resealWithAccountId out.aead rng out.oldKey out.newKey sealed (context w)
          (accountId w) with
        | error e => intro h; cases h
        | ok v => intro h; cases h; rfl
      have hl' : Listed (x2 :: tr1) w := hl.mono (subset_cons_self _ _)
      refine Does.bind (keeps_call (by
        exact ⟨Bool.eq_false_iff.mpr hdry, w, hl', rfl, hscheme, hreseal⟩)) ?_
      intro updated tr4 h4
      obtain ⟨s, hR, -, rfl⟩ := h4
      apply does_pure
      refine ⟨fun y hy => mem_cons_of_mem _ (mem_cons_of_mem _ hy), ?_⟩
      intro _ _ s' hs'
      obtain ⟨n, _, _, t, t', hm, -, hrow⟩ := hl'
      exact (rowDone_reseal hrow (hR _ hm) hscheme).grows (hs' _ mem_cons_self)
  · rename_i hparts
    apply does_pure
    refine ⟨List.Subset.refl _, fun _ => known_of_not_sealed hl ?_⟩
    -- one of the four columns is missing
    apply Bool.eq_false_iff.mpr
    intro hsealed
    simp only [isSealed, Bool.and_eq_true, Option.isSome_iff_exists] at hsealed
    obtain ⟨⟨⟨⟨c, hc⟩, n, hn⟩, salt, hs⟩, sc, hsc⟩ := hsealed
    exact hparts c n salt sc hc hn hs hsc

theorem keeps_migrateRows (ws : List SealedWallet)
    (hws : ∀ w ∈ ws, Listed tr w ∧ otherScheme 2 w = true) :
    Keeps out j (migrateRows out j.cfg ws) (fun _ tr' => tr ⊆ tr' ∧
      (j.cfg.dryRun = false → ∀ w ∈ ws, Known out tr' (RowDone w.id))) tr := by
  induction ws generalizing tr with
  | nil => exact does_pure ⟨List.Subset.refl _, fun _ w hw => nomatch hw⟩
  | cons w ws ih =>
    have hw := hws w mem_cons_self
    refine (keeps_migrateRow hw.1 hw.2).bind ?_
    intro _ tr1 h1
    obtain ⟨hsub, hdone⟩ := h1
    have hrest : ∀ v ∈ ws, Listed tr1 v ∧ otherScheme 2 v = true := by
      intro v hv
      have hv := hws v (mem_cons_of_mem _ hv)
      exact ⟨hv.1.mono hsub, hv.2⟩
    refine Calls.imp (ih hrest) ?_
    intro r tr2 h2 u hu
    obtain ⟨hsub2, hdone2⟩ := h2 u hu
    refine ⟨List.Subset.trans hsub hsub2, ?_⟩
    intro hdry
    exact forall_mem_cons.mpr ⟨(hdone hdry).mono hsub2, hdone2 hdry⟩

/-! ### The loop -/

theorem allDone_of_nil (hn : 0 < n)
    (h : s.table.listWalletsNeedingReseal 2 n after = []) (hdone : DoneTo after s) : AllDone s := by
  intro w hw
  cases hafter : isAfter after w with
  | false => exact hdone w hw hafter
  | true => rw [needs, WalletTable.list_eq_nil hn h hw hafter, Bool.and_false]

/-- When all rows of a page are done, so is everything up to its last row. -/
theorem doneTo_of_page {last : SealedWallet}
    (hlast : (t.table.listWalletsNeedingReseal 2 n after).getLast? = some last) (hg : Grows t s)
    (hdone : DoneTo after s)
    (hpage : ∀ w ∈ t.table.listWalletsNeedingReseal 2 n after, RowDone w.id s) :
    DoneTo (some last.id) s := by
  intro v hv hle
  obtain ⟨w, hw, hrow⟩ := hg.back v hv
  cases hafter : isAfter after v with
  | false => exact hdone v hv hafter
  | true =>
    cases hother : otherScheme 2 w with
    | false => exact hrow.needs (by rw [needs, hother, Bool.and_false])
    | true =>
      have hle' : w.id ≤ last.id := by
        rw [isAfter_eq hrow.id_eq] at hle
        simpa [isAfter] using hle
      rw [isAfter_eq hrow.id_eq] at hafter
      exact hpage w (WalletTable.mem_list_of_le hlast hw hother hafter hle') v hv hrow.id_eq

theorem keeps_migrateLoop (fuel : Nat)
    (hdone : j.cfg.dryRun = false → Known out tr (DoneTo after)) :
    Keeps out j (migrateLoop out j.cfg fuel after)
      (fun _ tr' => j.cfg.dryRun = false → Known out tr' AllDone) tr := by
  induction fuel generalizing after tr with
  | zero => exact does_throw
  | succ fuel ih =>
    refine Does.bind (keeps_call (by trivial)) ?_
    intro batch tr1 h1
    obtain ⟨t, hR, ha, rfl⟩ := h1
    obtain rfl : t.table.listWalletsNeedingReseal 2 j.cfg.batchSize after = batch :=
      Except.ok.inj ha
    split
    · rename_i hlast
      apply does_pure
      intro hdry hsound s hs
      have hdone' : DoneTo after t := hdone hdry (forall_mem_cons.mp hsound).2 t hR
      have hall : AllDone t := allDone_of_nil j.cfg.batchSize_pos (getLast?_eq_none_iff.mp hlast)
        hdone'
      exact hall.grows (hs _ mem_cons_self)
    · rename_i last hlast
      refine Does.bind (keeps_migrateRows _ ?_) ?_
      · intro w hw
        have hmem := WalletTable.mem_list hw
        exact ⟨⟨_, _, _, _, _, mem_cons_self, hw, hmem.1⟩, hmem.2.1⟩
      intro _ tr2 h2
      obtain ⟨hsub, hrows⟩ := h2
      have hnext : j.cfg.dryRun = false → Known out tr2 (DoneTo (some last.id)) := by
        intro hdry hsound s hs
        refine doneTo_of_page hlast (hs _ (hsub mem_cons_self)) ?_ ?_
        · exact ((hdone hdry).cons _).mono hsub hsound s hs
        · exact fun w hw => hrows hdry w hw hsound s hs
      split
      · exact ih hnext
      · rename_i hdry
        have hwet := Bool.eq_false_iff.mpr hdry
        refine (keeps_writeCheckpoint hwet (hnext hwet)).bind ?_
        intro _ tr3 hsub3
        exact ih (fun h => (hnext h).mono hsub3)

/-- A wet run that returns knows every row to be done. -/
theorem keeps_migrate : Keeps out j (migrate out j.cfg j.fuel)
    (fun _ tr' => j.cfg.dryRun = false → Known out tr' AllDone) [] := by
  refine keeps_readCheckpoint.bind ?_
  intro after tr1 h1
  refine (keeps_migrateLoop j.fuel (fun _ => h1)).bind ?_
  intro _ tr2 h2
  split
  · exact does_pure h2
  · rename_i hdry
    have hwet := Bool.eq_false_iff.mpr hdry
    refine Calls.imp (keeps_call (by exact ⟨hwet, h2 hwet⟩)) ?_
    intro r tr3 h3 v hv _
    obtain ⟨s, -, -, rfl⟩ := h3 v hv
    exact (h2 hwet).cons _

theorem discipline (out : Outside) : Discipline (system out) Grows (Allowed out) where
  refl := Grows.refl
  trans := Grows.trans
  exec := exec_grows
  env := by
    intro e
    cases e
  code := by
    intro j
    refine calls_bind (Calls.imp keeps_migrate ?_)
    intros
    trivial

end Octo.Migration
