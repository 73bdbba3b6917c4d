import Octo.Migration.CrashSafety

/-!
# What a migration that exits successfully has done

A run that is not a dry run exits successfully when its last call, which removes the checkpoint, is
answered.
-/

namespace Octo.Migration

open Conc Crypto Option List

variable {out : Outside} {s0 : State} {c : Conf}

def Exited (w : World) (i : Nat) : Prop :=
  ∃ s s', ⟨.call .removeCheckpoint, .ok (), s, s'⟩ ∈ w.trace i

theorem allDone_of_exited (hsound : Sound out s0) (hc : Reachable (system out) (StartIn s0) c)
    {i : Nat} (h : Exited c.world i) : AllDone c.world.db := by
  obtain ⟨s, s', hm⟩ := h
  have hch := (discipline out).chained hc
  obtain ⟨_, _, htr⟩ := append_of_mem hm
  obtain ⟨j, hj⟩ := reach_job_of_trace hc hm
  obtain ⟨-, hknown⟩ := (discipline out).allowed hc hj htr
  have hall : AllDone s := by
    refine hknown ?_ s (fun y hy => hch.between htr hy)
    intro y hy
    have hy' : y ∈ c.world.trace i := mem_of_before htr hy
    exact (sound_reach hsound hc).2 _ (World.mem_trace.mp hy')
  obtain ⟨ch, he⟩ := hch.exec_of_mem hm
  exact (hall.grows (exec_grows he)).grows (hch.below_of_mem hm)

/-! ### Rows that open -/

section

variable {A : Aead} {key key' : Bytes} {w : SealedWallet} {m m' : Bytes}

theorem openRow_inj (hA : A.Ideal) (h : openRow A key w = some m)
    (h' : openRow A key' w = some m') : key = key' ∧ m = m' := by
  simp only [openRow, bind_eq_bind, bind_eq_some_iff] at h h'
  obtain ⟨ct, hc, _, hn, _, hs, _, hscheme, _, hparts, hopen⟩ := h
  obtain ⟨ct', hc', _, hn', _, hs', _, hscheme', _, hparts', hopen'⟩ := h'
  rw [hc] at hc'; rw [hn] at hn'; rw [hs] at hs'; rw [hscheme] at hscheme'
  cases hc'; cases hn'; cases hs'; cases hscheme'
  rw [hparts] at hparts'
  cases hparts'
  have hok : ∀ {r : Except CryptoError Bytes} {v : Bytes}, r.toOption = some v → r = .ok v := by
    intro r v hr
    cases r with
    | error => cases hr
    | ok => rw [some.inj hr]
  exact openWithAccountId_inj hA (hok hopen) (hok hopen')

theorem toU8_eq_some {n : Int} {b : UInt8} (h : toU8 n = some b) : n = b.toNat := by
  unfold toU8 at h
  split at h
  · rw [← some.inj h, UInt8.toNat_ofNat']
    omega
  · cases h

theorem scheme_of_openRow (h : openRow A key w = some m) :
    w.sealedScheme = none ∨ w.sealedScheme = some 1 ∨ w.sealedScheme = some 2 := by
  simp only [openRow, bind_eq_bind, bind_eq_some_iff] at h
  obtain ⟨ct, -, _, -, _, -, scheme, hscheme, _, hparts, -⟩ := h
  have hknown : scheme = schemeV1 ∨ scheme = schemeV2 := by
    unfold SealedSeed.fromPartsWithScheme at hparts
    split at hparts
    · assumption
    · cases hparts
  cases hs : w.sealedScheme with
  | none => exact .inl rfl
  | some n =>
    rw [hs] at hscheme
    right
    have hn : n = scheme.toNat := toU8_eq_some hscheme
    rcases hknown with rfl | rfl
    · exact .inl (congrArg some hn)
    · exact .inr (congrArg some hn)

end

variable {w0 w : SealedWallet}

theorem Resealed.scheme_one (h : Resealed out w0 w) : w0.sealedScheme = some 1 := by
  have hother := h.other
  obtain ⟨rng, m, new, -, -, hopen, -⟩ := h
  rcases scheme_of_openRow hopen with hs | hs | hs
  · simp [otherScheme, hs] at hother
  · exact hs
  · simp [otherScheme, hs] at hother

theorem resealed_of_allDone (hc : Reachable (system out) (StartIn s0) c)
    (hdone : AllDone c.world.db) (hw0 : w0 ∈ s0.table.rows) (hw : w ∈ c.world.db.table.rows)
    (hid : w.id = w0.id) {A : Aead} {key m : Bytes} (hopen : openRow A key w0 = some m)
    (h1 : w0.sealedScheme = some 1) : Resealed out w0 w := by
  rcases row_reach hc hw0 hw hid with rfl | hr
  · have hneeds := hdone w hw
    rw [needs_of_v1 hopen h1] at hneeds
    cases hneeds
  · exact hr

theorem opens_of_allDone (hA : out.aead.Ideal) (hc : Reachable (system out) (StartIn s0) c)
    (hdone : AllDone c.world.db) (hw0 : w0 ∈ s0.table.rows)
    (hw : w ∈ c.world.db.table.rows) (hid : w.id = w0.id) {m : Bytes}
    (hopen : openRow out.aead out.oldKey w0 = some m) :
    openRow out.aead out.newKey w = some m ↔ w0.sealedScheme = some 1 ∨
    out.oldKey = out.newKey := by
  have hresealed : Resealed out w0 w → openRow out.aead out.newKey w = some m := by
    intro hr
    obtain ⟨m', hm', hnew⟩ := hr.opens hA
    rwa [(openRow_inj hA hopen hm').2]
  constructor
  · intro hnew
    rcases row_reach hc hw0 hw hid with rfl | hr
    · exact .inr (openRow_inj hA hopen hnew).1
    · exact .inl hr.scheme_one
  · intro hcond
    rcases hcond with h1 | hkeys
    · exact hresealed (resealed_of_allDone hc hdone hw0 hw hid hopen h1)
    · rcases row_reach hc hw0 hw hid with rfl | hr
      · rwa [← hkeys]
      · exact hresealed hr

/-- **Which rows a migration that exits successfully has moved to the new key.**  However many runs
it took: a row that opened under the old key before the first one now opens under the new key to the
same seed exactly if it was in scheme V1, or the two keys are the same. -/
theorem migrated_iff (hA : out.aead.Ideal) (hsound : Sound out s0)
    (hc : Reachable (system out) (StartIn s0) c) {i : Nat} (hexit : Exited c.world i)
    {w0 w : SealedWallet} (hw0 : w0 ∈ s0.table.rows) (hw : w ∈ c.world.db.table.rows)
    (hid : w.id = w0.id) {m : Bytes} (hopen : openRow out.aead out.oldKey w0 = some m) :
    openRow out.aead out.newKey w = some m ↔ w0.sealedScheme = some 1 ∨ out.oldKey = out.newKey :=
  opens_of_allDone hA hc (allDone_of_exited hsound hc hexit) hw0 hw hid hopen

/-! ### Examples -/

theorem sound_example (t : WalletTable) : Sound exampleOut (exampleState t) :=
  fun _ hls => nomatch hls

def isExit (x : Act) : Bool :=
  match x with
  | ⟨.call .removeCheckpoint, .ok _, _, _⟩ => true
  | _ => false

theorem exited_of_isExit {w : World} {i : Nat} (h : ∃ x ∈ w.trace i, isExit x) : Exited w i := by
  obtain ⟨⟨o, a, s, s'⟩, hm, hx⟩ := h
  unfold isExit at hx
  split at hx
  · rename_i heq
    cases heq
    exact ⟨s, s', hm⟩
  · cases hx

/-- The moves of a run in which nothing fails through `n` rows, in pages of one row. -/
def runMovesThrough (n : Nat) : List (Move Job Choice Env) :=
  [.start (exampleJob (n + 1)), .call 0 answered] ++ (List.replicate n (pageMoves 0)).flatten ++
    [.call 0 answered, .call 0 answered]

theorem two_old_rows_migrated :
    ∃ c : Conf, Reachable (system exampleOut) (StartIn (exampleState twoOldRows)) c ∧
    Exited c.world 0 ∧ ∃ w ∈ c.world.db.table.rows, w.id = 2 ∧
      openRow framed exampleNewKey w = some exampleSeed := by
  obtain ⟨c, hc, hexit, w, hw, hid⟩ := exists_reachable_of_runMoves (S := system exampleOut)
    (show StartIn (exampleState twoOldRows) _ from rfl) (runMovesThrough 2)
    (p := fun c => (∃ x ∈ c.world.trace 0, isExit x) ∧ ∃ w ∈ c.world.db.table.rows, w.id = 2)
    (by decide +kernel)
  have hrow : exampleRow 2 exampleOldKey 1 ∈ (exampleState twoOldRows).table.rows :=
    List.mem_cons_of_mem _ List.mem_cons_self
  have hopen : openRow framed exampleOldKey (exampleRow 2 exampleOldKey 1) = some exampleSeed := by
    decide +kernel
  have hexited := exited_of_isExit hexit
  refine ⟨c, hc, hexited, w, hw, hid, ?_⟩
  exact (migrated_iff framed_ideal (sound_example _) hc hexited hrow hw hid hopen).mpr (.inl rfl)

def oneV2Row : WalletTable where
  rows := [exampleRow 1 exampleOldKey 2]
  sorted := by decide

/-- After a second rotation that reports success, the row still opens under the old key only. -/
theorem v2_row_left_behind :
    ∃ c : Conf, Reachable (system exampleOut) (StartIn (exampleState oneV2Row)) c ∧
    Exited c.world 0 ∧ ∃ w ∈ c.world.db.table.rows, openRow framed exampleOldKey w =
      some exampleSeed ∧ openRow framed exampleNewKey w = none := by
  obtain ⟨c, hc, hexit, hrow⟩ := exists_reachable_of_runMoves (S := system exampleOut)
    (show StartIn (exampleState oneV2Row) _ from rfl) (runMovesThrough 0)
    (p := fun c => (∃ x ∈ c.world.trace 0, isExit x) ∧ ∃ w ∈ c.world.db.table.rows,
      openRow framed exampleOldKey w = some exampleSeed ∧ openRow framed exampleNewKey w = none)
    (by decide +kernel)
  exact ⟨c, hc, exited_of_isExit hexit, hrow⟩

end Octo.Migration
