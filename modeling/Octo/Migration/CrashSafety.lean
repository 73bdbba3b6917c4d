import Octo.Migration.Discipline

/-!
# Interrupted and concurrent migration runs
-/

namespace Octo.Migration

open Conc Crypto List

variable {out : Outside} {s0 : State} {c : Conf}

/-! ### The cursors -/

variable {s : State} {w w' : SealedWallet} {ch : Choice} {key m : Bytes} {A : Aead} {i : Nat}
  {j : Job} {o : Op} {a : Ans o}

theorem mem_inodes_act {call : Call} {ls : List Line} (h : ls ∈ (act call s).2.files.inodes) :
    ls ∈ s.files.inodes ∨ ls = [] ∨ ∃ i, call = .writeTmp i ls := by
  cases call with
  | createTmp =>
    simp only [act, Files.createTmp] at h
    split at h
    · rcases mem_or_eq_of_mem_set h with h | h
      · exact .inl h
      · exact .inr (.inl h)
    · rcases mem_append.mp h with h | h
      · exact .inl h
      · exact .inr (.inl (mem_singleton.mp h))
  | writeTmp i =>
    rcases mem_or_eq_of_mem_set h with h | h
    · exact .inl h
    · exact .inr (.inr ⟨i, by rw [h]⟩)
  | renameTmp =>
    simp only [act, Files.renameTmp] at h
    split at h
    · exact .inl h
    · exact .inl h
  | _ => exact .inl h

/-- **A call that the tool makes keeps the cursors right.** -/
theorem Sound.exec {w : World} (h : Sound out w.db) (hhist : ∀ x ∈ w.trace i, Sound out x.pre)
    (hbelow : ∀ x ∈ w.trace i, Grows x.post w.db) (hL : Allowed out j (w.trace i) o)
    (he : exec o ch w.db = some (a, s)) : Sound out s := by
  have hg := exec_grows he
  intro ls hls x hx
  rcases exec_cases he with rfl | ⟨_, rfl, rfl⟩
  · exact h ls hls x hx
  · rcases mem_inodes_act hls with hls | rfl | ⟨k, rfl⟩
    · exact (h ls hls x hx).grows hg
    · exact absurd hx parseCheckpoint_nil
    · obtain ⟨-, y, rfl, hknown⟩ := hL
      rw [parse_checkpointLines] at hx
      cases hx
      exact (hknown hhist w.db hbelow).grows hg

theorem sound_reach (h0 : Sound out s0) (hc : Reachable (system out) (StartIn s0) c) :
    Sound out c.world.db ∧ ∀ e ∈ c.world.hist, Sound out e.act.pre := by
  refine (discipline out).invariant (I := fun w => Sound out w.db ∧
    ∀ e ∈ w.hist, Sound out e.act.pre) ?_ ?_ ?_ ?_ hc
  · intro s hs
    cases hs
    exact ⟨h0, fun e he => nomatch he⟩
  · exact fun w j hI _ _ => hI
  · intro w i j o ch a s hI hch _ hL he _
    refine ⟨hI.1.exec ?_ ?_ hL he, ?_⟩
    · exact fun x hx => hI.2 _ (World.mem_trace.mp hx)
    · exact fun x hx => hch.below_of_mem hx
    · exact forall_mem_cons.mpr ⟨hI.1, hI.2⟩
  · intro w e
    cases e

/-! ### The rows -/

def Kept (out : Outside) (s0 : State) (w : SealedWallet) : Prop :=
  ∃ w0 ∈ s0.table.rows, w = w0 ∨ Resealed out w0 w

theorem Resealed.scheme (h : Resealed out w w') : w'.sealedScheme = some 2 := by
  obtain ⟨rng, m, new, -, -, -, -, rfl⟩ := h
  rfl

theorem Resealed.other (h : Resealed out w w') : otherScheme 2 w = true := by
  obtain ⟨rng, m, new, -, hother, -⟩ := h
  exact hother

theorem Resealed.id_eq (h : Resealed out w w') : w'.id = w.id := by
  obtain ⟨rng, m, new, -, -, -, -, rfl⟩ := h
  rfl

/-- **A call that the tool makes replaces a row only by its resealed record.** -/
theorem Kept.exec {w : World} (h : ∀ v ∈ w.db.table.rows, Kept out s0 v)
    (hbelow : ∀ x ∈ w.trace i, Grows x.post w.db) (hL : Allowed out j (w.trace i) o)
    (he : exec o ch w.db = some (a, s)) : ∀ v ∈ s.table.rows, Kept out s0 v := by
  rcases exec_cases he with rfl | ⟨call, rfl, rfl⟩
  · exact h
  cases call with
  | resealWallet =>
    intro v' hv'
    obtain ⟨v, hv, -, ⟨hid, hscheme, rfl⟩ | ⟨-, rfl⟩⟩ := mem_resealWallet hv'
    · obtain ⟨-, r, ⟨n, _, _, t, t', hm, -, hr⟩, hrid, hrscheme, hreseal⟩ := hL
      -- the row that was read is the row that is there: otherwise its scheme would be V2 by now
      have hvr : v = r := by
        rcases ((hbelow _ hm).row hr hv (hid.trans hrid.symm)).eq_or_scheme with hvr | h2
        · exact hvr
        · have hr2 : r.sealedScheme = some 2 := by rw [hrscheme, ← hscheme, h2]
          have hfalse := otherScheme_of_scheme hr2
          rw [hreseal.other] at hfalse
          cases hfalse
      subst hvr
      obtain ⟨w0, hw0, rfl | hold⟩ := h v hv
      · exact ⟨v, hw0, .inr hreseal⟩
      · have hfalse := otherScheme_of_scheme hold.scheme
        rw [hreseal.other] at hfalse
        cases hfalse
    · exact h _ hv
  | _ => exact h

theorem rows_reach (hc : Reachable (system out) (StartIn s0) c) :
    ∀ w ∈ c.world.db.table.rows, Kept out s0 w := by
  refine (discipline out).invariant (I := fun w => ∀ v ∈ w.db.table.rows, Kept out s0 v)
    ?_ ?_ ?_ ?_ hc
  · intro s hs w hw
    cases hs
    exact ⟨w, hw, .inl rfl⟩
  · exact fun w j hI _ _ => hI
  · intro w i j o ch a s hI hch _ hL he _
    exact Kept.exec hI (fun x hx => hch.below_of_mem hx) hL he
  · intro w e
    cases e

/-- A row is that of the start with its id, or that one resealed. -/
theorem row_reach {w0 : SealedWallet} (hc : Reachable (system out) (StartIn s0) c)
    (hw0 : w0 ∈ s0.table.rows) (hw : w ∈ c.world.db.table.rows) (hid : w.id = w0.id) :
    w = w0 ∨ Resealed out w0 w := by
  obtain ⟨v, hv, rfl | hr⟩ := rows_reach hc w hw
  · exact .inl (WalletTable.eq_of_id hv hw0 hid)
  · have hvw : v = w0 := WalletTable.eq_of_id hv hw0 (hr.id_eq.symm.trans hid)
    exact .inr (hvw ▸ hr)

theorem ids_reach (hc : Reachable (system out) (StartIn s0) c) : Grows s0 c.world.db := by
  obtain ⟨s, hs, hg⟩ := (discipline out).above_init hc
  cases hs
  exact hg

/-! ### What a row opens to -/

theorem fromParts_self (s : SealedSeed) (h : s.scheme = schemeV1 ∨ s.scheme = schemeV2) :
    SealedSeed.fromPartsWithScheme s.ciphertext s.nonce s.salt s.scheme = .ok s := by
  rw [SealedSeed.fromPartsWithScheme, if_pos h, dif_pos s.nonce_length, dif_pos s.salt_length]

/-- **A resealed row opens under the new key to the seed of the old one.** -/
theorem Resealed.opens (hA : out.aead.Ideal) (h : Resealed out w w') :
    ∃ m, openRow out.aead out.oldKey w = some m ∧ openRow out.aead out.newKey w' = some m := by
  obtain ⟨rng, m, new, -, -, hopen, hseal, rfl⟩ := h
  refine ⟨m, hopen, ?_⟩
  obtain ⟨hv2, hnew⟩ := openWithAccountId_of_sealWithAccountId hA hseal
  have hparts := fromParts_self new (.inr hv2)
  rw [hv2] at hparts
  have hbyte : toU8 2 = some schemeV2 := rfl
  show (do
    let scheme ← toU8 2
    let s ← (SealedSeed.fromPartsWithScheme new.ciphertext new.nonce new.salt scheme).toOption
    (openWithAccountId out.aead out.newKey s (context w) (accountId w)).toOption) = some m
  simp only [hbyte, Option.bind_eq_bind, Option.bind_some, hparts, Except.toOption, hnew]

theorem columns_of_openRow (h : openRow A key w = some m) :
    w.sealedCiphertext.isSome ∧ w.sealedNonce.isSome ∧ w.sealedSalt.isSome := by
  simp only [openRow, Option.bind_eq_bind, Option.bind_eq_some_iff] at h
  obtain ⟨ct, hc, _, hn, _, hs, -⟩ := h
  simp [hc, hn, hs]

theorem needs_of_v1 (h : openRow A key w = some m) (h1 : w.sealedScheme = some 1) :
    needs w = true := by
  obtain ⟨hc, hn, hs⟩ := columns_of_openRow h
  simp [needs, isSealed, otherScheme, hc, hn, hs, h1]

def AllV1 (A : Aead) (key : Bytes) (t : WalletTable) : Prop :=
  ∀ w ∈ t.rows, w.sealedCiphertext.isSome = true → w.sealedScheme = some 1 ∧
    ∃ m, openRow A key w = some m

/-- **Crash safety.**  However many runs for a pair of keys work on a table of V1 rows under the old
key, one after the other or at once, and wherever they are killed: every row is its original or one
complete resealed record; every row that was sealed at the start opens to its original seed under
the old or the new key; and of these every one at or below a cursor on disk has been resealed. -/
theorem migration_crash_safe (hA : out.aead.Ideal) (hsound : Sound out s0)
    (hold : AllV1 out.aead out.oldKey s0.table) (hc : Reachable (system out) (StartIn s0) c) :
    c.world.db.table.rows.map (·.id) = s0.table.rows.map (·.id) ∧
    (∀ w ∈ c.world.db.table.rows, Kept out s0 w) ∧
    (∀ w0 ∈ s0.table.rows, w0.sealedCiphertext.isSome = true →
      ∃ w ∈ c.world.db.table.rows, w.id = w0.id ∧ ∃ m, openRow out.aead out.oldKey w0 = some m ∧
        (w = w0 ∨ Resealed out w0 w ∧ openRow out.aead out.newKey w = some m)) ∧
    (∀ ls x, c.world.db.files.readCheckpoint = some ls →
      parseCheckpoint out.fingerprint ls = .ok x →
      ∀ w0 ∈ s0.table.rows, w0.sealedCiphertext.isSome = true → w0.id ≤ x →
        ∃ w ∈ c.world.db.table.rows, Resealed out w0 w) := by
  have hg := ids_reach hc
  refine ⟨hg.ids, rows_reach hc, ?_, ?_⟩
  · intro w0 hw0 hcipher
    obtain ⟨-, m, hm⟩ := hold w0 hw0 hcipher
    obtain ⟨w, hw, hrow⟩ := hg.forth hw0
    refine ⟨w, hw, hrow.id_eq, m, hm, ?_⟩
    rcases row_reach hc hw0 hw hrow.id_eq with rfl | hr
    · exact .inl rfl
    · obtain ⟨m', hm', hnew⟩ := hr.opens hA
      rw [hm] at hm'
      exact .inr ⟨hr, hm' ▸ hnew⟩
  · intro ls x hls hx w0 hw0 hcipher hle
    obtain ⟨h1, m, hm⟩ := hold w0 hw0 hcipher
    obtain ⟨w, hw, hrow⟩ := hg.forth hw0
    rw [← hrow.id_eq] at hle
    have hdone := (sound_reach hsound hc).1.doneTo hls hx w hw (by simpa [isAfter] using hle)
    rcases row_reach hc hw0 hw hrow.id_eq with rfl | hr
    · rw [needs_of_v1 hm h1] at hdone
      cases hdone
    · exact ⟨w, hw, hr⟩

/-! ### An example -/

def exampleDraw (b : UInt8) : Draw where
  salt := List.replicate 32 b
  nonce := List.replicate 12 b
  salt_length := rfl
  nonce_length := rfl

def exampleOldKey : Bytes := List.replicate 32 5
def exampleNewKey : Bytes := List.replicate 32 6
def exampleSeed : Bytes := List.replicate 64 9

def exampleOut : Outside := ⟨framed, exampleOldKey, exampleNewKey, "pair"⟩

/-- A gas-tank row with the seed sealed under the key, in scheme V1 or V2. -/
def exampleRow (id : Uuid) (key : Bytes) (scheme : Int) : SealedWallet :=
  let info := if scheme = 1 then utf8 "octo:testnet" else boundContext (utf8 "octo:testnet") "GTANK"
  { id := id
    network := "testnet"
    stellarAccountG := "GUSER"
    gasTankAccountG := some "GTANK"
    sealedCiphertext := framed.encrypt (framed.hkdf (exampleDraw 1).salt key info)
      (exampleDraw 1).nonce info exampleSeed
    sealedNonce := some (exampleDraw 1).nonce
    sealedSalt := some (exampleDraw 1).salt
    sealedScheme := some scheme
    archivedAt := none }

def noFiles : Files := ⟨[], none, none⟩

def exampleState (t : WalletTable) : State := ⟨t, noFiles⟩

def twoOldRows : WalletTable where
  rows := [exampleRow 1 exampleOldKey 1, exampleRow 2 exampleOldKey 1]
  sorted := by decide

def exampleJob (fuel : Nat) : Job := ⟨⟨1, false, by decide⟩, fuel⟩

def answered : Choice := .call (.served 0)

def pageMoves (i : Nat) : List (Move Job Choice Env) :=
  [.call i answered, .call i (.drawn (exampleDraw 2)), .call i answered, .call i answered,
    .call i answered, .call i answered]

def killedMoves : List (Move Job Choice Env) :=
  [.start (exampleJob 3), .call 0 answered] ++ pageMoves 0 ++ [.crash 0]

/-- Killed after its first page, a run leaves a cursor behind, and the second row as it was. -/
theorem killed_after_a_page :
    ∃ c : Conf, Reachable (system exampleOut) (StartIn (exampleState twoOldRows)) c ∧
    c.world.db.files.readCheckpoint = some (checkpointLines "pair" 1) ∧
    (∃ w ∈ c.world.db.table.rows, w.id ≤ 1 ∧ Resealed exampleOut (exampleRow 1 exampleOldKey 1) w) ∧
    exampleRow 2 exampleOldKey 1 ∈ c.world.db.table.rows := by
  obtain ⟨c, hc, hread, hsecond⟩ := exists_reachable_of_runMoves (S := system exampleOut)
    (show StartIn (exampleState twoOldRows) _ from rfl) killedMoves
    (p := fun c => c.world.db.files.readCheckpoint = some (checkpointLines "pair" 1) ∧
      exampleRow 2 exampleOldKey 1 ∈ c.world.db.table.rows) (by decide +kernel)
  have hsound : Sound exampleOut (exampleState twoOldRows) := fun ls hls => nomatch hls
  have hold : AllV1 framed exampleOldKey twoOldRows := by
    intro v hv _
    rcases List.mem_cons.mp hv with rfl | hv
    · exact ⟨rfl, exampleSeed, by decide +kernel⟩
    · rw [List.mem_singleton.mp hv]
      exact ⟨rfl, exampleSeed, by decide +kernel⟩
  obtain ⟨-, -, -, hcursor⟩ := migration_crash_safe framed_ideal hsound hold hc
  have hrow : exampleRow 1 exampleOldKey 1 ∈ (exampleState twoOldRows).table.rows :=
    List.mem_cons_self
  obtain ⟨w, hw, hr⟩ := hcursor _ 1 hread rfl _ hrow (by decide +kernel) (Nat.le_refl 1)
  exact ⟨c, hc, hread, ⟨w, hw, hr.id_eq ▸ Nat.le_refl 1, hr⟩, hsecond⟩

/-! ### Dry runs -/

/-- **A dry run writes nothing**, whatever runs beside it and however its calls end. -/
theorem dry_run_writes_nothing {out : Outside} {c : Conf} {init : State → Prop}
    (hc : Reachable (system out) init c) {i : Nat} {j : Job} (hj : c.world.jobs[i]? = some j)
    (hdry : j.cfg.dryRun = true) {x : Act} (hx : x ∈ c.world.trace i) : x.post = x.pre := by
  obtain ⟨_, -, hL⟩ := (discipline out).allowed_before hc hj hx
  obtain ⟨ch, he⟩ := ((discipline out).chained hc).exec_of_mem hx
  rcases exec_cases he with hsame | ⟨call, ho, hpost⟩
  · exact hsame
  · rw [ho] at hL
    have hwet : j.cfg.dryRun ≠ false := by simp [hdry]
    cases call with
    | readCheckpoint => exact hpost
    | listWalletsNeedingReseal => exact hpost
    | resealWallet => exact absurd hL.1 hwet
    | createTmp | renameTmp => exact absurd hL hwet
    | writeTmp | removeCheckpoint => exact absurd hL.1 hwet

def dryJob : Job := ⟨⟨1, true, by decide⟩, 3⟩

theorem dry_run_of_two_rows :
    ∃ c : Conf, Reachable (system exampleOut) (StartIn (exampleState twoOldRows)) c ∧
    2 < (c.world.trace 0).length ∧ ∀ x ∈ c.world.trace 0, x.post = x.pre := by
  obtain ⟨c, hc, hjob, hlen⟩ := exists_reachable_of_runMoves (S := system exampleOut)
    (show StartIn (exampleState twoOldRows) _ from rfl)
    [.start dryJob, .call 0 answered, .call 0 answered, .call 0 (.drawn (exampleDraw 2))]
    (p := fun c => c.world.jobs[0]? = some dryJob ∧ 2 < (c.world.trace 0).length)
      (by decide +kernel)
  exact ⟨c, hc, hlen, fun x hx => dry_run_writes_nothing hc hjob rfl hx⟩

end Octo.Migration
