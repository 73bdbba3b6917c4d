import Octo.Conc.Trace
import Octo.Migration.Tool

/-!
# The system of migration runs

Any number of runs of the tool for one pair of keys work on one table and one checkpoint file, one
call at a time, and each may be killed between two calls.
-/

namespace Octo.Migration

open Conc Crypto List

structure Job where
  cfg : Config
  fuel : Nat
  deriving DecidableEq

inductive Env

def system (out : Outside) : Sys Job Op Ans Choice Env State where
  code j := (migrate out j.cfg j.fuel).run.bind (fun _ => .ret ())
  canStart _ _ := true
  exec := exec
  env e _ := nomatch e

def StartIn (s0 s : State) : Prop := s = s0

abbrev Act := Conc.Act Op Ans State
abbrev World := Conc.World Job Op Ans State
abbrev Conf := Conc.Conf Job Op Ans State

/-! ### What a call can do -/

variable {ch : Choice} {s s' s'' : State} {c : Call} {o : Op} {a : Ans o}

theorem exec_call {a : Except StoreError c.Val} (h : exec (.call c) ch s = some (a, s')) :
    a = (act c s).1 ∧ s' = (act c s).2 ∨ a = .error .database ∧ (s' = s ∨ s' = (act c s).2) := by
  cases ch with
  | call =>
    rcases store_cases h with ⟨n, hn⟩ | h
    · exact .inl (Prod.mk.inj hn)
    · exact .inr h
  | drawn => cases h

theorem exec_call_ok {v : c.Val} (h : exec (.call c) ch s = some (.ok v, s')) :
    (act c s).1 = .ok v ∧ s' = (act c s).2 := by
  rcases exec_call h with ⟨ha, hs⟩ | ⟨ha, -⟩
  · exact ⟨ha.symm, hs⟩
  · cases ha

theorem exec_cases (h : exec o ch s = some (a, s')) :
    s' = s ∨ ∃ c, o = .call c ∧ s' = (act c s).2 := by
  cases o with
  | call c =>
    rcases exec_call h with ⟨-, hs⟩ | ⟨-, hs | hs⟩
    · exact .inr ⟨c, rfl, hs⟩
    · exact .inl hs
    · exact .inr ⟨c, rfl, hs⟩
  | draw =>
    cases ch with
    | drawn => exact .inl (call_inj h).2.symm
    | call => cases h

/-! ### What never goes back -/

/-- A row changes by a reseal only. -/
def RowGrows (w w' : SealedWallet) : Prop :=
  w' = w ∨ ∃ ciphertext nonce salt, w' = withSealed w ciphertext nonce salt 2

variable {w w' : SealedWallet}

theorem RowGrows.id_eq (h : RowGrows w w') : w'.id = w.id := by
  rcases h with rfl | ⟨_, _, _, rfl⟩
  · rfl
  · rfl

theorem RowGrows.trans {w'' : SealedWallet} (h : RowGrows w w') (h' : RowGrows w' w'') :
    RowGrows w w'' := by
  rcases h' with rfl | ⟨ciphertext, nonce, salt, rfl⟩
  · exact h
  · right
    rcases h with rfl | ⟨c, n, s, rfl⟩
    · exact ⟨ciphertext, nonce, salt, rfl⟩
    · exact ⟨ciphertext, nonce, salt, rfl⟩

theorem RowGrows.eq_or_scheme (h : RowGrows w w') : w' = w ∨ w'.sealedScheme = some 2 := by
  rcases h with rfl | ⟨_, _, _, rfl⟩
  · exact .inl rfl
  · exact .inr rfl

theorem RowGrows.needs (h : RowGrows w w') (hw : needs w = false) : needs w' = false := by
  rcases h.eq_or_scheme with rfl | hs
  · exact hw
  · simp [Migration.needs, otherScheme, hs]

structure Grows (s s' : State) : Prop where
  ids : s'.table.rows.map (·.id) = s.table.rows.map (·.id)
  back : ∀ w' ∈ s'.table.rows, ∃ w ∈ s.table.rows, RowGrows w w'

theorem Grows.of_table (h : s'.table = s.table) : Grows s s' where
  ids := by rw [h]
  back := by
    intro w hw
    rw [h] at hw
    exact ⟨w, hw, .inl rfl⟩

theorem Grows.refl (s : State) : Grows s s := .of_table rfl

theorem Grows.trans (h : Grows s s') (h' : Grows s' s'') : Grows s s'' where
  ids := h'.ids.trans h.ids
  back := by
    intro w'' hw''
    obtain ⟨w', hw', hg'⟩ := h'.back w'' hw''
    obtain ⟨w, hw, hg⟩ := h.back w' hw'
    exact ⟨w, hw, hg.trans hg'⟩

theorem Grows.forth (h : Grows s s') (hw : w ∈ s.table.rows) :
    ∃ w' ∈ s'.table.rows, RowGrows w w' := by
  have hid : w.id ∈ s'.table.rows.map (·.id) := by
    rw [h.ids]
    exact mem_map_of_mem hw
  obtain ⟨w', hw', heq⟩ := mem_map.mp hid
  obtain ⟨v, hv, hg⟩ := h.back w' hw'
  have hvw : v = w := WalletTable.eq_of_id hv hw (hg.id_eq.symm.trans heq)
  exact ⟨w', hw', hvw ▸ hg⟩

theorem Grows.row (h : Grows s s') (hw : w ∈ s.table.rows) (hw' : w' ∈ s'.table.rows)
    (hid : w'.id = w.id) : RowGrows w w' := by
  obtain ⟨v, hv, hg⟩ := h.back w' hw'
  have hvw : v = w := WalletTable.eq_of_id hv hw (hg.id_eq.symm.trans hid)
  exact hvw ▸ hg

theorem mem_resealWallet {t : WalletTable} {id : Uuid} {ciphertext nonce salt : Bytes}
    {new expected : Int} (h : w' ∈ (t.resealWallet id ciphertext nonce salt new expected).2.rows) :
    ∃ w ∈ t.rows, w'.id = w.id ∧ (w.id = id ∧ w.sealedScheme = some expected ∧
        w' = withSealed w ciphertext nonce salt new ∨
      ¬ (w.id = id ∧ w.sealedScheme = some expected) ∧ w' = w) := by
  obtain ⟨w, hw, rfl⟩ := mem_map.mp h
  refine ⟨w, hw, ?_⟩
  by_cases hg : w.id = id ∧ w.sealedScheme = some expected
  · rw [if_pos (by simpa using hg)]
    exact ⟨rfl, .inl ⟨hg.1, hg.2, rfl⟩⟩
  · rw [if_neg (by simpa using hg)]
    exact ⟨rfl, .inr ⟨hg, rfl⟩⟩

theorem resealWallet_ids (t : WalletTable) (id : Uuid) (ciphertext nonce salt : Bytes)
    (new expected : Int) :
    (t.resealWallet id ciphertext nonce salt new expected).2.rows.map (·.id) = t.rows.map
      (·.id) := by
  simp only [WalletTable.resealWallet, map_map]
  apply map_congr_left
  intro w _
  simp only [Function.comp]
  split <;> rfl

/-- Whatever happens, the rows stay, and a row changes only to one in scheme V2. -/
theorem act_grows (c : Call) (s : State) : Grows s (act c s).2 := by
  cases c with
  | resealWallet id ciphertext nonce salt =>
    refine ⟨resealWallet_ids .., ?_⟩
    intro w' hw'
    obtain ⟨w, hw, -, ⟨-, -, rfl⟩ | ⟨-, rfl⟩⟩ := mem_resealWallet hw'
    · exact ⟨w, hw, .inr ⟨ciphertext, nonce, salt, rfl⟩⟩
    · exact ⟨_, hw, .inl rfl⟩
  | _ => exact .of_table rfl

theorem exec_grows (h : exec o ch s = some (a, s')) : Grows s s' := by
  rcases exec_cases h with rfl | ⟨c, -, rfl⟩
  · exact .refl _
  · exact act_grows c s

end Octo.Migration
