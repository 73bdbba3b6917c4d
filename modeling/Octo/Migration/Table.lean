import Octo.Store.SealedWallets

/-!
# The wallets table in a key migration

`list_wallets_needing_reseal` and `reseal_wallet` of `crates/store/src/wallets.rs`, and what it
means that a row opens under a key.  A table is the list of its rows in the order of their ids.
-/

namespace Octo.Migration

open Crypto List

structure WalletTable where
  rows : List SealedWallet
  sorted : rows.Pairwise (fun w w' => w.id < w'.id)

def accountId (w : SealedWallet) : String := w.gasTankAccountG.getD w.stellarAccountG

def context (w : SealedWallet) : Bytes := utf8 ("octo:" ++ w.network)

/-- The row is neither tagged with the scheme nor untagged (`sealed_scheme <> $1`). -/
def otherScheme (targetScheme : Int) (w : SealedWallet) : Bool :=
  w.sealedScheme.any (fun s => s != targetScheme)

def isAfter (afterId : Option Uuid) (w : SealedWallet) : Bool :=
  afterId.all (fun a => decide (a < w.id))

def WalletTable.listWalletsNeedingReseal (t : WalletTable) (targetScheme : Int) (batchSize : Nat)
    (afterId : Option Uuid) : List SealedWallet :=
  (t.rows.filter (fun w => otherScheme targetScheme w && isAfter afterId w)).take batchSize

def withSealed (w : SealedWallet) (ciphertext nonce salt : Bytes) (scheme : Int) : SealedWallet :=
  { w with sealedCiphertext := some ciphertext, sealedNonce := some nonce, sealedSalt := some salt,
           sealedScheme := some scheme }

def WalletTable.resealWallet (t : WalletTable) (walletId : Uuid)
    (newCiphertext newNonce newSalt : Bytes) (newScheme expectedOldScheme : Int) :
    Bool × WalletTable :=
  let guard := fun w : SealedWallet => w.id == walletId && w.sealedScheme == some expectedOldScheme
  (t.rows.any guard,
    { rows := t.rows.map (fun w =>
        if guard w then withSealed w newCiphertext newNonce newSalt newScheme else w)
      sorted := by
        refine List.pairwise_map.mpr (t.sorted.imp ?_)
        intro w w' hlt
        have hid : ∀ v : SealedWallet,
            (if guard v then withSealed v newCiphertext newNonce newSalt newScheme else v).id =
              v.id := by
          intro v
          split <;> rfl
        rw [hid, hid]
        exact hlt })

/-- The seed of a row that opens under the key.  An untagged row is read as V1. -/
def openRow (A : Aead) (key : Bytes) (w : SealedWallet) : Option Bytes := do
  let ciphertext ← w.sealedCiphertext
  let nonce ← w.sealedNonce
  let salt ← w.sealedSalt
  let scheme ← toU8 (w.sealedScheme.getD 1)
  let s ← (SealedSeed.fromPartsWithScheme ciphertext nonce salt scheme).toOption
  (openWithAccountId A key s (context w) (accountId w)).toOption

def isSealed (w : SealedWallet) : Bool :=
  w.sealedCiphertext.isSome && w.sealedNonce.isSome && w.sealedSalt.isSome && w.sealedScheme.isSome

def needs (w : SealedWallet) : Bool := isSealed w && otherScheme 2 w

/-! ### Pages -/

namespace WalletTable

variable {t : WalletTable}

variable {w : SealedWallet} {target : Int} {n : Nat} {after : Option Uuid}

theorem eq_of_id {w' : SealedWallet} (h : w ∈ t.rows) (h' : w' ∈ t.rows) (hid : w.id = w'.id) :
    w = w' := by
  have hnodup : (t.rows.map (·.id)).Nodup := pairwise_map.mpr (t.sorted.imp Nat.ne_of_lt)
  exact inj_on_of_nodup_map hnodup h h' hid

theorem mem_list (h : w ∈ t.listWalletsNeedingReseal target n after) :
    w ∈ t.rows ∧ otherScheme target w = true ∧ isAfter after w = true := by
  have hmem := mem_filter.mp (mem_of_mem_take h)
  exact ⟨hmem.1, Bool.and_eq_true_iff.mp hmem.2⟩

theorem list_eq_nil (hn : 0 < n) (h : t.listWalletsNeedingReseal target n after = [])
    (hw : w ∈ t.rows) (hafter : isAfter after w = true) : otherScheme target w = false := by
  apply Bool.eq_false_iff.mpr
  intro hother
  rcases take_eq_nil_iff.mp h with hzero | hnil
  · omega
  · have hmem : w ∈ t.rows.filter (fun w => otherScheme target w && isAfter after w) :=
      mem_filter.mpr ⟨hw, by rw [hother, hafter]; rfl⟩
    rw [hnil] at hmem
    exact absurd hmem not_mem_nil

theorem mem_list_of_le {last : SealedWallet}
    (hlast : (t.listWalletsNeedingReseal target n after).getLast? = some last) (hw : w ∈ t.rows)
    (hother : otherScheme target w = true) (hafter : isAfter after w = true)
    (hle : w.id ≤ last.id) : w ∈ t.listWalletsNeedingReseal target n after := by
  let l := t.rows.filter (fun w => otherScheme target w && isAfter after w)
  have hmem : w ∈ l := mem_filter.mpr ⟨hw, by rw [hother, hafter]; rfl⟩
  have hsorted : l.Pairwise (fun w w' => w.id < w'.id) := t.sorted.filter _
  rw [← take_append_drop n l, pairwise_append] at hsorted
  rw [← take_append_drop n l] at hmem
  rcases mem_append.mp hmem with h | h
  · exact h
  · have hlt := hsorted.2.2 last (mem_of_getLast? hlast) w h
    exact absurd hlt (Nat.not_lt.mpr hle)

end WalletTable

end Octo.Migration
