import Octo.Migration.Table
import Octo.Store.Call

/-!
# The calls of the migration tool

The state that `octo-migrate-keys` works on: the wallets table and the checkpoint file.  A file that
was renamed or opened keeps its inode, so a process may write to a file that another has already
renamed; a file that was opened for writing is empty until it is written.  Every call may fail,
before or after it took effect.
-/

namespace Octo.Migration

open Crypto

/-- A line of a checkpoint file.  The value of `after_id` need not be an id. -/
inductive Line
  | fingerprint (v : String)
  | afterId (v : Option Uuid)
  | other
  deriving DecidableEq

/-- The contents by inode, and the inodes of the checkpoint and of the temporary file. -/
structure Files where
  inodes : List (List Line)
  checkpoint : Option Nat
  tmp : Option Nat
  deriving DecidableEq

structure State where
  table : WalletTable
  files : Files

def Files.createTmp (f : Files) : Nat × Files :=
  match f.tmp with
  | some i => (i, { f with inodes := f.inodes.set i [] })
  | none => (f.inodes.length, { f with inodes := f.inodes ++ [[]], tmp := some f.inodes.length })

def Files.renameTmp (f : Files) : Except StoreError Unit × Files :=
  match f.tmp with
  | some i => (.ok (), { f with checkpoint := some i, tmp := none })
  | none => (.error .notFound, f)

def Files.readCheckpoint (f : Files) : Option (List Line) :=
  f.checkpoint.map (fun i => f.inodes.getD i [])

inductive Call
  | readCheckpoint
  | listWalletsNeedingReseal (batchSize : Nat) (afterId : Option Uuid)
  | resealWallet (walletId : Uuid) (newCiphertext newNonce newSalt : Bytes)
      (expectedOldScheme : Int)
  | createTmp
  | writeTmp (inode : Nat) (contents : List Line)
  | renameTmp
  | removeCheckpoint
  deriving DecidableEq

abbrev Call.Val : Call → Type
  | .readCheckpoint => Option (List Line)
  | .listWalletsNeedingReseal .. => List SealedWallet
  | .resealWallet .. => Bool
  | .createTmp => Nat
  | .writeTmp .. => Unit
  | .renameTmp => Unit
  | .removeCheckpoint => Unit

inductive Op
  | call (c : Call)
  /-- The salt and the nonce that `seal` draws. -/
  | draw
  deriving DecidableEq

abbrev Ans : Op → Type
  | .call c => Except StoreError c.Val
  | .draw => Draw

inductive Choice
  | call (ch : Octo.Choice)
  | drawn (d : Draw)

def act : (c : Call) → State → Except StoreError c.Val × State
  | .readCheckpoint, s => (.ok s.files.readCheckpoint, s)
  | .listWalletsNeedingReseal n after, s => (.ok (s.table.listWalletsNeedingReseal 2 n after), s)
  | .resealWallet id ciphertext nonce salt expected, s =>
    let r := s.table.resealWallet id ciphertext nonce salt 2 expected
    (.ok r.1, { s with table := r.2 })
  | .createTmp, s => (.ok s.files.createTmp.1, { s with files := s.files.createTmp.2 })
  | .writeTmp i contents, s =>
    (.ok (), { s with files := { s.files with inodes := s.files.inodes.set i contents } })
  | .renameTmp, s => (s.files.renameTmp.1, { s with files := s.files.renameTmp.2 })
  -- a file that is not there is fine
  | .removeCheckpoint, s => (.ok (), { s with files := { s.files with checkpoint := none } })

def exec : (o : Op) → Choice → State → Option (Ans o × State)
  | .call c, .call ch, s => store (fun _ => act c) ch s
  | .draw, .drawn d, s => some (d, s)
  | _, _, _ => none

end Octo.Migration
