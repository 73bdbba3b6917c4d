import Octo.Conc.Prog
import Octo.Migration.Calls

/-!
# The migration tool

`bin/migrate-keys/src/main.rs`: page through the rows that are not in scheme V2, reseal each under
the new key and its account, write the cursor to the checkpoint after every page, and remove the
checkpoint at the end. The counters, which are only logged, are left out.

The loop of `main` has no bound of its own; the model takes one in `fuel`, and a run that is out of
fuel is one that was interrupted there.
-/

namespace Octo.Migration

open Conc Crypto

structure Outside where
  aead : Aead
  oldKey : Bytes
  newKey : Bytes
  fingerprint : String

structure Config where
  batchSize : Nat
  dryRun : Bool
  batchSize_pos : 0 < batchSize
  deriving DecidableEq

inductive MigrateError
  | io (e : StoreError)
  | malformedCheckpoint
  | otherKeyPair
  | invalidAfterId
  | schemeByte
  | fromParts (e : CryptoError)
  | reseal (e : CryptoError)
  | outOfFuel
  deriving DecidableEq

abbrev ToolM (α : Type) := ExceptT MigrateError (Prog Op Ans) α

def call (c : Call) : ToolM c.Val := Prog.tryCall (.call c) (Except.mapError .io)

def check {α : Type} (r : Except MigrateError α) : ToolM α := ExceptT.mk (.ret r)

/-! ### The checkpoint -/

/-- Of repeated lines the last one counts. -/
def lastValues : List Line → Option String × Option (Option Uuid)
  | [] => (none, none)
  | .fingerprint v :: ls => ((lastValues ls).1.or (some v), (lastValues ls).2)
  | .afterId v :: ls => ((lastValues ls).1, (lastValues ls).2.or (some v))
  | .other :: ls => lastValues ls

def parseCheckpoint (fingerprint : String) (contents : List Line) : Except MigrateError Uuid :=
  match lastValues contents with
  | (some f, some v) =>
    if f ≠ fingerprint then .error .otherKeyPair
    else
      match v with
      | some id => .ok id
      | none => .error .invalidAfterId
  | _ => .error .malformedCheckpoint

def readCheckpoint (fingerprint : String) : ToolM (Option Uuid) := do
  let contents ← call .readCheckpoint
  match contents with
  | none => return none
  | some ls => do
    let id ← check (parseCheckpoint fingerprint ls)
    return some id

def checkpointLines (fingerprint : String) (afterId : Uuid) : List Line :=
  [.fingerprint fingerprint, .afterId (some afterId)]

def writeCheckpoint (fingerprint : String) (afterId : Uuid) : ToolM Unit := do
  let inode ← call .createTmp
  call (.writeTmp inode (checkpointLines fingerprint afterId))
  call .renameTmp

/-! ### Rows -/

def sealedOf (ciphertext nonce salt : Bytes) (scheme : Int) : Except MigrateError SealedSeed :=
  match toU8 scheme with
  | none => .error .schemeByte
  | some byte => (SealedSeed.fromPartsWithScheme ciphertext nonce salt byte).mapError .fromParts

/-- One row; a row with a part missing has no seed and is passed over. -/
def migrateRow (out : Outside) (cfg : Config) (w : SealedWallet) : ToolM Unit :=
  match w.sealedCiphertext, w.sealedNonce, w.sealedSalt, w.sealedScheme with
  | some ciphertext, some nonce, some salt, some scheme => do
    let s ← check (sealedOf ciphertext nonce salt scheme)
    let rng ← Prog.tryCall .draw .ok
    let new ← check ((resealWithAccountId out.aead rng out.oldKey out.newKey s (context w)
      (accountId w)).mapError .reseal)
    if cfg.dryRun then return
    else do
      let _ ← call (.resealWallet w.id new.ciphertext new.nonce new.salt scheme)
      return
  | _, _, _, _ => return

def migrateRows (out : Outside) (cfg : Config) : List SealedWallet → ToolM Unit
  | [] => return
  | w :: ws => do
    migrateRow out cfg w
    migrateRows out cfg ws

def migrateLoop (out : Outside) (cfg : Config) : (fuel : Nat) → (afterId : Option Uuid) → ToolM Unit
  | 0, _ => throw .outOfFuel
  | fuel + 1, afterId => do
    let batch ← call (.listWalletsNeedingReseal cfg.batchSize afterId)
    match batch.getLast? with
    | none => return
    | some last => do
      migrateRows out cfg batch
      if cfg.dryRun then migrateLoop out cfg fuel (some last.id)
      else do
        writeCheckpoint out.fingerprint last.id
        migrateLoop out cfg fuel (some last.id)

def migrate (out : Outside) (cfg : Config) (fuel : Nat) : ToolM Unit := do
  let afterId ← readCheckpoint out.fingerprint
  migrateLoop out cfg fuel afterId
  if cfg.dryRun then return
  else call .removeCheckpoint

end Octo.Migration
