import Octo.Api.Horizon
import Octo.Store.Call
import Octo.Store.Sponsorship
import Octo.Wallet.Signer

/-!
# The calls of the sponsor endpoint

The state the sponsor endpoint and the stale-pending sweep work on, and the effect of each of their
calls.  Horizon may answer any request in any way.
-/

namespace Octo.Sponsor

open Conc Octo.Api Crypto Resilience

structure State where
  db : SponsorDb
  breaker : Breaker

/-- Everything outside the repository, and the configuration of the server. -/
structure Outside where
  strkey : Strkey
  xdr : Xdr
  client : HorizonClient
  aead : Aead
  feeBumps : FeeBumps
  keys : MasterKeys
  network : StellarNetwork

inductive Op
  | horizon (c : HttpCall)
  | getWallet (walletId : Uuid)
  | getGasSponsorshipConfig (walletId : Uuid)
  | sponsorshipProjection (walletId : Uuid) (innerTxHash : String)
  | begin
  | advisoryXactLock (tx key : Nat)
  | reserveSnapshot (tx : Nat) (walletId : Uuid)
  | reserveInsert (tx : Nat) (walletId : Uuid) (innerTxHash : String) (feeStroops : Int)
      (dailyBudget : Option Int)
  | commit (tx : Nat)
  | rollback (tx : Nat)
  | finalize (id : Uuid) (status : TxStatus) (feeBumpTxHash error : Option String)
  | reconcileStale (olderThan : Nat)

abbrev Ans : Op → Type
  | .horizon c => HttpCall.Ans c
  | .getWallet _ => Except StoreError SealedWallet
  | .getGasSponsorshipConfig _ => Except StoreError (Option GasSponsorshipConfig)
  | .sponsorshipProjection .. => Except StoreError (Int × Bool)
  | .begin => Except StoreError Nat
  | .advisoryXactLock .. => Except StoreError Unit
  | .reserveSnapshot .. => Except StoreError Unit
  | .reserveInsert .. => Except StoreError (Option SponsoredTransaction)
  | .commit _ => Except StoreError Unit
  | .rollback _ => Except StoreError Unit
  | .finalize .. => Except StoreError Unit
  | .reconcileStale _ => Except StoreError Nat

abbrev ask (o : Op) : Prog Op Ans (Ans o) := .perform o

def horizon {α : Type} (p : HttpM α) : Prog Op Ans α := p.embed Op.horizon (fun _ a => a)

inductive Choice
  | store (ch : Octo.Choice)
  | http (o : HttpOutcome)

def execHttp : (c : HttpCall) → Choice → State → Option (HttpCall.Ans c × State)
  | .check, _, s =>
    let r := s.breaker.check s.db.now
    some (r.1, { s with breaker := r.2 })
  | .onSuccess, _, s => some ((), { s with breaker := s.breaker.onSuccess })
  | .onFailure, _, s => some ((), { s with breaker := s.breaker.onFailure s.db.now })
  | .sleep _, _, s => some ((), s)
  | .request _, .http o, s => some (o, s)
  | .request _, .store _, _ => none

def onDb {α : Type} (stmt : SponsorDb → Option (Except StoreError α × SponsorDb)) (s : State) :
    Option (Except StoreError α × State) :=
  (stmt s.db).map (fun r => (r.1, { s with db := r.2 }))

def statement : (o : Op) → SponsorDb → Option (Ans o × SponsorDb)
  | .horizon _, _ => none
  | .getWallet w, db => some (db.getWallet w, db)
  | .getGasSponsorshipConfig w, db => some (.ok (db.getGasSponsorshipConfig w), db)
  | .sponsorshipProjection w hash, db => some (db.sponsorshipProjection w hash, db)
  | .begin, db => some (.ok db.begin.1, db.begin.2)
  | .advisoryXactLock tx key, db => db.advisoryXactLock tx key
  | .reserveSnapshot tx w, db => some (db.reserveSnapshot tx w)
  | .reserveInsert tx w hash fee budget, db => db.reserveInsert tx w hash fee budget
  | .commit tx, db => some (db.commit tx)
  | .rollback tx, db => some (.ok (), db.endSession tx)
  | .finalize id status hash error, db => some (.ok (), db.finalize id status hash error)
  | .reconcileStale olderThan, db =>
    some (.ok (db.reconcileStale olderThan).1, (db.reconcileStale olderThan).2)

/-- A store call: its statement is served, refused, or served with the answer lost. -/
def execStore {α : Type} (stmt : SponsorDb → Option (Except StoreError α × SponsorDb)) :
    Choice → State → Option (Except StoreError α × State)
  | .store ch, s => storeWait (onDb stmt) ch s
  | .http _, _ => none

def exec : (o : Op) → Choice → State → Option (Ans o × State)
  | .horizon c => execHttp c
  | .getWallet w => execStore (statement (.getWallet w))
  | .getGasSponsorshipConfig w => execStore (statement (.getGasSponsorshipConfig w))
  | .sponsorshipProjection w hash => execStore (statement (.sponsorshipProjection w hash))
  | .begin => execStore (statement .begin)
  | .advisoryXactLock tx key => execStore (statement (.advisoryXactLock tx key))
  | .reserveSnapshot tx w => execStore (statement (.reserveSnapshot tx w))
  | .reserveInsert tx w hash fee budget =>
    execStore (statement (.reserveInsert tx w hash fee budget))
  | .commit tx => execStore (statement (.commit tx))
  | .rollback tx => execStore (statement (.rollback tx))
  | .finalize id status hash error => execStore (statement (.finalize id status hash error))
  | .reconcileStale olderThan => execStore (statement (.reconcileStale olderThan))

end Octo.Sponsor
