import Octo.Conc.Embed
import Octo.Ingest.System

/-!
# Idempotency keys

`crates/store/src/idempotency.rs` with migration 0034, and `create_payment_link` of
`crates/api/src/routes/payment_links.rs` from the point where the caller is authorised.  What
`create_link` does is `PaymentLinks.createLink`, with its calls among the calls of this system.

A call takes effect and is answered, or it fails and has no effect.  The last call of a request
sends its response.
-/

namespace Octo.Idempotency

open Conc Octo.Api

structure KeyId where
  walletId : Uuid
  scope : String
  key : String
  deriving DecidableEq

structure KeyRow where
  requestHash : String
  statusCode : Option Nat
  response : Option PaymentLink
  createdAt : Time
  expiresAt : Time
  deriving DecidableEq

abbrev KeyTable := KeyId → Option KeyRow

structure State where
  keys : KeyTable
  db : Db

/-- `IDEMPOTENCY_KEY_TTL_SECS`, in microseconds. -/
def keyTtl : Nat := 24 * 60 * 60 * 1000000

def KeyTable.set (t : KeyTable) (k : KeyId) (r : Option KeyRow) : KeyTable :=
  fun k' => if k' = k then r else t k'

/-- The upsert of `claim_idempotency_key`: whether the key was claimed. -/
def KeyTable.claim (t : KeyTable) (now : Time) (k : KeyId) (requestHash : String) :
    Bool × KeyTable :=
  if (t k).all (fun r => decide (r.expiresAt ≤ now)) then
    (true, t.set k (some ⟨requestHash, none, none, now, now + keyTtl⟩))
  else (false, t)

/-- A key is completed once. -/
def KeyTable.complete (t : KeyTable) (k : KeyId) (statusCode : Nat) (response : PaymentLink) :
    KeyTable :=
  t.set k ((t k).map (fun r =>
    if r.response.isNone then { r with statusCode := some statusCode, response := some response }
      else r))

/-- A completed key is never released. -/
def KeyTable.release (t : KeyTable) (k : KeyId) : KeyTable :=
  t.set k ((t k).filter (fun r => r.response.isSome))

def KeyTable.purge (t : KeyTable) (now : Time) : KeyTable :=
  fun k => (t k).filter (fun r => decide (now < r.expiresAt))

inductive Response
  | created (link : PaymentLink)
  | replayed (statusCode : Nat) (link : PaymentLink)
  | error (e : ApiError)
  deriving DecidableEq

inductive Op
  | claim (k : KeyId) (requestHash : String)
  | select (k : KeyId)
  | complete (k : KeyId) (statusCode : Nat) (response : PaymentLink)
  | release (k : KeyId)
  | purge
  | respond (r : Response)
  | db (o : Ingest.Op)

abbrev Ans : Op → Type
  | .claim .. => Except StoreError Bool
  | .select _ => Except StoreError KeyRow
  | .complete .. => Except StoreError Unit
  | .release _ => Except StoreError Unit
  | .purge => Except StoreError Unit
  | .respond _ => Unit
  | .db o => Ingest.Ans o

def onKeys {α : Type} (stmt : KeyTable → Time → Except StoreError α × KeyTable) (ch : Choice)
    (s : State) : Option (Except StoreError α × State) :=
  match ch with
  | .served _ => some ((stmt s.keys s.db.now).1, { s with keys := (stmt s.keys s.db.now).2 })
  | .failed => some (.error .database, s)
  | .lost => none

def fetchOne (r : Option KeyRow) : Except StoreError KeyRow :=
  match r with
  | some r => .ok r
  | none => .error .database

def exec (out : Ingest.Outside) : (o : Op) → Choice → State → Option (Ans o × State)
  | .claim k hash, ch, s =>
    onKeys (fun t now => (.ok (t.claim now k hash).1, (t.claim now k hash).2)) ch s
  | .select k, ch, s => onKeys (fun t _ => (fetchOne (t k), t)) ch s
  | .complete k code response, ch, s =>
    onKeys (fun t _ => (.ok (), t.complete k code response)) ch s
  | .release k, ch, s => onKeys (fun t _ => (.ok (), t.release k)) ch s
  | .purge, ch, s => onKeys (fun t now => (.ok (), t.purge now)) ch s
  | .respond _, _, s => some ((), s)
  | .db o, ch, s =>
    if ch = .lost then none else (Ingest.exec out o ch s.db).map
      (fun r => (r.1, { s with db := r.2 }))

/-! ### The route -/

/-- What is outside: what the link routes use, SHA-256 of the body in hex, and the parser of the
body. -/
structure Outside where
  links : Ingest.Outside
  sha256 : String → String
  parseOptional : String → Except ApiError PaymentLinks.CreatePaymentLinkRequest

inductive IdempotencyClaim
  | claimed
  | mismatch
  | replay (statusCode : Nat) (response : PaymentLink)
  | inProgress

/-- One insert decides who creates; the others read the row. -/
def claimIdempotencyKey (k : KeyId) (requestHash : String) :
    ExceptT StoreError (Prog Op Ans) IdempotencyClaim := do
  let claimed ← Prog.tryCall (.claim k requestHash) id
  if claimed then return .claimed
  else do
    let row ← Prog.tryCall (.select k) id
    if row.requestHash ≠ requestHash then return .mismatch
    else
      match row.statusCode, row.response with
      | some code, some response => return .replay code response
      | _, _ => return .inProgress

abbrev LinkM (α : Type) := ExceptT ApiError (Prog Op Ans) α

def createLink (out : Outside) (walletId : Uuid) (body slug : String) : LinkM PaymentLink :=
  match out.parseOptional body with
  | .error e => throw e
  | .ok req => ExceptT.mk ((PaymentLinks.createLink out.links walletId req slug).run.embed Op.db
      (fun _ a => a))

def isAsciiGraphic (c : Char) : Bool := decide (33 ≤ c.toNat) && decide (c.toNat ≤ 126)

def idempotencyKey (header : Option String) : Except ApiError (Option String) :=
  match header with
  | none => .ok none
  | some key =>
    if 1 ≤ key.toList.length ∧ key.toList.length ≤ 255 ∧ key.toList.all isAsciiGraphic
      then .ok (some key)
    else .error (.badRequest "Idempotency-Key must be 1-255 visible ASCII characters")

def createLinkScope : String := "payment_link.create"

def attempt (o : Op) : LinkM Unit := Prog.tryCall o (fun _ => .ok ())

def createAndComplete (out : Outside) (k : KeyId) (body slug : String) : LinkM Response := do
  let created ← ExceptT.lift (createLink out k.walletId body slug).run
  match created with
  | .ok view => do
    attempt (.complete k 201 view)
    return .created view
  | .error e => do
    attempt (.release k)
    throw e

/-- `create_payment_link`; `slug` is the random slug. -/
def createPaymentLink (out : Outside) (walletId : Uuid) (header : Option String)
    (body slug : String) : LinkM Response := do
  let key ← ExceptT.mk (.ret (idempotencyKey header))
  match key with
  | none => do
    let view ← createLink out walletId body slug
    return .created view
  | some key => do
    let k : KeyId := ⟨walletId, createLinkScope, key⟩
    let claim ← ExceptT.mk ((claimIdempotencyKey k (out.sha256 body)).run >>= fun r => .ret
      (fromStore r))
    match claim with
    | .claimed => createAndComplete out k body slug
    | .replay code response => return .replayed code response
    | .mismatch =>
      throw (.conflictWith "Idempotency-Key was already used with a different request body")
    | .inProgress =>
      throw (.conflictWith
        "a request with this Idempotency-Key is still in progress; retry shortly")

def respond (p : LinkM Response) : Prog Op Ans Unit :=
  p.run.bind (fun r =>
    match r with
    | .ok response => .call (.respond response) .ret
    | .error e => .call (.respond (.error e)) .ret)

/-! ### The system -/

inductive Job
  | createPaymentLink (walletId : Uuid) (header : Option String) (body slug : String)
  | purge
  deriving DecidableEq

def code (out : Outside) : Job → Prog Op Ans Unit
  | .createPaymentLink walletId header body slug =>
    respond (createPaymentLink out walletId header body slug)
  | .purge => (attempt .purge).run.bind (fun _ => .ret ())

def env (e : Ingest.Env) (s : State) : Option State :=
  (Ingest.env e s.db).map (fun db => { s with db := db })

def system (out : Outside) : Sys Job Op Ans Choice Ingest.Env State where
  code := code out
  canStart _ _ := true
  exec := exec out.links
  env := env

abbrev Act := Conc.Act Op Ans State
abbrev World := Conc.World Job Op Ans State
abbrev Conf := Conc.Conf Job Op Ans State

end Octo.Idempotency
