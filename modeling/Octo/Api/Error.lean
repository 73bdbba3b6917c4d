import Octo.Store.Models

/-!
# API errors

`crates/api/src/error.rs`: the errors a route answers with, and what a store error becomes.
-/

namespace Octo.Api

inductive ApiError
  | badRequest (message : String)
  | unauthorized
  | forbidden (message : String)
  | notFound
  | conflict
  | conflictWith (message : String)
  | gone (message : String)
  | tooManyRequests (message : String)
  | staleSequence (message : String)
  | internal
  | gatewayTimeout (message : String)
  | serviceUnavailable (message : String)
  deriving DecidableEq

/-- `ApiError::code`; it has no arm for `ServiceUnavailable`. -/
def ApiError.code : ApiError → Option String
  | .badRequest _ => some "bad_request"
  | .unauthorized => some "unauthorized"
  | .forbidden _ => some "forbidden"
  | .notFound => some "not_found"
  | .conflict => some "already_exists"
  | .conflictWith _ => some "conflict"
  | .gone _ => some "gone"
  | .tooManyRequests _ => some "too_many_requests"
  | .staleSequence _ => some "stale_sequence"
  | .internal => some "internal_error"
  | .gatewayTimeout _ => some "upstream_timeout"
  | .serviceUnavailable _ => none

def ApiError.parts : ApiError → Nat × String
  | .badRequest m => (400, m)
  | .unauthorized => (401, "unauthorized")
  | .forbidden m => (403, m)
  | .notFound => (404, "not found")
  | .conflict => (409, "already exists")
  | .conflictWith m => (409, m)
  | .gone m => (410, m)
  | .tooManyRequests m => (429, m)
  | .staleSequence m => (400, m)
  | .internal => (500, "internal server error")
  | .gatewayTimeout m => (504, m)
  | .serviceUnavailable m => (503, m)

def ApiError.ofStore : StoreError → ApiError
  | .conflict => .conflict
  | .notFound => .notFound
  | .walletArchived => .forbidden "wallet is archived"
  | .invalidMemoId => .badRequest "memo id must be nonnegative"
  | .budgetExceeded => .tooManyRequests "daily sponsorship budget exceeded"
  | .duplicateCustomerRef => .conflictWith "customer_ref already in use for this wallet"
  | _ => .internal

def fromStore {α : Type} : Except StoreError α → Except ApiError α :=
  Except.mapError .ofStore

end Octo.Api
