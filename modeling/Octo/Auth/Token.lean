import Octo.Store.Models

/-!
# Session tokens

`issue_token` and `verify_token` of `crates/api/src/auth.rs`.  A `Token` is a JWT that is signed
with HS256: its text is determined by what it says, and nobody but the server can make one.  So a
signature is good if the server has issued the token.
-/

namespace Octo.Auth

def tokenTtlSecs : Int := 7 * 24 * 60 * 60

def microsPerSec : Nat := 1000000

def nowSecs (now : Time) : Int := (now / microsPerSec : Nat)

def timestamp (secs : Int) : Time := secs.toNat * microsPerSec

structure Claims where
  sub : Uuid
  exp : Int
  jti : Uuid
  epoch : Int
  iss : String
  aud : String
  sid : Option Uuid
  deriving DecidableEq

structure Token where
  kid : String
  claims : Claims
  deriving DecidableEq

/-- `JWT_SECRET`, `JWT_SECRET_PREVIOUS` (by their ids), `JWT_ISSUER` and `JWT_AUDIENCE`. -/
structure JwtConfig where
  keyId : String
  previousKeyId : Option String
  issuer : String
  audience : String

def JwtConfig.issueToken (cfg : JwtConfig) (now : Time) (jti userId : Uuid) (sessionEpoch : Int)
    (sessionId : Option Uuid) : Token :=
  ⟨cfg.keyId, ⟨userId, nowSecs now + tokenTtlSecs, jti, sessionEpoch, cfg.issuer, cfg.audience,
    sessionId⟩⟩

def JwtConfig.verifyToken (cfg : JwtConfig) (issued : List Token) (now : Time) (token : Token) :
    Option Claims :=
  if token.kid ≠ cfg.keyId ∧ some token.kid ≠ cfg.previousKeyId then none
  else if token ∉ issued then none
  else if token.claims.exp < nowSecs now ∨ token.claims.iss ≠ cfg.issuer ∨
    token.claims.aud ≠ cfg.audience then none
  else some token.claims

structure JwtConfig.Trusts (cfg : JwtConfig) (issued : List Token) (token : Token) : Prop where
  kid : token.kid = cfg.keyId ∨ some token.kid = cfg.previousKeyId
  issued : token ∈ issued
  iss : token.claims.iss = cfg.issuer
  aud : token.claims.aud = cfg.audience

instance (cfg : JwtConfig) (issued : List Token) (token : Token) :
    Decidable (cfg.Trusts issued token) :=
  decidable_of_iff ((token.kid = cfg.keyId ∨ some token.kid = cfg.previousKeyId) ∧ token ∈ issued ∧
    token.claims.iss = cfg.issuer ∧ token.claims.aud = cfg.audience)
    ⟨fun ⟨hkid, hin, hiss, haud⟩ => ⟨hkid, hin, hiss, haud⟩,
      fun h => ⟨h.kid, h.issued, h.iss, h.aud⟩⟩

/-- **A token is verified through the whole second of its `exp` claim.** -/
theorem verifyToken_eq_some {cfg : JwtConfig} {issued : List Token} {now : Time} {token : Token}
    {claims : Claims} : cfg.verifyToken issued now token = some claims ↔
      claims = token.claims ∧ cfg.Trusts issued token ∧ nowSecs now ≤ token.claims.exp := by
  unfold JwtConfig.verifyToken
  constructor
  · intro h
    split at h
    · cases h
    split at h
    · cases h
    split at h
    · cases h
    rename_i hkid hin hrest
    simp only [not_or, not_and_or, not_not, Int.not_lt] at hkid hin hrest
    obtain ⟨hexp, hiss, haud⟩ := hrest
    exact ⟨(Option.some.inj h).symm, ⟨hkid, hin, hiss, haud⟩, hexp⟩
  · rintro ⟨rfl, ⟨hkid, hin, hiss, haud⟩, hexp⟩
    have hkid' : ¬(token.kid ≠ cfg.keyId ∧ some token.kid ≠ cfg.previousKeyId) := by
      rw [not_and_or, not_not, not_not]
      exact hkid
    rw [if_neg hkid', if_neg (not_not.mpr hin), if_neg]
    rw [not_or, not_or, not_not, not_not, Int.not_lt]
    exact ⟨hexp, hiss, haud⟩

end Octo.Auth
