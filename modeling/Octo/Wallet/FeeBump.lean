import Mathlib.Data.List.TakeWhile
import Octo.Wallet.KnownEnvelope
import Octo.Wallet.Signer

/-!
# The envelope of a fee-bump

`sign_fee_bump` and `compute_inner_tx_hash` (`crates/wallet-core/src/signer.rs`) in full: the
signature payloads, their hashes, the decorated signature and the outer envelope.  A transaction's
body is never looked into, so it is any type `Tx`, and so are a v0 envelope and a digest.  What the
crates do is the parameter `Stellar`, and what is assumed of them is `Stellar.Ideal`: XDR that was
written reads back, payloads are written injectively, SHA-256 does not collide, and a signature
verifies for the digest it was made for and for no other.
-/

namespace Octo

open Crypto List

def StellarNetwork.passphrase : StellarNetwork → String
  | .mainnet => "Public Global Stellar Network ; September 2015"
  | .testnet => "Test SDF Network ; September 2015"
  | .standalone => "Standalone Network ; February 2017"

theorem StellarNetwork.passphrase_inj {n n' : StellarNetwork}
    (h : utf8 n.passphrase = utf8 n'.passphrase) : n = n' := by
  revert h
  cases n <;> cases n' <;> decide

def toBase64 (bytes : Bytes) : String := String.ofList (base64Chars (bytes.map (·.toNat)))

def ofBase64 (text : List Char) : Option Bytes := (base64Bytes text).map (List.map UInt8.ofNat)

theorem ofBase64_toBase64 (bytes : Bytes) : ofBase64 (toBase64 bytes).toList = some bytes := by
  have hbytes : ∀ n ∈ bytes.map (·.toNat), n < 256 := by
    intro n hn
    obtain ⟨b, -, rfl⟩ := mem_map.mp hn
    exact b.toNat_lt
  rw [ofBase64, toBase64, String.toList_ofList, base64Bytes_base64Chars hbytes, Option.map_some,
    map_map]
  have hid : (UInt8.ofNat ∘ UInt8.toNat) = id := funext (fun b => UInt8.ofNat_toNat)
  exact congrArg some (by rw [show (fun b : UInt8 => b.toNat) = UInt8.toNat from rfl, hid, map_id])

theorem trim_toBase64 (bytes : Bytes) : trim (toBase64 bytes).toList = (toBase64 bytes).toList := by
  rw [toBase64, String.toList_ofList]
  exact trim_of_visible (base64Chars_visible _)

variable {before after : List Char}

namespace FeeBump

/-! ### The XDR types -/

structure DecoratedSignature where
  hint : Bytes
  signature : Bytes
  hint_length : hint.length = 4
  deriving DecidableEq

structure V1Envelope (Tx : Type) where
  tx : Tx
  signatures : List DecoratedSignature
  deriving DecidableEq

/-- `FeeBumpTransaction`, whose inner transaction is always a `Tx` and whose extension is always
`V0`. -/
structure FeeBumpTransaction (Tx : Type) where
  feeSource : MuxedAccount
  fee : Int
  innerTx : V1Envelope Tx
  deriving DecidableEq

structure FeeBumpTransactionEnvelope (Tx : Type) where
  tx : FeeBumpTransaction Tx
  signatures : List DecoratedSignature
  deriving DecidableEq

inductive Envelope (V0 Tx : Type)
  | txV0 (v0 : V0)
  | tx (v1 : V1Envelope Tx)
  | txFeeBump (feeBump : FeeBumpTransactionEnvelope Tx)
  deriving DecidableEq

/-- `TransactionSignaturePayloadTaggedTransaction`. -/
inductive TaggedTransaction (Tx : Type)
  | tx (tx : Tx)
  | txFeeBump (feeBump : FeeBumpTransaction Tx)
  deriving DecidableEq

structure SignaturePayload (D Tx : Type) where
  networkId : D
  taggedTransaction : TaggedTransaction Tx
  deriving DecidableEq

inductive WalletError
  | invalidAmount
  | invalidXdr
  | seedDecryption
  | invalidSeedLength
  | invalidDerivationPath
  | signing
  deriving DecidableEq

def okOr {α : Type} (e : WalletError) : Option α → Except WalletError α
  | some a => .ok a
  | none => .error e

theorem okOr_eq_ok {α : Type} {e : WalletError} {o : Option α} {a : α} :
    okOr e o = .ok a ↔ o = some a := by
  cases o <;> simp [okOr]

theorem bind_eq_ok {α β : Type} {r : Except WalletError α} {f : α → Except WalletError β} {b : β} :
    r >>= f = .ok b ↔ ∃ a, r = .ok a ∧ f a = .ok b := by
  cases r with
  | error | ok => simp [bind, Except.bind]

/-! ### The crates -/

/-- `TransactionEnvelope::from_xdr` and `xdr_bytes`, `xdr_bytes` of a signature payload, SHA-256,
ed25519, SLIP-10 and the `G...` form of a key. -/
structure Stellar (V0 Tx D : Type) where
  fromXdr : Bytes → Option (Envelope V0 Tx)
  xdrBytes : Envelope V0 Tx → Option Bytes
  payloadBytes : SignaturePayload D Tx → Option Bytes
  sha256 : Bytes → D
  publicKey : (secret : Bytes) → Ed25519
  sign : (secret : Bytes) → D → Bytes
  verify : Ed25519 → D → (signature : Bytes) → Bool
  derivePrivateKey : (seed : Bytes) → (index : Nat) → Bytes
  publicKeyToString : Key → String

variable {V0 Tx D : Type}

structure Stellar.Ideal (K : Stellar V0 Tx D) : Prop where
  fromXdr_xdrBytes : ∀ {e bytes}, K.xdrBytes e = some bytes → K.fromXdr bytes = some e
  payloadBytes_inj : ∀ {p p' bytes}, K.payloadBytes p = some bytes →
    K.payloadBytes p' = some bytes → p = p'
  sha256_inj : ∀ {bytes bytes'}, K.sha256 bytes = K.sha256 bytes' → bytes = bytes'
  verify_sign : ∀ {secret m m'}, K.verify (K.publicKey secret) m (K.sign secret m') = true ↔ m = m'

/-! ### The functions -/

def hardened : Nat := 2 ^ 31

structure SignedPayment where
  envelopeXdr : String
  sourceAccount : String
  deriving DecidableEq

namespace Stellar

variable (K : Stellar V0 Tx D) (A : Aead)

def decodeEnvelopeStrict (b64 : String) : Except WalletError (Envelope V0 Tx) := do
  let raw ← okOr .invalidXdr (ofBase64 (trim b64.toList))
  let env ← okOr .invalidXdr (K.fromXdr raw)
  let encoded ← okOr .invalidXdr (K.xdrBytes env)
  if encoded.length ≠ raw.length then .error .invalidXdr else .ok env

def parseInnerV1 (innerXdr : String) : Except WalletError (V1Envelope Tx) := do
  match ← K.decodeEnvelopeStrict innerXdr with
  | .tx v1 => .ok v1
  | _ => .error .invalidXdr

def networkId (network : StellarNetwork) : D := K.sha256 (utf8 network.passphrase)

def computeInnerTxHash (innerXdr : String) (network : StellarNetwork) : Except WalletError D := do
  let v1 ← K.parseInnerV1 innerXdr
  let payloadXdr ← okOr .signing (K.payloadBytes ⟨K.networkId network, .tx v1.tx⟩)
  .ok (K.sha256 payloadXdr)

def deriveEd25519Secret (seed : Bytes) (index : Nat) : Except WalletError Bytes :=
  if seed.length ≠ bip39SeedLen then .error .invalidSeedLength
  else if hardened ≤ index then .error .invalidDerivationPath
  else .ok (K.derivePrivateKey seed index)

def derivedSecretFromSealed (masterKey : Bytes) (s : SealedSeed) (network : StellarNetwork)
    (accountIndex : Nat) : Except WalletError Bytes := do
  let seed ← okOr .seedDecryption (openSeed A masterKey s network.cryptoContext).toOption
  K.deriveEd25519Secret seed accountIndex

/-- `SignatureHint`: the last four bytes of the key. -/
def decorate (key : Ed25519) (signature : Bytes) : DecoratedSignature where
  hint := key.bytes.drop 28
  signature := signature
  hint_length := by rw [List.length_drop, key.length_eq]

/-- The part of `sign_fee_bump` after the key is derived. -/
def signedEnvelope (network : StellarNetwork) (secret : Bytes) (innerV1 : V1Envelope Tx)
    (maxBaseFeeStroops : Int) : Except WalletError String := do
  let feeBumpTx : FeeBumpTransaction Tx :=
    ⟨.ed25519 (K.publicKey secret), maxBaseFeeStroops, innerV1⟩
  let payloadXdr ← okOr .signing (K.payloadBytes ⟨K.networkId network, .txFeeBump feeBumpTx⟩)
  let decorated := decorate (K.publicKey secret) (K.sign secret (K.sha256 payloadXdr))
  let envelope ← okOr .signing (K.xdrBytes (.txFeeBump ⟨feeBumpTx, [decorated]⟩))
  .ok (toBase64 envelope)

def signFeeBump (masterKey : Bytes) (s : SealedSeed) (network : StellarNetwork) (accountIndex : Nat)
    (innerXdr : String) (maxBaseFeeStroops : Int) : Except WalletError SignedPayment :=
  if maxBaseFeeStroops < minBaseFee then .error .invalidAmount
  else do
    let innerV1 ← K.parseInnerV1 innerXdr
    let secret ← K.derivedSecretFromSealed A masterKey s network accountIndex
    let envelopeXdr ← K.signedEnvelope network secret innerV1 maxBaseFeeStroops
    .ok ⟨envelopeXdr, K.publicKeyToString (K.publicKey secret).bytes⟩

end Stellar

/-! ### What is signed -/

variable {K : Stellar V0 Tx D} {A : Aead} {masterKey : Bytes} {s : SealedSeed}
  {network : StellarNetwork} {accountIndex : Nat} {innerXdr : String} {fee : Int} {text : String}
  {inner : V1Envelope Tx} {secret : Bytes}

/-- The outer envelope carries the inner one for this fee, in the name of the secret's account, and
is signed by that account once, for this network and this fee-bump and for nothing else. -/
structure Carries (K : Stellar V0 Tx D) (network : StellarNetwork) (secret : Bytes)
    (inner : V1Envelope Tx) (fee : Int) (outer : FeeBumpTransactionEnvelope Tx) : Prop where
  innerTx : outer.tx.innerTx = inner
  fee : outer.tx.fee = fee
  feeSource : outer.tx.feeSource = .ed25519 (K.publicKey secret)
  signed : ∃ sig payload, outer.signatures = [sig] ∧ sig.hint = (K.publicKey secret).bytes.drop 28 ∧
    K.payloadBytes ⟨K.networkId network, .txFeeBump outer.tx⟩ = some payload ∧
    K.verify (K.publicKey secret) (K.sha256 payload) sig.signature = true
  /-- The signature is for no other network or transaction. -/
  only : ∀ sig ∈ outer.signatures, ∀ network' tagged payload,
    K.payloadBytes ⟨K.networkId network', tagged⟩ = some payload →
    K.verify (K.publicKey secret) (K.sha256 payload) sig.signature = true →
    network' = network ∧ tagged = .txFeeBump outer.tx

open Stellar

section

variable (hK : K.Ideal)

include hK

theorem decodeEnvelopeStrict_toBase64 {e : Envelope V0 Tx} {bytes : Bytes}
    (h : K.xdrBytes e = some bytes) : K.decodeEnvelopeStrict (toBase64 bytes) = .ok e := by
  rw [decodeEnvelopeStrict, trim_toBase64, ofBase64_toBase64]
  show (okOr .invalidXdr (K.fromXdr bytes) >>= _) = _
  rw [hK.fromXdr_xdrBytes h]
  show (okOr .invalidXdr (K.xdrBytes e) >>= _) = _
  rw [h]
  exact if_neg (not_not.mpr rfl)

theorem networkId_inj {network network' : StellarNetwork}
    (h : K.networkId network = K.networkId network') : network = network' :=
  StellarNetwork.passphrase_inj (hK.sha256_inj h)

/-- **What `sign_fee_bump` signs carries the inner envelope.** -/
theorem carries_of_signedEnvelope {xdr : String}
    (h : K.signedEnvelope network secret inner fee = .ok xdr) :
    ∃ outer, K.decodeEnvelopeStrict xdr = .ok (.txFeeBump outer) ∧
    Carries K network secret inner fee outer := by
  obtain ⟨payload, hpayload, h⟩ := bind_eq_ok.mp h
  obtain ⟨_, hbytes, h⟩ := bind_eq_ok.mp h
  obtain rfl := Except.ok.inj h
  rw [okOr_eq_ok] at hpayload hbytes
  refine ⟨_, decodeEnvelopeStrict_toBase64 hK hbytes, rfl, rfl, rfl, ?_, ?_⟩
  · exact ⟨_, payload, rfl, rfl, hpayload, hK.verify_sign.mpr rfl⟩
  · intro sig hsig network' tagged payload' hpayload' hverify
    obtain rfl := mem_singleton.mp hsig
    have hsame : payload' = payload := hK.sha256_inj (hK.verify_sign.mp hverify)
    rw [hsame] at hpayload'
    obtain ⟨hnetwork, htagged⟩ := SignaturePayload.mk.inj (hK.payloadBytes_inj hpayload' hpayload)
    exact ⟨networkId_inj hK hnetwork, htagged⟩

end

section

variable {α : Type} [DecidableEq α]

end

def DecoratedSignature.bytes (d : DecoratedSignature) : Bytes := d.hint ++ d.signature

def splitSignature (bytes : Bytes) : DecoratedSignature where
  hint := (bytes ++ [0, 0, 0, 0]).take 4
  signature := bytes.drop 4
  hint_length := by simp

theorem splitSignature_bytes (d : DecoratedSignature) : splitSignature d.bytes = d := by
  cases d with
  | mk hint signature hlength =>
    simp only [splitSignature, DecoratedSignature.bytes, DecoratedSignature.mk.injEq]
    constructor
    · rw [append_assoc, ← hlength, take_left]
    · rw [← hlength, drop_left]

def view (v1 : V1Envelope TransactionV1) : TransactionV1Envelope :=
  ⟨v1.tx, v1.signatures.map (·.bytes)⟩

def ofView (v1 : TransactionV1Envelope) : V1Envelope TransactionV1 :=
  ⟨v1.tx, v1.signatures.map splitSignature⟩

theorem ofView_view (v1 : V1Envelope TransactionV1) : ofView (view v1) = v1 := by
  have hid : (splitSignature ∘ fun d => d.bytes) = id := funext splitSignature_bytes
  rw [ofView, view, map_map, hid, map_id]

def viewEnvelope : Envelope V0 TransactionV1 → TransactionEnvelope
  | .txV0 _ => .txV0
  | .tx v1 => .tx (view v1)
  | .txFeeBump _ => .txFeeBump

def Stellar.xdr (K : Stellar V0 TransactionV1 Bytes) (network : StellarNetwork)
    (lossy : Bytes → List Char) : Xdr where
  fromXdrBase64 text := ((ofBase64 text.toList).bind K.fromXdr).map viewEnvelope
  base64Decode := ofBase64
  fromXdr raw := (K.fromXdr raw).map viewEnvelope
  xdrBytes
    | .tx v1 => K.xdrBytes (.tx (ofView v1))
    | _ => none
  payloadHash tx := (K.payloadBytes ⟨K.networkId network, .tx tx⟩).map K.sha256
  fromUtf8Lossy := lossy

def Stellar.feeOf (K : Stellar V0 Tx D) (xdr : String) : Option Int :=
  match K.decodeEnvelopeStrict xdr with
  | .ok (.txFeeBump outer) => some outer.tx.fee
  | _ => none

theorem feeOf_signedEnvelope (hK : K.Ideal) {xdr : String}
    (h : K.signedEnvelope network secret inner fee = .ok xdr) : K.feeOf xdr = some fee := by
  obtain ⟨_, hdecode, hcarries⟩ := carries_of_signedEnvelope hK h
  rw [feeOf, hdecode]
  exact congrArg some hcarries.fee

def Stellar.feeBumps (K : Stellar V0 TransactionV1 Bytes) (hK : K.Ideal)
    (network : StellarNetwork) : FeeBumps where
  deriveEd25519Secret seed index :=
    if hardened ≤ index then none else some (K.derivePrivateKey seed index)
  envelope secret v1 fee := (K.signedEnvelope network secret (ofView v1) fee).toOption
  feeOf := K.feeOf
  feeOf_envelope := by
    intro secret v1 fee xdr h
    cases hsigned : K.signedEnvelope network secret (ofView v1) fee with
    | error =>
      rw [hsigned] at h
      cases h
    | ok =>
      rw [hsigned] at h
      obtain rfl := Option.some.inj h
      exact feeOf_signedEnvelope hK hsigned

section

variable {K : Stellar V0 TransactionV1 Bytes} {lossy : Bytes → List Char}
  {v : TransactionV1Envelope}

theorem parseInnerV1_eq_ok {v1 : V1Envelope TransactionV1} :
    K.parseInnerV1 text = .ok v1 ↔ ∃ raw encoded, ofBase64 (trim text.toList) = some raw ∧
      K.fromXdr raw = some (.tx v1) ∧ K.xdrBytes (.tx v1) = some encoded ∧
      encoded.length = raw.length := by
  simp only [parseInnerV1, decodeEnvelopeStrict, bind_eq_ok, okOr_eq_ok]
  constructor
  · rintro ⟨env, ⟨raw, hraw, env', henv, encoded, hencoded, hlen⟩, hv1⟩
    split at hlen
    · cases hlen
    · rename_i heq
      obtain rfl := Except.ok.inj hlen
      cases env' with
      | tx =>
        obtain rfl := Except.ok.inj hv1
        exact ⟨raw, encoded, hraw, henv, hencoded, not_not.mp heq⟩
      | txV0 v0 => cases hv1
      | txFeeBump => cases hv1
  · rintro ⟨raw, encoded, hraw, henv, hencoded, hlen⟩
    exact ⟨.tx v1, ⟨raw, hraw, .tx v1, henv, encoded, hencoded, if_neg (not_not.mpr hlen)⟩, rfl⟩

theorem xdr_parseInnerV1_eq_some {x : Xdr} :
    x.parseInnerV1 text = some v ↔ ∃ raw encoded, x.base64Decode (trim text.toList) = some raw ∧
      x.fromXdr raw = some (.tx v) ∧ x.xdrBytes (.tx v) = some encoded ∧
      encoded.length = raw.length := by
  simp only [Xdr.parseInnerV1, Xdr.decodeEnvelopeStrict, Option.bind_eq_bind,
    Option.bind_eq_some_iff]
  constructor
  · rintro ⟨env, ⟨raw, hraw, env', henv, encoded, hencoded, hlen⟩, hv⟩
    split at hlen
    · rename_i heq
      obtain rfl := Option.some.inj hlen
      cases env' with
      | tx =>
        obtain rfl := Option.some.inj hv
        exact ⟨raw, encoded, hraw, henv, hencoded, heq⟩
      | txV0 => cases hv
      | txFeeBump => cases hv
    · cases hlen
  · rintro ⟨raw, encoded, hraw, henv, hencoded, hlen⟩
    exact ⟨.tx v, ⟨raw, hraw, .tx v, henv, encoded, hencoded, if_pos hlen⟩, rfl⟩

theorem viewEnvelope_eq_tx {env : Envelope V0 TransactionV1}
    (h : viewEnvelope env = .tx v) : ∃ v1, env = .tx v1 ∧ view v1 = v := by
  cases env with
  | tx v1 => exact ⟨v1, rfl, TransactionEnvelope.tx.inj h⟩
  | txV0 v0 => cases h
  | txFeeBump => cases h

theorem toOption_eq_some {α : Type} {r : Except WalletError α} {a : α} :
    r.toOption = some a ↔ r = .ok a := by
  cases r <;> simp [Except.toOption]

theorem parseInnerV1_eq (text : String) :
    (K.xdr network lossy).parseInnerV1 text = (K.parseInnerV1 text).toOption.map view := by
  refine Option.ext (fun v => ?_)
  rw [xdr_parseInnerV1_eq_some, Option.map_eq_some_iff]
  constructor
  · rintro ⟨raw, encoded, hraw, henv, hencoded, hlen⟩
    obtain ⟨env, hfrom, hview⟩ := Option.map_eq_some_iff.mp henv
    obtain ⟨v1, rfl, rfl⟩ := viewEnvelope_eq_tx hview
    have hbytes : K.xdrBytes (.tx (ofView (view v1))) = some encoded := hencoded
    rw [ofView_view] at hbytes
    exact ⟨v1, toOption_eq_some.mpr
      (parseInnerV1_eq_ok.mpr ⟨raw, encoded, hraw, hfrom, hbytes, hlen⟩), rfl⟩
  · rintro ⟨v1, hv1, rfl⟩
    obtain ⟨raw, encoded, hraw, hfrom, hbytes, hlen⟩ :=
      parseInnerV1_eq_ok.mp (toOption_eq_some.mp hv1)
    refine ⟨raw, encoded, hraw, Option.map_eq_some_iff.mpr ⟨_, hfrom, rfl⟩, ?_, hlen⟩
    show K.xdrBytes (.tx (ofView (view v1))) = _
    rw [ofView_view]
    exact hbytes

theorem computeInnerTxHash_eq (text : String) :
    (K.xdr network lossy).computeInnerTxHash text =
      (K.computeInnerTxHash text network).toOption := by
  rw [Xdr.computeInnerTxHash, parseInnerV1_eq, computeInnerTxHash]
  cases K.parseInnerV1 text with
  | error => rfl
  | ok v1 =>
    show (K.payloadBytes ⟨K.networkId network, .tx v1.tx⟩).map K.sha256 =
      (okOr .signing (K.payloadBytes ⟨K.networkId network, .tx v1.tx⟩) >>= fun p => .ok
        (K.sha256 p)).toOption
    cases K.payloadBytes ⟨K.networkId network, .tx v1.tx⟩ <;> rfl

theorem derivedSecretFromSealed_eq (hK : K.Ideal) :
    Octo.derivedSecretFromSealed A (K.feeBumps hK network) masterKey s network accountIndex =
      (K.derivedSecretFromSealed A masterKey s network accountIndex).toOption := by
  rw [Octo.derivedSecretFromSealed, Stellar.derivedSecretFromSealed]
  cases (openSeed A masterKey s network.cryptoContext).toOption with
  | none => rfl
  | some seed =>
    show (if seed.length ≠ bip39SeedLen then none else if hardened ≤ accountIndex then none
      else some _) = (K.deriveEd25519Secret seed accountIndex).toOption
    rw [deriveEd25519Secret]
    split
    · rfl
    · split <;> rfl

/-- On the types of the other modules this is the function used there. -/
theorem signFeeBump_eq (hK : K.Ideal) :
    Octo.signFeeBump A (K.xdr network lossy) (K.feeBumps hK network) masterKey s network
      accountIndex innerXdr fee =
      (K.signFeeBump A masterKey s network accountIndex innerXdr fee).toOption.map
        (·.envelopeXdr) := by
  rw [Octo.signFeeBump, Stellar.signFeeBump]
  split
  · rfl
  rw [parseInnerV1_eq, derivedSecretFromSealed_eq]
  cases K.parseInnerV1 innerXdr with
  | error => rfl
  | ok v1 =>
    cases K.derivedSecretFromSealed A masterKey s network accountIndex with
    | error => rfl
    | ok secret =>
      show (K.signedEnvelope network secret (ofView (view v1)) fee).toOption =
        ((K.signedEnvelope network secret v1 fee >>= fun xdr => .ok
          (⟨xdr, _⟩ : SignedPayment)).toOption).map (·.envelopeXdr)
      rw [ofView_view]
      cases K.signedEnvelope network secret v1 fee <;> rfl

end

end FeeBump

end Octo
