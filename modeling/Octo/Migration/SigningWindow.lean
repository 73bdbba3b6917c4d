import Octo.Migration.Completeness
import Octo.Sponsor.Alone

/-!
# Sponsoring during a migration

The endpoint that sponsors a fee reads the wallet's row, rebuilds the sealed seed under the row's
scheme and tries each of the server's keys with `sign_fee_bump`, which opens V1 records only.
-/

namespace Octo.Migration

open Conc Crypto Option List

def signingKey (out : Sponsor.Outside) (w : SealedWallet) : Option Bytes := do
  let ciphertext ← w.sealedCiphertext
  let nonce ← w.sealedNonce
  let salt ← w.sealedSalt
  let scheme ← toU8 (w.sealedScheme.getD 1)
  let s ← (SealedSeed.fromPartsWithScheme ciphertext nonce salt scheme).toOption
  out.keys.openingKeys.findSome?
    (fun key => derivedSecretFromSealed out.aead out.feeBumps key s out.network 0)

variable {out : Sponsor.Outside}

/-! ### What the endpoint signs with -/

theorem findSome?_bind {α β γ : Type} {f : α → Option β} (g : β → Option γ) (l : List α)
    (huniq : ∀ a a' b b', f a = some b → f a' = some b' → b = b') :
    l.findSome? (fun a => (f a).bind g) = (l.findSome? f).bind g := by
  induction l with
  | nil => rfl
  | cons a l ih =>
    rw [findSome?_cons, findSome?_cons]
    cases hf : f a with
    | none => exact ih
    | some b =>
      cases hg : g b with
      | some => simp [hg]
      | none =>
        -- another element gives no other `b`
        simp only [bind_some, hg]
        rw [ih]
        cases hl : l.findSome? f with
        | none => rfl
        | some b' =>
          obtain ⟨a', -, ha'⟩ := exists_of_findSome?_eq_some hl
          rw [← huniq a a' b b' hf ha', bind_some, hg]

theorem derivedSecret_unique (hA : out.aead.Ideal) {s : SealedSeed}
    (key key' secret secret' : Bytes)
    (h : derivedSecretFromSealed out.aead out.feeBumps key s out.network 0 = some secret)
    (h' : derivedSecretFromSealed out.aead out.feeBumps key' s out.network 0 = some secret') :
    secret = secret' := by
  simp only [derivedSecretFromSealed, bind_eq_bind, bind_eq_some_iff] at h h'
  obtain ⟨_, hopen, hsecret⟩ := h
  obtain ⟨_, hopen', hsecret'⟩ := h'
  cases ho : openSeed out.aead key s out.network.cryptoContext with
  | error => rw [ho] at hopen; cases hopen
  | ok =>
    cases ho' : openSeed out.aead key' s out.network.cryptoContext with
    | error => rw [ho'] at hopen'; cases hopen'
    | ok =>
      rw [ho] at hopen
      rw [ho'] at hopen'
      cases hopen
      cases hopen'
      rw [(openSeed_inj hA ho ho').2] at hsecret
      exact some.inj (hsecret.symm.trans hsecret')

theorem findSome?_signFeeBump (hA : out.aead.Ideal) (s : SealedSeed) {innerXdr xdr : String}
    {maxFee : Int} :
    out.keys.openingKeys.findSome? (fun key =>
      signFeeBump out.aead out.xdr out.feeBumps key s out.network 0 innerXdr maxFee) = some xdr ↔
        minBaseFee ≤ maxFee ∧ ∃ v1 secret, out.xdr.parseInnerV1 innerXdr = some v1 ∧
          out.keys.openingKeys.findSome? (fun key =>
            derivedSecretFromSealed out.aead out.feeBumps key s out.network 0) = some secret ∧
          out.feeBumps.envelope secret v1 maxFee = some xdr := by
  have hnone : out.keys.openingKeys.findSome? (fun _ => (none : Option String)) = none :=
    findSome?_eq_none_iff.mpr (fun _ _ => rfl)
  by_cases hfee : maxFee < minBaseFee
  · simp [signFeeBump, hfee, hnone]
  · cases hparse : out.xdr.parseInnerV1 innerXdr with
    | none => simp [signFeeBump, hparse, hnone]
    | some v1 =>
      have hbind : ∀ key, signFeeBump out.aead out.xdr out.feeBumps key s out.network 0 innerXdr
          maxFee = (derivedSecretFromSealed out.aead out.feeBumps key s out.network 0).bind
            (fun secret => out.feeBumps.envelope secret v1 maxFee) := by
        simp [signFeeBump, hfee, hparse]
      simp only [hbind, findSome?_bind _ _ (derivedSecret_unique hA), bind_eq_some_iff]
      constructor
      · intro h
        obtain ⟨secret, hsecret, henv⟩ := h
        exact ⟨Int.not_lt.mp hfee, v1, secret, rfl, hsecret, henv⟩
      · intro h
        obtain ⟨-, v1', secret, hv1, hsecret, henv⟩ := h
        cases hv1
        exact ⟨secret, hsecret, henv⟩

/-- **What the sponsor signs with**: the secret under the first key that opens the row. -/
theorem signWith_eq_signed (hA : out.aead.Ideal) {w : SealedWallet} {innerXdr xdr : String}
    {maxFee : Int} :
    Sponsor.signWith out w innerXdr maxFee = .signed xdr ↔ minBaseFee ≤ maxFee ∧
      ∃ v1 secret, out.xdr.parseInnerV1 innerXdr = some v1 ∧ signingKey out w = some secret ∧
        out.feeBumps.envelope secret v1 maxFee = some xdr := by
  unfold Sponsor.signWith signingKey
  cases w.sealedCiphertext with
  | none => simp
  | some ciphertext =>
  cases w.sealedNonce with
  | none => simp
  | some nonce =>
  cases w.sealedSalt with
  | none => simp
  | some salt =>
  cases toU8 (w.sealedScheme.getD 1) with
  | none => simp
  | some scheme =>
  cases hparts : SealedSeed.fromPartsWithScheme ciphertext nonce salt scheme with
  | error => simp [hparts, Except.toOption]
  | ok s =>
    simp only [hparts, Except.toOption, bind_eq_bind, bind_some]
    rw [← findSome?_signFeeBump hA s]
    cases out.keys.openingKeys.findSome? (fun key =>
      signFeeBump out.aead out.xdr out.feeBumps key s out.network 0 innerXdr maxFee) with
    | none => simp
    | some e => simp

/-! ### During a migration -/

theorem signingKey_v2 {w : SealedWallet} (h : w.sealedScheme = some 2) :
    signingKey out w = none := by
  have hnone : ∀ s : SealedSeed, s.scheme = schemeV2 → out.keys.openingKeys.findSome? (fun key =>
      derivedSecretFromSealed out.aead out.feeBumps key s out.network 0) = none := by
    intro s hs
    apply findSome?_eq_none_iff.mpr
    intro key _
    have hopen : openSeed out.aead key s out.network.cryptoContext =
        .error .accountIdentityRequired := by
      rw [openSeed, hs, if_neg (by decide), if_pos rfl]
    rw [derivedSecretFromSealed, hopen]
    rfl
  apply eq_none_iff_forall_ne_some.mpr
  intro secret hsecret
  simp only [signingKey, h, bind_eq_bind, bind_eq_some_iff] at hsecret
  obtain ⟨ct, -, _, -, _, -, scheme, hscheme, s, hparts, hfound⟩ := hsecret
  obtain rfl : schemeV2 = scheme := some.inj hscheme
  have hs : s.scheme = schemeV2 := by
    unfold SealedSeed.fromPartsWithScheme at hparts
    split at hparts
    · split at hparts
      · split at hparts
        · rw [← some.inj hparts]
        · cases hparts
      · cases hparts
    · cases hparts
  rw [hnone s hs] at hfound
  cases hfound

/-- **Signing in the rotation window.**  At every point of any runs of the tool, the sponsor
endpoint recovers the key that it recovered from a row before exactly if the row that it reads is
not in scheme V2. -/
theorem signingKey_kept_iff {mig : Outside} {s0 : State} {c : Conf}
    (hc : Reachable (system mig) (StartIn s0) c) {w0 w : SealedWallet} (hw0 : w0 ∈ s0.table.rows)
    (hw : w ∈ c.world.db.table.rows) (hid : w.id = w0.id) {secret : Bytes}
    (hkey : signingKey out w0 = some secret) :
    signingKey out w = some secret ↔ w.sealedScheme ≠ some 2 := by
  constructor
  · intro h h2
    rw [signingKey_v2 h2] at h
    cases h
  · intro h2
    rcases row_reach hc hw0 hw hid with rfl | hr
    · exact hkey
    · exact absurd hr.scheme h2

/-! ### Examples -/

def exampleServer : Sponsor.Outside :=
  { Sponsor.exampleOutside with keys := ⟨exampleOldKey, some exampleNewKey⟩ }

theorem example_signingKey :
    signingKey exampleServer (exampleRow 1 exampleOldKey 1) = some (exampleSeed.take 32) ∧
    signingKey exampleServer (exampleRow 2 exampleOldKey 1) = some (exampleSeed.take 32) := by
  decide +kernel

theorem first_row_signs :
    Sponsor.signWith exampleServer (exampleRow 1 exampleOldKey 1) onePayment.text 100 =
    .signed (Sponsor.exampleFeeBump onePayment) :=
  (signWith_eq_signed framed_ideal).mpr
    ⟨by decide, _, _, (Octo.Known.knownTo_codecOfTwo_left _ _).parseInnerV1,
      example_signingKey.1, rfl⟩

theorem second_row_still_signs :
    ∃ c : Conf, Reachable (system exampleOut) (StartIn (exampleState twoOldRows)) c ∧
    c.world.db.files.readCheckpoint = some (checkpointLines "pair" 1) ∧
    ∃ w ∈ c.world.db.table.rows, w.id = 2 ∧
    signingKey exampleServer w = some (exampleSeed.take 32) := by
  obtain ⟨c, hc, hread, w, hw, hid, h1⟩ := exists_reachable_of_runMoves (S := system exampleOut)
    (show StartIn (exampleState twoOldRows) _ from rfl) killedMoves
    (p := fun c => c.world.db.files.readCheckpoint = some (checkpointLines "pair" 1) ∧
      ∃ w ∈ c.world.db.table.rows, w.id = 2 ∧ w.sealedScheme = some 1) (by decide +kernel)
  have hrow : exampleRow 2 exampleOldKey 1 ∈ (exampleState twoOldRows).table.rows :=
    List.mem_cons_of_mem _ List.mem_cons_self
  refine ⟨c, hc, hread, w, hw, hid, ?_⟩
  apply (signingKey_kept_iff hc hrow hw hid example_signingKey.2).mpr
  rw [h1]
  decide

/-- The first row signs before the migration, and no longer when its turn is over. -/
theorem first_row_no_longer_signs :
    signingKey exampleServer (exampleRow 1 exampleOldKey 1) = some (exampleSeed.take 32) ∧
    ∃ c : Conf, Reachable (system exampleOut) (StartIn (exampleState twoOldRows)) c ∧
      ∃ w ∈ c.world.db.table.rows, w.id = 1 ∧ signingKey exampleServer w = none := by
  exact ⟨example_signingKey.1, exists_reachable_of_runMoves rfl
    ([.start (exampleJob 3), .call 0 answered] ++ pageMoves 0) (by decide +kernel)⟩

end Octo.Migration
