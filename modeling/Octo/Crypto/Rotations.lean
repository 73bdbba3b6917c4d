import Octo.Crypto.Seal

/-!
# Rotations of a sealed seed

A seed is sealed once, with or without its owner, and resealed any number of times under new keys.
Whatever the history, the last key opens it; once it is bound to its owner, nothing else does: the
context and the account are joined by a NUL, so no other pair without a NUL in its context gives the
same bytes.
-/

namespace Octo.Crypto

/-- A record of `m` that `key` protects, after a seal and any number of rotations for one context
and account. -/
inductive Rotated (A : Aead) (context : Bytes) (accountId : String) (m : Bytes) :
    Bytes → SealedSeed → Prop
  | sealed {rng : Draw} {key : Bytes} {s : SealedSeed} (h : sealSeed A rng key m context = .ok s) :
    Rotated A context accountId m key s
  | bound {rng : Draw} {key : Bytes} {s : SealedSeed}
      (h : sealWithAccountId A rng key m context accountId = .ok s) :
    Rotated A context accountId m key s
  | resealed {rng : Draw} {key oldKey newKey : Bytes} {s s' : SealedSeed}
      (prior : Rotated A context accountId m key s)
    (h : reseal A rng oldKey newKey s context = .ok s') : Rotated A context accountId m newKey s'
  | rebound {rng : Draw} {key oldKey newKey : Bytes} {s s' : SealedSeed}
      (prior : Rotated A context accountId m key s)
    (h : resealWithAccountId A rng oldKey newKey s context accountId = .ok s') :
    Rotated A context accountId m newKey s'

variable {A : Aead} {key key' context context' m m' : Bytes} {accountId accountId' : String}
  {s s' : SealedSeed} {rng : Draw}

/-! ### What the last seal was -/

theorem sealSeed_scheme (h : sealSeed A rng key m context = .ok s) : s.scheme = schemeV1 := by
  unfold sealSeed at h
  split at h
  · rw [← Except.ok.inj h]
  · cases h

theorem openWithAccountId_of_v1 (h : s.scheme = schemeV1) :
    openWithAccountId A key s context accountId = openSeed A key s context := by
  rw [openWithAccountId, h, if_pos (by decide)]

theorem openSeed_scheme (h : openSeed A key s context = .ok m) : s.scheme = schemeV1 := by
  unfold openSeed at h
  split at h
  · assumption
  · split at h <;> cases h

/-- The last seal of a record was of its plaintext, under its key. -/
theorem Rotated.last_seal (hA : A.Ideal) (h : Rotated A context accountId m key s) :
    ∃ rng, sealSeed A rng key m context = .ok s ∨ sealWithAccountId A rng key m context accountId =
      .ok s := by
  -- a rotation that succeeds has opened the record, and what opens is what was sealed
  induction h with
  | @sealed rng key s h => exact ⟨rng, .inl h⟩
  | @bound rng key s h => exact ⟨rng, .inr h⟩
  | @resealed rng key oldKey newKey s s' prior h ih =>
    obtain ⟨_, hseal | hseal⟩ := ih
    · have hv1 := sealSeed_scheme hseal
      simp only [reseal, hv1, if_neg (show ¬schemeV1 = 0 by decide)] at h
      cases hopen : openSeed A oldKey s context with
      | error => rw [hopen] at h; cases h
      | ok =>
        rw [hopen] at h
        rw [(openSeed_inj hA (openSeed_of_sealSeed hA hseal) hopen).2]
        exact ⟨rng, .inl h⟩
    · have hv2 := (openWithAccountId_of_sealWithAccountId hA hseal).1
      simp only [reseal, openSeed, hv2, if_neg (show ¬schemeV2 = 0 by decide),
        if_neg (show ¬schemeV2 = schemeV1 by decide), if_true] at h
      cases h
  | @rebound rng key oldKey newKey s s' prior h ih =>
    unfold resealWithAccountId at h
    cases hopen : openWithAccountId A oldKey s context accountId with
    | error => rw [hopen] at h; cases h
    | ok =>
      rw [hopen] at h
      have hkey : openWithAccountId A key s context accountId = .ok m := by
        obtain ⟨_, hseal | hseal⟩ := ih
        · rw [openWithAccountId_of_v1 (sealSeed_scheme hseal)]
          exact openSeed_of_sealSeed hA hseal
        · exact (openWithAccountId_of_sealWithAccountId hA hseal).2
      rw [(openWithAccountId_inj hA hkey hopen).2]
      exact ⟨rng, .inr h⟩

/-! ### What else opens a bound record -/

theorem append_nul_inj {x y : Bytes} (hx : 0 ∉ context) (hy : 0 ∉ context')
    (h : context ++ 0 :: x = context' ++ 0 :: y) : context = context' ∧ x = y := by
  induction context generalizing context' with
  | nil =>
    cases context' with
    | nil => exact ⟨rfl, (List.cons.inj h).2⟩
    | cons => exact absurd ((List.cons.inj h).1 ▸ List.mem_cons_self) hy
  | cons a as ih =>
    cases context' with
    | nil => exact absurd ((List.cons.inj h).1 ▸ List.mem_cons_self) hx
    | cons =>
      obtain ⟨rfl, hrest⟩ := List.cons.inj h
      obtain ⟨rfl, rfl⟩ := ih (fun hm => hx (List.mem_cons_of_mem _ hm))
        (fun hm => hy (List.mem_cons_of_mem _ hm)) hrest
      exact ⟨rfl, rfl⟩

theorem boundContext_inj (hc : 0 ∉ context) (hc' : 0 ∉ context')
    (h : boundContext context' accountId' = boundContext context accountId) :
    context' = context ∧ accountId' = accountId := by
  obtain ⟨hcontext, haccount⟩ := append_nul_inj hc' hc h
  exact ⟨hcontext, utf8_injective haccount⟩

/-- The key and the bytes that open a record are those it was sealed with. -/
theorem decryptSeed_of_sealSeed (hA : A.Ideal) (h : sealSeed A rng key m context = .ok s)
    (hs : s'.ciphertext = s.ciphertext ∧ s'.nonce = s.nonce ∧ s'.salt = s.salt)
    (hopen : decryptSeed A key' s' context' = .ok m') : key' = key ∧ context' = context := by
  unfold sealSeed at h
  split at h
  · rename_i hc
    rw [← Except.ok.inj h] at hs
    obtain ⟨hct, hnonce, -⟩ := hs
    unfold decryptSeed at hopen
    split at hopen
    · rename_i hn
      rw [hct, hnonce] at hn
      obtain ⟨hkey, hcontext, -⟩ := hA.encrypt_inj (hA.decrypt_iff.mp hn) hc
      exact ⟨(hA.hkdf_inj hkey).2.1, hcontext⟩
    · cases hopen
  · cases h

theorem sealWithAccountId_ok (h : sealWithAccountId A rng key m context accountId = .ok s) :
    ∃ v1, sealSeed A rng key m (boundContext context accountId) = .ok v1 ∧
    s = { v1 with scheme := schemeV2 } := by
  unfold sealWithAccountId at h
  split at h
  · cases h
  · cases hs : sealSeed A rng key m (boundContext context accountId) with
    | error => rw [hs] at h; cases h
    | ok v1 =>
      rw [hs] at h
      exact ⟨v1, rfl, (Except.ok.inj h).symm⟩

/-- **A rotated record opens under its last key, context and account, and a V2 record under nothing
else**: not under another key, context or account, and not as a V1 record. -/
theorem rotations_bound (hA : A.Ideal) (hcontext : 0 ∉ context)
    (h : Rotated A context accountId m key s) :
    openWithAccountId A key s context accountId = .ok m ∧
    (s.scheme = schemeV2 → ∀ key' context' accountId' m', 0 ∉ context' →
      (openWithAccountId A key' s context' accountId' = .ok m' →
        key' = key ∧ context' = context ∧ accountId' = accountId) ∧
      openSeed A key' s context' ≠ .ok m' ∧
      openSeed A key' { s with scheme := schemeV1 } context' ≠ .ok m') := by
  obtain ⟨rng, hseal | hseal⟩ := h.last_seal hA
  · have hv1 := sealSeed_scheme hseal
    refine ⟨?_, fun hv2 => absurd (hv1.symm.trans hv2) (by decide)⟩
    rw [openWithAccountId_of_v1 hv1]
    exact openSeed_of_sealSeed hA hseal
  · obtain ⟨-, hopen⟩ := openWithAccountId_of_sealWithAccountId hA hseal
    refine ⟨hopen, fun _ key' context' accountId' m' hcontext' => ?_⟩
    obtain ⟨v1, hv1, rfl⟩ := sealWithAccountId_ok hseal
    refine ⟨fun h' => ?_, fun h' => ?_, fun h' => ?_⟩
    · unfold openWithAccountId at h'
      rw [if_neg (by simp)] at h'
      split at h'
      · cases h'
      · obtain ⟨hkey, hbound⟩ := decryptSeed_of_sealSeed hA hv1 ⟨rfl, rfl, rfl⟩ h'
        exact ⟨hkey, boundContext_inj hcontext hcontext' hbound⟩
    · exact absurd (openSeed_scheme h') (show ¬schemeV2 = schemeV1 by decide)
    · obtain ⟨-, hbound⟩ := decryptSeed_of_sealSeed hA hv1 ⟨rfl, rfl, rfl⟩ h'
      rw [hbound] at hcontext'
      exact hcontext' (List.mem_append_right _ List.mem_cons_self)

def rotationDraw : Draw := ⟨List.replicate 32 5, List.replicate 12 6, rfl, rfl⟩

/-- A seed that was sealed under key `1` and rotated to key `2` and its owner. -/
theorem rotated_example : ∃ s, Rotated framed [111] "GA" [7] [2] s ∧ s.scheme = schemeV2 ∧
    openWithAccountId framed [2] s [111] "GA" = .ok [7] ∧
    openWithAccountId framed [1] s [111] "GA" ≠ .ok [7] := by
  obtain ⟨s, hs⟩ : ∃ s, sealSeed framed rotationDraw [1] [7] [111] = .ok s := ⟨_, rfl⟩
  obtain ⟨s', hs'⟩ : ∃ s', sealWithAccountId framed rotationDraw [2] [7] [111] "GA" = .ok s' :=
    ⟨_, rfl⟩
  have hopen : openWithAccountId framed [1] s [111] "GA" = .ok [7] := by
    rw [openWithAccountId_of_v1 (sealSeed_scheme hs)]
    exact openSeed_of_sealSeed framed_ideal hs
  have hrotated : Rotated framed [111] "GA" [7] [2] s' := by
    refine @Rotated.rebound _ _ _ _ rotationDraw [1] [1] [2] s s' (.sealed hs) ?_
    rw [resealWithAccountId, hopen]
    exact hs'
  have hv2 := (openWithAccountId_of_sealWithAccountId framed_ideal hs').1
  have hbound := rotations_bound framed_ideal (by decide) hrotated
  exact ⟨s', hrotated, hv2, hbound.1, fun h => absurd ((hbound.2 hv2 _ _ _ _ (by decide)).1 h).1
    (by decide)⟩

end Octo.Crypto
