import Mathlib.Algebra.Order.Ring.Nat
import Mathlib.Data.List.Basic

/-!
# Base64 with padding

RFC 4648 base64 over bytes, three bytes to four characters.  The padding is required and the bits
that it leaves over are zero, so each text stands for one list of bytes.
-/

namespace Octo

open Option

def base64Digit (n : Nat) : Char :=
  if n < 26 then .ofNat (n + 65)
  else if n < 52 then .ofNat (n + 71)
  else if n < 62 then .ofNat (n - 4)
  else if n = 62 then '+'
  else '/'

def base64Chars : List Nat → List Char
  | a :: b :: c :: rest =>
    base64Digit (a / 4) :: base64Digit (a % 4 * 16 + b / 16) :: base64Digit (b % 16 * 4 + c / 64) ::
      base64Digit (c % 64) :: base64Chars rest
  | [a, b] => [base64Digit (a / 4), base64Digit (a % 4 * 16 + b / 16), base64Digit (b % 16 * 4),
      '=']
  | [a] => [base64Digit (a / 4), base64Digit (a % 4 * 16), '=', '=']
  | [] => []

def base64Value (c : Char) : Option Nat :=
  if 65 ≤ c.toNat ∧ c.toNat ≤ 90 then some (c.toNat - 65)
  else if 97 ≤ c.toNat ∧ c.toNat ≤ 122 then some (c.toNat - 71)
  else if 48 ≤ c.toNat ∧ c.toNat ≤ 57 then some (c.toNat + 4)
  else if c = '+' then some 62
  else if c = '/' then some 63
  else none

/-- The last four characters, with or without padding. -/
def base64Last (p q r s : Char) : Option (List Nat) := do
  let x ← base64Value p
  let y ← base64Value q
  if r = '=' ∧ s = '=' then
    if y % 16 = 0 then some [x * 4 + y / 16] else none
  else
    let z ← base64Value r
    if s = '=' then
      if z % 4 = 0 then some [x * 4 + y / 16, y % 16 * 16 + z / 4] else none
    else
      let w ← base64Value s
      some [x * 4 + y / 16, y % 16 * 16 + z / 4, z % 4 * 64 + w]

def base64Quad (p q r s : Char) : Option (List Nat) := do
  let x ← base64Value p
  let y ← base64Value q
  let z ← base64Value r
  let w ← base64Value s
  some [x * 4 + y / 16, y % 16 * 16 + z / 4, z % 4 * 64 + w]

def base64Bytes : List Char → Option (List Nat)
  | [] => some []
  | [p, q, r, s] => base64Last p q r s
  | p :: q :: r :: s :: rest => do
    let bytes ← base64Quad p q r s
    let more ← base64Bytes rest
    some (bytes ++ more)
  | _ => none

theorem base64Value_base64Digit {n : Nat} (h : n < 64) : base64Value (base64Digit n) = some n := by
  have all : ∀ m < 64, base64Value (base64Digit m) = some m := by decide
  exact all n h

theorem base64Digit_ne_pad {n : Nat} (h : n < 64) : base64Digit n ≠ '=' := by
  have all : ∀ m < 64, base64Digit m ≠ '=' := by decide
  exact all n h

section

variable {a b c : Nat}

theorem base64Last_one (ha : a < 256) :
    base64Last (base64Digit (a / 4)) (base64Digit (a % 4 * 16)) '=' '=' = some [a] := by
  have hx : a / 4 < 64 := by omega
  have hy : a % 4 * 16 < 64 := by omega
  have hlow : a % 4 * 16 % 16 = 0 := by omega
  have hbyte : a / 4 * 4 + a % 4 * 16 / 16 = a := by omega
  simp only [base64Last, base64Value_base64Digit hx, base64Value_base64Digit hy, bind_eq_bind,
    bind_some, and_self, if_true, hlow, hbyte]

theorem base64Last_two (ha : a < 256) (hb : b < 256) :
    base64Last (base64Digit (a / 4)) (base64Digit (a % 4 * 16 + b / 16))
      (base64Digit (b % 16 * 4)) '=' = some [a, b] := by
  have hx : a / 4 < 64 := by omega
  have hy : a % 4 * 16 + b / 16 < 64 := by omega
  have hz : b % 16 * 4 < 64 := by omega
  have hlow : b % 16 * 4 % 4 = 0 := by omega
  have hfirst : a / 4 * 4 + (a % 4 * 16 + b / 16) / 16 = a := by omega
  have hsecond : (a % 4 * 16 + b / 16) % 16 * 16 + b % 16 * 4 / 4 = b := by omega
  simp only [base64Last, base64Value_base64Digit hx, base64Value_base64Digit hy,
    base64Value_base64Digit hz, base64Digit_ne_pad hz, bind_eq_bind, bind_some, false_and, if_false,
    if_true, hlow, hfirst, hsecond]

theorem base64Quad_three (ha : a < 256) (hb : b < 256) (hc : c < 256) :
    base64Quad (base64Digit (a / 4)) (base64Digit (a % 4 * 16 + b / 16))
      (base64Digit (b % 16 * 4 + c / 64)) (base64Digit (c % 64)) = some [a, b, c] := by
  have hx : a / 4 < 64 := by omega
  have hy : a % 4 * 16 + b / 16 < 64 := by omega
  have hz : b % 16 * 4 + c / 64 < 64 := by omega
  have hw : c % 64 < 64 := by omega
  have hfirst : a / 4 * 4 + (a % 4 * 16 + b / 16) / 16 = a := by omega
  have hsecond : (a % 4 * 16 + b / 16) % 16 * 16 + (b % 16 * 4 + c / 64) / 4 = b := by omega
  have hthird : (b % 16 * 4 + c / 64) % 4 * 64 + c % 64 = c := by omega
  simp only [base64Quad, base64Value_base64Digit hx, base64Value_base64Digit hy,
    base64Value_base64Digit hz, base64Value_base64Digit hw, bind_eq_bind, bind_some, hfirst,
    hsecond, hthird]

theorem base64Last_three (ha : a < 256) (hb : b < 256) (hc : c < 256) :
    base64Last (base64Digit (a / 4)) (base64Digit (a % 4 * 16 + b / 16))
      (base64Digit (b % 16 * 4 + c / 64)) (base64Digit (c % 64)) = some [a, b, c] := by
  have hz : b % 16 * 4 + c / 64 < 64 := by omega
  have hw : c % 64 < 64 := by omega
  have hquad := base64Quad_three ha hb hc
  simpa [base64Last, base64Quad, base64Digit_ne_pad hz, base64Digit_ne_pad hw] using hquad

end

/-- Decoding what was encoded gives it back. -/
theorem base64Bytes_base64Chars {bytes : List Nat} (h : ∀ n ∈ bytes, n < 256) :
    base64Bytes (base64Chars bytes) = some bytes := by
  induction bytes using base64Chars.induct with
  | case1 a b c rest ih =>
    have hrest := ih (fun n hn => h n (by simp [hn]))
    have ha : a < 256 := h a (by simp)
    have hb : b < 256 := h b (by simp)
    have hc : c < 256 := h c (by simp)
    rw [base64Chars]
    cases hchars : base64Chars rest with
    | nil =>
      -- nothing follows, so the four characters are read as the last ones
      rw [hchars] at hrest
      have hnil : rest = [] := (some.inj hrest).symm
      rw [hnil]
      exact base64Last_three ha hb hc
    | cons =>
      rw [hchars] at hrest
      rw [base64Bytes, base64Quad_three ha hb hc, hrest]
      · rfl
      · simp
  | case2 a b => exact base64Last_two (h a (by simp)) (h b (by simp))
  | case3 a => exact base64Last_one (h a (by simp))
  | case4 => rfl

end Octo
