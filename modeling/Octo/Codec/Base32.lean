import Mathlib.Data.List.Induction
import Mathlib.Algebra.Order.Ring.Nat

/-!
# Base32 without padding

RFC 4648 base32 over bytes, as a change of grouping: the bits of the bytes, eight at a time, are
read five at a time.  Bits are listed from the most significant one.
-/

namespace Codec

open List

/-! ### Bits -/

def ofBits (l : List Bool) : Nat := l.foldl (fun n b => 2 * n + b.toNat) 0

def toBits : Nat → Nat → List Bool
  | 0, _ => []
  | k + 1, n => toBits k (n / 2) ++ [n % 2 == 1]

@[simp] theorem toBits_length (k n : Nat) : (toBits k n).length = k := by
  induction k generalizing n with
  | zero => rfl
  | succ k ih => rw [toBits, length_append, ih, length_singleton]

variable (l : List Bool)

theorem ofBits_concat (b : Bool) : ofBits (l ++ [b]) = 2 * ofBits l + b.toNat := by
  rw [ofBits, foldl_append]
  rfl

variable {k n : Nat} {α : Type} {bytes : List Nat}

/-- Numbers of `k` bits are lists of `k` bits. -/
theorem ofBits_toBits (h : n < 2 ^ k) : ofBits (toBits k n) = n := by
  induction k generalizing n with
  | zero =>
    have hn : n = 0 := by simpa using h
    rw [hn]
    rfl
  | succ k ih =>
    have hlt : n / 2 < 2 ^ k := by
      omega
    rw [toBits, ofBits_concat, ih hlt]
    rcases Nat.mod_two_eq_zero_or_one n with hm | hm <;> rw [hm] <;> simp <;> omega

theorem toBits_ofBits : toBits l.length (ofBits l) = l := by
  induction l using reverseRecOn with
  | nil => rfl
  | append_singleton l b ih =>
    rw [length_append, length_singleton, ofBits_concat, toBits]
    have hdiv : (2 * ofBits l + b.toNat) / 2 = ofBits l := by
      have := b.toNat_le
      omega
    have hmod : ((2 * ofBits l + b.toNat) % 2 == 1) = b := by cases b <;> simp
    rw [hdiv, hmod, ih]

theorem ofBits_lt : ofBits l < 2 ^ l.length := by
  induction l using reverseRecOn with
  | nil => decide
  | append_singleton l b ih =>
    rw [length_append, length_singleton, ofBits_concat]
    cases b <;> simp <;> omega

/-! ### Groups -/

def group {α : Type} (k : Nat) : Nat → List α → List (List α)
  | 0, _ => []
  | n + 1, l => l.take k :: group k n (l.drop k)

/-- Cut into groups, a list is still there. -/
theorem flatten_group {l : List α} (h : l.length = k * n) : (group k n l).flatten = l := by
  induction n generalizing l with
  | zero =>
    have : l = [] := length_eq_zero_iff.mp (by simpa using h)
    rw [this]
    rfl
  | succ n ih =>
    rw [group, flatten_cons, ih (by rw [length_drop, h, Nat.mul_succ]; omega), take_append_drop]

theorem length_of_mem_group {l : List α} (h : l.length = k * n) :
    ∀ g ∈ group k n l, g.length = k := by
  induction n generalizing l with
  | zero => intro g hg; cases hg
  | succ n ih =>
    intro g hg
    rw [Nat.mul_succ] at h
    rcases mem_cons.mp hg with rfl | hg
    · rw [length_take]
      omega
    · exact ih (by rw [length_drop]; omega) g hg

theorem group_flatten {k : Nat} (ls : List (List α)) (rest : List α)
    (h : ∀ l ∈ ls, l.length = k) : group k ls.length (ls.flatten ++ rest) = ls := by
  induction ls with
  | nil => rfl
  | cons l ls ih =>
    have hl : l.length = k := h l mem_cons_self
    rw [length_cons, group, flatten_cons, append_assoc, ← hl, take_left,
      drop_left, hl, ih (forall_mem_cons.mp h).2]

/-! ### The alphabet -/

def digit (n : Nat) : Char := if n < 26 then Char.ofNat (65 + n) else Char.ofNat (24 + n)

def value (c : Char) : Option Nat :=
  if 65 ≤ c.toNat ∧ c.toNat ≤ 90 then some (c.toNat - 65)
  else if 50 ≤ c.toNat ∧ c.toNat ≤ 55 then some (c.toNat - 24)
  else none

theorem value_digit : ∀ n < 32, value (digit n) = some n := by decide

/-! ### The codec -/

/-- The least number of groups of five bits that hold `n` bits. -/
def groups (n : Nat) : Nat := (n + 4) / 5

def encode (bytes : List Nat) : List Char :=
  let bits := (bytes.map (toBits 8)).flatten
  let n := groups bits.length
  (group 5 n (bits ++ List.replicate (5 * n - bits.length) false)).map (fun g => digit (ofBits g))

def decode (s : List Char) : Option (List Nat) :=
  (s.mapM value).map (fun vs =>
    let bits := (vs.map (toBits 5)).flatten
    (group 8 (bits.length / 8) bits).map ofBits)

theorem flatten_length : ((bytes.map (toBits 8)).flatten).length = 8 * bytes.length := by
  induction bytes with
  | nil => rfl
  | cons =>
    rw [map_cons, flatten_cons, length_append, toBits_length, length_cons]
    omega

theorem mapM_value_digit {gs : List (List Bool)} (h : ∀ g ∈ gs, g.length = 5) :
    (gs.map (fun g => digit (ofBits g))).mapM value = some (gs.map ofBits) := by
  induction gs with
  | nil => rfl
  | cons g gs ih =>
    have hlt : ofBits g < 32 := by
      have := ofBits_lt g
      rw [h g mem_cons_self] at this
      exact this
    rw [map_cons, mapM_cons, value_digit _ hlt, ih (forall_mem_cons.mp h).2]
    rfl

/-- Decoding what was encoded gives it back. -/
theorem decode_encode (h : ∀ b ∈ bytes, b < 256) : decode (encode bytes) = some bytes := by
  have hlen : ((bytes.map (toBits 8)).flatten).length = 8 * bytes.length := flatten_length
  set bits := (bytes.map (toBits 8)).flatten with hbits
  set pad := 5 * groups bits.length - bits.length with hpad
  have hpadlt : pad < 5 ∧ bits.length + pad = 5 * groups bits.length := by
    unfold groups at hpad ⊢
    omega
  have htotal : (bits ++ replicate pad false).length = 5 * groups bits.length := by
    rw [length_append, length_replicate]
    exact hpadlt.2
  have hgs := length_of_mem_group htotal
  have hback : ((group 5 (groups bits.length) (bits ++ replicate pad false)).map ofBits).map
      (toBits 5) = group 5 (groups bits.length) (bits ++ replicate pad false) := by
    rw [map_map]
    refine (map_congr_left fun g hg => ?_).trans (map_id _)
    have := toBits_ofBits g
    rw [hgs g hg] at this
    exact this
  show (mapM value (map _ _)).map _ = some bytes
  rw [mapM_value_digit hgs, Option.map_some, hback, flatten_group htotal]
  have hcount : (bits ++ replicate pad false).length / 8 = (bytes.map (toBits 8)).length := by
    rw [length_map]
    omega
  show some (map ofBits (group 8 ((bits ++ replicate pad false).length / 8) _)) = _
  rw [hcount, group_flatten]
  · rw [map_map]
    refine congrArg some ((map_congr_left fun b hb => ?_).trans (map_id _))
    exact ofBits_toBits (h b hb)
  · intro l hl
    obtain ⟨b, -, rfl⟩ := mem_map.mp hl
    exact toBits_length 8 b

end Codec
