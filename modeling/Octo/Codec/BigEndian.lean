import Mathlib.Algebra.Order.Ring.Int
import Octo.Codec.Delimited

/-!
# Fixed-width integers in big-endian bytes
-/

namespace Codec

/-- The last `n` bytes of a number, the most significant first. -/
def beBytes : Nat → Nat → List UInt8
  | 0, _ => []
  | n + 1, x => beBytes n (x / 256) ++ [UInt8.ofNat x]

theorem beBytes_length (n x : Nat) : (beBytes n x).length = n := by
  induction n generalizing x with
  | zero => rfl
  | succ n ih => rw [beBytes, List.length_append, ih, List.length_singleton]

theorem beBytes_inj {n x y : Nat} (hx : x < 256 ^ n) (hy : y < 256 ^ n)
    (h : beBytes n x = beBytes n y) : x = y := by
  induction n generalizing x y with
  | zero => omega
  | succ n ih =>
    have hlen : (beBytes n (x / 256)).length = (beBytes n (y / 256)).length := by
      rw [beBytes_length, beBytes_length]
    obtain ⟨hhigh, hlow⟩ := List.append_inj h hlen
    have hdiv : x / 256 = y / 256 := ih (by omega) (by omega) hhigh
    have hmod : x % 256 = y % 256 := by
      have hbyte := congrArg UInt8.toNat (List.cons.inj hlow).1
      simpa using hbyte
    omega

/-- Unsigned integers of `n` bytes. -/
theorem delimited_beBytes {m n : Nat} (hm : m ≤ 256 ^ n) :
    Delimited (fun x : Fin m => beBytes n x) := by
  refine delimited_of_length (fun x => beBytes_length n x) (fun x y h => ?_)
  exact Fin.ext (beBytes_inj (Nat.lt_of_lt_of_le x.isLt hm) (Nat.lt_of_lt_of_le y.isLt hm) h)

def beValue (bytes : List UInt8) : Nat := bytes.foldl (fun x b => x * 256 + b.toNat) 0

theorem beValue_beBytes {n x : Nat} (hx : x < 256 ^ n) : beValue (beBytes n x) = x := by
  induction n generalizing x with
  | zero => exact (Nat.lt_one_iff.mp hx).symm
  | succ n ih =>
    have hhigh : beValue (beBytes n (x / 256)) = x / 256 := ih (by omega)
    unfold beValue at hhigh ⊢
    rw [beBytes, List.foldl_append]
    simp only [List.foldl_cons, List.foldl_nil, UInt8.toNat_ofNat']
    omega

abbrev I64 := {z : Int // -2 ^ 63 ≤ z ∧ z < 2 ^ 63}

def i64Bytes (z : I64) : List UInt8 := beBytes 8 (z.val % 2 ^ 64).toNat

/-- Signed integers of eight bytes, in two's complement. -/
theorem delimited_i64Bytes : Delimited i64Bytes := by
  refine delimited_of_length (fun z => beBytes_length 8 _) (fun x y h => ?_)
  obtain ⟨x, hx⟩ := x
  obtain ⟨y, hy⟩ := y
  have hx' : (x % 2 ^ 64).toNat < 256 ^ 8 := by omega
  have hy' : (y % 2 ^ 64).toNat < 256 ^ 8 := by omega
  have hmod : (x % 2 ^ 64).toNat = (y % 2 ^ 64).toNat := beBytes_inj hx' hy' h
  exact Subtype.ext (by show x = y; omega)

end Codec
