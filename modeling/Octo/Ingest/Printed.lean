import Mathlib.Data.Nat.Digits.Defs
import Octo.Ingest.Text

/-!
# Numbers as Horizon writes them

Horizon writes an amount as whole units, a point and seven digits (`amountText`), and an operation
id as the decimal number that packs ledger, transaction order and operation order
(`OperationId.text`).  What the ingest crate reads back from such a text is the number it was
written from.
-/

namespace Octo

open List

/-! ### Digits -/

variable {c : Char} {n : Nat}

theorem isAsciiDigit_toDigits (h : c ∈ Nat.toDigits 10 n) : isAsciiDigit c = true := by
  have hd := Nat.isDigit_of_mem_toDigits (by decide) (by decide) h
  simp only [Char.isDigit, Bool.and_eq_true, decide_eq_true_eq] at hd
  simp only [isAsciiDigit, Bool.and_eq_true, decide_eq_true_eq]
  exact ⟨hd.1, hd.2⟩

theorem decimalValue_toDigits (n : Nat) : decimalValue (Nat.toDigits 10 n) = n :=
  Nat.ofDigitChars_ten_toDigits

theorem decimalValue_zeros (k : Nat) (s : List Char) :
    decimalValue (replicate k '0' ++ s) = decimalValue s := by
  induction k with
  | zero => rfl
  | succ k ih => exact ih

variable {s : List Char} {m : Nat}

theorem isDigits_of_all (hne : s ≠ []) (h : ∀ c ∈ s, isAsciiDigit c = true) :
    isDigits s = true := by
  simp only [isDigits, Bool.and_eq_true, Bool.not_eq_true', isEmpty_eq_false_iff, all_eq_true]
  exact ⟨hne, h⟩

theorem parseI64_digits (hne : s ≠ []) (h : ∀ c ∈ s, isAsciiDigit c = true)
    (hv : decimalValue s = n) (hn : (n : Int) ≤ i64Max) : parseI64 s = some (n : Int) := by
  rw [isDigits_parse (isDigits_of_all hne h), hv, if_pos hn]

/-! ### Amounts -/

def fractionDigits (m : Nat) : List Char :=
  List.replicate (7 - (Nat.toDigits 10 m).length) '0' ++ Nat.toDigits 10 m

def amountText (stroops : Nat) : String :=
  String.ofList (Nat.toDigits 10 (stroops / 10000000) ++ '.' :: fractionDigits (stroops % 10000000))

theorem fractionDigits_length (hm : m < 10000000) : (fractionDigits m).length = 7 := by
  have hle : (Nat.toDigits 10 m).length ≤ 7 :=
    (Nat.length_toDigits_le_iff (by decide) (by decide)).mpr (by omega)
  simp only [fractionDigits, length_append, length_replicate]
  omega

theorem isAsciiDigit_fractionDigits (h : c ∈ fractionDigits m) : isAsciiDigit c = true := by
  rcases mem_append.mp h with h | h
  · rw [eq_of_mem_replicate h]
    decide
  · exact isAsciiDigit_toDigits h

theorem decimalValue_fractionDigits (m : Nat) : decimalValue (fractionDigits m) = m := by
  rw [fractionDigits, decimalValue_zeros, decimalValue_toDigits]

theorem isWhitespace_digit (h : isAsciiDigit c = true) : isWhitespace c = false := by
  simp only [isAsciiDigit, Bool.and_eq_true, decide_eq_true_eq] at h
  simp only [isWhitespace, Bool.or_eq_false_iff, Bool.and_eq_false_iff, decide_eq_false_iff_not,
    beq_eq_false_iff_ne]
  omega

theorem trim_digits {a z : Char} (hhead : s.head? = some a) (hlast : s.getLast? = some z)
    (ha : isAsciiDigit a = true) (hz : isAsciiDigit z = true) : trim s = s := by
  have hfront : s.dropWhile isWhitespace = s := by
    cases s with
    | nil => rfl
    | cons =>
      cases hhead
      rw [dropWhile_cons_of_neg (by rw [isWhitespace_digit ha]; decide)]
  have hback : s.reverse.dropWhile isWhitespace = s.reverse := by
    cases hr : s.reverse with
    | nil => rfl
    | cons c =>
      have hc : c = z := by
        rw [← head?_reverse, hr] at hlast
        exact Option.some.inj hlast
      rw [dropWhile_cons_of_neg (by rw [hc, isWhitespace_digit hz]; decide)]
  rw [trim, hfront, hback, reverse_reverse]

theorem splitPoint_digits {s t : List Char} (h : ∀ c ∈ s, isAsciiDigit c = true) :
    splitPoint (s ++ '.' :: t) = (s, t) := by
  have hs : ∀ c ∈ s, (c != '.') = true := by
    intro c hc
    have := h c hc
    simp only [bne_iff_ne]
    rintro rfl
    cases this
  rw [splitPoint, takeWhile_append_of_pos hs, dropWhile_append_of_pos hs]
  simp

theorem fractionDigits_ne_nil (m : Nat) : fractionDigits m ≠ [] :=
  append_ne_nil_of_right_ne_nil _ Nat.toDigits_ne_nil

theorem toStroops_parts {s : String} {I F : List Char} {units fraction : Nat}
    (hs : s.toList = I ++ '.' :: F) (hI : ∀ c ∈ I, isAsciiDigit c = true) (hIne : I ≠ [])
    (hF : ∀ c ∈ F, isAsciiDigit c = true) (hFlen : F.length = 7)
    (hIv : parseI64 I = some (units : Int)) (hFv : parseI64 F = some (fraction : Int))
    (hmax : (units : Int) * stroopsPerUnit + fraction ≤ i64Max) :
    toStroops s = some ((units : Int) * stroopsPerUnit + fraction) := by
  have hFne : F ≠ [] := ne_nil_of_length_pos (by omega)
  have hhead : (I ++ '.' :: F).head? = some (I.head hIne) := by
    rw [head?_append_of_ne_nil _ hIne, head?_eq_some_head]
  have hlast : (I ++ '.' :: F).getLast? = some (F.getLast hFne) := by
    rw [getLast?_append_cons, getLast?_cons, getLast?_eq_some_getLast hFne]
    rfl
  have htrim : trim (I ++ '.' :: F) = I ++ '.' :: F :=
    trim_digits hhead hlast (hI _ (head_mem hIne)) (hF _ (getLast_mem hFne))
  have hminus : I.head hIne ≠ '-' := by
    intro h
    have := hI _ (head_mem hIne)
    rw [h] at this
    cases this
  have hunits : (units : Int) * stroopsPerUnit ≤ i64Max := by omega
  have hfull : F ++ replicate (decimals - F.length) '0' = F := by
    rw [hFlen]
    exact append_nil F
  have hshort : decide (decimals < F.length) = false := by
    rw [hFlen]
    rfl
  have hstart : ((I ++ '.' :: F).isEmpty || some (I.head hIne) == some '-') = false := by
    simp [hminus]
  have hdo : ((parseI64 I).bind fun a => (parseI64 F).bind fun b =>
      (checked (a * stroopsPerUnit)).bind fun u => checked (u + b)) =
        some ((units : Int) * stroopsPerUnit + fraction) := by
    rw [hIv, hFv, Option.bind_some, Option.bind_some, checked, if_pos hunits, Option.bind_some,
      checked, if_pos hmax]
  unfold toStroops
  rw [hs, htrim]
  simp only [splitPoint_digits hI, hhead, all_eq_true.mpr hI, all_eq_true.mpr hF, hfull,
    hshort, hstart]
  exact hdo

/-- **An amount is read back exactly.** -/
theorem toStroops_amountText (hn : (n : Int) ≤ i64Max) :
    toStroops (amountText n) = some (n : Int) := by
  have hsum : ((n / 10000000 : Nat) : Int) * stroopsPerUnit + (n % 10000000 : Nat) = n := by
    unfold stroopsPerUnit
    omega
  have hIv : parseI64 (Nat.toDigits 10 (n / 10000000)) = some ((n / 10000000 : Nat) : Int) :=
    parseI64_digits Nat.toDigits_ne_nil (fun _ => isAsciiDigit_toDigits) (decimalValue_toDigits _)
      (by omega)
  have hFv : parseI64 (fractionDigits (n % 10000000)) = some ((n % 10000000 : Nat) : Int) :=
    parseI64_digits (fractionDigits_ne_nil _) (fun _ => isAsciiDigit_fractionDigits)
      (decimalValue_fractionDigits _) (by omega)
  have hread := toStroops_parts (s := amountText n) String.toList_ofList
    (fun _ => isAsciiDigit_toDigits) Nat.toDigits_ne_nil (fun _ => isAsciiDigit_fractionDigits)
    (fractionDigits_length (Nat.mod_lt _ (by decide))) hIv hFv (by rw [hsum]; exact hn)
  rw [hread, hsum]

/-! ### Operation ids -/

/-- The three parts of an operation id, in the ranges Horizon gives them. -/
structure OperationId where
  ledger : Nat
  txOrder : Nat
  opOrder : Nat
  ledger_pos : 0 < ledger
  ledger_lt : ledger < 2 ^ 31
  txOrder_pos : 0 < txOrder
  txOrder_lt : txOrder < 2 ^ 20
  opOrder_pos : 0 < opOrder
  opOrder_le : opOrder ≤ maxOpsPerTx

namespace OperationId

def packed (id : OperationId) : Nat := id.ledger * 2 ^ 32 + id.txOrder * 2 ^ 12 + id.opOrder

def text (id : OperationId) : String := String.ofList (Nat.toDigits 10 id.packed)

def toid (id : OperationId) : Toid := ⟨id.ledger, id.txOrder, (id.opOrder : Int) - 1⟩

variable (id : OperationId)

theorem unpackToid_packed (hm : id.ledger ≤ m) : unpackToid id.packed m = some id.toid := by
  have := id.txOrder_lt
  have := id.opOrder_le
  have hledger : id.packed / 2 ^ 32 = id.ledger := by
    unfold packed maxOpsPerTx at *
    omega
  have htx : id.packed / 2 ^ 12 % 2 ^ 20 = id.txOrder := by
    unfold packed maxOpsPerTx at *
    omega
  have hop : id.packed % 2 ^ 12 = id.opOrder := by
    unfold packed at *
    omega
  rw [unpackToid_eq_some, hledger, htx, hop]
  exact ⟨id.ledger_pos, hm, id.txOrder_pos, id.opOrder_pos, id.opOrder_le, rfl⟩

theorem packed_le : (id.packed : Int) ≤ i64Max := by
  have := id.ledger_lt
  have := id.txOrder_lt
  have := id.opOrder_le
  unfold packed maxOpsPerTx i64Max at *
  omega

theorem decodeToid_text (hm : id.ledger ≤ m) : decodeToid id.text m = some id.toid := by
  have hdigits : ∀ c ∈ Nat.toDigits 10 id.packed, isAsciiDigit c = true :=
    fun c => isAsciiDigit_toDigits
  have hlist : id.text.toList = Nat.toDigits 10 id.packed := String.toList_ofList
  have hparse := parseI64_digits Nat.toDigits_ne_nil hdigits (decimalValue_toDigits _) id.packed_le
  unfold decodeToid
  rw [hlist, hparse, isDigits_of_all Nat.toDigits_ne_nil hdigits]
  simp only [Bool.not_true, Bool.false_eq_true, if_false]
  exact unpackToid_packed id hm

end OperationId

end Octo
