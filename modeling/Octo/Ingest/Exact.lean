import Mathlib.Data.List.Induction
import Mathlib.Tactic.FieldSimp
import Octo.Ingest.Printed

/-!
# Which texts are read, and as what

`decode_toid` and `to_stroops` work on text digit by digit.  Here they are held to what the texts
denote: an operation id is a number below `2^63` that packs a ledger, a transaction order and an
operation order, and an amount is a decimal number that is a whole number of stroops.
-/

namespace Octo

open List

/-! ### Operation ids -/

namespace Toid

def encode (t : Toid) : Int := t.ledger * 2 ^ 32 + t.txOrder * 2 ^ 12 + (t.operationIndex + 1)

structure InRange (t : Toid) (maxLedger : Nat) : Prop where
  ledger_pos : 1 ≤ t.ledger
  ledger_le : t.ledger ≤ maxLedger
  txOrder_pos : 1 ≤ t.txOrder
  txOrder_lt : t.txOrder < 2 ^ 20
  index_nonneg : 0 ≤ t.operationIndex
  index_lt : t.operationIndex < 100

end Toid

theorem unpackToid_iff_encode {v maxLedger : Nat} {t : Toid} :
    unpackToid v maxLedger = some t ↔ (v : Int) = t.encode ∧ t.InRange maxLedger := by
  rw [unpackToid_eq_some]
  unfold Toid.encode maxOpsPerTx
  constructor
  · rintro ⟨hledger, hmax, htx, hop, hops, rfl⟩
    refine ⟨?_, ?_⟩
    · show (v : Int) = (v / 2 ^ 32 : Nat) * 2 ^ 32 + (v / 2 ^ 12 % 2 ^ 20 : Nat) * 2 ^ 12 +
        ((v % 2 ^ 12 : Nat) - 1 + 1)
      omega
    · exact ⟨hledger, hmax, htx, Nat.mod_lt _ (by decide),
        by show (0 : Int) ≤ (v % 2 ^ 12 : Nat) - 1; omega,
        by show ((v % 2 ^ 12 : Nat) : Int) - 1 < 100; omega⟩
  · obtain ⟨ledger, txOrder, index⟩ := t
    rintro ⟨hv, ⟨hledger, hmax, htx, htx', hop, hop'⟩⟩
    simp only at hv hledger hmax htx htx' hop hop'
    have hparts : v / 2 ^ 32 = ledger ∧ v / 2 ^ 12 % 2 ^ 20 = txOrder ∧
        ((v % 2 ^ 12 : Nat) : Int) = index + 1 := by
      omega
    obtain ⟨h1, h2, h3⟩ := hparts
    refine ⟨by omega, by omega, by omega, by omega, by omega, ?_⟩
    rw [h1, h2, h3]
    simp

theorem decodeToid_iff {s : String} {maxLedger : Nat} {t : Toid} : decodeToid s maxLedger = some t ↔
      isDigits s.toList = true ∧ tokenValue s < 2 ^ 63 ∧ unpackToid (tokenValue s) maxLedger =
        some t := by
  unfold decodeToid
  by_cases hd : isDigits s.toList = true
  · have hrange : ((decimalValue s.toList : Nat) : Int) ≤ i64Max ↔ tokenValue s < 2 ^ 63 := by
      unfold tokenValue i64Max
      omega
    rw [isDigits_parse hd, hd]
    by_cases hv : tokenValue s < 2 ^ 63
    · rw [if_pos (hrange.mpr hv)]
      simp only [Bool.not_true, Int.toNat_natCast, true_and]
      exact ⟨fun h => ⟨hv, h⟩, fun h => h.2⟩
    · rw [if_neg (fun h => hv (hrange.mp h))]
      simp only [Bool.not_true, true_and]
      exact ⟨fun h => (nomatch h), fun h => absurd h.1 hv⟩
  · simp [hd]

theorem tokenValue_repr (n : Nat) : tokenValue (Nat.repr n) = n := by
  unfold tokenValue
  rw [Nat.repr, String.toList_ofList]
  exact decimalValue_toDigits n

/-- **An operation id decodes exactly if it is a string of digits for a number below `2^63` that
packs parts in range**, to just these parts; so the parts determine the number, and its canonical
text. -/
theorem decodeToid_exact (s : String) (maxLedger : Nat) (t : Toid) :
    (decodeToid s maxLedger = some t ↔
      isDigits s.toList = true ∧ tokenValue s < 2 ^ 63 ∧ (tokenValue s : Int) = t.encode ∧
      t.InRange maxLedger) ∧
    ∀ n n' maxLedger', decodeToid (Nat.repr n) maxLedger = some t →
      decodeToid (Nat.repr n') maxLedger' = some t → Nat.repr n = Nat.repr n' := by
  refine ⟨?_, ?_⟩
  · rw [decodeToid_iff, unpackToid_iff_encode]
  · intro n n' maxLedger' h h'
    have hn := (unpackToid_iff_encode.mp (decodeToid_iff.mp h).2.2).1
    have hn' := (unpackToid_iff_encode.mp (decodeToid_iff.mp h').2.2).1
    rw [tokenValue_repr] at hn hn'
    have : n = n' := by omega
    rw [this]

example : decodeToid "12884905985" 100 = some ⟨3, 1, 0⟩ := by decide

/-! ### Decimal numbers -/

/-- Digits, optionally followed by a point and at most seven digits, with the number they denote. -/
inductive IsDecimal : List Char → ℚ → Prop
  | whole {I : List Char} (hI : isDigits I = true) : IsDecimal I (decimalValue I)
  | point {I F : List Char} (hI : isDigits I = true) (hF : ∀ c ∈ F, isAsciiDigit c = true)
      (hlen : F.length ≤ 7) :
      IsDecimal (I ++ '.' :: F) (decimalValue I + decimalValue F / 10 ^ F.length)

theorem decimalValue_concat (s : List Char) (c : Char) :
    decimalValue (s ++ [c]) = 10 * decimalValue s + (c.toNat - 48) := by
  simp [decimalValue]

theorem decimalValue_pad (s : List Char) (k : Nat) :
    decimalValue (s ++ replicate k '0') = decimalValue s * 10 ^ k := by
  induction k with
  | zero => simp
  | succ k ih =>
    rw [replicate_succ', ← append_assoc, decimalValue_concat, ih]
    show 10 * (decimalValue s * 10 ^ k) + 0 = decimalValue s * (10 ^ k * 10)
    ring

variable {F I s : List Char}

theorem decimalValue_lt (h : ∀ c ∈ s, isAsciiDigit c = true) : decimalValue s < 10 ^ s.length := by
  induction s using reverseRecOn with
  | nil => decide
  | append_singleton s c ih =>
    have hc : isAsciiDigit c = true := h c (by simp)
    have hs := ih (fun d hd => h d (mem_append_left _ hd))
    simp only [isAsciiDigit, Bool.and_eq_true, decide_eq_true_eq] at hc
    rw [decimalValue_concat, length_append, length_singleton]
    omega

theorem isDigits_iff : isDigits s = true ↔ s ≠ [] ∧ ∀ c ∈ s, isAsciiDigit c = true := by
  simp [isDigits]

/-- The whole units and the fraction of an amount, the fraction padded to seven digits. -/
def stroopsOf (I F : List Char) : Nat :=
  decimalValue I * 10000000 + decimalValue F * 10 ^ (7 - F.length)

theorem splitPoint_cases (s : List Char) :
    '.' ∉ s ∧ splitPoint s = (s, []) ∨ ∃ I F, '.' ∉ I ∧ s = I ++ '.' :: F ∧
    splitPoint s = (I, F) := by
  unfold splitPoint
  induction s with
  | nil => exact .inl ⟨not_mem_nil, rfl⟩
  | cons c s ih =>
    by_cases hc : c = '.'
    · subst hc
      exact .inr ⟨[], s, not_mem_nil, rfl, rfl⟩
    · have hne : (c != '.') = true := bne_iff_ne.mpr hc
      rw [takeWhile_cons_of_pos (p := (· != '.')) hne, dropWhile_cons_of_pos (p := (· != '.')) hne]
      rcases ih with ⟨hmem, hs⟩ | ⟨I, F, hmem, hs, hsplit⟩
      · left
        rw [Prod.mk.injEq] at hs ⊢
        exact ⟨by simp [hmem, Ne.symm hc], by rw [hs.1], hs.2⟩
      · right
        rw [Prod.mk.injEq] at hsplit
        refine ⟨c :: I, F, by simp [hmem, Ne.symm hc], by rw [hs, cons_append], ?_⟩
        rw [hsplit.1, hsplit.2]

theorem digits_pad (hF : ∀ c ∈ F, isAsciiDigit c = true) :
    ∀ c ∈ F ++ replicate (7 - F.length) '0', isAsciiDigit c = true := by
  intro c hc
  rcases mem_append.mp hc with hc | hc
  · exact hF c hc
  · rw [eq_of_mem_replicate hc]
    decide

theorem length_pad (hlen : F.length ≤ 7) : (F ++ replicate (7 - F.length) '0').length = 7 := by
  rw [length_append, length_replicate]
  omega

theorem parseI64_pad (hF : ∀ c ∈ F, isAsciiDigit c = true) (hlen : F.length ≤ 7) :
    parseI64 (F ++ replicate (7 - F.length) '0') =
      some ((decimalValue F * 10 ^ (7 - F.length) : Nat) : Int) := by
  have hlength := length_pad hlen
  have hlt := decimalValue_lt (digits_pad hF)
  rw [hlength] at hlt
  refine parseI64_digits (ne_nil_of_length_pos (by omega)) (digits_pad hF) (decimalValue_pad F _) ?_
  rw [← decimalValue_pad]
  unfold i64Max
  omega

theorem checked_parts (hI : isDigits I = true) (hF : ∀ c ∈ F, isAsciiDigit c = true)
    (hlen : F.length ≤ 7) :
    ((parseI64 I).bind fun a => (parseI64 (F ++ replicate (decimals - F.length) '0')).bind fun b =>
      (checked (a * stroopsPerUnit)).bind fun u => checked (u + b)) =
        if (stroopsOf I F : Int) ≤ i64Max then some (stroopsOf I F : Int) else none := by
  have hvalue : (stroopsOf I F : Int) =
      (decimalValue I : Int) * stroopsPerUnit + (decimalValue F * 10 ^ (7 - F.length) : Nat) := by
    rfl
  have hpad : parseI64 (F ++ replicate (decimals - F.length) '0') = _ := parseI64_pad hF hlen
  rw [isDigits_parse hI, hpad, hvalue]
  by_cases hi : (decimalValue I : Int) ≤ i64Max
  · rw [if_pos hi, Option.bind_some, Option.bind_some]
    by_cases hu : (decimalValue I : Int) * stroopsPerUnit ≤ i64Max
    · rw [checked, if_pos hu, Option.bind_some, checked]
    · rw [checked, if_neg hu, Option.bind_none, if_neg (by omega)]
  · have hle : (decimalValue I : Int) ≤ (decimalValue I : Int) * stroopsPerUnit :=
      le_mul_of_one_le_right (Int.natCast_nonneg _) (by decide)
    rw [if_neg hi, Option.bind_none, if_neg (by omega)]

theorem toStroops_iff {s : String} (hsplit : splitPoint (trim s.toList) = (I, F)) (n : Int) :
    toStroops s = some n ↔
      isDigits I = true ∧ (∀ c ∈ F, isAsciiDigit c = true) ∧ F.length ≤ 7 ∧ n = stroopsOf I F ∧
      n ≤ i64Max := by
  have hI0 : I = (trim s.toList).takeWhile (· != '.') := (congrArg Prod.fst hsplit).symm
  unfold toStroops
  simp only [hsplit]
  by_cases hI : isDigits I = true
  · obtain ⟨hne, hall⟩ := isDigits_iff.mp hI
    -- the first character is a digit, so neither guard of the first test holds
    have hstart : ((trim s.toList).isEmpty || (trim s.toList).head? == some '-') = false := by
      cases ht : trim s.toList with
      | nil =>
        rw [ht] at hI0
        exact absurd hI0 hne
      | cons c =>
        rw [ht] at hI0
        by_cases hc : c = '.'
        · rw [hc] at hI0
          exact absurd hI0 hne
        · rw [takeWhile_cons_of_pos (p := (· != '.')) (bne_iff_ne.mpr hc)] at hI0
          have hdigit := hall c (by rw [hI0]; exact mem_cons_self)
          have hminus : c ≠ '-' := by
            rintro rfl
            cases hdigit
          simp [hminus]
    rw [hstart, all_eq_true.mpr hall]
    by_cases hF : ∀ c ∈ F, isAsciiDigit c = true
    · rw [all_eq_true.mpr hF]
      by_cases hlen : F.length ≤ 7
      · have hshort : decide (decimals < F.length) = false := decide_eq_false (Nat.not_lt.mpr hlen)
        have hdo := checked_parts hI hF hlen
        simp only [hshort, Bool.not_true, Bool.or_self]
        refine Eq.congr_left hdo |>.trans ?_
        split
        · rename_i hmax
          simp only [Option.some.injEq, hI, hlen, true_and]
          exact ⟨fun h => ⟨hF, h.symm, h ▸ hmax⟩, fun h => h.2.1.symm⟩
        · rename_i hmax
          refine ⟨fun h => (nomatch h), fun h => ?_⟩
          obtain ⟨-, -, -, hn, hle⟩ := h
          exact absurd (hn ▸ hle) hmax
      · have hlong : decide (decimals < F.length) = true := decide_eq_true (Nat.not_le.mp hlen)
        simp [hlong, hlen]
    · have hall' : F.all isAsciiDigit = false := by
        rw [← Bool.not_eq_true, all_eq_true]
        exact hF
      simp [hF]
  · refine iff_of_false (fun h => ?_) (fun h => hI h.1)
    split at h
    · cases h
    split at h
    · cases h
    · -- both parts are digits, so the first is empty, and the empty text is no number
      rename_i hguard
      have hall : ∀ c ∈ I, isAsciiDigit c = true := by
        simp only [Bool.or_eq_true, Bool.not_eq_true', not_or, Bool.not_eq_false,
          all_eq_true] at hguard
        exact hguard.1.1
      have hnil : I = [] := by
        by_contra hne
        exact hI (isDigits_of_all hne hall)
      rw [hnil] at h
      cases h

theorem decimal_stroops (hlen : F.length ≤ 7) (n : Int) :
    ((decimalValue I : ℚ) + decimalValue F / 10 ^ F.length) * 10 ^ 7 = n ↔ n = stroopsOf I F := by
  have hpow : (10 : ℚ) ^ 7 = 10 ^ F.length * 10 ^ (7 - F.length) := by
    rw [← pow_add, Nat.add_sub_cancel' hlen]
  have hscaled : ((decimalValue I : ℚ) + decimalValue F / 10 ^ F.length) * 10 ^ 7 =
      ((stroopsOf I F : Int) : ℚ) := by
    have hfrac : (decimalValue F : ℚ) / 10 ^ F.length * 10 ^ 7 = decimalValue F *
        10 ^ (7 - F.length) := by
      rw [hpow]
      field_simp
    rw [add_mul, hfrac, stroopsOf]
    norm_num
  rw [hscaled, Int.cast_inj, eq_comm]

theorem splitPoint_of_digits (h : ∀ c ∈ s, isAsciiDigit c = true) : splitPoint s = (s, []) := by
  rcases splitPoint_cases s with ⟨-, hs⟩ | ⟨I, F, -, rfl, -⟩
  · exact hs
  · exact absurd (h '.' (by simp)) (by decide)

theorem isDecimal_iff {t : List Char} (hsplit : splitPoint t = (I, F)) (q : ℚ) :
    IsDecimal t q ↔ isDigits I = true ∧ (∀ c ∈ F, isAsciiDigit c = true) ∧ F.length ≤ 7 ∧
      q = decimalValue I + decimalValue F / 10 ^ F.length := by
  constructor
  · intro h
    cases h with
    | whole hI =>
      rw [splitPoint_of_digits (isDigits_iff.mp hI).2] at hsplit
      cases hsplit
      refine ⟨hI, forall_mem_nil _, by decide, ?_⟩
      simp [decimalValue]
    | point hI hF hlen =>
      rw [splitPoint_digits (isDigits_iff.mp hI).2] at hsplit
      cases hsplit
      exact ⟨hI, hF, hlen, rfl⟩
  · rintro ⟨hI, hF, hlen, rfl⟩
    rcases splitPoint_cases t with ⟨-, hs⟩ | ⟨I', F', -, rfl, hs⟩
    · obtain ⟨rfl, rfl⟩ := Prod.mk.inj (hs.symm.trans hsplit)
      simpa [decimalValue] using IsDecimal.whole hI
    · obtain ⟨rfl, rfl⟩ := Prod.mk.inj (hs.symm.trans hsplit)
      exact .point hI hF hlen

/-- **An amount is read exactly if, trimmed, it is a decimal text with at most seven digits after
the point that denotes at most `2^63 - 1` stroops**, and it is read as what it denotes. -/
theorem toStroops_exact (s : String) (n : Int) :
    toStroops s = some n ↔ ∃ q : ℚ, IsDecimal (trim s.toList) q ∧ q * 10 ^ 7 = n ∧
    n ≤ 2 ^ 63 - 1 := by
  have hmax : i64Max = 2 ^ 63 - 1 := by decide
  rw [← hmax, toStroops_iff (Prod.mk.eta).symm]
  constructor
  · rintro ⟨hI, hF, hlen, hn, hle⟩
    exact ⟨_, (isDecimal_iff rfl _).mpr ⟨hI, hF, hlen, rfl⟩, (decimal_stroops hlen n).mpr hn, hle⟩
  · rintro ⟨q, hq, hn, hle⟩
    obtain ⟨hI, hF, hlen, rfl⟩ := (isDecimal_iff rfl q).mp hq
    exact ⟨hI, hF, hlen, (decimal_stroops hlen n).mp hn, hle⟩

example :
    toStroops " 10.5 " = some 105000000 ∧ toStroops "1.00000000" = none ∧
    toStroops "+1" = none := by
  decide

end Octo
