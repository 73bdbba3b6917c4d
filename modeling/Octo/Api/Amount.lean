import Mathlib.Data.List.TakeWhile
import Octo.Ingest.Exact

/-!
# The balance parser of the API

`parse_amount_stroops` of `crates/api/src/horizon.rs` reads the balances of an account; `to_stroops`
of the ingest crate reads the amounts of deposits.  They differ on signs, on white space, on more
than seven fraction digits, on fractions that are no text of digits, and on numbers of stroops
beyond 64 bits.
-/

namespace Octo

open List

/-! ### White space -/

variable {c : Char}

theorem not_whitespace_of_digit_or_point (h : isAsciiDigit c = true ∨ c = '.') :
    isWhitespace c = false := by
  rcases h with h | rfl
  · exact isWhitespace_digit h
  · decide

variable {q : ℚ}

theorem IsDecimal.chars {t : List Char} (h : IsDecimal t q) :
    ∀ c ∈ t, isAsciiDigit c = true ∨ c = '.' := by
  intro c hc
  cases h with
  | whole hI => exact .inl ((isDigits_iff.mp hI).2 c hc)
  | point hI hF =>
    rcases mem_append.mp hc with hc | hc
    · exact .inl ((isDigits_iff.mp hI).2 c hc)
    rcases mem_cons.mp hc with hc | hc
    · exact .inr hc
    · exact .inl (hF c hc)

theorem exists_trim (s : List Char) :
    ∃ lead trail, s = lead ++ (trim s ++ trail) ∧ (∀ c ∈ lead, isWhitespace c = true) ∧
      ∀ c ∈ trail, isWhitespace c = true := by
  refine ⟨s.takeWhile isWhitespace,
    ((s.dropWhile isWhitespace).reverse.takeWhile isWhitespace).reverse, ?_, ?_, ?_⟩
  · have hback := takeWhile_append_dropWhile (p := isWhitespace)
      (l := (s.dropWhile isWhitespace).reverse)
    have hfront := takeWhile_append_dropWhile (p := isWhitespace) (l := s)
    rw [trim, ← reverse_append, hback, reverse_reverse, hfront]
  · exact fun c hc => mem_takeWhile_imp hc
  · intro c hc
    exact mem_takeWhile_imp (mem_reverse.mp hc)

theorem IsDecimal.trim_append {t w : List Char} (h : IsDecimal t q)
    (hw : ∀ c ∈ w, isWhitespace c = true) : trim (t ++ w) = t :=
  Octo.trim_append (fun c hc => not_whitespace_of_digit_or_point (h.chars c hc)) hw

theorem not_whitespace_of_parseI64 {s : List Char} {n : Int} (h : parseI64 s = some n)
    (hc : c ∈ s) : isWhitespace c = false := by
  have hdigits : ∀ {ds : List Char}, isDigits ds = true → c ∈ ds → isWhitespace c = false :=
    fun hds hmem => isWhitespace_digit ((isDigits_iff.mp hds).2 c hmem)
  unfold parseI64 at h
  split at h
  · split at h
    · rename_i hds
      rcases mem_cons.mp hc with rfl | hc
      · decide
      · exact hdigits (Bool.and_eq_true_iff.mp hds).1 hc
    · cases h
  · split at h
    · rename_i hds
      rcases mem_cons.mp hc with rfl | hc
      · decide
      · exact hdigits (Bool.and_eq_true_iff.mp hds).1 hc
    · cases h
  · split at h
    · rename_i hds
      exact hdigits (Bool.and_eq_true_iff.mp hds).1 hc
    · cases h

theorem IsDecimal.stroops {t I F : List Char} (h : IsDecimal t q) (hsplit : splitPoint t = (I, F)) :
    q * 10 ^ 7 = ((stroopsOf I F : Int) : ℚ) := by
  obtain ⟨-, -, hlen, rfl⟩ := (isDecimal_iff hsplit q).mp h
  exact (decimal_stroops hlen _).mpr rfl

namespace Api

/-! ### The parser -/

/-- What a call of the parser comes to.  An overflow is a panic where overflow is checked, and
otherwise the number is taken modulo `2^64`. -/
inductive Parsed
  | returns (r : Option Int)
  | overflows (wrapped : Int)
  | panics
  deriving DecidableEq

def byteLength (s : List Char) : Nat := (s.map Char.utf8Size).sum

/-- `String::truncate`; `none` where the new length is not a character boundary. -/
def truncate : Nat → List Char → Option (List Char)
  | 0, _ => some []
  | _ + 1, [] => some []
  | k + 1, c :: s =>
    if c.utf8Size ≤ k + 1 then (truncate (k + 1 - c.utf8Size) s).map (c :: ·) else none

def cutFraction (frac : List Char) : Option (List Char) :=
  truncate 7 (frac ++ List.replicate (7 - byteLength frac) '0')

def fitsI64 (n : Int) : Bool := decide (-9223372036854775808 ≤ n) && decide (n ≤ i64Max)

def parseAmountStroops (s : String) : Parsed :=
  let (whole, frac) := splitPoint s.toList
  match parseI64 whole with
  | none => .returns none
  | some whole =>
    match cutFraction frac with
    | none => .panics
    | some frac =>
      match parseI64 frac with
      | none => .returns none
      | some frac =>
        let n := whole * 10000000 + frac
        if fitsI64 (whole * 10000000) && fitsI64 n then .returns (some n)
        else .overflows (n.bmod (2 ^ 64))

/-! ### Fractions -/

theorem utf8Size_digit (h : isAsciiDigit c = true) : c.utf8Size = 1 := by
  simp only [isAsciiDigit, Bool.and_eq_true, decide_eq_true_eq] at h
  rw [Char.utf8Size_eq_one_iff]
  exact UInt32.le_iff_toNat_le.mpr (Nat.le_trans h.2 (by decide))

variable {F : List Char} {s : String}

theorem truncate_digits (hF : ∀ c ∈ F, isAsciiDigit c = true) {k : Nat} (hk : F.length ≤ k)
    (rest : List Char) : truncate k (F ++ rest) = (truncate (k - F.length) rest).map (F ++ ·) := by
  induction F generalizing k with
  | nil => simp
  | cons c F ih =>
    have hsize := utf8Size_digit (hF c mem_cons_self)
    rw [length_cons] at hk
    cases k with
    | zero => omega
    | succ k =>
      rw [cons_append, truncate, hsize, if_pos (by omega),
        ih (forall_mem_cons.mp hF).2 (by omega), Option.map_map, length_cons]
      have hleft : k + 1 - 1 - F.length = k + 1 - (F.length + 1) := by omega
      rw [hleft]
      rfl

theorem byteLength_append (s t : List Char) :
    byteLength (s ++ t) = byteLength s + byteLength t := by
  simp [byteLength]

theorem byteLength_digits (hF : ∀ c ∈ F, isAsciiDigit c = true) : byteLength F = F.length := by
  induction F with
  | nil => rfl
  | cons c F ih =>
    have hc := utf8Size_digit (hF c mem_cons_self)
    have hF' := ih (forall_mem_cons.mp hF).2
    unfold byteLength at hF' ⊢
    rw [map_cons, sum_cons, hc, length_cons]
    omega

theorem cutFraction_digits (hF : ∀ c ∈ F, isAsciiDigit c = true) (hlen : F.length ≤ 7) :
    cutFraction F = some (F ++ replicate (7 - F.length) '0') := by
  have hseven := length_pad hlen
  have hcut := truncate_digits (digits_pad hF) (Nat.le_of_eq hseven) []
  rw [append_nil, hseven] at hcut
  rw [cutFraction, byteLength_digits hF, hcut]
  simp [truncate]

theorem cutFraction_seven {F w : List Char} (hF : ∀ c ∈ F, isAsciiDigit c = true)
    (hlen : F.length = 7) : cutFraction (F ++ w) = some F := by
  have hnone : 7 - byteLength (F ++ w) = 0 := by
    rw [byteLength_append, byteLength_digits hF]
    omega
  rw [cutFraction, hnone, replicate_zero, append_nil, truncate_digits hF (Nat.le_of_eq hlen), hlen]
  simp [truncate]

theorem cutFraction_short {F w f : List Char} (hF : ∀ c ∈ F, isAsciiDigit c = true)
    (hlen : F.length < 7) (h : cutFraction (F ++ c :: w) = some f) : c ∈ f := by
  rw [cutFraction, append_assoc, truncate_digits hF (Nat.le_of_lt hlen)] at h
  obtain ⟨k, hk⟩ : ∃ k, 7 - F.length = k + 1 := ⟨6 - F.length, by omega⟩
  rw [hk, cons_append, truncate] at h
  split at h
  · obtain ⟨g, hg, rfl⟩ := Option.map_eq_some_iff.mp h
    obtain ⟨g', -, rfl⟩ := Option.map_eq_some_iff.mp hg
    exact mem_append_right _ mem_cons_self
  · cases h

/-! ### Where the parsers agree -/

def IsAmount (s : String) : Prop := ∃ q : ℚ, IsDecimal (trim s.toList) q ∧ q * 10 ^ 7 ≤ 2 ^ 63 - 1

/-- The text is such a number and nothing else, save white space after a fraction of seven digits.
-/
def PlainAmount (s : String) : Prop :=
  ∃ (t w : List Char) (q : ℚ), s.toList = t ++ w ∧ IsDecimal t q ∧ q * 10 ^ 7 ≤ 2 ^ 63 - 1 ∧
    (∀ c ∈ w, isWhitespace c = true) ∧ (w = [] ∨ (splitPoint t).2.length = 7)

/-- The part before the first point, or the part after it brought to seven bytes, is no number. -/
def Unreadable (s : String) : Prop :=
  parseI64 (splitPoint s.toList).1 = none ∨
    ∃ f, cutFraction (splitPoint s.toList).2 = some f ∧ parseI64 f = none

theorem stroops_le_iff (n : Int) : (n : ℚ) ≤ 2 ^ 63 - 1 ↔ n ≤ 2 ^ 63 - 1 := by
  have : ((2 ^ 63 - 1 : Int) : ℚ) = 2 ^ 63 - 1 := by norm_num
  rw [← this, Int.cast_le]

theorem isAmount_iff (s : String) : IsAmount s ↔ ∃ n, toStroops s = some n := by
  obtain ⟨I, F, hsplit⟩ : ∃ I F, splitPoint (trim s.toList) = (I, F) := ⟨_, _, rfl⟩
  constructor
  · rintro ⟨q, hq, hle⟩
    rw [hq.stroops hsplit, stroops_le_iff] at hle
    obtain ⟨hI, hF, hlen, -⟩ := (isDecimal_iff hsplit q).mp hq
    exact ⟨_, (toStroops_iff hsplit _).mpr ⟨hI, hF, hlen, rfl, hle⟩⟩
  · rintro ⟨n, hn⟩
    obtain ⟨hI, hF, hlen, rfl, hle⟩ := (toStroops_iff hsplit n).mp hn
    have hq := (isDecimal_iff hsplit _).mpr ⟨hI, hF, hlen, rfl⟩
    exact ⟨_, hq, by rw [hq.stroops hsplit]; exact (stroops_le_iff _).mpr hle⟩

theorem plain_of_both {whole : Int} {f : List Char} {frac : Int}
    (hw : parseI64 (splitPoint s.toList).1 = some whole)
    (hcut : cutFraction (splitPoint s.toList).2 = some f) (hf : parseI64 f = some frac)
    (h : IsAmount s) : PlainAmount s := by
  obtain ⟨q, hq, hle⟩ := h
  obtain ⟨lead, trail, hs, hlead, htrail⟩ := exists_trim s.toList
  generalize trim s.toList = t at hq hs
  -- leading white space would be part of the whole units
  have hnil : lead = [] := by
    cases lead with
    | nil => rfl
    | cons c =>
      have hc := hlead c mem_cons_self
      have hpoint : c ≠ '.' := by
        rintro rfl
        cases hc
      have hmem : c ∈ (splitPoint s.toList).1 := by
        rw [hs, splitPoint, cons_append,
          takeWhile_cons_of_pos (p := (· != '.')) (bne_iff_ne.mpr hpoint)]
        exact mem_cons_self
      rw [not_whitespace_of_parseI64 hw hmem] at hc
      cases hc
  rw [hnil] at hs
  refine ⟨t, trail, q, hs, hq, hle, htrail, ?_⟩
  cases htr : trail with
  | nil => exact .inl rfl
  | cons c trail' =>
    right
    have hc := htrail c (htr ▸ mem_cons_self)
    cases hq with
    | whole hI =>
      -- without a point, trailing white space would be part of the whole units too
      have hsplit : (splitPoint s.toList).1 = t ++ trail := by
        have hpoint : ∀ d ∈ t ++ trail, (d != '.') = true := by
          intro d hd
          rw [bne_iff_ne]
          rintro rfl
          rcases mem_append.mp hd with hd | hd
          · exact absurd ((isDigits_iff.mp hI).2 _ hd) (by decide)
          · exact absurd (htrail _ hd) (by decide)
        rw [hs]
        exact takeWhile_eq_self_iff.mpr hpoint
      have hmem : c ∈ (splitPoint s.toList).1 := by
        rw [hsplit, htr]
        exact mem_append_right _ mem_cons_self
      rw [not_whitespace_of_parseI64 hw hmem] at hc
      cases hc
    | @point I F hI hF hlen =>
      rw [splitPoint_digits (isDigits_iff.mp hI).2]
      by_contra hne
      have hlen' : F.length < 7 := by
        change F.length ≠ 7 at hne
        omega
      have hsplit : splitPoint s.toList = (I, F ++ c :: trail') := by
        rw [hs, htr, append_assoc]
        exact splitPoint_digits (isDigits_iff.mp hI).2
      rw [hsplit] at hcut
      have hmem := cutFraction_short hF hlen' hcut
      rw [not_whitespace_of_parseI64 hf hmem] at hc
      cases hc

theorem agree_of_plain (h : PlainAmount s) : parseAmountStroops s = .returns (toStroops s) := by
  obtain ⟨t, w, q, hs, hq, hle, hw, hform⟩ := h
  have htrim : trim s.toList = t := by rw [hs]; exact hq.trim_append hw
  obtain ⟨I, F, hsplit⟩ : ∃ I F, splitPoint t = (I, F) := ⟨_, _, rfl⟩
  obtain ⟨hI, hF, hlen, -⟩ := (isDecimal_iff hsplit q).mp hq
  rw [hq.stroops hsplit, stroops_le_iff] at hle
  have hread : toStroops s = some (stroopsOf I F : Int) :=
    (toStroops_iff (by rw [htrim, hsplit]) _).mpr ⟨hI, hF, hlen, rfl, hle⟩
  -- the fraction comes out padded, whatever was cut off behind it
  have hparts : splitPoint s.toList = (I, F ++ w) ∧
      cutFraction (F ++ w) = some (F ++ replicate (7 - F.length) '0') := by
    rcases hform with rfl | hseven
    · rw [append_nil] at hs ⊢
      exact ⟨by rw [hs, hsplit], cutFraction_digits hF hlen⟩
    · rw [hsplit] at hseven
      refine ⟨?_, ?_⟩
      · rcases splitPoint_cases t with ⟨-, hwhole⟩ | ⟨I', F', -, rfl, hpoint⟩
        · rw [hwhole] at hsplit
          obtain ⟨-, rfl⟩ := Prod.mk.inj hsplit
          cases hseven
        · rw [hpoint] at hsplit
          cases hsplit
          rw [hs, append_assoc]
          exact splitPoint_digits (isDigits_iff.mp hI).2
      · rw [cutFraction_seven hF hseven, hseven, replicate_zero, append_nil]
  have hwhole : parseI64 I = some (decimalValue I : Int) := by
    rw [isDigits_parse hI, if_pos]
    have hi64 : i64Max = 2 ^ 63 - 1 := by decide
    unfold stroopsOf at hle
    omega
  have hvalue : (decimalValue I : Int) * 10000000 +
      ((decimalValue F * 10 ^ (7 - F.length) : Nat) : Int) = (stroopsOf I F : Int) := by
    rfl
  have hfits : ∀ n : Int, 0 ≤ n → n ≤ 2 ^ 63 - 1 → fitsI64 n = true := by
    intro n h0 h1
    unfold fitsI64 i64Max
    rw [Bool.and_eq_true_iff]
    exact ⟨decide_eq_true (by omega), decide_eq_true (by omega)⟩
  have hunits : fitsI64 ((decimalValue I : Int) * 10000000) = true := hfits _ (by omega) (by omega)
  have htotal : fitsI64 (stroopsOf I F : Int) = true := hfits _ (Int.natCast_nonneg _) hle
  rw [hread, parseAmountStroops, hparts.1]
  simp only [hwhole, hparts.2, parseI64_pad hF hlen, hvalue, hunits, htotal, Bool.and_self, if_true]

/-- **The parsers agree exactly on the plain amounts and on the texts that both refuse**: those
that, trimmed, are no amount in range, and of which one part is no number. -/
theorem amounts_agree_iff (s : String) :
    parseAmountStroops s = .returns (toStroops s) ↔ PlainAmount s ∨ ¬ IsAmount s ∧
    Unreadable s := by
  have hnone : ¬ IsAmount s ↔ toStroops s = none := by
    rw [isAmount_iff, Option.eq_none_iff_forall_ne_some, not_exists]
  constructor
  · intro h
    unfold parseAmountStroops at h
    dsimp only at h
    cases hw : parseI64 (splitPoint s.toList).1 with
    | none =>
      rw [hw] at h
      exact .inr ⟨hnone.mpr (Parsed.returns.inj h).symm, .inl hw⟩
    | some =>
      rw [hw] at h
      cases hcut : cutFraction (splitPoint s.toList).2 with
      | none =>
        rw [hcut] at h
        cases h
      | some f =>
        rw [hcut] at h
        dsimp only at h
        cases hf : parseI64 f with
        | none =>
          rw [hf] at h
          exact .inr ⟨hnone.mpr (Parsed.returns.inj h).symm, .inr ⟨f, hcut, hf⟩⟩
        | some =>
          rw [hf] at h
          dsimp only at h
          split at h
          · exact .inl (plain_of_both hw hcut hf
              ((isAmount_iff s).mpr ⟨_, (Parsed.returns.inj h).symm⟩))
          · cases h
  · rintro (h | ⟨hamount, hun⟩)
    · exact agree_of_plain h
    · rw [hnone.mp hamount, parseAmountStroops]
      cases hw : parseI64 (splitPoint s.toList).1 with
      | none => simp only [hw]
      | some =>
        obtain hnum | ⟨f, hcut, hf⟩ := hun
        · rw [hnum] at hw
          cases hw
        · simp only [hw, hcut, hf]

/-- **The parsers do not agree**: a debt of half a unit is a balance of half a unit to one of them,
a fraction is cut to seven digits, the product overflows, and a cut inside a character panics. -/
theorem amounts_disagree :
    (parseAmountStroops "-0.5" = .returns (some 5000000) ∧ toStroops "-0.5" = none) ∧
    (parseAmountStroops "1.00000009" = .returns (some 10000000) ∧ toStroops "1.00000009" = none) ∧
    (parseAmountStroops "922337203686" = .overflows (-9223372036849551616) ∧
      toStroops "922337203686" = none) ∧
    (parseAmountStroops "1.000000é" = .panics ∧ toStroops "1.000000é" = none) ∧
    (parseAmountStroops " 1" = .returns none ∧ toStroops " 1" = some 10000000) := by
  decide

end Api

end Octo
